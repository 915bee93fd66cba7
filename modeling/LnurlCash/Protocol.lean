import LnurlCash.Json
import LnurlCash.Lib.Outcome
import LnurlCash.Note

namespace LnurlCash

open Outcome

structure Policy where
  requireSignatures : Bool := false
  requireMintPubkey : Bool := true
  deriving DecidableEq

inductive MutationKind where
  | melt | rotate | split | merge
  deriving DecidableEq

def isCompressedPubkey (value : Str) : Bool :=
  let key := Str.lower (Str.trim value)
  decide (Str.byteLen key = 66) && ("02".toList.isPrefixOf key || "03".toList.isPrefixOf key) && key.all Hex.isHexDigit

/-- One GET, and the secrets whose loss would destroy money. -/
structure Request where
  url : Str
  /-- fresh preimages this request disclosed the hashes of -/
  newSecrets : List Str
  /-- the outputs a rotate, split or merge named, exactly as sent -/
  outputs : List Str
  deriving DecidableEq

def Request.plain (url : Str) : Request := { url, newSecrets := [], outputs := [] }

def Request.naming (url : Str) (outputs : List Str) : Request := { Request.plain url with outputs }

structure WithdrawRequestInfo where
  callback : Str
  k1 : Str
  maxWithdrawable : UInt64
  minWithdrawable : UInt64
  defaultDescription : Option Str
  mintPubkey : Option Str
  signature : Option Str
  deriving DecidableEq

structure PayRequestInfo where
  callback : Str
  minSendable : UInt64
  maxSendable : UInt64
  withdrawLink : Option Str
  deriving DecidableEq

structure MutationResponse where
  signature : Option Str
  changeSignature : Option Str
  pr : Option Str
  verify : Option Str
  deriving DecidableEq

/-- A SERVICE's ERROR is definitive; its reason is carried as sent. -/
def rejectError (body : Value) : Except Error Unit :=
  if asStr body "status".toList = some "ERROR".toList then
    .error (.serviceRejected ((asStr body "reason".toList).getD []))
  else .ok ()

/-- `rejectError` with its reason read for what it says about the note. -/
def classified (body : Value) : Except Error Unit :=
  match rejectError body with
  | .error (.serviceRejected reason) => .error (classifyNoteError reason)
  | _ => .ok ()

/-- A certificate field, by its current name, else the legacy one. -/
def certificate (body : Value) (current legacy : Str) : Option Str :=
  ((asStr body current).filter (· ≠ [])).or ((asStr body legacy).filter (· ≠ []))

/-! ### The informational GET -/

def Crates.noteInfoRequest (C : Crates) (url : Str) : Except Error Request :=
  match C.url.parse url with
  | none => .error (.requestRefused "that note URL does not parse".toList)
  | some parsed =>
    let pairs := (C.url.queryPairs parsed).filter fun pair => pair.1 ≠ "c".toList ∧ pair.1 ≠ "sig".toList
    .ok (Request.plain (C.rebuild parsed pairs))

def checkMintPubkey (mintPubkey : Option Str) (policy : Policy) : Except Error Unit :=
  if !policy.requireMintPubkey || mintPubkey.any isCompressedPubkey then .ok ()
  else
    .error (.protocol (match mintPubkey with
      | none => "this service publishes no mintPubkey, so its notes cannot be verified offline (LUD-25 requires one)".toList
      | some _ => "this service published a mintPubkey that is not a 33-byte compressed secp256k1 key".toList))

/-- Whether an echoed k1 names the queried note: the same text, or another
spend of the same `Q` that does not demonstrably fail to open it. -/
def Crates.sameNote (C : Crates) (echoed queried queriedUrl : Str) : Bool :=
  if Str.lower (Str.trim echoed) = Str.lower (Str.trim queried) then true
  else
    match C.noteIdOf echoed, C.noteIdOf queried with
    | some a, some b =>
      let domain := (C.spendDomainOf queriedUrl).getD []
      decide (a = b) &&
        match (C.checkSpend echoed domain).map SpendCheck.verdict with
        | some (.fails _) => false
        | _ => true
    | _, _ => false

def notWithdrawRequest : Error := .protocol "not a withdrawRequest (unexpected response)".toList

def differentK1 : Error := .protocol
  "the service echoed back a different k1 than was queried - the note may have been redeemed elsewhere, or the service isn't spec-compliant".toList

/-- `minWithdrawable` may be absent or null, but not malformed. -/
def minWithdrawableOf (body : Value) : Except Error UInt64 :=
  match body.get? "minWithdrawable".toList with
  | none | some .null => .ok 0
  | some _ => expect notWithdrawRequest (asU64 body "minWithdrawable".toList)

def Crates.parseNoteInfo (C : Crates) (body : Value) (queriedUrl : Str) (policy : Policy) :
    Except Error WithdrawRequestInfo := do
  classified body
  refuseIf (asStr body "tag".toList ≠ some "withdrawRequest".toList) notWithdrawRequest
  let callback ← expect notWithdrawRequest (asStr body "callback".toList)
  let k1 ← expect notWithdrawRequest (asStr body "k1".toList)
  let maxWithdrawable ← expect notWithdrawRequest (asU64 body "maxWithdrawable".toList)
  let minWithdrawable ← minWithdrawableOf body
  refuseIf (minWithdrawable > maxWithdrawable) notWithdrawRequest
  refuseIf ((C.noteK1 queriedUrl).any fun queried => !C.sameNote k1 queried queriedUrl) differentK1
  let mintPubkey := asStr body "mintPubkey".toList
  checkMintPubkey mintPubkey policy
  return {
    callback
    k1 := Str.lower k1
    maxWithdrawable
    minWithdrawable
    defaultDescription := asStr body "defaultDescription".toList
    mintPubkey := mintPubkey.map fun key => Str.lower (Str.trim key)
    signature := certificate body "c".toList "sig".toList }

/-! ### The mutating callback -/

def invalidCallback : Error := .requestRefused "the service provided an invalid callback URL".toList

def Crates.callbackUrl (C : Crates) (callback : Str) (params : List (Str × Str)) : Except Error Str :=
  if !C.isAllowedServiceUrl callback then .error invalidCallback
  else if !params.any fun pair => decide (pair.1 = "k1".toList) then
    .error (.requestRefused "at least one k1 is required - there is no note to operate on".toList)
  else
    match C.url.parse callback with
    | none => .error invalidCallback
    | some url => .ok (C.url.toText (C.url.appendPairs url params))

def Crates.meltRequest (C : Crates) (callback k1 pr : Str) : Except Error Request := do
  let url ← C.callbackUrl callback [("k1".toList, k1), ("pr".toList, Str.trim pr)]
  return Request.plain url

def notAtTheMint : Error := .requestRefused
  "that Lightning Address is not at the note's mint, so the note cannot be sent to it - pay it over Lightning instead".toList

def outsideSendable (amountMsat : UInt64) : Error := .requestRefused
  (Str.decimal amountMsat.toNat ++ " msat is outside what that address accepts - split the note first".toList)

/-- LUD-26's internal transfer: pays a Lightning Address at the note's own mint with the note itself. -/
def Crates.internalTransferRequest (C : Crates) (payRequest : PayRequestInfo) (noteDomain k1 : Str)
    (amountMsat : UInt64) : Except Error Request := do
  let sameMint := match payRequest.withdrawLink.bind C.spendDomainOf, C.spendDomainOf noteDomain with
    | some payee, some note => decide (payee = note)
    | _, _ => false
  refuseIf (!sameMint) notAtTheMint
  refuseIf (amountMsat < payRequest.minSendable ∨ amountMsat > payRequest.maxSendable) (outsideSendable amountMsat)
  refuseIf ((C.decodeSpend k1).isNone) (.requestRefused "that k1 is no spend".toList)
  let url ← C.callbackUrl payRequest.callback
    [("amount".toList, Str.decimal amountMsat.toNat), ("k1".toList, Str.trim k1)]
  return Request.plain url

def Crates.isKeyOutput (C : Crates) (value : Str) : Bool := (C.decodeCp1 (Str.lower (Str.trim value))).isSome

def Crates.outputParam (C : Crates) (name value : Str) : Except Error (Str × Str) :=
  let value := Str.trim value
  if (C.decodeNote value).isNone then
    .error (.requestRefused (name ++
      " must be a cp1 whose key is a curve point, or a bearer note's 64-hex hash - nothing was sent".toList))
  else .ok (name, value)

def Crates.rotateRequestWithHash (C : Crates) (callback k1 h : Str) : Except Error Request := do
  let output ← C.outputParam "p1".toList h
  let url ← C.callbackUrl callback [("k1".toList, k1), output]
  return Request.naming url [h]

def Crates.splitRequestWithHash (C : Crates) (callback : Str) (k1s : List Str) (amountMsat : UInt64) (h h2 : Str) :
    Except Error Request := do
  let output ← C.outputParam "p1".toList h
  let change ← C.outputParam "p2".toList h2
  let url ← C.callbackUrl callback
    (k1s.map ("k1".toList, ·) ++ [("amount".toList, Str.decimal amountMsat.toNat), output, change])
  return Request.naming url [h, h2]

def Crates.mergeRequestWithHash (C : Crates) (callback : Str) (k1s : List Str) (h : Str) : Except Error Request := do
  let output ← C.outputParam "p1".toList h
  let url ← C.callbackUrl callback (k1s.map ("k1".toList, ·) ++ [output])
  return Request.naming url [h]

def Crates.rotateRequest (C : Crates) (callback k1 newSecret : Str) : Except Error Request := do
  let h ← C.hashK1 newSecret
  let request ← C.rotateRequestWithHash callback k1 h
  return { request with newSecrets := [newSecret] }

def Crates.splitRequest (C : Crates) (callback : Str) (k1s : List Str) (amountMsat : UInt64)
    (newSecret changeSecret : Str) : Except Error Request := do
  let h ← C.hashK1 newSecret
  let h2 ← C.hashK1 changeSecret
  let request ← C.splitRequestWithHash callback k1s amountMsat h h2
  return { request with newSecrets := [newSecret, changeSecret] }

def Crates.mergeRequest (C : Crates) (callback : Str) (k1s : List Str) (newSecret : Str) : Except Error Request := do
  let h ← C.hashK1 newSecret
  let request ← C.mergeRequestWithHash callback k1s h
  return { request with newSecrets := [newSecret] }

def unconfirmedMutation : Error :=
  .ambiguous "the service did not confirm the operation - it may still have been applied".toList []

/-- What a confirmed mutation owes one of its outputs. -/
def Crates.owed (C : Crates) (outputs : List Str) (policy : Policy) (returned : Option Str) (index : Nat)
    (what : Str) : Except Error Unit :=
  if returned.isSome then .ok ()
  else if outputs[index]?.any C.isKeyOutput then
    .error (.unverifiable ("the service confirmed the ".toList ++ what ++
      " to a cp1 output but returned no cs1 certificate, so the note it just minted cannot be verified offline. The note exists - keep the key".toList) [])
  else if policy.requireSignatures then
    .error (.unverifiable ("the service confirmed the ".toList ++ what ++
      " but returned no signature, so the note it just minted cannot be verified offline. The note exists - keep the secret".toList) [])
  else .ok ()

def Crates.owes (C : Crates) (outputs : List Str) (policy : Policy) (signature changeSignature : Option Str) :
    MutationKind → Except Error Unit
  | .melt => .ok ()
  | .rotate => C.owed outputs policy signature 0 "rotate".toList
  | .merge => C.owed outputs policy signature 0 "merge".toList
  | .split => do
    C.owed outputs policy signature 0 "split".toList
    C.owed outputs policy changeSignature 1 "split's change".toList

def Crates.parseMutation (C : Crates) (body : Value) (kind : MutationKind) (outputs : List Str) (policy : Policy) :
    Except Error MutationResponse := do
  classified body
  refuseIf (asStr body "status".toList ≠ some "OK".toList) unconfirmedMutation
  let signature := certificate body "c".toList "sig".toList
  let changeSignature := certificate body "c2".toList "sig2".toList
  C.owes outputs policy signature changeSignature kind
  return { signature, changeSignature, pr := asStr body "pr".toList, verify := asStr body "verify".toList }

/-! ### Minting -/

/-- A mint invoice naming the note it will credit, a `cp1` or a bearer note's hash. -/
def Crates.mintInvoiceRequestWithHash (C : Crates) (payCallback : Str) (amountMsat : UInt64) (h : Str) :
    Except Error Request :=
  let h := Str.lower (Str.trim h)
  let key := (C.decodeCp1 h).isSome
  if !key && !isPreimage h then
    .error (.requestRefused
      "an output commitment must be 32 bytes of hex or a cp1 whose key is a curve point - no invoice was requested".toList)
  else
    match C.url.parse payCallback with
    | none => .error (.requestRefused "that pay callback does not parse".toList)
    | some url =>
      let pairs := [("amount".toList, Str.decimal amountMsat.toNat), ("comment".toList, h)] ++
        if key then [] else [("h".toList, h)]
      .ok (Request.plain (C.url.toText (C.url.appendPairs url pairs)))

def Crates.mintInvoiceRequest (C : Crates) (payCallback : Str) (amountMsat : UInt64) (mintSecret : Str) :
    Except Error Request := do
  refuseIf (!isPreimage mintSecret)
    (.requestRefused "a note secret must be 32 bytes of hex - no invoice was requested".toList)
  let h ← C.hashK1 mintSecret
  let request ← C.mintInvoiceRequestWithHash payCallback amountMsat h
  return { request with newSecrets := [mintSecret] }

theorem Crates.callbackUrl_ok {C : Crates} {callback built : Str} {params : List (Str × Str)}
    (ok : C.callbackUrl callback params = .ok built) :
    ∃ url, C.isAllowedServiceUrl callback ∧ C.url.parse callback = some url ∧
      built = C.url.toText (C.url.appendPairs url params) := by
  unfold Crates.callbackUrl at ok
  split_ifs at ok with refused
  cases parsed : C.url.parse callback with
  | none => simp [parsed] at ok
  | some url =>
    rw [parsed] at ok
    exact ⟨url, by simpa using refused, rfl, (Except.ok.inj ok).symm⟩

/-! ### What a builder returns -/

/-- A GET of the callback that spends these inputs and names these outputs,
each one a note, as the last parameters of its URL. -/
structure Crates.Mutates (C : Crates) (callback : Str) (spent : List (Str × Str)) (outputs : List Str)
    (request : Request) : Prop where
  recorded : request.outputs = outputs
  usable : ∀ output ∈ outputs, (C.decodeNote (Str.trim output)).isSome
  sent : ∃ url, C.url.parse callback = some url ∧ request.url =
    C.url.toText (C.url.appendPairs url (spent ++ ["p1".toList, "p2".toList].zip (outputs.map Str.trim)))

section Built

variable {C : Crates} {callback : Str} {request : Request}

theorem Crates.outputParam_ok {name value : Str} {output : Str × Str} (ok : C.outputParam name value = .ok output) :
    (C.decodeNote (Str.trim value)).isSome ∧ output = (name, Str.trim value) := by
  simp only [outputParam] at ok
  split_ifs at ok with refused
  exact ⟨by simpa [Option.isSome_iff_ne_none] using refused, (Except.ok.inj ok).symm⟩

theorem Crates.rotateRequestWithHash_ok {k1 h : Str} (built : C.rotateRequestWithHash callback k1 h = .ok request) :
    C.Mutates callback [("k1".toList, k1)] [h] request ∧ request.newSecrets = [] := by
  simp only [rotateRequestWithHash, bind_eq_ok, pure_eq_ok] at built
  obtain ⟨output, named, text, sent, rfl⟩ := built
  obtain ⟨usable, rfl⟩ := outputParam_ok named
  obtain ⟨url, _, parsed, rfl⟩ := callbackUrl_ok sent
  exact ⟨⟨rfl, by simpa using usable, url, parsed, rfl⟩, rfl⟩

theorem Crates.splitRequestWithHash_ok {k1s : List Str} {amountMsat : UInt64} {h h2 : Str}
    (built : C.splitRequestWithHash callback k1s amountMsat h h2 = .ok request) :
    C.Mutates callback (k1s.map ("k1".toList, ·) ++ [("amount".toList, Str.decimal amountMsat.toNat)]) [h, h2] request ∧
      request.newSecrets = [] := by
  simp only [splitRequestWithHash, bind_eq_ok, pure_eq_ok] at built
  obtain ⟨output, named, change, named2, text, sent, rfl⟩ := built
  obtain ⟨usable, rfl⟩ := outputParam_ok named
  obtain ⟨usable2, rfl⟩ := outputParam_ok named2
  obtain ⟨url, _, parsed, rfl⟩ := callbackUrl_ok sent
  refine ⟨⟨rfl, by simpa using ⟨usable, usable2⟩, url, parsed, ?_⟩, rfl⟩
  rw [List.append_assoc]
  rfl

theorem Crates.mergeRequestWithHash_ok {k1s : List Str} {h : Str}
    (built : C.mergeRequestWithHash callback k1s h = .ok request) :
    C.Mutates callback (k1s.map ("k1".toList, ·)) [h] request ∧ request.newSecrets = [] := by
  simp only [mergeRequestWithHash, bind_eq_ok, pure_eq_ok] at built
  obtain ⟨output, named, text, sent, rfl⟩ := built
  obtain ⟨usable, rfl⟩ := outputParam_ok named
  obtain ⟨url, _, parsed, rfl⟩ := callbackUrl_ok sent
  exact ⟨⟨rfl, by simpa using usable, url, parsed, rfl⟩, rfl⟩

/-- The secrets recorded with a request change nothing it sends. -/
theorem Crates.Mutates.withSecrets {spent : List (Str × Str)} {outputs : List Str}
    (mutates : C.Mutates callback spent outputs request) (secrets : List Str) :
    C.Mutates callback spent outputs { request with newSecrets := secrets } :=
  ⟨mutates.recorded, mutates.usable, mutates.sent⟩

theorem Crates.rotateRequest_ok {k1 newSecret : Str} (built : C.rotateRequest callback k1 newSecret = .ok request) :
    ∃ h, C.hashK1 newSecret = .ok h ∧ C.Mutates callback [("k1".toList, k1)] [h] request ∧
      request.newSecrets = [newSecret] := by
  simp only [rotateRequest, bind_eq_ok, pure_eq_ok] at built
  obtain ⟨h, hashed, named, sent, rfl⟩ := built
  exact ⟨h, hashed, (rotateRequestWithHash_ok sent).1.withSecrets [newSecret], rfl⟩

theorem Crates.splitRequest_ok {k1s : List Str} {amountMsat : UInt64} {newSecret changeSecret : Str}
    (built : C.splitRequest callback k1s amountMsat newSecret changeSecret = .ok request) :
    ∃ h h2, C.hashK1 newSecret = .ok h ∧ C.hashK1 changeSecret = .ok h2 ∧
      C.Mutates callback (k1s.map ("k1".toList, ·) ++ [("amount".toList, Str.decimal amountMsat.toNat)]) [h, h2] request ∧
      request.newSecrets = [newSecret, changeSecret] := by
  simp only [splitRequest, bind_eq_ok, pure_eq_ok] at built
  obtain ⟨h, hashed, h2, hashed2, named, sent, rfl⟩ := built
  exact ⟨h, h2, hashed, hashed2, (splitRequestWithHash_ok sent).1.withSecrets [newSecret, changeSecret], rfl⟩

theorem Crates.mergeRequest_ok {k1s : List Str} {newSecret : Str}
    (built : C.mergeRequest callback k1s newSecret = .ok request) :
    ∃ h, C.hashK1 newSecret = .ok h ∧ C.Mutates callback (k1s.map ("k1".toList, ·)) [h] request ∧
      request.newSecrets = [newSecret] := by
  simp only [mergeRequest, bind_eq_ok, pure_eq_ok] at built
  obtain ⟨h, hashed, named, sent, rfl⟩ := built
  exact ⟨h, hashed, (mergeRequestWithHash_ok sent).1.withSecrets [newSecret], rfl⟩

end Built

end LnurlCash
