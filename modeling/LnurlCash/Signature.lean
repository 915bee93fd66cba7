import LnurlCash.Spend

namespace LnurlCash

open Outcome

def domainTag : Str := "LNURLcash".toList

/-- The address-registration proof's message; `cx1` is signed in its canonical spelling. -/
def KeyCrates.addressProofMessage (K : KeyCrates) (action domain username : Str) (cx1 : Option Str) : Except Error Str := do
  let domain ← expect (.protocol "an address proof names the SERVICE's domain".toList) (K.spendDomainOf domain)
  let username := K.toLowercase (Str.trim username)
  refuseIf (username = []) (.protocol "an address proof names a username".toList)
  let cx1 ← cx1.mapM fun value => expect (.protocol "that is not a cx1".toList) ((K.decodeCx1 value).map encodeCx1)
  let named := domainTag ++ ':' :: (action ++ ':' :: (domain ++ ':' :: username))
  if action = "register".toList ∨ action = "update".toList then
    match cx1 with
    | some cx1 => .ok (named ++ ':' :: cx1)
    | none => .error (.protocol ("a ".toList ++ action ++ " proof binds the cx1 it puts on file".toList))
  else if action = "unregister".toList then
    match cx1 with
    | some _ => .error (.protocol "an unregister proof binds no cx1".toList)
    | none => .ok named
  else .error (.protocol "an address proof action is register, update or unregister".toList)

def KeyCrates.addressProofDigest (K : KeyCrates) (action domain username : Str) (cx1 : Option Str) :
    Except Error (ByteArr 32) := do
  let message ← K.addressProofMessage action domain username cx1
  return K.sha256 (Str.utf8 message)

/-- An address proof, signed by the share's own private key with auxiliary bytes of zero. -/
def KeyCrates.signAddressProof (K : KeyCrates) (shareSecretKey : ByteArr 32) (action domain username : Str)
    (cx1 : Option Str) : Except Error (ByteArr 64) := do
  let _ ← expect (.protocol "a share secret key is a 32-byte scalar in [1, n)".toList) (K.signingKey shareSecretKey)
  let digest ← K.addressProofDigest action domain username cx1
  expect (.protocol "could not sign the address proof message".toList)
    (K.signRaw shareSecretKey digest.toList (Bytes.beArr 32 0))

def KeyCrates.verifyAddressProof (K : KeyCrates) (signer : Str) (signature : Bytes) (action domain username : Str)
    (cx1 : Option Str) : Bool :=
  match K.decodeCx1 signer, K.addressProofDigest action domain username cx1 with
  | some signer, .ok digest => K.verifySchnorr signer.pubkeyXOnly signature digest.toList
  | _, _ => false

/-- `LNURLcash:<domain>:<amount>:<id>` -/
def certificateMessage (domain : Str) (amountMsat : UInt64) (id : Str) : Str :=
  domainTag ++ ':' :: (domain ++ ':' :: (Str.decimal amountMsat.toNat ++ ':' :: id))

def Crates.noteSignatureMessageForHash (C : Crates) (id domain : Str) (amountMsat : UInt64) : Option Str :=
  (C.spendDomainOf domain).map fun domain => certificateMessage domain amountMsat (Str.lower (Str.trim id))

def Crates.noteSignatureDigestForHash (C : Crates) (id domain : Str) (amountMsat : UInt64) : Option (ByteArr 32) :=
  (C.noteSignatureMessageForHash id domain amountMsat).map C.lightningSignedDigest

/-- The superseded message without a domain, `LNURLcash:<amount>:<id>`. -/
def legacyNoteSignatureMessageForHash (id : Str) (amountMsat : UInt64) : Str :=
  domainTag ++ ':' :: (Str.decimal amountMsat.toNat ++ ':' :: Str.lower (Str.trim id))

def Crates.legacyNoteSignatureDigestForHash (C : Crates) (id : Str) (amountMsat : UInt64) : ByteArr 32 :=
  C.lightningSignedDigest (legacyNoteSignatureMessageForHash id amountMsat)

inductive CertifiedOver where
  | outputKey
  | legacyOutputKey
  | legacyHash
  deriving DecidableEq

def isHexId (id : Str) : Bool := decide (Str.byteLen id = 64) && id.all Hex.isHexDigit

/-- A `cs1` of any amount or none, recovery id unchecked. -/
def decodeAnyCs1Bytes (value : Str) : Option Bytes :=
  match decodeCs1 value with
  | some signature => some signature.toList
  | none => do
    let (before, _) ← Str.rsplitOnce '1' value
    let hrp := Str.lower before
    let _ ← Str.stripPrefix "cs".toList hrp
    Bech32.decode bech32mResidue hrp value

/-- The signature bytes, from a `cs1` that states the amount, or when `lenient`
also from a fixed-prefix `cs1` or raw hex. -/
def certificateBytes (signature : Str) (amountMsat : UInt64) (lenient : Bool) : Option (ByteArr 65) :=
  let trimmed := Str.trim signature
  match decodeCs1WithAmount trimmed with
  | some cs1 => if cs1.amountMsat = amountMsat then some cs1.signature else none
  | none =>
    if !lenient then none
    else ((decodeAnyCs1Bytes trimmed).or (Hex.decode trimmed)).bind (Bytes.toArr 65)

/-- Whether the signature recovers to the mint's key, with its recovery id
last or, when both layouts are tried, first. -/
def Crates.recoversTo (C : Crates) (digest : ByteArr 32) (signature : ByteArr 65) (bothLayouts : Bool)
    (mintPubkeyHex : Str) : Bool :=
  let target := Str.lower (Str.trim mintPubkeyHex)
  let trailing := (signature.toList.take 64, signature.get 64)
  let leading := (signature.toList.drop 1, signature.get 0)
  let layouts := if bothLayouts then [trailing, leading] else [trailing]
  layouts.any fun (compact, recovery) =>
    (C.recover digest compact recovery).any fun recovered => decide (Hex.encode recovered.toList = target)

/-- A current certificate over exactly the 64-hex `id` given, at `domain`. -/
def Crates.verifyNoteSignatureHash (C : Crates) (id domain : Str) (amountMsat : UInt64)
    (signature mintPubkeyHex : Str) : Bool :=
  let id := Str.trim id
  if !isHexId id then false
  else
    match C.noteSignatureDigestForHash id domain amountMsat, certificateBytes signature amountMsat false with
    | some digest, some signature => C.recoversTo digest signature false mintPubkeyHex
    | _, _ => false

def Crates.verifyLegacyNoteSignatureHash (C : Crates) (id : Str) (amountMsat : UInt64)
    (signature mintPubkeyHex : Str) : Bool :=
  let id := Str.trim id
  if !isHexId id then false
  else
    match certificateBytes signature amountMsat true with
    | some signature => C.recoversTo (C.legacyNoteSignatureDigestForHash id amountMsat) signature true mintPubkeyHex
    | none => false

def Crates.certifiedOver (C : Crates) (outputKey : ByteArr 32) (bearerHash : Option (ByteArr 32)) (domain : Str)
    (amountMsat : UInt64) (signature mintPubkey : Str) : Option CertifiedOver :=
  let q := Hex.encode outputKey.toList
  if C.verifyNoteSignatureHash q domain amountMsat signature mintPubkey then some .outputKey
  else if C.verifyLegacyNoteSignatureHash q amountMsat signature mintPubkey then some .legacyOutputKey
  else
    (bearerHash.filter fun h =>
      C.verifyLegacyNoteSignatureHash (Hex.encode h.toList) amountMsat signature mintPubkey).map fun _ => .legacyHash

/-- A certificate for a note named without its spend: a `cp1`, or a bearer note's 64-hex `h`. -/
def Crates.checkNoteCertificate (C : Crates) (reference domain : Str) (amountMsat : UInt64)
    (signature mintPubkey : Str) : Option CertifiedOver := do
  let outputKey ← C.decodeNote reference
  let bearerHash :=
    if isPreimage reference then (Hex.decode (Str.trim reference)).bind (Bytes.toArr 32) else none
  C.certifiedOver outputKey bearerHash domain amountMsat signature mintPubkey

structure NoteCheck where
  outputKey : ByteArr 32
  spend : SpendVerdict
  certificate : CertifiedOver
  deriving DecidableEq

def Crates.checkNote (C : Crates) (k1 domain : Str) (amountMsat : UInt64) (signature mintPubkey : Str) :
    Option NoteCheck := do
  let spend ← C.checkSpend k1 domain
  let decoded ← C.decodeSpend k1
  let certificate ←
    C.certifiedOver spend.outputKey (C.bearerHash decoded) domain amountMsat signature mintPubkey
  some { outputKey := spend.outputKey, spend := spend.verdict, certificate }

/-! ### The messages -/

theorem colon_notMem_of_isHexId {id : Str} (hex : isHexId id) : ':' ∉ id := by
  intro member
  simp only [isHexId, Bool.and_eq_true, List.all_eq_true] at hex
  exact absurd (hex.2 ':' member) (by decide)

theorem colon_notMem_decimal (n : Nat) : ':' ∉ Str.decimal n := fun member =>
  absurd (Str.isDigit_of_mem_decimal member) (by decide)

theorem isHexId_encode (h : ByteArr 32) : isHexId (Hex.encode h.toList) := by
  have ascii : ∀ c ∈ Hex.encode h.toList, c.toNat < 128 := fun c member =>
    Hex.toNat_lt_of_isHexDigit (Hex.isHexDigit_of_mem_encode member)
  simp only [isHexId, Bool.and_eq_true, decide_eq_true_eq, List.all_eq_true]
  exact ⟨by simp [Str.byteLen_of_ascii ascii], fun _ => Hex.isHexDigit_of_mem_encode⟩

theorem isHexId_lower {id : Str} (hex : isHexId id) : isHexId (Str.lower id) := by
  simp only [isHexId, Str.byteLen_lower, Bool.and_eq_true] at hex ⊢
  refine ⟨hex.1, ?_⟩
  simpa only [Str.lower, List.all_map, Function.comp_def, Hex.isHexDigit_toLower] using hex.2

/-- The message is read from its right end, so a domain with colons in it
leaves no second reading. -/
theorem certificateMessage_inj {domain otherDomain id otherId : Str} {amount otherAmount : UInt64}
    (hex : ':' ∉ id) (otherHex : ':' ∉ otherId)
    (equal : certificateMessage domain amount id = certificateMessage otherDomain otherAmount otherId) :
    domain = otherDomain ∧ amount = otherAmount ∧ id = otherId := by
  have body := List.cons_injective (List.append_cancel_left equal)
  simp only [← List.cons_append, ← List.append_assoc] at body
  obtain ⟨front, same⟩ := Str.append_sep_inj hex otherHex body
  obtain ⟨domains, amounts⟩ := Str.append_sep_inj (colon_notMem_decimal _) (colon_notMem_decimal _) front
  exact ⟨domains, UInt64.toNat_inj.mp (Str.decimal_injective amounts), same⟩

theorem legacyMessage_inj {id otherId : Str} {amount otherAmount : UInt64}
    (hex : isHexId (Str.trim id)) (otherHex : isHexId (Str.trim otherId))
    (equal : legacyNoteSignatureMessageForHash id amount = legacyNoteSignatureMessageForHash otherId otherAmount) :
    Str.lower (Str.trim id) = Str.lower (Str.trim otherId) ∧ amount = otherAmount := by
  have body := List.cons_injective (List.append_cancel_left equal)
  obtain ⟨amounts, same⟩ := Str.append_sep_inj (colon_notMem_of_isHexId (isHexId_lower hex))
    (colon_notMem_of_isHexId (isHexId_lower otherHex)) body
  exact ⟨same, UInt64.toNat_inj.mp (Str.decimal_injective amounts)⟩

theorem certificateMessage_ne_legacy {domain id otherId : Str} {amount otherAmount : UInt64}
    (hex : ':' ∉ id) (otherHex : isHexId (Str.trim otherId)) :
    certificateMessage domain amount id ≠ legacyNoteSignatureMessageForHash otherId otherAmount := by
  intro equal
  have body := List.cons_injective (List.append_cancel_left equal)
  simp only [← List.cons_append, ← List.append_assoc] at body
  obtain ⟨front, _⟩ := Str.append_sep_inj hex (colon_notMem_of_isHexId (isHexId_lower otherHex)) body
  exact colon_notMem_decimal otherAmount.toNat (front ▸ by simp)

/-- The two byte strings a signed message is hashed through. -/
def Crates.signedHashed (C : Crates) (message : Str) : List Bytes :=
  [Str.utf8 lightningSignedMessagePrefix ++ Str.utf8 message,
    (C.sha256 (Str.utf8 lightningSignedMessagePrefix ++ Str.utf8 message)).toList]

theorem Crates.lightningSignedDigest_inj {C : Crates} {message other : Str}
    (free : C.CollisionFree (C.signedHashed message ++ C.signedHashed other))
    (equal : C.lightningSignedDigest message = C.lightningSignedDigest other) : message = other := by
  have inner := free (by simp [signedHashed]) (by simp [signedHashed]) equal
  have outer := free (by simp [signedHashed]) (by simp [signedHashed]) (ByteArr.toList_injective inner)
  exact Str.utf8_injective (List.append_cancel_left outer)

end LnurlCash
