import LnurlCash.KeyPathSpends
import LnurlCash.ShareNotes
import LnurlCash.SpendDomains

namespace LnurlCash

open Outcome

/-- How the `url` crate writes hosts: an IPv6 address between brackets, and any
other with no colon and no bracket. -/
def Framed (host : Str) : Prop :=
  (':' ∉ host ∧ '[' ∉ host) ∨ ∃ inner, host = '[' :: (inner ++ [']']) ∧ ']' ∉ inner

def UrlCrate.BracketsHosts (U : UrlCrate) : Prop :=
  ∀ text url host, U.parse text = some url → U.hostStr url = some host → Framed host

/-- What an address proof is made from. -/
structure ProofTerms where
  action : Str
  domain : Str
  username : Str
  cx1 : Option Str

def ProofTerms.give {α : Type} (terms : ProofTerms) (f : Str → Str → Str → Option Str → α) : α :=
  f terms.action terms.domain terms.username terms.cx1

/-- The same action, domain, username and share, each however it is written. -/
structure KeyCrates.ProofsAgree (K : KeyCrates) (terms other : ProofTerms) : Prop where
  action : terms.action = other.action
  domain : K.spendDomainOf terms.domain = K.spendDomainOf other.domain
  username : K.toLowercase (Str.trim terms.username) = K.toLowercase (Str.trim other.username)
  cx1 : terms.cx1.map K.decodeCx1 = other.cx1.map K.decodeCx1

variable {K : KeyCrates} {terms other : ProofTerms}

/-! ### The message -/

theorem framed_inj {host other name rest : Str} (left : Framed host) (right : Framed other)
    (equal : host ++ ':' :: name = other ++ ':' :: rest) : host = other ∧ name = rest := by
  have unbracketed {plain inner name rest : Str} (bracketless : '[' ∉ plain)
      (equal : plain ++ ':' :: name = '[' :: (inner ++ [']']) ++ ':' :: rest) : False := by
    cases plain with
    | nil => exact absurd (List.cons.inj equal).1 (by decide)
    | cons c tail =>
      obtain ⟨rfl, _⟩ := List.cons.inj equal
      exact bracketless List.mem_cons_self
  rcases left with ⟨colonless, bracketless⟩ | ⟨inner, rfl, closed⟩
  · rcases right with ⟨otherColonless, _⟩ | ⟨inner, rfl, _⟩
    · exact Str.sep_append_inj colonless otherColonless equal
    · exact (unbracketed bracketless equal).elim
  · rcases right with ⟨_, bracketless⟩ | ⟨otherInner, rfl, otherClosed⟩
    · exact (unbracketed bracketless equal.symm).elim
    · have body : inner ++ ']' :: (':' :: name) = otherInner ++ ']' :: (':' :: rest) := by simpa using equal
      obtain ⟨rfl, tail⟩ := Str.sep_append_inj closed otherClosed body
      exact ⟨rfl, (List.cons.inj tail).2⟩

/-- Lowercasing moves no colon and no bracket. -/
theorem Framed.lower {host : Str} (framed : Framed host) : Framed (Str.lower host) := by
  rcases framed with ⟨colonless, bracketless⟩ | ⟨inner, rfl, closed⟩
  · exact Or.inl ⟨Str.notMem_lower (by decide) (by decide) colonless,
      Str.notMem_lower (by decide) (by decide) bracketless⟩
  · refine Or.inr ⟨Str.lower inner, ?_, Str.notMem_lower (by decide) (by decide) closed⟩
    rw [Str.lower_cons, Str.lower_append]
    rfl

theorem Crates.framed_spendDomainOf {C : Crates} (brackets : C.url.BracketsHosts) {value domain : Str}
    (named : C.spendDomainOf value = some domain) : Framed domain := by
  obtain ⟨url, host, read, name, rfl, _⟩ := spendDomainOf_eq_some.mp named
  obtain ⟨link, _, parsed⟩ := Option.bind_eq_some_iff.mp read
  exact (brackets _ url host parsed name).lower

theorem colon_notMem_encodeCx1 (cx1 : Cx1) : ':' ∉ encodeCx1 cx1 :=
  Bech32.notMem_of_encode (encodeBytes_spec (by decide) (by decide) _) (by decide) (by decide) (by decide +kernel)

/-- What a message says after its action; an unregistration leaves the share out. -/
def proofBody (domain username : Str) (cx1 : Option Cx1) : Str :=
  domain ++ ':' :: (username ++ match cx1 with
    | some cx1 => ':' :: encodeCx1 cx1
    | none => [])

/-- Whether an action is one that this share, or this absence of one, goes with. -/
def Files (action : Str) (cx1 : Option Cx1) : Prop :=
  (action = "register".toList ∨ action = "update".toList) ∧ cx1.isSome ∨ action = "unregister".toList ∧ cx1 = none

/-- A share that is given is read, and written again in its one spelling. -/
theorem KeyCrates.mapM_cx1_eq_ok {given written : Option Str} {error : Error}
    (spelled : (given.mapM fun value => expect error ((K.decodeCx1 value).map encodeCx1)) = .ok written) :
    ∃ cx1 : Option Cx1, given.map K.decodeCx1 = cx1.map some ∧ written = cx1.map encodeCx1 := by
  cases given with
  | none => exact ⟨none, rfl, (pure_eq_ok.mp spelled).symm⟩
  | some text =>
    simp only [Option.mapM_some, Functor.map, Except.map] at spelled
    cases decoded : K.decodeCx1 text with
    | none =>
      rw [decoded] at spelled
      cases spelled
    | some cx1 =>
      rw [decoded] at spelled
      cases spelled
      exact ⟨some cx1, by rw [Option.map_some, decoded, Option.map_some], rfl⟩

/-- A message is made of one action, of a domain, and of the share for the actions that put one on file. -/
theorem KeyCrates.addressProofMessage_eq_ok {message : Str} (made : terms.give K.addressProofMessage = .ok message) :
    ∃ domain cx1, K.spendDomainOf terms.domain = some domain ∧ terms.cx1.map K.decodeCx1 = cx1.map some ∧
      message = domainTag ++ ':' ::
        (terms.action ++ ':' :: proofBody domain (K.toLowercase (Str.trim terms.username)) cx1) ∧
      Files terms.action cx1 := by
  obtain ⟨action, value, username, given⟩ := terms
  simp only [ProofTerms.give, addressProofMessage, bind_eq_ok, expect_eq_ok, refuseIf_eq_ok] at made
  obtain ⟨domain, named, _, _, cx1Text, spelled, made⟩ := made
  obtain ⟨cx1, same, rfl⟩ := mapM_cx1_eq_ok spelled
  refine ⟨domain, cx1, named, same, ?_⟩
  split at made
  · rename_i files
    cases cx1 with
    | none => cases made
    | some cx1 =>
      cases made
      exact ⟨by simp [proofBody], Or.inl ⟨files, rfl⟩⟩
  · split at made
    · rename_i unregisters
      cases cx1 with
      | none =>
        cases made
        exact ⟨by simp [proofBody], Or.inr ⟨unregisters, rfl⟩⟩
      | some cx1 => cases made
    · cases made

/-- Shares read from texts are the same where their canonical spellings are. -/
theorem KeyCrates.share_eq {text otherText : Option Str} {cx1 otherCx1 : Option Cx1}
    (read : text.map K.decodeCx1 = cx1.map some) (otherRead : otherText.map K.decodeCx1 = otherCx1.map some)
    (same : cx1.map encodeCx1 = otherCx1.map encodeCx1) : cx1 = otherCx1 := by
  have again {text : Option Str} {share : Cx1} (read : text.map K.decodeCx1 = some (some share)) :
      K.decodeCx1 (encodeCx1 share) = some share := by
    obtain ⟨value, _, decoded⟩ := Option.map_eq_some_iff.mp read
    have onCurve := (K.cx1_oneSpelling.canonical value share decoded).1
    exact K.cx1_oneSpelling.reads_pasted onCurve (pasted_self _)
  cases cx1 with
  | none =>
    cases otherCx1 with
    | none => rfl
    | some other => cases same
  | some cx1 =>
    cases otherCx1 with
    | none => cases same
    | some other =>
      have spelled := again otherRead
      rw [← Option.some.inj same, again read] at spelled
      exact spelled

theorem proofBody_inj {domain otherDomain username otherUsername : Str} {cx1 otherCx1 : Option Cx1}
    (left : Framed domain) (right : Framed otherDomain) (filed : cx1.isSome = otherCx1.isSome)
    (equal : proofBody domain username cx1 = proofBody otherDomain otherUsername otherCx1) :
    domain = otherDomain ∧ username = otherUsername ∧ cx1.map encodeCx1 = otherCx1.map encodeCx1 := by
  obtain ⟨rfl, rest⟩ := framed_inj left right equal
  cases cx1 with
  | none =>
    cases otherCx1 with
    | none =>
      simp only [List.append_nil] at rest
      exact ⟨rfl, rest, rfl⟩
    | some other => cases filed
  | some cx1 =>
    cases otherCx1 with
    | none => cases filed
    | some other =>
      obtain ⟨rfl, same⟩ := Str.append_sep_inj (colon_notMem_encodeCx1 cx1) (colon_notMem_encodeCx1 other) rest
      exact ⟨rfl, rfl, congrArg some same⟩

/-- An action has no colon, and says whether a share is filed. -/
theorem Files.colon_notMem {action : Str} {cx1 : Option Cx1} (files : Files action cx1) : ':' ∉ action := by
  rcases files with ⟨rfl | rfl, _⟩ | ⟨rfl, _⟩ <;> decide

theorem Files.isSome_eq {action : Str} {cx1 other : Option Cx1} (files : Files action cx1)
    (otherFiles : Files action other) :
    cx1.isSome = other.isSome := by
  rcases files with ⟨named, some⟩ | ⟨rfl, rfl⟩
  · rcases otherFiles with ⟨_, otherSome⟩ | ⟨rfl, _⟩
    · rw [some, otherSome]
    · exact absurd named (by decide)
  · rcases otherFiles with ⟨named, _⟩ | ⟨_, rfl⟩
    · exact absurd named (by decide)
    · rfl

/-- Messages depend on no more than what agreeing terms share, in failure too. -/
theorem KeyCrates.ProofsAgree.addressProofMessage_eq (agree : K.ProofsAgree terms other) :
    terms.give K.addressProofMessage = other.give K.addressProofMessage := by
  obtain ⟨action, value, username, cx1⟩ := terms
  obtain ⟨otherAction, otherValue, otherUsername, otherCx1⟩ := other
  obtain ⟨rfl, domain, name, shares⟩ := agree
  simp only at domain name shares
  have filed (f : Option Cx1 → Except Error Str) :
      (cx1.mapM fun text => f (K.decodeCx1 text)) = otherCx1.mapM fun text => f (K.decodeCx1 text) := by
    cases cx1 with
    | none =>
      cases otherCx1 with
      | none => rfl
      | some other => cases shares
    | some text =>
      cases otherCx1 with
      | none => cases shares
      | some other =>
        have read : K.decodeCx1 text = K.decodeCx1 other := Option.some.inj shares
        simp only [Option.mapM_some, read]
  simp only [ProofTerms.give, addressProofMessage, domain, name,
    filed fun read => expect (.protocol "that is not a cx1".toList) (read.map encodeCx1)]

/-- Two messages are equal exactly when they were made of agreeing terms. -/
theorem KeyCrates.addressProofMessage_inj (brackets : K.url.BracketsHosts) {message : Str}
    (made : terms.give K.addressProofMessage = .ok message)
    (otherMade : other.give K.addressProofMessage = .ok message) :
    K.ProofsAgree terms other := by
  obtain ⟨domain, cx1, named, read, rfl, files⟩ := addressProofMessage_eq_ok made
  obtain ⟨otherDomain, otherCx1, otherNamed, otherRead, equal, otherFiles⟩ := addressProofMessage_eq_ok otherMade
  have body := List.cons_injective (List.append_cancel_left equal)
  obtain ⟨action, rest⟩ := Str.sep_append_inj files.colon_notMem otherFiles.colon_notMem body
  rw [← action] at otherFiles
  obtain ⟨rfl, name, shares⟩ := proofBody_inj (Crates.framed_spendDomainOf brackets named)
    (Crates.framed_spendDomainOf brackets otherNamed) (files.isSome_eq otherFiles) rest
  have share := share_eq read otherRead shares
  exact ⟨action, named.trans otherNamed.symm, name, by rw [read, otherRead, share]⟩

/-! ### The signature -/

/-- A message's signature is the raw one over its digest. -/
theorem KeyCrates.signAddressProof_eq {secretKey key : ByteArr 32} {message : Str}
    (signing : K.signingKey secretKey = some key)
    (made : terms.give K.addressProofMessage = .ok message) :
    terms.give (K.signAddressProof secretKey) =
      expect (.protocol "could not sign the address proof message".toList)
        (K.signRaw secretKey (K.sha256 (Str.utf8 message)).toList (Bytes.beArr 32 0)) := by
  unfold ProofTerms.give at made ⊢
  simp only [signAddressProof, signing, addressProofDigest, made]
  rfl

theorem KeyCrates.verifyAddressProof_eq {signer message : Str} {cx1 : Cx1} (read : K.decodeCx1 signer = some cx1)
    (made : terms.give K.addressProofMessage = .ok message) (signature : Bytes) :
    terms.give (K.verifyAddressProof signer signature) =
      K.verifySchnorr cx1.pubkeyXOnly signature (K.sha256 (Str.utf8 message)).toList := by
  unfold ProofTerms.give at made ⊢
  simp only [verifyAddressProof, read, addressProofDigest, made]
  rfl

theorem KeyCrates.cashNodeToCx1_eq {node : CashNode} (valid : K.isSecretKey node.privateKey) :
    K.cashNodeToCx1 node = .ok { chainCode := node.chainCode, pubkey := K.publicKeyOf node.privateKey } := by
  rw [cashNodeToCx1, cashNodePublicKey, if_pos valid]
  rfl

/-- An address proof is bound to its action, domain, username and share, and a
share's own signature verifies under its `cx1` for whatever terms agree with
the ones it signed. -/
theorem KeyCrates.address_proofs_bind (brackets : K.url.BracketsHosts) {message otherMessage : Str}
    (made : terms.give K.addressProofMessage = .ok message)
    (otherMade : other.give K.addressProofMessage = .ok otherMessage) :
    (message = otherMessage ↔ K.ProofsAgree terms other) ∧
      ∀ node, K.isSecretKey node.privateKey → K.isPublicKey (K.publicKeyOf node.privateKey) →
        K.SignsSchnorr node.privateKey (K.sha256 (Str.utf8 message)).toList → K.ProofsAgree terms other →
          ∃ cx1, K.cashNodeToCx1 node = .ok cx1 ∧
            ((K.signRaw node.privateKey (K.sha256 (Str.utf8 message)).toList (Bytes.beArr 32 0)).isSome →
              ∃ signature, terms.give (K.signAddressProof node.privateKey) = .ok signature) ∧
            ∀ signature, terms.give (K.signAddressProof node.privateKey) = .ok signature →
              other.give (K.verifyAddressProof (encodeCx1 cx1) signature.toList) = true := by
  have equal (agree : K.ProofsAgree terms other) : message = otherMessage := by
    have same := agree.addressProofMessage_eq
    rw [made, otherMade] at same
    exact Except.ok.inj same
  refine ⟨⟨?_, equal⟩, fun node valid known signs agree => ⟨_, cashNodeToCx1_eq valid, ?_⟩⟩
  · rintro rfl
    exact addressProofMessage_inj brackets made otherMade
  · obtain rfl := equal agree
    rw [signAddressProof_eq signs.key made]
    constructor
    · intro signed
      obtain ⟨signature, raw⟩ := Option.isSome_iff_exists.mp signed
      exact ⟨signature, expect_eq_ok.mpr raw⟩
    · intro signature signed
      have raw := expect_eq_ok.mp signed
      have read :
          K.decodeCx1 (encodeCx1 { chainCode := node.chainCode, pubkey := K.publicKeyOf node.privateKey }) = some _ :=
        K.cx1_oneSpelling.reads_pasted known (pasted_self _)
      rw [verifyAddressProof_eq read otherMade]
      exact signs.accepted signature raw

theorem reference.bracketsHosts : reference.url.BracketsHosts := by
  intro text url host parsed named
  cases named
  obtain ⟨name, valid, same⟩ := PlainUrl.parse_eq_some parsed
  have hosts := PlainUrl.isHost_lower valid
  rw [same]
  exact Or.inl ⟨PlainUrl.not_mem_of_isHost hosts (by decide) (by decide),
    PlainUrl.not_mem_of_isHost hosts (by decide) (by decide)⟩

/-- A share whose point has an odd y coordinate. -/
def oddShare : CashNode where
  privateKey := Bytes.beArr 32 6
  chainCode := Bytes.beArr 32 999

/-- Its `cx1`, as secp256k1 has it. -/
def oddShareCx1 : Cx1 where
  chainCode := oddShare.chainCode
  pubkey := ⟨3 :: Bytes.be 32 0xfff97bd5755eeea420453a14355235d382f6472f8568a18b2f057a1460297556, by simp⟩

def oddRegistration : ProofTerms where
  action := "register".toList
  domain := "https://Mint.example:8443/w".toList
  username := " Al:ice ".toList
  cx1 := some (encodeCx1 oddShareCx1)

/-- The same registration, otherwise spelled. -/
def oddRegistrationAgain : ProofTerms where
  action := "register".toList
  domain := "mint.example".toList
  username := "al:ICE".toList
  cx1 := some (Str.upper (encodeCx1 oddShareCx1))

def oddProofMessage : Str := "LNURLcash:register:mint.example:al:ice:".toList ++ encodeCx1 oddShareCx1

theorem oddShare_signs :
    referenceKeys.SignsSchnorr oddShare.privateKey (referenceKeys.sha256 (Str.utf8 oddProofMessage)).toList ∧
      (referenceKeys.signRaw oddShare.privateKey (referenceKeys.sha256 (Str.utf8 oddProofMessage)).toList
        (Bytes.beArr 32 0)).isSome :=
  referenceKeys.signsSchnorr (referenceKeys.signingKey_eq (by decide +kernel)) (by decide +kernel) (by decide +kernel)

theorem oddRegistration_verifies : oddShareCx1.pubkey.get 0 = 3 ∧
    ∃ signature, oddRegistration.give (referenceKeys.signAddressProof oddShare.privateKey) = .ok signature ∧
      oddRegistrationAgain.give (referenceKeys.verifyAddressProof (encodeCx1 oddShareCx1) signature.toList) = true := by
  have message : oddRegistration.give referenceKeys.addressProofMessage = .ok oddProofMessage :=
    toOption_eq_some.mp (by decide +kernel)
  have again : oddRegistrationAgain.give referenceKeys.addressProofMessage = .ok oddProofMessage :=
    toOption_eq_some.mp (by decide +kernel)
  obtain ⟨agreeing, verifying⟩ :=
    KeyCrates.address_proofs_bind (K := referenceKeys) reference.bracketsHosts message again
  have valid : referenceKeys.isSecretKey oddShare.privateKey := by decide +kernel
  obtain ⟨cx1, exported, made, verified⟩ := verifying oddShare valid (by decide +kernel) oddShare_signs.1
    (agreeing.mp rfl)
  obtain ⟨signature, signed⟩ := made oddShare_signs.2
  have pubkey : referenceKeys.publicKeyOf oddShare.privateKey = oddShareCx1.pubkey := by decide +kernel
  rw [KeyCrates.cashNodeToCx1_eq valid, pubkey] at exported
  have same : oddShareCx1 = cx1 := Except.ok.inj exported
  rw [← same] at verified
  exact ⟨rfl, signature, signed, verified signature signed⟩

end LnurlCash
