import LnurlCash.Reference
import LnurlCash.Spellings

namespace LnurlCash

open Outcome

variable {K : KeyCrates} {C : Crates} {secretKey key : ByteArr 32} {domain v w k1 : Str} {payload : ByteArr 96}

/-- What BIP-340 promises of one secret key and message: its x-only public key
is a point, and verifies what the secret key signs. -/
structure KeyCrates.SignsSchnorr (K : KeyCrates) (secretKey : ByteArr 32) (message : Bytes) : Prop where
  key : K.signingKey secretKey = some (K.publicKeyOf secretKey).tail
  point : K.isXOnlyKey (K.publicKeyOf secretKey).tail
  accepted : ∀ signature, K.signRaw secretKey message (Bytes.beArr 32 0) = some signature →
    K.verifySchnorr (K.publicKeyOf secretKey).tail signature.toList message

/-- The one signature a key makes, checked when it is made. -/
theorem KeyCrates.signsSchnorr {message : Bytes} (key : K.signingKey secretKey = some (K.publicKeyOf secretKey).tail)
    (point : K.isXOnlyKey (K.publicKeyOf secretKey).tail)
    (verified : (K.signRaw secretKey message (Bytes.beArr 32 0)).any fun signature =>
      K.verifySchnorr (K.publicKeyOf secretKey).tail signature.toList message) :
    K.SignsSchnorr secretKey message ∧ (K.signRaw secretKey message (Bytes.beArr 32 0)).isSome := by
  obtain ⟨signature, made, verifies⟩ := (Option.any_eq_true _ _).mp verified
  have accepted : ∀ other, K.signRaw secretKey message (Bytes.beArr 32 0) = some other →
      K.verifySchnorr (K.publicKeyOf secretKey).tail other.toList message := by
    intro other again
    obtain rfl := Option.some.inj (made.symm.trans again)
    exact verifies
  exact ⟨⟨key, point, accepted⟩, Option.isSome_iff_exists.mpr ⟨signature, made⟩⟩

theorem KeyCrates.signNoteOwnership_eq (signing : K.signingKey secretKey = some key) (named : K.spendDomainOf v = some domain) :
    K.signNoteOwnership secretKey v =
      (expect (.protocol "could not sign the key-path spend".toList)
        (K.signRaw secretKey (K.keyPathSighash key domain).toList (Bytes.beArr 32 0))).map
        fun signature => ⟨key.toList ++ signature.toList, by simp⟩ := by
  simp only [signNoteOwnership, signing, named]
  rfl

/-- A `ck1`'s text is no preimage, and as a spend is the note its payload begins with and a signature. -/
theorem Crates.decodeSpend_ck1 (pasted : Pasted (encodeCk1 payload) k1) {key : ByteArr 32} {signature : ByteArr 64}
    (parts : payload.toList = key.toList ++ signature.toList) (point : C.isXOnlyKey key) :
    C.decodeSpend k1 = some (.keyPath key signature) := by
  have read : decodeCk1 k1 = some (.current payload) := ck1_oneSpelling.reads_pasted trivial pasted
  have found : ∃ bytes, decodeBytes "ck".toList k1 = some bytes := by
    obtain ⟨bytes, found, _⟩ := Option.bind_eq_some_iff.mp read
    exact ⟨bytes, found⟩
  obtain ⟨bytes, found⟩ := found
  have noHex : hex32 k1 = none := by
    rw [hex32, not_isPreimage_of_decodeBytes found ⟨'k', by decide, by decide⟩, if_neg (by decide)]
  have left : Bytes.toArr 32 (payload.toList.take 32) = some key := by
    rw [parts, List.take_left' key.size, Bytes.toArr_toList]
  have right : Bytes.toArr 64 (payload.toList.drop 32) = some signature := by
    rw [parts, List.drop_left' key.size, Bytes.toArr_toList]
  have onCurve : C.isXOnlyPoint key.toList := by
    rw [isXOnlyPoint, Bytes.toArr_toList]
    exact point
  simp only [decodeSpend, hex32_trim, noHex, decodeCk1_trim, read, left, right, onCurve, Option.bind_eq_bind,
    Option.bind_some, if_true]

theorem Crates.recoverNoteOwnershipPubkey_current {signature : ByteArr 64} (named : C.spendDomainOf w = some domain)
    (accepted : C.verifySchnorr key signature.toList (C.keyPathSighash key domain).toList) :
    C.recoverNoteOwnershipPubkey (key.toList ++ signature.toList) w = some { pubkeyXOnly := key, legacy := false } := by
  have size : (key.toList ++ signature.toList).length = 96 := by simp
  have left : Bytes.toArr 32 ((key.toList ++ signature.toList).take 32) = some key := by
    rw [List.take_left' key.size, Bytes.toArr_toList]
  have right : (key.toList ++ signature.toList).drop 32 = signature.toList := List.drop_left' key.size
  simp only [recoverNoteOwnershipPubkey, size, left, right, named, Option.any_some, accepted, Option.bind_eq_bind,
    Option.bind_some, if_true]
  rfl

/-- A key-path spend signed at one spelling of a mint's domain opens its note at every other. -/
theorem KeyCrates.key_path_opens (signs : K.SignsSchnorr secretKey (K.keyPathSighash (K.publicKeyOf secretKey).tail domain).toList)
    (left : K.spendDomainOf v = some domain) (right : K.spendDomainOf w = some domain) :
    K.signNoteOwnership secretKey v = K.signNoteOwnership secretKey w ∧
      ((K.signRaw secretKey (K.keyPathSighash (K.publicKeyOf secretKey).tail domain).toList (Bytes.beArr 32 0)).isSome →
        ∃ payload, K.signNoteOwnership secretKey v = .ok payload) ∧
      ∀ payload, K.signNoteOwnership secretKey v = .ok payload → ∀ k1, Pasted (encodeCk1 payload) k1 →
        K.checkSpend k1 w = some { outputKey := (K.publicKeyOf secretKey).tail, verdict := .opens } ∧
          K.noteIdOf k1 = some (Hex.encode (K.publicKeyOf secretKey).tail.toList) := by
  have signedLeft := signNoteOwnership_eq signs.key left
  have signedRight := signNoteOwnership_eq signs.key right
  refine ⟨signedLeft.trans signedRight.symm, fun made => ?_, fun payload signed k1 pasted => ?_⟩
  · obtain ⟨signature, made⟩ := Option.isSome_iff_exists.mp made
    rw [signedLeft, made]
    exact ⟨_, rfl⟩
  · rw [signedLeft] at signed
    cases made : K.signRaw secretKey (K.keyPathSighash (K.publicKeyOf secretKey).tail domain).toList (Bytes.beArr 32 0) with
    | none =>
      rw [made] at signed
      cases signed
    | some signature =>
      rw [made] at signed
      have parts : payload.toList = (K.publicKeyOf secretKey).tail.toList ++ signature.toList := by
        cases signed
        rfl
      have spend : K.decodeSpend k1 = some (.keyPath (K.publicKeyOf secretKey).tail signature) :=
        Crates.decodeSpend_ck1 pasted parts signs.point
      have owner := Crates.recoverNoteOwnershipPubkey_current right (signs.accepted signature made)
      constructor
      · simp only [Crates.checkSpend, spend, owner, Spend.outputKey, Option.bind_eq_bind, Option.bind_some,
          Bool.false_eq_true, if_false]
      · simp only [Crates.noteIdOf, spend, Spend.outputKey, Option.map_some]

def secretThree : ByteArr 32 := Bytes.beArr 32 3

def messageOfThree : Bytes := (referenceKeys.keyPathSighash (referenceKeys.publicKeyOf secretThree).tail "mint.example".toList).toList

theorem referenceKeys.signingKey_eq (valid : Secp256k1.isSecretKey key) :
    referenceKeys.signingKey key = some (referenceKeys.publicKeyOf key).tail := if_pos valid

theorem secretThree_signs : referenceKeys.SignsSchnorr secretThree messageOfThree ∧
    (referenceKeys.signRaw secretThree messageOfThree (Bytes.beArr 32 0)).isSome :=
  referenceKeys.signsSchnorr (referenceKeys.signingKey_eq (by decide +kernel)) (by decide +kernel) (by decide +kernel)

theorem secretThree_opens : referenceKeys.signNoteOwnership secretThree "https://Mint.example/w".toList =
      referenceKeys.signNoteOwnership secretThree "mint.example".toList ∧
    ∃ payload, referenceKeys.signNoteOwnership secretThree "https://Mint.example/w".toList = .ok payload ∧
      referenceKeys.checkSpend (Str.upper (encodeCk1 payload)) "mint.example".toList =
        some { outputKey := (referenceKeys.publicKeyOf secretThree).tail, verdict := .opens } := by
  obtain ⟨same, made, opens⟩ := KeyCrates.key_path_opens secretThree_signs.1
    (v := "https://Mint.example/w".toList) (w := "mint.example".toList) (by decide +kernel) (by decide +kernel)
  obtain ⟨payload, signed⟩ := made secretThree_signs.2
  exact ⟨same, payload, signed, (opens payload signed _ (pasted_upper _)).1⟩

end LnurlCash
