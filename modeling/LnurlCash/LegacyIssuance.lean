import LnurlCash.Certificates
import LnurlCash.CertificateScope

namespace LnurlCash

/-- What a mint signed under the superseded message: a note by its key, or a bearer note by its hash. -/
inductive Issuance where
  | outputKey (key : ByteArr 32) (amountMsat : UInt64)
  | bearerHash (h : ByteArr 32) (amountMsat : UInt64)

namespace Issuance

def id : Issuance → ByteArr 32
  | outputKey id _ | bearerHash id _ => id

def amountMsat : Issuance → UInt64
  | outputKey _ amountMsat | bearerHash _ amountMsat => amountMsat

end Issuance

variable {C : Crates} {name : NoteName} {domain signature mintPubkey : Str} {amountMsat : UInt64}
  {issued : Set Issuance}

/-- The superseded message over a 32-byte id, which does not say what the id is. -/
def legacyMessage (id : ByteArr 32) (amountMsat : UInt64) : Str :=
  legacyNoteSignatureMessageForHash (Hex.encode id.toList) amountMsat

def Issuance.message (issuance : Issuance) : Str := legacyMessage issuance.id issuance.amountMsat

/-- A mint whose key stands behind these issuances: no legacy message recovers
to it but one of theirs, and each was signed over its own message alone. -/
structure Crates.Issued (C : Crates) (mintPubkey : Str) (issued : Set Issuance) : Prop where
  sound : ∀ id amountMsat bytes,
    C.recoversTo (C.lightningSignedDigest (legacyMessage id amountMsat)) bytes true mintPubkey →
      ∃ issuance ∈ issued,
        C.lightningSignedDigest (legacyMessage id amountMsat) = C.lightningSignedDigest issuance.message
  signed : ∀ issuance ∈ issued, ∃ bytes, ∀ id amountMsat,
    C.recoversTo (C.lightningSignedDigest (legacyMessage id amountMsat)) bytes true mintPubkey ↔
      C.lightningSignedDigest (legacyMessage id amountMsat) = C.lightningSignedDigest issuance.message

/-- No SHA-256 collision between the message of this id and those that were issued. -/
def Crates.Separates (C : Crates) (issued : Set Issuance) (id : ByteArr 32) (amountMsat : UInt64) : Prop :=
  ∀ issuance ∈ issued,
    C.CollisionFree (C.signedHashed (legacyMessage id amountMsat) ++ C.signedHashed issuance.message)

theorem Crates.Separates.digest_eq_iff {id : ByteArr 32} {issuance : Issuance}
    (separates : C.Separates issued id amountMsat) (member : issuance ∈ issued) :
    C.lightningSignedDigest (legacyMessage id amountMsat) = C.lightningSignedDigest issuance.message ↔
      id = issuance.id ∧ amountMsat = issuance.amountMsat := by
  constructor
  · intro equal
    have hex : ∀ h : ByteArr 32, isHexId (Str.trim (Hex.encode h.toList)) := fun h => by
      rw [Hex.trim_encode]
      exact isHexId_encode h
    have messages := lightningSignedDigest_inj (separates issuance member) equal
    obtain ⟨ids, amounts⟩ := legacyMessage_inj (hex _) (hex _) messages
    rw [Hex.trim_encode, Hex.trim_encode, Hex.lower_encode, Hex.lower_encode] at ids
    exact ⟨ByteArr.toList_injective (Hex.encode_injective ids), amounts⟩
  · rintro ⟨rfl, rfl⟩
    rfl

theorem Crates.verifyLegacy_encode {id : ByteArr 32} :
    C.verifyLegacyNoteSignatureHash (Hex.encode id.toList) amountMsat signature mintPubkey ↔
      ∃ bytes, certificateBytes signature amountMsat true = some bytes ∧
        C.recoversTo (C.lightningSignedDigest (legacyMessage id amountMsat)) bytes true mintPubkey := by
  rw [verifyLegacyNoteSignatureHash_iff, Hex.trim_encode, and_iff_right (isHexId_encode id)]
  rfl

/-- A verified legacy certificate was issued to its id, by one kind or the other. -/
theorem Crates.Issued.kind_of_verified {id : ByteArr 32} (mint : C.Issued mintPubkey issued)
    (separates : C.Separates issued id amountMsat)
    (verified : C.verifyLegacyNoteSignatureHash (Hex.encode id.toList) amountMsat signature mintPubkey) :
    .outputKey id amountMsat ∈ issued ∨ .bearerHash id amountMsat ∈ issued := by
  obtain ⟨bytes, _, recovers⟩ := verifyLegacy_encode.mp verified
  obtain ⟨issuance, member, equal⟩ := mint.sound id amountMsat bytes recovers
  obtain ⟨rfl, rfl⟩ := (separates.digest_eq_iff member).mp equal
  cases issuance with
  | outputKey => exact Or.inl member
  | bearerHash => exact Or.inr member

theorem decodeCs1WithAmount_encode (bytes : Bytes) : decodeCs1WithAmount (Hex.encode bytes) = none := by
  by_contra present
  obtain ⟨cs1, found⟩ := Option.ne_none_iff_exists'.mp present
  simp only [decodeCs1WithAmount, Hex.trim_encode, Option.bind_eq_bind, Option.bind_eq_some_iff] at found
  obtain ⟨⟨before, _⟩, _, suffix, stripped, _, _, _, fixed, _⟩ := found
  have letter : 's' ∈ Str.lower before := by rw [Str.stripPrefix_eq_some.mp stripped]; simp
  rw [decodeFixed, decodeBytes_of_hex (Str.lower before) 's' (Hex.decode_encode bytes) letter (by decide)] at fixed
  cases fixed

theorem decodeAnyCs1Bytes_encode (bytes : Bytes) : decodeAnyCs1Bytes (Hex.encode bytes) = none := by
  have noCs1 : decodeCs1 (Hex.encode bytes) = none := by
    rw [decodeCs1, decodeFixed, decodeBytes_of_hex "cs".toList 's' (Hex.decode_encode bytes) (by decide) (by decide),
      Option.bind_none]
  by_contra present
  obtain ⟨payload, found⟩ := Option.ne_none_iff_exists'.mp present
  simp only [decodeAnyCs1Bytes, noCs1, Option.bind_eq_bind, Option.bind_eq_some_iff] at found
  obtain ⟨⟨before, _⟩, _, suffix, stripped, decoded⟩ := found
  have letter : 's' ∈ Str.lower before := by rw [Str.stripPrefix_eq_some.mp stripped]; simp
  rw [bech32m_decode_of_hex (Str.lower before) 's' (Hex.decode_encode bytes) letter (by decide)] at decoded
  cases decoded

theorem certificateBytes_encode (bytes : ByteArr 65) (amountMsat : UInt64) :
    certificateBytes (Hex.encode bytes.toList) amountMsat true = some bytes := by
  simp [certificateBytes, decodeCs1WithAmount_encode, decodeAnyCs1Bytes_encode, Hex.decode_encode]

/-- Every issuance left a certificate that no current check takes, and that the
legacy check takes for its own id and amount alone. -/
theorem Crates.Issued.certificate_of_mem {issuance : Issuance} (mint : C.Issued mintPubkey issued)
    (member : issuance ∈ issued) :
    ∃ signature, (∀ id domain amountMsat, ¬C.verifyNoteSignatureHash id domain amountMsat signature mintPubkey) ∧
      ∀ id amountMsat, C.Separates issued id amountMsat →
        (C.verifyLegacyNoteSignatureHash (Hex.encode id.toList) amountMsat signature mintPubkey ↔
          id = issuance.id ∧ amountMsat = issuance.amountMsat) := by
  obtain ⟨bytes, signed⟩ := mint.signed issuance member
  refine ⟨Hex.encode bytes.toList, fun id domain amountMsat verified => ?_, fun id amountMsat separates => ?_⟩
  · obtain ⟨_, _, _, _, cs1, _⟩ := verifyNoteSignatureHash_iff.mp verified
    rw [decodeCs1WithAmount_encode] at cs1
    cases cs1
  · rw [verifyLegacy_encode, ← separates.digest_eq_iff member, ← signed id amountMsat, certificateBytes_encode]
    simp

/-- Whether what a check reported is among what was issued, under the same kind. -/
def Covered (issued : Set Issuance) (outputKey : ByteArr 32) (bearerHash : Option (ByteArr 32)) (amountMsat : UInt64) :
    CertifiedOver → Prop
  | .outputKey => True
  | .legacyOutputKey => .outputKey outputKey amountMsat ∈ issued
  | .legacyHash => ∃ h, bearerHash = some h ∧ .bearerHash h amountMsat ∈ issued

/-- Legacy certificates stay with their kind of note for exactly the notes
whose `Q` was issued as no bearer note's hash, and whose `h` was issued as no
note's `Q`, without the issuance under the right kind beside it. -/
theorem Crates.report_covered_iff {outputKey : ByteArr 32} {bearerHash : Option (ByteArr 32)}
    (named : C.identify name = some (outputKey, bearerHash)) (mint : C.Issued mintPubkey issued)
    (separates : ∀ id, id = outputKey ∨ bearerHash = some id → C.Separates issued id amountMsat) :
    (∀ signature kind, C.report domain amountMsat signature mintPubkey name = some kind →
        Covered issued outputKey bearerHash amountMsat kind) ↔
      (.bearerHash outputKey amountMsat ∈ issued → .outputKey outputKey amountMsat ∈ issued) ∧
        ∀ h, bearerHash = some h → h ≠ outputKey → .outputKey h amountMsat ∈ issued →
          .bearerHash h amountMsat ∈ issued := by
  have reports : ∀ signature kind, C.report domain amountMsat signature mintPubkey name = some kind ↔
      C.certifiedOver outputKey bearerHash domain amountMsat signature mintPubkey = some kind := by
    intro signature kind
    simp [report_eq_some, named]
  simp only [reports]
  constructor
  · intro covered
    -- each issuance left a certificate, so a missing one of the right kind would be reported uncovered
    constructor
    · intro member
      obtain ⟨signature, notCurrent, legacy⟩ := mint.certificate_of_mem member
      exact covered signature .legacyOutputKey (certifiedOver_legacyOutputKey.mpr
        ⟨notCurrent _ _ _, (legacy _ _ (separates _ (.inl rfl))).mpr ⟨rfl, rfl⟩⟩)
    · intro h bearer different member
      obtain ⟨signature, notCurrent, legacy⟩ := mint.certificate_of_mem member
      have notKey := fun verified => different ((legacy _ _ (separates _ (.inl rfl))).mp verified).1.symm
      obtain ⟨same, found, issuedHash⟩ := covered signature .legacyHash (certifiedOver_legacyHash.mpr
        ⟨notCurrent _ _ _, notKey, h, bearer, (legacy _ _ (separates _ (.inr bearer))).mpr ⟨rfl, rfl⟩⟩)
      rwa [Option.some.inj (bearer.symm.trans found)]
  · rintro ⟨keyed, hashed⟩ signature kind certified
    cases kind with
    | outputKey => trivial
    | legacyOutputKey =>
      have verified := (certifiedOver_legacyOutputKey.mp certified).2
      exact (mint.kind_of_verified (separates _ (.inl rfl)) verified).elim id keyed
    | legacyHash =>
      obtain ⟨_, notKey, h, bearer, verified⟩ := certifiedOver_legacyHash.mp certified
      -- with `h = Q` the second check would have taken it
      have different : h ≠ outputKey := fun same => notKey (same ▸ verified)
      have kinds := mint.kind_of_verified (separates _ (.inr bearer)) verified
      exact ⟨h, bearer, kinds.elim (hashed h bearer different) id⟩

/-! A hash chosen to be the x coordinate of a key, and the certificate a mint
signs by the key 7 for 1000 msat of the bearer note to it. -/

def chosenHash : ByteArr 32 := Bytes.beArr 32 0x774ae7f858a9411e5ef4246b70c65aac5649980be5c17891bbec17895da008cb

def chosenCp1 : Str := "cp1wa9w07zc49q3uhh5y34hp3j643tynxqtuhqh3ydmastcjhdqpr9syqh4k5".toList

def chosenSignature : ByteArr 65 := Bytes.beArr 65
  0x9d2d304374a5d5571d7d8c39db99c8eed149767dcaf70be1a356a08376caa34f2478ccdf72a1303adf970c583664b641b52c423ba52f5296e5fe5b25a0f0f1df00

def chosenDigest : ByteArr 32 := reference.lightningSignedDigest (legacyMessage chosenHash 1000)

/-- The crates, where the mint's key has put its name to that one message. -/
def oneSignature : Crates :=
  { reference with
    recoverEcdsa := fun digest compact id =>
      if digest = chosenDigest ∧ compact = chosenSignature.toList.take 64 ∧ id = 0 then
        reference.recoverEcdsa digest compact id
      else none }

theorem oneSignature.digest_of_recoversAs {digest : ByteArr 32} {compact : Bytes} {recovery : UInt8} {key : Str}
    (recovers : oneSignature.RecoversAs digest compact recovery key) : digest = chosenDigest := by
  obtain ⟨_, found, _⟩ := recovers
  simp only [Crates.recover, oneSignature, Option.dite_none_right_eq_some, Option.ite_none_right_eq_some] at found
  obtain ⟨_, ⟨same, _⟩, _⟩ := found
  exact same

theorem oneSignature.digest_of_recoversTo {digest : ByteArr 32} {bytes : ByteArr 65} {key : Str}
    (recovers : oneSignature.recoversTo digest bytes true key) : digest = chosenDigest :=
  (Crates.recoversTo_both.mp recovers).elim digest_of_recoversAs digest_of_recoversAs

set_option maxRecDepth 100000 in
theorem oneSignature.recovers_mintKey : oneSignature.recoversTo chosenDigest chosenSignature true mintKey := by
  decide +kernel

/-- Its one signature is all it stands behind, whichever kind of note that was for. -/
theorem oneSignature.stands_behind {issuance : Issuance} (message : issuance.message = legacyMessage chosenHash 1000) :
    oneSignature.Issued mintKey {issuance} where
  sound id amountMsat bytes recovers := by
    refine ⟨issuance, rfl, ?_⟩
    rw [message]
    exact digest_of_recoversTo recovers
  signed other member := by
    obtain rfl := Set.mem_singleton_iff.mp member
    refine ⟨chosenSignature, fun id amountMsat => ?_⟩
    rw [message]
    constructor
    · exact digest_of_recoversTo
    · intro same
      rw [same]
      exact recovers_mintKey

set_option maxRecDepth 100000 in
theorem oneSignature.identify_chosenCp1 :
    oneSignature.identify (.reference chosenCp1) = some (chosenHash, none) := by decide +kernel

set_option maxRecDepth 100000 in
theorem oneSignature.separates {issuance : Issuance} (message : issuance.message = legacyMessage chosenHash 1000) :
    oneSignature.Separates {issuance} chosenHash 1000 := by
  intro other member
  obtain rfl := Set.mem_singleton_iff.mp member
  rw [message]
  exact .of_nodup (by decide +kernel)

set_option maxRecDepth 100000 in
theorem oneSignature.report_chosenSignature :
    oneSignature.report "mint.example".toList 1000 (Hex.encode chosenSignature.toList) mintKey (.reference chosenCp1) =
      some .legacyOutputKey := by
  decide +kernel

theorem oneSignature.keyed_covered :
    oneSignature.report "mint.example".toList 1000 (Hex.encode chosenSignature.toList) mintKey (.reference chosenCp1) =
        some .legacyOutputKey ∧
      Covered {.outputKey chosenHash 1000} chosenHash none 1000 .legacyOutputKey := by
  have message : (Issuance.outputKey chosenHash 1000).message = legacyMessage chosenHash 1000 := rfl
  have separates : ∀ id, id = chosenHash ∨ none = some id →
      oneSignature.Separates {.outputKey chosenHash 1000} id 1000 := by
    rintro id (rfl | none)
    · exact oneSignature.separates message
    · cases none
  refine ⟨oneSignature.report_chosenSignature, ?_⟩
  exact (Crates.report_covered_iff oneSignature.identify_chosenCp1 (oneSignature.stands_behind message) separates).mpr
    ⟨fun _ => rfl, nofun⟩ _ _ oneSignature.report_chosenSignature

/-- Issued to the hash, it is reported for the note whose key is that hash. -/
theorem oneSignature.hashed_moves :
    oneSignature.Issued mintKey {.bearerHash chosenHash 1000} ∧
      oneSignature.identify (.reference chosenCp1) = some (chosenHash, none) ∧
      oneSignature.report "mint.example".toList 1000 (Hex.encode chosenSignature.toList) mintKey (.reference chosenCp1) =
        some .legacyOutputKey ∧
      Issuance.outputKey chosenHash 1000 ∉ ({.bearerHash chosenHash 1000} : Set Issuance) := by
  have message : (Issuance.bearerHash chosenHash 1000).message = legacyMessage chosenHash 1000 := rfl
  refine ⟨oneSignature.stands_behind message, oneSignature.identify_chosenCp1, oneSignature.report_chosenSignature, ?_⟩
  rintro ⟨⟩

end LnurlCash
