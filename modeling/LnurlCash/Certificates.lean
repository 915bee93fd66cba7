import LnurlCash.Signature

namespace LnurlCash

variable {C : Crates} {domain signature mintPubkey : Str} {amountMsat : UInt64}

/-- What a certificate is checked for: a note's public name, or a spend of it. -/
inductive NoteName where
  | reference (value : Str)
  | spend (k1 : Str)

/-- The note a name names, and the `h` it names a bearer note by. -/
def Crates.identify (C : Crates) : NoteName → Option (ByteArr 32 × Option (ByteArr 32))
  | .reference value => (C.decodeNote value).map fun outputKey => (outputKey, hex32 value)
  | .spend k1 => (C.decodeSpend k1).map fun spend => (spend.outputKey, C.bearerHash spend)

def Crates.report (C : Crates) (domain : Str) (amountMsat : UInt64) (signature mintPubkey : Str) :
    NoteName → Option CertifiedOver
  | .reference value => C.checkNoteCertificate value domain amountMsat signature mintPubkey
  | .spend k1 => (C.checkNote k1 domain amountMsat signature mintPubkey).map NoteCheck.certificate

/-- Both checks come down to one, over the note that is named. -/
theorem Crates.report_eq_some {name : NoteName} {kind : CertifiedOver} :
    C.report domain amountMsat signature mintPubkey name = some kind ↔
      ∃ outputKey bearerHash, C.identify name = some (outputKey, bearerHash) ∧
        C.certifiedOver outputKey bearerHash domain amountMsat signature mintPubkey = some kind := by
  cases name with
  | reference value =>
    cases decoded : C.decodeNote value <;> simp [report, identify, checkNoteCertificate, decoded, hex32]
  | spend k1 =>
    cases decoded : C.decodeSpend k1 with
    | none => simp [report, identify, checkNote, checkSpend, decoded]
    | some spend => simp [report, identify, checkNote, checkSpend, decoded, Option.map_bind]

theorem Crates.certifiedOver_outputKey {outputKey : ByteArr 32} {bearerHash : Option (ByteArr 32)} :
    C.certifiedOver outputKey bearerHash domain amountMsat signature mintPubkey = some .outputKey ↔
      C.verifyNoteSignatureHash (Hex.encode outputKey.toList) domain amountMsat signature mintPubkey := by
  simp only [certifiedOver]
  split_ifs with current legacy
  · simp [current]
  · simp [current]
  · simp [current]

theorem Crates.certifiedOver_legacyOutputKey {outputKey : ByteArr 32} {bearerHash : Option (ByteArr 32)} :
    C.certifiedOver outputKey bearerHash domain amountMsat signature mintPubkey = some .legacyOutputKey ↔
      ¬C.verifyNoteSignatureHash (Hex.encode outputKey.toList) domain amountMsat signature mintPubkey ∧
        C.verifyLegacyNoteSignatureHash (Hex.encode outputKey.toList) amountMsat signature mintPubkey := by
  simp only [certifiedOver]
  split_ifs with current legacy
  · simp [current]
  · simp [current, legacy]
  · simp [legacy]

theorem Crates.certifiedOver_legacyHash {outputKey : ByteArr 32} {bearerHash : Option (ByteArr 32)} :
    C.certifiedOver outputKey bearerHash domain amountMsat signature mintPubkey = some .legacyHash ↔
      ¬C.verifyNoteSignatureHash (Hex.encode outputKey.toList) domain amountMsat signature mintPubkey ∧
        ¬C.verifyLegacyNoteSignatureHash (Hex.encode outputKey.toList) amountMsat signature mintPubkey ∧
        ∃ h, bearerHash = some h ∧
          C.verifyLegacyNoteSignatureHash (Hex.encode h.toList) amountMsat signature mintPubkey := by
  simp only [certifiedOver]
  split_ifs with current legacy
  · simp [current]
  · simp [legacy]
  · simp [current, legacy, Option.filter_eq_some_iff]

/-- A signature and recovery id that recover to the mint's key over a digest. -/
def Crates.RecoversAs (C : Crates) (digest : ByteArr 32) (compact : Bytes) (recovery : UInt8)
    (mintPubkey : Str) : Prop :=
  ∃ key, C.recover digest compact recovery = some key ∧ Hex.encode key.toList = Str.lower (Str.trim mintPubkey)

theorem Crates.recoversTo_trailing {digest : ByteArr 32} {bytes : ByteArr 65} :
    C.recoversTo digest bytes false mintPubkey ↔
      C.RecoversAs digest (bytes.toList.take 64) (bytes.get 64) mintPubkey := by
  simp [recoversTo, RecoversAs, Option.any_eq_true]

theorem Crates.recoversTo_both {digest : ByteArr 32} {bytes : ByteArr 65} :
    C.recoversTo digest bytes true mintPubkey ↔
      C.RecoversAs digest (bytes.toList.take 64) (bytes.get 64) mintPubkey ∨
        C.RecoversAs digest (bytes.toList.drop 1) (bytes.get 0) mintPubkey := by
  simp [recoversTo, RecoversAs, Option.any_eq_true]

theorem decodeCs1WithAmount_trim (value : Str) : decodeCs1WithAmount (Str.trim value) = decodeCs1WithAmount value := by
  simp only [decodeCs1WithAmount, Str.trim_trim]

theorem certificateBytes_current {bytes : ByteArr 65} :
    certificateBytes signature amountMsat false = some bytes ↔
      decodeCs1WithAmount signature = some { amountMsat, signature := bytes } := by
  simp only [certificateBytes, decodeCs1WithAmount_trim]
  cases decodeCs1WithAmount signature with
  | none => simp
  | some cs1 =>
    obtain ⟨stated, signed⟩ := cs1
    simp [Option.ite_none_right_eq_some]

theorem Crates.verifyNoteSignatureHash_iff {id : Str} :
    C.verifyNoteSignatureHash id domain amountMsat signature mintPubkey ↔
      isHexId (Str.trim id) ∧ ∃ spendDomain bytes, C.spendDomainOf domain = some spendDomain ∧
        decodeCs1WithAmount signature = some { amountMsat, signature := bytes } ∧
        C.RecoversAs (C.lightningSignedDigest (certificateMessage spendDomain amountMsat (Str.lower (Str.trim id))))
          (bytes.toList.take 64) (bytes.get 64) mintPubkey := by
  simp only [verifyNoteSignatureHash, noteSignatureDigestForHash, noteSignatureMessageForHash, Str.trim_trim,
    ← certificateBytes_current, ← recoversTo_trailing]
  cases isHexId (Str.trim id) with
  | false => simp
  | true => cases C.spendDomainOf domain <;> cases certificateBytes signature amountMsat false <;> simp

theorem Crates.legacyNoteSignatureDigestForHash_trim (C : Crates) (id : Str) (amountMsat : UInt64) :
    C.legacyNoteSignatureDigestForHash (Str.trim id) amountMsat = C.legacyNoteSignatureDigestForHash id amountMsat := by
  simp only [legacyNoteSignatureDigestForHash, legacyNoteSignatureMessageForHash, Str.trim_trim]

theorem Crates.verifyLegacyNoteSignatureHash_iff {id : Str} :
    C.verifyLegacyNoteSignatureHash id amountMsat signature mintPubkey ↔
      isHexId (Str.trim id) ∧ ∃ bytes, certificateBytes signature amountMsat true = some bytes ∧
        C.recoversTo (C.legacyNoteSignatureDigestForHash id amountMsat) bytes true mintPubkey := by
  simp only [verifyLegacyNoteSignatureHash, legacyNoteSignatureDigestForHash_trim]
  cases isHexId (Str.trim id) with
  | false => simp
  | true => cases certificateBytes signature amountMsat true <;> simp

/-! ### What a mint may sign -/

/-- A note certified at a domain, or under the superseded message. -/
inductive Statement where
  | current (domain : Str) (amountMsat : UInt64) (id : Str)
  | legacy (amountMsat : UInt64) (id : Str)

def Statement.id : Statement → Str
  | current _ _ id | legacy _ id => id

def Crates.message (C : Crates) : Statement → Option Str
  | .current domain amountMsat id => C.noteSignatureMessageForHash id domain amountMsat
  | .legacy amountMsat id => some (legacyNoteSignatureMessageForHash id amountMsat)

def Crates.Vouches (C : Crates) (spendDomain : Str) (amountMsat : UInt64) (outputKey : ByteArr 32) : Statement → Prop
  | .current domain stated id =>
    C.spendDomainOf domain = some spendDomain ∧ stated = amountMsat ∧
      Str.lower (Str.trim id) = Hex.encode outputKey.toList
  | .legacy _ _ => False

/-- A note's current message is made by the statements for that note, amount and domain alone. -/
theorem Crates.vouches_of_message {statement : Statement} {spendDomain : Str} {outputKey : ByteArr 32}
    (hex : isHexId (Str.trim statement.id))
    (made : C.message statement = some (certificateMessage spendDomain amountMsat (Hex.encode outputKey.toList))) :
    C.Vouches spendDomain amountMsat outputKey statement := by
  have colonless : ':' ∉ Hex.encode outputKey.toList := colon_notMem_of_isHexId (isHexId_encode outputKey)
  cases statement with
  | current domain stated id =>
    simp only [message, noteSignatureMessageForHash, Option.map_eq_some_iff] at made
    obtain ⟨other, found, equal⟩ := made
    obtain ⟨rfl, rfl, same⟩ := certificateMessage_inj (colon_notMem_of_isHexId (isHexId_lower hex)) colonless equal
    exact ⟨found, rfl, same⟩
  | legacy stated id => exact absurd (Option.some.inj made).symm (certificateMessage_ne_legacy colonless hex)

end LnurlCash
