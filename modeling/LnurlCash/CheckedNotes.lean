import LnurlCash.Note
import LnurlCash.CheckedSpends

/-! The checks of a note and its certificate, and that no text stops any part of the offline verifier. -/

namespace LnurlCash.Sliced

open Checked

def certificateBytes (signature : Str) (amountMsat : UInt64) (lenient : Bool) : Checked Bytes := do
  let trimmed := Str.trim signature
  match ← attempt (decodeCs1WithAmount trimmed) with
  | some cs1 => if cs1.amountMsat = amountMsat then pure cs1.signature.toList else failure
  | none =>
    if !lenient then failure
    else
      let found ← attempt (decodeAnyCs1Bytes trimmed)
      let bytes ← ask (found.or (Hex.decode trimmed))
      if bytes.length = 65 then pure bytes else failure

/-- Both layouts are cut out of the signature, whichever is tried. -/
def recoversTo (C : Crates) (digest : ByteArr 32) (signature : Bytes) (bothLayouts : Bool) (mintPubkeyHex : Str) :
    Checked Bool := do
  let target := Str.lower (Str.trim mintPubkeyHex)
  let compact ← slice signature 0 64
  let recovery ← index signature 64
  let trailing := (compact, recovery)
  let compact ← slice signature 1 65
  let recovery ← index signature 0
  let leading := (compact, recovery)
  let layouts := if bothLayouts then [trailing, leading] else [trailing]
  pure (layouts.any fun (compact, recovery) =>
    (C.recover digest compact recovery).any fun recovered => decide (Hex.encode recovered.toList = target))

def noteSignatureDigestForHash (C : Crates) (id domain : Str) (amountMsat : UInt64) : Checked (ByteArr 32) := do
  let domain ← spendDomainOf C domain
  pure (C.lightningSignedDigest (certificateMessage domain amountMsat (Str.lower (Str.trim id))))

def verifyNoteSignatureHash (C : Crates) (id domain : Str) (amountMsat : UInt64) (signature mintPubkeyHex : Str) :
    Checked Bool :=
  let id := Str.trim id
  if !isHexId id then pure false
  else do
    let digest ← attempt (noteSignatureDigestForHash C id domain amountMsat)
    let bytes ← attempt (certificateBytes signature amountMsat false)
    match digest, bytes with
    | some digest, some bytes => recoversTo C digest bytes false mintPubkeyHex
    | _, _ => pure false

def verifyLegacyNoteSignatureHash (C : Crates) (id : Str) (amountMsat : UInt64) (signature mintPubkeyHex : Str) :
    Checked Bool :=
  let id := Str.trim id
  if !isHexId id then pure false
  else do
    match ← attempt (certificateBytes signature amountMsat true) with
    | some bytes => recoversTo C (C.legacyNoteSignatureDigestForHash id amountMsat) bytes true mintPubkeyHex
    | none => pure false

def certifiedOver (C : Crates) (outputKey : ByteArr 32) (bearerHash : Option (ByteArr 32)) (domain : Str)
    (amountMsat : UInt64) (signature mintPubkey : Str) : Checked CertifiedOver := do
  let q := Hex.encode outputKey.toList
  let current ← verifyNoteSignatureHash C q domain amountMsat signature mintPubkey
  if current then pure .outputKey
  else
    let legacy ← verifyLegacyNoteSignatureHash C q amountMsat signature mintPubkey
    if legacy then pure .legacyOutputKey
    else
      let h ← ask bearerHash
      let hashed ← verifyLegacyNoteSignatureHash C (Hex.encode h.toList) amountMsat signature mintPubkey
      if hashed then pure .legacyHash else failure

def checkNoteCertificate (C : Crates) (reference domain : Str) (amountMsat : UInt64) (signature mintPubkey : Str) :
    Checked CertifiedOver := do
  let outputKey ← decodeNote C reference
  let bearerHash :=
    if isPreimage reference then (Hex.decode (Str.trim reference)).bind (Bytes.toArr 32) else none
  certifiedOver C outputKey bearerHash domain amountMsat signature mintPubkey

def checkNote (C : Crates) (k1 domain : Str) (amountMsat : UInt64) (signature mintPubkey : Str) : Checked NoteCheck := do
  let spend ← checkSpend C k1 domain
  let decoded ← decodeSpend C k1
  let bearerHash ← attempt (bearerHash C decoded)
  let certificate ← certifiedOver C spend.outputKey bearerHash domain amountMsat signature mintPubkey
  pure { outputKey := spend.outputKey, spend := spend.verdict, certificate }

def noteDeclaredAmount (C : Crates) (url : Str) : Checked UInt64 :=
  match C.firstParam url "amount".toList with
  | some amount => ask ((Str.parseUnsigned (2 ^ 64) amount).map UInt64.ofNat)
  | none => do
    let signature ← ask (C.noteSignature url)
    let cs1 ← decodeCs1WithAmount signature
    pure cs1.amountMsat

def checkNoteUrl (C : Crates) (url mintPubkey : Str) : Checked NoteCheck := do
  let url ← resolveLnurlInput C url
  let k1 ← ask (C.noteK1 url)
  let domain ← spendDomainOf C url
  let amountMsat ← noteDeclaredAmount C url
  let signature ← ask (C.noteSignature url)
  checkNote C k1 domain amountMsat signature mintPubkey

variable (C : Crates)

/-! ### Certificates -/

theorem returns_certificateBytes (signature : Str) (amountMsat : UInt64) (lenient : Bool) :
    Returns (certificateBytes signature amountMsat lenient)
      ((LnurlCash.certificateBytes signature amountMsat lenient).map ByteArr.toList) := by
  rw [certificateBytes, LnurlCash.certificateBytes]
  refine (returns_decodeCs1WithAmount _).attempt.andThen ?_
  cases LnurlCash.decodeCs1WithAmount (Str.trim signature) with
  | some cs1 =>
    dsimp only
    rw [apply_ite (Option.map ByteArr.toList)]
    exact returns_ite (fun _ => returns_pure _) (fun _ => returns_failure)
  | none =>
    dsimp only
    rw [apply_ite (Option.map ByteArr.toList)]
    refine returns_ite (fun _ => returns_failure) fun _ => ?_
    refine (returns_decodeAnyCs1Bytes _).attempt.andThen ?_
    rw [Option.map_bind]
    refine (returns_ask _).bind fun bytes _ => ?_
    by_cases size : bytes.length = 65
    · have whole : Bytes.toArr 65 bytes = some ⟨bytes, size⟩ := Bytes.toArr_eq_some.mpr rfl
      rw [if_pos size, Function.comp_apply, whole]
      exact returns_pure bytes
    · rw [if_neg size, Function.comp_apply, Bytes.toArr, dif_neg size]
      exact returns_failure

/-- A signature of 65 bytes has both layouts in it. -/
theorem returns_recoversTo (digest : ByteArr 32) (signature : ByteArr 65) (bothLayouts : Bool) (mintPubkeyHex : Str) :
    Returns (recoversTo C digest signature.toList bothLayouts mintPubkeyHex)
      (some (C.recoversTo digest signature bothLayouts mintPubkeyHex)) := by
  have leading : (signature.toList.drop 1).take (65 - 1) = signature.toList.drop 1 :=
    List.take_of_length_le (by rw [List.length_drop, signature.size])
  have size : 65 ≤ signature.toList.length := signature.size.ge
  have compact := returns_slice (by decide : 1 ≤ 65) size
  rw [leading] at compact
  refine (returns_slice_to (by omega)).andThen ?_
  refine (returns_get signature (by omega : 64 < 65)).andThen ?_
  refine compact.andThen ?_
  refine (returns_get signature (by omega : 0 < 65)).andThen ?_
  exact returns_pure _

theorem returns_noteSignatureDigestForHash (id domain : Str) (amountMsat : UInt64) :
    Returns (noteSignatureDigestForHash C id domain amountMsat) (C.noteSignatureDigestForHash id domain amountMsat) := by
  rw [Crates.noteSignatureDigestForHash, Crates.noteSignatureMessageForHash, Option.map_map]
  exact (returns_spendDomainOf C domain).map _

theorem returns_verifyNoteSignatureHash (id domain : Str) (amountMsat : UInt64) (signature mintPubkeyHex : Str) :
    Returns (verifyNoteSignatureHash C id domain amountMsat signature mintPubkeyHex)
      (some (C.verifyNoteSignatureHash id domain amountMsat signature mintPubkeyHex)) := by
  simp only [verifyNoteSignatureHash, Crates.verifyNoteSignatureHash, apply_ite some]
  refine returns_ite (fun _ => returns_pure _) fun _ => ?_
  refine (returns_noteSignatureDigestForHash C _ domain amountMsat).attempt.andThen ?_
  refine (returns_certificateBytes signature amountMsat false).attempt.andThen ?_
  cases C.noteSignatureDigestForHash (Str.trim id) domain amountMsat with
  | none => exact returns_pure false
  | some digest =>
    cases LnurlCash.certificateBytes signature amountMsat false with
    | none => exact returns_pure false
    | some bytes => exact returns_recoversTo C digest bytes false mintPubkeyHex

theorem returns_verifyLegacyNoteSignatureHash (id : Str) (amountMsat : UInt64) (signature mintPubkeyHex : Str) :
    Returns (verifyLegacyNoteSignatureHash C id amountMsat signature mintPubkeyHex)
      (some (C.verifyLegacyNoteSignatureHash id amountMsat signature mintPubkeyHex)) := by
  simp only [verifyLegacyNoteSignatureHash, Crates.verifyLegacyNoteSignatureHash, apply_ite some]
  refine returns_ite (fun _ => returns_pure _) fun _ => ?_
  refine (returns_certificateBytes signature amountMsat true).attempt.andThen ?_
  cases LnurlCash.certificateBytes signature amountMsat true with
  | none => exact returns_pure false
  | some bytes => exact returns_recoversTo C _ bytes true mintPubkeyHex

theorem returns_certifiedOver (outputKey : ByteArr 32) (bearerHash : Option (ByteArr 32)) (domain : Str)
    (amountMsat : UInt64) (signature mintPubkey : Str) :
    Returns (certifiedOver C outputKey bearerHash domain amountMsat signature mintPubkey)
      (C.certifiedOver outputKey bearerHash domain amountMsat signature mintPubkey) := by
  refine (returns_verifyNoteSignatureHash C _ domain amountMsat signature mintPubkey).andThen ?_
  refine returns_ite (fun _ => returns_pure _) fun _ => ?_
  refine (returns_verifyLegacyNoteSignatureHash C _ amountMsat signature mintPubkey).andThen ?_
  refine returns_ite (fun _ => returns_pure _) fun _ => ?_
  cases bearerHash with
  | none => exact (returns_ask none).leave
  | some h =>
    have hashed := returns_verifyLegacyNoteSignatureHash C (Hex.encode h.toList) amountMsat signature mintPubkey
    refine (returns_ask (some h)).andThen (hashed.andThen ?_)
    rw [Option.filter_some, apply_ite (Option.map _)]
    exact returns_ite (fun _ => returns_pure _) (fun _ => returns_failure)

theorem returns_checkNoteCertificate (reference domain : Str) (amountMsat : UInt64) (signature mintPubkey : Str) :
    Returns (checkNoteCertificate C reference domain amountMsat signature mintPubkey)
      (C.checkNoteCertificate reference domain amountMsat signature mintPubkey) :=
  (returns_decodeNote C reference).bind fun outputKey _ =>
    returns_certifiedOver C outputKey _ domain amountMsat signature mintPubkey

/-! ### Notes -/

theorem returns_checkNote (k1 domain : Str) (amountMsat : UInt64) (signature mintPubkey : Str) :
    Returns (checkNote C k1 domain amountMsat signature mintPubkey)
      (C.checkNote k1 domain amountMsat signature mintPubkey) := by
  refine (returns_checkSpend C k1 domain).bind fun spend _ => ?_
  refine (returns_decodeSpend C k1).bind fun decoded _ => ?_
  refine (returns_bearerHash C decoded).attempt.andThen ?_
  refine (returns_certifiedOver C _ _ domain amountMsat signature mintPubkey).bind fun certificate _ => ?_
  exact returns_pure _

theorem returns_noteDeclaredAmount (url : Str) : Returns (noteDeclaredAmount C url) (C.noteDeclaredAmount url) := by
  rw [noteDeclaredAmount, Crates.noteDeclaredAmount]
  cases C.firstParam url "amount".toList with
  | some amount => exact returns_ask _
  | none =>
    refine (returns_ask _).bind fun signature _ => ?_
    exact (returns_decodeCs1WithAmount signature).map Cs1.amountMsat

theorem returns_checkNoteUrl (url mintPubkey : Str) :
    Returns (checkNoteUrl C url mintPubkey) (C.checkNoteUrl url mintPubkey) := by
  refine (returns_resolveLnurlInput C url).bind fun url _ => ?_
  refine (returns_ask _).bind fun k1 _ => ?_
  refine (returns_spendDomainOf C url).bind fun domain _ => ?_
  refine (returns_noteDeclaredAmount C url).bind fun amountMsat _ => ?_
  refine (returns_ask _).bind fun signature _ => ?_
  exact returns_checkNote C k1 domain amountMsat signature mintPubkey

/-- Whatever texts it is given, the offline verifier cuts and indexes within
bounds, ends every loop and returns what its functions compute without the checks. -/
theorem verifier_never_panics (k1 domain signature mintPubkey reference url value : Str) (amountMsat : UInt64) :
    Returns (decodeSpend C k1) (C.decodeSpend k1) ∧
      Returns (checkSpend C k1 domain) (C.checkSpend k1 domain) ∧
      Returns (checkNote C k1 domain amountMsat signature mintPubkey)
        (C.checkNote k1 domain amountMsat signature mintPubkey) ∧
      Returns (checkNoteCertificate C reference domain amountMsat signature mintPubkey)
        (C.checkNoteCertificate reference domain amountMsat signature mintPubkey) ∧
      Returns (checkNoteUrl C url mintPubkey) (C.checkNoteUrl url mintPubkey) ∧
      Returns (decodeCw1 C value) (C.decodeCw1 value) ∧
      Returns (decodeCs1WithAmount value) (LnurlCash.decodeCs1WithAmount value) ∧
      Returns (decodeBolt11AmountMsat value) (LnurlCash.decodeBolt11AmountMsat value) :=
  ⟨returns_decodeSpend C k1, returns_checkSpend C k1 domain,
    returns_checkNote C k1 domain amountMsat signature mintPubkey,
    returns_checkNoteCertificate C reference domain amountMsat signature mintPubkey,
    returns_checkNoteUrl C url mintPubkey, returns_decodeCw1 C value, returns_decodeCs1WithAmount value,
    returns_decodeBolt11AmountMsat value⟩

end LnurlCash.Sliced
