import LnurlCash.LegacyIssuance

namespace LnurlCash

variable {C : Crates} {signature id domain mintPubkey : Str} {amountMsat stated : UInt64} {payload : ByteArr 65}

/-- A bech32m string whose prefix states an amount, over any 65 bytes. -/
def AmountPrefixed (signature : Str) (stated : UInt64) (payload : ByteArr 65) : Prop :=
  ∃ suffix, decodeAmountSuffix suffix = some stated ∧
    Bech32.decode bech32mResidue ("cs".toList ++ suffix) (Str.trim signature) = some payload.toList

namespace AmountPrefixed

theorem parts (prefixed : AmountPrefixed signature stated payload) :
    ∃ before data suffix, Str.rsplitOnce '1' (Str.trim signature) = some (before, data) ∧
      Str.stripPrefix "cs".toList (Str.lower before) = some suffix ∧ decodeAmountSuffix suffix = some stated ∧
      Bech32.decode bech32mResidue (Str.lower before) (Str.trim signature) = some payload.toList := by
  obtain ⟨suffix, amount, decoded⟩ := prefixed
  obtain ⟨values, parsed⟩ := Bech32.parse_isSome_of_decode decoded
  obtain ⟨before, data, _, whole, absent, hrp, _⟩ := Bech32.parse_eq_some parsed
  exact ⟨before, data, suffix, Str.rsplitOnce_eq_some.mpr ⟨whole, absent⟩, Str.stripPrefix_eq_some.mpr hrp.symm, amount,
    hrp ▸ decoded⟩

/-- Its bytes are a current certificate when they end in a recovery id. -/
theorem decodeCs1WithAmount_eq (prefixed : AmountPrefixed signature stated payload) :
    decodeCs1WithAmount signature =
      if payload.get 64 > 3 then none else some { amountMsat := stated, signature := payload } := by
  obtain ⟨before, data, suffix, split, stripped, amount, decoded⟩ := prefixed.parts
  have short : ¬Str.byteLen (Str.trim signature) > maxBech32Chars := by
    have bound := Bech32.byteLen_of_decode decoded
    rw [payload.size] at bound
    rw [maxBech32Chars]
    omega
  have fixed : decodeFixed 65 (Str.lower before) (Str.trim signature) = some payload := by
    rw [decodeFixed, decodeBytes, Str.trim_trim, if_neg short, decoded, Option.bind_some, Bytes.toArr_toList]
  simp only [decodeCs1WithAmount, split, stripped, amount, fixed, Option.bind_eq_bind, Option.bind_some]

/-- It is no certificate under the fixed prefix. -/
theorem decodeCs1_eq_none (prefixed : AmountPrefixed signature stated payload) : decodeCs1 signature = none := by
  obtain ⟨suffix, amount, decoded⟩ := prefixed
  have longer : "cs".toList ≠ "cs".toList ++ suffix := by
    intro same
    rw [List.self_eq_append_right.mp same] at amount
    cases amount
  rw [decodeCs1, decodeFixed, decodeBytes, Bech32.decode_unique decoded longer, ite_self, Option.bind_none]

/-- Read for the superseded message, any 65 bytes pass. -/
theorem decodeAnyCs1Bytes_eq (prefixed : AmountPrefixed signature stated payload) :
    decodeAnyCs1Bytes (Str.trim signature) = some payload.toList := by
  have noCs1 := prefixed.decodeCs1_eq_none
  obtain ⟨before, data, suffix, split, stripped, amount, decoded⟩ := prefixed.parts
  rw [decodeCs1, decodeFixed, ← decodeBytes_trim] at noCs1
  simp only [decodeAnyCs1Bytes, decodeCs1, decodeFixed, noCs1, split, stripped, Option.bind_eq_bind, Option.bind_some,
    decoded]

theorem certificateBytes_eq (prefixed : AmountPrefixed signature stated payload) :
    certificateBytes signature amountMsat true =
      if payload.get 64 > 3 ∨ stated = amountMsat then some payload else none := by
  simp only [certificateBytes, decodeCs1WithAmount_trim, prefixed.decodeCs1WithAmount_eq, prefixed.decodeAnyCs1Bytes_eq]
  by_cases leading : payload.get 64 > 3
  · simp [leading]
  · simp [leading]

end AmountPrefixed

theorem Crates.not_recoversAs {digest : ByteArr 32} {compact : Bytes} {recovery : UInt8} (large : recovery > 3) :
    ¬C.RecoversAs digest compact recovery mintPubkey := by
  rintro ⟨key, found, _⟩
  have four : ¬recovery.toNat < 4 := by
    have bound : 3 < recovery.toNat := large
    omega
  rw [recover, dif_neg four] at found
  cases found

/-- A prefix is held to the amount asked for, except over a payload that ends
in no recovery id and is a legacy certificate in the leading layout. -/
theorem Crates.stated_amount_iff (prefixed : AmountPrefixed signature stated payload) :
    ((C.verifyNoteSignatureHash id domain amountMsat signature mintPubkey → stated = amountMsat) ∧
        (C.verifyLegacyNoteSignatureHash id amountMsat signature mintPubkey → stated = amountMsat)) ↔
      stated = amountMsat ∨ payload.get 64 ≤ 3 ∨
        ¬(isHexId (Str.trim id) ∧ C.RecoversAs (C.legacyNoteSignatureDigestForHash id amountMsat)
          (payload.toList.drop 1) (payload.get 0) mintPubkey) := by
  rw [verifyNoteSignatureHash_iff, verifyLegacyNoteSignatureHash_iff, prefixed.decodeCs1WithAmount_eq,
    prefixed.certificateBytes_eq]
  by_cases leading : payload.get 64 > 3
  · -- no current `cs1`: the lenient path reads the bytes, and only the leading layout can recover
    have notTrailing : ∀ digest, ¬C.RecoversAs digest (payload.toList.take 64) (payload.get 64) mintPubkey :=
      fun _ => not_recoversAs leading
    have large : ¬payload.get 64 ≤ 3 := by simpa using leading
    simp only [leading, large, true_or, if_true, recoversTo_both, notTrailing, Option.some.injEq,
      exists_eq_left', false_or, reduceCtorEq, false_and, and_false, exists_false, false_imp_iff, true_and]
    tauto
  · have small : payload.get 64 ≤ 3 := by simpa using leading
    simp only [leading, small, true_or, or_true, false_or, iff_true, if_false, Option.some.injEq, Cs1.mk.injEq,
      Option.ite_none_right_eq_some]
    constructor
    · rintro ⟨_, _, _, _, ⟨same, _⟩, _⟩
      exact same
    · rintro ⟨_, _, ⟨same, _⟩, _⟩
      exact same

/-! The certificate of `freshHash`, asked for another amount; and a legacy one
over 1000 msat, its recovery id first, put under the prefix of 999000 msat. -/

def freshPayload : ByteArr 65 := Bytes.beArr 65
  0xf01d6b9018ab421dd410404cb869072065522bf85734008f105cf385a023a80f14b9444541c17b648e89d13eb33233f95dc76634b264d1ed11f40d8b5bb725db01

theorem freshCertificate_prefixed : AmountPrefixed freshCertificate 1000 freshPayload :=
  ⟨"10n".toList, by decide, by decide +kernel⟩

theorem reference.freshCertificate_holds :
    reference.verifyNoteSignatureHash freshHash "mint.example".toList 2000 freshCertificate mintKey = false ∧
      reference.verifyLegacyNoteSignatureHash freshHash 2000 freshCertificate mintKey = false := by
  obtain ⟨current, legacy⟩ := (@Crates.stated_amount_iff reference freshCertificate freshHash "mint.example".toList mintKey
    2000 1000 freshPayload freshCertificate_prefixed).mpr (Or.inr (Or.inl (by decide +kernel)))
  exact ⟨Bool.eq_false_iff.mpr fun verified => absurd (current verified) (by decide),
    Bool.eq_false_iff.mpr fun verified => absurd (legacy verified) (by decide)⟩

def leadingPayload : ByteArr 65 := Bytes.beArr 65
  0x00e1fe434d345bf33083abb6280f4f44ac5fb22934977813c20c015f2b43d3fab835bfc64160987bf003fbacbb46f7d8278b72519550279bcebbfce0b6ca7d316a

def relabelled : Str :=
  "cs9990n1qrslus6dx3dlxvyr4wmzsr60gjk9lv3fxjthsy7zpsq4726r60atsddlceqkpxrm7qplht9mgmmasfutwfge25p8n08thl8qkm986vt2hmphc3".toList

set_option maxRecDepth 100000 in
/-- It states 999000 msat and verifies for 1000. -/
theorem reference.relabelled_verifies :
    AmountPrefixed relabelled 999000 leadingPayload ∧
      reference.verifyLegacyNoteSignatureHash (Hex.encode chosenHash.toList) 1000 relabelled mintKey = true ∧
      (999000 : UInt64) ≠ 1000 :=
  ⟨⟨"9990n".toList, by decide, by decide +kernel⟩, by decide +kernel, by decide⟩

end LnurlCash
