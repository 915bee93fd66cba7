import LnurlCash.Reference
import LnurlCash.Spellings
import LnurlCash.Signature

namespace LnurlCash

/-- The items a `cw1` carries, in their order. -/
def Cw1.items (cw1 : Cw1) : List Bytes := cw1.script :: cw1.controlBlock :: cw1.witness

/-- The bytes a `cw1` carries besides its checksum. -/
def Cw1.size (cw1 : Cw1) : Nat := 8 + (cw1.items.map fun item => item.length + 2).sum

def framed (item : Bytes) : Bytes := Bytes.be 2 item.length ++ item

/-! ### Items behind their lengths -/

theorem framed_eq {item : Bytes} (short : item.length < 2 ^ 16) :
    ∃ high low, framed item = high :: low :: item ∧ Bytes.beNat [high, low] = item.length := by
  refine ⟨UInt8.ofNat (item.length / 256), UInt8.ofNat item.length, rfl, ?_⟩
  exact Bytes.beNat_be (k := 2) short

theorem cw1Items_framed {items : List Bytes} (short : ∀ item ∈ items, item.length < 2 ^ 16) {fuel : Nat}
    (enough : items.length ≤ fuel) : cw1Items fuel (items.map framed).flatten = some items := by
  induction items generalizing fuel with
  | nil => cases fuel <;> rfl
  | cons item rest ih =>
    obtain ⟨fuel, rfl⟩ : ∃ less, fuel = less + 1 := ⟨fuel - 1, by rw [List.length_cons] at enough; omega⟩
    obtain ⟨high, low, frame, length⟩ := framed_eq (short item (by simp))
    have tail : cw1Items fuel (rest.map framed).flatten = some rest :=
      ih (fun other member => short other (by simp [member])) (by simpa using enough)
    rw [List.map_cons, List.flatten_cons, frame]
    simp only [List.cons_append, cw1Items, length, List.length_append, List.drop_left, List.take_left, tail]
    simp

/-- All the items are written, or the encoder refuses the spend for its first item that is too long. -/
theorem mapM_cw1Item (items : List Bytes) :
    items.mapM cw1Item = if ∀ item ∈ items, item.length < 2 ^ 16 then .ok (items.map framed)
      else .error (.protocol "a cw1 item is at most 65535 bytes".toList) := by
  induction items with
  | nil => rfl
  | cons item rest ih =>
    rw [List.mapM_cons, ih]
    by_cases short : item.length < 2 ^ 16
    · have first : cw1Item item = .ok (framed item) := if_pos short
      by_cases shorts : ∀ other ∈ rest, other.length < 2 ^ 16
      · have all : ∀ other ∈ item :: rest, other.length < 2 ^ 16 := List.forall_mem_cons.mpr ⟨short, shorts⟩
        rw [if_pos shorts, if_pos all, first]
        rfl
      · have notAll : ¬∀ other ∈ item :: rest, other.length < 2 ^ 16 := fun all => shorts (List.forall_mem_cons.mp all).2
        rw [if_neg shorts, if_neg notAll, first]
        rfl
    · have first : cw1Item item = .error (.protocol "a cw1 item is at most 65535 bytes".toList) := if_neg short
      have notAll : ¬∀ other ∈ item :: rest, other.length < 2 ^ 16 := fun all => short (List.forall_mem_cons.mp all).1
      rw [if_neg notAll, first]
      rfl

theorem length_framed (items : List Bytes) :
    (items.map framed).flatten.length = (items.map fun item => item.length + 2).sum := by
  induction items with
  | nil => rfl
  | cons item rest ih =>
    rw [List.map_cons, List.flatten_cons, List.length_append, ih, List.map_cons, List.sum_cons, framed,
      List.length_append, Bytes.length_be]
    omega

theorem length_le_framed (items : List Bytes) : items.length ≤ (items.map framed).flatten.length := by
  rw [length_framed]
  induction items with
  | nil => exact Nat.le_refl 0
  | cons item rest ih =>
    rw [List.length_cons, List.map_cons, List.sum_cons]
    omega

/-! ### A whole `cw1` -/

def Cw1.payload (cw1 : Cw1) : Bytes :=
  Bytes.be 4 cw1.locktime.toNat ++ Bytes.be 4 cw1.sequence.toNat ++ (cw1.items.map framed).flatten

theorem Cw1.length_payload (cw1 : Cw1) : cw1.payload.length = cw1.size := by
  rw [payload, List.length_append, List.length_append, Bytes.length_be, Bytes.length_be, length_framed, size]

theorem encodeCw1_eq_ok {cw1 : Cw1} {s : Str} :
    encodeCw1 cw1 = .ok s ↔ (∀ item ∈ cw1.items, item.length < 2 ^ 16) ∧ s = encodeBytes "cw".toList cw1.payload := by
  have written : (cw1.script :: cw1.controlBlock :: cw1.witness).mapM cw1Item =
      if ∀ item ∈ cw1.items, item.length < 2 ^ 16 then .ok (cw1.items.map framed)
      else .error (.protocol "a cw1 item is at most 65535 bytes".toList) := mapM_cw1Item cw1.items
  rw [encodeCw1, written]
  by_cases short : ∀ item ∈ cw1.items, item.length < 2 ^ 16
  · rw [if_pos short]
    constructor
    · intro encoded
      cases encoded
      exact ⟨short, rfl⟩
    · rintro ⟨_, rfl⟩
      rfl
  · rw [if_neg short]
    constructor
    · intro encoded
      cases encoded
    · rintro ⟨all, _⟩
      exact absurd all short

/-- The payload gives back every field, whatever the items hold. -/
theorem Cw1.fields_of_payload {cw1 : Cw1} (short : ∀ item ∈ cw1.items, item.length < 2 ^ 16) :
    UInt32.ofNat (Bytes.beNat (cw1.payload.take 4)) = cw1.locktime ∧
      UInt32.ofNat (Bytes.beNat ((cw1.payload.drop 4).take 4)) = cw1.sequence ∧
      cw1Items cw1.payload.length (cw1.payload.drop 8) = some cw1.items := by
  have locktime := Bytes.beNat_be (k := 4) cw1.locktime.toNat_lt
  have sequence := Bytes.beNat_be (k := 4) cw1.sequence.toNat_lt
  have items := length_le_framed cw1.items
  have first : cw1.payload.take 4 = Bytes.be 4 cw1.locktime.toNat := by
    rw [payload, List.append_assoc, List.take_left' (Bytes.length_be 4 _)]
  have second : (cw1.payload.drop 4).take 4 = Bytes.be 4 cw1.sequence.toNat := by
    rw [payload, List.append_assoc, List.drop_left' (Bytes.length_be 4 _), List.take_left' (Bytes.length_be 4 _)]
  have rest : cw1.payload.drop 8 = (cw1.items.map framed).flatten := by
    rw [payload, List.drop_left' (by rw [List.length_append, Bytes.length_be, Bytes.length_be])]
  refine ⟨by rw [first, locktime, UInt32.ofNat_toNat], by rw [second, sequence, UInt32.ofNat_toNat], ?_⟩
  rw [rest, cw1Items_framed short]
  rw [payload, List.length_append]
  omega

/-- What decoding makes of a payload that fits. -/
theorem Crates.decodeCw1_of_payload {C : Crates} {cw1 : Cw1} {s : Str}
    (short : ∀ item ∈ cw1.items, item.length < 2 ^ 16) (named : (C.cw1OutputKey cw1).isSome)
    (decoded : decodeBytes "cw".toList s = some cw1.payload) : C.decodeCw1 s = some cw1 := by
  obtain ⟨locktime, sequence, items⟩ := Cw1.fields_of_payload short
  have long : ¬cw1.payload.length < 8 := by
    rw [Cw1.length_payload, Cw1.size]
    omega
  simp only [decodeCw1, decoded, Option.bind_eq_bind, Option.bind_some, if_neg long, items, Cw1.items, locktime, sequence]
  exact if_pos named

theorem validHrp_cw : Bech32.validHrp "cw".toList := by decide

theorem lower_cw : Str.lower "cw".toList = "cw".toList := by decide

theorem length_encodeCw1 (cw1 : Cw1) :
    (encodeBytes "cw".toList cw1.payload).length = 9 + (8 * cw1.size + 4) / 5 := by
  have written := encodeBytes_spec validHrp_cw lower_cw cw1.payload
  have size := byteLen_encodeBytes validHrp_cw lower_cw cw1.payload
  have ascii : ∀ c ∈ encodeBytes "cw".toList cw1.payload, c.toNat < 128 := by
    intro c member
    have range := Bech32.printable_of_encode written c member
    omega
  have two : "cw".toList.length = 2 := rfl
  rw [Str.byteLen_of_ascii ascii, cw1.length_payload, two] at size
  omega

theorem decodeBytes_encodeCw1 (cw1 : Cw1) :
    decodeBytes "cw".toList (encodeBytes "cw".toList cw1.payload) =
      if cw1.size ≤ 5114 then some cw1.payload else none := by
  have size := byteLen_encodeBytes validHrp_cw lower_cw cw1.payload
  have two : "cw".toList.length = 2 := rfl
  have payload := cw1.length_payload
  have limit : maxBech32Chars = 8192 := rfl
  by_cases fits : cw1.size ≤ 5114
  · have carries : Carries "cw".toList cw1.payload.length := ⟨validHrp_cw, lower_cw, by omega⟩
    have blank : ∀ c ∈ ([] : Str), Str.isWhitespace c := by simp
    have read := (decodeBytes_encodeBytes carries blank blank).1
    rw [List.nil_append, List.append_nil] at read
    rw [if_pos fits, read]
  · rw [if_neg fits, decodeBytes, trim_encodeBytes validHrp_cw lower_cw, if_pos (by omega)]

/-- What reading an encoded spend back gives. -/
theorem Crates.decodeCw1_encodeCw1 {C : Crates} {cw1 : Cw1} (named : (C.cw1OutputKey cw1).isSome)
    (short : ∀ item ∈ cw1.items, item.length < 2 ^ 16) :
    C.decodeCw1 (encodeBytes "cw".toList cw1.payload) = if cw1.size ≤ 5114 then some cw1 else none := by
  have read := decodeBytes_encodeCw1 cw1
  by_cases fits : cw1.size ≤ 5114
  · rw [if_pos fits] at read
    rw [if_pos fits, decodeCw1_of_payload short named read]
  · rw [if_neg fits] at read
    rw [if_neg fits, decodeCw1, read]
    rfl

/-- The decoder reads a `cw1` back exactly when its string is within the
decoder's limit on characters, which is a payload of at most 5114 bytes. -/
theorem Crates.cw1_round_trip {C : Crates} {cw1 : Cw1} {s : Str} (named : (C.cw1OutputKey cw1).isSome)
    (encoded : encodeCw1 cw1 = .ok s) :
    (C.decodeCw1 s = if s.length ≤ maxBech32Chars then some cw1 else none) ∧
      (s.length ≤ maxBech32Chars ↔ cw1.size ≤ 5114) := by
  obtain ⟨short, rfl⟩ := encodeCw1_eq_ok.mp encoded
  have length := length_encodeCw1 cw1
  have bound : (encodeBytes "cw".toList cw1.payload).length ≤ maxBech32Chars ↔ cw1.size ≤ 5114 := by
    rw [length, maxBech32Chars]
    omega
  exact ⟨by rw [if_congr bound rfl rfl, decodeCw1_encodeCw1 named short], bound⟩

def onePreimage : ByteArr 32 := ⟨List.replicate 32 0xab, rfl⟩

/-- That preimage's bearer note, opened in full. -/
def shortCw1 : Cw1 where
  locktime := 0
  sequence := 0xffffffff
  script := (bearerLeaf (Sha256.hash onePreimage.toList)).toList
  controlBlock := 0xc0 :: numsH.toList
  witness := [onePreimage.toList]

def longCw1 : Cw1 := { shortCw1 with witness := [List.replicate 5200 0] }

theorem shortCw1_named : (reference.cw1OutputKey shortCw1).isSome := by decide +kernel

theorem shortCw1_read_back : ∃ s, encodeCw1 shortCw1 = .ok s ∧ reference.decodeCw1 s = some shortCw1 := by
  have encoded : encodeCw1 shortCw1 = .ok (encodeBytes "cw".toList shortCw1.payload) :=
    encodeCw1_eq_ok.mpr ⟨by decide +kernel, rfl⟩
  obtain ⟨read, fits⟩ := Crates.cw1_round_trip shortCw1_named encoded
  exact ⟨_, encoded, by rw [read, if_pos (fits.mpr (by decide))]⟩

/-- A spend with a 5200-byte witness item is encoded and cannot be read back. -/
theorem longCw1_unread : ∃ s, (reference.cw1OutputKey longCw1).isSome ∧ encodeCw1 longCw1 = .ok s ∧
    reference.decodeCw1 s = none := by
  have size : longCw1.size = 5282 := by simp [Cw1.size, Cw1.items, longCw1, shortCw1, -List.reduceReplicate]
  have short : ∀ item ∈ longCw1.items, item.length < 2 ^ 16 := by
    simp [Cw1.items, longCw1, shortCw1, -List.reduceReplicate]
  have named : (reference.cw1OutputKey longCw1).isSome := shortCw1_named
  refine ⟨encodeBytes "cw".toList longCw1.payload, named, encodeCw1_eq_ok.mpr ⟨short, rfl⟩, ?_⟩
  rw [Crates.decodeCw1_encodeCw1 named short, size]
  rfl

/-! ### A bearer note's two spellings -/

/-- A text that spells these bytes in hexadecimal, in any case and with whitespace around it. -/
def Spells (text : Str) (bytes : Bytes) : Prop := Str.lower (Str.trim text) = Hex.encode bytes

theorem hex32_of_spells {text : Str} {arr : ByteArr 32} (spelled : Spells text arr.toList) : hex32 text = some arr := by
  rw [← hex32_trim, ← hex32_lower, spelled, hex32_encode]

/-- A `cw1` that is read back is no preimage and no `ck1`, so it is the script-path spend it names. -/
theorem Crates.decodeSpend_of_decodeCw1 {C : Crates} {s : Str} {cw1 : Cw1} {key : ByteArr 32} (clean : Str.trim s = s)
    (decoded : C.decodeCw1 s = some cw1) (named : C.cw1OutputKey cw1 = some key) :
    C.decodeSpend s = some (.scriptPath key cw1) := by
  obtain ⟨payload, found, _⟩ := Option.bind_eq_some_iff.mp decoded
  have noHex : hex32 s = none := by
    rw [hex32, not_isPreimage_of_decodeBytes found ⟨'w', by decide, by decide⟩, if_neg (by decide)]
  have noCk : decodeBytes "ck".toList s = none := by
    by_contra present
    obtain ⟨bytes, again⟩ := Option.ne_none_iff_exists'.mp present
    exact absurd (decodeBytes_unique found again).1 (by decide)
  simp only [decodeSpend, clean, noHex, decodeCk1, noCk, decoded, named, Option.bind_eq_bind, Option.bind_none,
    Option.bind_some]

theorem encodeCw1_bearerNote (note : BearerNote) (preimage : ByteArr 32) :
    encodeCw1 (note.cw1 preimage.toList) = .ok (encodeBytes "cw".toList (note.cw1 preimage.toList).payload) := by
  refine encodeCw1_eq_ok.mpr ⟨?_, rfl⟩
  simp [Cw1.items, BearerNote.cw1]

/-- A preimage's hexadecimal digits and the full `cw1` it stands for are one
spend of the bearer note of its hash, which both of them open everywhere. -/
theorem Crates.bearer_short_form {C : Crates} {preimage : ByteArr 32} {cw1 : Cw1}
    (spelled : C.bearerCw1 preimage.toList = some cw1) {text : Str} (short : Spells text preimage.toList) :
    ∃ full spend, encodeCw1 cw1 = .ok full ∧ C.decodeSpend text = some spend ∧ C.decodeSpend full = some spend ∧
      (∀ reference, Spells reference (C.sha256 preimage.toList).toList → C.decodeNote reference = some spend.outputKey) ∧
      C.bearerHash spend = some (C.sha256 preimage.toList) ∧
      (∀ domain, C.checkSpend text domain = some { outputKey := spend.outputKey, verdict := .opens } ∧
        C.checkSpend full domain = some { outputKey := spend.outputKey, verdict := .opens }) ∧
      ∀ domain amountMsat signature mintPubkey,
        C.checkNote text domain amountMsat signature mintPubkey = C.checkNote full domain amountMsat signature mintPubkey := by
  obtain ⟨note, named, rfl⟩ := bearerCw1_eq_some spelled
  obtain ⟨commits, opens, hash⟩ := bearerNote_opens named (by rw [preimage.size]; decide)
  have encoded := encodeCw1_bearerNote note preimage
  have fits : (note.cw1 preimage.toList).size ≤ 5114 := by simp [Cw1.size, Cw1.items, BearerNote.cw1]
  have readBack := decodeCw1_encodeCw1 (Option.isSome_iff_exists.mpr ⟨_, commits⟩) (encodeCw1_eq_ok.mp encoded).1
  rw [if_pos fits] at readBack
  have shortSpend : C.decodeSpend text = some (.scriptPath note.outputKey (note.cw1 preimage.toList)) := by
    simp only [decodeSpend, hex32_trim, hex32_of_spells short, spelled, commits, Option.bind_eq_bind, Option.bind_some]
  have fullSpend := decodeSpend_of_decodeCw1 (trim_encodeBytes validHrp_cw lower_cw _) readBack commits
  have check {k1 : Str} (spends : C.decodeSpend k1 = some (.scriptPath note.outputKey (note.cw1 preimage.toList)))
      (domain : Str) : C.checkSpend k1 domain = some { outputKey := note.outputKey, verdict := .opens } := by
    simp only [checkSpend, spends, Option.bind_eq_bind, Option.bind_some, opens, Spend.outputKey]
  refine ⟨_, _, encoded, shortSpend, fullSpend, ?_, hash, fun domain => ⟨check shortSpend domain, check fullSpend domain⟩, ?_⟩
  · intro reference hashed
    simp only [decodeNote, hex32_of_spells hashed, named, Option.map_some, Spend.outputKey]
  · intro domain amountMsat signature mintPubkey
    simp only [checkNote, check shortSpend domain, check fullSpend domain, shortSpend, fullSpend]

/-- The digits of `onePreimage` in both cases, padded. -/
def paddedDigits : Str := "  ".toList ++ (List.replicate 16 "aB".toList).flatten ++ (List.replicate 16 "Ab".toList).flatten ++ ['\n']

theorem paddedDigits_short_form : ∃ full spend, encodeCw1 shortCw1 = .ok full ∧
    reference.decodeSpend paddedDigits = some spend ∧ reference.decodeSpend full = some spend ∧
    reference.bearerHash spend = some (Sha256.hash onePreimage.toList) := by
  have spelled : reference.bearerCw1 onePreimage.toList = some shortCw1 := by decide +kernel
  have digits : Spells paddedDigits onePreimage.toList := by
    rw [Spells]
    decide +kernel
  obtain ⟨full, spend, encoded, short, long, _, hash, _⟩ := Crates.bearer_short_form spelled digits
  exact ⟨full, spend, encoded, short, long, hash⟩

end LnurlCash
