import LnurlCash.Spend

namespace LnurlCash

/-- Every value of the right shape is read back from its encoding, in either
case and with whitespace around it, and nothing else is read as that value. -/
structure OneSpelling {α : Type} (encode : α → Str) (decode : Str → Option α) (shape : α → Prop) : Prop where
  reads : ∀ value, shape value → ∀ front back : Str, (∀ c ∈ front, Str.isWhitespace c) →
    (∀ c ∈ back, Str.isWhitespace c) →
      decode (front ++ encode value ++ back) = some value ∧
      decode (front ++ Str.upper (encode value) ++ back) = some value
  canonical : ∀ s value, decode s = some value → shape value ∧ Str.lower (Str.trim s) = encode value

/-- A text in one of its cases, with whitespace around it. -/
def Pasted (written text : Str) : Prop :=
  ∃ front back : Str, (∀ c ∈ front, Str.isWhitespace c) ∧ (∀ c ∈ back, Str.isWhitespace c) ∧
    (text = front ++ written ++ back ∨ text = front ++ Str.upper written ++ back)

theorem pasted_self (written : Str) : Pasted written written := ⟨[], [], by simp, by simp, Or.inl (by simp)⟩

theorem pasted_upper (written : Str) : Pasted written (Str.upper written) := ⟨[], [], by simp, by simp, Or.inr (by simp)⟩

theorem OneSpelling.reads_pasted {α : Type} {encode : α → Str} {decode : Str → Option α} {shape : α → Prop}
    (spelling : OneSpelling encode decode shape) {value : α} (shaped : shape value) {text : Str}
    (pasted : Pasted (encode value) text) : decode text = some value := by
  obtain ⟨front, back, left, right, spelled⟩ := pasted
  obtain ⟨lowered, raised⟩ := spelling.reads value shaped front back left right
  rcases spelled with rfl | rfl
  · exact lowered
  · exact raised

def DecodedCk1.encode : DecodedCk1 → Str
  | current payload => encodeCk1 payload
  | legacy signature => encodeBytes "ck".toList signature.toList

/-- What a text can be taken for: one of the bech32m strings, or 64 hex digits. -/
inductive Reading where
  | cp1
  | ck1
  | cw1
  | cs1
  | cs1WithAmount
  | cx1
  | legacyCx1
  | hex
  deriving DecidableEq

def KeyCrates.accepts (K : KeyCrates) (s : Str) : Reading → Bool
  | .cp1 => (K.decodeCp1 s).isSome
  | .ck1 => (decodeCk1 s).isSome
  | .cw1 => (K.decodeCw1 s).isSome
  | .cs1 => (decodeCs1 s).isSome
  | .cs1WithAmount => (decodeCs1WithAmount s).isSome
  | .cx1 => (K.decodeCx1 s).isSome
  | .legacyCx1 => (decodeLegacyCx1 s).isSome
  | .hex => isPreimage s

/-! ### One prefix -/

/-- A lowercase prefix bech32 can carry, under which `size` bytes stay within the length limit. -/
structure Carries (hrp : Str) (size : Nat) : Prop where
  valid : Bech32.validHrp hrp
  lower : Str.lower hrp = hrp
  fits : hrp.length + 7 + (8 * size + 4) / 5 ≤ maxBech32Chars

section OnePrefix

variable {hrp s : Str} {bytes : Bytes}

theorem encodeBytes_spec (valid : Bech32.validHrp hrp) (lower : Str.lower hrp = hrp) (bytes : Bytes) :
    Bech32.encode bech32mResidue hrp bytes = some (encodeBytes hrp bytes) := by
  obtain ⟨written, encoded⟩ := Bech32.encode_exists bech32mResidue valid (Bech32.mixedCase_of_lower lower) bytes
  rw [encodeBytes, encoded, Option.getD_some]

/-- An encoding is short enough to be read exactly when its payload is. -/
theorem byteLen_encodeBytes (valid : Bech32.validHrp hrp) (lower : Str.lower hrp = hrp) (bytes : Bytes) :
    Str.byteLen (encodeBytes hrp bytes) = hrp.length + 7 + (8 * bytes.length + 4) / 5 :=
  Bech32.byteLen_encode (encodeBytes_spec valid lower bytes)

theorem trim_encodeBytes (valid : Bech32.validHrp hrp) (lower : Str.lower hrp = hrp) (bytes : Bytes) :
    Str.trim (encodeBytes hrp bytes) = encodeBytes hrp bytes :=
  Str.trim_eq_self_of_forall (Bech32.spaceless_of_encode (encodeBytes_spec valid lower bytes))

theorem decodeBytes_encodeBytes (carries : Carries hrp bytes.length) {front back : Str}
    (left : ∀ c ∈ front, Str.isWhitespace c) (right : ∀ c ∈ back, Str.isWhitespace c) :
    decodeBytes hrp (front ++ encodeBytes hrp bytes ++ back) = some bytes ∧
      decodeBytes hrp (front ++ Str.upper (encodeBytes hrp bytes) ++ back) = some bytes := by
  have encoded := encodeBytes_spec carries.valid carries.lower bytes
  have spaceless := Bech32.spaceless_of_encode encoded
  have lowered := Bech32.decode_encode encoded
  have raised := Bech32.decode_upper_encode encoded
  have size := byteLen_encodeBytes carries.valid carries.lower bytes
  rw [carries.lower] at lowered raised
  have upperSpaceless : ∀ c ∈ Str.upper (encodeBytes hrp bytes), Str.isWhitespace c = false := by
    intro c member
    obtain ⟨d, inside, rfl⟩ := List.mem_map.mp member
    rw [Str.isWhitespace_toUpper, spaceless d inside]
  have upperSize : Str.byteLen (Str.upper (encodeBytes hrp bytes)) = Str.byteLen (encodeBytes hrp bytes) := by
    rw [← Str.byteLen_lower, Str.lower_upper, Str.byteLen_lower]
  have fits := carries.fits
  constructor
  · rw [decodeBytes, Str.trim_padded left right spaceless, if_neg (by omega), lowered]
  · rw [decodeBytes, Str.trim_padded left right upperSpaceless, if_neg (by omega), raised]

theorem encodeBytes_of_decode (decoded : decodeBytes hrp s = some bytes) : Str.lower (Str.trim s) = encodeBytes hrp bytes := by
  simp only [decodeBytes, Option.ite_none_left_eq_some] at decoded
  rw [encodeBytes, Bech32.encode_of_decode decoded.2, Option.getD_some]

/-- One prefix and an exact reading of its payloads leave one spelling. -/
theorem oneSpelling {α : Type} {payload : α → Bytes} {read : Bytes → Option α} {shape : α → Prop}
    (carries : ∀ value, Carries hrp (payload value).length) (reads : ∀ value, shape value → read (payload value) = some value)
    (exact : ∀ bytes value, read bytes = some value → shape value ∧ payload value = bytes) :
    OneSpelling (fun value => encodeBytes hrp (payload value)) (fun s => (decodeBytes hrp s).bind read) shape where
  reads := by
    intro value shaped front back left right
    obtain ⟨lowered, raised⟩ := decodeBytes_encodeBytes (carries value) left right
    simp only [lowered, raised, Option.bind_some, reads value shaped, and_self]
  canonical := by
    intro s value decoded
    obtain ⟨bytes, found, readBack⟩ := Option.bind_eq_some_iff.mp decoded
    obtain ⟨shaped, rfl⟩ := exact bytes value readBack
    exact ⟨shaped, encodeBytes_of_decode found⟩

end OnePrefix

/-! ### The five types -/

theorem carries_cp : Carries "cp".toList 32 := ⟨by decide, by decide, by decide⟩

theorem carries_ck {size : Nat} (shape : size = 96 ∨ size = 65) : Carries "ck".toList size := by
  rcases shape with rfl | rfl
  · exact ⟨by decide, by decide, by decide⟩
  · exact ⟨by decide, by decide, by decide⟩

theorem carries_cs : Carries "cs".toList 65 := ⟨by decide, by decide, by decide⟩

theorem carries_cx {size : Nat} (shape : size = 64 ∨ size = 65) : Carries "cx".toList size := by
  rcases shape with rfl | rfl
  · exact ⟨by decide, by decide, by decide⟩
  · exact ⟨by decide, by decide, by decide⟩

theorem Crates.cp1_oneSpelling (C : Crates) :
    OneSpelling encodeCp1 C.decodeCp1 fun key => C.isXOnlyPoint key.toList := by
  have reading : C.decodeCp1 = fun s => (decodeBytes "cp".toList s).bind fun bytes =>
      (Bytes.toArr 32 bytes).filter fun key => C.isXOnlyPoint key.toList := by
    funext s
    rw [Crates.decodeCp1, decodeFixed]
    cases decodeBytes "cp".toList s <;> rfl
  rw [reading]
  apply oneSpelling
  · intro key
    rw [key.size]
    exact carries_cp
  · intro key onCurve
    rw [Bytes.toArr_toList, Option.filter_some, if_pos onCurve]
  · intro bytes key read
    obtain ⟨same, onCurve⟩ := Option.filter_eq_some_iff.mp read
    exact ⟨onCurve, (Bytes.toArr_eq_some.mp same).symm⟩

theorem ck1_oneSpelling : OneSpelling DecodedCk1.encode decodeCk1 fun _ => True := by
  have writing : DecodedCk1.encode = fun ck1 => encodeBytes "ck".toList ck1.asBytes := by
    funext ck1
    cases ck1 <;> rfl
  have reading : decodeCk1 = fun s => (decodeBytes "ck".toList s).bind fun bytes =>
      if bytes.length = 96 then (Bytes.toArr 96 bytes).map DecodedCk1.current
      else if bytes.length = 65 then (Bytes.toArr 65 bytes).map DecodedCk1.legacy
      else none := rfl
  rw [writing, reading]
  apply oneSpelling
  · intro ck1
    cases ck1 with
    | current payload => exact carries_ck (.inl payload.size)
    | legacy signature => exact carries_ck (.inr signature.size)
  · intro ck1 _
    cases ck1 with
    | current payload => simp [DecodedCk1.asBytes]
    | legacy signature => simp [DecodedCk1.asBytes]
  · intro bytes ck1 read
    refine ⟨trivial, ?_⟩
    split_ifs at read
    · obtain ⟨payload, same, rfl⟩ := Option.map_eq_some_iff.mp read
      exact (Bytes.toArr_eq_some.mp same).symm
    · obtain ⟨signature, same, rfl⟩ := Option.map_eq_some_iff.mp read
      exact (Bytes.toArr_eq_some.mp same).symm

theorem cs1_oneSpelling : OneSpelling encodeCs1 decodeCs1 fun _ => True := by
  have reading : decodeCs1 = fun s => (decodeBytes "cs".toList s).bind (Bytes.toArr 65) := rfl
  rw [reading]
  apply oneSpelling
  · intro signature
    rw [signature.size]
    exact carries_cs
  · intro signature _
    exact Bytes.toArr_toList signature
  · intro bytes signature read
    exact ⟨trivial, (Bytes.toArr_eq_some.mp read).symm⟩

/-- Two arrays read one after the other from a payload of their sizes together. -/
theorem toArr_pair {m n : Nat} {bytes : ByteArr (m + n)} {front : ByteArr m} {back : ByteArr n}
    (left : Bytes.toArr m (bytes.toList.take m) = some front) (right : Bytes.toArr n (bytes.toList.drop m) = some back) :
    front.toList ++ back.toList = bytes.toList := by
  rw [← Bytes.toArr_eq_some.mp left, ← Bytes.toArr_eq_some.mp right, List.take_append_drop]

theorem KeyCrates.cx1_oneSpelling (K : KeyCrates) :
    OneSpelling encodeCx1 K.decodeCx1 fun cx1 => K.isPublicKey cx1.pubkey := by
  have reading : K.decodeCx1 = fun s => (decodeBytes "cx".toList s).bind fun bytes => (do
      let bytes ← Bytes.toArr 65 bytes
      let chainCode ← Bytes.toArr 32 (bytes.toList.take 32)
      let pubkey ← Bytes.toArr 33 (bytes.toList.drop 32)
      if K.isPublicKey pubkey then some { chainCode, pubkey } else none) := by
    funext s
    exact Option.bind_assoc _ _ _
  rw [reading]
  apply oneSpelling
  · intro cx1
    rw [List.length_append, cx1.chainCode.size, cx1.pubkey.size]
    exact carries_cx (.inr rfl)
  · intro cx1 onCurve
    have whole : Bytes.toArr 65 (cx1.chainCode.toList ++ cx1.pubkey.toList) =
        some ⟨cx1.chainCode.toList ++ cx1.pubkey.toList, by simp⟩ := Bytes.toArr_eq_some.mpr rfl
    have front : (cx1.chainCode.toList ++ cx1.pubkey.toList).take 32 = cx1.chainCode.toList := by simp
    have back : (cx1.chainCode.toList ++ cx1.pubkey.toList).drop 32 = cx1.pubkey.toList := by simp
    simp [whole, front, back, onCurve]
  · intro bytes cx1 read
    simp only [Option.bind_eq_bind, Option.bind_eq_some_iff, Option.ite_none_right_eq_some, Option.some.injEq] at read
    obtain ⟨whole, same, chainCode, left, pubkey, right, onCurve, rfl⟩ := read
    exact ⟨onCurve, (toArr_pair left right).trans (Bytes.toArr_eq_some.mp same).symm⟩

theorem legacyCx1_oneSpelling : OneSpelling encodeLegacyCx1 decodeLegacyCx1 fun _ => True := by
  have reading : decodeLegacyCx1 = fun s => (decodeBytes "cx".toList s).bind fun bytes => (do
      let bytes ← Bytes.toArr 64 bytes
      let pubkeyXOnly ← Bytes.toArr 32 (bytes.toList.take 32)
      let chainCode ← Bytes.toArr 32 (bytes.toList.drop 32)
      some { pubkeyXOnly, chainCode }) := by
    funext s
    exact Option.bind_assoc _ _ _
  rw [reading]
  apply oneSpelling
  · intro cx1
    rw [List.length_append, cx1.pubkeyXOnly.size, cx1.chainCode.size]
    exact carries_cx (.inl rfl)
  · intro cx1 _
    have whole : Bytes.toArr 64 (cx1.pubkeyXOnly.toList ++ cx1.chainCode.toList) =
        some ⟨cx1.pubkeyXOnly.toList ++ cx1.chainCode.toList, by simp⟩ := Bytes.toArr_eq_some.mpr rfl
    have front : (cx1.pubkeyXOnly.toList ++ cx1.chainCode.toList).take 32 = cx1.pubkeyXOnly.toList := by simp
    have back : (cx1.pubkeyXOnly.toList ++ cx1.chainCode.toList).drop 32 = cx1.chainCode.toList := by simp
    simp [whole, front, back]
  · intro bytes cx1 read
    simp only [Option.bind_eq_bind, Option.bind_eq_some_iff, Option.some.injEq] at read
    obtain ⟨whole, same, pubkeyXOnly, left, chainCode, right, rfl⟩ := read
    exact ⟨trivial, (toArr_pair left right).trans (Bytes.toArr_eq_some.mp same).symm⟩

/-! ### No two types -/

/-- The prefix and payload size a bech32m string of some type has. -/
def Reading.Carried : Reading → Str → Nat → Prop
  | .cp1, hrp, _ => hrp = "cp".toList
  | .ck1, hrp, _ => hrp = "ck".toList
  | .cw1, hrp, _ => hrp = "cw".toList
  | .cs1, hrp, _ => hrp = "cs".toList
  | .cs1WithAmount, hrp, _ => ∃ c suffix, hrp = "cs".toList ++ c :: suffix
  | .cx1, hrp, size => hrp = "cx".toList ∧ size = 65
  | .legacyCx1, hrp, size => hrp = "cx".toList ∧ size = 64
  | .hex, _, _ => False

theorem Reading.carried_unique {a b : Reading} {hrp : Str} {size : Nat} (left : a.Carried hrp size)
    (right : b.Carried hrp size) : a = b := by
  cases a <;> cases b <;> simp only [Reading.Carried, String.reduceToList] at left right <;> grind

/-- Every prefix has a letter that is no hexadecimal digit. -/
theorem Reading.letter_of_carried {reading : Reading} {hrp : Str} {size : Nat} (carried : reading.Carried hrp size) :
    ∃ c ∈ hrp, Hex.isHexDigit c = false := by
  cases reading with
  | cp1 => exact ⟨'p', by rw [carried]; decide, by decide⟩
  | ck1 => exact ⟨'k', by rw [carried]; decide, by decide⟩
  | cw1 => exact ⟨'w', by rw [carried]; decide, by decide⟩
  | cs1 => exact ⟨'s', by rw [carried]; decide, by decide⟩
  | cs1WithAmount =>
    obtain ⟨c, suffix, rfl⟩ := carried
    exact ⟨'s', by simp, by decide⟩
  | cx1 => exact ⟨'x', by rw [carried.1]; decide, by decide⟩
  | legacyCx1 => exact ⟨'x', by rw [carried.1]; decide, by decide⟩
  | hex => exact carried.elim

theorem decodeBytes_unique {hrp other s : Str} {payload bytes : Bytes} (decoded : decodeBytes hrp s = some payload)
    (again : decodeBytes other s = some bytes) : hrp = other ∧ payload = bytes := by
  simp only [decodeBytes, Option.ite_none_left_eq_some] at decoded again
  by_cases same : other = hrp
  · subst same
    exact ⟨rfl, Option.some.inj (decoded.2.symm.trans again.2)⟩
  · rw [Bech32.decode_unique decoded.2 same] at again
    simp at again

theorem decodeAmountSuffix_ne_nil {suffix : Str} {amount : UInt64} (decoded : decodeAmountSuffix suffix = some amount) :
    suffix ≠ [] := by
  rintro rfl
  simp [decodeAmountSuffix, Str.parseDigits] at decoded

theorem decodeCs1WithAmount_eq_some {s : Str} {cs1 : Cs1} (decoded : decodeCs1WithAmount s = some cs1) :
    ∃ c suffix, decodeBytes ("cs".toList ++ c :: suffix) s = some cs1.signature.toList := by
  simp only [decodeCs1WithAmount, Option.bind_eq_bind, Option.bind_eq_some_iff, Option.ite_none_left_eq_some,
    Option.some.injEq] at decoded
  obtain ⟨⟨before, data⟩, _, suffix, hrp, amount, named, signature, fixed, _, rfl⟩ := decoded
  obtain ⟨c, rest, rfl⟩ := List.exists_cons_of_ne_nil (decodeAmountSuffix_ne_nil named)
  rw [Str.stripPrefix_eq_some.mp hrp] at fixed
  exact ⟨c, rest, by simpa only [decodeBytes_trim] using decodeBytes_of_decodeFixed fixed⟩

theorem KeyCrates.carried_of_accepts {K : KeyCrates} {s : Str} {reading : Reading} (accepted : K.accepts s reading)
    (bech32m : reading ≠ .hex) : ∃ hrp bytes, decodeBytes hrp s = some bytes ∧ reading.Carried hrp bytes.length := by
  cases reading with
  | cp1 =>
    obtain ⟨key, decoded⟩ := Option.isSome_iff_exists.mp accepted
    exact ⟨_, _, decodeBytes_of_decodeFixed (Option.filter_eq_some_iff.mp decoded).1, rfl⟩
  | ck1 =>
    obtain ⟨ck1, decoded⟩ := Option.isSome_iff_exists.mp accepted
    obtain ⟨bytes, found, _⟩ := Option.bind_eq_some_iff.mp decoded
    exact ⟨_, bytes, found, rfl⟩
  | cw1 =>
    obtain ⟨cw1, decoded⟩ := Option.isSome_iff_exists.mp accepted
    obtain ⟨bytes, found, _⟩ := Option.bind_eq_some_iff.mp decoded
    exact ⟨_, bytes, found, rfl⟩
  | cs1 =>
    obtain ⟨signature, decoded⟩ := Option.isSome_iff_exists.mp accepted
    exact ⟨_, _, decodeBytes_of_decodeFixed decoded, rfl⟩
  | cs1WithAmount =>
    obtain ⟨cs1, decoded⟩ := Option.isSome_iff_exists.mp accepted
    obtain ⟨c, suffix, found⟩ := decodeCs1WithAmount_eq_some decoded
    exact ⟨_, _, found, c, suffix, rfl⟩
  | cx1 =>
    obtain ⟨cx1, decoded⟩ := Option.isSome_iff_exists.mp accepted
    obtain ⟨bytes, found, _⟩ := Option.bind_eq_some_iff.mp decoded
    exact ⟨_, _, decodeBytes_of_decodeFixed found, rfl, bytes.size⟩
  | legacyCx1 =>
    obtain ⟨cx1, decoded⟩ := Option.isSome_iff_exists.mp accepted
    obtain ⟨bytes, found, _⟩ := Option.bind_eq_some_iff.mp decoded
    exact ⟨_, _, decodeBytes_of_decodeFixed found, rfl, bytes.size⟩
  | hex => exact absurd rfl bech32m

/-- Sixty-four hexadecimal digits are no bech32m string of any type. -/
theorem not_isPreimage_of_decodeBytes {hrp s : Str} {bytes : Bytes} (decoded : decodeBytes hrp s = some bytes)
    (letter : ∃ c ∈ hrp, Hex.isHexDigit c = false) : isPreimage s = false := by
  obtain ⟨c, member, notHex⟩ := letter
  by_contra preimage
  rw [Bool.not_eq_false, isPreimage_iff] at preimage
  have digits : (Hex.decode (Str.trim s)).isSome :=
    Hex.decode_isSome_iff.mpr ⟨by omega, List.all_eq_true.mpr preimage.2⟩
  obtain ⟨digest, hex⟩ := Option.isSome_iff_exists.mp digits
  have none := decodeBytes_of_hex hrp c hex member notHex
  rw [decodeBytes_trim, decoded] at none
  cases none

theorem KeyCrates.not_isPreimage_of_accepts {K : KeyCrates} {s : Str} {reading : Reading} (accepted : K.accepts s reading)
    (bech32m : reading ≠ .hex) : isPreimage s = false := by
  obtain ⟨hrp, bytes, decoded, carried⟩ := carried_of_accepts accepted bech32m
  exact not_isPreimage_of_decodeBytes decoded (Reading.letter_of_carried carried)

theorem KeyCrates.accepts_unique {K : KeyCrates} {s : Str} {a b : Reading} (left : K.accepts s a) (right : K.accepts s b) :
    a = b := by
  by_cases hexA : a = .hex
  · by_contra different
    subst hexA
    have none := not_isPreimage_of_accepts right (Ne.symm different)
    rw [show isPreimage s = true from left] at none
    cases none
  · by_cases hexB : b = .hex
    · subst hexB
      have none := not_isPreimage_of_accepts left hexA
      rw [show isPreimage s = true from right] at none
      cases none
    · obtain ⟨hrp, bytes, decoded, carried⟩ := carried_of_accepts left hexA
      obtain ⟨other, payload, again, otherCarried⟩ := carried_of_accepts right hexB
      obtain ⟨rfl, rfl⟩ := decodeBytes_unique decoded again
      exact Reading.carried_unique carried otherCarried

/-- The fixed-prefix strings have one spelling for each payload, and no text is of two types. -/
theorem KeyCrates.strings_have_one_spelling (K : KeyCrates) :
    OneSpelling encodeCp1 K.decodeCp1 (fun key => K.isXOnlyPoint key.toList) ∧
      OneSpelling DecodedCk1.encode decodeCk1 (fun _ => True) ∧
      OneSpelling encodeCs1 decodeCs1 (fun _ => True) ∧
      OneSpelling encodeCx1 K.decodeCx1 (fun cx1 => K.isPublicKey cx1.pubkey) ∧
      OneSpelling encodeLegacyCx1 decodeLegacyCx1 (fun _ => True) ∧
      ∀ s a b, K.accepts s a → K.accepts s b → a = b :=
  ⟨K.cp1_oneSpelling, ck1_oneSpelling, cs1_oneSpelling, K.cx1_oneSpelling, legacyCx1_oneSpelling,
    fun _ _ _ left right => accepts_unique left right⟩

end LnurlCash
