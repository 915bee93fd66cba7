import LnurlCash.AmountPrefix
import LnurlCash.Invoices
import LnurlCash.Spellings

namespace LnurlCash

variable {digits : Str} {amount : UInt64}

theorem checkedMul_eq_some {a b product : Nat} : checkedMul a b = some product ↔ a * b = product ∧ product < 2 ^ 128 := by
  rw [checkedMul, Option.ite_none_right_eq_some, Option.some.injEq]
  constructor
  · rintro ⟨fits, rfl⟩
    exact ⟨rfl, fits⟩
  · rintro ⟨rfl, fits⟩
    exact ⟨fits, rfl⟩

/-- The digits and the unit a suffix is read as. -/
theorem suffix_parts (number : digits.all Char.isDigit) (multiplier : Multiplier) :
    (digits ++ multiplier.suffix).getLast?.filter (· ∈ ['m', 'u', 'n', 'p']) = multiplier.suffix.head? ∧
      (if multiplier.suffix.head?.isSome then (digits ++ multiplier.suffix).dropLast else digits ++ multiplier.suffix) =
        digits := by
  have letter (c : Char) : (digits ++ [c]).getLast? = some c ∧ (digits ++ [c]).dropLast = digits :=
    ⟨List.getLast?_concat, List.dropLast_concat⟩
  cases multiplier with
  | whole =>
    rw [Multiplier.suffix, List.append_nil]
    refine ⟨?_, rfl⟩
    rw [List.head?_nil, Option.filter_eq_none_iff]
    intro c last
    have digit : Char.isDigit c = true := List.all_eq_true.mp number c (List.mem_of_getLast? last)
    simp only [List.mem_cons, List.not_mem_nil, or_false, decide_eq_true_eq]
    rintro (rfl | rfl | rfl | rfl) <;> cases digit
  | milli => rw [Multiplier.suffix, (letter 'm').1, (letter 'm').2]; exact ⟨by decide, rfl⟩
  | micro => rw [Multiplier.suffix, (letter 'u').1, (letter 'u').2]; exact ⟨by decide, rfl⟩
  | nano => rw [Multiplier.suffix, (letter 'n').1, (letter 'n').2]; exact ⟨by decide, rfl⟩
  | pico => rw [Multiplier.suffix, (letter 'p').1, (letter 'p').2]; exact ⟨by decide, rfl⟩

/-- Digits past `u128` state no `u64`, whatever their unit. -/
theorem scaled_eq_some {value unit tenths : Nat} (positive : 0 < unit) (unitTenths : tenths = 10 * unit) :
    ((if value < 2 ^ 128 then some value else none).bind fun n => (checkedMul n unit).bind fun product =>
      if product < 2 ^ 64 then some (UInt64.ofNat product) else none) = some amount ↔ value * tenths = 10 * amount.toNat := by
  have size := amount.toNat_lt
  have same : value * tenths = 10 * (value * unit) := by rw [unitTenths, Nat.mul_left_comm]
  have bound : value * 1 ≤ value * unit := Nat.mul_le_mul_left value positive
  simp only [Option.bind_eq_some_iff, Option.ite_none_right_eq_some, Option.some.injEq, checkedMul_eq_some]
  constructor
  · rintro ⟨n, ⟨_, rfl⟩, product, ⟨rfl, _⟩, fits, narrowed⟩
    rw [← UInt64.toNat_inj, UInt64.toNat_ofNat_of_lt' fits] at narrowed
    omega
  · intro stated
    have product : value * unit = amount.toNat := by omega
    exact ⟨value, ⟨by omega, rfl⟩, value * unit, ⟨rfl, by omega⟩, by omega, by rw [product, UInt64.ofNat_toNat]⟩

theorem decodeAmountSuffix_eq_some (number : digits.all Char.isDigit) (nonempty : digits ≠ []) (multiplier : Multiplier) :
    decodeAmountSuffix (digits ++ multiplier.suffix) = some amount ↔
      Nat.ofDigitChars 10 digits 0 * multiplier.tenths = 10 * amount.toNat := by
  obtain ⟨unit, rest⟩ := suffix_parts number multiplier
  have parsed : Str.parseDigits (2 ^ 128) digits =
      if Nat.ofDigitChars 10 digits 0 < 2 ^ 128 then some (Nat.ofDigitChars 10 digits 0) else none :=
    if_congr (by simp only [nonempty, ne_eq, not_false_eq_true, number, true_and]) rfl rfl
  have size := amount.toNat_lt
  simp only [decodeAmountSuffix, unit, rest, parsed]
  generalize Nat.ofDigitChars 10 digits 0 = value
  cases multiplier with
  | whole => exact scaled_eq_some (by decide) rfl
  | milli => exact scaled_eq_some (by decide) rfl
  | micro => exact scaled_eq_some (by decide) rfl
  | nano => exact scaled_eq_some (by decide) rfl
  | pico =>
    change ((if value < 2 ^ 128 then some value else none).bind fun n => if n % 10 = 0 then
      (if n / 10 < 2 ^ 64 then some (UInt64.ofNat (n / 10)) else none) else none) = some amount ↔ value * 1 = _
    simp only [Option.bind_eq_some_iff, Option.ite_none_right_eq_some, Option.some.injEq]
    constructor
    · rintro ⟨n, ⟨_, rfl⟩, whole, fits, narrowed⟩
      rw [← UInt64.toNat_inj, UInt64.toNat_ofNat_of_lt' fits] at narrowed
      omega
    · intro stated
      have tenth : value / 10 = amount.toNat := by omega
      exact ⟨value, ⟨by omega, rfl⟩, by omega, by omega, by rw [tenth, UInt64.ofNat_toNat]⟩

/-! ### The two readers -/

theorem lower_amount (number : digits.all Char.isDigit) (multiplier : Multiplier) :
    Str.lower (digits ++ multiplier.suffix) = digits ++ multiplier.suffix := by
  have letter : Str.lower multiplier.suffix = multiplier.suffix := by cases multiplier <;> decide
  rw [Str.lower_append, Str.lower_of_digits number, letter]

theorem Bolt11Part.lower_hrp (part : Bolt11Part) : Str.lower part.hrp = part.hrp := by
  have network : Str.lower part.network = part.network := by
    have known := part.known
    simp only [networkPrefixes, List.mem_cons, List.not_mem_nil, or_false] at known
    rcases known with same | same | same | same | same <;> rw [same] <;> decide
  rw [hrp, Str.lower_append, Str.lower_append, network, lower_amount part.decimal]
  rfl

/-- An invoice written as its part, the separator and data is headed by that part. -/
theorem Bolt11Part.heads_append (part : Bolt11Part) {data : Str} (absent : '1' ∉ data) :
    part.Heads (part.hrp ++ '1' :: data) := by
  have start : Str.trimStart (part.hrp ++ '1' :: data) = part.hrp ++ '1' :: data := by
    apply Str.trimStart_eq_self
    intro c member
    cases member
    decide
  have still : '1' ∉ Str.lower (Str.trimEnd data) :=
    Str.notMem_lower (by decide) (by decide) fun inside => absent ((Str.trimEnd_prefix data).subset inside)
  refine ⟨Str.lower (Str.trimEnd data), Str.rsplitOnce_eq_some.mpr ⟨?_, still⟩⟩
  rw [Str.trim, start, Str.trimEnd_append (by decide), Str.lower_append, part.lower_hrp]
  rfl

theorem decodeBolt11AmountMsat_lnbc (number : digits.all Char.isDigit) (nonempty : digits ≠ []) (multiplier : Multiplier)
    {data : Str} (absent : '1' ∉ data) (amount : UInt64) :
    decodeBolt11AmountMsat ("lnbc".toList ++ (digits ++ multiplier.suffix) ++ '1' :: data) = some amount ↔
      Nat.ofDigitChars 10 digits 0 < 2 ^ 64 ∧ Nat.ofDigitChars 10 digits 0 * multiplier.tenths = 10 * amount.toNat := by
  let part : Bolt11Part := ⟨"bc".toList, digits, multiplier, by decide, number⟩
  obtain ⟨rest, split⟩ := (part.heads_append absent).split
  exact Bolt11Part.decodeBolt11AmountMsat_eq_some split nonempty

/-- Past `u64`, a number of digits states an amount that fits only in tenths of a millisatoshi. -/
theorem exists_amount_iff {value : Nat} (large : 2 ^ 64 ≤ value) (multiplier : Multiplier) :
    (∃ amount : UInt64, value * multiplier.tenths = 10 * amount.toNat) ↔
      multiplier = .pico ∧ value < 10 * 2 ^ 64 ∧ value % 10 = 0 := by
  have tooMuch {tenths : Nat} (coarse : 1000 ≤ tenths) : ¬∃ amount : UInt64, value * tenths = 10 * amount.toNat := by
    rintro ⟨amount, stated⟩
    have size := amount.toNat_lt
    have bound : value * 1000 ≤ value * tenths := Nat.mul_le_mul_left value coarse
    omega
  cases multiplier with
  | whole => exact iff_of_false (tooMuch (by decide)) (by simp)
  | milli => exact iff_of_false (tooMuch (by decide)) (by simp)
  | micro => exact iff_of_false (tooMuch (by decide)) (by simp)
  | nano => exact iff_of_false (tooMuch (by decide)) (by simp)
  | pico =>
    rw [Multiplier.tenths, Nat.mul_one, and_iff_right rfl]
    constructor
    · rintro ⟨amount, stated⟩
      have size := amount.toNat_lt
      omega
    · rintro ⟨small, whole⟩
      have fits : value / 10 < 2 ^ 64 := by omega
      have tenth : (UInt64.ofNat (value / 10)).toNat = value / 10 := UInt64.toNat_ofNat_of_lt' fits
      exact ⟨UInt64.ofNat (value / 10), by omega⟩

/-- The readers agree on an amount unless only the wider one can hold its digits. -/
theorem readers_agree_iff (number : digits.all Char.isDigit) (nonempty : digits ≠ []) (multiplier : Multiplier)
    {data : Str} (absent : '1' ∉ data) :
    decodeBolt11AmountMsat ("lnbc".toList ++ (digits ++ multiplier.suffix) ++ '1' :: data) =
        decodeAmountSuffix (digits ++ multiplier.suffix) ↔
      ¬(multiplier = .pico ∧ 2 ^ 64 ≤ Nat.ofDigitChars 10 digits 0 ∧ Nat.ofDigitChars 10 digits 0 < 10 * 2 ^ 64 ∧
        Nat.ofDigitChars 10 digits 0 % 10 = 0) := by
  have narrow := decodeBolt11AmountMsat_lnbc number nonempty multiplier absent
  have wide (amount : UInt64) := @decodeAmountSuffix_eq_some digits amount number nonempty multiplier
  generalize Nat.ofDigitChars 10 digits 0 = value at narrow wide ⊢
  by_cases fits : value < 2 ^ 64
  · have same : decodeBolt11AmountMsat ("lnbc".toList ++ (digits ++ multiplier.suffix) ++ '1' :: data) =
        decodeAmountSuffix (digits ++ multiplier.suffix) := by
      apply Option.ext
      intro amount
      rw [narrow amount, wide amount, and_iff_right fits]
    exact iff_of_true same (by omega)
  · have unread : decodeBolt11AmountMsat ("lnbc".toList ++ (digits ++ multiplier.suffix) ++ '1' :: data) = none := by
      rw [Option.eq_none_iff_forall_ne_some]
      intro amount read
      exact fits ((narrow amount).mp read).1
    have large := Nat.not_lt.mp fits
    rw [unread, eq_comm, Option.eq_none_iff_forall_ne_some]
    simp only [ne_eq, wide, ← not_exists, exists_amount_iff large multiplier, large, true_and]

/-! ### The written amount -/

theorem amountUnits_multiplier {unit : Str × UInt64} (listed : unit ∈ amountUnits) :
    ∃ multiplier : Multiplier, unit.1 = multiplier.suffix ∧ multiplier.tenths = 10 * unit.2.toNat ∧ 100 ∣ unit.2.toNat := by
  simp only [amountUnits, List.mem_cons, List.not_mem_nil, or_false] at listed
  rcases listed with rfl | rfl | rfl | rfl
  · exact ⟨.whole, rfl, by decide, by decide⟩
  · exact ⟨.milli, rfl, by decide, by decide⟩
  · exact ⟨.micro, rfl, by decide, by decide⟩
  · exact ⟨.nano, rfl, by decide, by decide⟩

/-- What is written is the amount, in the largest unit that is exact. -/
theorem encodeAmountSuffix_eq (amount : UInt64) :
    ∃ (value : Nat) (multiplier : Multiplier), encodeAmountSuffix amount = Str.decimal value ++ multiplier.suffix ∧
      value * multiplier.tenths = 10 * amount.toNat ∧
      (value < 2 ^ 64 ↔ amount.toNat % 100 = 0 ∨ 10 * amount.toNat < 2 ^ 64) := by
  have size := amount.toNat_lt
  have divides {unit : UInt64} : amount % unit = 0 ↔ amount.toNat % unit.toNat = 0 := by
    rw [← UInt64.toNat_inj, UInt64.toNat_mod]
    rfl
  rw [encodeAmountSuffix]
  cases found : amountUnits.find? fun unit => decide (amount % unit.2 = 0) with
  | none =>
    have fine : ¬amount % 100 = 0 := by
      simpa using List.find?_eq_none.mp found (['n'], 100) (by decide)
    rw [divides, show (100 : UInt64).toNat = 100 by decide] at fine
    exact ⟨amount.toNat * 10, .pico, rfl, by rw [Multiplier.tenths]; omega, by omega⟩
  | some unit =>
    have exact : amount.toNat % unit.2.toNat = 0 := divides.mp (by simpa using List.find?_some found)
    obtain ⟨multiplier, letter, tenths, hundreds⟩ := amountUnits_multiplier (List.mem_of_find?_eq_some found)
    have units : amount.toNat / unit.2.toNat * unit.2.toNat = amount.toNat :=
      Nat.div_mul_cancel (Nat.dvd_of_mod_eq_zero exact)
    have whole : amount.toNat % 100 = 0 :=
      Nat.mod_eq_zero_of_dvd (hundreds.trans (Nat.dvd_of_mod_eq_zero exact))
    have small : amount.toNat / unit.2.toNat ≤ amount.toNat := Nat.div_le_self _ _
    refine ⟨amount.toNat / unit.2.toNat, multiplier, by rw [← letter, ← UInt64.toNat_div], ?_, by omega⟩
    rw [tenths, Nat.mul_left_comm, units]

theorem decodeAmountSuffix_encodeAmountSuffix (amount : UInt64) : decodeAmountSuffix (encodeAmountSuffix amount) = some amount := by
  obtain ⟨value, multiplier, written, stated, _⟩ := encodeAmountSuffix_eq amount
  rw [written, decodeAmountSuffix_eq_some (Str.all_isDigit_decimal value) (Str.decimal_ne_nil value),
    Str.ofDigitChars_decimal, stated]

theorem decodeBolt11AmountMsat_encodeAmountSuffix {data : Str} (absent : '1' ∉ data) (amount : UInt64) :
    decodeBolt11AmountMsat ("lnbc".toList ++ encodeAmountSuffix amount ++ '1' :: data) = some amount ↔
      amount.toNat % 100 = 0 ∨ 10 * amount.toNat < 2 ^ 64 := by
  obtain ⟨value, multiplier, written, stated, fits⟩ := encodeAmountSuffix_eq amount
  rw [written, decodeBolt11AmountMsat_lnbc (Str.all_isDigit_decimal value) (Str.decimal_ne_nil value) multiplier absent,
    Str.ofDigitChars_decimal, ← fits, and_iff_left stated]

/-- Both readers read every suffix the same and read every written amount back,
but for the pico-bitcoin digits that only the wider one can hold. -/
theorem bolt11_readers_agree {data : Str} (absent : '1' ∉ data) :
    (∀ (digits : Str) (multiplier : Multiplier), digits.all Char.isDigit → digits ≠ [] →
      (decodeBolt11AmountMsat ("lnbc".toList ++ (digits ++ multiplier.suffix) ++ '1' :: data) =
          decodeAmountSuffix (digits ++ multiplier.suffix) ↔
        ¬(multiplier = .pico ∧ 2 ^ 64 ≤ Nat.ofDigitChars 10 digits 0 ∧ Nat.ofDigitChars 10 digits 0 < 10 * 2 ^ 64 ∧
          Nat.ofDigitChars 10 digits 0 % 10 = 0))) ∧
      ∀ amount : UInt64, decodeAmountSuffix (encodeAmountSuffix amount) = some amount ∧
        (decodeBolt11AmountMsat ("lnbc".toList ++ encodeAmountSuffix amount ++ '1' :: data) = some amount ↔
          amount.toNat % 100 = 0 ∨ 10 * amount.toNat < 2 ^ 64) :=
  ⟨fun _ multiplier number nonempty => readers_agree_iff number nonempty multiplier absent,
    fun amount => ⟨decodeAmountSuffix_encodeAmountSuffix amount, decodeBolt11AmountMsat_encodeAmountSuffix absent amount⟩⟩

theorem ten_nano_read_alike : decodeBolt11AmountMsat "lnbc10n1data".toList = decodeAmountSuffix "10n".toList :=
  ((bolt11_readers_agree (by decide)).1 "10".toList .nano (by decide) (by decide)).mpr (by decide)

/-- The largest amount is written with more pico-bitcoin than `u64` holds. -/
theorem largest_amount_read_apart :
    encodeAmountSuffix (UInt64.ofNat (2 ^ 64 - 1)) = "184467440737095516150p".toList ∧
      decodeAmountSuffix "184467440737095516150p".toList = some (UInt64.ofNat (2 ^ 64 - 1)) ∧
      decodeBolt11AmountMsat "lnbc184467440737095516150p1data".toList = none := by
  decide +kernel

/-! ### Certificates -/

theorem carries_amount (amount : UInt64) : Carries ("cs".toList ++ encodeAmountSuffix amount) 65 := by
  obtain ⟨value, multiplier, written, stated, _⟩ := encodeAmountSuffix_eq amount
  have size := amount.toNat_lt
  have positive : 1 ≤ multiplier.tenths := by cases multiplier <;> decide
  have bound : value * 1 ≤ value * multiplier.tenths := Nat.mul_le_mul_left value positive
  have digits : (Str.decimal value).length ≤ 21 := (Nat.length_toDigits_le_iff (by decide) (by decide)).mpr (by omega)
  have letter : multiplier.suffix.length ≤ 1 := by cases multiplier <;> decide
  have printed : multiplier.suffix.all fun c => decide (33 ≤ c.toNat ∧ c.toNat ≤ 126) := by
    cases multiplier <;> decide
  have numbers : (Str.decimal value).all fun c => decide (33 ≤ c.toNat ∧ c.toNat ≤ 126) := by
    rw [List.all_eq_true]
    intro c member
    have digit := Str.isDigit_iff.mp (Str.isDigit_of_mem_decimal member)
    rw [decide_eq_true_eq]
    omega
  refine ⟨?_, ?_, ?_⟩
  · rw [written, Bech32.validHrp, Bool.and_eq_true, decide_eq_true_eq, List.all_append, List.all_append, numbers, printed]
    refine ⟨⟨by simp, ?_⟩, by decide⟩
    rw [List.length_append, List.length_append, show "cs".toList.length = 2 from rfl]
    omega
  · rw [written, Str.lower_append, lower_amount (Str.all_isDigit_decimal value)]
    rfl
  · rw [written, List.length_append, List.length_append, maxBech32Chars, show "cs".toList.length = 2 from rfl]
    omega

variable {signature : ByteArr 65} {text : Str}

theorem amountPrefixed_of_pasted (pasted : Pasted (encodeCs1WithAmount amount signature) text) :
    AmountPrefixed text amount signature := by
  obtain ⟨front, back, left, right, spelled⟩ := pasted
  have carries : Carries ("cs".toList ++ encodeAmountSuffix amount) signature.toList.length := by
    rw [signature.size]
    exact carries_amount amount
  obtain ⟨lowered, raised⟩ := decodeBytes_encodeBytes carries left right
  have decoded : decodeBytes ("cs".toList ++ encodeAmountSuffix amount) text = some signature.toList := by
    rcases spelled with rfl | rfl
    · exact lowered
    · exact raised
  rw [decodeBytes, Option.ite_none_left_eq_some] at decoded
  exact ⟨encodeAmountSuffix amount, decodeAmountSuffix_encodeAmountSuffix amount, decoded.2⟩

theorem AmountPrefixed.unique {stated : UInt64} {payload : ByteArr 65} (prefixed : AmountPrefixed text amount signature)
    (again : AmountPrefixed text stated payload) : amount = stated ∧ signature = payload := by
  obtain ⟨suffix, read, decoded⟩ := prefixed
  obtain ⟨other, readAgain, decodedAgain⟩ := again
  by_cases same : "cs".toList ++ other = "cs".toList ++ suffix
  · have suffixes := List.append_cancel_left same
    subst suffixes
    exact ⟨Option.some.inj (read.symm.trans readAgain),
      ByteArr.toList_injective (Option.some.inj (decoded.symm.trans decodedAgain))⟩
  · rw [Bech32.decode_unique decoded same] at decodedAgain
    cases decodedAgain

/-- A certificate's string is read back as its amount and signature, and as no other kind's. -/
theorem cs1WithAmount_lossless (cs1 : Cs1) (recovery : cs1.signature.get 64 ≤ 3) :
    (∀ text, Pasted (encodeCs1WithAmount cs1.amountMsat cs1.signature) text →
      decodeCs1WithAmount text = some cs1 ∧ decodeAnyCs1 text = some cs1.signature ∧ decodeCs1 text = none) ∧
      ∀ amount signature, encodeCs1WithAmount cs1.amountMsat cs1.signature = encodeCs1WithAmount amount signature →
        cs1.amountMsat = amount ∧ cs1.signature = signature := by
  constructor
  · intro text pasted
    have prefixed := amountPrefixed_of_pasted pasted
    have large : ¬cs1.signature.get 64 > 3 := UInt8.not_lt.mpr recovery
    have read : decodeCs1WithAmount text = some cs1 := by rw [prefixed.decodeCs1WithAmount_eq, if_neg large]
    refine ⟨read, ?_, prefixed.decodeCs1_eq_none⟩
    rw [decodeAnyCs1, read]
    rfl
  · intro amount signature equal
    have again : AmountPrefixed (encodeCs1WithAmount cs1.amountMsat cs1.signature) amount signature := by
      rw [equal]
      exact amountPrefixed_of_pasted (pasted_self _)
    exact (amountPrefixed_of_pasted (pasted_self _)).unique again

/-- The largest amount takes pico-bitcoin past `u64`; a zero signature with recovery id 3. -/
def largestCs1 : Cs1 where
  amountMsat := UInt64.ofNat (2 ^ 64 - 1)
  signature := ⟨List.replicate 64 0 ++ [3], rfl⟩

theorem largestCs1_read_back :
    decodeCs1WithAmount (Str.upper (encodeCs1WithAmount largestCs1.amountMsat largestCs1.signature)) = some largestCs1 :=
  ((cs1WithAmount_lossless largestCs1 (by decide)).1 _
    (pasted_upper _)).1

end LnurlCash
