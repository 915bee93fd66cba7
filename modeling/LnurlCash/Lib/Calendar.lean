import LnurlCash.Lib.Text

/-! Numbers written with as many digits as they are given, and the days of the
Gregorian calendar. -/

namespace Str

/-- The last digits of a number, led by zeros. -/
def padded : Nat → Nat → Str
  | 0, _ => []
  | width + 1, n => padded width (n / 10) ++ [(n % 10).digitChar]

theorem length_padded (width n : Nat) : (padded width n).length = width := by
  induction width generalizing n with
  | zero => rfl
  | succ width ih => rw [padded, List.length_append, ih, List.length_singleton]

theorem all_isDigit_padded (width n : Nat) : (padded width n).all Char.isDigit := by
  induction width generalizing n with
  | zero => rfl
  | succ width ih =>
    rw [padded, List.all_append, ih, List.all_cons, List.all_nil, Nat.isDigit_digitChar,
      decide_eq_true (Nat.mod_lt n (by decide))]
    rfl

theorem ofDigitChars_concat (front : Str) (c : Char) :
    Nat.ofDigitChars 10 (front ++ [c]) 0 = 10 * Nat.ofDigitChars 10 front 0 + (c.toNat - 48) := by
  rw [Nat.ofDigitChars_append, Nat.ofDigitChars_cons, Nat.ofDigitChars_nil]
  rfl

theorem ofDigitChars_padded {width n : Nat} (fits : n < 10 ^ width) : Nat.ofDigitChars 10 (padded width n) 0 = n := by
  induction width generalizing n with
  | zero => exact (Nat.lt_one_iff.mp fits).symm
  | succ width ih =>
    have front : n / 10 < 10 ^ width := by
      rw [pow_succ'] at fits
      exact Nat.div_lt_of_lt_mul fits
    rw [padded, ofDigitChars_concat, ih front, Nat.toNat_digitChar_sub_48_of_lt_ten (Nat.mod_lt n (by decide))]
    exact Nat.div_add_mod n 10

theorem padded_inj {width n m : Nat} (fits : n < 10 ^ width) (fits' : m < 10 ^ width)
    (same : padded width n = padded width m) : n = m := by
  rw [← ofDigitChars_padded fits, same, ofDigitChars_padded fits']

/-- Digits are their number, padded to as many. -/
theorem padded_ofDigitChars {s : Str} (digits : s.all Char.isDigit) :
    padded s.length (Nat.ofDigitChars 10 s 0) = s ∧ Nat.ofDigitChars 10 s 0 < 10 ^ s.length := by
  induction s using List.reverseRecOn with
  | nil => exact ⟨rfl, Nat.one_pos⟩
  | append_singleton front c ih =>
    rw [List.all_append, Bool.and_eq_true, List.all_cons, List.all_nil, Bool.and_true] at digits
    obtain ⟨same, fits⟩ := ih digits.1
    obtain ⟨low, high⟩ := isDigit_iff.mp digits.2
    have digit : c.toNat - 48 < 10 := by omega
    have char : (c.toNat - 48).digitChar = c := by
      rw [← Char.toNat_inj, Nat.toNat_digitChar_of_lt_ten digit]
      omega
    rw [List.length_append, List.length_singleton, padded, ofDigitChars_concat]
    generalize Nat.ofDigitChars 10 front 0 = value at same fits
    have divided : (10 * value + (c.toNat - 48)) / 10 = value := by omega
    have rest : (10 * value + (c.toNat - 48)) % 10 = c.toNat - 48 := by omega
    rw [divided, rest, same, char, pow_succ]
    exact ⟨rfl, by omega⟩

end Str

namespace Calendar

def IsLeap (year : Nat) : Prop := 4 ∣ year ∧ (100 ∣ year → 400 ∣ year)

instance (year : Nat) : Decidable (IsLeap year) := inferInstanceAs (Decidable (_ ∧ _))

/-- The months of a common year. -/
def monthLengths : List Nat := [31, 28, 31, 30, 31, 30, 31, 31, 30, 31, 30, 31]

def monthLength (year month : Nat) : Nat :=
  monthLengths.getD (month - 1) 0 + if month = 2 ∧ IsLeap year then 1 else 0

/-- A day of the proleptic Gregorian calendar, in a year of four digits. -/
structure Date where
  year : Nat
  month : Nat
  day : Nat
  four : year < 10 ^ 4
  inYear : 1 ≤ month ∧ month ≤ 12
  inMonth : 1 ≤ day ∧ day ≤ monthLength year month

namespace Date

/-- `YYYY-MM-DD` -/
def text (date : Date) : Str :=
  Str.padded 4 date.year ++ '-' :: (Str.padded 2 date.month ++ '-' :: Str.padded 2 date.day)

theorem month_lt (date : Date) : date.month < 10 ^ 2 := by
  have inYear := date.inYear
  omega

theorem monthLength_le (year month : Nat) : monthLength year month ≤ 32 := by
  have common : ∀ i, monthLengths.getD i 0 ≤ 31 := by
    intro i
    rw [List.getD_eq_getElem?_getD]
    cases found : monthLengths[i]? with
    | none => exact Nat.zero_le 31
    | some length =>
      have member := List.mem_of_getElem? found
      have bounded : ∀ length ∈ monthLengths, length ≤ 31 := by decide
      exact bounded length member
  have leap : (if month = 2 ∧ IsLeap year then 1 else 0) ≤ 1 := by split <;> decide
  exact Nat.add_le_add (common _) leap

theorem day_lt (date : Date) : date.day < 10 ^ 2 := by
  have inMonth := date.inMonth
  have short := monthLength_le date.year date.month
  omega

theorem text_injective : Function.Injective text := by
  intro date other same
  have sizes : ∀ width n m, (Str.padded width n).length = (Str.padded width m).length := fun width n m =>
    (Str.length_padded width n).trans (Str.length_padded width m).symm
  obtain ⟨years, rest⟩ := List.append_inj same (sizes 4 _ _)
  obtain ⟨months, rest⟩ := List.append_inj (List.cons.inj rest).2 (sizes 2 _ _)
  have year := Str.padded_inj date.four other.four years
  have month := Str.padded_inj date.month_lt other.month_lt months
  have day := Str.padded_inj date.day_lt other.day_lt (List.cons.inj rest).2
  cases date
  cases other
  simp_all

end Date

end Calendar
