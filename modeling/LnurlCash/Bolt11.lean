import LnurlCash.Lib.Text
import Mathlib.Algebra.Order.Field.Rat
import Mathlib.Tactic.FieldSimp
import Mathlib.Tactic.NormNum

namespace LnurlCash

/-- The networks' names behind `ln`, in the order they are tried. -/
def networkPrefixes : List Str := ["bcrt".toList, "bc".toList, "tbs".toList, "tb".toList, "sb".toList]

def bolt11Multipliers : List Str := [[], ['m'], ['u'], ['n'], ['p']]

def stripNetworkPrefix (lowered : Str) : Option Str := do
  let rest ← Str.stripPrefix "ln".toList lowered
  networkPrefixes.findSome? fun network => Str.stripPrefix network rest

def splitAtSeparator (lowered : Str) : Option (Str × Str) := do
  let (hrp, data) ← Str.rsplitOnce '1' lowered
  if Str.byteLen hrp < 2 then none else some (hrp, data)

/-- The optional amount and multiplier of a human-readable part, and nothing else. -/
def parseHrp (hrp : Str) : Option (Option UInt64 × Str) := do
  let rest ← stripNetworkPrefix hrp
  let digits := rest.takeWhile Char.isDigit
  let multiplier := rest.dropWhile Char.isDigit
  if !bolt11Multipliers.contains multiplier then none
  else if digits = [] then some (none, multiplier)
  else
    let amount ← Str.parseDigits (2 ^ 64) digits
    some (some (UInt64.ofNat amount), multiplier)

/-- `u64::checked_mul` -/
def checkedMulU64 (a b : UInt64) : Option UInt64 := if a.toNat * b.toNat < 2 ^ 64 then some (a * b) else none

theorem checkedMulU64_eq_some {a b product : UInt64} :
    checkedMulU64 a b = some product ↔ a.toNat * b.toNat = product.toNat := by
  have size := product.toNat_lt
  rw [checkedMulU64, Option.ite_none_right_eq_some, Option.some.injEq, ← UInt64.toNat_inj, UInt64.toNat_mul]
  constructor
  · rintro ⟨fits, same⟩
    rwa [Nat.mod_eq_of_lt fits] at same
  · intro same
    have fits : a.toNat * b.toNat < 2 ^ 64 := by omega
    exact ⟨fits, by rw [Nat.mod_eq_of_lt fits, same]⟩

/-- A product with a unit is the amount stated in tenths of that unit. -/
theorem checkedMulU64_ofNat {value tenths : Nat} {unit amount : UInt64} (fits : value < 2 ^ 64)
    (unitTenths : tenths = 10 * unit.toNat) :
    checkedMulU64 (UInt64.ofNat value) unit = some amount ↔ value * tenths = 10 * amount.toNat := by
  rw [checkedMulU64_eq_some, UInt64.toNat_ofNat_of_lt' fits, unitTenths, Nat.mul_left_comm]
  omega

/-- An amount under its multiplier, in millisatoshis. -/
def bolt11Msat (value : UInt64) (multiplier : Str) : Option UInt64 :=
  if multiplier = [] then checkedMulU64 value 100000000000
  else if multiplier = ['m'] then checkedMulU64 value 100000000
  else if multiplier = ['u'] then checkedMulU64 value 100000
  else if multiplier = ['n'] then checkedMulU64 value 100
  else if multiplier = ['p'] then if value % 10 = 0 then some (value / 10) else none
  else none

def decodeBolt11AmountMsat (pr : Str) : Option UInt64 := do
  let (hrp, _) ← splitAtSeparator (Str.lower (Str.trim pr))
  let (amount, multiplier) ← parseHrp hrp
  let value ← amount
  bolt11Msat value multiplier

/-! ### What a human-readable part states -/

inductive Multiplier where
  | whole
  | milli
  | micro
  | nano
  | pico
  deriving DecidableEq

namespace Multiplier

def suffix : Multiplier → Str
  | whole => []
  | milli => ['m']
  | micro => ['u']
  | nano => ['n']
  | pico => ['p']

/-- Tenths of a millisatoshi: a pico-bitcoin is one. -/
def tenths : Multiplier → Nat
  | whole => 1000000000000
  | milli => 1000000000
  | micro => 1000000
  | nano => 1000
  | pico => 1

theorem suffix_mem (multiplier : Multiplier) : multiplier.suffix ∈ bolt11Multipliers := by
  cases multiplier <;> decide

theorem head_suffix {multiplier : Multiplier} {c : Char} (member : c ∈ multiplier.suffix.head?) :
    Char.isDigit c = false ∧ c ≠ 'r' ∧ c ≠ 's' := by
  cases multiplier <;> cases member <;> decide

end Multiplier

/-- What the decoder makes of a `u64` under a multiplier. -/
theorem bolt11Msat_suffix {value : Nat} {amount : UInt64} (fits : value < 2 ^ 64) (multiplier : Multiplier) :
    bolt11Msat (UInt64.ofNat value) multiplier.suffix = some amount ↔ value * multiplier.tenths = 10 * amount.toNat := by
  cases multiplier with
  | whole =>
    rw [Multiplier.suffix, bolt11Msat, if_pos rfl]
    exact checkedMulU64_ofNat fits (by decide)
  | milli =>
    rw [Multiplier.suffix, bolt11Msat, if_neg (by decide), if_pos rfl]
    exact checkedMulU64_ofNat fits (by decide)
  | micro =>
    rw [Multiplier.suffix, bolt11Msat, if_neg (by decide), if_neg (by decide), if_pos rfl]
    exact checkedMulU64_ofNat fits (by decide)
  | nano =>
    rw [Multiplier.suffix, bolt11Msat, if_neg (by decide), if_neg (by decide), if_neg (by decide), if_pos rfl]
    exact checkedMulU64_ofNat fits (by decide)
  | pico =>
    have number : (UInt64.ofNat value).toNat = value := UInt64.toNat_ofNat_of_lt' fits
    have ten : (10 : UInt64).toNat = 10 := rfl
    have zero : (0 : UInt64).toNat = 0 := rfl
    rw [Multiplier.suffix, bolt11Msat, if_neg (by decide), if_neg (by decide), if_neg (by decide), if_neg (by decide),
      if_pos rfl, Option.ite_none_right_eq_some, Option.some.injEq, ← UInt64.toNat_inj, ← UInt64.toNat_inj,
      UInt64.toNat_mod, UInt64.toNat_div, number, ten, zero, Multiplier.tenths]
    omega

/-- `ln`, a known network, decimal digits and a multiplier. -/
structure Bolt11Part where
  network : Str
  digits : Str
  multiplier : Multiplier
  known : network ∈ networkPrefixes
  decimal : digits.all Char.isDigit

namespace Bolt11Part

variable {part : Bolt11Part}

def hrp (part : Bolt11Part) : Str := "ln".toList ++ (part.network ++ (part.digits ++ part.multiplier.suffix))

def value (part : Bolt11Part) : Nat := Nat.ofDigitChars 10 part.digits 0

/-- The amount stated, as an exact number of millisatoshis of any size. -/
def msat (part : Bolt11Part) : Rat := part.value * part.multiplier.tenths / 10

theorem msat_eq_iff {amount : UInt64} :
    part.msat = amount.toNat ↔ part.value * part.multiplier.tenths = 10 * amount.toNat := by
  rw [msat, div_eq_iff (by norm_num), mul_comm (amount.toNat : Rat)]
  exact_mod_cast Iff.rfl

theorem stripNetworkPrefix_append {network rest : Str} (known : network ∈ networkPrefixes)
    (start : ∀ c ∈ rest.head?, c ≠ 'r' ∧ c ≠ 's') :
    stripNetworkPrefix ("ln".toList ++ (network ++ rest)) = some rest := by
  have behind : Str.stripPrefix "ln".toList ("ln".toList ++ (network ++ rest)) = some (network ++ rest) :=
    Str.stripPrefix_eq_some.mpr rfl
  rw [stripNetworkPrefix, behind]
  simp only [networkPrefixes, List.mem_cons, List.not_mem_nil, or_false] at known
  -- "bc" and "tb" begin longer names, which go on with a letter no amount begins with
  cases rest with
  | nil => rcases known with rfl | rfl | rfl | rfl | rfl <;> decide
  | cons c rest =>
    obtain ⟨notR, notS⟩ := start c rfl
    rcases known with rfl | rfl | rfl | rfl | rfl <;>
      simp [networkPrefixes, Str.stripPrefix, Ne.symm notR, Ne.symm notS]

theorem digits_split (part : Bolt11Part) :
    (part.digits ++ part.multiplier.suffix).takeWhile Char.isDigit = part.digits ∧
      (part.digits ++ part.multiplier.suffix).dropWhile Char.isDigit = part.multiplier.suffix := by
  have digits : ∀ c ∈ part.digits, Char.isDigit c = true := List.all_eq_true.mp part.decimal
  have stop : part.multiplier.suffix.takeWhile Char.isDigit = [] ∧
      part.multiplier.suffix.dropWhile Char.isDigit = part.multiplier.suffix := by
    cases part.multiplier <;> decide
  rw [List.takeWhile_append_of_pos digits, List.dropWhile_append_of_pos digits, stop.1, stop.2, List.append_nil]
  exact ⟨rfl, rfl⟩

theorem head_amount {c : Char} (member : c ∈ (part.digits ++ part.multiplier.suffix).head?) : c ≠ 'r' ∧ c ≠ 's' := by
  cases digits : part.digits with
  | nil =>
    rw [digits, List.nil_append] at member
    exact (Multiplier.head_suffix member).2
  | cons d rest =>
    have digit : Char.isDigit d = true := List.all_eq_true.mp part.decimal d (by simp [digits])
    rw [digits, List.cons_append, List.head?_cons, Option.mem_some] at member
    subst member
    refine ⟨?_, ?_⟩ <;> rintro rfl <;> cases digit

theorem parseHrp_hrp (part : Bolt11Part) :
    parseHrp part.hrp =
      if part.digits = [] then some (none, part.multiplier.suffix)
      else if part.value < 2 ^ 64 then some (some (UInt64.ofNat part.value), part.multiplier.suffix)
      else none := by
  obtain ⟨taken, dropped⟩ := part.digits_split
  have stripped := stripNetworkPrefix_append part.known fun c => part.head_amount (c := c)
  have known : bolt11Multipliers.contains part.multiplier.suffix = true := List.contains_iff_mem.mpr part.multiplier.suffix_mem
  have number : part.digits ≠ [] → Str.parseDigits (2 ^ 64) part.digits =
      if part.value < 2 ^ 64 then some part.value else none := by
    intro nonempty
    rw [Str.parseDigits]
    exact if_congr (by simp only [nonempty, ne_eq, not_false_eq_true, part.decimal, true_and, value]) rfl rfl
  rw [parseHrp, hrp, stripped]
  simp only [Option.bind_eq_bind, Option.bind_some, taken, dropped, known, Bool.not_true, Bool.false_eq_true,
    if_false]
  by_cases empty : part.digits = []
  · rw [if_pos empty, if_pos empty]
  · rw [if_neg empty, if_neg empty, number empty]
    split <;> rfl

/-- Which amount the decoder reads off a part with digits: the one stated, when
the digits and the amount are `u64`s. -/
theorem decodeBolt11AmountMsat_eq_some {pr data : Str} {amount : UInt64}
    (split : splitAtSeparator (Str.lower (Str.trim pr)) = some (part.hrp, data)) (stated : part.digits ≠ []) :
    decodeBolt11AmountMsat pr = some amount ↔
      part.value < 2 ^ 64 ∧ part.value * part.multiplier.tenths = 10 * amount.toNat := by
  have parsed := part.parseHrp_hrp
  rw [if_neg stated] at parsed
  rw [decodeBolt11AmountMsat, split]
  simp only [Option.bind_eq_bind, Option.bind_some, parsed]
  by_cases fits : part.value < 2 ^ 64
  · rw [if_pos fits, Option.bind_some, and_iff_right fits]
    exact bolt11Msat_suffix fits part.multiplier
  · rw [if_neg fits, Option.bind_none]
    simp only [reduceCtorEq, fits, false_and]

end Bolt11Part

end LnurlCash
