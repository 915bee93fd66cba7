import LnurlCash.Json
import LnurlCash.Lib.LeastSearch

namespace LnurlCash

def saturatingSub (a b : UInt64) : UInt64 := if b ≤ a then a - b else 0

def saturatingAdd (a b : UInt64) : UInt64 := UInt64.ofNat (min (a.toNat + b.toNat) (2 ^ 64 - 1))

structure MintFee where
  baseFeeMsat : UInt64
  feePpm : UInt64
  /-- LUD-26's third value: the fee per Lightning Address registration -/
  addressFeeMsat : Option UInt64
  deriving DecidableEq

def mintFeesToken : Str := "Mint fees:".toList

def maxSafeInteger : UInt64 := 9007199254740991

def valueOf (text : Str) : Option UInt64 :=
  ((Str.parseDigits (2 ^ 64) text).map UInt64.ofNat).filter (· ≤ maxSafeInteger)

/-- What follows the first occurrence of `needle`. -/
def afterFirst (needle : Str) : Str → Option Str
  | [] => if needle = [] then some [] else none
  | c :: rest => if needle.isPrefixOf (c :: rest) then some ((c :: rest).drop needle.length) else afterFirst needle rest

/-- The values after `Mint fees:` and any spaces, up to the next whitespace. -/
def parseToken (text : Str) : Option MintFee := do
  let rest ← afterFirst mintFeesToken text
  let values := (Str.trimStart rest).takeWhile fun c => !Str.isWhitespace c
  match values.splitOn ',' with
  | base :: ppm :: more =>
    let baseFeeMsat ← valueOf base
    let feePpm ← valueOf ppm
    if feePpm ≥ 1000000 then none
    else some { baseFeeMsat, feePpm, addressFeeMsat := more.head?.bind valueOf }
  | _ => none

/-- The first parseable token of a payRequest's `text/plain` entries; `read`
is serde_json's reading of the metadata as a list of lists. -/
def parseMintFee (read : Str → Option (List (List Value))) (metadata : Str) : Option MintFee := do
  let entries ← read metadata
  let plain := entries.filter fun entry => decide (entry.head?.bind Value.asStr? = some "text/plain".toList)
  let fee ← plain.findSome? fun entry => (entry[1]?.bind Value.asStr?).bind parseToken
  if fee.baseFeeMsat = 0 ∧ fee.feePpm = 0 ∧ fee.addressFeeMsat.getD 0 = 0 then none else some fee

/-- `floor(gross * ppm / 1_000_000)`, split so that no product overflows. -/
def proportionalFee (grossMsat feePpm : UInt64) : UInt64 :=
  grossMsat / 1000000 * feePpm + grossMsat % 1000000 * feePpm / 1000000

def applyMintFee (grossMsat : UInt64) (fee : MintFee) : UInt64 :=
  saturatingSub (saturatingSub grossMsat fee.baseFeeMsat) (proportionalFee grossMsat fee.feePpm)

/-- Whether a gross amount, as a number, nets `netMsat` after the fee. -/
def nets (netMsat : UInt64) (fee : MintFee) (gross : Nat) : Bool :=
  decide (netMsat ≤ applyMintFee (UInt64.ofNat gross) fee)

/-- Where the doubling starts, at least 1. -/
def grossStart (netMsat : UInt64) (fee : MintFee) : Nat := max (saturatingAdd netMsat fee.baseFeeMsat).toNat 1

/-- The upper bound the doubling loop ends with; none where its `checked_mul` fails. -/
def grossBracket (netMsat : UInt64) (fee : MintFee) : Option Nat :=
  LeastSearch.gallop (nets netMsat fee) (2 ^ 64) (grossStart netMsat fee)
    (Nat.lt_of_lt_of_le Nat.one_pos (Nat.le_max_right _ 1))

/-- The smallest invoice amount whose note nets `netMsat`; `u64::MAX` where the doubling overflows. -/
def grossUpForMintFee (netMsat : UInt64) (fee : MintFee) : UInt64 :=
  if netMsat = 0 then 0
  else
    match grossBracket netMsat fee with
    | none => UInt64.ofNat (2 ^ 64 - 1)
    | some hi => UInt64.ofNat (LeastSearch.bisect (nets netMsat fee) 0 hi)

theorem valueOf_le {text : Str} {value : UInt64} (read : valueOf text = some value) : value ≤ maxSafeInteger := by
  simpa using (Option.filter_eq_some_iff.mp read).2

theorem parseToken_bounds {text : Str} {fee : MintFee} (parsed : parseToken text = some fee) :
    fee.baseFeeMsat ≤ maxSafeInteger ∧ fee.feePpm < 1000000 := by
  obtain ⟨rest, _, parsed⟩ := Option.bind_eq_some_iff.mp parsed
  dsimp only at parsed
  split at parsed
  · obtain ⟨base, first, parsed⟩ := Option.bind_eq_some_iff.mp parsed
    obtain ⟨ppm, second, parsed⟩ := Option.bind_eq_some_iff.mp parsed
    obtain ⟨rate, same⟩ := Option.ite_none_left_eq_some.mp parsed
    cases same
    exact ⟨valueOf_le first, UInt64.not_le.mp rate⟩
  · cases parsed

/-- A rate no higher than the whole takes at most one more unit for each further unit. -/
theorem mul_div_succ_le {rate whole : Nat} (positive : 0 < whole) (bounded : rate ≤ whole) (n : Nat) :
    n * rate / whole ≤ (n + 1) * rate / whole ∧ (n + 1) * rate / whole ≤ n * rate / whole + 1 := by
  have grown : (n + 1) * rate = n * rate + rate := Nat.succ_mul n rate
  have bound : (n * rate + whole) / whole = n * rate / whole + 1 := Nat.add_div_right _ positive
  rw [grown]
  exact ⟨Nat.div_le_div_right (by omega), bound ▸ Nat.div_le_div_right (by omega)⟩

theorem saturatingSub_toNat (a b : UInt64) : (saturatingSub a b).toNat = a.toNat - b.toNat := by
  unfold saturatingSub
  split_ifs with within
  · exact UInt64.toNat_sub_of_le _ _ within
  · have under : a.toNat < b.toNat := by rwa [UInt64.le_iff_toNat_le, Nat.not_le] at within
    rw [show (0 : UInt64).toNat = 0 from rfl]
    omega

variable {netMsat gross other : UInt64} {fee : MintFee}

/-- The two halves of the product, and their sum as the floor of the whole. -/
theorem proportionalFee_halves (rate : fee.feePpm < 1000000) (gross : UInt64) :
    gross.toNat / 1000000 * fee.feePpm.toNat < 2 ^ 64 ∧ gross.toNat % 1000000 * fee.feePpm.toNat < 2 ^ 64 ∧
      gross.toNat / 1000000 * fee.feePpm.toNat + gross.toNat % 1000000 * fee.feePpm.toNat / 1000000 =
        gross.toNat * fee.feePpm.toNat / 1000000 ∧ gross.toNat * fee.feePpm.toNat / 1000000 < 2 ^ 64 := by
  have ppm : fee.feePpm.toNat < 1000000 := UInt64.lt_iff_toNat_lt.mp rate
  have size := gross.toNat_lt
  have product : gross.toNat * fee.feePpm.toNat ≤ gross.toNat * 1000000 := Nat.mul_le_mul_left _ ppm.le
  have quotient : gross.toNat / 1000000 * fee.feePpm.toNat ≤ gross.toNat / 1000000 * 1000000 :=
    Nat.mul_le_mul_left _ ppm.le
  have remainder : gross.toNat % 1000000 * fee.feePpm.toNat ≤ 1000000 * 1000000 :=
    Nat.mul_le_mul (Nat.mod_lt _ (by omega)).le ppm.le
  have whole : gross.toNat * fee.feePpm.toNat =
      1000000 * (gross.toNat / 1000000 * fee.feePpm.toNat) + gross.toNat % 1000000 * fee.feePpm.toNat := by
    conv_lhs => rw [← Nat.div_add_mod gross.toNat 1000000]
    rw [Nat.add_mul, Nat.mul_assoc]
  refine ⟨by omega, by omega, ?_, by omega⟩
  rw [whole, Nat.mul_add_div (by omega)]

theorem proportionalFee_toNat (rate : fee.feePpm < 1000000) :
    (proportionalFee gross fee.feePpm).toNat = gross.toNat * fee.feePpm.toNat / 1000000 := by
  obtain ⟨quotient, remainder, sum, fits⟩ := proportionalFee_halves rate gross
  have million : (1000000 : UInt64).toNat = 1000000 := rfl
  simp only [proportionalFee, UInt64.toNat_add, UInt64.toNat_mul, UInt64.toNat_div, UInt64.toNat_mod, million]
  rw [Nat.mod_eq_of_lt quotient, Nat.mod_eq_of_lt remainder, sum, Nat.mod_eq_of_lt fits]

theorem applyMintFee_toNat (rate : fee.feePpm < 1000000) :
    (applyMintFee gross fee).toNat =
      gross.toNat - fee.baseFeeMsat.toNat - gross.toNat * fee.feePpm.toNat / 1000000 := by
  rw [applyMintFee, saturatingSub_toNat, saturatingSub_toNat, proportionalFee_toNat rate]

end LnurlCash
