import LnurlCash.Fees

namespace LnurlCash

variable {netMsat gross other : UInt64} {fee : MintFee}

theorem applyMintFee_mono (rate : fee.feePpm < 1000000) (more : gross ≤ other) :
    applyMintFee gross fee ≤ applyMintFee other fee := by
  rw [UInt64.le_iff_toNat_le, applyMintFee_toNat rate, applyMintFee_toNat rate]
  have ppm : fee.feePpm.toNat ≤ 1000000 := (UInt64.lt_iff_toNat_lt.mp rate).le
  have kept : ∀ n k, n - n * fee.feePpm.toNat / 1000000 ≤ n + k - (n + k) * fee.feePpm.toNat / 1000000 := by
    intro n k
    induction k with
    | zero => exact le_rfl
    | succ k ih =>
      have step := (mul_div_succ_le (by omega) ppm (n + k)).2
      have fits : (n + k) * fee.feePpm.toNat / 1000000 ≤ n + k := by
        have product : (n + k) * fee.feePpm.toNat ≤ (n + k) * 1000000 := Nat.mul_le_mul_left _ ppm
        omega
      rw [← Nat.add_assoc]
      omega
  obtain ⟨k, whole⟩ := Nat.exists_eq_add_of_le (UInt64.le_iff_toNat_le.mp more)
  have grown := kept gross.toNat k
  rw [← whole] at grown
  omega

/-- One more unit of gross nets at most one more. -/
theorem applyMintFee_step (rate : fee.feePpm < 1000000) (next : other.toNat = gross.toNat + 1) :
    (applyMintFee other fee).toNat ≤ (applyMintFee gross fee).toNat + 1 := by
  rw [applyMintFee_toNat rate, applyMintFee_toNat rate, next]
  have ppm : fee.feePpm.toNat ≤ 1000000 := (UInt64.lt_iff_toNat_lt.mp rate).le
  have grown := (mul_div_succ_le (by omega) ppm gross.toNat).1
  omega

/-- The fee over the integers: every intermediate of the code is a `u64`, and
what is left of an amount follows it in steps of 0 or 1. -/
structure FeeIsExact (gross : UInt64) (fee : MintFee) : Prop where
  quotient_fits : gross.toNat / 1000000 * fee.feePpm.toNat < 2 ^ 64
  remainder_fits : gross.toNat % 1000000 * fee.feePpm.toNat < 2 ^ 64
  sum_fits : gross.toNat / 1000000 * fee.feePpm.toNat + gross.toNat % 1000000 * fee.feePpm.toNat / 1000000 < 2 ^ 64
  proportional : (proportionalFee gross fee.feePpm).toNat = gross.toNat * fee.feePpm.toNat / 1000000
  applied : ((applyMintFee gross fee).toNat : Int) =
    max 0 (gross.toNat - fee.baseFeeMsat.toNat - (gross.toNat * fee.feePpm.toNat / 1000000 : Nat))
  monotone : ∀ other, gross ≤ other → applyMintFee gross fee ≤ applyMintFee other fee
  step : ∀ other : UInt64, other.toNat = gross.toNat + 1 →
    (applyMintFee other fee).toNat ≤ (applyMintFee gross fee).toNat + 1

theorem fee_is_exact (rate : fee.feePpm < 1000000) (gross : UInt64) : FeeIsExact gross fee := by
  obtain ⟨quotient, remainder, sum, fits⟩ := proportionalFee_halves rate gross
  have net : (applyMintFee gross fee).toNat =
      gross.toNat - fee.baseFeeMsat.toNat - gross.toNat * fee.feePpm.toNat / 1000000 := applyMintFee_toNat rate
  exact {
    quotient_fits := quotient
    remainder_fits := remainder
    sum_fits := sum ▸ fits
    proportional := proportionalFee_toNat rate
    applied := by omega
    monotone := fun _ more => applyMintFee_mono rate more
    step := fun _ next => applyMintFee_step rate next }

theorem applyMintFee_zero (fee : MintFee) : applyMintFee 0 fee = 0 := by
  have none : ∀ amount, saturatingSub 0 amount = 0 := by
    intro amount
    rw [← UInt64.toNat_inj, saturatingSub_toNat]
    exact Nat.zero_sub _
  rw [applyMintFee, none, none]

theorem nets_toNat : nets netMsat fee gross.toNat ↔ netMsat ≤ applyMintFee gross fee := by
  rw [nets, UInt64.ofNat_toNat, decide_eq_true_eq]

theorem nets_upward (rate : fee.feePpm < 1000000) {a b : Nat} (le : a ≤ b) (small : b < 2 ^ 64)
    (member : nets netMsat fee a) : nets netMsat fee b := by
  have more : UInt64.ofNat a ≤ UInt64.ofNat b := by
    rw [UInt64.le_iff_toNat_le, UInt64.toNat_ofNat_of_lt' (by omega : a < 2 ^ 64), UInt64.toNat_ofNat_of_lt' small]
    exact le
  simp only [nets, decide_eq_true_eq] at member ⊢
  exact UInt64.le_trans member (applyMintFee_mono rate more)

/-- Where some gross nets the amount, the amount and the base fee together fit. -/
theorem grossStart_of_payable (rate : fee.feePpm < 1000000) (positive : 0 < netMsat)
    (payable : ∃ gross, netMsat ≤ applyMintFee gross fee) :
    grossStart netMsat fee = netMsat.toNat + fee.baseFeeMsat.toNat ∧
      netMsat.toNat + fee.baseFeeMsat.toNat < 2 ^ 64 := by
  obtain ⟨gross, enough⟩ := payable
  have size := gross.toNat_lt
  have least : 0 < netMsat.toNat := UInt64.lt_iff_toNat_lt.mp positive
  rw [UInt64.le_iff_toNat_le, applyMintFee_toNat rate] at enough
  have fits : netMsat.toNat + fee.baseFeeMsat.toNat < 2 ^ 64 := by omega
  refine ⟨?_, fits⟩
  rw [grossStart, saturatingAdd, UInt64.toNat_ofNat_of_lt' (Nat.lt_of_le_of_lt (Nat.min_le_left _ _) fits)]
  omega

/-- The search ends at the smallest invoice for the amount without its
fallback, and that invoice nets the amount exactly. -/
structure GrossesUp (netMsat : UInt64) (fee : MintFee) : Prop where
  searched : (grossBracket netMsat fee).isSome
  least : IsLeast {gross | netMsat ≤ applyMintFee gross fee} (grossUpForMintFee netMsat fee)
  nets_exactly : applyMintFee (grossUpForMintFee netMsat fee) fee = netMsat
  one_less : applyMintFee (grossUpForMintFee netMsat fee - 1) fee < netMsat

theorem grossUpForMintFee_isLeast (rate : fee.feePpm < 1000000) (positive : 0 < netMsat)
    (start : grossStart netMsat fee < 2 ^ 64) (searched : (grossBracket netMsat fee).isSome) :
    IsLeast {gross | netMsat ≤ applyMintFee gross fee} (grossUpForMintFee netMsat fee) := by
  obtain ⟨hi, found⟩ := Option.isSome_iff_exists.mp searched
  obtain ⟨top, _, _, below⟩ := LeastSearch.gallop_eq_some found
  have size := below start
  obtain ⟨⟨inside, lowest⟩, within⟩ := LeastSearch.bisect_isLeast (nets netMsat fee) 0 hi
    (fun a b le under => nets_upward rate le (by omega)) (Nat.zero_le hi) (by simp) top
  have nonzero : netMsat ≠ 0 := fun zero => absurd (zero ▸ positive) (by decide)
  have value : grossUpForMintFee netMsat fee = UInt64.ofNat (LeastSearch.bisect (nets netMsat fee) 0 hi) := by
    rw [grossUpForMintFee, if_neg nonzero, found]
  rw [value]
  refine ⟨by simpa [nets] using inside, fun gross enough => ?_⟩
  have fits : LeastSearch.bisect (nets netMsat fee) 0 hi < 2 ^ 64 := by omega
  rw [UInt64.le_iff_toNat_le, UInt64.toNat_ofNat_of_lt' fits]
  exact lowest (nets_toNat.mpr enough)

theorem grossesUp_of_isLeast (rate : fee.feePpm < 1000000) (positive : 0 < netMsat)
    (searched : (grossBracket netMsat fee).isSome)
    (least : IsLeast {gross | netMsat ≤ applyMintFee gross fee} (grossUpForMintFee netMsat fee)) :
    GrossesUp netMsat fee := by
  generalize value : grossUpForMintFee netMsat fee = g at least
  have enough : netMsat ≤ applyMintFee g fee := least.1
  have nonzero : g ≠ 0 := by
    rintro rfl
    rw [applyMintFee_zero] at enough
    exact absurd (UInt64.lt_of_lt_of_le positive enough) (by decide)
  have one : (1 : UInt64).toNat ≤ g.toNat := Nat.pos_of_ne_zero fun zero => nonzero (UInt64.toNat_inj.mp zero)
  have before : (g - 1).toNat + 1 = g.toNat := by
    rw [UInt64.toNat_sub_of_le _ _ (UInt64.le_iff_toNat_le.mpr one)]
    exact Nat.sub_add_cancel one
  have short : applyMintFee (g - 1) fee < netMsat := by
    rw [← UInt64.not_le]
    intro more
    have low := UInt64.le_iff_toNat_le.mp (least.2 more)
    omega
  have step := applyMintFee_step rate before.symm
  refine ⟨searched, value ▸ least, ?_, value ▸ short⟩
  rw [value, ← UInt64.toNat_inj]
  rw [UInt64.le_iff_toNat_le] at enough
  rw [UInt64.lt_iff_toNat_lt] at short
  omega

/-- The smallest gross is found exactly when some double of the amount plus
the base fee is a `u64` that nets the amount. -/
theorem grossesUp_iff (rate : fee.feePpm < 1000000) (positive : 0 < netMsat)
    (payable : ∃ gross, netMsat ≤ applyMintFee gross fee) :
    GrossesUp netMsat fee ↔
      ∃ k, (netMsat.toNat + fee.baseFeeMsat.toNat) * 2 ^ k < 2 ^ 64 ∧
        netMsat ≤ applyMintFee (UInt64.ofNat ((netMsat.toNat + fee.baseFeeMsat.toNat) * 2 ^ k)) fee := by
  obtain ⟨start, fits⟩ := grossStart_of_payable rate positive payable
  have bracket : (grossBracket netMsat fee).isSome ↔ ∃ k, grossStart netMsat fee * 2 ^ k < 2 ^ 64 ∧
      nets netMsat fee (grossStart netMsat fee * 2 ^ k) := LeastSearch.gallop_isSome_iff (start ▸ fits)
  simp only [start, nets, decide_eq_true_eq] at bracket
  rw [← bracket]
  constructor
  · exact GrossesUp.searched
  · intro searched
    exact grossesUp_of_isLeast rate positive searched
      (grossUpForMintFee_isLeast rate positive (start ▸ fits) searched)

/-- An amount some gross up to `2 ^ 63` nets is always grossed up. -/
theorem grossesUp_of_half (rate : fee.feePpm < 1000000) (positive : 0 < netMsat) (half : gross.toNat ≤ 2 ^ 63)
    (enough : netMsat ≤ applyMintFee gross fee) : GrossesUp netMsat fee := by
  obtain ⟨start, fits⟩ := grossStart_of_payable rate positive ⟨gross, enough⟩
  have least : 0 < netMsat.toNat := UInt64.lt_iff_toNat_lt.mp positive
  obtain ⟨k, low, high⟩ := LeastSearch.exists_double (netMsat.toNat + fee.baseFeeMsat.toNat) (2 ^ 63)
    (by omega) (by omega)
  have member := nets_upward rate (half.trans low) (by omega) (nets_toNat.mpr enough)
  exact (grossesUp_iff rate positive ⟨gross, enough⟩).mpr ⟨k, by omega, by simpa [nets] using member⟩

/-! A flat sat and 0.2%, and a rate of 60% on an amount past a quarter of the range. -/

def ordinaryFee : MintFee where
  baseFeeMsat := 1000
  feePpm := 2000
  addressFeeMsat := none

def steepFee : MintFee where
  baseFeeMsat := 0
  feePpm := 600000
  addressFeeMsat := none

theorem steepFee_exact : FeeIsExact (UInt64.ofNat (2 ^ 64 - 1)) steepFee := fee_is_exact (by decide) _

theorem ordinaryFee_grossesUp : GrossesUp 100000 ordinaryFee :=
  (grossesUp_iff (by decide) (by decide) ⟨110000, by decide⟩).mpr ⟨1, by decide, by decide⟩

/-- The doubling overflows between the amount's second double and the gross that would do. -/
theorem steepFee_overflows :
    parseToken "Mint fees: 0,600000".toList = some steepFee ∧
      4611686018427387904 ≤ applyMintFee 11529215046068469758 steepFee ∧
      grossBracket 4611686018427387904 steepFee = none ∧
      grossUpForMintFee 4611686018427387904 steepFee = 18446744073709551615 ∧
      ¬GrossesUp 4611686018427387904 steepFee := by
  have overflow : grossBracket 4611686018427387904 steepFee = none := by decide +kernel
  refine ⟨by decide, by decide, overflow, by decide +kernel, fun promised => ?_⟩
  have searched := promised.searched
  rw [overflow] at searched
  cases searched

end LnurlCash
