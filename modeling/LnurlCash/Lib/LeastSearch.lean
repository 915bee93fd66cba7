import Mathlib.Algebra.GroupWithZero.Nat
import Mathlib.Order.Bounds.Basic
import Mathlib.Tactic.Common

/-! The least member of an upward closed set of numbers: an upper bound by
doubling, then the least member below it by halving. -/

namespace LeastSearch

/-- Doubles `hi` until it is in the set; none when the next double reaches `bound`. -/
def gallop (good : Nat → Bool) (bound hi : Nat) (positive : 0 < hi) : Option Nat :=
  if good hi then some hi
  else if 2 * hi < bound then gallop good bound (2 * hi) (Nat.mul_pos (Nat.succ_pos 1) positive) else none
termination_by bound - hi

def bisect (good : Nat → Bool) (lo hi : Nat) : Nat :=
  if lo < hi then
    let mid := lo + (hi - lo) / 2
    if good mid then bisect good lo mid else bisect good (mid + 1) hi
  else lo
termination_by hi - lo

variable {good : Nat → Bool} {bound : Nat}

theorem mul_two_pow_succ (hi k : Nat) : hi * 2 ^ (k + 1) = 2 * hi * 2 ^ k := by
  rw [Nat.pow_succ', ← Nat.mul_assoc, Nat.mul_comm hi 2]

theorem gallop_eq_some {hi top : Nat} {positive : 0 < hi} (found : gallop good bound hi positive = some top) :
    good top ∧ ∃ k, top = hi * 2 ^ k ∧ (hi < bound → top < bound) := by
  fun_induction gallop good bound hi positive with
  | case1 hi positive here =>
    cases found
    exact ⟨here, 0, by simp, id⟩
  | case2 hi positive missed small ih =>
    obtain ⟨inside, k, value, below⟩ := ih found
    exact ⟨inside, k + 1, value.trans (mul_two_pow_succ hi k).symm, fun _ => below small⟩
  | case3 => cases found

/-- Doubling finds a member exactly when some double below the bound is one. -/
theorem gallop_isSome_iff {hi : Nat} {positive : 0 < hi} (start : hi < bound) :
    (gallop good bound hi positive).isSome ↔ ∃ k, hi * 2 ^ k < bound ∧ good (hi * 2 ^ k) := by
  constructor
  · intro found
    obtain ⟨top, same⟩ := Option.isSome_iff_exists.mp found
    obtain ⟨inside, k, rfl, below⟩ := gallop_eq_some same
    exact ⟨k, below start, inside⟩
  · rintro ⟨k, below, inside⟩
    induction k generalizing hi with
    | zero =>
      rw [gallop, if_pos (by simpa using inside)]
      rfl
    | succ k ih =>
      rw [mul_two_pow_succ] at below inside
      have next : 2 * hi < bound := by
        have grows : 2 * hi * 1 ≤ 2 * hi * 2 ^ k := Nat.mul_le_mul_left _ (Nat.one_le_two_pow)
        omega
      rw [gallop]
      split_ifs
      · rfl
      · exact ih next below inside

/-- Halving keeps a member on top and none below, so it ends at the least. The
set needs to be upward closed only below `hi`. -/
theorem bisect_isLeast (good : Nat → Bool) (lo hi : Nat) (upward : ∀ a b, a ≤ b → b < hi → good a → good b) (ordered : lo ≤ hi)
    (below : ∀ n < lo, good n = false) (top : good hi) :
    IsLeast {n | good n} (bisect good lo hi) ∧ bisect good lo hi ≤ hi := by
  fun_induction bisect good lo hi with
  | case1 lo hi open' mid inside ih =>
    have half : mid < hi := by omega
    obtain ⟨least, within⟩ := ih (fun a b le under => upward a b le (by omega)) (by omega) below inside
    exact ⟨least, by omega⟩
  | case2 lo hi open' mid outside ih =>
    refine ih upward (by omega) (fun n under => ?_) top
    by_contra member
    exact outside (upward n mid (by omega) (by omega) (by simpa using member))
  | case3 lo hi closed =>
    have same : lo = hi := by omega
    subst same
    refine ⟨⟨top, fun n member => ?_⟩, le_rfl⟩
    by_contra under
    have outside := below n (by omega)
    exact absurd member (by simp [outside])

/-- Every number below the bound has a double in the bound's upper half. -/
theorem exists_double (hi half : Nat) (positive : 0 < hi) (start : hi < 2 * half) :
    ∃ k, half ≤ hi * 2 ^ k ∧ hi * 2 ^ k < 2 * half := by
  by_cases upper : half ≤ hi
  · exact ⟨0, by simpa using upper, by simpa using start⟩
  · obtain ⟨k, low, high⟩ := exists_double (2 * hi) half (by omega) (by omega)
    refine ⟨k + 1, ?_⟩
    rw [mul_two_pow_succ]
    exact ⟨low, high⟩
termination_by half - hi

end LeastSearch
