import Mathlib.GroupTheory.OrderOfElement

/-- A group of points with a generator of order `n`, and how a point is spelled. -/
structure KeyGroup (Point : Type) [AddCommGroup Point] (n : Nat) (Spelling : Type) where
  generator : Point
  order : addOrderOf generator = n
  spell : Point → Spelling

namespace KeyGroup

variable {Point : Type} [AddCommGroup Point] {n : Nat} {Spelling : Type} (group : KeyGroup Point n Spelling)

/-- The public key of a scalar. -/
def point (k : Nat) : Point := k • group.generator

theorem point_add (k t : Nat) : group.point (k + t) = group.point k + group.point t := add_nsmul _ k t

theorem point_mod (k : Nat) : group.point (k % n) = group.point k := by
  have reduced := mod_addOrderOf_nsmul group.generator k
  rwa [group.order] at reduced

theorem point_eq_zero {k : Nat} : group.point k = 0 ↔ k % n = 0 := by
  rw [point, ← addOrderOf_dvd_iff_nsmul_eq_zero, group.order, Nat.dvd_iff_mod_eq_zero]

theorem point_ne_zero {k : Nat} (positive : 0 < k) (small : k < n) : group.point k ≠ 0 := by
  rw [Ne, group.point_eq_zero, Nat.mod_eq_of_lt small]
  omega

/-- A tweaked secret is zero exactly when the tweaked point is. -/
theorem tweak_eq_zero {k t : Nat} : (k + t) % n = 0 ↔ group.point k + group.point t = 0 := by
  rw [← group.point_add, group.point_eq_zero]

/-- The public key of a tweaked secret is the tweaked public key. -/
theorem point_tweak (k t : Nat) : group.point ((k + t) % n) = group.point k + group.point t := by
  rw [group.point_mod, group.point_add]

end KeyGroup

/-- A group whose points are spelled by one coordinate, which a point shares
with its negative alone; `lift` reads the even one of the two back. -/
structure XOnlyGroup (Point : Type) [AddCommGroup Point] (n : Nat) (Spelling : Type) extends
    KeyGroup Point n Spelling where
  odd : Point → Bool
  lift : Spelling → Option Point
  lift_spell : ∀ P, P ≠ 0 → lift (spell P) = some (if odd P then -P else P)

namespace XOnlyGroup

variable {Point : Type} [AddCommGroup Point] {n : Nat} {Spelling : Type} (group : XOnlyGroup Point n Spelling)

/-- The secret of the even one of a secret's point and its negative. -/
def evenSecret (k : Nat) : Nat := if group.odd (group.point k) then n - k else k

theorem point_sub {k : Nat} (small : k ≤ n) : group.point (n - k) = -group.point k := by
  have whole : group.point (n - k) + group.point k = 0 := by
    rw [← group.point_add, Nat.sub_add_cancel small, group.point_eq_zero, Nat.mod_self]
  exact eq_neg_of_add_eq_zero_left whole

theorem point_evenSecret {k : Nat} (small : k ≤ n) :
    group.point (group.evenSecret k) = if group.odd (group.point k) then -group.point k else group.point k := by
  unfold evenSecret
  split
  · exact group.point_sub small
  · rfl

/-- A secret's spelling is read back as the point of its even secret. -/
theorem lift_point {k : Nat} (positive : 0 < k) (small : k < n) :
    group.lift (group.spell (group.point k)) = some (group.point (group.evenSecret k)) := by
  rw [group.lift_spell _ (group.point_ne_zero positive small), group.point_evenSecret (Nat.le_of_lt small)]

end XOnlyGroup
