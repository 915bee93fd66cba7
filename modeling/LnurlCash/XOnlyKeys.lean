import LnurlCash.Lib.KeyGroup
import LnurlCash.Cash
import LnurlCash.Reference
import Mathlib.Data.ZMod.Basic

namespace LnurlCash

/-- The key crates with `Keypair::add_xonly_tweak` of a scalar to a valid secret key. -/
structure TweakCrates extends KeyCrates where
  addXonlyTweak : ByteArr 32 → ByteArr 32 → Option (ByteArr 32)

/-- libsecp256k1's operations on x-only keys, over a group of order `n` whose
points are spelled by their x coordinates: an x-only key stands for the even
point, and tweaks are refused at zero and at infinity. -/
structure TweakCrates.OnXOnly (K : TweakCrates) {Point : Type} [AddCommGroup Point]
    (curve : XOnlyGroup Point curveOrder (ByteArr 32)) : Prop where
  isSecretKey_iff : ∀ key, K.isSecretKey key ↔ 0 < Bytes.beNat key.toList ∧ Bytes.beNat key.toList < curveOrder
  publicKeyOf_tail : ∀ key, K.isSecretKey key →
    (K.publicKeyOf key).tail = curve.spell (curve.point (Bytes.beNat key.toList))
  signingKey_eq : ∀ key, K.isSecretKey key →
    K.signingKey key = some (curve.spell (curve.point (Bytes.beNat key.toList)))
  isXOnlyKey_iff : ∀ x, K.isXOnlyKey x ↔ (curve.lift x).isSome
  addTweak_infinity : ∀ x P (tweak : ByteArr 32), curve.lift x = some P → Bytes.beNat tweak.toList < curveOrder →
    P + curve.point (Bytes.beNat tweak.toList) = 0 → K.addTweak x tweak = none
  addTweak_eq : ∀ x P (tweak : ByteArr 32), curve.lift x = some P → Bytes.beNat tweak.toList < curveOrder →
    P + curve.point (Bytes.beNat tweak.toList) ≠ 0 →
      K.addTweak x tweak = some (curve.spell (P + curve.point (Bytes.beNat tweak.toList)),
        curve.odd (P + curve.point (Bytes.beNat tweak.toList)))
  addXonlyTweak_eq : ∀ key tweak : ByteArr 32, K.isSecretKey key → Bytes.beNat tweak.toList < curveOrder →
    K.addXonlyTweak key tweak =
      if (curve.evenSecret (Bytes.beNat key.toList) + Bytes.beNat tweak.toList) % curveOrder = 0 then none
      else some (Bytes.beArr 32 ((curve.evenSecret (Bytes.beNat key.toList) + Bytes.beNat tweak.toList) % curveOrder))

namespace TweakCrates.OnXOnly

variable {K : TweakCrates} {Point : Type} [AddCommGroup Point] {curve : XOnlyGroup Point curveOrder (ByteArr 32)}
  {key tweak : ByteArr 32}

/-- A secret key's x-only public key stands for the point of its even secret. -/
theorem lift_publicKeyOf (on : K.OnXOnly curve) (valid : K.isSecretKey key) :
    curve.lift (K.publicKeyOf key).tail = some (curve.point (curve.evenSecret (Bytes.beNat key.toList))) := by
  obtain ⟨positive, small⟩ := (on.isSecretKey_iff key).mp valid
  rw [on.publicKeyOf_tail key valid, curve.lift_point positive small]

theorem isXOnlyKey_publicKeyOf (on : K.OnXOnly curve) (valid : K.isSecretKey key) :
    K.isXOnlyKey (K.publicKeyOf key).tail := by
  rw [on.isXOnlyKey_iff, on.lift_publicKeyOf valid]
  rfl

/-- Tweaking a key pair by its x-only key and tweaking that x-only key fail
together, or give a secret key and its own x-only key. -/
theorem xonly_tweak (on : K.OnXOnly curve) (valid : K.isSecretKey key)
    (scalar : Bytes.beNat tweak.toList < curveOrder) :
    K.addXonlyTweak key tweak = none ∧ K.addTweak (K.publicKeyOf key).tail tweak = none ∨
      ∃ tweaked odd, K.isSecretKey tweaked ∧ K.addXonlyTweak key tweak = some tweaked ∧
        K.addTweak (K.publicKeyOf key).tail tweak = some ((K.publicKeyOf tweaked).tail, odd) := by
  have lifted := on.lift_publicKeyOf valid
  have sum := curve.point_tweak (curve.evenSecret (Bytes.beNat key.toList)) (Bytes.beNat tweak.toList)
  have zero := curve.tweak_eq_zero (k := curve.evenSecret (Bytes.beNat key.toList)) (t := Bytes.beNat tweak.toList)
  rw [on.addXonlyTweak_eq key tweak valid scalar]
  generalize curve.evenSecret (Bytes.beNat key.toList) = even at lifted sum zero
  by_cases refused : (even + Bytes.beNat tweak.toList) % curveOrder = 0
  · exact Or.inl ⟨if_pos refused, on.addTweak_infinity _ _ tweak lifted scalar (zero.mp refused)⟩
  · have small : (even + Bytes.beNat tweak.toList) % curveOrder < curveOrder := Nat.mod_lt _ (by decide)
    have value : Bytes.beNat (Bytes.beArr 32 ((even + Bytes.beNat tweak.toList) % curveOrder)).toList =
        (even + Bytes.beNat tweak.toList) % curveOrder := beNat_beArr_of_lt small
    have tweakedValid : K.isSecretKey (Bytes.beArr 32 ((even + Bytes.beNat tweak.toList) % curveOrder)) := by
      rw [on.isSecretKey_iff, value]
      exact ⟨by omega, small⟩
    refine Or.inr ⟨_, curve.odd (curve.point even + curve.point (Bytes.beNat tweak.toList)), tweakedValid,
      if_neg refused, ?_⟩
    rw [on.addTweak_eq _ _ tweak lifted scalar fun infinity => refused (zero.mpr infinity),
      on.publicKeyOf_tail _ tweakedValid, value, sum]

end TweakCrates.OnXOnly

/-! ### A group whose x coordinates are secp256k1's where two tweaks meet them -/

/-- The x coordinates of three secrets below half the order; the others are spelled as they are. -/
def metCoordinates : Equiv.Perm Nat :=
  Equiv.swap 6 0xfff97bd5755eeea420453a14355235d382f6472f8568a18b2f057a1460297556 *
  Equiv.swap 0x34dc14f8a8a4bd0097d7190ff36769a628272afe57080d7d592fe1aa3b75575b
    0x75bceaa058829eecd01882d18e20ce2749c9a948cdb06da7b1227ae3ff520dd6 *
  Equiv.swap 0x5215583dc0e0c1eb069541c4a782752e23ed735ca14686886b162c9c059010b3
    0x7a8aac1a844e9961233ee8b3404c10902f62bc4900de741d020f14683b5a6f04

/-- The smaller of the secrets of a point and its negative. -/
def lowSecret (k : Nat) : Nat := min k (curveOrder - k)

def mirrorCoordinate (k : Nat) : ByteArr 32 := Bytes.beArr 32 (metCoordinates (lowSecret k))

/-- Whether y is odd: as the secret is, but for two of the three met. -/
def mirrorOdd (k : Nat) : Bool :=
  decide (k % 2 = 1) ^^
    (lowSecret k == 6 || lowSecret k == 0x5215583dc0e0c1eb069541c4a782752e23ed735ca14686886b162c9c059010b3)

def mirrorEven (k : Nat) : Nat := if mirrorOdd k then curveOrder - k else k

def mirrorSecret (x : ByteArr 32) : Option Nat :=
  let low := metCoordinates.symm (Bytes.beNat x.toList)
  if 0 < low ∧ 2 * low < curveOrder then some (mirrorEven low) else none

def mirrorKeys : TweakCrates := { referenceKeys with
  publicKeyOf := fun key =>
    let k := Bytes.beNat key.toList
    ⟨(if mirrorOdd k then 3 else 2) :: (mirrorCoordinate k).toList, by simp [(mirrorCoordinate k).size]⟩
  signingKey := fun key =>
    if Secp256k1.isSecretKey key then some (mirrorCoordinate (Bytes.beNat key.toList)) else none
  isXOnlyKey := fun x => (mirrorSecret x).isSome
  addTweak := fun x tweak => do
    let k ← mirrorSecret x
    let sum := (k + Bytes.beNat tweak.toList) % curveOrder
    if sum = 0 then none else some (mirrorCoordinate sum, mirrorOdd sum)
  addXonlyTweak := fun key tweak =>
    let sum := (mirrorEven (Bytes.beNat key.toList) + Bytes.beNat tweak.toList) % curveOrder
    if sum = 0 then none else some (Bytes.beArr 32 sum) }

theorem metCoordinates_lt {k : Nat} (small : k < curveOrder) : metCoordinates k < 256 ^ 32 := by
  have room : curveOrder < 256 ^ 32 := by decide
  have swap {a b k : Nat} (left : a < 256 ^ 32) (right : b < 256 ^ 32) (below : k < 256 ^ 32) :
      Equiv.swap a b k < 256 ^ 32 := by
    rw [Equiv.swap_apply_def]
    split
    · exact right
    · split
      · exact left
      · exact below
  exact swap (by decide) (by decide) (swap (by decide) (by decide) (swap (by decide) (by decide) (by omega)))

theorem mirrorSecret_mirrorCoordinate {k : Nat} (positive : 0 < k) (small : k < curveOrder) :
    mirrorSecret (mirrorCoordinate k) = some (mirrorEven (lowSecret k)) := by
  have order : curveOrder % 2 = 1 := by decide
  have bounds : 0 < lowSecret k ∧ 2 * lowSecret k < curveOrder := by
    unfold lowSecret
    omega
  have below : lowSecret k < curveOrder := by omega
  have value : Bytes.beNat (mirrorCoordinate k).toList = metCoordinates (lowSecret k) :=
    Bytes.beNat_be (metCoordinates_lt below)
  rw [mirrorSecret, value, Equiv.symm_apply_apply, if_pos bounds]

/-- A secret and its negative have one even secret between them. -/
theorem mirrorEven_lowSecret {k : Nat} (positive : 0 < k) (small : k < curveOrder) :
    mirrorEven (lowSecret k) = mirrorEven k := by
  have order : curveOrder % 2 = 1 := by decide
  have low : lowSecret k = k ∨ lowSecret k = curveOrder - k := by
    unfold lowSecret
    omega
  rcases low with same | other
  · rw [same]
  · have again : lowSecret (curveOrder - k) = curveOrder - k := by
      unfold lowSecret at other ⊢
      omega
    have flipped : mirrorOdd (curveOrder - k) = !mirrorOdd k := by
      unfold mirrorOdd
      rw [again, other]
      by_cases parity : k % 2 = 1
      · have even : ¬(curveOrder - k) % 2 = 1 := by omega
        simp [parity, even]
      · have odd : (curveOrder - k) % 2 = 1 := by omega
        simp [parity, odd]
    rw [other, mirrorEven, mirrorEven, flipped]
    cases mirrorOdd k with
    | false => simp; omega
    | true => simp

/-- The integers modulo `n`, with those coordinates and parities. -/
def mirrorCurve : XOnlyGroup (ZMod curveOrder) curveOrder (ByteArr 32) where
  generator := 1
  order := ZMod.addOrderOf_one curveOrder
  spell P := mirrorCoordinate P.val
  odd P := mirrorOdd P.val
  lift x := (mirrorSecret x).map fun k : Nat => (k : ZMod curveOrder)
  lift_spell := by
    intro P nonzero
    have positive : 0 < P.val := Nat.pos_of_ne_zero ((ZMod.val_ne_zero P).mpr nonzero)
    have small : P.val < curveOrder := ZMod.val_lt P
    rw [mirrorSecret_mirrorCoordinate positive small, mirrorEven_lowSecret positive small, mirrorEven, Option.map_some]
    split
    · rw [Nat.cast_sub (Nat.le_of_lt small), ZMod.natCast_self, ZMod.natCast_zmod_val, zero_sub]
    · rw [ZMod.natCast_zmod_val]

theorem mirrorCurve_point (k : Nat) : (mirrorCurve.point k).val = k % curveOrder := by
  have multiple : mirrorCurve.point k = (k : ZMod curveOrder) := nsmul_one k
  rw [multiple, ZMod.val_natCast]

theorem mirrorCurve_spell (k : Nat) : mirrorCurve.spell (mirrorCurve.point k) = mirrorCoordinate (k % curveOrder) :=
  congrArg mirrorCoordinate (mirrorCurve_point k)

theorem mirrorCurve_add (k t : Nat) : ((k : ZMod curveOrder) + mirrorCurve.point t).val = (k + t) % curveOrder := by
  rw [ZMod.val_add, mirrorCurve_point, Nat.add_mod_mod, ZMod.val_natCast, Nat.mod_add_mod]

/-- What a spelling lifts to is a secret, read modulo the order. -/
theorem mirrorSecret_of_lift {x : ByteArr 32} {P : ZMod curveOrder} (lifted : mirrorCurve.lift x = some P) :
    ∃ k : Nat, mirrorSecret x = some k ∧ P = (k : ZMod curveOrder) := by
  obtain ⟨k, secret, rfl⟩ := Option.map_eq_some_iff.mp lifted
  exact ⟨k, secret, rfl⟩

theorem mirrorCurve_point_beNat {key : ByteArr 32} (valid : mirrorKeys.isSecretKey key) :
    (mirrorCurve.point (Bytes.beNat key.toList)).val = Bytes.beNat key.toList := by
  obtain ⟨_, bound⟩ := of_decide_eq_true (show decide _ = true from valid)
  rw [mirrorCurve_point]
  exact Nat.mod_eq_of_lt bound

theorem mirrorKeys_onXOnly : mirrorKeys.OnXOnly mirrorCurve where
  isSecretKey_iff := by
    intro key
    exact decide_eq_true_iff
  publicKeyOf_tail := by
    intro key valid
    have value := mirrorCurve_point_beNat valid
    exact ByteArr.ext (congrArg (fun k => (mirrorCoordinate k).toList) value.symm)
  signingKey_eq := by
    intro key valid
    have value := mirrorCurve_point_beNat valid
    have signing : mirrorKeys.signingKey key = some (mirrorCoordinate (Bytes.beNat key.toList)) := if_pos valid
    rw [signing]
    exact congrArg (fun k => some (mirrorCoordinate k)) value.symm
  isXOnlyKey_iff := by
    intro x
    have same : (mirrorCurve.lift x).isSome = (mirrorSecret x).isSome := Option.isSome_map
    rw [same]
    exact Iff.rfl
  addTweak_infinity := by
    intro x P tweak lifted _ infinity
    obtain ⟨k, secret, rfl⟩ := mirrorSecret_of_lift lifted
    have zero : (k + Bytes.beNat tweak.toList) % curveOrder = 0 := by
      rw [← mirrorCurve_add, infinity, ZMod.val_zero]
    simp only [mirrorKeys, secret, Option.bind_eq_bind, Option.bind_some, zero, if_true]
  addTweak_eq := by
    intro x P tweak lifted _ finite
    obtain ⟨k, secret, rfl⟩ := mirrorSecret_of_lift lifted
    have sum := mirrorCurve_add k (Bytes.beNat tweak.toList)
    have nonzero : ¬(k + Bytes.beNat tweak.toList) % curveOrder = 0 := by
      rw [← sum]
      exact (ZMod.val_ne_zero _).mpr finite
    simp only [mirrorKeys, secret, Option.bind_eq_bind, Option.bind_some, if_neg nonzero]
    exact congrArg (fun k => some (mirrorCoordinate k, mirrorOdd k)) sum.symm
  addXonlyTweak_eq := by
    intro key tweak valid _
    have value := mirrorCurve_point_beNat valid
    have even : mirrorCurve.evenSecret (Bytes.beNat key.toList) = mirrorEven (Bytes.beNat key.toList) :=
      congrArg (fun k => if mirrorOdd k then curveOrder - Bytes.beNat key.toList else Bytes.beNat key.toList) value
    rw [even]
    rfl

end LnurlCash
