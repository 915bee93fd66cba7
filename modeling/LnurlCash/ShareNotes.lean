import LnurlCash.Lib.KeyGroup
import LnurlCash.Cash
import LnurlCash.Reference
import LnurlCash.Spellings
import Mathlib.Data.ZMod.Basic

namespace LnurlCash

open Outcome

def chainWallet : UInt32 := 0

def chainChange : UInt32 := 1

def chainShare : UInt32 := 2

/-- Where a note sits below a SERVICE's root. -/
inductive NotePath where
  | wallet (account index : UInt32)
  | change (account index : UInt32)
  | share (account number index : UInt32)
  deriving DecidableEq

def belowHardened (value : UInt32) (what : Str) : Except Error UInt32 :=
  if value ≥ hardened then
    .error (.protocol (what ++ " ".toList ++ Str.decimal value.toNat ++ " is not below 2^31".toList))
  else .ok value

/-- The account, the levels between it and the note, and the note's own index. -/
def NotePath.levels : NotePath → Except Error (UInt32 × List UInt32 × UInt32)
  | wallet account index => .ok (account, [chainWallet], index)
  | change account index => .ok (account, [chainChange], index)
  | share account number index => do
    let number ← belowHardened number "a share".toList
    return (account, [chainShare, number + hardened], index)

/-- The BIP-32 indices below `S`, hardened ones included. -/
def NotePath.indices (path : NotePath) : Except Error (List UInt32) := do
  let (account, middle, index) ← path.levels
  let account ← belowHardened account "an account".toList
  let index ← belowHardened index "a note index".toList
  return (account + hardened) :: middle ++ [index]

structure NoteKey where
  secretKey : ByteArr 32
  pubkey : ByteArr 33
  /-- `Q = x(pubkey)`, the note itself -/
  outputKey : ByteArr 32
  deriving DecidableEq

def KeyCrates.deriveNoteKey (K : KeyCrates) (serviceRoot : CashNode) (path : NotePath) : Except Error NoteKey := do
  let indices ← path.indices
  let node ← indices.foldlM K.deriveCashChild serviceRoot
  let pubkey ← K.cashNodePublicKey node
  return { secretKey := node.privateKey, pubkey, outputKey := pubkey.tail }

def KeyCrates.deriveShareNode (K : KeyCrates) (serviceRoot : CashNode) (account share : UInt32) : Except Error CashNode := do
  let account ← belowHardened account "an account".toList
  let node ← K.deriveCashChild serviceRoot (account + hardened)
  let node ← K.deriveCashChild node chainShare
  let share ← belowHardened share "a share".toList
  K.deriveCashChild node (share + hardened)

def KeyCrates.cashNodeToCx1 (K : KeyCrates) (node : CashNode) : Except Error Cx1 := do
  let pubkey ← K.cashNodePublicKey node
  return { chainCode := node.chainCode, pubkey }

/-- `Q` of a note on the share a `cx1` exports, with no private key anywhere. -/
def KeyCrates.deriveNotePubkey (K : KeyCrates) (cx1 : Cx1) (index : UInt32) : Except Error (ByteArr 32) := do
  let (pubkey, _) ← K.deriveCashChildPub cx1.pubkey cx1.chainCode index
  return pubkey.tail

/-! ### The crates over a group -/

/-- libsecp256k1's operations on keys, over a group of order `n` whose points
it spells compressed: scalars modulo `n`, tweaks refused at zero and at infinity. -/
structure KeyCrates.OnCurve (K : KeyCrates) {Point : Type} [AddCommGroup Point]
    (curve : KeyGroup Point curveOrder (ByteArr 33)) : Prop where
  isSecretKey_iff : ∀ key, K.isSecretKey key ↔ 0 < Bytes.beNat key.toList ∧ Bytes.beNat key.toList < curveOrder
  publicKeyOf_eq : ∀ key, K.isSecretKey key → K.publicKeyOf key = curve.spell (curve.point (Bytes.beNat key.toList))
  addSecretTweak_eq : ∀ key tweak : ByteArr 32, K.isSecretKey key → Bytes.beNat tweak.toList < curveOrder →
    K.addSecretTweak key tweak =
      if (Bytes.beNat key.toList + Bytes.beNat tweak.toList) % curveOrder = 0 then none
      else some (Bytes.beArr 32 ((Bytes.beNat key.toList + Bytes.beNat tweak.toList) % curveOrder))
  isPublicKey_of_point : ∀ P, P ≠ 0 → K.isPublicKey (curve.spell P)
  addExpTweak_infinity : ∀ P (tweak : ByteArr 32), P ≠ 0 → Bytes.beNat tweak.toList < curveOrder →
    P + curve.point (Bytes.beNat tweak.toList) = 0 → K.addExpTweak (curve.spell P) tweak = none
  addExpTweak_eq : ∀ P (tweak : ByteArr 32), P ≠ 0 → Bytes.beNat tweak.toList < curveOrder →
    P + curve.point (Bytes.beNat tweak.toList) ≠ 0 →
      K.addExpTweak (curve.spell P) tweak = some (curve.spell (P + curve.point (Bytes.beNat tweak.toList)))

section Derivation

variable {K : KeyCrates} {Point : Type} [AddCommGroup Point] {curve : KeyGroup Point curveOrder (ByteArr 33)}

theorem KeyCrates.OnCurve.point_ne_zero (on : K.OnCurve curve) {key : ByteArr 32} (valid : K.isSecretKey key) :
    curve.point (Bytes.beNat key.toList) ≠ 0 := by
  obtain ⟨positive, small⟩ := (on.isSecretKey_iff key).mp valid
  exact curve.point_ne_zero positive small

theorem KeyCrates.OnCurve.isPublicKey (on : K.OnCurve curve) {key : ByteArr 32} (valid : K.isSecretKey key) :
    K.isPublicKey (K.publicKeyOf key) := by
  rw [on.publicKeyOf_eq key valid]
  exact on.isPublicKey_of_point _ (on.point_ne_zero valid)

/-- Tweaking a secret key and its public key by the same scalar fails together or stays a pair. -/
theorem KeyCrates.OnCurve.tweak (on : K.OnCurve curve) {key tweak : ByteArr 32} (valid : K.isSecretKey key)
    (scalar : Bytes.beNat tweak.toList < curveOrder) :
    K.addSecretTweak key tweak = none ∧ K.addExpTweak (K.publicKeyOf key) tweak = none ∨
      ∃ child, K.isSecretKey child ∧ K.addSecretTweak key tweak = some child ∧
        K.addExpTweak (K.publicKeyOf key) tweak = some (K.publicKeyOf child) := by
  have nonzero := on.point_ne_zero valid
  have sum := curve.point_tweak (Bytes.beNat key.toList) (Bytes.beNat tweak.toList)
  have zero := curve.tweak_eq_zero (k := Bytes.beNat key.toList) (t := Bytes.beNat tweak.toList)
  rw [on.addSecretTweak_eq key tweak valid scalar, on.publicKeyOf_eq key valid]
  by_cases refused : (Bytes.beNat key.toList + Bytes.beNat tweak.toList) % curveOrder = 0
  · exact Or.inl ⟨if_pos refused, on.addExpTweak_infinity _ tweak nonzero scalar (zero.mp refused)⟩
  · have small : (Bytes.beNat key.toList + Bytes.beNat tweak.toList) % curveOrder < curveOrder :=
      Nat.mod_lt _ (by decide)
    have value := beNat_beArr_of_lt small
    have childValid : K.isSecretKey (Bytes.beArr 32 ((Bytes.beNat key.toList + Bytes.beNat tweak.toList) % curveOrder)) := by
      rw [on.isSecretKey_iff, value]
      exact ⟨by omega, small⟩
    refine Or.inr ⟨_, childValid, if_neg refused, ?_⟩
    rw [on.addExpTweak_eq _ tweak nonzero scalar fun infinity => refused (zero.mpr infinity),
      on.publicKeyOf_eq _ childValid, value, sum]

/-- One step of CKDpub below a node's public key is one step of CKDpriv below the node. -/
theorem KeyCrates.OnCurve.child (on : K.OnCurve curve) {node : CashNode} (valid : K.isSecretKey node.privateKey)
    {index : UInt32} (plain : index < hardened) :
    (K.deriveCashChild node index).toOption = none ∧
        (K.deriveCashChildPub (K.publicKeyOf node.privateKey) node.chainCode index).toOption = none ∨
      ∃ child, K.isSecretKey child.privateKey ∧ K.deriveCashChild node index = .ok child ∧
        K.deriveCashChildPub (K.publicKeyOf node.privateKey) node.chainCode index =
          .ok (K.publicKeyOf child.privateKey, child.chainCode) := by
  have low : ¬index ≥ hardened := UInt32.not_le.mpr plain
  have onCurve := on.isPublicKey valid
  generalize hashed : (K.hmacSha512 node.chainCode.toList
    ((K.publicKeyOf node.privateKey).toList ++ Bytes.be 4 index.toNat)).halves = material
  have priv : K.deriveCashChild node index = (do
      let tweak ← expect (outOfRange index) (scalarOfBytes material.1)
      let child ← expect (outOfRange index) (K.addSecretTweak node.privateKey tweak)
      return { privateKey := child, chainCode := material.2 }) := by
    simp only [deriveCashChild, valid, low, if_false, hashed, refuseIf, Bool.true_eq_false, ok_bind]
  have pub : K.deriveCashChildPub (K.publicKeyOf node.privateKey) node.chainCode index = (do
      let tweak ← expect (outOfRange index) (scalarOfBytes material.1)
      let child ← expect (outOfRange index) (K.addExpTweak (K.publicKeyOf node.privateKey) tweak)
      return (child, material.2)) := by
    simp only [deriveCashChildPub, onCurve, low, if_false, hashed, refuseIf, Bool.true_eq_false, ok_bind]
  rw [priv, pub, scalarOfBytes]
  by_cases scalar : Bytes.beNat material.1.toList < curveOrder
  · rw [if_pos scalar]
    rcases on.tweak valid scalar with ⟨secret, point⟩ | ⟨child, childValid, secret, point⟩
    · left
      simp only [expect, ok_bind, secret, point]
      exact ⟨rfl, rfl⟩
    · right
      refine ⟨{ privateKey := child, chainCode := material.2 }, childValid, ?_, ?_⟩
      · simp only [expect, ok_bind, secret]
        rfl
      · simp only [expect, ok_bind, point]
        rfl
  · rw [if_neg scalar]
    exact Or.inl ⟨rfl, rfl⟩

/-- Whatever CKDpriv makes of a node, hardened or not, is a node with a valid key. -/
theorem KeyCrates.OnCurve.child_valid (on : K.OnCurve curve) {node child : CashNode} {index : UInt32}
    (derived : K.deriveCashChild node index = .ok child) : K.isSecretKey child.privateKey := by
  simp only [deriveCashChild, bind_eq_ok, refuseIf_eq_ok, expect_eq_ok, pure_eq_ok, Bool.not_eq_false] at derived
  obtain ⟨_, valid, tweak, scalar, key, added, rfl⟩ := derived
  simp only [scalarOfBytes, Option.ite_none_right_eq_some, Option.some.injEq] at scalar
  obtain ⟨small, rfl⟩ := scalar
  rcases on.tweak valid small with ⟨secret, _⟩ | ⟨other, otherValid, secret, _⟩
  · rw [secret] at added
    cases added
  · rw [secret] at added
    cases added
    exact otherValid

theorem belowHardened_eq_ok {value below : UInt32} {what : Str} :
    belowHardened value what = .ok below ↔ value < hardened ∧ below = value := by
  unfold belowHardened
  split
  · rename_i high
    simp only [reduceCtorEq, false_iff, not_and]
    intro low
    exact absurd low (UInt32.not_lt.mpr high)
  · rename_i low
    rw [Except.ok.injEq, eq_comm]
    exact (and_iff_right (UInt32.not_le.mp low)).symm

theorem NotePath.indices_share_eq_ok {account number index : UInt32} {indices : List UInt32} :
    (share account number index).indices = .ok indices ↔ account < hardened ∧ number < hardened ∧ index < hardened ∧
      indices = [account + hardened, chainShare, number + hardened, index] := by
  simp only [NotePath.indices, levels, bind_eq_ok, pure_eq_ok, belowHardened_eq_ok]
  constructor
  · rintro ⟨_, ⟨_, ⟨number, rfl⟩, rfl⟩, _, ⟨account, rfl⟩, _, ⟨index, rfl⟩, rfl⟩
    exact ⟨account, number, index, rfl⟩
  · rintro ⟨account, number, index, rfl⟩
    exact ⟨_, ⟨_, ⟨number, rfl⟩, rfl⟩, _, ⟨account, rfl⟩, _, ⟨index, rfl⟩, rfl⟩

/-- The holder's key of a share's note is that of a plain child of the share's own node. -/
theorem KeyCrates.deriveNoteKey_share {root : CashNode} {account number index : UInt32} {key : NoteKey} :
    K.deriveNoteKey root (.share account number index) = .ok key ↔ index < hardened ∧
      ∃ node child, K.deriveShareNode root account number = .ok node ∧ K.deriveCashChild node index = .ok child ∧
        ∃ pubkey, K.cashNodePublicKey child = .ok pubkey ∧
          key = { secretKey := child.privateKey, pubkey, outputKey := pubkey.tail } := by
  simp only [deriveNoteKey, deriveShareNode, NotePath.indices_share_eq_ok, bind_eq_ok, pure_eq_ok, belowHardened_eq_ok]
  constructor
  · rintro ⟨_, ⟨account, number, index, rfl⟩, child, walked, pubkey, point, rfl⟩
    simp only [List.foldlM_cons, List.foldlM_nil, bind_eq_ok, pure_eq_ok] at walked
    obtain ⟨first, accounts, second, shares, node, numbers, _, last, rfl⟩ := walked
    exact ⟨index, node, _, ⟨_, ⟨account, rfl⟩, first, accounts, second, shares, _, ⟨number, rfl⟩, numbers⟩, last, pubkey, point, rfl⟩
  · rintro ⟨index, node, child, ⟨_, ⟨account, rfl⟩, first, accounts, second, shares, _, ⟨number, rfl⟩, numbers⟩, last,
      pubkey, point, rfl⟩
    refine ⟨_, ⟨account, number, index, rfl⟩, child, ?_, pubkey, point, rfl⟩
    simp only [List.foldlM_cons, List.foldlM_nil, bind_eq_ok, pure_eq_ok]
    exact ⟨first, accounts, second, shares, node, numbers, child, last, rfl⟩

/-- What the holder of `root` knows the share's note by. -/
def KeyCrates.holderNote (K : KeyCrates) (root : CashNode) (account share index : UInt32) : Option (ByteArr 32) :=
  ((K.deriveNoteKey root (.share account share index)).map NoteKey.outputKey).toOption

/-- The `cx1` the holder hands out for a share. -/
def KeyCrates.shareCx1 (K : KeyCrates) (root : CashNode) (account share : UInt32) : Option Cx1 :=
  (K.deriveShareNode root account share >>= K.cashNodeToCx1).toOption

/-- What the SERVICE knows the share's note by, from the `cx1` alone. -/
def KeyCrates.watcherNote (K : KeyCrates) (cx1 : Cx1) (index : UInt32) : Option (ByteArr 32) :=
  (K.deriveNotePubkey cx1 index).toOption

theorem KeyCrates.cashNodePublicKey_eq_ok {node : CashNode} {pubkey : ByteArr 33} :
    K.cashNodePublicKey node = .ok pubkey ↔ K.isSecretKey node.privateKey ∧ pubkey = K.publicKeyOf node.privateKey := by
  unfold cashNodePublicKey
  split
  · rename_i valid
    rw [Except.ok.injEq, eq_comm]
    exact (and_iff_right valid).symm
  · rename_i invalid
    simp [invalid]

theorem KeyCrates.holderNote_eq_some {root : CashNode} {account share index : UInt32} {key : ByteArr 32} :
    K.holderNote root account share index = some key ↔ index < hardened ∧
      ∃ node child, K.deriveShareNode root account share = .ok node ∧ K.deriveCashChild node index = .ok child ∧
        K.isSecretKey child.privateKey ∧ key = (K.publicKeyOf child.privateKey).tail := by
  rw [holderNote, toOption_eq_some]
  constructor
  · intro held
    cases derived : K.deriveNoteKey root (.share account share index) with
    | error error =>
      rw [derived] at held
      cases held
    | ok noteKey =>
      rw [derived] at held
      cases held
      obtain ⟨plain, node, child, shares, last, pubkey, point, rfl⟩ := deriveNoteKey_share.mp derived
      obtain ⟨valid, rfl⟩ := cashNodePublicKey_eq_ok.mp point
      exact ⟨plain, node, child, shares, last, valid, rfl⟩
  · rintro ⟨plain, node, child, shares, last, valid, rfl⟩
    rw [deriveNoteKey_share.mpr ⟨plain, node, child, shares, last, _, cashNodePublicKey_eq_ok.mpr ⟨valid, rfl⟩, rfl⟩]
    rfl

theorem KeyCrates.shareCx1_eq_some {root : CashNode} {account share : UInt32} {cx1 : Cx1} :
    K.shareCx1 root account share = some cx1 ↔ ∃ node, K.deriveShareNode root account share = .ok node ∧
      K.isSecretKey node.privateKey ∧ cx1 = { chainCode := node.chainCode, pubkey := K.publicKeyOf node.privateKey } := by
  simp only [shareCx1, toOption_eq_some, bind_eq_ok, cashNodeToCx1, pure_eq_ok, cashNodePublicKey_eq_ok]
  constructor
  · rintro ⟨node, shares, _, ⟨valid, rfl⟩, rfl⟩
    exact ⟨node, shares, valid, rfl⟩
  · rintro ⟨node, shares, valid, rfl⟩
    exact ⟨node, shares, _, ⟨valid, rfl⟩, rfl⟩

theorem KeyCrates.watcherNote_eq_some {cx1 : Cx1} {index : UInt32} {key : ByteArr 32} :
    K.watcherNote cx1 index = some key ↔ ∃ pubkey chainCode,
      K.deriveCashChildPub cx1.pubkey cx1.chainCode index = .ok (pubkey, chainCode) ∧ key = pubkey.tail := by
  simp only [watcherNote, toOption_eq_some, deriveNotePubkey, bind_eq_ok, pure_eq_ok, Prod.exists, eq_comm (a := key)]

theorem KeyCrates.OnCurve.shareNode_valid (on : K.OnCurve curve) {root node : CashNode} {account share : UInt32}
    (derived : K.deriveShareNode root account share = .ok node) : K.isSecretKey node.privateKey := by
  simp only [deriveShareNode, bind_eq_ok] at derived
  obtain ⟨_, _, _, _, _, _, _, _, last⟩ := derived
  exact on.child_valid last

/-- A share's `cx1` survives being written and read back. -/
theorem KeyCrates.OnCurve.decodeCx1_shareCx1 (on : K.OnCurve curve) {root : CashNode} {account share : UInt32} {cx1 : Cx1}
    (exported : K.shareCx1 root account share = some cx1) : K.decodeCx1 (encodeCx1 cx1) = some cx1 := by
  obtain ⟨node, _, valid, rfl⟩ := shareCx1_eq_some.mp exported
  have onCurve := on.isPublicKey valid
  have read := (K.cx1_oneSpelling.reads { chainCode := node.chainCode, pubkey := K.publicKeyOf node.privateKey } onCurve
    [] [] (by simp) (by simp)).1
  rwa [List.nil_append, List.append_nil] at read

/-- The holder and a SERVICE that has only the share's `cx1` name the same
note, or neither can, whether or not the `cx1` was sent as a string. -/
theorem KeyCrates.OnCurve.watcher_agrees (on : K.OnCurve curve) (root : CashNode) (account share index : UInt32) :
    ((K.shareCx1 root account share).bind fun cx1 => K.watcherNote cx1 index) = K.holderNote root account share index ∧
      ((K.shareCx1 root account share).bind fun cx1 =>
        (K.decodeCx1 (encodeCx1 cx1)).bind fun cx1 => K.watcherNote cx1 index) = K.holderNote root account share index := by
  have agree : ((K.shareCx1 root account share).bind fun cx1 => K.watcherNote cx1 index) =
      K.holderNote root account share index := by
    apply Option.ext
    intro key
    rw [Option.bind_eq_some_iff, holderNote_eq_some]
    constructor
    · rintro ⟨cx1, exported, watched⟩
      obtain ⟨node, shares, valid, rfl⟩ := shareCx1_eq_some.mp exported
      obtain ⟨pubkey, chainCode, derived, rfl⟩ := watcherNote_eq_some.mp watched
      have plain : index < hardened := by
        simp only [deriveCashChildPub, bind_eq_ok, refuseIf_eq_ok] at derived
        obtain ⟨_, low, _⟩ := derived
        exact UInt32.not_le.mp low
      rcases on.child valid plain with ⟨_, refused⟩ | ⟨child, childValid, last, pub⟩
      · rw [derived] at refused
        cases refused
      · rw [derived] at pub
        cases pub
        exact ⟨plain, node, child, shares, last, childValid, rfl⟩
    · rintro ⟨plain, node, child, shares, last, _, rfl⟩
      have valid := on.shareNode_valid shares
      refine ⟨_, shareCx1_eq_some.mpr ⟨node, shares, valid, rfl⟩, watcherNote_eq_some.mpr ?_⟩
      rcases on.child valid plain with ⟨refused, _⟩ | ⟨other, _, same, pub⟩
      · rw [last] at refused
        cases refused
      · cases last.symm.trans same
        exact ⟨_, _, pub, rfl⟩
  refine ⟨agree, ?_⟩
  rw [← agree]
  apply Option.bind_congr
  intro cx1 exported
  rw [on.decodeCx1_shareCx1 exported, Option.bind_some]

end Derivation

/-! ### A group in which one note is derived -/

/-- The secret keys at `S/0'`, `S/0'/2/0'` and `S/0'/2/0'/0` whose points the derivation below meets. -/
def metScalars : List Nat := [
  0x8484174490488a5484c9d51cdbd56d8d22f79644171283828e1773a4cba424e7,
  0x4b01223f0ba83beb9f30572d660226bd0e7657aee29df6aad98098875b39bf5d,
  0x8cd6c78c24ed293e4b1d0a84d364cbc208adb760aec85c6fa2f052a265d1f26c]

/-- The integers modulo `n`, spelled as the real points where the derivation meets them. -/
def tabledSpelling (k : Nat) : ByteArr 33 :=
  if k ∈ metScalars then Secp256k1.publicKey (Bytes.beArr 32 k) else ⟨4 :: Bytes.be 32 k, by simp⟩

def tabledScalar (pubkey : ByteArr 33) : Option Nat :=
  let k := Bytes.beNat (pubkey.toList.drop 1)
  if pubkey.get 0 = 4 then if 0 < k ∧ k < curveOrder ∧ k ∉ metScalars then some k else none
  else metScalars.find? fun k => Secp256k1.publicKey (Bytes.beArr 32 k) = pubkey

def tabledKeys : KeyCrates := { referenceKeys with
  publicKeyOf := fun key => tabledSpelling (Bytes.beNat key.toList)
  isPublicKey := fun pubkey => (tabledScalar pubkey).isSome
  addExpTweak := fun pubkey tweak => do
    let k ← tabledScalar pubkey
    if (k + Bytes.beNat tweak.toList) % curveOrder = 0 then none
    else some (tabledSpelling ((k + Bytes.beNat tweak.toList) % curveOrder)) }

def tabledCurve : KeyGroup (ZMod curveOrder) curveOrder (ByteArr 33) where
  generator := 1
  order := ZMod.addOrderOf_one curveOrder
  spell P := tabledSpelling P.val

theorem tabledScalar_tabledSpelling {k : Nat} (positive : 0 < k) (small : k < curveOrder) :
    tabledScalar (tabledSpelling k) = some k := by
  have met : ∀ k ∈ metScalars, tabledScalar (tabledSpelling k) = some k := by decide +kernel
  by_cases member : k ∈ metScalars
  · exact met k member
  · have value : Bytes.beNat (Bytes.be 32 k) = k := beNat_beArr_of_lt small
    simp [tabledSpelling, tabledScalar, member, ByteArr.get, value, positive, small]

theorem tabledCurve_point (k : Nat) : (tabledCurve.point k).val = k % curveOrder := by
  have multiple : tabledCurve.point k = (k : ZMod curveOrder) := nsmul_one k
  rw [multiple, ZMod.val_natCast]

theorem tabledCurve_add (P : ZMod curveOrder) (t : Nat) :
    (P + tabledCurve.point t).val = (P.val + t) % curveOrder := by
  rw [ZMod.val_add, tabledCurve_point, Nat.add_mod_mod]

theorem tabledScalar_spell {P : ZMod curveOrder} (nonzero : P ≠ 0) : tabledScalar (tabledCurve.spell P) = some P.val :=
  tabledScalar_tabledSpelling (Nat.pos_of_ne_zero ((ZMod.val_ne_zero P).mpr nonzero)) (ZMod.val_lt P)

theorem tabledKeys_onCurve : tabledKeys.OnCurve tabledCurve where
  isSecretKey_iff := by
    intro key
    exact decide_eq_true_iff
  publicKeyOf_eq := by
    intro key valid
    obtain ⟨_, bound⟩ := of_decide_eq_true (show decide _ = true from valid)
    have small : Bytes.beNat key.toList < curveOrder := bound
    have value : (tabledCurve.point (Bytes.beNat key.toList)).val = Bytes.beNat key.toList := by
      rw [tabledCurve_point, Nat.mod_eq_of_lt small]
    exact congrArg tabledSpelling value.symm
  addSecretTweak_eq := by
    intro key tweak _ _
    rfl
  isPublicKey_of_point := by
    intro P nonzero
    have found := tabledScalar_spell nonzero
    exact Option.isSome_iff_exists.mpr ⟨_, found⟩
  addExpTweak_infinity := by
    intro P tweak nonzero _ infinity
    have zero : (P.val + Bytes.beNat tweak.toList) % curveOrder = 0 := by
      rw [← tabledCurve_add, infinity, ZMod.val_zero]
    have found := tabledScalar_spell nonzero
    simp only [tabledKeys, found, Option.bind_eq_bind, Option.bind_some, zero, if_true]
  addExpTweak_eq := by
    intro P tweak nonzero _ finite
    have sum := tabledCurve_add P (Bytes.beNat tweak.toList)
    have nonzeroSum : ¬(P.val + Bytes.beNat tweak.toList) % curveOrder = 0 := by
      rw [← sum]
      exact (ZMod.val_ne_zero _).mpr finite
    have found := tabledScalar_spell nonzero
    simp only [tabledKeys, found, Option.bind_eq_bind, Option.bind_some, if_neg nonzeroSum]
    exact congrArg (fun k => some (tabledSpelling k)) sum.symm

def exampleRoot : CashNode where
  privateKey := Bytes.beArr 32 12345
  chainCode := Bytes.beArr 32 999

/-- The first note of that root's first share, as secp256k1 itself has it. -/
def firstShareNote : ByteArr 32 :=
  Bytes.beArr 32 0x3d948ecff08a772423ab3888ef59eefb9651bc394a66aa5c53bf799d6f025565

theorem firstShareNote_watched :
    ((tabledKeys.shareCx1 exampleRoot 0 0).bind fun cx1 => tabledKeys.watcherNote cx1 0) = some firstShareNote ∧
      referenceKeys.holderNote exampleRoot 0 0 0 = some firstShareNote := by
  have held : tabledKeys.holderNote exampleRoot 0 0 0 = some firstShareNote := by decide +kernel
  exact ⟨(tabledKeys_onCurve.watcher_agrees exampleRoot 0 0 0).1.trans held, by decide +kernel⟩

end LnurlCash
