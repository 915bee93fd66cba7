import Mathlib.Algebra.GroupWithZero.Nat
import Mathlib.Data.List.Induction
import Mathlib.Tactic.Common

abbrev Bytes := List UInt8

/-- A fixed-size array of bytes, `[u8; n]`. -/
@[ext] structure ByteArr (n : Nat) where
  toList : Bytes
  size : toList.length = n
  deriving DecidableEq

theorem ByteArr.toList_injective {n : Nat} : Function.Injective (@ByteArr.toList n) := fun _ _ => ByteArr.ext

def ByteArr.get {n : Nat} (arr : ByteArr n) (i : Nat) : UInt8 := arr.toList.getD i 0

def ByteArr.halves (arr : ByteArr 64) : ByteArr 32 × ByteArr 32 :=
  (⟨arr.toList.take 32, by simp [arr.size]⟩, ⟨arr.toList.drop 32, by simp [arr.size]⟩)

/-- A compressed point without its first byte: the x coordinate. -/
def ByteArr.tail {n : Nat} (arr : ByteArr (n + 1)) : ByteArr n := ⟨arr.toList.drop 1, by simp [arr.size]⟩

namespace Bytes

/-- What holds of each of the 256 bytes, which can be tried, holds of every byte. -/
theorem forall_byte {P : UInt8 → Prop} (all : ∀ n : Fin 256, P (UInt8.ofFin n)) (byte : UInt8) : P byte := all byte.toFin

def toArr (n : Nat) (bytes : Bytes) : Option (ByteArr n) := if size : bytes.length = n then some ⟨bytes, size⟩ else none

/-- The `k` low bytes of `n`, least significant first. -/
def le : Nat → Nat → Bytes
  | 0, _ => []
  | k + 1, n => UInt8.ofNat n :: le k (n / 256)

def beNat (bytes : Bytes) : Nat := bytes.foldl (fun n b => 256 * n + b.toNat) 0

def be (k n : Nat) : Bytes := (le k n).reverse

def chunks (n : Nat) : Nat → Bytes → List (ByteArr n)
  | 0, _ => []
  | count + 1, bytes =>
    match toArr n (bytes.take n) with
    | none => []
    | some chunk => chunk :: chunks n count (bytes.drop n)

/-- The whole pieces of `n` bytes; a short last piece is dropped. -/
def chunksExact (n : Nat) (bytes : Bytes) : List (ByteArr n) := chunks n (bytes.length / n) bytes

@[simp] theorem length_le (k n : Nat) : (le k n).length = k := by
  induction k generalizing n with
  | zero => rfl
  | succ k ih => simp [le, ih]

@[simp] theorem length_be (k n : Nat) : (be k n).length = k := by
  rw [be, List.length_reverse, length_le]

def beArr (k n : Nat) : ByteArr k := ⟨be k n, length_be k n⟩

theorem le_inj {k m n : Nat} (left : m < 256 ^ k) (right : n < 256 ^ k) (equal : le k m = le k n) : m = n := by
  induction k generalizing m n with
  | zero => simp at left right; omega
  | succ k ih =>
    simp only [le, List.cons.injEq] at equal
    rw [Nat.pow_succ] at left right
    have high := ih (Nat.div_lt_of_lt_mul (by omega)) (Nat.div_lt_of_lt_mul (by omega)) equal.2
    have low := congrArg UInt8.toNat equal.1
    simp only [UInt8.toNat_ofNat'] at low
    omega

theorem le_word_inj {m n : UInt32} (equal : le 4 m.toNat = le 4 n.toNat) : m = n :=
  UInt32.toNat_inj.mp (le_inj m.toNat_lt n.toNat_lt equal)

theorem beNat_concat (bytes : Bytes) (b : UInt8) : beNat (bytes ++ [b]) = 256 * beNat bytes + b.toNat := by
  simp [beNat]

theorem beNat_be {k n : Nat} (small : n < 256 ^ k) : beNat (be k n) = n := by
  induction k generalizing n with
  | zero =>
    rw [Nat.pow_zero] at small
    rw [show n = 0 by omega]
    rfl
  | succ k ih =>
    rw [Nat.pow_succ] at small
    have high : beNat (be k (n / 256)) = n / 256 := ih (Nat.div_lt_of_lt_mul (by omega))
    rw [be, le, List.reverse_cons, ← be, beNat_concat, high, UInt8.toNat_ofNat']
    omega

theorem beNat_lt (bytes : Bytes) : beNat bytes < 256 ^ bytes.length := by
  induction bytes using List.reverseRecOn with
  | nil => decide
  | append_singleton bytes b ih =>
    have small := b.toNat_lt
    rw [beNat_concat, List.length_append, List.length_singleton, Nat.pow_succ]
    omega

/-- A run of bytes is the one spelling of its value at its length. -/
theorem be_beNat (bytes : Bytes) : be bytes.length (beNat bytes) = bytes := by
  induction bytes using List.reverseRecOn with
  | nil => rfl
  | append_singleton bytes b ih =>
    have small := b.toNat_lt
    have high : (256 * beNat bytes + b.toNat) / 256 = beNat bytes := by omega
    have low : UInt8.ofNat (256 * beNat bytes + b.toNat) = b := by
      rw [← UInt8.toNat_inj, UInt8.toNat_ofNat']
      omega
    rw [beNat_concat, List.length_append, List.length_singleton, be, le, List.reverse_cons, ← be, high, low, ih]

theorem le_beNat_reverse (bytes : Bytes) : le bytes.length (beNat bytes.reverse) = bytes := by
  have reversed := be_beNat bytes.reverse
  rwa [be, List.length_reverse, List.reverse_inj] at reversed

/-- Pieces of one size laid end to end are taken apart again. -/
theorem chunks_flatten {n : Nat} (pieces : List (ByteArr n)) :
    chunks n pieces.length (pieces.map ByteArr.toList).flatten = pieces := by
  induction pieces with
  | nil => rfl
  | cons piece rest ih =>
    have whole : toArr n piece.toList = some piece := by simp [toArr, piece.size]
    rw [List.map_cons, List.flatten_cons, List.length_cons, chunks, List.take_left' piece.size,
      List.drop_left' piece.size, ih, whole]

theorem length_flatten_pieces {n : Nat} (pieces : List (ByteArr n)) :
    (pieces.map ByteArr.toList).flatten.length = n * pieces.length := by
  induction pieces with
  | nil => rfl
  | cons piece rest ih =>
    rw [List.map_cons, List.flatten_cons, List.length_append, ih, piece.size, List.length_cons, Nat.mul_succ, Nat.add_comm]

theorem chunksExact_flatten {n : Nat} (positive : 0 < n) (pieces : List (ByteArr n)) :
    chunksExact n (pieces.map ByteArr.toList).flatten = pieces := by
  rw [chunksExact, length_flatten_pieces, Nat.mul_div_cancel_left _ positive, chunks_flatten]

theorem be_word {bytes : Bytes} (size : bytes.length = 4) : be 4 (UInt32.ofNat (beNat bytes)).toNat = bytes := by
  have bound := beNat_lt bytes
  rw [size] at bound
  rw [UInt32.toNat_ofNat_of_lt' bound, ← size, be_beNat]

theorem toArr_eq_some {n : Nat} {bytes : Bytes} {arr : ByteArr n} : toArr n bytes = some arr ↔ bytes = arr.toList := by
  unfold toArr
  split
  · rw [Option.some.injEq, ByteArr.ext_iff]
  · rename_i wrong
    simp only [reduceCtorEq, false_iff]
    rintro rfl
    exact wrong arr.size

@[simp] theorem toArr_toList {n : Nat} (arr : ByteArr n) : toArr n arr.toList = some arr := toArr_eq_some.mpr rfl

end Bytes
