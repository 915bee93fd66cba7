import LnurlCash.Lib.Text
import Mathlib.Data.Nat.Bitwise

namespace LnurlCash

def locktimeThreshold : UInt32 := 500000000

def sequenceDisableFlag : UInt32 := 0x80000000

def sequenceTypeFlag : UInt32 := 0x400000

def sequenceValueMask : UInt32 := 0xffff

def sequenceGranularitySeconds : Int64 := 512

def requiredSeconds (sequence : UInt32) : Int64 :=
  (sequence &&& sequenceValueMask).toUInt64.toInt64 * sequenceGranularitySeconds

/-- Both clocks cast to `i64` before they are subtracted, wrapping as a release build does. -/
def elapsedSeconds (now lockedAt : UInt64) : Int64 := now.toInt64 - lockedAt.toInt64

/-- Why a spend's time claim is not due by a mint's clock, if it is not. -/
def checkTimeClaim (locktime sequence : UInt32) (now lockedAt : UInt64) : Option Str :=
  if locktime ≠ 0 ∧ locktime < locktimeThreshold then
    some "block-height locktimes have no meaning without a chain".toList
  else if locktime ≠ 0 ∧ locktime.toUInt64 > now then
    some ("locktime ".toList ++ Str.decimal locktime.toNat ++ " is in the future".toList)
  else if sequence &&& sequenceDisableFlag ≠ 0 then none
  else if sequence &&& sequenceTypeFlag = 0 then
    some "block-count relative locks have no meaning without a chain".toList
  else if elapsedSeconds now lockedAt < requiredSeconds sequence then
    some ("relative lock of ".toList ++ Str.decimal (requiredSeconds sequence).toInt.toNat ++ "s not yet satisfied".toList)
  else none

/-! ### The rule over the integers -/

variable {locktime sequence : UInt32} {now lockedAt later : UInt64}

def requiredLock (sequence : UInt32) : Nat := 512 * (sequence.toNat % 65536)

def LocktimeDue (locktime : UInt32) (now : UInt64) : Prop :=
  locktime = 0 ∨ 500000000 ≤ locktime.toNat ∧ locktime.toNat ≤ now.toNat

/-- The claim is for a time, that has come, and its relative lock is off or has run out. -/
def TimeClaimDue (locktime sequence : UInt32) (now lockedAt : UInt64) : Prop :=
  LocktimeDue locktime now ∧ (sequence.toNat.testBit 31 ∨
    sequence.toNat.testBit 22 ∧ (requiredLock sequence : Int) ≤ now.toNat - lockedAt.toNat)

/-- The subtraction of the clocks is reached. -/
def ReadsClocks (locktime sequence : UInt32) (now : UInt64) : Prop :=
  LocktimeDue locktime now ∧ sequence.toNat.testBit 31 = false ∧ sequence.toNat.testBit 22

/-- No step overflows, and the check is the rule. -/
structure ExactTimeClaim (locktime sequence : UInt32) (now lockedAt : UInt64) : Prop where
  lock_fits : ((sequence &&& sequenceValueMask).toNat : Int) * 512 < 2 ^ 63
  clocks_fit : ReadsClocks locktime sequence now →
    -2 ^ 63 ≤ now.toInt64.toInt - lockedAt.toInt64.toInt ∧ now.toInt64.toInt - lockedAt.toInt64.toInt < 2 ^ 63
  exact : checkTimeClaim locktime sequence now lockedAt = none ↔ TimeClaimDue locktime sequence now lockedAt

theorem toInt_toInt64 (clock : UInt64) :
    clock.toInt64.toInt = if clock.toNat < 2 ^ 63 then (clock.toNat : Int) else clock.toNat - 2 ^ 64 := by
  have whole : clock.toInt64.toInt = clock.toBitVec.toInt := rfl
  rw [whole, BitVec.toInt_eq_toNat_cond, UInt64.toNat_toBitVec]
  split <;> split <;> omega

theorem flag_set_iff {flag : UInt32} {bit : Nat} (flagged : flag.toNat = 2 ^ bit) :
    sequence &&& flag ≠ 0 ↔ sequence.toNat.testBit bit := by
  rw [Ne, ← UInt32.toNat_inj, UInt32.toNat_and, flagged, Nat.and_two_pow]
  cases sequence.toNat.testBit bit <;> simp

theorem requiredSeconds_toInt (sequence : UInt32) : (requiredSeconds sequence).toInt = requiredLock sequence := by
  have masked : (sequence &&& sequenceValueMask).toNat = sequence.toNat % 65536 := by
    rw [UInt32.toNat_and, show sequenceValueMask.toNat = 2 ^ 16 - 1 by decide, Nat.and_two_pow_sub_one_eq_mod]
  have count : (sequence &&& sequenceValueMask).toUInt64.toInt64.toInt = sequence.toNat % 65536 := by
    rw [toInt_toInt64, UInt32.toNat_toUInt64, masked, if_pos (by omega)]
    omega
  rw [requiredSeconds, Int64.toInt_mul, count, show sequenceGranularitySeconds.toInt = 512 by decide, Int.bmod_eq_of_le
    (by omega) (by omega), requiredLock]
  omega

theorem requiredLock_le (sequence : UInt32) : requiredLock sequence ≤ 33553920 := by
  rw [requiredLock]
  omega

theorem checkTimeClaim_eq_none :
    checkTimeClaim locktime sequence now lockedAt = none ↔ LocktimeDue locktime now ∧
      (sequence.toNat.testBit 31 ∨ sequence.toNat.testBit 22 ∧
        (requiredLock sequence : Int) ≤ (elapsedSeconds now lockedAt).toInt) := by
  have disable : sequence &&& sequenceDisableFlag ≠ 0 ↔ sequence.toNat.testBit 31 := flag_set_iff (by decide)
  have kind : sequence &&& sequenceTypeFlag ≠ 0 ↔ sequence.toNat.testBit 22 := flag_set_iff (by decide)
  have waits : elapsedSeconds now lockedAt < requiredSeconds sequence ↔
      ¬(requiredLock sequence : Int) ≤ (elapsedSeconds now lockedAt).toInt := by
    rw [Int64.lt_iff_toInt_lt, requiredSeconds_toInt, Int.not_le]
  have due : ¬(locktime ≠ 0 ∧ locktime < locktimeThreshold) ∧ ¬(locktime ≠ 0 ∧ locktime.toUInt64 > now) ↔
      LocktimeDue locktime now := by
    have threshold : locktime < locktimeThreshold ↔ locktime.toNat < 500000000 := UInt32.lt_iff_toNat_lt
    have ahead : locktime.toUInt64 > now ↔ now.toNat < locktime.toNat := UInt64.lt_iff_toNat_lt
    rw [threshold, ahead, LocktimeDue]
    by_cases zero : locktime = 0
    · simp [zero]
    · simp [zero]
  rw [checkTimeClaim, ← due]
  split_ifs with blocks ahead off counted short
  · simp [blocks]
  · simp [ahead]
  · simp [blocks, ahead, disable.mp off]
  · simp [blocks, ahead, off, counted, ← disable, ← kind]
  · simp [blocks, ahead, off, counted, ← disable, ← kind, waits.mp short]
  · simp [blocks, ahead, off, counted, ← disable, ← kind, not_not.mp (waits.not.mp short)]

theorem TimeClaimDue.mono (due : TimeClaimDue locktime sequence now lockedAt) (passes : now ≤ later) :
    TimeClaimDue locktime sequence later lockedAt := by
  have more : now.toNat ≤ later.toNat := UInt64.le_iff_toNat_le.mp passes
  obtain ⟨time, lock⟩ := due
  refine ⟨time.imp_right fun come => ⟨come.1, come.2.trans more⟩, lock.imp_right fun run => ⟨run.1, ?_⟩⟩
  have out := run.2
  omega

/-- The clocks are on one side of the sign bit, or the wrapped difference is short of the lock as well. -/
def ClocksCompare (sequence : UInt32) (now lockedAt : UInt64) : Prop :=
  (now.toNat < 2 ^ 63 ↔ lockedAt.toNat < 2 ^ 63) ∨ 2 ^ 64 + now.toNat < lockedAt.toNat + requiredLock sequence

theorem lock_fits (sequence : UInt32) : ((sequence &&& sequenceValueMask).toNat : Int) * 512 < 2 ^ 63 := by
  have small := (sequence &&& sequenceValueMask).toNat_lt
  omega

theorem exact_of_not_readsClocks (early : ¬ReadsClocks locktime sequence now) :
    ExactTimeClaim locktime sequence now lockedAt where
  lock_fits := lock_fits sequence
  clocks_fit := fun reads => absurd reads early
  exact := by
    rw [checkTimeClaim_eq_none, TimeClaimDue]
    rw [ReadsClocks] at early
    cases off : sequence.toNat.testBit 31 with
    | true => simp
    | false =>
      have uncounted : LocktimeDue locktime now → ¬sequence.toNat.testBit 22 := fun due timed => early ⟨due, off, timed⟩
      constructor
      · rintro ⟨due, kind⟩
        exact absurd (kind.resolve_left (by simp)).1 (uncounted due)
      · rintro ⟨due, kind⟩
        exact absurd (kind.resolve_left (by simp)).1 (uncounted due)

theorem exact_iff_of_readsClocks (reads : ReadsClocks locktime sequence now) :
    ExactTimeClaim locktime sequence now lockedAt ↔ ClocksCompare sequence now lockedAt := by
  obtain ⟨due, off, timed⟩ := reads
  have lock := requiredLock_le sequence
  have nowBound := now.toNat_lt
  have creditBound := lockedAt.toNat_lt
  have nowSigned := toInt_toInt64 now
  have creditSigned := toInt_toInt64 lockedAt
  have wrapped := Int64.toInt_sub now.toInt64 lockedAt.toInt64
  have rule : TimeClaimDue locktime sequence now lockedAt ↔
      (requiredLock sequence : Int) ≤ now.toNat - lockedAt.toNat := by
    simp [TimeClaimDue, due, off, timed]
  have checked : checkTimeClaim locktime sequence now lockedAt = none ↔
      (requiredLock sequence : Int) ≤ (elapsedSeconds now lockedAt).toInt := by
    simp [checkTimeClaim_eq_none, due, off, timed]
  rw [ClocksCompare]
  constructor
  · intro exact
    obtain ⟨low, high⟩ := exact.clocks_fit ⟨due, off, timed⟩
    rw [Int.bmod_eq_of_le (by omega) (by omega)] at wrapped
    have same := checked.symm.trans (exact.exact.trans rule)
    rw [elapsedSeconds, wrapped] at same
    split at nowSigned <;> split at creditSigned <;> omega
  · intro compare
    have fits : -2 ^ 63 ≤ now.toInt64.toInt - lockedAt.toInt64.toInt ∧
        now.toInt64.toInt - lockedAt.toInt64.toInt < 2 ^ 63 := by
      split at nowSigned <;> split at creditSigned <;> omega
    refine ⟨lock_fits sequence, fun _ => fits, ?_⟩
    rw [Int.bmod_eq_of_le (by omega) (by omega)] at wrapped
    rw [checked, rule, elapsedSeconds, wrapped]
    split at nowSigned <;> split at creditSigned <;> omega

/-- The check is the rule exactly where it never compares clocks on two sides of
the sign bit; and where it is the rule, a claim that is due stays due. -/
theorem timeClaim_exact_iff (locktime sequence : UInt32) (now lockedAt : UInt64) :
    (ExactTimeClaim locktime sequence now lockedAt ↔
      (ReadsClocks locktime sequence now → ClocksCompare sequence now lockedAt)) ∧
      ∀ later, now ≤ later → ExactTimeClaim locktime sequence now lockedAt →
        ExactTimeClaim locktime sequence later lockedAt → checkTimeClaim locktime sequence now lockedAt = none →
          checkTimeClaim locktime sequence later lockedAt = none := by
  constructor
  · by_cases reads : ReadsClocks locktime sequence now
    · rw [exact_iff_of_readsClocks reads, forall_prop_of_true reads]
    · exact iff_of_true (exact_of_not_readsClocks reads) fun read => absurd read reads
  · intro later passes exact exactLater come
    exact exactLater.exact.mpr ((exact.exact.mp come).mono passes)

/-- A lock of no time at all, credited at 0: due the second before the clock reaches
the sign bit and not at it; and due at 0 when credited at the last second. -/
theorem timeClaim_wraps :
    ¬ExactTimeClaim 0 sequenceTypeFlag (UInt64.ofNat (2 ^ 63)) 0 ∧
      checkTimeClaim 0 sequenceTypeFlag (UInt64.ofNat (2 ^ 63 - 1)) 0 = none ∧
      checkTimeClaim 0 sequenceTypeFlag (UInt64.ofNat (2 ^ 63)) 0 =
        some "relative lock of 0s not yet satisfied".toList ∧
      ¬ExactTimeClaim 0 sequenceTypeFlag 0 (UInt64.ofNat (2 ^ 64 - 1)) ∧
      checkTimeClaim 0 sequenceTypeFlag 0 (UInt64.ofNat (2 ^ 64 - 1)) = none := by
  have due : TimeClaimDue 0 sequenceTypeFlag (UInt64.ofNat (2 ^ 63)) 0 :=
    ⟨Or.inl rfl, Or.inr ⟨by decide, by decide⟩⟩
  have early : ¬TimeClaimDue 0 sequenceTypeFlag 0 (UInt64.ofNat (2 ^ 64 - 1)) := by
    rintro ⟨_, off | ⟨_, out⟩⟩
    · exact absurd off (by decide)
    · exact absurd out (by decide)
  have refused : checkTimeClaim 0 sequenceTypeFlag (UInt64.ofNat (2 ^ 63)) 0 =
      some "relative lock of 0s not yet satisfied".toList := by decide
  have passed : checkTimeClaim 0 sequenceTypeFlag 0 (UInt64.ofNat (2 ^ 64 - 1)) = none := by decide
  refine ⟨fun exact => ?_, by decide, refused, fun exact => early (exact.exact.mp passed), passed⟩
  rw [exact.exact.mpr due] at refused
  cases refused

end LnurlCash
