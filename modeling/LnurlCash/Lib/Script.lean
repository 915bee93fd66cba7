import LnurlCash.Lib.Bytes

/-! Tapscript's bytes as instructions, and what a small part of it computes. -/

namespace Script

/-- One opcode, with the data it pushes behind a length of its own form. -/
inductive Instruction where
  | opcode (op : UInt8) (plain : op = 0 ∨ 0x4e < op)
  | push (data : Bytes) (sized : 1 ≤ data.length ∧ data.length ≤ 75)
  | pushData1 (data : Bytes) (sized : data.length < 2 ^ 8)
  | pushData2 (data : Bytes) (sized : data.length < 2 ^ 16)
  | pushData4 (data : Bytes) (sized : data.length < 2 ^ 32)
  deriving DecidableEq

namespace Instruction

def bytes : Instruction → Bytes
  | opcode op _ => [op]
  | push data _ => UInt8.ofNat data.length :: data
  | pushData1 data _ => 0x4c :: (Bytes.le 1 data.length ++ data)
  | pushData2 data _ => 0x4d :: (Bytes.le 2 data.length ++ data)
  | pushData4 data _ => 0x4e :: (Bytes.le 4 data.length ++ data)

def opcode? : Instruction → Option UInt8
  | opcode op _ => some op
  | _ => none

theorem bytes_pos (instruction : Instruction) : 0 < instruction.bytes.length := by
  cases instruction <;> exact Nat.succ_pos _

end Instruction

def serialize (instructions : List Instruction) : Bytes := instructions.flatMap Instruction.bytes

/-- BIP-342's OP_SUCCESSx. -/
def opSuccessRanges : List (Nat × Nat) :=
  [(80, 80), (98, 98), (126, 129), (131, 134), (137, 138), (141, 142), (149, 153), (187, 254)]

def IsOpSuccess (op : UInt8) : Prop := ∃ range ∈ opSuccessRanges, range.1 ≤ op.toNat ∧ op.toNat ≤ range.2

instance (op : UInt8) : Decidable (IsOpSuccess op) :=
  inferInstanceAs (Decidable (∃ range ∈ opSuccessRanges, range.1 ≤ op.toNat ∧ op.toNat ≤ range.2))

/-- Reading instruction by instruction meets an OP_SUCCESSx. -/
def MeetsOpSuccess (script : Bytes) : Prop :=
  ∃ before op rest, script = serialize before ++ op :: rest ∧ IsOpSuccess op

theorem plain_of_isOpSuccess : ∀ op : UInt8, IsOpSuccess op → op = 0 ∨ 0x4e < op :=
  Bytes.forall_byte (by decide +kernel)

@[simp] theorem serialize_nil : serialize [] = [] := rfl

@[simp] theorem serialize_cons (instruction : Instruction) (rest : List Instruction) :
    serialize (instruction :: rest) = instruction.bytes ++ serialize rest := rfl

/-! ### The hash and equality opcodes -/

section Execution

variable (sha256 : Bytes → Bytes)

/-- Pushes, OP_SHA256 and OP_EQUAL on a stack with its top first. An empty
stack, or any other opcode, is not executed. -/
def step : Instruction → List Bytes → Option (List Bytes)
  | .opcode op _, stack =>
    if op = 0xa8 then
      match stack with
      | top :: rest => some (sha256 top :: rest)
      | [] => none
    else if op = 0x87 then
      match stack with
      | a :: b :: rest => some ((if a = b then [1] else []) :: rest)
      | _ => none
    else none
  | .push data _, stack | .pushData1 data _, stack | .pushData2 data _, stack | .pushData4 data _, stack =>
    some (data :: stack)

def run : List Instruction → List Bytes → Option (List Bytes)
  | [], stack => some stack
  | instruction :: rest, stack => (step sha256 instruction stack).bind (run rest)

/-- Some byte is not zero, a sign bit in the last one apart. -/
def isTrue (element : Bytes) : Bool :=
  element.dropLast.any (· ≠ 0) || element.getLast?.any fun last => decide (last ≠ 0 ∧ last ≠ 0x80)

def maxElementSize : Nat := 520

/-- The witness starts no stack element too large, and the script leaves one element, a true one. -/
def Satisfies (script : List Instruction) (witness : List Bytes) : Prop :=
  (∀ element ∈ witness, element.length ≤ maxElementSize) ∧
    ∃ top, run sha256 script witness.reverse = some [top] ∧ isTrue top

end Execution

/-- OP_SHA256, a push of `h`, OP_EQUAL. -/
def hashlock (h : ByteArr 32) : List Instruction :=
  [.opcode 0xa8 (by decide), .push h.toList (by rw [h.size]; decide), .opcode 0x87 (by decide)]

variable {sha256 : Bytes → Bytes} {h : ByteArr 32} {witness : List Bytes}

theorem run_hashlock (stack : List Bytes) :
    run sha256 (hashlock h) stack =
      match stack with
      | [] => none
      | top :: rest => some ((if h.toList = sha256 top then [1] else []) :: rest) := by
  cases stack <;> rfl

/-- Only a lone preimage of the hash, not too large, satisfies a hashlock. -/
theorem satisfies_hashlock_iff :
    Satisfies sha256 (hashlock h) witness ↔
      ∃ preimage, witness = [preimage] ∧ preimage.length ≤ maxElementSize ∧ sha256 preimage = h.toList := by
  constructor
  · rintro ⟨sized, top, ran, holds⟩
    rw [run_hashlock] at ran
    cases reversed : witness.reverse with
    | nil =>
      rw [reversed] at ran
      cases ran
    | cons preimage rest =>
      rw [reversed, Option.some.injEq, List.cons.injEq] at ran
      obtain ⟨rfl, rfl⟩ := ran
      have lone : witness = [preimage] := by rw [← List.reverse_reverse witness, reversed, List.reverse_singleton]
      refine ⟨preimage, lone, sized preimage (by rw [lone]; exact List.mem_singleton_self _), ?_⟩
      by_contra other
      rw [if_neg (Ne.symm other)] at holds
      cases holds
  · rintro ⟨preimage, rfl, small, hashed⟩
    refine ⟨by simpa using small, [1], ?_, by decide⟩
    rw [List.reverse_singleton, run_hashlock]
    exact congrArg (fun element => some [element]) (if_pos hashed.symm)

end Script
