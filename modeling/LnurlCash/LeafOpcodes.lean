import LnurlCash.Lib.Script
import LnurlCash.Spend

namespace LnurlCash

open Script

theorem isOpSuccess_iff : ∀ op : UInt8, isOpSuccess op ↔ IsOpSuccess op :=
  Bytes.forall_byte (by decide +kernel)

theorem checkOpcodes_nil (fuel : Nat) : checkOpcodes fuel [] = none := by cases fuel <;> rfl

theorem not_push_of_plain :
    ∀ op : UInt8, op = 0 ∨ 0x4e < op → ¬(1 ≤ op ∧ op ≤ 75) ∧ op ≠ 0x4c ∧ op ≠ 0x4d ∧ op ≠ 0x4e :=
  Bytes.forall_byte (by decide +kernel)

/-! ### Pushes with a length of one, two or four bytes -/

/-- The opcodes that push data behind its length, and the length's width. -/
def pushForms : List (UInt8 × Nat) := [(0x4c, 1), (0x4d, 2), (0x4e, 4)]

theorem exists_pushForm :
    ∀ op : UInt8, ¬(1 ≤ op ∧ op ≤ 75) → ¬(op = 0 ∨ 0x4e < op) → ∃ form ∈ pushForms, form.1 = op :=
  Bytes.forall_byte (by decide +kernel)

variable {op : UInt8} {width : Nat}

theorem exists_pushData (form : (op, width) ∈ pushForms) {data : Bytes} (sized : data.length < 256 ^ width) :
    ∃ instruction : Instruction, instruction.bytes = op :: (Bytes.le width data.length ++ data) := by
  simp only [pushForms, List.mem_cons, Prod.mk.injEq, List.not_mem_nil, or_false] at form
  rcases form with ⟨rfl, rfl⟩ | ⟨rfl, rfl⟩ | ⟨rfl, rfl⟩
  · exact ⟨.pushData1 data sized, rfl⟩
  · exact ⟨.pushData2 data sized, rfl⟩
  · exact ⟨.pushData4 data sized, rfl⟩

/-- The walk reads the length, if it is all there, and goes on behind that much data. -/
theorem checkOpcodes_pushForm (form : (op, width) ∈ pushForms) (fuel : Nat) (rest : Bytes) :
    checkOpcodes (fuel + 1) (op :: rest) =
      if width ≤ rest.length then checkOpcodes fuel (rest.drop (width + Bytes.beNat (rest.take width).reverse)) else none := by
  simp only [pushForms, List.mem_cons, Prod.mk.injEq, List.not_mem_nil, or_false] at form
  rcases form with ⟨rfl, rfl⟩ | ⟨rfl, rfl⟩ | ⟨rfl, rfl⟩
  · rcases rest with _ | ⟨l₀, more⟩
    · rfl
    · rw [if_pos (by simp)]
      have value : Bytes.beNat [l₀] = l₀.toNat := by simp [Bytes.beNat]
      change checkOpcodes fuel ((l₀ :: more).drop (1 + l₀.toNat)) = checkOpcodes fuel ((l₀ :: more).drop (1 + Bytes.beNat [l₀]))
      rw [value]
  · rcases rest with _ | ⟨l₀, _ | ⟨l₁, more⟩⟩
    · rfl
    · rfl
    · rw [if_pos (by simp)]
      rfl
  · rcases rest with _ | ⟨l₀, _ | ⟨l₁, _ | ⟨l₂, _ | ⟨l₃, more⟩⟩⟩⟩
    · rfl
    · rfl
    · rfl
    · rfl
    · rw [if_pos (by simp)]
      rfl

theorem checkOpcodes_pushData (form : (op, width) ∈ pushForms) {data : Bytes} (sized : data.length < 256 ^ width)
    (fuel : Nat) (tail : Bytes) :
    checkOpcodes (fuel + 1) (op :: (Bytes.le width data.length ++ data) ++ tail) = checkOpcodes fuel tail := by
  have size : (Bytes.le width data.length).length = width := Bytes.length_le width data.length
  have spelled : Bytes.beNat (Bytes.le width data.length).reverse = data.length := Bytes.beNat_be sized
  have skip : (Bytes.le width data.length ++ (data ++ tail)).drop (width + data.length) = tail := by
    rw [← List.append_assoc, List.drop_left' (by rw [List.length_append, size])]
  rw [List.cons_append, List.append_assoc, checkOpcodes_pushForm form, List.length_append, size, if_pos (by omega),
    List.take_left' size, spelled, skip]

/-- A length that is all there begins a push of its data, or says more than the script has. -/
theorem pushForm_cons (form : (op, width) ∈ pushForms) (fuel : Nat) (rest : Bytes) :
    (∃ instruction tail, op :: rest = Instruction.bytes instruction ++ tail) ∨ checkOpcodes (fuel + 1) (op :: rest) = none := by
  rw [checkOpcodes_pushForm form]
  by_cases read : width ≤ rest.length
  · have size : (rest.take width).length = width := List.length_take_of_le read
    have bound := Bytes.beNat_lt (rest.take width).reverse
    have spelled := Bytes.le_beNat_reverse (rest.take width)
    rw [if_pos read]
    rw [List.length_reverse, size] at bound
    rw [size] at spelled
    generalize Bytes.beNat (rest.take width).reverse = n at bound spelled ⊢
    by_cases within : width + n ≤ rest.length
    · have long : ((rest.drop width).take n).length = n := List.length_take_of_le (by rw [List.length_drop]; omega)
      obtain ⟨instruction, bytes⟩ := exists_pushData form (by rwa [long] : ((rest.drop width).take n).length < 256 ^ width)
      refine Or.inl ⟨instruction, (rest.drop width).drop n, ?_⟩
      rw [bytes, long, spelled, List.cons_append, List.append_assoc, List.take_append_drop, List.take_append_drop]
    · rw [List.drop_of_length_le (by omega), checkOpcodes_nil]
      exact Or.inr rfl
  · exact Or.inr (if_neg read)

/-! ### The walk, instruction by instruction -/

/-- One instruction is one step of the walk, over its data and not into it. -/
theorem checkOpcodes_instruction (fuel : Nat) (instruction : Instruction) (tail : Bytes) :
    checkOpcodes (fuel + 1) (instruction.bytes ++ tail) =
      if instruction.opcode?.any isOpSuccess then some reservedOpcode else checkOpcodes fuel tail := by
  cases instruction with
  | opcode op plain =>
    obtain ⟨direct, one, two, four⟩ := not_push_of_plain op plain
    change checkOpcodes (fuel + 1) (op :: tail) = if isOpSuccess op then some reservedOpcode else checkOpcodes fuel tail
    conv_lhs => unfold checkOpcodes
    rw [if_neg direct, if_neg one, if_neg two, if_neg four]
  | push data sized =>
    have small : data.length < 2 ^ 8 := by omega
    have size : (UInt8.ofNat data.length).toNat = data.length := UInt8.toNat_ofNat_of_lt' small
    have direct : 1 ≤ UInt8.ofNat data.length ∧ UInt8.ofNat data.length ≤ 75 := by
      rw [UInt8.le_iff_toNat_le, UInt8.le_iff_toNat_le, size]
      exact sized
    change checkOpcodes (fuel + 1) (UInt8.ofNat data.length :: (data ++ tail)) = checkOpcodes fuel tail
    conv_lhs => unfold checkOpcodes
    rw [if_pos direct, size, List.drop_left]
  | pushData1 data sized => exact checkOpcodes_pushData (by decide) sized fuel tail
  | pushData2 data sized => exact checkOpcodes_pushData (by decide) sized fuel tail
  | pushData4 data sized => exact checkOpcodes_pushData (by decide) sized fuel tail

/-- A byte begins an instruction, or a push that the script ends inside of. -/
theorem checkOpcodes_cons (fuel : Nat) (op : UInt8) (rest : Bytes) :
    (∃ instruction tail, op :: rest = Instruction.bytes instruction ++ tail) ∨ checkOpcodes (fuel + 1) (op :: rest) = none := by
  by_cases direct : 1 ≤ op ∧ op ≤ 75
  · by_cases within : op.toNat ≤ rest.length
    · have size : (rest.take op.toNat).length = op.toNat := List.length_take_of_le within
      have sized : 1 ≤ (rest.take op.toNat).length ∧ (rest.take op.toNat).length ≤ 75 := by
        rw [size]
        exact ⟨UInt8.le_iff_toNat_le.mp direct.1, UInt8.le_iff_toNat_le.mp direct.2⟩
      refine Or.inl ⟨.push (rest.take op.toNat) sized, rest.drop op.toNat, ?_⟩
      rw [Instruction.bytes, size, UInt8.ofNat_toNat, List.cons_append, List.take_append_drop]
    · right
      conv_lhs => unfold checkOpcodes
      rw [if_pos direct, List.drop_of_length_le (by omega), checkOpcodes_nil]
  · by_cases plain : op = 0 ∨ 0x4e < op
    · exact Or.inl ⟨.opcode op plain, rest, rfl⟩
    · obtain ⟨⟨_, width⟩, form, rfl⟩ := exists_pushForm op direct plain
      exact pushForm_cons form fuel rest

theorem success_of_opcode? {instruction : Instruction} (success : instruction.opcode?.any isOpSuccess) :
    ∃ op plain, instruction = .opcode op plain ∧ IsOpSuccess op := by
  cases instruction with
  | opcode op plain => exact ⟨op, plain, rfl, (isOpSuccess_iff op).mp success⟩
  | push | pushData1 | pushData2 | pushData4 => cases success

theorem meets_of_checkOpcodes {fuel : Nat} {script : Bytes} {reason : Str} (refused : checkOpcodes fuel script = some reason) :
    reason = reservedOpcode ∧ MeetsOpSuccess script := by
  induction fuel generalizing script with
  | zero => cases refused
  | succ fuel ih =>
    cases script with
    | nil => cases refused
    | cons op rest =>
      rcases checkOpcodes_cons fuel op rest with ⟨instruction, tail, whole⟩ | ended
      · rw [whole, checkOpcodes_instruction] at refused
        rw [whole]
        by_cases success : instruction.opcode?.any isOpSuccess
        · rw [if_pos success, Option.some.injEq] at refused
          obtain ⟨found, plain, rfl, reserved⟩ := success_of_opcode? success
          exact ⟨refused.symm, [], found, tail, rfl, reserved⟩
        · rw [if_neg success] at refused
          obtain ⟨same, before, found, after, rfl, reserved⟩ := ih refused
          exact ⟨same, instruction :: before, found, after, by rw [serialize_cons, List.append_assoc], reserved⟩
      · rw [ended] at refused
        cases refused

theorem checkOpcodes_of_meets {fuel : Nat} {script : Bytes} (enough : script.length ≤ fuel) (meets : MeetsOpSuccess script) :
    checkOpcodes fuel script = some reservedOpcode := by
  obtain ⟨before, op, rest, rfl, reserved⟩ := meets
  induction before generalizing fuel with
  | nil =>
    obtain ⟨fuel, rfl⟩ : ∃ less, fuel = less + 1 := Nat.exists_eq_add_one.mpr (Nat.lt_of_lt_of_le (Nat.succ_pos _) enough)
    have step := checkOpcodes_instruction fuel (.opcode op (plain_of_isOpSuccess op reserved)) rest
    exact step.trans (if_pos ((isOpSuccess_iff op).mpr reserved))
  | cons instruction before ih =>
    have positive := instruction.bytes_pos
    rw [serialize_cons, List.append_assoc] at enough ⊢
    rw [List.length_append] at enough
    obtain ⟨fuel, rfl⟩ : ∃ less, fuel = less + 1 := Nat.exists_eq_add_one.mpr (by omega)
    rw [checkOpcodes_instruction, ih (by omega), ite_self]

theorem checkOpcodes_of_not_meets {script : Bytes} (fuel : Nat) (clear : ¬MeetsOpSuccess script) :
    checkOpcodes fuel script = none := by
  rw [Option.eq_none_iff_forall_ne_some]
  exact fun reason refused => clear (meets_of_checkOpcodes refused).2

theorem checkOpcodes_serialize {fuel : Nat} {instructions : List Instruction} (enough : (serialize instructions).length ≤ fuel) :
    checkOpcodes fuel (serialize instructions) =
      if (instructions.filterMap Instruction.opcode?).any isOpSuccess then some reservedOpcode else none := by
  induction instructions generalizing fuel with
  | nil => exact checkOpcodes_nil fuel
  | cons instruction rest ih =>
    have positive := instruction.bytes_pos
    rw [serialize_cons, List.length_append] at enough
    obtain ⟨fuel, rfl⟩ : ∃ less, fuel = less + 1 := Nat.exists_eq_add_one.mpr (by omega)
    rw [serialize_cons, checkOpcodes_instruction, ih (by omega), List.filterMap_cons]
    cases instruction.opcode? with
    | none => rfl
    | some op =>
      rw [Option.any_some, List.any_cons]
      cases isOpSuccess op <;> rfl

/-- A current leaf is refused exactly where reading its script meets an
OP_SUCCESSx before it ends or a push does not; pushed data has no say in it. -/
theorem checkLeaf_refuses_iff {version : UInt8} (current : version &&& 0xfe = tapleafVersion) :
    (∀ script, checkLeaf version script = some reservedOpcode ↔ MeetsOpSuccess script) ∧
      (∀ script, checkLeaf version script = none ∨ checkLeaf version script = some reservedOpcode) ∧
      (∀ instructions, checkLeaf version (serialize instructions) =
        if (instructions.filterMap Instruction.opcode?).any isOpSuccess then some reservedOpcode else none) ∧
      ∀ script fuel, script.length ≤ fuel → checkOpcodes fuel script = checkOpcodes script.length script := by
  have walk (script : Bytes) : checkLeaf version script = checkOpcodes script.length script :=
    if_neg (not_not.mpr current)
  refine ⟨fun script => ?_, fun script => ?_, fun instructions => ?_, fun script fuel enough => ?_⟩
  · rw [walk]
    exact ⟨fun refused => (meets_of_checkOpcodes refused).2, checkOpcodes_of_meets le_rfl⟩
  · rw [walk]
    cases found : checkOpcodes script.length script with
    | none => exact Or.inl rfl
    | some reason => exact Or.inr (congrArg some (meets_of_checkOpcodes found).1)
  · rw [walk, checkOpcodes_serialize le_rfl]
  · by_cases meets : MeetsOpSuccess script
    · rw [checkOpcodes_of_meets enough meets, checkOpcodes_of_meets le_rfl meets]
    · rw [checkOpcodes_of_not_meets fuel meets, checkOpcodes_of_not_meets script.length meets]

/-- A pushed 0x50 is data, and the one after it an opcode. -/
theorem pushedReserved_refused : checkLeaf 0xc1 [0x01, 0x50, 0x50] = some reservedOpcode :=
  ((checkLeaf_refuses_iff (by decide)).1 _).mpr ⟨[.push [0x50] (by decide)], 0x50, [], rfl, by decide⟩

end LnurlCash
