import LnurlCash.Lib.Bech32

namespace Bech32

/-! ### Bits and groups -/

theorem bitsOfBytes_cons (b : UInt8) (rest : List UInt8) : bitsOfBytes (b :: rest) = bitsOfBytes [b] ++ bitsOfBytes rest := by
  simp [bitsOfBytes]

theorem length_bitsOfBytes (bytes : List UInt8) : (bitsOfBytes bytes).length = 8 * bytes.length := by
  induction bytes with
  | nil => rfl
  | cons b rest ih =>
    have first : (bitsOfBytes [b]).length = 8 := rfl
    rw [bitsOfBytes_cons, List.length_append, first, ih, List.length_cons]
    omega

/-- The `width` low bits of `n`, high bit first. -/
def lowBits : Nat → Nat → List Bool
  | 0, _ => []
  | width + 1, n => n.testBit width :: lowBits width n

theorem foldl_lowBits (width n before : Nat) :
    (lowBits width n).foldl (fun n b => 2 * n + b.toNat) before = before * 2 ^ width + n % 2 ^ width := by
  induction width generalizing before with
  | zero => rw [lowBits, List.foldl_nil, Nat.pow_zero, Nat.mul_one, Nat.mod_one, Nat.add_zero]
  | succ width ih =>
    rw [lowBits, List.foldl_cons, ih, Nat.mod_pow_succ, ← Nat.toNat_testBit, Nat.pow_succ, Nat.add_mul,
      ← Nat.mul_assoc, Nat.mul_comm 2, Nat.mul_right_comm, Nat.add_assoc, Nat.add_comm (n % 2 ^ width),
      Nat.mul_comm (n.testBit width).toNat]

theorem lowBits_snoc (width n : Nat) (b : Bool) : lowBits (width + 1) (2 * n + b.toNat) = lowBits width n ++ [b] := by
  induction width with
  | zero => cases b <;> simp [lowBits]
  | succ width ih =>
    have half : (2 * n + b.toNat) / 2 = n := by
      have bit := b.toNat_lt
      omega
    rw [lowBits, Nat.testBit_succ, half, ih, lowBits, List.cons_append]

/-- A run of bits is the low bits of the number it spells. -/
theorem lowBits_foldl (run : List Bool) : lowBits run.length (run.foldl (fun n b => 2 * n + b.toNat) 0) = run := by
  induction run using List.reverseRecOn with
  | nil => rfl
  | append_singleton run b ih =>
    rw [List.length_append, List.foldl_append, List.foldl_cons, List.foldl_nil, List.length_singleton, lowBits_snoc, ih]

theorem lowBits_mod {width top : Nat} (n : Nat) (below : width ≤ top) : lowBits width (n % 2 ^ top) = lowBits width n := by
  induction width with
  | zero => rfl
  | succ width ih => rw [lowBits, lowBits, ih (by omega), Nat.testBit_mod_two_pow, decide_eq_true (show width < top from below), Bool.true_and]

theorem byteOfBits_bitsOfBytes (b : UInt8) : byteOfBits (bitsOfBytes [b]) = b := by
  have spelled := foldl_lowBits 8 b.toNat 0
  rw [Nat.zero_mul, Nat.zero_add, Nat.mod_eq_of_lt b.toNat_lt] at spelled
  exact (congrArg UInt8.ofNat spelled).trans b.ofNat_toNat

theorem bytesOfBits_short {tail : List Bool} (short : tail.length < 8) : bytesOfBits tail = [] := by
  apply List.eq_nil_of_length_eq_zero
  rw [length_bytesOfBits]
  omega

/-- A tail shorter than a byte is dropped. -/
theorem bytesOfBits_bitsOfBytes (bytes : List UInt8) {tail : List Bool} (short : tail.length < 8) :
    bytesOfBits (bitsOfBytes bytes ++ tail) = bytes := by
  induction bytes with
  | nil => exact bytesOfBits_short short
  | cons b rest ih =>
    have first := byteOfBits_bitsOfBytes b
    rw [bitsOfBytes_cons, List.append_assoc]
    simp only [bitsOfBytes, List.flatMap_cons, List.flatMap_nil, List.append_nil] at first ih ⊢
    rw [List.cons_append]
    simp only [List.cons_append, List.nil_append, bytesOfBits, first, ih]

theorem bitsOfBytes_byteOfBits (b₇ b₆ b₅ b₄ b₃ b₂ b₁ b₀ : Bool) :
    bitsOfBytes [byteOfBits [b₇, b₆, b₅, b₄, b₃, b₂, b₁, b₀]] = [b₇, b₆, b₅, b₄, b₃, b₂, b₁, b₀] :=
  (lowBits_mod _ (Nat.le_refl 8)).trans (lowBits_foldl [b₇, b₆, b₅, b₄, b₃, b₂, b₁, b₀])

/-- The bits of the whole bytes, and then the rest of the run. -/
theorem bitsOfBytes_bytesOfBits (run : List Bool) :
    bitsOfBytes (bytesOfBits run) ++ run.drop (run.length - run.length % 8) = run := by
  induction run using bytesOfBits.induct with
  | case1 b₇ b₆ b₅ b₄ b₃ b₂ b₁ b₀ rest ih =>
    have from8 : (b₇ :: b₆ :: b₅ :: b₄ :: b₃ :: b₂ :: b₁ :: b₀ :: rest).length -
        (b₇ :: b₆ :: b₅ :: b₄ :: b₃ :: b₂ :: b₁ :: b₀ :: rest).length % 8 = rest.length - rest.length % 8 + 8 := by
      simp only [List.length_cons]
      omega
    rw [from8, bytesOfBits, bitsOfBytes_cons, bitsOfBytes_byteOfBits]
    simp only [List.cons_append, List.nil_append, List.drop_succ_cons, ih]
  | case2 run short =>
    have few : run.length < 8 := by
      by_contra many
      rcases run with _ | ⟨_, _ | ⟨_, _ | ⟨_, _ | ⟨_, _ | ⟨_, _ | ⟨_, _ | ⟨_, _ | ⟨_, rest⟩⟩⟩⟩⟩⟩⟩⟩
      all_goals first | exact absurd rfl (short _ _ _ _ _ _ _ _ _) | simp at many
    rw [bytesOfBits_short few, show run.length - run.length % 8 = 0 by omega]
    rfl

theorem groupOfBits_bits (v : Fin 32) : groupOfBits (bits [v]) = v := by
  have spelled := foldl_lowBits 5 v.val 0
  rw [Nat.zero_mul, Nat.zero_add, Nat.mod_eq_of_lt (show v.val < 2 ^ 5 from v.isLt)] at spelled
  exact (congrArg (Fin.ofNat 32) spelled).trans (Fin.ofNat_val_eq_self v)

theorem bits_groupOfBits (b₄ b₃ b₂ b₁ b₀ : Bool) :
    bits [groupOfBits [b₄, b₃, b₂, b₁, b₀]] = [b₄, b₃, b₂, b₁, b₀] :=
  (lowBits_mod _ (Nat.le_refl 5)).trans (lowBits_foldl [b₄, b₃, b₂, b₁, b₀])

theorem groups_bits (values : List (Fin 32)) : groups (bits values) = values := by
  induction values with
  | nil => rfl
  | cons v rest ih =>
    simp only [bits, List.flatMap_cons, List.cons_append, List.nil_append, groups] at ih ⊢
    rw [ih]
    exact congrArg (· :: rest) (groupOfBits_bits v)

theorem bits_groups {run : List Bool} (whole : run.length % 5 = 0) : bits (groups run) = run := by
  induction run using groups.induct with
  | case1 b₄ b₃ b₂ b₁ b₀ rest ih =>
    simp only [List.length_cons] at whole
    have tail := ih (by omega)
    have head := bits_groupOfBits b₄ b₃ b₂ b₁ b₀
    simp only [bits, List.flatMap_cons, List.flatMap_nil, List.append_nil] at head tail
    rw [groups, bits, List.flatMap_cons, tail, head]
    rfl
  | case2 run short =>
    rcases run with _ | ⟨_, _ | ⟨_, _ | ⟨_, _ | ⟨_, _ | ⟨_, rest⟩⟩⟩⟩⟩
    all_goals first | rfl | exact absurd rfl (short _ _ _ _ _ _) | simp at whole

theorem length_padded (run : List Bool) : (padded run).length = (run.length + 4) / 5 * 5 := by
  rw [padded, List.length_append, List.length_replicate]
  omega

theorem length_groups {run : List Bool} (whole : run.length % 5 = 0) : (groups run).length = run.length / 5 := by
  have length := length_bits (groups run)
  rw [bits_groups whole] at length
  omega

/-- The groups of some bytes are padded as BIP-173 asks. -/
theorem bits_of_bytes (bytes : List UInt8) :
    ∃ pad, pad < 5 ∧ bits (groups (padded (bitsOfBytes bytes))) = bitsOfBytes bytes ++ List.replicate pad false := by
  have length := length_padded (bitsOfBytes bytes)
  refine ⟨(5 - (bitsOfBytes bytes).length % 5) % 5, Nat.mod_lt _ (by decide), ?_⟩
  rw [bits_groups (by omega), padded]

theorem validPadding_of_bytes {bytes : List UInt8} {pad : Nat} (small : pad < 5) :
    validPadding (bitsOfBytes bytes ++ List.replicate pad false) := by
  have length : (bitsOfBytes bytes ++ List.replicate pad false).length = 8 * bytes.length + pad := by
    rw [List.length_append, length_bitsOfBytes, List.length_replicate]
  have rest : 8 * bytes.length + pad - (8 * bytes.length + pad) % 8 = (bitsOfBytes bytes).length := by
    rw [length_bitsOfBytes]
    omega
  rw [validPadding, length, rest, List.drop_left]
  simp
  omega

/-- Groups whose padding is valid are the groups of the bytes they carry. -/
theorem groups_of_validPadding {values : List (Fin 32)} (valid : validPadding (bits values)) :
    groups (padded (bitsOfBytes (bytesOfBits (bits values)))) = values := by
  simp only [validPadding, Bool.and_eq_true, decide_eq_true_eq, List.all_eq_true, Bool.not_eq_true'] at valid
  obtain ⟨few, zero⟩ := valid
  have whole := bitsOfBytes_bytesOfBits (bits values)
  have pad : (bits values).drop ((bits values).length - (bits values).length % 8) =
      List.replicate ((bits values).length % 8) false := by
    refine List.eq_replicate_iff.mpr ⟨?_, zero⟩
    rw [List.length_drop]
    omega
  have size := length_bits values
  have bytes := length_bitsOfBytes (bytesOfBits (bits values))
  rw [length_bytesOfBits] at bytes
  rw [pad] at whole
  have fill : (5 - (bitsOfBytes (bytesOfBits (bits values))).length % 5) % 5 = (bits values).length % 8 := by
    rw [bytes]
    omega
  rw [padded, fill, whole, groups_bits]

/-! ### The checksum -/

theorem mulX_xor (a b : BitVec 30) : mulX (a ^^^ b) = mulX a ^^^ mulX b := by
  have tap (i : Nat) (g : BitVec 30) : (if (a ^^^ b).getLsbD i then g else 0) =
      (if a.getLsbD i then g else 0) ^^^ (if b.getLsbD i then g else 0) := by
    rw [BitVec.getLsbD_xor]
    cases a.getLsbD i <;> cases b.getLsbD i <;> simp
  simp only [mulX, BitVec.shiftLeft_xor_distrib, tap]
  ac_rfl

theorem step_xor (a b : BitVec 30) (v : Fin 32) : step (a ^^^ b) v = step a v ^^^ mulX b := by
  simp only [step, mulX_xor]
  ac_rfl

theorem foldl_step_xor (a b : BitVec 30) (values : List (Fin 32)) :
    values.foldl step (a ^^^ b) = values.foldl step a ^^^ (List.replicate values.length 0).foldl step b := by
  induction values generalizing a b with
  | nil => rfl
  | cons v rest ih =>
    have zero : step b 0 = mulX b := by simp [step]
    rw [List.foldl_cons, step_xor, ih, List.length_cons, List.replicate_succ, List.foldl_cons, List.foldl_cons, zero]

/-- The groups' value in base 32. -/
def number (values : List (Fin 32)) : Nat := values.foldl (fun n v => 32 * n + v.val) 0

theorem number_concat (values : List (Fin 32)) (v : Fin 32) : number (values ++ [v]) = 32 * number values + v.val := by
  simp [number]

theorem number_lt (values : List (Fin 32)) : number values < 32 ^ values.length := by
  induction values using List.reverseRecOn with
  | nil => decide
  | append_singleton values v ih =>
    rw [number_concat, List.length_append, List.length_singleton, Nat.pow_succ]
    omega

theorem lowGroups_number (values : List (Fin 32)) : lowGroups values.length (number values) = values := by
  induction values using List.reverseRecOn with
  | nil => rfl
  | append_singleton values v ih =>
    have high : (32 * number values + v.val) / 32 = number values := by omega
    have low : Fin.ofNat 32 (32 * number values + v.val) = v := by
      apply Fin.ext
      rw [Fin.val_ofNat]
      omega
    rw [List.length_append, List.length_singleton, number_concat, lowGroups, high, low, ih]

@[simp] theorem length_lowGroups (k n : Nat) : (lowGroups k n).length = k := by
  induction k generalizing n with
  | zero => rfl
  | succ k ih => rw [lowGroups, List.length_append, ih, List.length_singleton]

theorem number_lowGroups {k n : Nat} (small : n < 32 ^ k) : number (lowGroups k n) = n := by
  induction k generalizing n with
  | zero =>
    rw [Nat.pow_zero] at small
    rw [show n = 0 by omega]
    rfl
  | succ k ih =>
    rw [Nat.pow_succ] at small
    rw [lowGroups, number_concat, ih (Nat.div_lt_of_lt_mul (by omega)), Fin.val_ofNat]
    omega

theorem step_ofNat {n : Nat} (small : n < 2 ^ 25) (v : Fin 32) :
    step (BitVec.ofNat 30 n) v = BitVec.ofNat 30 (32 * n + v.val) := by
  have clear (i : Nat) (top : 25 ≤ i) : (BitVec.ofNat 30 n).getLsbD i = false := by
    rw [BitVec.getLsbD_ofNat, Nat.testBit_lt_two_pow (Nat.lt_of_lt_of_le small (Nat.pow_le_pow_right (by decide) top)),
      Bool.and_false]
  have shifted : mulX (BitVec.ofNat 30 n) = BitVec.ofNat 30 n <<< 5 := by
    simp only [mulX, clear 25 (by decide), clear 26 (by decide), clear 27 (by decide), clear 28 (by decide),
      clear 29 (by decide), Bool.false_eq_true, if_false, BitVec.ofNat_eq_ofNat, BitVec.xor_zero]
  have low : v.val < 2 ^ 5 := v.isLt
  rw [step, shifted]
  apply BitVec.eq_of_getLsbD_eq
  intro i inside
  rw [show 32 * n + v.val = 2 ^ 5 * n + v.val from rfl]
  simp only [BitVec.getLsbD_xor, BitVec.getLsbD_shiftLeft, BitVec.getLsbD_ofNat, Nat.testBit_two_pow_mul_add n low]
  by_cases digit : i < 5
  · simp [digit, inside]
  · have above : v.val.testBit i = false :=
      Nat.testBit_lt_two_pow (Nat.lt_of_lt_of_le low (Nat.pow_le_pow_right (by decide) (by omega)))
    simp only [digit, inside, above, decide_true, decide_false, Bool.not_false, Bool.true_and, Bool.and_true,
      Bool.and_false, Bool.bne_false, if_false]
    rw [decide_eq_true (show i - 5 < 30 by omega), Bool.true_and]

/-- From a zero residue the values are packed as they stand. -/
theorem foldl_step_zero {values : List (Fin 32)} (few : values.length ≤ 6) :
    values.foldl step 0#30 = BitVec.ofNat 30 (number values) := by
  induction values using List.reverseRecOn with
  | nil => rfl
  | append_singleton values v ih =>
    rw [List.length_append, List.length_singleton] at few
    have bound := number_lt values
    have power : 32 ^ values.length ≤ 32 ^ 5 := Nat.pow_le_pow_right (by decide) (by omega)
    rw [List.foldl_append, ih (by omega), number_concat]
    exact step_ofNat (Nat.lt_of_lt_of_le bound power) v

/-- Six values bring a residue to `target` exactly when they are the checksum. -/
theorem residue_eq_iff {target : BitVec 30} {values check : List (Fin 32)} (six : check.length = 6) :
    residue (values ++ check) = target ↔ check = checksum target values := by
  have split : residue (values ++ check) = residue (values ++ zeros) ^^^ BitVec.ofNat 30 (number check) := by
    have start := foldl_step_xor 0#30 (residue values) check
    rw [BitVec.zero_xor, foldl_step_zero (by omega), six, BitVec.xor_comm] at start
    rw [residue, List.foldl_append, residue, List.foldl_append]
    exact start
  have small := number_lt check
  rw [six] at small
  rw [split]
  constructor
  · rintro rfl
    rw [checksum, ← BitVec.xor_assoc, BitVec.xor_self, BitVec.zero_xor, BitVec.toNat_ofNat,
      Nat.mod_eq_of_lt (show number check < 2 ^ 30 from small), ← six, lowGroups_number]
  · rintro rfl
    have bound := (residue (values ++ zeros) ^^^ target).isLt
    rw [checksum, number_lowGroups (show (residue (values ++ zeros) ^^^ target).toNat < 32 ^ 6 from bound),
      BitVec.ofNat_toNat, BitVec.setWidth_eq, ← BitVec.xor_assoc, BitVec.xor_self, BitVec.zero_xor]

/-! ### Letters -/

theorem value?_letter (v : Fin 32) : value? (letter v) = some v := by
  revert v
  decide +kernel

theorem letter_of_value? {c : Char} {v : Fin 32} (value : value? c = some v) : letter v = c.toLower := by
  simp only [value?, Option.dite_none_right_eq_some, Option.some.injEq] at value
  obtain ⟨small, rfl⟩ := value
  have inside : charset.idxOf c.toLower < charset.length := small
  simp [letter, List.getD, List.getElem?_eq_getElem inside]

theorem mapM_value?_letters (values : List (Fin 32)) : (values.map letter).mapM value? = some values := by
  induction values with
  | nil => rfl
  | cons v rest ih => simp [List.mapM_cons, value?_letter, ih]

theorem letters_of_mapM {data : Str} {values : List (Fin 32)} (mapped : data.mapM value? = some values) :
    values.map letter = Str.lower data := by
  induction data generalizing values with
  | nil =>
    cases mapped
    rfl
  | cons c rest ih =>
    simp only [List.mapM_cons, Option.bind_eq_bind, Option.bind_eq_some_iff, Option.pure_def, Option.some.injEq]
      at mapped
    obtain ⟨v, value, tail, rest', rfl⟩ := mapped
    rw [List.map_cons, letter_of_value? value, ih rest']
    rfl

theorem lower_letters (values : List (Fin 32)) : Str.lower (values.map letter) = values.map letter := by
  exact (letters_of_mapM (mapM_value?_letters values)).symm

theorem separator_notMem_letters (values : List (Fin 32)) : '1' ∉ values.map letter := by
  have none : ∀ v : Fin 32, letter v ≠ '1' := by decide +kernel
  intro member
  obtain ⟨v, _, same⟩ := List.mem_map.mp member
  exact none v same

theorem mixedCase_of_lower {s : Str} (lowered : Str.lower s = s) : mixedCase s = false := by
  rw [← lowered, mixedCase_lower]

/-! ### What the encoder writes -/

variable {target : BitVec 30} {hrp s : Str} {bytes : List UInt8}

/-- What an encoding is made of. -/
theorem encode_eq_some :
    encode target hrp bytes = some s ↔ validHrp hrp ∧ mixedCase hrp = false ∧
      s = Str.lower hrp ++ '1' :: (groups (padded (bitsOfBytes bytes)) ++
        checksum target (expand (Str.lower hrp) ++ groups (padded (bitsOfBytes bytes)))).map letter := by
  simp only [encode, Option.ite_none_right_eq_some, Option.some.injEq, and_assoc, eq_comm (a := s)]

theorem encode_exists (target : BitVec 30) (valid : validHrp hrp) (oneCase : mixedCase hrp = false) (bytes : List UInt8) :
    ∃ s, encode target hrp bytes = some s := by
  simp [encode, valid, oneCase]

theorem lower_of_encode (encoded : encode target hrp bytes = some s) : Str.lower s = s := by
  obtain ⟨_, _, rfl⟩ := encode_eq_some.mp encoded
  rw [Str.lower_append, Str.lower_lower, Str.lower_cons, lower_letters]
  rfl

theorem decode_encode (encoded : encode target hrp bytes = some s) : decode target (Str.lower hrp) s = some bytes := by
  have oneCase := mixedCase_of_lower (lower_of_encode encoded)
  obtain ⟨valid, _, whole⟩ := encode_eq_some.mp encoded
  set values := groups (padded (bitsOfBytes bytes)) with isValues
  set check := checksum target (expand (Str.lower hrp) ++ values) with isCheck
  have split : Str.rsplitOnce '1' s = some (Str.lower hrp, (values ++ check).map letter) :=
    Str.rsplitOnce_eq_some.mpr ⟨whole, separator_notMem_letters _⟩
  have six : check.length = 6 := length_lowGroups 6 _
  have sum : residue (expand (Str.lower hrp) ++ (values ++ check)) = target := by
    rw [← List.append_assoc]
    exact (residue_eq_iff six).mpr isCheck
  have parsed : parse target s = some (Str.lower hrp, values) := by
    have front : (values ++ check).take ((values ++ check).length - 6) = values := by
      rw [List.length_append, six, Nat.add_sub_cancel, List.take_left]
    simp only [parse, split, Option.bind_eq_bind, Option.bind_some, mapM_value?_letters, oneCase, valid, validHrp_lower,
      Str.lower_lower, sum, front]
    simp [six]
  obtain ⟨pad, small, run⟩ := bits_of_bytes bytes
  have padding : validPadding (bits values) := by
    rw [isValues, run]
    exact validPadding_of_bytes small
  have back : bytesOfBits (bits values) = bytes := by
    rw [isValues, run]
    exact bytesOfBits_bitsOfBytes bytes (by rw [List.length_replicate]; omega)
  simp only [decode, parsed, Option.bind_eq_bind, Option.bind_some, padding, back, and_self, if_true]

theorem decode_upper_encode (encoded : encode target hrp bytes = some s) :
    decode target (Str.lower hrp) (Str.upper s) = some bytes := by
  rw [← decode_lower_of_oneCase (mixedCase_upper s), Str.lower_upper, lower_of_encode encoded, decode_encode encoded]

theorem printable_of_encode (encoded : encode target hrp bytes = some s) : ∀ c ∈ s, 33 ≤ c.toNat ∧ c.toNat ≤ 126 := by
  have letters : ∀ v : Fin 32, 33 ≤ (letter v).toNat ∧ (letter v).toNat ≤ 126 := by decide +kernel
  obtain ⟨valid, _, rfl⟩ := encode_eq_some.mp encoded
  rw [← validHrp_lower] at valid
  simp only [validHrp, Bool.and_eq_true, List.all_eq_true, decide_eq_true_eq] at valid
  intro c member
  rcases List.mem_append.mp member with front | back
  · exact valid.2 c front
  · rcases List.mem_cons.mp back with rfl | back
    · decide
    · obtain ⟨v, _, rfl⟩ := List.mem_map.mp back
      exact letters v

/-- No character is written but the prefix's, the separator and the letters. -/
theorem notMem_of_encode (encoded : encode target hrp bytes = some s) {c : Char} (front : c ∉ Str.lower hrp) (separator : c ≠ '1')
    (letters : ∀ v, letter v ≠ c) : c ∉ s := by
  obtain ⟨_, _, rfl⟩ := encode_eq_some.mp encoded
  intro member
  rcases List.mem_append.mp member with inside | inside
  · exact front inside
  · rcases List.mem_cons.mp inside with same | written
    · exact separator same
    · obtain ⟨v, _, same⟩ := List.mem_map.mp written
      exact letters v same

theorem spaceless_of_encode (encoded : encode target hrp bytes = some s) : ∀ c ∈ s, Str.isWhitespace c = false := by
  intro c member
  have range := printable_of_encode encoded c member
  rw [Str.isWhitespace, decide_eq_false_iff_not]
  omega

/-- Eight characters for five bytes, and seven besides the human-readable part. -/
theorem byteLen_encode (encoded : encode target hrp bytes = some s) :
    Str.byteLen s = hrp.length + 7 + (8 * bytes.length + 4) / 5 := by
  have ascii : ∀ c ∈ s, c.toNat < 128 := by
    intro c member
    have range := printable_of_encode encoded c member
    omega
  have run := length_bitsOfBytes bytes
  have size := length_padded (bitsOfBytes bytes)
  rw [Str.byteLen_of_ascii ascii]
  obtain ⟨_, _, rfl⟩ := encode_eq_some.mp encoded
  have whole : (padded (bitsOfBytes bytes)).length % 5 = 0 := by omega
  have count := length_groups whole
  rw [List.length_append, List.length_cons, List.length_map, List.length_append, checksum, length_lowGroups, Str.lower,
    List.length_map]
  omega

/-- A string that decodes is, in lowercase, the encoding of its payload. -/
theorem encode_of_decode (decoded : decode target hrp s = some bytes) : encode target hrp bytes = some (Str.lower s) := by
  simp only [decode, Option.bind_eq_bind, Option.bind_eq_some_iff, Option.ite_none_right_eq_some, Option.some.injEq]
    at decoded
  obtain ⟨⟨found, values⟩, parsed, ⟨rfl, padding⟩, rfl⟩ := decoded
  obtain ⟨before, data, all, rfl, absent, rfl, mapped, _, valid, long, sum, rfl⟩ := parse_eq_some parsed
  have six : (all.drop (all.length - 6)).length = 6 := by
    rw [List.length_drop]
    omega
  have read : residue ((expand (Str.lower before) ++ all.take (all.length - 6)) ++ all.drop (all.length - 6)) = target := by
    rw [List.append_assoc, List.take_append_drop, sum]
  have check := (residue_eq_iff six).mp read
  refine encode_eq_some.mpr ⟨by rwa [validHrp_lower], mixedCase_lower before, ?_⟩
  rw [groups_of_validPadding padding, Str.lower_lower, ← check, List.take_append_drop, letters_of_mapM mapped,
    Str.lower_append]
  rfl

end Bech32
