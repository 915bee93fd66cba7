import LnurlCash.Lib.Text

namespace Bech32

def charset : Str := "qpzry9x8gf2tvdw0s3jn54khce6mua7l".toList

def value? (c : Char) : Option (Fin 32) :=
  if small : charset.idxOf c.toLower < 32 then some ⟨charset.idxOf c.toLower, small⟩ else none

/-- Multiplication by x modulo the generator of the checksum's code. -/
def mulX (residue : BitVec 30) : BitVec 30 :=
  let tap (i : Nat) (g : BitVec 30) : BitVec 30 := if residue.getLsbD i then g else 0
  residue <<< 5 ^^^ tap 25 0x3b6a57b2 ^^^ tap 26 0x26508e6d ^^^ tap 27 0x1ea119fa ^^^ tap 28 0x3d4233dd ^^^
    tap 29 0x2a1462b3

def step (residue : BitVec 30) (value : Fin 32) : BitVec 30 := mulX residue ^^^ BitVec.ofNat 30 value

def residue (values : List (Fin 32)) : BitVec 30 := values.foldl step 1

def expand (hrp : Str) : List (Fin 32) :=
  hrp.map (fun c => Fin.ofNat 32 (c.toNat / 32)) ++ 0 :: hrp.map fun c => Fin.ofNat 32 (c.toNat % 32)

def mixedCase (s : Str) : Bool :=
  s.any (fun c => decide (65 ≤ c.toNat ∧ c.toNat ≤ 90)) && s.any fun c => decide (97 ≤ c.toNat ∧ c.toNat ≤ 122)

/-- One to 83 printable ASCII characters. -/
def validHrp (hrp : Str) : Bool :=
  decide (hrp ≠ [] ∧ hrp.length ≤ 83) && hrp.all fun c => decide (33 ≤ c.toNat ∧ c.toNat ≤ 126)

/-- A string under the checksum with residue `target`: its human-readable
part, lowercased, and its data without the six checksum characters. -/
def parse (target : BitVec 30) (s : Str) : Option (Str × List (Fin 32)) := do
  let (hrp, data) ← Str.rsplitOnce '1' s
  let values ← data.mapM value?
  if !mixedCase s && validHrp hrp && decide (6 ≤ values.length) &&
      residue (expand (Str.lower hrp) ++ values) == target then
    some (Str.lower hrp, values.take (values.length - 6))
  else none

/-- The five-bit groups as one run of bits, high bit first. -/
def bits (values : List (Fin 32)) : List Bool :=
  values.flatMap fun v => [v.val.testBit 4, v.val.testBit 3, v.val.testBit 2, v.val.testBit 1, v.val.testBit 0]

def byteOfBits (group : List Bool) : UInt8 := UInt8.ofNat (group.foldl (fun n b => 2 * n + b.toNat) 0)

/-- Whole bytes only; fewer than eight trailing bits are dropped. -/
def bytesOfBits : List Bool → List UInt8
  | b₇ :: b₆ :: b₅ :: b₄ :: b₃ :: b₂ :: b₁ :: b₀ :: rest =>
    byteOfBits [b₇, b₆, b₅, b₄, b₃, b₂, b₁, b₀] :: bytesOfBits rest
  | _ => []

/-- No more than four padding bits, and all of them zero. -/
def validPadding (run : List Bool) : Bool :=
  decide (run.length % 8 ≤ 4) && (run.drop (run.length - run.length % 8)).all (! ·)

def decode (target : BitVec 30) (hrp : Str) (s : Str) : Option (List UInt8) := do
  let (found, values) ← parse target s
  if found = hrp ∧ validPadding (bits values) then some (bytesOfBits (bits values)) else none

def letter (v : Fin 32) : Char := charset.getD v.val 'q'

/-- The bytes as one run of bits, high bit first. -/
def bitsOfBytes (bytes : List UInt8) : List Bool :=
  bytes.flatMap fun b =>
    [b.toNat.testBit 7, b.toNat.testBit 6, b.toNat.testBit 5, b.toNat.testBit 4, b.toNat.testBit 3, b.toNat.testBit 2,
      b.toNat.testBit 1, b.toNat.testBit 0]

def groupOfBits (group : List Bool) : Fin 32 := Fin.ofNat 32 (group.foldl (fun n b => 2 * n + b.toNat) 0)

/-- Whole groups of five only. -/
def groups : List Bool → List (Fin 32)
  | b₄ :: b₃ :: b₂ :: b₁ :: b₀ :: rest => groupOfBits [b₄, b₃, b₂, b₁, b₀] :: groups rest
  | _ => []

def padded (run : List Bool) : List Bool := run ++ List.replicate ((5 - run.length % 5) % 5) false

/-- The `k` low base-32 digits of `n`, most significant first. -/
def lowGroups : Nat → Nat → List (Fin 32)
  | 0, _ => []
  | k + 1, n => lowGroups k (n / 32) ++ [Fin.ofNat 32 n]

def zeros : List (Fin 32) := List.replicate 6 0

/-- The six groups that bring the residue of the values before them to `target`. -/
def checksum (target : BitVec 30) (values : List (Fin 32)) : List (Fin 32) :=
  lowGroups 6 (residue (values ++ zeros) ^^^ target).toNat

def encode (target : BitVec 30) (hrp : Str) (bytes : List UInt8) : Option Str :=
  if validHrp hrp ∧ mixedCase hrp = false then
    let hrp := Str.lower hrp
    let values := groups (padded (bitsOfBytes bytes))
    some (hrp ++ '1' :: (values ++ checksum target (expand hrp ++ values)).map letter)
  else none

theorem value?_toLower (c : Char) : value? c.toLower = value? c := by
  simp only [value?, Str.toLower_toLower]

theorem mixedCase_lower (s : Str) : mixedCase (Str.lower s) = false := by
  have none : (Str.lower s).any (fun c => decide (65 ≤ c.toNat ∧ c.toNat ≤ 90)) = false := by
    simp only [Str.lower, List.any_map, List.any_eq_false, Function.comp_apply, decide_eq_true_eq,
      Str.toNat_toLower]
    intro c _
    split <;> omega
  rw [mixedCase, none, Bool.false_and]

theorem mixedCase_upper (s : Str) : mixedCase (Str.upper s) = false := by
  have none : (Str.upper s).any (fun c => decide (97 ≤ c.toNat ∧ c.toNat ≤ 122)) = false := by
    simp only [Str.upper, List.any_map, List.any_eq_false, Function.comp_apply, decide_eq_true_eq,
      Str.toNat_toUpper]
    intro c _
    split <;> omega
  rw [mixedCase, none, Bool.and_false]

@[simp] theorem validHrp_lower (hrp : Str) : validHrp (Str.lower hrp) = validHrp hrp := by
  rw [Bool.eq_iff_iff]
  simp only [validHrp, Str.lower, Bool.and_eq_true, decide_eq_true_eq, List.all_map, List.all_eq_true,
    List.length_map, ne_eq, List.map_eq_nil_iff, Function.comp_apply, Str.toNat_toLower]
  constructor <;> rintro ⟨size, printable⟩ <;> refine ⟨size, fun c member => ?_⟩
  all_goals
    have range := printable c member
    split at * <;> omega

theorem parse_eq_some {target : BitVec 30} {s hrp : Str} {values : List (Fin 32)}
    (parsed : parse target s = some (hrp, values)) :
    ∃ before data all, s = before ++ '1' :: data ∧ '1' ∉ data ∧ hrp = Str.lower before ∧
      data.mapM value? = some all ∧ mixedCase s = false ∧ validHrp before ∧ 6 ≤ all.length ∧
      residue (expand hrp ++ all) = target ∧ values = all.take (all.length - 6) := by
  simp only [parse, Option.bind_eq_bind, Option.bind_eq_some_iff, Option.ite_none_right_eq_some,
    Option.some.injEq, Bool.and_eq_true, Bool.not_eq_true', decide_eq_true_eq, beq_iff_eq, Prod.mk.injEq] at parsed
  obtain ⟨⟨before, data⟩, split, all, mapped, ⟨⟨⟨case, valid⟩, long⟩, checksum⟩, rfl, rfl⟩ := parsed
  obtain ⟨whole, absent⟩ := Str.rsplitOnce_eq_some.mp split
  exact ⟨before, data, all, whole, absent, rfl, mapped, case, valid, long, checksum, rfl⟩

/-- A text in one case reads as its lowercase spelling does. -/
theorem parse_lower_of_oneCase {target : BitVec 30} {s : Str} (oneCase : mixedCase s = false) :
    parse target (Str.lower s) = parse target s := by
  have values (data : Str) : (Str.lower data).mapM value? = data.mapM value? := by
    rw [Str.lower, List.mapM_map]
    exact congrArg (fun f => List.mapM f data) (funext value?_toLower)
  simp only [parse, @Str.rsplitOnce_lower '1' (by decide) (by decide)]
  cases Str.rsplitOnce '1' s with
  | none => rfl
  | some parts => simp [values, oneCase, mixedCase_lower]

theorem mixedCase_of_parse {target : BitVec 30} {s : Str} {result : Str × List (Fin 32)}
    (parsed : parse target s = some result) : mixedCase s = false := by
  obtain ⟨hrp, values⟩ := result
  obtain ⟨_, _, _, _, _, _, _, oneCase, _⟩ := parse_eq_some parsed
  exact oneCase

theorem decode_lower_of_oneCase {target : BitVec 30} {s : Str} (oneCase : mixedCase s = false) (hrp : Str) :
    decode target hrp (Str.lower s) = decode target hrp s := by
  simp only [decode, parse_lower_of_oneCase oneCase]

theorem decode_lower {target : BitVec 30} {hrp s : Str} (valid : (parse target s).isSome) :
    decode target hrp (Str.lower s) = decode target hrp s := by
  obtain ⟨result, parsed⟩ := Option.isSome_iff_exists.mp valid
  exact decode_lower_of_oneCase (mixedCase_of_parse parsed) hrp

theorem parse_isSome_of_decode {target : BitVec 30} {hrp s : Str} {payload : List UInt8}
    (decoded : decode target hrp s = some payload) : ∃ values, parse target s = some (hrp, values) := by
  simp only [decode, Option.bind_eq_bind, Option.bind_eq_some_iff, Option.ite_none_right_eq_some] at decoded
  obtain ⟨⟨found, values⟩, parsed, ⟨rfl, _⟩, _⟩ := decoded
  exact ⟨values, parsed⟩

/-- A string has one human-readable part, so it decodes under no other. -/
theorem decode_unique {target : BitVec 30} {hrp other s : Str} {payload : List UInt8}
    (decoded : decode target hrp s = some payload) (different : other ≠ hrp) : decode target other s = none := by
  obtain ⟨values, parsed⟩ := parse_isSome_of_decode decoded
  simp [decode, parsed, different.symm]

theorem length_bits (values : List (Fin 32)) : (bits values).length = 5 * values.length := by
  induction values with
  | nil => rfl
  | cons v rest ih =>
    simp only [bits, List.flatMap_cons, List.length_append, List.length_cons, List.length_nil] at ih ⊢
    omega

theorem length_bytesOfBits (run : List Bool) : (bytesOfBits run).length = run.length / 8 := by
  induction run using bytesOfBits.induct with
  | case1 b₇ b₆ b₅ b₄ b₃ b₂ b₁ b₀ rest ih =>
    simp only [bytesOfBits, List.length_cons, ih]
    omega
  | case2 run short =>
    rcases run with _ | ⟨_, _ | ⟨_, _ | ⟨_, _ | ⟨_, _ | ⟨_, _ | ⟨_, _ | ⟨_, _ | ⟨_, rest⟩⟩⟩⟩⟩⟩⟩⟩
    all_goals first | simp [bytesOfBits]; done | exact absurd rfl (short _ _ _ _ _ _ _ _ _)

theorem ascii_of_value? {c : Char} {v : Fin 32} (value : value? c = some v) : c.toNat < 128 := by
  have letters : charset.all fun d => decide (d.toNat < 128) := by decide
  simp only [value?, Option.dite_none_right_eq_some] at value
  obtain ⟨small, _⟩ := value
  have bound := List.all_eq_true.mp letters c.toLower (List.idxOf_lt_length_iff.mp small)
  rw [decide_eq_true_eq, Str.toNat_toLower] at bound
  split at bound <;> omega

theorem length_of_mapM_value? {data : Str} {all : List (Fin 32)} (mapped : data.mapM value? = some all) :
    data.length = all.length ∧ ∀ c ∈ data, c.toNat < 128 := by
  induction data generalizing all with
  | nil =>
    cases mapped
    simp
  | cons c rest ih =>
    simp only [List.mapM_cons, Option.bind_eq_bind, Option.bind_eq_some_iff, Option.pure_def, Option.some.injEq]
      at mapped
    obtain ⟨v, value, tail, rest', rfl⟩ := mapped
    obtain ⟨length, ascii⟩ := ih rest'
    exact ⟨by simp [length], List.forall_mem_cons.mpr ⟨ascii_of_value? value, ascii⟩⟩

/-- A payload bounds its string, since the human-readable part is bounded. -/
theorem byteLen_of_decode {target : BitVec 30} {hrp s : Str} {payload : List UInt8}
    (decoded : decode target hrp s = some payload) : 5 * Str.byteLen s ≤ 8 * payload.length + 457 := by
  simp only [decode, Option.bind_eq_bind, Option.bind_eq_some_iff, Option.ite_none_right_eq_some, Option.some.injEq]
    at decoded
  obtain ⟨⟨found, values⟩, parsed, _, rfl⟩ := decoded
  obtain ⟨before, data, all, rfl, _, _, mapped, _, valid, long, _, rfl⟩ := parse_eq_some parsed
  obtain ⟨length, dataAscii⟩ := length_of_mapM_value? mapped
  simp only [validHrp, Bool.and_eq_true, decide_eq_true_eq, List.all_eq_true] at valid
  obtain ⟨⟨_, short⟩, printable⟩ := valid
  have ascii : ∀ c ∈ before ++ '1' :: data, c.toNat < 128 := by
    intro c member
    rcases List.mem_append.mp member with front | back
    · have range := printable c front
      omega
    · rcases List.mem_cons.mp back with rfl | back
      · decide
      · exact dataAscii c back
  rw [Str.byteLen_of_ascii ascii, length_bytesOfBits, length_bits, List.length_take, List.length_append,
    List.length_cons]
  omega

end Bech32
