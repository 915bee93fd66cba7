import Mathlib.Algebra.GroupWithZero.Nat
import Mathlib.Data.List.DropRight
import Mathlib.Data.List.Infix
import Mathlib.Data.Char
import Mathlib.Tactic.Common

/-- A text, as the list of its Unicode scalar values. -/
abbrev Str := List Char

namespace Str

/-- Unicode's `White_Space` property, what `char::is_whitespace` tests. -/
def isWhitespace (c : Char) : Bool :=
  decide (9 ≤ c.toNat ∧ c.toNat ≤ 13 ∨ c.toNat = 0x20 ∨ c.toNat = 0x85 ∨ c.toNat = 0xa0 ∨ c.toNat = 0x1680 ∨
    0x2000 ≤ c.toNat ∧ c.toNat ≤ 0x200a ∨ c.toNat = 0x2028 ∨ c.toNat = 0x2029 ∨ c.toNat = 0x202f ∨
    c.toNat = 0x205f ∨ c.toNat = 0x3000)

def trimStart (s : Str) : Str := s.dropWhile isWhitespace

def trimEnd (s : Str) : Str := s.rdropWhile isWhitespace

def trim (s : Str) : Str := trimEnd (trimStart s)

/-- ASCII letters only: `Char.toLower` leaves every other scalar alone. -/
def lower (s : Str) : Str := s.map Char.toLower

def upper (s : Str) : Str := s.map Char.toUpper

def contains (s needle : Str) : Bool := s.tails.any needle.isPrefixOf

def utf8 (s : Str) : List UInt8 := s.flatMap String.utf8EncodeChar

/-- `String::from_utf8(..).ok()` -/
def fromUtf8 (bytes : List UInt8) : Option Str := bytes.toByteArray.utf8Decode?.map Array.toList

def byteLen (s : Str) : Nat := (s.map Char.utf8Size).sum

/-- Everything before the first `sep`, all of it when there is none. -/
def before (sep : Char) (s : Str) : Str := s.takeWhile (· ≠ sep)

def splitOnce (sep : Char) : Str → Option (Str × Str)
  | [] => none
  | c :: rest => if c = sep then some ([], rest) else (splitOnce sep rest).map fun p => (c :: p.1, p.2)

def rsplitOnce (sep : Char) : Str → Option (Str × Str)
  | [] => none
  | c :: rest =>
    match rsplitOnce sep rest with
    | some (before, after) => some (c :: before, after)
    | none => if c = sep then some ([], rest) else none

def stripPrefix (pre s : Str) : Option Str := if pre.isPrefixOf s then some (s.drop pre.length) else none

def decimal (n : Nat) : Str := Nat.toDigits 10 n

/-- The value of a nonempty run of ASCII digits below `bound`. -/
def parseDigits (bound : Nat) (s : Str) : Option Nat :=
  if s ≠ [] ∧ s.all Char.isDigit ∧ Nat.ofDigitChars 10 s 0 < bound then some (Nat.ofDigitChars 10 s 0) else none

/-- An unsigned integer below `bound` as Rust's `str::parse` reads it: one leading plus sign is allowed. -/
def parseUnsigned (bound : Nat) : Str → Option Nat
  | '+' :: digits => parseDigits bound digits
  | digits => parseDigits bound digits

theorem contains_iff {s needle : Str} : contains s needle ↔ needle <:+: s := by
  simp only [contains, List.any_eq_true, List.mem_tails, List.isPrefixOf_iff_prefix]
  rw [List.infix_iff_prefix_suffix]
  simp only [and_comm]

theorem toNat_toLower (c : Char) :
    c.toLower.toNat = if 65 ≤ c.toNat ∧ c.toNat ≤ 90 then c.toNat + 32 else c.toNat := by
  unfold Char.toLower
  by_cases upper : c.val ≥ 'A'.val ∧ c.val ≤ 'Z'.val
  · have low : 65 ≤ c.toNat := upper.1
    have high : c.toNat ≤ 90 := upper.2
    rw [dif_pos upper, if_pos ⟨low, high⟩]
    change (c.val + ('a'.val - 'A'.val)).toNat = c.val.toNat + 32
    have small : c.val.toNat ≤ 90 := high
    rw [UInt32.toNat_add, show ('a'.val - 'A'.val).toNat = 32 by decide]
    omega
  · rw [dif_neg upper, if_neg fun h => upper ⟨h.1, h.2⟩]

theorem isDigit_iff {c : Char} : c.isDigit ↔ 48 ≤ c.toNat ∧ c.toNat ≤ 57 := by
  simp only [Char.isDigit, ge_iff_le, UInt32.le_iff_toNat_le, Bool.and_eq_true, decide_eq_true_eq]
  exact Iff.rfl

@[simp] theorem toLower_toLower (c : Char) : c.toLower.toLower = c.toLower := by
  apply Char.toNat_inj.mp
  rw [toNat_toLower c.toLower, toNat_toLower c]
  grind

theorem toNat_toUpper (c : Char) :
    c.toUpper.toNat = if 97 ≤ c.toNat ∧ c.toNat ≤ 122 then c.toNat - 32 else c.toNat := by
  unfold Char.toUpper
  by_cases small : c.val ≥ 'a'.val ∧ c.val ≤ 'z'.val
  · have low : 97 ≤ c.toNat := small.1
    have high : c.toNat ≤ 122 := small.2
    rw [dif_pos small, if_pos ⟨low, high⟩]
    change (c.val + ('A'.val - 'a'.val)).toNat = c.val.toNat - 32
    have bounds : 97 ≤ c.val.toNat ∧ c.val.toNat ≤ 122 := ⟨low, high⟩
    rw [UInt32.toNat_add, show ('A'.val - 'a'.val).toNat = 4294967264 by decide]
    omega
  · rw [dif_neg small, if_neg fun h => small ⟨h.1, h.2⟩]

theorem toLower_toUpper (c : Char) : c.toUpper.toLower = c.toLower := by
  apply Char.toNat_inj.mp
  rw [toNat_toLower, toNat_toLower, toNat_toUpper]
  grind

theorem toUpper_toLower (c : Char) : c.toLower.toUpper = c.toUpper := by
  apply Char.toNat_inj.mp
  rw [toNat_toUpper, toNat_toUpper, toNat_toLower]
  grind

/-- A scalar outside both ASCII letter ranges is the image of itself alone. -/
theorem toLower_eq_iff {c d : Char} (notUpper : ¬(65 ≤ d.toNat ∧ d.toNat ≤ 90))
    (notLower : ¬(97 ≤ d.toNat ∧ d.toNat ≤ 122)) : c.toLower = d ↔ c = d := by
  rw [← Char.toNat_inj, ← Char.toNat_inj, toNat_toLower]
  split <;> omega

/-- Lowercasing puts no such scalar into a text. -/
theorem notMem_lower {c : Char} {s : Str} (notUpper : ¬(65 ≤ c.toNat ∧ c.toNat ≤ 90))
    (notLower : ¬(97 ≤ c.toNat ∧ c.toNat ≤ 122)) (absent : c ∉ s) : c ∉ lower s := by
  intro member
  obtain ⟨d, inside, same⟩ := List.mem_map.mp member
  rw [toLower_eq_iff notUpper notLower] at same
  exact absent (same ▸ inside)

@[simp] theorem isWhitespace_toLower (c : Char) : isWhitespace c.toLower = isWhitespace c := by
  simp only [isWhitespace, toNat_toLower, decide_eq_decide]
  split <;> omega

theorem isWhitespace_toUpper (c : Char) : isWhitespace c.toUpper = isWhitespace c := by
  rw [← isWhitespace_toLower, toLower_toUpper, isWhitespace_toLower]

@[simp] theorem lower_upper (s : Str) : lower (upper s) = lower s := by
  simp only [lower, upper, List.map_map, Function.comp_def, toLower_toUpper]

@[simp] theorem lower_lower (s : Str) : lower (lower s) = lower s := by
  simp [lower, Function.comp_def]

theorem upper_lower (s : Str) : upper (lower s) = upper s := by
  simp only [lower, upper, List.map_map, Function.comp_def, toUpper_toLower]

theorem upper_upper (s : Str) : upper (upper s) = upper s := by
  rw [← upper_lower (upper s), lower_upper, upper_lower]

theorem lower_cons (c : Char) (s : Str) : lower (c :: s) = c.toLower :: lower s := rfl

theorem lower_append (a b : Str) : lower (a ++ b) = lower a ++ lower b := List.map_append

theorem lower_of_digits {s : Str} (digits : s.all Char.isDigit) : lower s = s := by
  induction s with
  | nil => rfl
  | cons c rest ih =>
    rw [List.all_cons, Bool.and_eq_true] at digits
    have small : c.toLower = c := by
      have bound := (isDigit_iff.mp digits.1).2
      rw [← Char.toNat_inj, toNat_toLower, if_neg (by omega)]
    rw [lower_cons, small, ih digits.2]

theorem trimStart_lower (s : Str) : trimStart (lower s) = lower (trimStart s) := by
  simp only [trimStart, lower, List.dropWhile_map]
  congr 1
  simp [Function.comp_def]

theorem trimEnd_lower (s : Str) : trimEnd (lower s) = lower (trimEnd s) := by
  have reversed := trimStart_lower s.reverse
  simp only [trimStart, lower, trimEnd, List.rdropWhile, ← List.map_reverse] at reversed ⊢
  rw [reversed, List.map_reverse]

theorem trim_lower (s : Str) : trim (lower s) = lower (trim s) := by
  rw [trim, trimStart_lower, trimEnd_lower, trim]

theorem trimEnd_prefix (s : Str) : trimEnd s <+: s := List.rdropWhile_prefix _ _

theorem trimEnd_append {front back : Str} {c : Char} (kept : isWhitespace c = false) :
    trimEnd (front ++ c :: back) = front ++ c :: trimEnd back := by
  simp only [trimEnd, List.rdropWhile, List.reverse_append, List.reverse_cons, List.append_assoc, List.dropWhile_append]
  split
  · rename_i blank
    rw [List.isEmpty_iff.mp blank]
    simp [kept]
  · simp

theorem trimStart_eq_self {s : Str} (head : ∀ c ∈ s.head?, isWhitespace c = false) : trimStart s = s := by
  cases s with
  | nil => rfl
  | cons c rest => simp [trimStart, head c (by simp)]

theorem head_trimStart (s : Str) : ∀ c ∈ (trimStart s).head?, isWhitespace c = false := by
  intro c member
  have found := List.head?_dropWhile_not isWhitespace s
  rw [show List.dropWhile isWhitespace s = trimStart s from rfl, Option.mem_def.mp member] at found
  simpa using found

theorem trim_eq_self {s : Str} (head : ∀ c ∈ s.head?, isWhitespace c = false)
    (last : ∀ c ∈ s.getLast?, isWhitespace c = false) : trim s = s := by
  rw [trim, trimStart_eq_self head, trimEnd, List.rdropWhile_eq_self_iff]
  intro nonempty
  simp [last _ (List.getLast?_eq_getLast_of_ne_nil nonempty)]

theorem trim_eq_self_of_forall {s : Str} (spaceless : ∀ c ∈ s, isWhitespace c = false) : trim s = s :=
  trim_eq_self (fun c member => spaceless c (List.mem_of_mem_head? member))
    fun c member => spaceless c (List.mem_of_getLast? member)

/-- Whitespace around a text that has none is all that trimming takes. -/
theorem trim_padded {front s back : Str} (left : ∀ c ∈ front, isWhitespace c) (right : ∀ c ∈ back, isWhitespace c)
    (spaceless : ∀ c ∈ s, isWhitespace c = false) : trim (front ++ s ++ back) = s := by
  cases s with
  | nil =>
    have blank : trimStart (front ++ [] ++ back) = [] := by
      rw [trimStart, List.dropWhile_eq_nil_iff, List.append_nil]
      intro c member
      exact (List.mem_append.mp member).elim (left c) (right c)
    rw [trim, blank]
    rfl
  | cons c rest =>
    have start : trimStart (front ++ (c :: rest) ++ back) = c :: rest ++ back := by
      rw [trimStart, List.append_assoc, List.dropWhile_append_of_pos left]
      simp [spaceless c (by simp)]
    have reversed : ∀ d ∈ back.reverse, isWhitespace d := fun d member => right d (List.mem_reverse.mp member)
    have whole : trimStart (c :: rest) = c :: rest := trimStart_eq_self (by simpa using spaceless c (by simp))
    have clean := trim_eq_self_of_forall spaceless
    rw [trim, whole] at clean
    rw [trim, start, trimEnd, List.rdropWhile, List.reverse_append, List.dropWhile_append_of_pos reversed]
    exact clean

@[simp] theorem trim_trim (s : Str) : trim (trim s) = trim s := by
  have start : trimStart (trim s) = trim s := by
    apply trimStart_eq_self
    intro c member
    obtain ⟨tail, whole⟩ := trimEnd_prefix (trimStart s)
    apply head_trimStart s
    rw [← whole, List.head?_append_of_ne_nil]
    · exact member
    · rintro empty
      rw [trim, empty] at member
      simp at member
  rw [trim, start]
  exact List.rdropWhile_idempotent _ _

theorem splitOnce_some {sep : Char} {s before after : Str} (split : splitOnce sep s = some (before, after)) :
    s = before ++ sep :: after ∧ sep ∉ before := by
  induction s generalizing before with
  | nil => simp [splitOnce] at split
  | cons c rest ih =>
    simp only [splitOnce] at split
    split at split
    · rename_i same
      cases split
      simp [same]
    · rename_i other
      obtain ⟨⟨front, back⟩, found, equal⟩ := Option.map_eq_some_iff.mp split
      cases equal
      obtain ⟨whole, absent⟩ := ih found
      refine ⟨by simp [whole], ?_⟩
      simp only [List.mem_cons, not_or]
      exact ⟨fun h => other h.symm, absent⟩

theorem splitOnce_eq_none {sep : Char} {s : Str} : splitOnce sep s = none ↔ sep ∉ s := by
  induction s with
  | nil => simp [splitOnce]
  | cons c rest ih =>
    simp only [splitOnce, List.mem_cons, not_or]
    split
    · rename_i same
      simp [same]
    · rename_i other
      simp [ih, Ne.symm other]

theorem splitOnce_append {sep : Char} {before after : Str} (absent : sep ∉ before) :
    splitOnce sep (before ++ sep :: after) = some (before, after) := by
  induction before with
  | nil => simp [splitOnce]
  | cons c rest ih =>
    simp only [List.mem_cons, not_or] at absent
    rw [List.cons_append, splitOnce, if_neg (Ne.symm absent.1), ih absent.2]
    rfl

theorem splitOn_eq_one {sep : Char} {s piece : Str} (split : s.splitOn sep = [piece]) : s = piece ∧ sep ∉ s := by
  cases first : splitOnce sep s with
  | none =>
    have absent := splitOnce_eq_none.mp first
    rw [List.splitOn_eq_singleton absent] at split
    exact ⟨List.singleton_inj.mp split, absent⟩
  | some parts =>
    obtain ⟨front, back⟩ := parts
    obtain ⟨rfl, absent⟩ := splitOnce_some first
    rw [List.splitOn_append_cons_self_of_not_mem absent] at split
    exact absurd (List.cons.inj split).2 (List.splitOn_ne_nil sep back)

/-- Two pieces mean one separator. -/
theorem splitOn_eq_pair {sep : Char} {s before after : Str} (split : s.splitOn sep = [before, after]) :
    s = before ++ sep :: after ∧ sep ∉ before ∧ sep ∉ after := by
  cases first : splitOnce sep s with
  | none =>
    rw [List.splitOn_eq_singleton (splitOnce_eq_none.mp first)] at split
    cases split
  | some parts =>
    obtain ⟨front, back⟩ := parts
    obtain ⟨whole, absent⟩ := splitOnce_some first
    rw [whole, List.splitOn_append_cons_self_of_not_mem absent] at split
    obtain ⟨rfl, tail⟩ := List.cons.inj split
    obtain ⟨rfl, last⟩ := splitOn_eq_one tail
    exact ⟨whole, absent, last⟩

theorem rsplitOnce_eq_none {sep : Char} {s : Str} : rsplitOnce sep s = none ↔ sep ∉ s := by
  induction s with
  | nil => simp [rsplitOnce]
  | cons c rest ih =>
    simp only [rsplitOnce, List.mem_cons, not_or]
    split
    · rename_i found
      simp only [reduceCtorEq, false_iff, not_and, not_not]
      intro _
      by_contra absent
      simp [ih.mpr absent] at found
    · rename_i missing
      simp [ih.mp missing, eq_comm]

/-- The last separator is the one with no separator after it. -/
theorem rsplitOnce_eq_some {sep : Char} {s before after : Str} :
    rsplitOnce sep s = some (before, after) ↔ s = before ++ sep :: after ∧ sep ∉ after := by
  constructor
  · intro split
    induction s generalizing before with
    | nil => simp [rsplitOnce] at split
    | cons c rest ih =>
      simp only [rsplitOnce] at split
      split at split
      · rename_i front back found
        cases split
        obtain ⟨whole, absent⟩ := ih found
        exact ⟨by simp [whole], absent⟩
      · rename_i missing
        split at split
        · rename_i same
          cases split
          exact ⟨by simp [same], rsplitOnce_eq_none.mp missing⟩
        · simp at split
  · rintro ⟨rfl, absent⟩
    induction before with
    | nil => simp [rsplitOnce, rsplitOnce_eq_none.mpr absent]
    | cons c rest ih => simp [rsplitOnce, ih]

theorem stripPrefix_eq_some {pre s rest : Str} : stripPrefix pre s = some rest ↔ s = pre ++ rest := by
  simp only [stripPrefix, Option.ite_none_right_eq_some, List.isPrefixOf_iff_prefix, Option.some.injEq]
  constructor
  · rintro ⟨⟨tail, rfl⟩, rfl⟩
    rw [List.drop_left]
  · rintro rfl
    exact ⟨List.prefix_append pre rest, List.drop_left⟩

theorem append_sep_inj {sep : Char} {a b front back : Str} (left : sep ∉ b) (right : sep ∉ back)
    (equal : a ++ sep :: b = front ++ sep :: back) : a = front ∧ b = back := by
  have one : rsplitOnce sep (a ++ sep :: b) = some (a, b) := rsplitOnce_eq_some.mpr ⟨rfl, left⟩
  have two : rsplitOnce sep (a ++ sep :: b) = some (front, back) := rsplitOnce_eq_some.mpr ⟨equal, right⟩
  cases one.symm.trans two
  exact ⟨rfl, rfl⟩

/-- The first separator splits a text one way, as the last does. -/
theorem sep_append_inj {sep : Char} {a b front back : Str} (left : sep ∉ a) (right : sep ∉ front)
    (equal : a ++ sep :: b = front ++ sep :: back) : a = front ∧ b = back := by
  induction a generalizing front with
  | nil =>
    cases front with
    | nil => exact ⟨rfl, (List.cons.inj equal).2⟩
    | cons c rest =>
      obtain ⟨rfl, _⟩ := List.cons.inj equal
      exact absurd List.mem_cons_self right
  | cons c rest ih =>
    cases front with
    | nil =>
      obtain ⟨rfl, _⟩ := List.cons.inj equal
      exact absurd List.mem_cons_self left
    | cons d tail =>
      obtain ⟨rfl, remaining⟩ := List.cons.inj equal
      obtain ⟨rfl, same⟩ := ih (fun member => left (List.mem_cons_of_mem _ member))
        (fun member => right (List.mem_cons_of_mem _ member)) remaining
      exact ⟨rfl, same⟩

/-- Lowercasing a text moves no separator that is not a letter. -/
theorem rsplitOnce_lower {sep : Char} (notUpper : ¬(65 ≤ sep.toNat ∧ sep.toNat ≤ 90))
    (notLower : ¬(97 ≤ sep.toNat ∧ sep.toNat ≤ 122)) (s : Str) :
    rsplitOnce sep (lower s) = (rsplitOnce sep s).map fun p => (lower p.1, lower p.2) := by
  induction s with
  | nil => rfl
  | cons c rest ih =>
    have tail : rsplitOnce sep (List.map Char.toLower rest) = _ := ih
    simp only [lower, List.map_cons, rsplitOnce, tail, toLower_eq_iff notUpper notLower]
    cases rsplitOnce sep rest with
    | some p => simp
    | none => by_cases same : c = sep <;> simp [same]

theorem utf8_injective : Function.Injective utf8 := by
  intro a b equal
  have encoded : a.utf8Encode = b.utf8Encode := congrArg List.toByteArray equal
  have decoded := congrArg ByteArray.utf8Decode? encoded
  rw [List.utf8Decode?_utf8Encode, List.utf8Decode?_utf8Encode] at decoded
  exact congrArg Array.toList (Option.some.inj decoded)

theorem fromUtf8_utf8 (s : Str) : fromUtf8 (utf8 s) = some s := by
  have decoded : (utf8 s).toByteArray.utf8Decode? = some s.toArray := List.utf8Decode?_utf8Encode
  rw [fromUtf8, decoded, Option.map_some]

theorem byteLen_of_ascii {s : Str} (ascii : ∀ c ∈ s, c.toNat < 128) : byteLen s = s.length := by
  induction s with
  | nil => rfl
  | cons c rest ih =>
    have small : c.utf8Size = 1 := by
      rw [Char.utf8Size_eq_one_iff, UInt32.le_iff_toNat_le]
      have bound := ascii c (by simp)
      change c.toNat ≤ 127
      omega
    have tail := ih fun d member => ascii d (by simp [member])
    simp only [byteLen, List.map_cons, List.sum_cons, List.length_cons] at tail ⊢
    omega

/-- Lowercasing stays within ASCII, so no scalar changes its size. -/
@[simp] theorem byteLen_lower (s : Str) : byteLen (lower s) = byteLen s := by
  have size : ∀ c : Char, c.toLower.utf8Size = c.utf8Size := by
    intro c
    by_cases upper : 65 ≤ c.toNat ∧ c.toNat ≤ 90
    · have value := toNat_toLower c
      rw [if_pos upper] at value
      have one : ∀ d : Char, d.toNat ≤ 127 → d.utf8Size = 1 := fun d small =>
        Char.utf8Size_eq_one_iff.mpr (UInt32.le_iff_toNat_le.mpr small)
      rw [one _ (by omega), one _ (by omega)]
    · have value := toNat_toLower c
      rw [if_neg upper] at value
      rw [Char.toNat_inj.mp value]
  simp [byteLen, lower, Function.comp_def, size]

@[simp] theorem ofDigitChars_decimal (n : Nat) : Nat.ofDigitChars 10 (decimal n) 0 = n := Nat.ofDigitChars_ten_toDigits

theorem decimal_injective : Function.Injective decimal := by
  intro m n equal
  have values := congrArg (fun digits => Nat.ofDigitChars 10 digits 0) equal
  simpa only [ofDigitChars_decimal] using values

theorem decimal_ne_nil (n : Nat) : decimal n ≠ [] := List.ne_nil_of_length_pos Nat.length_toDigits_pos

theorem isDigit_of_mem_decimal {c : Char} {n : Nat} (member : c ∈ decimal n) : c.isDigit :=
  Nat.isDigit_of_mem_toDigits (by decide) (by decide) member

theorem all_isDigit_decimal (n : Nat) : (decimal n).all Char.isDigit :=
  List.all_eq_true.mpr fun _ member => isDigit_of_mem_decimal member

theorem parseDigits_decimal {bound n : Nat} (small : n < bound) : parseDigits bound (decimal n) = some n := by
  rw [parseDigits, ofDigitChars_decimal, if_pos ⟨decimal_ne_nil n, all_isDigit_decimal n, small⟩]

end Str
