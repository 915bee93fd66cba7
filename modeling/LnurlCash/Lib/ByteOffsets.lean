import LnurlCash.Lib.Checked
import LnurlCash.Lib.Text

/-! Texts cut at offsets into their UTF-8 bytes. -/

namespace Str

/-- The text before and behind an offset, none if it is outside the text or inside a character. -/
def splitAt? : Str → Nat → Option (Str × Str)
  | s, 0 => some ([], s)
  | [], _ + 1 => none
  | c :: rest, offset + 1 =>
    if c.utf8Size ≤ offset + 1 then
      (splitAt? rest (offset + 1 - c.utf8Size)).map fun parts => (c :: parts.1, parts.2)
    else none

/-- The offset of a character's last occurrence, `str::rfind`. -/
def rfind (sep : Char) : Str → Option Nat
  | [] => none
  | c :: rest =>
    match rfind sep rest with
    | some offset => some (c.utf8Size + offset)
    | none => if c = sep then some 0 else none

theorem byteLen_cons (c : Char) (s : Str) : byteLen (c :: s) = c.utf8Size + byteLen s := by
  rw [byteLen, List.map_cons, List.sum_cons, byteLen]

theorem byteLen_append (a b : Str) : byteLen (a ++ b) = byteLen a + byteLen b := by
  rw [byteLen, List.map_append, List.sum_append, byteLen, byteLen]

/-- Where one text ends and another begins is never inside a character. -/
theorem splitAt?_append (front back : Str) : splitAt? (front ++ back) (byteLen front) = some (front, back) := by
  induction front with
  | nil => cases back <;> rfl
  | cons c rest ih =>
    obtain ⟨size, positive⟩ : ∃ size, c.utf8Size = size + 1 := Nat.exists_eq_succ_of_ne_zero c.utf8Size_pos.ne'
    have offset : byteLen (c :: rest) = (size + byteLen rest) + 1 := by
      rw [byteLen_cons, positive]
      omega
    rw [List.cons_append, offset, splitAt?, positive, if_pos (by omega),
      show size + byteLen rest + 1 - (size + 1) = byteLen rest by omega, ih]
    rfl

theorem length_utf8 (s : Str) : (utf8 s).length = byteLen s := by
  simp [utf8, byteLen, List.length_flatMap]

/-- The byte of a character of one byte, where the text before it ends. -/
theorem getElem?_utf8 (front back : Str) {c : Char} {byte : UInt8} (single : String.utf8EncodeChar c = [byte]) :
    (utf8 (front ++ c :: back))[byteLen front]? = some byte := by
  have whole : utf8 (front ++ c :: back) = utf8 front ++ byte :: utf8 back := by
    rw [utf8, List.flatMap_append, List.flatMap_cons, single]
    rfl
  rw [whole, ← length_utf8, List.getElem?_append_right (Nat.le_refl _), Nat.sub_self]
  rfl

theorem rfind_eq (sep : Char) (s : Str) : rfind sep s = (rsplitOnce sep s).map fun parts => byteLen parts.1 := by
  induction s with
  | nil => rfl
  | cons c rest ih =>
    rw [rfind, rsplitOnce, ih]
    cases rsplitOnce sep rest with
    | some parts => rw [Option.map_some, Option.map_some, byteLen_cons]
    | none =>
      by_cases same : c = sep
      · rw [Option.map_none, if_pos same, if_pos same]
        rfl
      · rw [Option.map_none, if_neg same, if_neg same]
        rfl

/-- The last byte of a character is an ASCII one only for that ASCII character. -/
theorem getLast?_utf8EncodeChar {d : Char} (ascii : d.toNat < 128) (c : Char) :
    (String.utf8EncodeChar c).getLast? = some (UInt8.ofNat d.toNat) ↔ c = d := by
  have value : (UInt8.ofNat d.toNat).toNat = d.toNat := by
    rw [UInt8.toNat_ofNat']
    omega
  have later : ∀ n, some (UInt8.ofNat (n % 0x40 + 0x80)) ≠ some (UInt8.ofNat d.toNat) := by
    intro n same
    have bytes := congrArg UInt8.toNat (Option.some.inj same)
    rw [value, UInt8.toNat_ofNat'] at bytes
    omega
  rw [← Char.toNat_inj]
  change _ ↔ c.val.toNat = d.toNat
  simp only [String.utf8EncodeChar]
  generalize c.val.toNat = v
  by_cases one : v ≤ 0x7f
  · rw [if_pos one]
    constructor
    · intro same
      rw [List.getLast?_singleton, Option.some.injEq] at same
      have bytes := congrArg UInt8.toNat same
      rw [value, UInt8.toNat_ofNat'] at bytes
      omega
    · rintro rfl
      rfl
  · rw [if_neg one]
    refine iff_of_false ?_ (by omega)
    by_cases two : v ≤ 0x7ff
    · rw [if_pos two]
      exact later _
    · rw [if_neg two]
      by_cases three : v ≤ 0xffff
      · rw [if_pos three]
        exact later _
      · rw [if_neg three]
        exact later _

theorem getLast?_utf8 {d : Char} (ascii : d.toNat < 128) (s : Str) :
    (utf8 s).getLast? = some (UInt8.ofNat d.toNat) ↔ s.getLast? = some d := by
  induction s using List.reverseRecOn with
  | nil => exact iff_of_false (by simp [utf8]) (by simp)
  | append_singleton front c =>
    have whole : utf8 (front ++ [c]) = utf8 front ++ String.utf8EncodeChar c := by
      rw [utf8, List.flatMap_append, List.flatMap_singleton, utf8]
    rw [whole, List.getLast?_append_of_ne_nil _ String.utf8EncodeChar_ne_nil, getLast?_utf8EncodeChar ascii,
      List.getLast?_append_of_ne_nil _ (List.cons_ne_nil c []), List.getLast?_singleton, Option.some.injEq]

end Str

namespace Checked

def splitAt (s : Str) (offset : Nat) : Checked (Str × Str) :=
  match s.splitAt? offset with
  | some parts => pure parts
  | none => panic .boundary

/-- The slice of a text up to an offset. -/
def textTo (s : Str) (offset : Nat) : Checked Str := Prod.fst <$> splitAt s offset

/-- The slice of a text from an offset on. -/
def textFrom (s : Str) (offset : Nat) : Checked Str := Prod.snd <$> splitAt s offset

theorem returns_splitAt (front back : Str) :
    Returns (splitAt (front ++ back) (Str.byteLen front)) (some (front, back)) := by
  rw [splitAt, Str.splitAt?_append]
  exact returns_pure _

theorem returns_textTo (front back : Str) : Returns (textTo (front ++ back) (Str.byteLen front)) (some front) :=
  (returns_splitAt front back).map Prod.fst

theorem returns_textFrom (front back : Str) : Returns (textFrom (front ++ back) (Str.byteLen front)) (some back) :=
  (returns_splitAt front back).map Prod.snd

/-- A text is cut at a separator found in it, and behind it. -/
theorem returns_cut {value : Str} {parts : Str × Str} {sep : Char} (found : Str.rsplitOnce sep value = some parts) :
    Returns (textTo value (Str.byteLen parts.1)) (some parts.1) ∧
      Returns (textFrom value (Str.byteLen parts.1 + sep.utf8Size)) (some parts.2) := by
  obtain ⟨whole, _⟩ := Str.rsplitOnce_eq_some.mp found
  have behind : value = (parts.1 ++ [sep]) ++ parts.2 := by rw [whole, List.append_assoc, List.singleton_append]
  have size : Str.byteLen (parts.1 ++ [sep]) = Str.byteLen parts.1 + sep.utf8Size := by
    rw [Str.byteLen_append, Str.byteLen_cons]
    rfl
  rw [← size]
  constructor
  · rw [whole]
    exact returns_textTo parts.1 (sep :: parts.2)
  · rw [behind]
    exact returns_textFrom (parts.1 ++ [sep]) parts.2

/-- A function that asks for the last separator and goes on from there. -/
theorem returns_at_separator {α : Type} {value : Str} {sep : Char} {f : Nat → Checked α} {g : Str × Str → Option α}
    (rest : ∀ parts, Str.rsplitOnce sep value = some parts → Returns (f (Str.byteLen parts.1)) (g parts)) :
    Returns (ask (Str.rfind sep value) >>= f) ((Str.rsplitOnce sep value).bind g) := by
  rw [Str.rfind_eq]
  cases found : Str.rsplitOnce sep value with
  | none => exact Returns.leave (returns_ask none)
  | some parts => exact Returns.andThen (returns_ask (some (Str.byteLen parts.1))) (rest parts found)

end Checked
