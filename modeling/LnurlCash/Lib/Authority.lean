import LnurlCash.Lib.PlainQuery

/-! The authority of an http or https URL, read off the text behind its scheme
as the URL standard reads it: tabs and newlines are dropped, leading slashes of
either kind are skipped, and the rest up to the first delimiter is kept. -/

namespace Authority

def isDropped (c : Char) : Bool := ['\t', '\n', '\r'].contains c

def isSlash (c : Char) : Bool := ['/', '\\'].contains c

def isDelimiter (c : Char) : Bool := isSlash c || ['?', '#'].contains c

def authority (rest : Str) : Str :=
  ((rest.filter fun c => !isDropped c).dropWhile isSlash).takeWhile fun c => !isDelimiter c

/-- What an authority has behind its userinfo, which ends at the last `@`. -/
def hostPort (authority : Str) : Str :=
  match Str.rsplitOnce '@' authority with
  | some (_, host) => host
  | none => authority

/-- Some scalar of the text is neither dropped nor skipped. -/
def HasContent (front : Str) : Prop := ∃ c ∈ front, isDropped c = false ∧ isSlash c = false

theorem isDropped_toLower (c : Char) : isDropped c.toLower = isDropped c := by
  rw [Bool.eq_iff_iff]
  simp (disch := decide) only [isDropped, List.contains_iff_mem, List.mem_cons, List.not_mem_nil, Str.toLower_eq_iff]

theorem isSlash_toLower (c : Char) : isSlash c.toLower = isSlash c := by
  rw [Bool.eq_iff_iff]
  simp (disch := decide) only [isSlash, List.contains_iff_mem, List.mem_cons, List.not_mem_nil, Str.toLower_eq_iff]

theorem HasContent.of_lower {front : Str} (content : HasContent (Str.lower front)) : HasContent front := by
  obtain ⟨c, member, kept, plain⟩ := content
  obtain ⟨d, inside, rfl⟩ := List.mem_map.mp member
  rw [isDropped_toLower] at kept
  rw [isSlash_toLower] at plain
  exact ⟨d, inside, kept, plain⟩

theorem HasContent.mono {fewer more : Str} (content : HasContent fewer) (within : fewer ⊆ more) : HasContent more :=
  content.imp fun _ ⟨inside, rest⟩ => ⟨within inside, rest⟩

/-- A text with something to keep before a slash has its whole authority there. -/
theorem authority_append {front : Str} (content : HasContent front) (tail : Str) :
    authority (front ++ '/' :: tail) = authority front := by
  obtain ⟨c, inside, kept, plain⟩ := content
  have started : (front.filter fun c => !isDropped c).dropWhile isSlash ≠ [] := by
    intro empty
    have skipped := List.dropWhile_eq_nil_iff.mp empty c (List.mem_filter.mpr ⟨inside, by simp [kept]⟩)
    rw [plain] at skipped
    cases skipped
  have slash : List.filter (fun c => !isDropped c) ('/' :: tail) = '/' :: tail.filter fun c => !isDropped c :=
    List.filter_cons_of_pos (by decide)
  rw [authority, List.filter_append, slash, List.dropWhile_append, if_neg (by simp [started]), List.takeWhile_append,
    List.takeWhile_cons_of_neg (by decide), List.append_nil, authority]
  split
  · rename_i whole
    exact ((List.takeWhile_prefix _).eq_of_length whole).symm
  · rfl

theorem notMem_authority {rest : Str} {c : Char} (absent : c ∉ rest) : c ∉ authority rest := by
  intro member
  exact absent (List.mem_filter.mp ((List.dropWhile_sublist isSlash).mem ((List.takeWhile_sublist _).mem member))).1

theorem hostPort_of_notMem {authority : Str} (absent : '@' ∉ authority) : hostPort authority = authority := by
  rw [hostPort, Str.rsplitOnce_eq_none.mpr absent]

/-! ### A whole URL -/

/-- What is trimmed off the end of a URL: spaces, and ASCII controls below them. -/
def isTrimmed (c : Char) : Bool := decide (c.toNat ≤ 0x20)

/-- The host and port behind a scheme's slashes. -/
def located (rest : Str) : Str := hostPort (authority (rest.rdropWhile isTrimmed))

end Authority
