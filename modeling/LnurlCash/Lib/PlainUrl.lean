import LnurlCash.Lib.Hex

/-! The plain http and https URLs: a dotted ASCII name for the host, an
optional port, an unescaped path and a query. On these the reading here is the
URL standard's; any other text is refused. -/

structure PlainUrl where
  scheme : Str
  host : Str
  port : Option Nat
  path : Str
  query : Option Str
  deriving DecidableEq

namespace PlainUrl

def isAlphanumeric (c : Char) : Bool :=
  decide (48 ≤ c.toNat ∧ c.toNat ≤ 57 ∨ 65 ≤ c.toNat ∧ c.toNat ≤ 90 ∨ 97 ≤ c.toNat ∧ c.toNat ≤ 122)

/-- Nonempty labels of letters and digits, the last of letters alone, so that
the name is never read as an address. -/
def isHost (host : Str) : Bool :=
  let labels := host.splitOn '.'
  labels.all (fun label => decide (label ≠ []) && label.all isAlphanumeric) &&
    (labels.getLast?.any fun label => label.all fun c => !c.isDigit)

def isPathChar (c : Char) : Bool := isAlphanumeric c || ['/', '-', '_', '~', '.', ':', '@'].contains c

def isQueryChar (c : Char) : Bool :=
  decide (33 ≤ c.toNat ∧ c.toNat ≤ 126) && decide (c ∉ ['"', '#', '<', '>', '\''])

def defaultPort (scheme : Str) : Nat := if scheme = "https".toList then 443 else 80

/-- Percent-decoding with `+` for a space; none where an escape is malformed. -/
def unescape : Str → Option (List UInt8)
  | [] => some []
  | '%' :: high :: low :: rest => do
    let byte ← Hex.decode [high, low]
    let bytes ← unescape rest
    some (byte ++ bytes)
  | '%' :: _ => none
  | '+' :: rest => (unescape rest).map (0x20 :: ·)
  | c :: rest => (unescape rest).map (Str.utf8 [c] ++ ·)

def decodePair (text : Str) : Option (Str × Str) := do
  let (key, value) := (Str.splitOnce '=' text).getD (text, [])
  let key ← (unescape key).bind Str.fromUtf8
  let value ← (unescape value).bind Str.fromUtf8
  some (key, value)

def decodePairs (query : Str) : Option (List (Str × Str)) := ((query.splitOn '&').filter (· ≠ [])).mapM decodePair

def escapeByte (b : UInt8) : Str :=
  if b = 0x20 then ['+']
  else if isAlphanumeric (Char.ofNat b.toNat) || ['*', '-', '.', '_'].contains (Char.ofNat b.toNat) then
    [Char.ofNat b.toNat]
  else '%' :: Str.upper (Hex.encode [b])

def escape (text : Str) : Str := (Str.utf8 text).flatMap escapeByte

def parseAuthority (scheme authority : Str) : Option (Str × Option Nat) :=
  match Str.splitOnce ':' authority with
  | none => if isHost authority then some (Str.lower authority, none) else none
  | some (host, port) => do
    let port ← Str.parseDigits 65536 port
    if isHost host then some (Str.lower host, if port = defaultPort scheme then none else some port) else none

def parse (text : Str) : Option PlainUrl := do
  let (scheme, rest) ← Str.splitOnce ':' text
  let scheme := Str.lower scheme
  let rest ← Str.stripPrefix "//".toList rest
  let authority := rest.takeWhile (· ∉ ['/', '?'])
  let (path, query) := match Str.splitOnce '?' (rest.drop authority.length) with
    | some (path, query) => (path, some query)
    | none => (rest.drop authority.length, none)
  let (host, port) ← parseAuthority scheme authority
  let path := if path = [] then ['/'] else path
  if (scheme = "http".toList ∨ scheme = "https".toList) ∧ path.all isPathChar ∧
      (path.splitOn '/').all (· ∉ [['.'], ['.', '.']]) ∧
      query.all (fun query => query.all isQueryChar && (decodePairs query).isSome) then
    some { scheme, host, port, path, query }
  else none

def toText (url : PlainUrl) : Str :=
  url.scheme ++ "://".toList ++ url.host ++ (url.port.elim [] fun port => ':' :: Str.decimal port) ++ url.path ++
    url.query.elim [] ('?' :: ·)

def queryPairs (url : PlainUrl) : List (Str × Str) := (url.query.bind decodePairs).getD []

/-- Each pair after an ampersand, but for the first of an empty query. -/
def appendPair (query : Str) (pair : Str × Str) : Str :=
  query ++ (if query = [] then [] else ['&']) ++ escape pair.1 ++ '=' :: escape pair.2

def appendPairs (url : PlainUrl) (pairs : List (Str × Str)) : PlainUrl :=
  { url with query := some (pairs.foldl appendPair (url.query.getD [])) }

/-! ### Hosts -/

theorem isAlphanumeric_toLower (c : Char) : isAlphanumeric c.toLower = isAlphanumeric c := by
  simp only [isAlphanumeric, Str.toNat_toLower, decide_eq_decide]
  split <;> omega

theorem isDigit_toLower (c : Char) : c.toLower.isDigit = c.isDigit := by
  rw [Bool.eq_iff_iff, Str.isDigit_iff, Str.isDigit_iff, Str.toNat_toLower]
  split <;> omega

/-- A scalar of a split text is the separator, or one of a piece. -/
theorem mem_splitOn {sep c : Char} {s : Str} (member : c ∈ s) : c = sep ∨ ∃ piece ∈ s.splitOn sep, c ∈ piece := by
  induction s with
  | nil => cases member
  | cons d rest ih =>
    obtain ⟨first, others, pieces⟩ := List.exists_cons_of_ne_nil (List.splitOn_ne_nil sep rest)
    rw [List.splitOn_cons_eq_if_modifyHead, pieces]
    rw [pieces] at ih
    by_cases same : d = sep
    · rw [if_pos (beq_iff_eq.mpr same)]
      rcases List.mem_cons.mp member with rfl | later
      · exact Or.inl same
      · exact (ih later).imp id fun ⟨piece, among, within⟩ => ⟨piece, List.mem_cons_of_mem [] among, within⟩
    · rw [if_neg (by simp [same]), List.modifyHead_cons]
      rcases List.mem_cons.mp member with rfl | later
      · exact Or.inr ⟨c :: first, List.mem_cons_self, List.mem_cons_self⟩
      · rcases ih later with here | ⟨piece, among, within⟩
        · exact Or.inl here
        · rcases List.mem_cons.mp among with rfl | among
          · exact Or.inr ⟨d :: piece, List.mem_cons_self, List.mem_cons_of_mem d within⟩
          · exact Or.inr ⟨piece, List.mem_cons_of_mem _ among, within⟩

theorem splitOn_lower {sep : Char} (notUpper : ¬(65 ≤ sep.toNat ∧ sep.toNat ≤ 90))
    (notLower : ¬(97 ≤ sep.toNat ∧ sep.toNat ≤ 122)) (s : Str) :
    (Str.lower s).splitOn sep = (s.splitOn sep).map Str.lower := by
  induction s with
  | nil => rfl
  | cons c rest ih =>
    obtain ⟨first, others, pieces⟩ := List.exists_cons_of_ne_nil (List.splitOn_ne_nil sep rest)
    rw [Str.lower_cons, List.splitOn_cons_eq_if_modifyHead, List.splitOn_cons_eq_if_modifyHead, ih]
    simp only [beq_iff_eq, Str.toLower_eq_iff notUpper notLower]
    by_cases same : c = sep
    · rw [if_pos same, if_pos same]
      rfl
    · rw [if_neg same, if_neg same, pieces]
      rfl

theorem isHost_lower {host : Str} (valid : isHost host) : isHost (Str.lower host) := by
  have letters : (isAlphanumeric ∘ Char.toLower) = isAlphanumeric := funext isAlphanumeric_toLower
  have digits : ((fun c => !c.isDigit) ∘ Char.toLower) = fun c => !c.isDigit := by
    funext c
    simp only [Function.comp_apply, isDigit_toLower]
  have label (piece : Str) : (decide (Str.lower piece ≠ []) && (Str.lower piece).all isAlphanumeric) =
      (decide (piece ≠ []) && piece.all isAlphanumeric) := by
    simp only [Str.lower, List.all_map, letters, ne_eq, List.map_eq_nil_iff]
  have last (piece : Str) : ((Str.lower piece).all fun c => !c.isDigit) = piece.all fun c => !c.isDigit := by
    simp only [Str.lower, List.all_map, digits]
  simp only [isHost, splitOn_lower (by decide : ¬(65 ≤ '.'.toNat ∧ '.'.toNat ≤ 90)) (by decide), List.all_map,
    List.getLast?_map, Option.any_map, Function.comp_def, label, last]
  exact valid

/-- A host is made of letters, digits and dots. -/
theorem isHost_chars {host : Str} (valid : isHost host) : ∀ c ∈ host, isAlphanumeric c ∨ c = '.' := by
  intro c member
  simp only [isHost, Bool.and_eq_true, List.all_eq_true] at valid
  rcases mem_splitOn member with dot | ⟨piece, among, within⟩
  · exact Or.inr dot
  · exact Or.inl ((valid.1 piece among).2 c within)

theorem not_mem_of_isHost {host : Str} (valid : isHost host) {c : Char} (outside : isAlphanumeric c = false) (dotless : c ≠ '.') :
    c ∉ host := by
  intro member
  rcases isHost_chars valid c member with inside | dot
  · rw [outside] at inside
    cases inside
  · exact dotless dot

theorem parseAuthority_eq_some {scheme authority host : Str} {port : Option Nat}
    (parsed : parseAuthority scheme authority = some (host, port)) : ∃ name, isHost name ∧ host = Str.lower name := by
  unfold parseAuthority at parsed
  split at parsed
  · obtain ⟨valid, same⟩ := Option.ite_none_right_eq_some.mp parsed
    cases same
    exact ⟨authority, valid, rfl⟩
  · rename_i name digits split
    obtain ⟨number, _, parsed⟩ := Option.bind_eq_some_iff.mp parsed
    obtain ⟨valid, same⟩ := Option.ite_none_right_eq_some.mp parsed
    cases same
    exact ⟨name, valid, rfl⟩

/-- The host of a parsed URL is a name, in lowercase. -/
theorem parse_eq_some {text : Str} {url : PlainUrl} (parsed : parse text = some url) :
    ∃ name, isHost name ∧ url.host = Str.lower name := by
  simp only [parse, Option.bind_eq_bind, Option.bind_eq_some_iff, Option.ite_none_right_eq_some,
    Option.some.injEq] at parsed
  obtain ⟨_, _, _, _, ⟨host, port⟩, authority, _, rfl⟩ := parsed
  exact parseAuthority_eq_some authority

theorem parse_https {host : Str} (valid : isHost host) :
    parse ("https://".toList ++ host) =
      some { scheme := "https".toList, host := Str.lower host, port := none, path := ['/'], query := none } := by
  have colonless : Str.splitOnce ':' host = none := Str.splitOnce_eq_none.mpr (not_mem_of_isHost valid (by decide) (by decide))
  have whole : host.takeWhile (· ∉ ['/', '?']) = host := by
    rw [List.takeWhile_eq_self_iff]
    intro c member
    have slash := ne_of_mem_of_not_mem member (not_mem_of_isHost valid (c := '/') (by decide) (by decide))
    have mark := ne_of_mem_of_not_mem member (not_mem_of_isHost valid (c := '?') (by decide) (by decide))
    simp [slash, mark]
  have authority : parseAuthority "https".toList host = some (Str.lower host, none) := by
    rw [parseAuthority, colonless]
    exact if_pos valid
  have scheme : Str.splitOnce ':' ("https://".toList ++ host) = some ("https".toList, "//".toList ++ host) := rfl
  have slashes : Str.stripPrefix "//".toList ("//".toList ++ host) = some host := Str.stripPrefix_eq_some.mpr rfl
  have lowered : Str.lower "https".toList = "https".toList := by decide
  simp only [parse, scheme, lowered, slashes, whole, authority, List.drop_length, Option.bind_eq_bind, Option.bind_some]
  rfl

end PlainUrl
