import LnurlCash.Lib.Bytes
import LnurlCash.Lib.PlainUrl

/-! The pairs of a plain URL's query, written and read back: escaping is undone
by unescaping, an appended pair is read behind those already there, and the text
of a well-formed URL parses as that URL. -/

namespace PlainUrl

/-! ### One component -/

theorem unescape_cons {c : Char} (notEscape : c ≠ '%') (notPlus : c ≠ '+') (rest : Str) :
    unescape (c :: rest) = (unescape rest).map (Str.utf8 [c] ++ ·) := by
  rw [unescape]
  · exact fun _ _ _ escape => absurd escape notEscape
  · exact notEscape
  · exact notPlus

theorem unescape_escaped {high low : Char} {byte : UInt8} (digits : Hex.decode [high, low] = some [byte]) (rest : Str) :
    unescape ('%' :: high :: low :: rest) = (unescape rest).map (byte :: ·) := by
  rw [unescape, digits]
  cases unescape rest <;> rfl

/-- A byte that stands for itself is an ASCII character, and neither of the two that escape. -/
theorem plainByte : ∀ b : UInt8,
    (isAlphanumeric (Char.ofNat b.toNat) || ['*', '-', '.', '_'].contains (Char.ofNat b.toNat)) = true →
      Char.ofNat b.toNat ≠ '%' ∧ Char.ofNat b.toNat ≠ '+' ∧ Str.utf8 [Char.ofNat b.toNat] = [b] :=
  Bytes.forall_byte (by decide +kernel)

theorem unescape_escapeByte (b : UInt8) (rest : Str) :
    unescape (escapeByte b ++ rest) = (unescape rest).map (b :: ·) := by
  rw [escapeByte]
  split
  · rename_i blank
    rw [blank]
    rfl
  · split
    · rename_i plain
      obtain ⟨notEscape, notPlus, same⟩ := plainByte b plain
      rw [List.singleton_append, unescape_cons notEscape notPlus, same]
      rfl
    · have digits : Hex.decode (Str.upper (Hex.encode [b])) = some [b] := by
        rw [← Hex.decode_lower, Str.lower_upper, Hex.decode_lower, Hex.decode_encode]
      exact unescape_escaped digits rest

theorem unescape_flatMap (bytes : List UInt8) : unescape (bytes.flatMap escapeByte) = some bytes := by
  induction bytes with
  | nil => rfl
  | cons b rest ih => rw [List.flatMap_cons, unescape_escapeByte, ih, Option.map_some]

theorem unescape_escape (text : Str) : (unescape (escape text)).bind Str.fromUtf8 = some text := by
  rw [escape, unescape_flatMap, Option.bind_some, Str.fromUtf8_utf8]

/-- What a query may carry and still fall into the same pairs. -/
def isPairChar (c : Char) : Bool := isQueryChar c && !(['&', '='].contains c)

theorem all_escapeByte : ∀ b : UInt8, (escapeByte b).all isPairChar := Bytes.forall_byte (by decide +kernel)

theorem isPairChar_of_mem_escape {text : Str} {c : Char} (member : c ∈ escape text) : isPairChar c := by
  obtain ⟨b, _, inside⟩ := List.mem_flatMap.mp member
  exact List.all_eq_true.mp (all_escapeByte b) c inside

theorem notMem_escape {c : Char} (outside : isPairChar c = false) (text : Str) : c ∉ escape text := by
  intro member
  rw [isPairChar_of_mem_escape member] at outside
  cases outside

/-! ### Pairs -/

def pairText (pair : Str × Str) : Str := escape pair.1 ++ '=' :: escape pair.2

theorem decodePair_pairText (pair : Str × Str) : decodePair (pairText pair) = some pair := by
  have split : Str.splitOnce '=' (escape pair.1 ++ '=' :: escape pair.2) = some (escape pair.1, escape pair.2) :=
    Str.splitOnce_append (notMem_escape (by decide) pair.1)
  rw [decodePair, pairText, split]
  simp only [Option.getD_some, unescape_escape, Option.bind_eq_bind, Option.bind_some]

theorem notMem_pairText {c : Char} (outside : isPairChar c = false) (other : c ≠ '=') (pair : Str × Str) :
    c ∉ pairText pair := by
  simp only [pairText, List.mem_append, List.mem_cons, not_or]
  exact ⟨notMem_escape outside pair.1, other, notMem_escape outside pair.2⟩

theorem all_isQueryChar_pairText (pair : Str × Str) : (pairText pair).all isQueryChar := by
  have component (text : Str) : (escape text).all isQueryChar := by
    rw [List.all_eq_true]
    intro c member
    exact (Bool.and_eq_true_iff.mp (isPairChar_of_mem_escape member)).1
  rw [pairText, List.all_append, List.all_cons, component, component]
  rfl

theorem pairText_ne_nil (pair : Str × Str) : pairText pair ≠ [] := by simp [pairText]

theorem splitOn_pairText (pair : Str × Str) : (pairText pair).splitOn '&' = [pairText pair] :=
  List.splitOn_eq_singleton (notMem_pairText (by decide) (by decide) pair)

theorem appendPair_eq (query : Str) (pair : Str × Str) :
    appendPair query pair = query ++ (if query = [] then [] else ['&']) ++ pairText pair := by
  rw [appendPair, pairText, List.append_assoc]

/-- An appended pair is read behind every pair that was there. -/
theorem decodePairs_appendPair (query : Str) (pair : Str × Str) :
    decodePairs (appendPair query pair) = (decodePairs query).map (· ++ [pair]) := by
  have kept : [pairText pair].filter (· ≠ []) = [pairText pair] := by simp [pairText_ne_nil]
  have read : [pairText pair].mapM decodePair = some [pair] := by
    rw [List.mapM_cons, decodePair_pairText, List.mapM_nil]
    rfl
  rw [appendPair_eq]
  by_cases empty : query = []
  · rw [if_pos empty, empty, List.nil_append, List.nil_append, decodePairs, splitOn_pairText, kept, read]
    rfl
  · have split : (query ++ ['&'] ++ pairText pair).splitOn '&' = query.splitOn '&' ++ [pairText pair] := by
      rw [List.append_assoc, List.singleton_append, List.splitOn_append_cons_self, splitOn_pairText]
    rw [if_neg empty, decodePairs, split, List.filter_append, kept, List.mapM_append, read, decodePairs]
    cases ((query.splitOn '&').filter (· ≠ [])).mapM decodePair <;> rfl

theorem decodePairs_appendPairs (query : Str) (pairs : List (Str × Str)) :
    decodePairs (pairs.foldl appendPair query) = (decodePairs query).map (· ++ pairs) := by
  induction pairs generalizing query with
  | nil => simp
  | cons pair rest ih =>
    rw [List.foldl_cons, ih, decodePairs_appendPair, Option.map_map]
    congr 1
    funext read
    simp

theorem all_isQueryChar_appendPairs {query : Str} (plain : query.all isQueryChar) (pairs : List (Str × Str)) :
    (pairs.foldl appendPair query).all isQueryChar := by
  induction pairs generalizing query with
  | nil => exact plain
  | cons pair rest ih =>
    apply ih
    rw [appendPair_eq, List.all_append, List.all_append, plain, all_isQueryChar_pairText]
    split <;> rfl

/-! ### The text of a URL -/

/-- What parsing leaves of a URL's parts. -/
structure WellFormed (url : PlainUrl) : Prop where
  scheme : url.scheme = "http".toList ∨ url.scheme = "https".toList
  host : isHost url.host
  lower : Str.lower url.host = url.host
  port : ∀ port ∈ url.port, port < 65536 ∧ port ≠ defaultPort url.scheme
  absolute : ∃ rest, url.path = '/' :: rest
  path : url.path.all isPathChar ∧ (url.path.splitOn '/').all (· ∉ [['.'], ['.', '.']])
  query : url.query.all fun query => query.all isQueryChar && (decodePairs query).isSome

theorem drop_takeWhile (kept : Char → Bool) (text : Str) :
    text.drop (text.takeWhile kept).length = text.dropWhile kept := by
  induction text with
  | nil => rfl
  | cons c rest ih =>
    by_cases keeps : kept c
    · rw [List.takeWhile_cons_of_pos keeps, List.dropWhile_cons_of_pos keeps, List.length_cons, List.drop_succ_cons, ih]
    · rw [List.takeWhile_cons_of_neg keeps, List.dropWhile_cons_of_neg keeps, List.length_nil, List.drop_zero]

theorem parseAuthority_spec {scheme authority host : Str} {port : Option Nat}
    (parsed : parseAuthority scheme authority = some (host, port)) :
    isHost host ∧ Str.lower host = host ∧ ∀ number ∈ port, number < 65536 ∧ number ≠ defaultPort scheme := by
  obtain ⟨name, valid, same⟩ := parseAuthority_eq_some parsed
  refine ⟨same ▸ isHost_lower valid, by rw [same, Str.lower_lower], ?_⟩
  unfold parseAuthority at parsed
  split at parsed
  · obtain ⟨_, same⟩ := Option.ite_none_right_eq_some.mp parsed
    cases same
    simp
  · obtain ⟨number, digits, parsed⟩ := Option.bind_eq_some_iff.mp parsed
    obtain ⟨_, same⟩ := Option.ite_none_right_eq_some.mp parsed
    obtain ⟨_, rfl⟩ := Prod.mk.inj (Option.some.inj same)
    obtain ⟨⟨_, _, small⟩, value⟩ := Option.ite_none_right_eq_some.mp digits
    rw [Option.some.inj value] at small
    intro other member
    obtain ⟨notDefault, same⟩ := Option.ite_none_left_eq_some.mp (Option.mem_def.mp member)
    rw [← Option.some.inj same]
    exact ⟨small, notDefault⟩

theorem isAlphanumeric_of_isDigit {c : Char} (digit : c.isDigit) : isAlphanumeric c := by
  have range := Str.isDigit_iff.mp digit
  simp only [isAlphanumeric, decide_eq_true_eq]
  omega

/-- An authority is letters, digits, dots and at most one colon. -/
theorem parseAuthority_chars {scheme authority host : Str} {port : Option Nat}
    (parsed : parseAuthority scheme authority = some (host, port)) :
    authority ≠ [] ∧ ∀ c ∈ authority, isAlphanumeric c ∨ c = '.' ∨ c = ':' := by
  have nonempty {name : Str} (valid : isHost name) : name ≠ [] := by
    rintro rfl
    exact absurd valid (by decide)
  unfold parseAuthority at parsed
  split at parsed
  · obtain ⟨valid, _⟩ := Option.ite_none_right_eq_some.mp parsed
    exact ⟨nonempty valid, fun c member => (isHost_chars valid c member).imp_right Or.inl⟩
  · rename_i name digits found
    obtain ⟨number, digits, parsed⟩ := Option.bind_eq_some_iff.mp parsed
    obtain ⟨valid, _⟩ := Option.ite_none_right_eq_some.mp parsed
    obtain ⟨⟨_, decimal, _⟩, _⟩ := Option.ite_none_right_eq_some.mp digits
    obtain ⟨whole, _⟩ := Str.splitOnce_some found
    rw [whole]
    refine ⟨by simp, fun c member => ?_⟩
    rcases List.mem_append.mp member with inHost | inPort
    · exact (isHost_chars valid c inHost).imp_right Or.inl
    · rcases List.mem_cons.mp inPort with colon | digit
      · exact Or.inr (Or.inr colon)
      · exact Or.inl (isAlphanumeric_of_isDigit (List.all_eq_true.mp decimal c digit))

/-- The pieces a parsed text falls into, and what each of them gave the URL. -/
structure Pieces (scheme authority path query : Str) (url : PlainUrl) : Prop where
  named : url.scheme = Str.lower scheme
  known : url.scheme = "http".toList ∨ url.scheme = "https".toList
  located : parseAuthority url.scheme authority = some (url.host, url.port)
  ends : '/' ∉ authority ∧ '?' ∉ authority
  relative : ∀ c ∈ path.head?, c = '/'
  completed : url.path = if path = [] then ['/'] else path
  plain : url.path.all isPathChar ∧ (url.path.splitOn '/').all (· ∉ [['.'], ['.', '.']])
  written : query = url.query.elim [] ('?' :: ·)
  decodes : url.query.all fun query => query.all isQueryChar && (decodePairs query).isSome

theorem pieces_of_parse {text : Str} {url : PlainUrl} (parsed : parse text = some url) :
    ∃ scheme authority path query, text = scheme ++ ':' :: ("//".toList ++ (authority ++ (path ++ query))) ∧
      ':' ∉ scheme ∧ Pieces scheme authority path query url := by
  simp only [parse, Option.bind_eq_bind, Option.bind_eq_some_iff, Option.ite_none_right_eq_some,
    Option.some.injEq] at parsed
  obtain ⟨⟨scheme, rest⟩, first, tail, slashes, ⟨host, port⟩, located, admitted, made⟩ := parsed
  obtain ⟨whole, colonless⟩ := Str.splitOnce_some first
  have behind : rest = "//".toList ++ tail := Str.stripPrefix_eq_some.mp slashes
  have parts : tail = tail.takeWhile (· ∉ ['/', '?']) ++ tail.dropWhile (· ∉ ['/', '?']) :=
    List.takeWhile_append_dropWhile.symm
  have ends : '/' ∉ tail.takeWhile (· ∉ ['/', '?']) ∧ '?' ∉ tail.takeWhile (· ∉ ['/', '?']) := by
    constructor
    · intro member
      simpa using List.mem_takeWhile_imp member
    · intro member
      simpa using List.mem_takeWhile_imp member
  have start : ∀ c ∈ (tail.dropWhile (· ∉ ['/', '?'])).head?, c = '/' ∨ c = '?' := by
    intro c member
    have delimiter := List.head?_dropWhile_not (· ∉ ['/', '?']) tail
    rw [Option.mem_def.mp member] at delimiter
    exact Decidable.or_iff_not_imp_left.mpr (by simpa using delimiter)
  rw [drop_takeWhile] at admitted made
  generalize tail.takeWhile (· ∉ ['/', '?']) = authority at parts ends located
  generalize tail.dropWhile (· ∉ ['/', '?']) = below at parts start admitted made
  cases found : Str.splitOnce '?' below with
  | none =>
    simp only [found] at admitted made
    subst made
    refine ⟨scheme, authority, below, [], ?_, colonless, rfl, admitted.1, located, ends, ?_, rfl,
      ⟨admitted.2.1, admitted.2.2.1⟩, rfl, admitted.2.2.2⟩
    · rw [whole, behind, parts, List.append_nil]
    · intro c member
      have other := ne_of_mem_of_not_mem (List.mem_of_mem_head? member) (Str.splitOnce_eq_none.mp found)
      exact (start c member).resolve_right other
  | some split =>
    obtain ⟨path, query⟩ := split
    obtain ⟨same, absent⟩ := Str.splitOnce_some found
    simp only [found] at admitted made
    subst made
    refine ⟨scheme, authority, path, '?' :: query, ?_, colonless, rfl, admitted.1, located, ends, ?_, rfl,
      ⟨admitted.2.1, admitted.2.2.1⟩, rfl, admitted.2.2.2⟩
    · rw [whole, behind, parts, same]
    · intro c member
      have other := ne_of_mem_of_not_mem (List.mem_of_mem_head? member) absent
      have first : c ∈ below.head? := by
        rw [same, List.head?_append_of_ne_nil _ (List.ne_nil_of_mem (List.mem_of_mem_head? member))]
        exact member
      exact (start c first).resolve_right other

theorem wellFormed_of_parse {text : Str} {url : PlainUrl} (parsed : parse text = some url) : WellFormed url := by
  obtain ⟨scheme, authority, path, query, _, _, pieces⟩ := pieces_of_parse parsed
  obtain ⟨named, lowered, ported⟩ := parseAuthority_spec pieces.located
  refine ⟨pieces.known, named, lowered, ported, ?_, pieces.plain, pieces.decodes⟩
  rw [pieces.completed]
  cases start : path with
  | nil => exact ⟨[], rfl⟩
  | cons c rest =>
    have slash : c = '/' := pieces.relative c (by rw [start]; rfl)
    exact ⟨rest, by rw [if_neg (List.cons_ne_nil c rest), slash]⟩

/-- The authority of a URL as it is written. -/
def authorityText (url : PlainUrl) : Str := url.host ++ url.port.elim [] fun port => ':' :: Str.decimal port

def queryText (url : PlainUrl) : Str := url.query.elim [] ('?' :: ·)

theorem toText_eq (url : PlainUrl) :
    toText url = url.scheme ++ ':' :: ("//".toList ++ (authorityText url ++ (url.path ++ queryText url))) := by
  simp only [toText, authorityText, queryText, List.append_assoc]
  rfl

theorem parseAuthority_authorityText {url : PlainUrl} (formed : WellFormed url) :
    parseAuthority url.scheme (authorityText url) = some (url.host, url.port) := by
  have colonless : ':' ∉ url.host := not_mem_of_isHost formed.host (by decide) (by decide)
  cases port : url.port with
  | none =>
    have whole : authorityText url = url.host := by
      rw [authorityText, port]
      exact List.append_nil _
    rw [whole, parseAuthority, Str.splitOnce_eq_none.mpr colonless]
    simp only [if_pos formed.host, formed.lower]
  | some number =>
    have whole : authorityText url = url.host ++ ':' :: Str.decimal number := by
      rw [authorityText, port]
      rfl
    obtain ⟨small, notDefault⟩ := formed.port number port
    have digits : Str.parseDigits 65536 (Str.decimal number) = some number := Str.parseDigits_decimal small
    rw [whole, parseAuthority, Str.splitOnce_append colonless]
    simp only [digits, if_pos formed.host, formed.lower, if_neg notDefault, Option.bind_eq_bind, Option.bind_some]

theorem notMem_authorityText {url : PlainUrl} (formed : WellFormed url) {c : Char} (outside : isAlphanumeric c = false)
    (others : c ≠ '.' ∧ c ≠ ':') : c ∉ authorityText url := by
  intro member
  rcases (parseAuthority_chars (parseAuthority_authorityText formed)).2 c member with inside | dot | colon
  · rw [outside] at inside
    cases inside
  · exact others.1 dot
  · exact others.2 colon

theorem splitOnce_path {url : PlainUrl} (formed : WellFormed url) :
    Str.splitOnce '?' (url.path ++ queryText url) = url.query.map fun query => (url.path, query) := by
  have absent : '?' ∉ url.path := by
    intro member
    have inside := List.all_eq_true.mp formed.path.1 '?' member
    exact absurd inside (by decide)
  cases query : url.query with
  | none =>
    rw [queryText, query, Option.elim_none, List.append_nil, Str.splitOnce_eq_none.mpr absent]
    rfl
  | some text =>
    rw [queryText, query]
    exact Str.splitOnce_append absent

/-- A well-formed URL's text parses as that URL. -/
theorem parse_toText {url : PlainUrl} (formed : WellFormed url) : parse (toText url) = some url := by
  have colonless : ':' ∉ url.scheme := by
    rcases formed.scheme with http | https
    · rw [http]; decide
    · rw [https]; decide
  have lowered : Str.lower url.scheme = url.scheme := by
    rcases formed.scheme with http | https
    · rw [http]; decide
    · rw [https]; decide
  have slashes : Str.stripPrefix "//".toList ("//".toList ++ (authorityText url ++ (url.path ++ queryText url))) =
      some (authorityText url ++ (url.path ++ queryText url)) := Str.stripPrefix_eq_some.mpr rfl
  have front : (authorityText url ++ (url.path ++ queryText url)).takeWhile (· ∉ ['/', '?']) = authorityText url := by
    obtain ⟨rest, absolute⟩ := formed.absolute
    rw [List.takeWhile_append_of_pos, absolute, List.cons_append, List.takeWhile_cons_of_neg (by decide),
      List.append_nil]
    intro c member
    have slash := ne_of_mem_of_not_mem member (notMem_authorityText formed (c := '/') (by decide) (by decide))
    have mark := ne_of_mem_of_not_mem member (notMem_authorityText formed (c := '?') (by decide) (by decide))
    simp [slash, mark]
  have nonempty : url.path ≠ [] := by
    obtain ⟨rest, absolute⟩ := formed.absolute
    simp [absolute]
  rw [parse, toText_eq, Str.splitOnce_append colonless]
  simp only [slashes, lowered, front, List.drop_left, parseAuthority_authorityText formed, splitOnce_path formed,
    Option.bind_eq_bind, Option.bind_some]
  obtain ⟨pathChars, segments⟩ := formed.path
  have query := formed.query
  cases written : url.query with
  | none =>
    have bare : url.path ++ queryText url = url.path := by
      rw [queryText, written]
      exact List.append_nil _
    simp only [Option.map_none, bare, if_neg nonempty, pathChars, segments, Option.all_none, and_self, and_true]
    rw [if_pos formed.scheme, ← written]
  | some text =>
    rw [written] at query
    simp only [Option.map_some, if_neg nonempty, pathChars, segments, query, and_self, and_true]
    rw [if_pos formed.scheme, ← written]

/-! ### A URL with its query changed -/

theorem WellFormed.clearQuery {url : PlainUrl} (formed : WellFormed url) : WellFormed { url with query := none } :=
  { formed with query := rfl }

theorem WellFormed.appendPairs {url : PlainUrl} (formed : WellFormed url) (pairs : List (Str × Str)) :
    WellFormed (url.appendPairs pairs) ∧ (url.appendPairs pairs).queryPairs = url.queryPairs ++ pairs := by
  have decoded : ∃ read, decodePairs (url.query.getD []) = some read ∧ read = url.queryPairs ∧
      (url.query.getD []).all isQueryChar := by
    have query := formed.query
    rw [queryPairs]
    cases written : url.query with
    | none => exact ⟨[], rfl, rfl, rfl⟩
    | some text =>
      rw [written, Option.all_some, Bool.and_eq_true] at query
      obtain ⟨read, found⟩ := Option.isSome_iff_exists.mp query.2
      exact ⟨read, found, by simp [found], query.1⟩
  obtain ⟨read, found, same, plain⟩ := decoded
  have appended : decodePairs (pairs.foldl appendPair (url.query.getD [])) = some (read ++ pairs) := by
    rw [decodePairs_appendPairs, found, Option.map_some]
  constructor
  · refine { formed with query := ?_ }
    simp only [PlainUrl.appendPairs, Option.all_some, appended, Option.isSome_some, Bool.and_true,
      all_isQueryChar_appendPairs plain pairs]
  · rw [queryPairs, PlainUrl.appendPairs, Option.bind_some, appended, same, Option.getD_some]

end PlainUrl
