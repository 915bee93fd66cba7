import LnurlCash.Lib.PlainQuery
import LnurlCash.Note
import LnurlCash.Reference

namespace LnurlCash

/-- Query pairs serialise and parse back to themselves, whether they replace a
URL's own or are appended behind them. -/
structure UrlCrate.KeepsPairs (U : UrlCrate) : Prop where
  cleared : ∀ {text url}, U.parse text = some url → ∃ out, U.parse (U.toText (U.clearQuery url)) = some out ∧
    U.queryPairs out = []
  rebuilt : ∀ {text url}, U.parse text = some url → ∀ pairs, ∃ out,
    U.parse (U.toText (U.appendPairs (U.clearQuery url) pairs)) = some out ∧ U.queryPairs out = pairs
  appended : ∀ {text url}, U.parse text = some url → ∀ pairs, ∃ out,
    U.parse (U.toText (U.appendPairs url pairs)) = some out ∧ U.queryPairs out = U.queryPairs url ++ pairs

/-- A text that parses, with this URL's scheme and host. -/
def UrlCrate.SameOrigin (U : UrlCrate) (url : U.Url) (text : Str) : Prop :=
  ∃ out, U.parse text = some out ∧ U.scheme out = U.scheme url ∧ U.hostStr out = U.hostStr url

/-- An http or https URL keeps its scheme and host whatever becomes of its query. -/
structure UrlCrate.KeepsOrigin (U : UrlCrate) : Prop where
  cleared : ∀ {text url}, U.parse text = some url → U.scheme url ∈ ["http".toList, "https".toList] →
    U.SameOrigin url (U.toText (U.clearQuery url))
  rebuilt : ∀ {text url}, U.parse text = some url → U.scheme url ∈ ["http".toList, "https".toList] → ∀ pairs,
    U.SameOrigin url (U.toText (U.appendPairs (U.clearQuery url) pairs))
  appended : ∀ {text url}, U.parse text = some url → U.scheme url ∈ ["http".toList, "https".toList] → ∀ pairs,
    U.SameOrigin url (U.toText (U.appendPairs url pairs))

variable {C : Crates} {text : Str} {url : C.url.Url}

theorem Crates.parse_rebuild (keeps : C.url.KeepsPairs) (parsed : C.url.parse text = some url)
    (pairs : List (Str × Str)) :
    ∃ out, C.url.parse (C.rebuild url pairs) = some out ∧ C.url.queryPairs out = pairs := by
  by_cases empty : pairs = []
  · rw [rebuild, if_pos empty, empty]
    exact keeps.cleared parsed
  · rw [rebuild, if_neg empty]
    exact keeps.rebuilt parsed pairs

/-- A rebuilt URL's parameters are the pairs it was rebuilt with. -/
theorem Crates.firstParam_rebuild (keeps : C.url.KeepsPairs) (parsed : C.url.parse text = some url)
    (pairs : List (Str × Str)) (key : Str) : C.firstParam (C.rebuild url pairs) key = pairs.lookup key := by
  obtain ⟨out, again, same⟩ := parse_rebuild keeps parsed pairs
  simp only [firstParam, again, same, Option.bind_eq_bind, Option.bind_some]

/-- A parameter is found as before among the pairs kept, when every pair of its name is. -/
theorem lookup_filter {key : Str} {kept : Str × Str → Bool} (keeps : ∀ value, kept (key, value))
    (pairs : List (Str × Str)) :
    (pairs.filter kept).lookup key = pairs.lookup key := by
  induction pairs with
  | nil => rfl
  | cons pair rest ih =>
    obtain ⟨name, value⟩ := pair
    by_cases same : key = name
    · subst same
      rw [List.filter_cons_of_pos (keeps value), List.lookup_cons_self, List.lookup_cons_self]
    · have other : (key == name) = false := beq_false_of_ne same
      rw [List.lookup_cons, other, ← ih]
      by_cases held : kept (name, value)
      · rw [List.filter_cons_of_pos held, List.lookup_cons, other]
      · rw [List.filter_cons_of_neg held]

/-! The plain URLs keep both. -/

theorem reference.keepsPairs : reference.url.KeepsPairs where
  cleared parsed := ⟨_, PlainUrl.parse_toText (PlainUrl.wellFormed_of_parse parsed).clearQuery, rfl⟩
  rebuilt parsed pairs := by
    obtain ⟨formed, same⟩ := (PlainUrl.wellFormed_of_parse parsed).clearQuery.appendPairs pairs
    exact ⟨_, PlainUrl.parse_toText formed, same⟩
  appended parsed pairs := by
    obtain ⟨formed, same⟩ := (PlainUrl.wellFormed_of_parse parsed).appendPairs pairs
    exact ⟨_, PlainUrl.parse_toText formed, same⟩

theorem reference.keepsOrigin : reference.url.KeepsOrigin where
  cleared parsed _ := ⟨_, PlainUrl.parse_toText (PlainUrl.wellFormed_of_parse parsed).clearQuery, rfl, rfl⟩
  rebuilt parsed _ pairs :=
    ⟨_, PlainUrl.parse_toText ((PlainUrl.wellFormed_of_parse parsed).clearQuery.appendPairs pairs).1, rfl, rfl⟩
  appended parsed _ pairs :=
    ⟨_, PlainUrl.parse_toText ((PlainUrl.wellFormed_of_parse parsed).appendPairs pairs).1, rfl, rfl⟩

end LnurlCash
