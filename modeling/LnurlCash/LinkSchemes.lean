import LnurlCash.AdmittedUrls
import LnurlCash.QueryRewrites

namespace LnurlCash

open Authority

/-- What a LUD-17 link has behind its scheme. -/
def lud17Rest (value : Str) : Option Str :=
  (lud17Schemes.find? (·.isPrefixOf (Str.lower value))).map fun pre => value.drop pre.length

/-- What `from_lud17` takes for the host: the text before the first slash, and before a colon in it. -/
def guessedHost (rest : Str) : Str := Str.lower (Str.before ':' (Str.before '/' rest))

/-- A URL with the scheme its host deserves: http for loopback and onion hosts, https for every other. -/
def UrlCrate.FitsHost (U : UrlCrate) (url : U.Url) : Prop :=
  ∀ host, U.hostStr url = some host →
    U.scheme url = if isInsecureHost host then "http".toList else "https".toList

variable {C : Crates} {readHost : Str → Option Str} {value rest withdrawLink front host : Str} {url : C.url.Url}

/-- The scheme the guess leads to. -/
def linkScheme (rest : Str) : Str := if isInsecureHost (guessedHost rest) then "http".toList else "https".toList

theorem fromLud17_of_rest (link : lud17Rest value = some rest) :
    fromLud17 value = linkScheme rest ++ "://".toList ++ rest := by
  obtain ⟨pre, found, rfl⟩ := Option.map_eq_some_iff.mp link
  rw [fromLud17, found]
  rfl

/-- A URL of the same scheme and host fits its host alike. -/
theorem UrlCrate.FitsHost.congr {U : UrlCrate} {url out : U.Url} {text : Str} (same : U.SameOrigin url text)
    (parsed : U.parse text = some out) : U.FitsHost out ↔ U.FitsHost url := by
  obtain ⟨other, again, scheme, host⟩ := same
  cases Option.some.inj (parsed.symm.trans again)
  rw [FitsHost, FitsHost, scheme, host]

end LnurlCash
