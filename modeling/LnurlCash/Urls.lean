import LnurlCash.Lib.Bech32Encode
import LnurlCash.Crates

namespace LnurlCash

/-- BIP-173's checksum, what an LNURL carries. -/
def bech32Residue : BitVec 30 := 1

/-- BIP-350's checksum, what LUD-25's strings carry. -/
def bech32mResidue : BitVec 30 := 0x2bc830a3

def insecureHosts : List Str := ["127.0.0.1".toList, "0.0.0.0".toList, "localhost".toList]

def isInsecureHost (host : Str) : Bool := insecureHosts.contains host || ".onion".toList.isSuffixOf host

def isBech32Lnurl (data : Str) : Bool := "LNURL1".toList.isPrefixOf (Str.upper (Str.trim data))

def fromBech32Lnurl (data : Str) : Option Str :=
  let trimmed := Str.trim data
  if "LNURL1".toList.isPrefixOf (Str.upper trimmed) then
    (Bech32.decode bech32Residue "lnurl".toList (Str.lower trimmed)).bind Str.fromUtf8
  else none

def Crates.isAllowedServiceUrl (C : Crates) (value : Str) : Bool :=
  match C.url.parse value with
  | none => false
  | some url =>
    if C.url.scheme url = "https".toList then (C.url.hostStr url).isSome
    else if C.url.scheme url = "http".toList then (C.url.hostStr url).any isInsecureHost
    else false

def lud17Schemes : List Str :=
  ["lnurlw://".toList, "lnurlp://".toList, "lnurlc://".toList, "keyauth://".toList]

def fromLud17 (url : Str) : Str :=
  match lud17Schemes.find? (·.isPrefixOf (Str.lower url)) with
  | none => url
  | some pre =>
    let rest := url.drop pre.length
    let host := Str.before ':' (Str.before '/' rest)
    let scheme := if isInsecureHost (Str.lower host) then "http".toList else "https".toList
    scheme ++ "://".toList ++ rest

/-- LUD-16. Strict: a host with no dot is not a domain name. -/
def isLightningAddress (value : Str) : Bool :=
  match (Str.trim value).splitOn '@' with
  | [name, domain] =>
    decide (name ≠ []) && !name.any Str.isWhitespace && decide (domain ≠ []) && !domain.any Str.isWhitespace &&
      domain.contains '.' && decide (domain.head? ≠ some '.') && decide (domain.getLast? ≠ some '.')
  | _ => false

def isLoopbackLightningAddress (value : Str) : Bool :=
  match (Str.trim value).splitOn '@' with
  | [name, domain] =>
    decide (name ≠ [] ∧ domain ≠ []) && isInsecureHost (Str.lower (Str.before ':' domain))
  | _ => false

def lnAddressToUrl (address : Str) : Option Str := do
  let (name, domain) ← Str.splitOnce '@' (Str.trim address)
  let host := Str.lower (Str.before ':' domain)
  let scheme := if isInsecureHost host then "http".toList else "https".toList
  some (scheme ++ "://".toList ++ domain ++ "/.well-known/lnurlp/".toList ++ name)

/-- A bare mint domain with no local part, resolved under the name "mint". -/
def isBareMintDomain (value : Str) : Bool :=
  let trimmed := (Str.trim value).dropWhile (· = '@')
  if trimmed = [] ∨ '@' ∈ trimmed ∨ '/' ∈ trimmed then false
  else if trimmed.any Str.isWhitespace then false
  else
    let host := Str.before ':' trimmed
    if '.' ∈ host ∧ host.head? ≠ some '.' ∧ host.getLast? ≠ some '.' then true
    else isInsecureHost (Str.lower host)

def Crates.resolveMintInput (C : Crates) (value : Str) : Option Str :=
  let trimmed := Str.trim value
  if trimmed = [] then none
  else if isBech32Lnurl trimmed then do
    let url ← fromBech32Lnurl trimmed
    if C.isAllowedServiceUrl url then some url else none
  else if isLightningAddress trimmed || isLoopbackLightningAddress trimmed then lnAddressToUrl trimmed
  else if isBareMintDomain trimmed then lnAddressToUrl ("mint@".toList ++ trimmed.dropWhile (· = '@'))
  else none

def Crates.resolveLnurlInput (C : Crates) (value : Str) : Option Str :=
  let trimmed := Str.trim value
  if trimmed = [] then none
  else if isBech32Lnurl trimmed then do
    let url ← fromBech32Lnurl trimmed
    if C.isAllowedServiceUrl url then some url else none
  else
    let lowered := Str.lower trimmed
    if lud17Schemes.any (·.isPrefixOf lowered) then
      let url := fromLud17 trimmed
      if C.isAllowedServiceUrl url then some url else none
    else if isLightningAddress trimmed || isLoopbackLightningAddress trimmed then lnAddressToUrl trimmed
    else if "http://".toList.isPrefixOf lowered || "https://".toList.isPrefixOf lowered then
      if C.isAllowedServiceUrl trimmed then some trimmed else none
    else none

/-! ### Addresses -/

/-- The scheme is chosen by the text up to the domain's first colon. -/
def addressScheme (domain : Str) : Str :=
  if isInsecureHost (Str.lower (Str.before ':' domain)) then "http".toList else "https".toList

def addressUrl (name domain : Str) : Str :=
  addressScheme domain ++ "://".toList ++ domain ++ "/.well-known/lnurlp/".toList ++ name

theorem lnAddressToUrl_eq {value name domain : Str} (whole : Str.trim value = name ++ '@' :: domain) (front : '@' ∉ name) :
    lnAddressToUrl value = some (addressUrl name domain) := by
  simp only [lnAddressToUrl, whole, Str.splitOnce_append front]
  rfl

/-- An address has one `@`, and behind it a dot or the name of an insecure host. -/
theorem address_parts {value : Str} (address : isLightningAddress value || isLoopbackLightningAddress value) :
    ∃ name domain, Str.trim value = name ++ '@' :: domain ∧ '@' ∉ name ∧ '@' ∉ domain ∧
      ('.' ∈ domain ∨ isInsecureHost (Str.lower (Str.before ':' domain))) := by
  rcases Bool.or_eq_true_iff.mp address with strict | loopback
  · unfold isLightningAddress at strict
    split at strict
    · rename_i name domain pieces
      obtain ⟨whole, front, back⟩ := Str.splitOn_eq_pair pieces
      simp only [Bool.and_eq_true, List.contains_iff_mem] at strict
      exact ⟨name, domain, whole, front, back, Or.inl strict.1.1.2⟩
    · cases strict
  · unfold isLoopbackLightningAddress at loopback
    split at loopback
    · rename_i name domain pieces
      obtain ⟨whole, front, back⟩ := Str.splitOn_eq_pair pieces
      exact ⟨name, domain, whole, front, back, Or.inr (Bool.and_eq_true_iff.mp loopback).2⟩
    · cases loopback

theorem isSome_lnAddressToUrl {value : Str} (address : isLightningAddress value || isLoopbackLightningAddress value) :
    (lnAddressToUrl value).isSome := by
  obtain ⟨name, domain, whole, front, _⟩ := address_parts address
  rw [lnAddressToUrl_eq whole front, Option.isSome_some]

/-! ### Text that begins as an http URL does -/

theorem not_isBech32Lnurl_of_http {text : Str} (clean : Str.trim text = text)
    (web : "http".toList <+: Str.lower text) : isBech32Lnurl text = false := by
  rw [isBech32Lnurl, clean]
  match text with
  | [] => rfl
  | c :: rest =>
    simp only [Str.lower, List.map_cons, String.reduceToList, List.cons_prefix_cons] at web
    have notL : c.toUpper ≠ 'L' := by
      intro upper
      have lowered : c.toUpper.toLower = 'l' := by rw [upper]; rfl
      rw [Str.toLower_toUpper, ← web.1] at lowered
      exact absurd lowered (by decide)
    simp [Str.upper, List.isPrefixOf, notL.symm]

theorem lud17Schemes_not_http {text pre : Str} (web : "http".toList <+: Str.lower text) (scheme : pre ∈ lud17Schemes) :
    pre.isPrefixOf (Str.lower text) = false := by
  obtain ⟨rest, same⟩ := web
  rw [← same]
  revert pre
  simp [lud17Schemes, List.isPrefixOf]

theorem fromLud17_of_http {text : Str} (web : "http".toList <+: Str.lower text) : fromLud17 text = text := by
  have none : lud17Schemes.find? (·.isPrefixOf (Str.lower text)) = none := by
    rw [List.find?_eq_none]
    intro pre member
    simp [lud17Schemes_not_http web member]
  rw [fromLud17, none]

end LnurlCash
