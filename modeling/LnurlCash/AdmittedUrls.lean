import LnurlCash.Lib.Authority
import LnurlCash.Reference
import LnurlCash.Urls

namespace LnurlCash

open Authority

/-- How the `url` crate reads http and https: the host and port of the
authority decide, and nothing behind the slash that ends it does. -/
def UrlCrate.ReadsAuthority (U : UrlCrate) (readHost : Str → Option Str) : Prop :=
  ∀ scheme ∈ ["http".toList, "https".toList], ∀ front tail, HasContent front →
    (U.parse (scheme ++ "://".toList ++ front ++ '/' :: tail)).map (fun url => (U.scheme url, U.hostStr url)) =
      (readHost (hostPort (authority front))).map fun host => (scheme, some host)

/-- The domain a text names, as an address or as a bare mint domain. -/
def addressDomain (value : Str) : Option Str :=
  let trimmed := Str.trim value
  if trimmed = [] ∨ isBech32Lnurl trimmed then none
  else if isLightningAddress trimmed || isLoopbackLightningAddress trimmed then
    (Str.splitOnce '@' trimmed).map Prod.snd
  else if isBareMintDomain trimmed then some (trimmed.dropWhile (· = '@'))
  else none

/-- A domain whose authority is one the URL parser reads, and is a loopback or
onion host wherever the text before the domain's first colon looks like one. -/
def AdmittedDomain (readHost : Str → Option Str) (domain : Str) : Prop :=
  ∃ host, readHost (authority domain) = some host ∧
    (isInsecureHost (Str.lower (Str.before ':' domain)) → isInsecureHost host)

/-- Both resolvers admit whatever they make of a text. -/
structure Crates.AdmitsInput (C : Crates) (value : Str) : Prop where
  lnurl : ∀ url, C.resolveLnurlInput value = some url → C.isAllowedServiceUrl url
  mint : ∀ url, C.resolveMintInput value = some url → C.isAllowedServiceUrl url

variable {C : Crates} {readHost : Str → Option Str} {value : Str}

/-! ### What a domain is made of -/

theorem hasContent_of_dot {domain : Str} (dotted : '.' ∈ domain) : HasContent domain := ⟨'.', dotted, by decide, by decide⟩

theorem hasContent_of_isInsecureHost {host : Str} (insecure : isInsecureHost host) : HasContent host := by
  simp only [isInsecureHost, Bool.or_eq_true, List.contains_iff_mem, List.isSuffixOf_iff_suffix] at insecure
  rcases insecure with listed | onion
  · simp only [insecureHosts, List.mem_cons, List.not_mem_nil, or_false] at listed
    rcases listed with rfl | rfl | rfl
    · exact hasContent_of_dot (by decide)
    · exact hasContent_of_dot (by decide)
    · exact ⟨'l', by decide, by decide, by decide⟩
  · exact hasContent_of_dot (onion.subset (by decide))

/-- The text before the first colon, in lowercase, tells whether there is anything to read. -/
theorem hasContent_of_before {domain : Str} (insecure : isInsecureHost (Str.lower (Str.before ':' domain))) :
    HasContent domain :=
  (hasContent_of_isInsecureHost insecure).of_lower.mono (List.takeWhile_subset _)

theorem bareMintDomain_parts (bare : isBareMintDomain value) :
    '@' ∉ (Str.trim value).dropWhile (· = '@') ∧
      (∀ c ∈ (Str.trim value).dropWhile (· = '@'), Str.isWhitespace c = false) ∧
      HasContent ((Str.trim value).dropWhile (· = '@')) := by
  simp only [isBareMintDomain] at bare
  split at bare
  · cases bare
  rename_i shape
  simp only [not_or] at shape
  split at bare
  · cases bare
  rename_i spaceless
  simp only [List.any_eq_true, not_exists, not_and, Bool.not_eq_true] at spaceless
  refine ⟨shape.2.1, spaceless, ?_⟩
  split at bare
  · rename_i dotted
    exact (hasContent_of_dot dotted.1).mono (List.takeWhile_subset _)
  · exact hasContent_of_before bare

theorem addressDomain_plain {domain : Str} (named : addressDomain value = some domain) :
    '@' ∉ domain ∧ HasContent domain := by
  simp only [addressDomain] at named
  split_ifs at named with empty address bare
  · obtain ⟨name, found, whole, front, back, content⟩ := address_parts address
    rw [Str.trim_trim] at whole
    rw [whole, Str.splitOnce_append front] at named
    cases named
    exact ⟨back, content.elim hasContent_of_dot hasContent_of_before⟩
  · have parts := bareMintDomain_parts bare
    rw [Str.trim_trim, Option.some.inj named] at parts
    exact ⟨parts.1, parts.2.2⟩

/-! ### What an address resolves to -/

theorem addressDomain_of_address (other : ¬(Str.trim value = [] ∨ isBech32Lnurl (Str.trim value)))
    (address : isLightningAddress (Str.trim value) || isLoopbackLightningAddress (Str.trim value)) :
    ∃ name domain, addressDomain value = some domain ∧
      lnAddressToUrl (Str.trim value) = some (addressUrl name domain) := by
  obtain ⟨name, domain, whole, front, _, _⟩ := address_parts address
  refine ⟨name, domain, ?_, lnAddressToUrl_eq whole front⟩
  rw [Str.trim_trim] at whole
  have split : Str.splitOnce '@' (Str.trim value) = some (name, domain) := by
    rw [whole]
    exact Str.splitOnce_append front
  simp only [addressDomain, if_neg other, if_pos address, split, Option.map_some]

theorem addressDomain_of_bare (other : ¬(Str.trim value = [] ∨ isBech32Lnurl (Str.trim value)))
    (plain : ¬(isLightningAddress (Str.trim value) || isLoopbackLightningAddress (Str.trim value)))
    (bare : isBareMintDomain (Str.trim value)) :
    ∃ name domain, addressDomain value = some domain ∧
      lnAddressToUrl ("mint@".toList ++ (Str.trim value).dropWhile (· = '@')) = some (addressUrl name domain) := by
  obtain ⟨_, spaceless, _⟩ := bareMintDomain_parts bare
  rw [Str.trim_trim] at spaceless
  refine ⟨"mint".toList, (Str.trim value).dropWhile (· = '@'), ?_, lnAddressToUrl_eq ?_ (by decide)⟩
  · simp only [addressDomain, if_neg other, if_neg plain, if_pos bare]
  · refine Str.trim_eq_self_of_forall fun c member => ?_
    rcases List.mem_append.mp member with mint | inside
    · have letters : "mint@".toList.all (fun d => Str.isWhitespace d = false) := by decide
      simpa using List.all_eq_true.mp letters c mint
    · exact spaceless c inside

theorem Crates.isAllowedServiceUrl_of_checked {link url : Str}
    (checked : (if C.isAllowedServiceUrl link then some link else none) = some url) : C.isAllowedServiceUrl url := by
  obtain ⟨allowed, same⟩ := Option.ite_none_right_eq_some.mp checked
  exact Option.some.inj same ▸ allowed

/-- A text that names a domain resolves there; any other result was checked. -/
theorem Crates.resolveMintInput_cases (C : Crates) (value : Str) :
    (∃ name domain, addressDomain value = some domain ∧ C.resolveMintInput value = some (addressUrl name domain)) ∨
      addressDomain value = none ∧ ∀ url, C.resolveMintInput value = some url → C.isAllowedServiceUrl url := by
  by_cases other : Str.trim value = [] ∨ isBech32Lnurl (Str.trim value)
  · refine Or.inr ⟨by simp only [addressDomain, if_pos other], fun url resolved => ?_⟩
    by_cases empty : Str.trim value = []
    · simp only [resolveMintInput, if_pos empty] at resolved
      cases resolved
    · simp only [resolveMintInput, if_neg empty, if_pos (other.resolve_left empty)] at resolved
      obtain ⟨link, _, checked⟩ := Option.bind_eq_some_iff.mp resolved
      exact isAllowedServiceUrl_of_checked checked
  · obtain ⟨nonempty, plain⟩ := not_or.mp other
    simp only [resolveMintInput, if_neg nonempty, if_neg plain]
    by_cases address : isLightningAddress (Str.trim value) || isLoopbackLightningAddress (Str.trim value)
    · simp only [if_pos address]
      exact Or.inl (addressDomain_of_address other address)
    · by_cases bare : isBareMintDomain (Str.trim value)
      · simp only [if_neg address, if_pos bare]
        exact Or.inl (addressDomain_of_bare other address bare)
      · refine Or.inr ⟨by simp only [addressDomain, if_neg other, if_neg address, if_neg bare], fun url resolved => ?_⟩
        rw [if_neg address, if_neg bare] at resolved
        cases resolved

theorem Crates.resolveLnurlInput_cases (C : Crates) (value : Str) :
    (∃ name domain, addressDomain value = some domain ∧ C.resolveLnurlInput value = some (addressUrl name domain)) ∨
      ∀ url, C.resolveLnurlInput value = some url → C.isAllowedServiceUrl url := by
  by_cases empty : Str.trim value = []
  · simp only [resolveLnurlInput, if_pos empty]
    exact Or.inr fun url resolved => by cases resolved
  simp only [resolveLnurlInput, if_neg empty]
  by_cases lnurl : isBech32Lnurl (Str.trim value)
  · simp only [if_pos lnurl]
    refine Or.inr fun url resolved => ?_
    obtain ⟨link, _, checked⟩ := Option.bind_eq_some_iff.mp resolved
    exact isAllowedServiceUrl_of_checked checked
  simp only [if_neg lnurl]
  split
  · exact Or.inr fun url checked => isAllowedServiceUrl_of_checked checked
  split
  · rename_i address
    exact Or.inl (addressDomain_of_address (not_or.mpr ⟨empty, lnurl⟩) address)
  split
  · exact Or.inr fun url checked => isAllowedServiceUrl_of_checked checked
  · exact Or.inr fun url resolved => by cases resolved

/-! ### The URL at an address, admitted -/

theorem Crates.isAllowedServiceUrl_addressUrl (reads : C.url.ReadsAuthority readHost) {domain : Str} (front : '@' ∉ domain)
    (content : HasContent domain) (name : Str) :
    C.isAllowedServiceUrl (addressUrl name domain) ↔ AdmittedDomain readHost domain := by
  have scheme : addressScheme domain ∈ ["http".toList, "https".toList] := by
    rw [addressScheme]
    split <;> simp
  have read := reads _ scheme domain (".well-known/lnurlp/".toList ++ name) content
  rw [hostPort_of_notMem (notMem_authority front)] at read
  have text : addressUrl name domain =
      addressScheme domain ++ "://".toList ++ domain ++ '/' :: (".well-known/lnurlp/".toList ++ name) := by
    rw [addressUrl, List.append_assoc _ "/.well-known/lnurlp/".toList]
    rfl
  rw [← text] at read
  cases host : readHost (authority domain) with
  | none =>
    rw [host, Option.map_none, Option.map_eq_none_iff] at read
    simp [AdmittedDomain, isAllowedServiceUrl, host, read]
  | some name =>
    rw [host, Option.map_some] at read
    obtain ⟨url, parsed, same⟩ := Option.map_eq_some_iff.mp read
    obtain ⟨scheme, named⟩ := Prod.mk.inj same
    simp only [isAllowedServiceUrl, parsed, scheme, named, AdmittedDomain, host, addressScheme, Option.some.injEq,
      exists_eq_left']
    by_cases insecure : isInsecureHost (Str.lower (Str.before ':' domain))
    · rw [if_pos insecure, if_neg (by decide), if_pos rfl]
      simp [insecure]
    · rw [if_neg insecure, if_pos rfl]
      simp [insecure]

/-- The resolvers admit what they make of a text exactly when the domain it names, if any, is admitted. -/
theorem Crates.admitsInput_iff (reads : C.url.ReadsAuthority readHost) :
    C.AdmitsInput value ↔ ∀ domain, addressDomain value = some domain → AdmittedDomain readHost domain := by
  have admitted {name domain : Str} (named : addressDomain value = some domain) :
      C.isAllowedServiceUrl (addressUrl name domain) ↔ AdmittedDomain readHost domain := by
    obtain ⟨front, content⟩ := addressDomain_plain named
    exact isAllowedServiceUrl_addressUrl reads front content name
  constructor
  · rintro ⟨_, mint⟩ domain named
    rcases C.resolveMintInput_cases value with ⟨name, found, same, resolved⟩ | ⟨none, _⟩
    · cases Option.some.inj (named.symm.trans same)
      exact (admitted named).mp (mint _ resolved)
    · rw [none] at named
      cases named
  · intro domains
    constructor
    · intro url resolved
      rcases C.resolveLnurlInput_cases value with ⟨name, domain, named, address⟩ | checked
      · cases Option.some.inj (resolved.symm.trans address)
        exact (admitted named).mpr (domains domain named)
      · exact checked url resolved
    · intro url resolved
      rcases C.resolveMintInput_cases value with ⟨name, domain, named, address⟩ | ⟨_, checked⟩
      · cases Option.some.inj (resolved.symm.trans address)
        exact (admitted named).mpr (domains domain named)
      · exact checked url resolved

/-! A URL parser that keeps the scheme and the host alone, and reads every host `PlainUrl` does. -/

def readName (hostPort : Str) : Option Str := (PlainUrl.parseAuthority "https".toList hostPort).map Prod.fst

def authorityCrate : UrlCrate where
  Url := Str × Str
  parse text := ["http".toList, "https".toList].findSome? fun scheme => do
    let rest ← Str.stripPrefix (scheme ++ "://".toList) text
    let host ← readName (hostPort (authority rest))
    some (scheme, host)
  scheme := Prod.fst
  hostStr url := some url.2
  queryPairs _ := []
  clearQuery := id
  appendPairs url _ := url
  toText url := url.1 ++ "://".toList ++ url.2 ++ ['/']

theorem authorityCrate.readsAuthority : authorityCrate.ReadsAuthority readName := by
  intro scheme web front tail content
  have own (scheme : Str) : Str.stripPrefix (scheme ++ "://".toList) (scheme ++ "://".toList ++ front ++ '/' :: tail) =
      some (front ++ '/' :: tail) := by
    rw [Str.stripPrefix_eq_some, List.append_assoc]
  have secure : Str.stripPrefix ("https".toList ++ "://".toList) ("http".toList ++ "://".toList ++ front ++ '/' :: tail) =
      none := rfl
  have clear : Str.stripPrefix ("http".toList ++ "://".toList) ("https".toList ++ "://".toList ++ front ++ '/' :: tail) =
      none := rfl
  simp only [authorityCrate, List.findSome?_cons, List.findSome?_nil]
  simp only [List.mem_cons, List.not_mem_nil, or_false] at web
  rcases web with rfl | rfl
  · simp only [own, secure, authority_append content, Option.bind_eq_bind, Option.bind_some, Option.bind_none]
    cases readName (hostPort (authority front)) <;> rfl
  · simp only [own, clear, authority_append content, Option.bind_eq_bind, Option.bind_some, Option.bind_none]
    cases readName (hostPort (authority front)) <;> rfl

/-- A local address is admitted, behind the cleartext scheme its host allows. -/
theorem localMint_admitted : Crates.AdmitsInput { reference with url := authorityCrate } "mint@localhost:8000".toList := by
  refine (Crates.admitsInput_iff authorityCrate.readsAuthority).mpr fun domain named => ?_
  have read : addressDomain "mint@localhost:8000".toList = some "localhost:8000".toList := by decide +kernel
  cases Option.some.inj (read.symm.trans named)
  exact ⟨"localhost".toList, by decide +kernel, fun _ => by decide⟩

/-- The text before the first colon ends as an onion host does; the URL's host is the one before the slash. -/
theorem reference.onionPath_unadmitted :
    reference.resolveLnurlInput "x@evil.example/a.onion".toList =
        some "http://evil.example/a.onion/.well-known/lnurlp/x".toList ∧
      reference.isAllowedServiceUrl "http://evil.example/a.onion/.well-known/lnurlp/x".toList = false ∧
      ¬reference.AdmitsInput "x@evil.example/a.onion".toList := by
  have resolved : reference.resolveLnurlInput "x@evil.example/a.onion".toList =
      some "http://evil.example/a.onion/.well-known/lnurlp/x".toList := by decide +kernel
  have refused : reference.isAllowedServiceUrl "http://evil.example/a.onion/.well-known/lnurlp/x".toList = false := by
    decide +kernel
  refine ⟨resolved, refused, fun admits => ?_⟩
  have allowed := admits.lnurl _ resolved
  rw [refused] at allowed
  cases allowed

end LnurlCash
