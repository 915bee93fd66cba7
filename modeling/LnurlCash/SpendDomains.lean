import LnurlCash.Cash
import LnurlCash.Reference
import LnurlCash.Transfers

namespace LnurlCash

open Outcome

/-- The URL a text names, if it names one. -/
def Crates.urlOf (C : Crates) (value : Str) : Option C.url.Url := do
  let expanded ← expandLink (Str.trim value)
  C.url.parse (withScheme expanded)

/-- How the `url` crate writes hosts: with no whitespace and no slash in them,
and for http and https in lowercase and as it would read them again. -/
structure UrlCrate.SerialisesHosts (U : UrlCrate) : Prop where
  plain : ∀ text url host, U.parse text = some url → U.hostStr url = some host →
    ∀ c ∈ host, Str.isWhitespace c = false ∧ c ≠ '/'
  web : ∀ text url host, U.parse text = some url → U.scheme url = "http".toList ∨ U.scheme url = "https".toList →
    U.hostStr url = some host →
      Str.lower host = host ∧ (U.parse ("https://".toList ++ host)).bind U.hostStr = some host

/-- Whether the host of the URL a text names is read as itself. A host that
looks like a bech32 LNURL is read as one. Any other is read behind `https://`,
which is what it came from unless its own scheme was neither http nor https. -/
def Crates.StableHost (C : Crates) (value : Str) : Prop :=
  ∃ url host, C.urlOf value = some url ∧ C.url.hostStr url = some host ∧
    if isBech32Lnurl (Str.lower host) then
      ((fromBech32Lnurl (Str.lower host)).bind fun link => C.hostOf (withScheme link)) = some (Str.lower host)
    else
      C.url.scheme url = "http".toList ∨ C.url.scheme url = "https".toList ∨
        C.hostOf ("https://".toList ++ Str.lower host) = some (Str.lower host)

/-- A text and its domain mean the same to every function that takes a domain. -/
structure KeyCrates.Interchangeable (K : KeyCrates) (value domain : Str) : Prop where
  normal : K.spendDomainOf domain = some domain
  sign : ∀ secretKey, K.signNoteOwnership secretKey value = K.signNoteOwnership secretKey domain
  recover : ∀ payload, K.recoverNoteOwnershipPubkey payload value = K.recoverNoteOwnershipPubkey payload domain
  check : ∀ k1 amountMsat signature mintPubkey,
    K.checkNote k1 value amountMsat signature mintPubkey = K.checkNote k1 domain amountMsat signature mintPubkey
  root : ∀ root, K.deriveServiceRoot root value = K.deriveServiceRoot root domain
  proof : ∀ action username cx1,
    K.addressProofMessage action value username cx1 = K.addressProofMessage action domain username cx1
  url : ∀ text mintPubkey, K.resolveLnurlInput text = some value → K.checkNoteUrl text mintPubkey = do
    let k1 ← K.noteK1 value
    let amountMsat ← K.noteDeclaredAmount value
    let signature ← K.noteSignature value
    K.checkNote k1 value amountMsat signature mintPubkey

variable {C : Crates} {value domain : Str}

theorem Crates.spendDomainOf_eq_some : C.spendDomainOf value = some domain ↔
    ∃ url host, C.urlOf value = some url ∧ C.url.hostStr url = some host ∧ domain = Str.lower host ∧ domain ≠ [] := by
  rw [spendDomainOf_eq, Option.filter_eq_some_iff, Option.bind_eq_some_iff]
  simp only [hostOf, urlOf, Option.bind_eq_bind, Option.bind_eq_some_iff, Option.map_eq_some_iff, decide_eq_true_eq]
  constructor
  · rintro ⟨⟨link, expanded, host, ⟨url, parsed, name⟩, rfl⟩, nonempty⟩
    exact ⟨url, host, ⟨link, expanded, parsed⟩, name, rfl, nonempty⟩
  · rintro ⟨url, host, ⟨link, expanded, parsed⟩, name, rfl, nonempty⟩
    exact ⟨⟨link, expanded, host, ⟨url, parsed, name⟩, rfl⟩, nonempty⟩

/-! ### A domain read again -/

theorem fromLud17_of_no_slash {text : Str} (slashless : '/' ∉ text) : fromLud17 text = text := by
  have slashed : ∀ pre ∈ lud17Schemes, '/' ∈ pre := by decide
  have none : lud17Schemes.find? (·.isPrefixOf (Str.lower text)) = none := by
    rw [List.find?_eq_none]
    intro pre member starts
    obtain ⟨rest, whole⟩ := List.isPrefixOf_iff_prefix.mp starts
    have lowered : '/' ∈ Str.lower text := whole ▸ List.mem_append_left rest (slashed pre member)
    exact Str.notMem_lower (by decide) (by decide) slashless lowered
  rw [fromLud17, none]

theorem withScheme_of_no_slash {text : Str} (slashless : '/' ∉ text) : withScheme text = "https://".toList ++ text := by
  refine if_neg fun hierarchical => slashless ?_
  obtain ⟨front, back, whole⟩ := Str.contains_iff.mp hierarchical
  rw [← whole]
  simp

/-- A text that is plain, as every host is, is read as a link or behind `https://`. -/
theorem Crates.spendDomainOf_plain {text : Str} (spaceless : ∀ c ∈ text, Str.isWhitespace c = false) (slashless : '/' ∉ text) :
    C.spendDomainOf text = (if isBech32Lnurl text then
      (fromBech32Lnurl text).bind fun link => C.hostOf (withScheme link) else C.hostOf ("https://".toList ++ text)).filter
        (· ≠ []) := by
  rw [spendDomainOf_eq, Str.trim_eq_self_of_forall spaceless, expandLink]
  split
  · rfl
  · rw [Option.bind_some, fromLud17_of_no_slash slashless, withScheme_of_no_slash slashless]

theorem filter_eq_some_of_ne_nil {found : Option Str} {text : Str} (nonempty : text ≠ []) :
    found.filter (· ≠ []) = some text ↔ found = some text := by
  rw [Option.filter_eq_some_iff, decide_eq_true_eq]
  exact and_iff_left nonempty

/-- A host in lowercase is plain as the host was. -/
theorem UrlCrate.SerialisesHosts.lower_plain {U : UrlCrate} (hosts : U.SerialisesHosts) {text host : Str} {url : U.Url}
    (parsed : U.parse text = some url) (name : U.hostStr url = some host) :
    (∀ c ∈ Str.lower host, Str.isWhitespace c = false) ∧ '/' ∉ Str.lower host := by
  have plain := hosts.plain text url host parsed name
  constructor
  · intro c member
    obtain ⟨d, inside, rfl⟩ := List.mem_map.mp member
    rw [Str.isWhitespace_toLower, (plain d inside).1]
  · exact Str.notMem_lower (by decide) (by decide) fun inside => (plain '/' inside).2 rfl

/-- A host from http or https is read as itself behind `https://`. -/
theorem Crates.hostOf_of_web (hosts : C.url.SerialisesHosts) {text host : Str} {url : C.url.Url}
    (parsed : C.url.parse text = some url) (name : C.url.hostStr url = some host)
    (web : C.url.scheme url = "http".toList ∨ C.url.scheme url = "https".toList) :
    C.hostOf ("https://".toList ++ Str.lower host) = some (Str.lower host) := by
  obtain ⟨lowered, again⟩ := hosts.web text url host parsed web name
  rw [lowered, hostOf, again, Option.map_some, lowered]

/-- A domain is its own domain exactly when the URL it came from has a stable host. -/
theorem Crates.normal_iff (hosts : C.url.SerialisesHosts) (named : C.spendDomainOf value = some domain) :
    C.spendDomainOf domain = some domain ↔ C.StableHost value := by
  obtain ⟨url, host, read, name, rfl, nonempty⟩ := spendDomainOf_eq_some.mp named
  obtain ⟨link, expanded, parsed⟩ := Option.bind_eq_some_iff.mp read
  obtain ⟨spaceless, slashless⟩ := hosts.lower_plain parsed name
  rw [spendDomainOf_plain spaceless slashless, filter_eq_some_of_ne_nil nonempty]
  constructor
  · intro same
    refine ⟨url, host, read, name, ?_⟩
    split
    · rename_i lnurl
      rwa [if_pos lnurl] at same
    · rename_i other
      rw [if_neg other] at same
      exact Or.inr (Or.inr same)
  · rintro ⟨url', host', read', name', stable⟩
    cases Option.some.inj (read.symm.trans read')
    cases Option.some.inj (name.symm.trans name')
    split at stable
    · rename_i lnurl
      rw [if_pos lnurl, stable]
    · rename_i other
      rw [if_neg other]
      rcases stable with http | https | same
      · exact hostOf_of_web hosts parsed name (Or.inl http)
      · exact hostOf_of_web hosts parsed name (Or.inr https)
      · exact same

/-! ### Everything a domain decides -/

section SameDomain

variable {a b : Str}

theorem Crates.recoverNoteOwnershipPubkey_of_same_domain (same : C.spendDomainOf a = C.spendDomainOf b) (payload : Bytes) :
    C.recoverNoteOwnershipPubkey payload a = C.recoverNoteOwnershipPubkey payload b := by
  simp only [recoverNoteOwnershipPubkey, same]

theorem Crates.checkSpend_of_same_domain (same : C.spendDomainOf a = C.spendDomainOf b) (k1 : Str) :
    C.checkSpend k1 a = C.checkSpend k1 b := by
  simp only [checkSpend, recoverNoteOwnershipPubkey_of_same_domain same]

theorem Crates.certifiedOver_of_same_domain (same : C.spendDomainOf a = C.spendDomainOf b) (outputKey : ByteArr 32)
    (bearerHash : Option (ByteArr 32)) (amountMsat : UInt64) (signature mintPubkey : Str) :
    C.certifiedOver outputKey bearerHash a amountMsat signature mintPubkey =
      C.certifiedOver outputKey bearerHash b amountMsat signature mintPubkey := by
  have digest (id : Str) : C.noteSignatureDigestForHash id a amountMsat = C.noteSignatureDigestForHash id b amountMsat := by
    simp only [noteSignatureDigestForHash, noteSignatureMessageForHash, same]
  have current (id : Str) : C.verifyNoteSignatureHash id a amountMsat signature mintPubkey =
      C.verifyNoteSignatureHash id b amountMsat signature mintPubkey := by
    simp only [verifyNoteSignatureHash, digest]
  simp only [certifiedOver, current]

theorem Crates.checkNote_of_same_domain (same : C.spendDomainOf a = C.spendDomainOf b) (k1 : Str) (amountMsat : UInt64)
    (signature mintPubkey : Str) :
    C.checkNote k1 a amountMsat signature mintPubkey = C.checkNote k1 b amountMsat signature mintPubkey := by
  simp only [checkNote, checkSpend_of_same_domain same, certifiedOver_of_same_domain same]

end SameDomain

/-- A note URL and its domain are interchangeable exactly when the URL's host is stable. -/
theorem KeyCrates.interchangeable_iff {K : KeyCrates} (hosts : K.url.SerialisesHosts)
    (named : K.spendDomainOf value = some domain) : K.Interchangeable value domain ↔ K.StableHost value := by
  constructor
  · intro interchangeable
    exact (Crates.normal_iff hosts named).mp interchangeable.normal
  · intro stable
    have normal := (Crates.normal_iff hosts named).mpr stable
    have same : K.spendDomainOf value = K.spendDomainOf domain := named.trans normal.symm
    exact {
      normal := normal
      sign := fun secretKey => by simp only [signNoteOwnership, same]
      recover := Crates.recoverNoteOwnershipPubkey_of_same_domain same
      check := Crates.checkNote_of_same_domain same
      root := fun root => by simp only [deriveServiceRoot, same]
      proof := fun action username cx1 => by simp only [addressProofMessage, same]
      url := by
        intro text mintPubkey resolved
        simp only [Crates.checkNoteUrl, resolved, named, Option.bind_eq_bind, Option.bind_some,
          ← Crates.checkNote_of_same_domain same] }

theorem reference.serialisesHosts : reference.url.SerialisesHosts where
  plain := by
    intro text url host parsed named c member
    cases named
    obtain ⟨name, valid, same⟩ := PlainUrl.parse_eq_some parsed
    rw [same] at member
    have lowered : c ≠ '/' :=
      ne_of_mem_of_not_mem member (PlainUrl.not_mem_of_isHost (PlainUrl.isHost_lower valid) (by decide) (by decide))
    rcases PlainUrl.isHost_chars (PlainUrl.isHost_lower valid) c member with inside | rfl
    · refine ⟨?_, lowered⟩
      simp only [PlainUrl.isAlphanumeric, decide_eq_true_eq] at inside
      rw [Str.isWhitespace, decide_eq_false_iff_not]
      omega
    · exact ⟨by decide, lowered⟩
  web := by
    intro text url host parsed _ named
    cases named
    obtain ⟨name, valid, same⟩ := PlainUrl.parse_eq_some parsed
    have again := PlainUrl.parse_https (PlainUrl.isHost_lower valid)
    rw [Str.lower_lower, ← same] at again
    refine ⟨by rw [same, Str.lower_lower], ?_⟩
    change (PlainUrl.parse ("https://".toList ++ url.host)).bind (fun url => some url.host) = some url.host
    rw [again, Option.bind_some]

theorem mintUrl_interchangeable :
    referenceKeys.Interchangeable "https://mint.example/w".toList "mint.example".toList := by
  refine (KeyCrates.interchangeable_iff reference.serialisesHosts (by decide +kernel)).mpr ?_
  have read : PlainUrl.parse "https://mint.example/w".toList =
      some { scheme := "https".toList, host := "mint.example".toList, port := none, path := "/w".toList, query := none } := by
    decide +kernel
  have link : expandLink (Str.trim "https://mint.example/w".toList) = some "https://mint.example/w".toList := by
    decide +kernel
  refine ⟨_, _, Option.bind_eq_some_iff.mpr ⟨_, link, read⟩, rfl, ?_⟩
  rw [if_neg (by decide +kernel)]
  exact Or.inr (Or.inl rfl)

/-- A host that begins as a bech32 LNURL does is read as one, and names no host. -/
theorem lnurlHost_unnamed : reference.spendDomainOf "https://lnurl1.example/w".toList = some "lnurl1.example".toList ∧
    reference.spendDomainOf "lnurl1.example".toList = none := by
  decide +kernel

end LnurlCash
