import LnurlCash.LinkSchemes
import LnurlCash.PastedUrls

namespace LnurlCash

/-! ### Links as they are written down -/

def toBech32Lnurl (url : Str) : Option Str :=
  (Bech32.encode bech32Residue "lnurl".toList (Str.utf8 url)).map Str.upper

def toLud17w (url : Str) : Str :=
  match Str.stripPrefix "https://".toList url with
  | some rest => "lnurlw://".toList ++ rest
  | none =>
    match Str.stripPrefix "http://".toList url with
    | some rest => "lnurlw://".toList ++ rest
    | none => url

/-- Texts that a URL can be written as, whitespace around them aside: itself,
where it begins with `http://` or `https://` and does not read as an address; its
LNURL in any case; and its LUD-17 link, where the scheme it drops is the one its
host is given back. -/
inductive Writes (url : Str) : Str → Prop
  | plain {typed : Str} (trimmed : Str.trim typed = url)
      (web : "http://".toList <+: Str.lower url ∨ "https://".toList <+: Str.lower url)
      (address : (isLightningAddress url || isLoopbackLightningAddress url) = false) : Writes url typed
  | lnurl {link typed : Str} (encoded : toBech32Lnurl url = some link) (spelled : Str.upper (Str.trim typed) = link) :
      Writes url typed
  | lud17 {rest typed : Str} (scheme : url = linkScheme rest ++ "://".toList ++ rest)
      (trimmed : Str.trim typed = toLud17w url) : Writes url typed

variable {C : Crates} {url typed typed' rest : Str}

theorem toBech32Lnurl_exists (url : Str) : ∃ link, toBech32Lnurl url = some link := by
  have valid : Bech32.validHrp "lnurl".toList := by decide
  obtain ⟨text, encoded⟩ := Bech32.encode_exists bech32Residue valid (by decide) (Str.utf8 url)
  exact ⟨Str.upper text, by rw [toBech32Lnurl, encoded]; rfl⟩

/-- In capitals as it is made, and in small letters as well, an LNURL is one of its URL's writings. -/
theorem writes_lnurl {link : Str} (encoded : toBech32Lnurl url = some link) :
    Writes url link ∧ Writes url (Str.lower link) := by
  obtain ⟨text, whole, rfl⟩ := Option.map_eq_some_iff.mp encoded
  have clean : Str.trim text = text := Str.trim_eq_self_of_forall (Bech32.spaceless_of_encode whole)
  have shouted : Str.trim (Str.upper text) = Str.upper text := by
    refine Str.trim_eq_self_of_forall fun c member => ?_
    obtain ⟨d, inside, rfl⟩ := List.mem_map.mp member
    rw [Str.isWhitespace_toUpper, Bech32.spaceless_of_encode whole d inside]
  refine ⟨.lnurl encoded (by rw [shouted, Str.upper_upper]), .lnurl encoded ?_⟩
  rw [Str.lower_upper, Bech32.lower_of_encode whole, clean]

theorem isBech32Lnurl_of_upper {link : Str} (encoded : toBech32Lnurl url = some link) (spelled : Str.upper typed = link)
    (trimmed : Str.trim typed = typed) : isBech32Lnurl typed := by
  obtain ⟨text, whole, rfl⟩ := Option.map_eq_some_iff.mp encoded
  obtain ⟨_, _, rfl⟩ := Bech32.encode_eq_some.mp whole
  rw [isBech32Lnurl, trimmed, spelled, Str.upper, List.map_append]
  rfl

/-- An LNURL is decoded to the URL it was made from, however its letters are cased. -/
theorem fromBech32Lnurl_of_upper {link : Str} (encoded : toBech32Lnurl url = some link) (spelled : Str.upper typed = link)
    (trimmed : Str.trim typed = typed) : fromBech32Lnurl typed = some url := by
  have read := isBech32Lnurl_of_upper encoded spelled trimmed
  obtain ⟨text, whole, rfl⟩ := Option.map_eq_some_iff.mp encoded
  have lowered : Str.lower typed = text := by
    rw [← Str.lower_upper, spelled, Str.lower_upper, Bech32.lower_of_encode whole]
  have payload := Bech32.decode_encode whole
  rw [isBech32Lnurl, trimmed] at read
  have hrp : "lnurl".toList = Str.lower "lnurl".toList := by decide
  rw [fromBech32Lnurl, trimmed, if_pos read, lowered, hrp, payload]
  exact Str.fromUtf8_utf8 url

theorem toLud17w_of_scheme (scheme : url = linkScheme rest ++ "://".toList ++ rest) :
    toLud17w url = "lnurlw://".toList ++ rest := by
  rw [linkScheme] at scheme
  split at scheme
  · have http : Str.stripPrefix "http://".toList url = some rest := Str.stripPrefix_eq_some.mpr scheme
    have https : Str.stripPrefix "https://".toList url = none := by
      rw [scheme, Str.stripPrefix]
      rfl
    rw [toLud17w, https, http]
  · have https : Str.stripPrefix "https://".toList url = some rest := Str.stripPrefix_eq_some.mpr scheme
    rw [toLud17w, https]

/-- A LUD-17 link is read as the URL it was made from where that URL has the scheme its host is given. -/
theorem fromLud17_toLud17w (scheme : url = linkScheme rest ++ "://".toList ++ rest) : fromLud17 (toLud17w url) = url := by
  have found : lud17Rest ("lnurlw://".toList ++ rest) = some rest := rfl
  rw [toLud17w_of_scheme scheme, fromLud17_of_rest found, ← scheme]

theorem not_isBech32Lnurl_of_lud17w (trimmed : Str.trim typed = "lnurlw://".toList ++ rest) :
    isBech32Lnurl (Str.trim typed) = false := by
  rw [isBech32Lnurl, Str.trim_trim, trimmed, Str.upper, List.map_append]
  rfl

/-- Whatever a URL is written as, it is that URL that the spend's domain is read from. -/
theorem Writes.expandLink_eq (writes : Writes url typed) : expandLink (Str.trim typed) = some url := by
  cases writes with
  | plain trimmed web address =>
    have front : "http".toList <+: Str.lower url :=
      web.elim (List.IsPrefix.trans (by decide)) (List.IsPrefix.trans (by decide))
    have clean : Str.trim url = url := by rw [← trimmed, Str.trim_trim]
    rw [trimmed, expandLink, not_isBech32Lnurl_of_http clean front, fromLud17_of_http front]
    rfl
  | lnurl encoded spelled =>
    have read := isBech32Lnurl_of_upper encoded spelled (Str.trim_trim typed)
    rw [expandLink, if_pos read, fromBech32Lnurl_of_upper encoded spelled (Str.trim_trim typed)]
  | lud17 scheme trimmed =>
    have bech32 := not_isBech32Lnurl_of_lud17w (trimmed.trans (toLud17w_of_scheme scheme))
    rw [expandLink, bech32, trimmed, fromLud17_toLud17w scheme]
    rfl

theorem Writes.resolves (writes : Writes url typed) (admitted : C.isAllowedServiceUrl url) :
    C.resolveLnurlInput typed = some url := by
  cases writes with
  | plain trimmed web address =>
    have text : isWebText typed := by
      rw [isWebText, trimmed, Bool.or_eq_true, List.isPrefixOf_iff_prefix, List.isPrefixOf_iff_prefix]
      exact web
    rw [Crates.resolveLnurlInput_of_isWebText text, trimmed, address, if_pos admitted]
    rfl
  | lnurl encoded spelled =>
    have read := isBech32Lnurl_of_upper encoded spelled (Str.trim_trim typed)
    have nonempty : Str.trim typed ≠ [] := by
      intro empty
      rw [empty] at read
      exact absurd read (by decide)
    simp only [Crates.resolveLnurlInput, nonempty, read, fromBech32Lnurl_of_upper encoded spelled (Str.trim_trim typed),
      admitted, if_true, if_false, Option.bind_eq_bind, Option.bind_some]
  | lud17 scheme trimmed =>
    have text := trimmed.trans (toLud17w_of_scheme scheme)
    have nonempty : Str.trim typed ≠ [] := by simp [text]
    have lud17 : lud17Schemes.any (·.isPrefixOf (Str.lower (Str.trim typed))) = true := by
      rw [text, Str.lower, List.map_append]
      rfl
    have expanded : fromLud17 (Str.trim typed) = url := by rw [trimmed, fromLud17_toLud17w scheme]
    simp only [Crates.resolveLnurlInput, nonempty, not_isBech32Lnurl_of_lud17w text, lud17, expanded, admitted, if_true,
      if_false, Bool.false_eq_true]

/-- Every way to write a URL down is read as that URL, and as the same note at the same mint. -/
theorem Crates.writings_agree (admitted : C.isAllowedServiceUrl url) :
    (∃ link, toBech32Lnurl url = some link ∧ Writes url link ∧ Writes url (Str.lower link)) ∧
      ∀ typed typed', Writes url typed → Writes url typed' →
        C.resolveLnurlInput typed = some url ∧ C.resolveNoteInput typed = C.resolveNoteInput typed' ∧
          (∀ mintPubkey, C.checkNoteUrl typed mintPubkey = C.checkNoteUrl typed' mintPubkey) ∧
          C.spendDomainOf typed = C.spendDomainOf typed' := by
  constructor
  · obtain ⟨link, encoded⟩ := toBech32Lnurl_exists url
    exact ⟨link, encoded, writes_lnurl encoded⟩
  · intro typed typed' writes writes'
    have left := writes.resolves admitted
    have right := writes'.resolves admitted
    refine ⟨left, ?_, fun mintPubkey => ?_, ?_⟩
    · rw [resolveNoteInput, resolveNoteInput, left, right]
    · rw [checkNoteUrl, checkNoteUrl, left, right]
    · rw [spendDomainOf, spendDomainOf, writes.expandLink_eq, writes'.expandLink_eq]

def indentedLink : Str := " lnurlw://mint.example/w?k1=".toList ++ pastedK1

/-- The note's LNURL in small letters and its indented LUD-17 link are one note. -/
theorem reference.pastedNote_written : ∃ link, toBech32Lnurl pastedNote = some link ∧
    reference.resolveLnurlInput (Str.lower link) = some pastedNote ∧
    reference.resolveNoteInput (Str.lower link) = reference.resolveNoteInput indentedLink ∧
    reference.spendDomainOf (Str.lower link) = reference.spendDomainOf indentedLink := by
  obtain ⟨⟨link, encoded, _, small⟩, agree⟩ := Crates.writings_agree
    (show reference.isAllowedServiceUrl pastedNote by decide +kernel)
  have scheme : pastedNote = linkScheme ("mint.example/w?k1=".toList ++ pastedK1) ++ "://".toList ++
      ("mint.example/w?k1=".toList ++ pastedK1) := by decide +kernel
  have indented : Writes pastedNote indentedLink := .lud17 scheme (by decide +kernel)
  obtain ⟨resolved, note, _, domain⟩ := agree _ _ small indented
  exact ⟨link, encoded, resolved, note, domain⟩

end LnurlCash
