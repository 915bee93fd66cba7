import LnurlCash.Note
import LnurlCash.Reference

namespace LnurlCash

variable {C : Crates} {value : Str}

/-- Text that begins as an http or https URL does, in any ASCII case. -/
def isWebText (value : Str) : Bool :=
  "http://".toList.isPrefixOf (Str.lower (Str.trim value)) || "https://".toList.isPrefixOf (Str.lower (Str.trim value))

theorem http_prefix_of_isWebText (web : isWebText value) : "http".toList <+: Str.lower (Str.trim value) := by
  simp only [isWebText, Bool.or_eq_true, List.isPrefixOf_iff_prefix] at web
  rcases web with http | https
  · exact List.IsPrefix.trans (by decide) http
  · exact List.IsPrefix.trans (by decide) https

/-- For web text the bech32 and LUD-17 readings never apply; the address reading comes before the URL's own. -/
theorem Crates.resolveLnurlInput_of_isWebText (web : isWebText value) :
    C.resolveLnurlInput value =
      if isLightningAddress (Str.trim value) || isLoopbackLightningAddress (Str.trim value) then
        lnAddressToUrl (Str.trim value)
      else if C.isAllowedServiceUrl (Str.trim value) then some (Str.trim value) else none := by
  have front := http_prefix_of_isWebText web
  have nonempty : Str.trim value ≠ [] := by
    intro empty
    rw [empty] at front
    exact absurd front (by decide)
  have schemes : lud17Schemes.any (·.isPrefixOf (Str.lower (Str.trim value))) = false := by
    rw [List.any_eq_false]
    intro pre member
    simp [lud17Schemes_not_http front member]
  have plain : ("http://".toList.isPrefixOf (Str.lower (Str.trim value)) ||
      "https://".toList.isPrefixOf (Str.lower (Str.trim value))) = true := web
  simp only [Crates.resolveLnurlInput, if_neg nonempty, not_isBech32Lnurl_of_http (Str.trim_trim value) front, schemes,
    plain, Bool.false_eq_true, if_false, if_true]

theorem lnAddressToUrl_ne {address url : Str} (resolved : lnAddressToUrl address = some url) : url ≠ Str.trim address := by
  simp only [lnAddressToUrl, Option.bind_eq_bind, Option.bind_eq_some_iff, Option.some.injEq] at resolved
  obtain ⟨⟨name, domain⟩, split, rfl⟩ := resolved
  obtain ⟨whole, _⟩ := Str.splitOnce_some split
  intro same
  have lengths := congrArg List.length (same.trans whole)
  simp only [List.length_append, List.length_cons, String.length_toList] at lengths
  have path : "/.well-known/lnurlp/".length = 20 := rfl
  omega

/-- What a pasted http or https URL may be resolved to, and what the note
functions may make of it: nothing, or that URL and its own host. -/
def Crates.StaysPut (C : Crates) (value : Str) : Prop :=
  (C.resolveLnurlInput value = none ∨ C.resolveLnurlInput value = some (Str.trim value)) ∧
    (C.resolveNoteInput value = none ∨ C.resolveNoteInput value = some (Str.trim value)) ∧
    ∀ mintPubkey check, C.checkNoteUrl value mintPubkey = some check →
      ∃ k1 domain amountMsat signature, C.noteK1 (Str.trim value) = some k1 ∧
        C.spendDomainOf (Str.trim value) = some domain ∧
        C.checkNote k1 domain amountMsat signature mintPubkey = some check

/-- A pasted URL stays where it is unless its text also reads as a lightning address. -/
theorem Crates.staysPut_iff (web : isWebText value) :
    C.StaysPut value ↔
      ¬(isLightningAddress (Str.trim value) ∨ isLoopbackLightningAddress (Str.trim value)) := by
  rw [← Bool.or_eq_true]
  constructor
  · rintro ⟨stays, _⟩ address
    -- an address always resolves, and never to its own text
    obtain ⟨url, resolved⟩ := Option.isSome_iff_exists.mp (isSome_lnAddressToUrl address)
    rw [resolveLnurlInput_of_isWebText web, if_pos address, resolved] at stays
    rcases stays with none | same
    · cases none
    · exact lnAddressToUrl_ne resolved (by rw [Str.trim_trim]; exact Option.some.inj same)
  · intro plain
    have stays : C.resolveLnurlInput value = none ∨ C.resolveLnurlInput value = some (Str.trim value) := by
      rw [resolveLnurlInput_of_isWebText web, if_neg plain]
      split
      · exact Or.inr rfl
      · exact Or.inl rfl
    refine ⟨stays, ?_, ?_⟩
    · rcases stays with none | same
      · exact Or.inl (by simp [Crates.resolveNoteInput, none])
      · cases named : C.resolveNoteInput value with
        | none => exact Or.inl rfl
        | some url =>
          simp only [Crates.resolveNoteInput, same, Option.bind_eq_bind, Option.bind_some, Option.bind_eq_some_iff,
            Option.ite_none_right_eq_some] at named
          obtain ⟨_, _, _, kept⟩ := named
          exact Or.inr kept.symm
    · intro mintPubkey check checked
      simp only [Crates.checkNoteUrl, Option.bind_eq_bind, Option.bind_eq_some_iff] at checked
      obtain ⟨url, resolved, k1, spend, domain, host, amountMsat, _, signature, _, checked⟩ := checked
      rcases stays with none | same
      · rw [none] at resolved
        cases resolved
      · cases Option.some.inj (same.symm.trans resolved)
        exact ⟨k1, domain, amountMsat, signature, spend, host, checked⟩

/-! A note's URL at `mint.example`, as it is and with one more query pair. -/

def pastedK1 : Str := Hex.encode (List.replicate 32 7)

def pastedNote : Str := "https://mint.example/w?k1=".toList ++ pastedK1

def pastedWithAt : Str := pastedNote ++ "&m=a@evil.example".toList

def movedNote : Str := "https://evil.example/.well-known/lnurlp/".toList ++ pastedNote ++ "&m=a".toList

set_option maxRecDepth 100000 in
theorem reference.pastedNote_staysPut : reference.StaysPut pastedNote :=
  (Crates.staysPut_iff (by decide +kernel)).mpr (by decide +kernel)

set_option maxRecDepth 100000 in
/-- An `@` in the query moves the note, k1 and all, to another host. -/
theorem reference.pastedWithAt_moved :
    isWebText pastedWithAt ∧ reference.resolveLnurlInput pastedWithAt = some movedNote ∧
      movedNote ≠ Str.trim pastedWithAt ∧ reference.resolveNoteInput pastedWithAt = some movedNote ∧
      reference.noteK1 movedNote = some pastedK1 ∧ reference.spendDomainOf movedNote = some "evil.example".toList ∧
      ¬reference.StaysPut pastedWithAt := by
  have resolved : reference.resolveLnurlInput pastedWithAt = some movedNote := by decide +kernel
  have moved : movedNote ≠ Str.trim pastedWithAt := by decide +kernel
  refine ⟨by decide +kernel, resolved, moved, by decide +kernel, by decide +kernel, by decide +kernel, ?_⟩
  rintro ⟨stays, _⟩
  rcases stays with none | same
  · rw [resolved] at none
    cases none
  · exact moved (Option.some.inj (resolved.symm.trans same))

end LnurlCash
