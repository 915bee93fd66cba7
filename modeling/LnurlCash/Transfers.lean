import LnurlCash.Protocol
import LnurlCash.Reference

namespace LnurlCash

open Outcome

/-- Appending these pairs to this URL leaves a text with its scheme at the
front, no whitespace around it, and its host when parsed again. -/
def UrlCrate.KeepsHost (U : UrlCrate) (text : Str) (pairs : List (Str × Str)) : Prop :=
  ∀ url, U.parse text = some url →
    (U.scheme url ++ "://".toList) <+: U.toText (U.appendPairs url pairs) ∧
      Str.trim (U.toText (U.appendPairs url pairs)) = U.toText (U.appendPairs url pairs) ∧
      (U.parse (U.toText (U.appendPairs url pairs))).bind U.hostStr = U.hostStr url

theorem UrlCrate.KeepsHost.of_parse {U : UrlCrate} {text : Str} {pairs : List (Str × Str)} {url : U.Url}
    (parsed : U.parse text = some url)
    (kept : (U.scheme url ++ "://".toList) <+: U.toText (U.appendPairs url pairs) ∧
      Str.trim (U.toText (U.appendPairs url pairs)) = U.toText (U.appendPairs url pairs) ∧
      (U.parse (U.toText (U.appendPairs url pairs))).bind U.hostStr = U.hostStr url) : U.KeepsHost text pairs := by
  intro other same
  cases Option.some.inj (parsed.symm.trans same)
  exact kept

def Crates.hostOf (C : Crates) (text : Str) : Option Str := ((C.url.parse text).bind C.url.hostStr).map Str.lower

/-- What `spend_domain_of` gives the parser: a text without a scheme is read behind `https://`. -/
def withScheme (expanded : Str) : Str :=
  if Str.contains expanded "://".toList then expanded else "https://".toList ++ expanded

def transferParams (k1 : Str) (amountMsat : UInt64) : List (Str × Str) :=
  [("amount".toList, Str.decimal amountMsat.toNat), ("k1".toList, Str.trim k1)]

variable {C : Crates}

theorem Crates.spendDomainOf_eq (C : Crates) (value : Str) :
    C.spendDomainOf value = ((expandLink (Str.trim value)).bind fun link => C.hostOf (withScheme link)).filter (· ≠ []) := by
  simp only [spendDomainOf, hostOf, withScheme, Option.bind_eq_bind]
  cases expandLink (Str.trim value) with
  | none => rfl
  | some expanded =>
    simp only [Option.bind_some]
    cases C.url.parse (if Str.contains expanded "://".toList then expanded else "https://".toList ++ expanded) with
    | none => rfl
    | some url =>
      cases host : C.url.hostStr url with
      | none => simp [host]
      | some name => by_cases empty : Str.lower name = [] <;> simp [host, empty, Option.filter]

/-- An http or https URL is bound to the host it parses to. -/
theorem Crates.spendDomainOf_of_http {text : Str} (clean : Str.trim text = text) (web : "http".toList <+: Str.lower text)
    (hierarchical : "://".toList <:+: text) : C.spendDomainOf text = (C.hostOf text).filter (· ≠ []) := by
  have plain : ¬isBech32Lnurl text := by simp [not_isBech32Lnurl_of_http clean web]
  have whole : withScheme text = text := if_pos (Str.contains_iff.mpr hierarchical)
  rw [spendDomainOf_eq, clean, expandLink, if_neg plain, Option.bind_some, fromLud17_of_http web, whole]

theorem Crates.spendDomainOf_ne_nil {value domain : Str} (named : C.spendDomainOf value = some domain) :
    domain ≠ [] := by
  simp only [Crates.spendDomainOf, Option.bind_eq_bind, Option.bind_eq_some_iff, Option.ite_none_right_eq_some] at named
  obtain ⟨_, _, _, _, _, _, nonempty, same⟩ := named
  exact Option.some.inj same ▸ nonempty

theorem Crates.scheme_of_isAllowedServiceUrl {text : Str} {url : C.url.Url} (allowed : C.isAllowedServiceUrl text)
    (parsed : C.url.parse text = some url) : "http".toList <+: Str.lower (C.url.scheme url) := by
  simp only [Crates.isAllowedServiceUrl, parsed] at allowed
  split_ifs at allowed with https http
  · rw [https]; decide
  · rw [http]; decide

/-- A callback URL is bound to the callback's own host. -/
theorem Crates.spendDomainOf_callbackUrl {callback text : Str} {params : List (Str × Str)}
    (ok : C.callbackUrl callback params = .ok text) (keeps : C.url.KeepsHost callback params) :
    C.spendDomainOf text = (C.hostOf callback).filter (· ≠ []) := by
  obtain ⟨url, allowed, parsed, rfl⟩ := callbackUrl_ok ok
  obtain ⟨front, clean, host⟩ := keeps url parsed
  have web : "http".toList <+: Str.lower (C.url.toText (C.url.appendPairs url params)) := by
    obtain ⟨rest, whole⟩ := front
    rw [← whole, List.append_assoc, Str.lower_append]
    exact (scheme_of_isAllowedServiceUrl allowed parsed).trans (List.prefix_append _ _)
  have hierarchical : "://".toList <:+: C.url.toText (C.url.appendPairs url params) :=
    (List.suffix_append (C.url.scheme url) _).isInfix.trans front.isInfix
  rw [spendDomainOf_of_http clean web hierarchical, Crates.hostOf, Crates.hostOf, host, parsed, Option.bind_some]

/-- An internal transfer's URL is on the note's mint exactly when the
callback's own host is: the payee's `withdrawLink` decides nothing about it. -/
theorem Crates.transfer_stays_iff {payRequest : PayRequestInfo} {noteDomain k1 : Str} {amountMsat : UInt64}
    {request : Request} (built : C.internalTransferRequest payRequest noteDomain k1 amountMsat = .ok request)
    (keeps : C.url.KeepsHost payRequest.callback (transferParams k1 amountMsat)) :
    C.spendDomainOf request.url = C.spendDomainOf noteDomain ↔
      C.hostOf payRequest.callback = C.spendDomainOf noteDomain := by
  simp only [Crates.internalTransferRequest, bind_eq_ok, refuseIf_eq_ok, pure_eq_ok] at built
  obtain ⟨_, sameMint, _, _, _, _, text, callback, rfl⟩ := built
  have sent : C.spendDomainOf (Request.plain text).url = (C.hostOf payRequest.callback).filter (· ≠ []) :=
    spendDomainOf_callbackUrl callback keeps
  have note : ∃ note, C.spendDomainOf noteDomain = some note ∧ note ≠ [] := by
    cases named : C.spendDomainOf noteDomain with
    | none => simp [named] at sameMint
    | some note => exact ⟨note, rfl, spendDomainOf_ne_nil named⟩
  obtain ⟨note, named, nonempty⟩ := note
  rw [sent, named, Option.filter_eq_some_iff]
  simp [nonempty]

/-! A note at `mint.example`, sent to an address there whose callback is at `host`. -/

def transferK1 : Str := Hex.encode (List.replicate 32 7)

def payCallback (host : Str) : Str := "https://".toList ++ host ++ "/pay".toList

def payRequestAt (host : Str) : PayRequestInfo where
  callback := payCallback host
  minSendable := 1
  maxSendable := 1000000
  withdrawLink := some "lnurlw://mint.example/w".toList

def payUrl (host : Str) : PlainUrl where
  scheme := "https".toList
  host := host
  port := none
  path := "/pay".toList
  query := none

def transferAt (host : Str) : Request :=
  Request.plain (payCallback host ++ "?amount=1000&k1=".toList ++ transferK1)

set_option maxRecDepth 100000 in
theorem reference.transfer_to_mint :
    reference.spendDomainOf (transferAt "mint.example".toList).url = reference.spendDomainOf "mint.example".toList := by
  have built : reference.internalTransferRequest (payRequestAt "mint.example".toList) "mint.example".toList transferK1
      1000 = .ok (transferAt "mint.example".toList) := by decide +kernel
  have parsed : PlainUrl.parse (payCallback "mint.example".toList) = some (payUrl "mint.example".toList) := by
    decide +kernel
  exact (Crates.transfer_stays_iff built (.of_parse parsed (by decide +kernel))).mpr (by decide +kernel)

set_option maxRecDepth 100000 in
/-- The address's `withdrawLink` is at the note's mint, its callback is not. -/
theorem reference.transfer_to_evil :
    reference.internalTransferRequest (payRequestAt "evil.example".toList) "mint.example".toList transferK1 1000 =
        .ok (transferAt "evil.example".toList) ∧
      reference.url.KeepsHost (payCallback "evil.example".toList) (transferParams transferK1 1000) ∧
      reference.spendDomainOf (transferAt "evil.example".toList).url = some "evil.example".toList ∧
      reference.spendDomainOf "mint.example".toList = some "mint.example".toList := by
  have parsed : PlainUrl.parse (payCallback "evil.example".toList) = some (payUrl "evil.example".toList) := by
    decide +kernel
  exact ⟨by decide +kernel, .of_parse parsed (by decide +kernel), by decide +kernel, by decide +kernel⟩

end LnurlCash
