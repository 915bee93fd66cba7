import LnurlCash.MutationVerdicts
import LnurlCash.QueryRewrites

namespace LnurlCash

open Outcome

/-- A GET of the callback, admitted like it, whose query is the callback's own with these pairs behind, a `k1` among them. -/
structure Crates.Sends (C : Crates) (callback text : Str) (appended : List (Str × Str)) : Prop where
  admitted : C.isAllowedServiceUrl text
  spends : ∃ k1, ("k1".toList, k1) ∈ appended
  pairs : ∃ url out, C.url.parse callback = some url ∧ C.url.parse text = some out ∧
    C.url.queryPairs out = C.url.queryPairs url ++ appended

namespace MutationBuilder

def callback : MutationBuilder → Str
  | melt callback _ _ | rotate callback _ _ | split callback _ _ _ _ | merge callback _ _ | rotateWithHash callback _ _
  | splitWithHash callback _ _ _ _ | mergeWithHash callback _ _ => callback

/-- The notes it spends, in the order given. -/
def k1s : MutationBuilder → List Str
  | melt _ k1 _ | rotate _ k1 _ | rotateWithHash _ k1 _ => [k1]
  | split _ k1s _ _ _ | merge _ k1s _ | splitWithHash _ k1s _ _ _ | mergeWithHash _ k1s _ => k1s

/-- What goes between the notes it spends and those it mints: a melt's invoice, a split's amount. -/
def terms : MutationBuilder → List (Str × Str)
  | melt _ _ pr => [("pr".toList, Str.trim pr)]
  | split _ _ amountMsat _ _ | splitWithHash _ _ amountMsat _ _ => [("amount".toList, Str.decimal amountMsat.toNat)]
  | rotate .. | merge .. | rotateWithHash .. | mergeWithHash .. => []

/-- Whether the caller names the outputs itself. -/
def namesOutputs : MutationBuilder → Bool
  | rotateWithHash .. | splitWithHash .. | mergeWithHash .. => true
  | melt .. | rotate .. | split .. | merge .. => false

/-- The operation's own parameters, its outputs last. -/
def params (builder : MutationBuilder) (named : List Str) : List (Str × Str) :=
  builder.k1s.map ("k1".toList, ·) ++ builder.terms ++ ["p1".toList, "p2".toList].zip (named.map Str.trim)

end MutationBuilder

variable {C : Crates} {callback text : Str} {request : Request}

theorem Crates.spends_of_callbackUrl {params : List (Str × Str)} (built : C.callbackUrl callback params = .ok text) :
    ∃ k1, ("k1".toList, k1) ∈ params := by
  unfold callbackUrl at built
  split_ifs at built with _ none
  rw [Bool.not_eq_true', Bool.not_eq_false, List.any_eq_true] at none
  obtain ⟨⟨name, k1⟩, member, named⟩ := none
  rw [← of_decide_eq_true named]
  exact ⟨k1, member⟩

theorem Crates.sends_of_callbackUrl (keeps : C.url.KeepsPairs) (origin : C.url.KeepsOrigin) {params : List (Str × Str)}
    (built : C.callbackUrl callback params = .ok text) : C.Sends callback text params := by
  obtain ⟨url, allowed, parsed, rfl⟩ := callbackUrl_ok built
  obtain ⟨out, again, pairs⟩ := keeps.appended parsed params
  refine ⟨?_, spends_of_callbackUrl built, url, out, parsed, again, pairs⟩
  have web : C.url.scheme url ∈ ["http".toList, "https".toList] := by
    simp only [isAllowedServiceUrl, parsed] at allowed
    split_ifs at allowed with https http
    · simp [https]
    · simp [http]
  obtain ⟨same, reparsed, scheme, host⟩ := origin.appended parsed web params
  simp only [isAllowedServiceUrl, parsed] at allowed
  simp only [isAllowedServiceUrl, reparsed, scheme, host]
  exact allowed

/-! ### The builders -/

/-- Every builder that succeeds sends its parameters through `callback_url`. -/
theorem MutationBuilder.callbackUrl_of_build {builder : MutationBuilder} (built : builder.build C = .ok request) :
    C.callbackUrl builder.callback (builder.params request.outputs) = .ok request.url := by
  cases builder with
  | melt callback k1 pr =>
    simp only [build, Crates.meltRequest, bind_eq_ok, pure_eq_ok] at built
    obtain ⟨text, sent, rfl⟩ := built
    exact sent
  | rotateWithHash callback k1 h =>
    simp only [build, Crates.rotateRequestWithHash, bind_eq_ok, pure_eq_ok] at built
    obtain ⟨output, named, text, sent, rfl⟩ := built
    obtain ⟨_, rfl⟩ := Crates.outputParam_ok named
    exact sent
  | splitWithHash callback k1s amountMsat h h2 =>
    simp only [build, Crates.splitRequestWithHash, bind_eq_ok, pure_eq_ok] at built
    obtain ⟨output, named, change, named2, text, sent, rfl⟩ := built
    obtain ⟨_, rfl⟩ := Crates.outputParam_ok named
    obtain ⟨_, rfl⟩ := Crates.outputParam_ok named2
    rw [params, List.append_assoc]
    exact sent
  | mergeWithHash callback k1s h =>
    simp only [build, Crates.mergeRequestWithHash, bind_eq_ok, pure_eq_ok] at built
    obtain ⟨output, named, text, sent, rfl⟩ := built
    obtain ⟨_, rfl⟩ := Crates.outputParam_ok named
    rw [params, terms, List.append_nil]
    exact sent
  | rotate callback k1 newSecret =>
    simp only [build, Crates.rotateRequest, Crates.rotateRequestWithHash, bind_eq_ok, pure_eq_ok] at built
    obtain ⟨h, _, _, ⟨output, named, text, sent, rfl⟩, rfl⟩ := built
    obtain ⟨_, rfl⟩ := Crates.outputParam_ok named
    exact sent
  | split callback k1s amountMsat newSecret changeSecret =>
    simp only [build, Crates.splitRequest, Crates.splitRequestWithHash, bind_eq_ok, pure_eq_ok] at built
    obtain ⟨h, _, h2, _, _, ⟨output, named, change, named2, text, sent, rfl⟩, rfl⟩ := built
    obtain ⟨_, rfl⟩ := Crates.outputParam_ok named
    obtain ⟨_, rfl⟩ := Crates.outputParam_ok named2
    rw [params, List.append_assoc]
    exact sent
  | merge callback k1s newSecret =>
    simp only [build, Crates.mergeRequest, Crates.mergeRequestWithHash, bind_eq_ok, pure_eq_ok] at built
    obtain ⟨h, _, _, ⟨output, named, text, sent, rfl⟩, rfl⟩ := built
    obtain ⟨_, rfl⟩ := Crates.outputParam_ok named
    rw [params, terms, List.append_nil]
    exact sent

/-- A builder that is given its outputs refuses before anything is sent, or does not refuse at all. -/
theorem MutationBuilder.build_error {builder : MutationBuilder} {error : Error} (named : builder.namesOutputs)
    (failed : builder.build C = .error error) : ∃ reason, error = .requestRefused reason := by
  cases builder with
  | melt | rotate | split | merge => cases named
  | rotateWithHash callback k1 h =>
    simp only [build, Crates.rotateRequestWithHash, bind_eq_error, pure_ne_error, and_false, exists_const,
      or_false] at failed
    rcases failed with refused | ⟨output, _, refused⟩
    · exact Crates.outputParam_error refused
    · exact Crates.callbackUrl_error refused
  | splitWithHash callback k1s amountMsat h h2 =>
    simp only [build, Crates.splitRequestWithHash, bind_eq_error, pure_ne_error, and_false, exists_const,
      or_false] at failed
    rcases failed with refused | ⟨output, _, refused | ⟨change, _, refused⟩⟩
    · exact Crates.outputParam_error refused
    · exact Crates.outputParam_error refused
    · exact Crates.callbackUrl_error refused
  | mergeWithHash callback k1s h =>
    simp only [build, Crates.mergeRequestWithHash, bind_eq_error, pure_ne_error, and_false, exists_const,
      or_false] at failed
    rcases failed with refused | ⟨output, _, refused⟩
    · exact Crates.outputParam_error refused
    · exact Crates.callbackUrl_error refused

theorem Crates.decodeNote_trim (C : Crates) (value : Str) : C.decodeNote (Str.trim value) = C.decodeNote value := by
  simp only [decodeNote, hex32_trim, decodeCp1, decodeFixed, decodeBytes_trim]

/-- A request says what its builder was asked: the callback's own parameters, then
the operation's, with every output it recorded in its place. A builder that names
its outputs refuses an empty list of notes, an unadmitted callback and an output that is no note. -/
theorem Crates.requests_say_what_was_asked (keeps : C.url.KeepsPairs) (origin : C.url.KeepsOrigin) :
    (∀ (builder : MutationBuilder) request, builder.build C = .ok request →
        C.Sends builder.callback request.url (builder.params request.outputs) ∧
          request.outputs = builder.outputs C ∧ ∀ output ∈ request.outputs, (C.decodeNote (Str.trim output)).isSome) ∧
      (∀ payRequest noteDomain k1 amountMsat request,
        C.internalTransferRequest payRequest noteDomain k1 amountMsat = .ok request →
          C.Sends payRequest.callback request.url
              [("amount".toList, Str.decimal amountMsat.toNat), ("k1".toList, Str.trim k1)] ∧ request.outputs = []) ∧
      ∀ builder : MutationBuilder, builder.namesOutputs →
        builder.k1s = [] ∨ C.isAllowedServiceUrl builder.callback = false ∨
            (∃ output ∈ builder.outputs C, C.decodeNote output = none) →
          ∃ reason, builder.build C = .error (.requestRefused reason) := by
  refine ⟨fun builder request built => ?_, fun payRequest noteDomain k1 amountMsat request built => ?_,
    fun builder named wrong => ?_⟩
  · obtain ⟨recorded, _, usable⟩ := MutationBuilder.build_ok built
    refine ⟨sends_of_callbackUrl keeps origin (MutationBuilder.callbackUrl_of_build built), recorded, ?_⟩
    rwa [recorded]
  · simp only [internalTransferRequest, bind_eq_ok, pure_eq_ok] at built
    obtain ⟨_, _, _, _, _, _, text, sent, rfl⟩ := built
    exact ⟨sends_of_callbackUrl keeps origin sent, rfl⟩
  · cases result : builder.build C with
    | error error =>
      obtain ⟨reason, rfl⟩ := MutationBuilder.build_error named result
      exact ⟨reason, rfl⟩
    | ok request =>
      exfalso
      have sent := MutationBuilder.callbackUrl_of_build result
      obtain ⟨recorded, _, usable⟩ := MutationBuilder.build_ok result
      rcases wrong with empty | unadmitted | ⟨output, member, nothing⟩
      · obtain ⟨k1, member⟩ := spends_of_callbackUrl sent
        rw [MutationBuilder.params, empty, List.map_nil, List.nil_append, List.mem_append] at member
        rcases member with term | output
        · cases builder <;> simp [MutationBuilder.terms] at term
        · have key := (List.of_mem_zip output).1
          exact absurd key (by decide)
      · obtain ⟨_, allowed, _⟩ := callbackUrl_ok sent
        rw [unadmitted] at allowed
        cases allowed
      · have named := usable output member
        rw [decodeNote_trim, nothing] at named
        cases named

/-- A merge of two notes at a callback with a parameter of its own. -/
theorem reference.merge_says_what_was_asked : ∃ request,
    reference.mergeRequestWithHash "https://mint.example/w?k1=old".toList ["aa".toList, "bb".toList]
        (List.replicate 64 '1') = .ok request ∧ reference.isAllowedServiceUrl request.url := by
  have builds : ∃ request, reference.mergeRequestWithHash "https://mint.example/w?k1=old".toList
      ["aa".toList, "bb".toList] (List.replicate 64 '1') = .ok request := by
    have ok : (reference.mergeRequestWithHash "https://mint.example/w?k1=old".toList ["aa".toList, "bb".toList]
        (List.replicate 64 '1')).isOk := by decide +kernel
    cases result : reference.mergeRequestWithHash "https://mint.example/w?k1=old".toList ["aa".toList, "bb".toList]
        (List.replicate 64 '1') with
    | ok request => exact ⟨request, rfl⟩
    | error error =>
      rw [result] at ok
      cases ok
  obtain ⟨request, built⟩ := builds
  obtain ⟨asked, _, _⟩ := Crates.requests_say_what_was_asked reference.keepsPairs reference.keepsOrigin
  exact ⟨request, built, (asked (.mergeWithHash _ _ _) request built).1.admitted⟩

end LnurlCash
