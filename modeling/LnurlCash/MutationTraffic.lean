import LnurlCash.OutputSecrets
import LnurlCash.Redirects

namespace LnurlCash

open Outcome

variable {C : Crates} {config : ClientConfig} {trace : List Exchange}

section Sent

variable {kind : MutationKind} {request : Request}

/-- The last packet is a reply to the request, and the loop reads it as this outcome. -/
def Crates.AnsweredLast (C : Crates) (config : ClientConfig) (request : Request) (kind : MutationKind)
    (trace : List Packet) (outcome : Except Error MutationResponse) : Prop :=
  ∃ before reply, trace = before ++ [⟨.get request.url, .reply reply⟩] ∧
    C.attemptOutcome config kind request reply = outcome

/-- What a mutation may send: one request and no other, again only while its
outcome is unknown, and never more often than its retries allow. What it
returns, or attaches secrets to, is its answer to that request. -/
structure Crates.Traffic (C : Crates) (config : ClientConfig) (request : Request) (kind : MutationKind)
    (trace : List Packet) (result : Except Error MutationResponse) : Prop where
  same_request : ∀ packet ∈ trace, ∃ hop : Hop, packet = ⟨.get request.url, hop⟩
  bounded : trace.length ≤ 1 + config.mutationRetries.toNat
  melt_once : kind = .melt → trace.length ≤ 1
  refused : config.offline ∨ ¬C.isAllowedServiceUrl request.url →
    trace = [] ∧ ∃ message, result = .error (.requestRefused message)
  after_ambiguous : ∀ before packet after, trace = before ++ packet :: after → after ≠ [] →
    ∃ reply error, packet = ⟨.get request.url, .reply reply⟩ ∧
      C.attemptOutcome config kind request reply = .error error ∧ error.isAmbiguous
  last_word : ∀ before reply after, trace = before ++ ⟨.get request.url, .reply reply⟩ :: after →
    (∀ error, C.attemptOutcome config kind request reply = .error error → error.isAmbiguous = false) → after = []
  confirmed : ∀ response, result = .ok response → C.AnsweredLast config request kind trace (.ok response)
  attached : ∀ error, result = .error error → error.newSecrets ≠ [] → error.newSecrets = request.newSecrets ∧
    ∃ failure, C.AnsweredLast config request kind trace (.error failure) ∧ error = failure.withSecrets request.newSecrets

theorem Crates.refusal_eq_none : C.refusal config request = none ↔ ¬(config.offline ∨ ¬C.isAllowedServiceUrl request.url) := by
  unfold Crates.refusal
  by_cases offline : config.offline
  · simp [offline]
  · by_cases allowed : C.isAllowedServiceUrl request.url <;> simp [offline, allowed]

/-- In a run that ends with an attempt, whatever comes before something else was lost. -/
theorem Crates.lost_of_followed {before : List Exchange} {last exchange : Exchange} {front after : List Exchange}
    (earlier : ∀ exchange ∈ before, C.LostAttempt config kind request exchange)
    (split : before ++ [last] = front ++ exchange :: after) (more : after ≠ []) :
    C.LostAttempt config kind request exchange := by
  obtain ⟨init, final, rfl⟩ := List.eq_nil_or_concat after |>.resolve_left more
  have whole : before ++ [last] = (front ++ exchange :: init) ++ [final] := by simpa using split
  have same := (List.append_inj' whole rfl).1
  exact earlier exchange (by simp [same])

/-- A mutation's error hands back the request's own secrets or none at all. -/
theorem Crates.newSecrets_of_reported {outcome : Except Error MutationResponse} {secrets : List Str} {error : Error}
    (failed : reported secrets outcome = .error error) (carries : error.newSecrets ≠ []) :
    error.newSecrets = secrets ∧ ∃ failure, outcome = .error failure ∧ error = failure.withSecrets secrets := by
  cases outcome with
  | ok response => cases failed
  | error failure =>
    cases failed
    refine ⟨?_, failure, rfl, rfl⟩
    rw [Error.newSecrets_withSecrets] at carries ⊢
    split_ifs at carries ⊢
    · rfl
    · exact absurd rfl carries

/-- A mutation whose sends are redirected nowhere. -/
theorem Crates.runMutation_traffic {result : Except Error MutationResponse}
    (run : Dialogue.Runs (C.runMutation config request kind) trace result) :
    C.Traffic config request kind (trace.map Exchange.direct) result := by
  have limit := retriesFor_le config kind
  have requested : ∀ packet ∈ trace.map Exchange.direct, ∃ hop : Hop, packet = ⟨.get request.url, hop⟩ := by
    intro packet member
    obtain ⟨exchange, among, rfl⟩ := List.mem_map.mp member
    obtain ⟨reply, rfl⟩ := runMutation_same_request run exchange among
    exact ⟨.reply reply, rfl⟩
  rcases runMutation_last run with ⟨rfl, message, refused, rfl⟩ | ⟨before, reply, rfl, length, earlier, rfl⟩
  · exact {
      same_request := requested
      bounded := by simp
      melt_once := by simp
      refused := fun _ => ⟨rfl, message, rfl⟩
      after_ambiguous := by simp
      last_word := by simp
      confirmed := nofun
      attached := by
        rintro error same carries
        cases same
        exact absurd rfl carries }
  · have followed : ∀ front packet after, (before ++ [(⟨.get request.url, reply⟩ : Exchange)]).map Exchange.direct =
        front ++ packet :: after → after ≠ [] → ∃ answer error, packet = ⟨.get request.url, .reply answer⟩ ∧
          C.attemptOutcome config kind request answer = .error error ∧ error.isAmbiguous := by
      intro front packet after split more
      obtain ⟨first, rest, whole, _, later⟩ := List.map_eq_append_iff.mp split
      obtain ⟨exchange, others, rfl, rfl, rfl⟩ := List.map_eq_cons_iff.mp later
      obtain ⟨answer, error, rfl, ended, ambiguous⟩ := lost_of_followed earlier whole (by simpa using more)
      exact ⟨answer, error, rfl, ended, ambiguous⟩
    have last : ∀ outcome, C.attemptOutcome config kind request reply = outcome → C.AnsweredLast config request kind
        ((before ++ [(⟨.get request.url, reply⟩ : Exchange)]).map Exchange.direct) outcome :=
      fun outcome ended => ⟨before.map Exchange.direct, reply, List.map_append, ended⟩
    refine ⟨requested, ?_, ?_, ?_, followed, ?_, ?_, ?_⟩
    · rw [List.length_map]
      omega
    · intro melt
      rw [melt, retriesFor_melt] at length
      rwa [List.length_map]
    · intro refused
      exact absurd refused (refusal_eq_none.mp (refusal_of_sent run (by simp)))
    · intro front answer after split settled
      by_contra more
      obtain ⟨other, error, same, ended, ambiguous⟩ := followed _ _ _ split more
      obtain rfl := Packet.reply_inj same
      rw [settled error ended] at ambiguous
      cases ambiguous
    · intro response confirmed
      cases ended : C.attemptOutcome config kind request reply with
      | ok answer =>
        rw [ended] at confirmed
        cases confirmed
        exact last _ ended
      | error failure =>
        rw [ended] at confirmed
        cases confirmed
    · intro error failed carries
      obtain ⟨carried, failure, ended, same⟩ := newSecrets_of_reported failed carries
      exact ⟨carried, failure, last _ ended, same⟩

/-- What such a mutation was redirected by would be followed by another GET. -/
theorem Crates.Traffic.not_redirected {attempts before after : List Packet} {next : Packet} {url target : Str}
    {result : Except Error MutationResponse} (traffic : C.Traffic config request kind attempts result)
    (redirected : attempts = before ++ ⟨.get url, .redirect target⟩ :: next :: after) : False := by
  obtain ⟨_, _, same, _⟩ := traffic.after_ambiguous _ _ _ redirected (by simp)
  cases same

end Sent

/-- The operations that mint to secrets the client draws itself. -/
inductive NoteOperation where
  | rotate (callback k1 : Str)
  | split (callback : Str) (k1s : List Str) (amountMsat : UInt64)
  | merge (callback : Str) (k1s : List Str)

namespace NoteOperation

def outputs : NoteOperation → Nat
  | split .. => 2
  | _ => 1

def callback : NoteOperation → Str
  | rotate callback _ | split callback _ _ | merge callback _ => callback

def kind : NoteOperation → MutationKind
  | rotate .. => .rotate
  | split .. => .split
  | merge .. => .merge

/-- The request an operation sends for the secrets it drew, one for each output. -/
def request (C : Crates) : NoteOperation → List Str → Except Error Request
  | rotate callback k1, [fresh] => C.rotateRequest callback k1 fresh
  | split callback k1s amountMsat, [fresh, change] => C.splitRequest callback k1s amountMsat fresh change
  | merge callback k1s, [fresh] => C.mergeRequest callback k1s fresh
  | _, _ => .error (.protocol "one secret for each output".toList)

/-- The operation, reduced to the secrets it returns. -/
def session (C : Crates) (config : ClientConfig) : NoteOperation → Session (Except Error (List Str))
  | rotate callback k1 => do
    let outcome ← C.rotateNote config callback k1
    pure (outcome.map fun rotated => [rotated.k1])
  | split callback k1s amountMsat => do
    let outcome ← C.splitNote config callback k1s amountMsat
    pure (outcome.map fun split => [split.k1, split.change])
  | merge callback k1s => do
    let outcome ← C.mergeNotes config callback k1s
    pure (outcome.map fun merged => [merged.k1])

end NoteOperation

/-- The request carries these secrets and names their hashes, in order, as its
outputs and as the last parameters of its URL. -/
def Crates.NamesHashes (C : Crates) (operation : NoteOperation) (secrets : List Str) (request : Request) : Prop :=
  ∃ hashes url spent, List.Forall₂ (fun secret h => C.hashK1 secret = .ok h) secrets hashes ∧
    request.newSecrets = secrets ∧ request.outputs = hashes ∧ C.url.parse operation.callback = some url ∧
    request.url = C.url.toText (C.url.appendPairs url (spent ++ ["p1".toList, "p2".toList].zip hashes))

/-- One fresh secret for each output and then one mutation; what comes back
carries no secrets or exactly those. -/
def Crates.FreshTraffic (C : Crates) (config : ClientConfig) (operation : NoteOperation) (trace : List Packet)
    (result : Except Error (List Str)) : Prop :=
  ∃ secrets attempts, secrets.length = operation.outputs ∧
    trace = secrets.map (fun secret => (⟨.freshSecret, secret⟩ : Packet)) ++ attempts ∧
    ((∃ error, operation.request C secrets = .error error ∧ attempts = [] ∧ result = .error error ∧
        error.newSecrets = []) ∨
      ∃ request outcome, operation.request C secrets = .ok request ∧ C.NamesHashes operation secrets request ∧
        C.Traffic config request operation.kind attempts outcome ∧ result = outcome.map (fun _ => secrets) ∧
        ∀ error, result = .error error → error.newSecrets = [] ∨ error.newSecrets = secrets)

theorem Crates.hashK1_error {secret : Str} {error : Error} (failed : C.hashK1 secret = .error error) :
    error.carriesSecrets = false := by
  unfold Crates.hashK1 at failed
  split at failed
  · cases failed
    rfl
  · cases failed

theorem Crates.outputParam_error {name value : Str} {error : Error} (failed : C.outputParam name value = .error error) :
    ∃ reason, error = .requestRefused reason := by
  simp only [Crates.outputParam] at failed
  split_ifs at failed
  exact ⟨_, (Except.error.inj failed).symm⟩

theorem Crates.callbackUrl_error {callback : Str} {params : List (Str × Str)} {error : Error}
    (failed : C.callbackUrl callback params = .error error) : ∃ reason, error = .requestRefused reason := by
  simp only [Crates.callbackUrl] at failed
  split_ifs at failed
  · exact ⟨_, (Except.error.inj failed).symm⟩
  · exact ⟨_, (Except.error.inj failed).symm⟩
  · split at failed
    · exact ⟨_, (Except.error.inj failed).symm⟩
    · cases failed

theorem bare_of_refused {error : Error} (refused : ∃ reason, error = .requestRefused reason) :
    error.carriesSecrets = false := by
  obtain ⟨reason, rfl⟩ := refused
  rfl

/-- A builder that refuses has nothing to hand back. -/
theorem NoteOperation.request_error {operation : NoteOperation} {secrets : List Str} {error : Error}
    (failed : operation.request C secrets = .error error) : error.carriesSecrets = false := by
  unfold NoteOperation.request at failed
  split at failed
  · simp only [Crates.rotateRequest, Crates.rotateRequestWithHash, bind_eq_error, pure_ne_error, and_false,
      exists_false, or_false] at failed
    rcases failed with hash | ⟨_, _, output | ⟨_, _, url⟩⟩
    · exact Crates.hashK1_error hash
    · exact bare_of_refused (Crates.outputParam_error output)
    · exact bare_of_refused (Crates.callbackUrl_error url)
  · simp only [Crates.splitRequest, Crates.splitRequestWithHash, bind_eq_error, pure_ne_error, and_false,
      exists_false, or_false] at failed
    rcases failed with hash | ⟨_, _, hash | ⟨_, _, output | ⟨_, _, output | ⟨_, _, url⟩⟩⟩⟩
    · exact Crates.hashK1_error hash
    · exact Crates.hashK1_error hash
    · exact bare_of_refused (Crates.outputParam_error output)
    · exact bare_of_refused (Crates.outputParam_error output)
    · exact bare_of_refused (Crates.callbackUrl_error url)
  · simp only [Crates.mergeRequest, Crates.mergeRequestWithHash, bind_eq_error, pure_ne_error, and_false,
      exists_false, or_false] at failed
    rcases failed with hash | ⟨_, _, output | ⟨_, _, url⟩⟩
    · exact Crates.hashK1_error hash
    · exact bare_of_refused (Crates.outputParam_error output)
    · exact bare_of_refused (Crates.callbackUrl_error url)
  · cases failed
    rfl

/-- Hashes have no whitespace around them, so they are named as they are. -/
theorem Crates.map_trim_of_hashK1 {secrets hashes : List Str}
    (hashed : List.Forall₂ (fun secret h => C.hashK1 secret = .ok h) secrets hashes) : hashes.map Str.trim = hashes := by
  induction hashed with
  | nil => rfl
  | cons first _ ih => rw [List.map_cons, trim_of_hashK1 first, ih]

theorem Crates.Mutates.namesHashes {operation : NoteOperation} {secrets hashes : List Str} {spent : List (Str × Str)}
    {request : Request} (mutates : C.Mutates operation.callback spent hashes request)
    (hashed : List.Forall₂ (fun secret h => C.hashK1 secret = .ok h) secrets hashes)
    (carried : request.newSecrets = secrets) : C.NamesHashes operation secrets request := by
  obtain ⟨url, parsed, sent⟩ := mutates.sent
  rw [map_trim_of_hashK1 hashed] at sent
  exact ⟨hashes, url, spent, hashed, carried, mutates.recorded, parsed, sent⟩

theorem NoteOperation.request_ok {operation : NoteOperation} {secrets : List Str} {request : Request}
    (built : operation.request C secrets = .ok request) : C.NamesHashes operation secrets request := by
  unfold NoteOperation.request at built
  split at built
  · obtain ⟨h, hashed, mutates, carried⟩ := Crates.rotateRequest_ok built
    exact mutates.namesHashes (.cons hashed .nil) carried
  · obtain ⟨h, h2, hashed, hashed2, mutates, carried⟩ := Crates.splitRequest_ok built
    exact mutates.namesHashes (.cons hashed (.cons hashed2 .nil)) carried
  · obtain ⟨h, hashed, mutates, carried⟩ := Crates.mergeRequest_ok built
    exact mutates.namesHashes (.cons hashed .nil) carried
  · cases built

/-! ### The runs of an operation -/

namespace NoteOperation

theorem session_of_rotateNote {callback k1 : Str} {trace : List Exchange} {result : Except Error RotateOutcome}
    (run : Dialogue.Runs (C.rotateNote config callback k1) trace result) :
    Dialogue.Runs ((rotate callback k1).session C config) trace (result.map fun outcome => [outcome.k1]) :=
  Dialogue.runs_bind_pure.mpr ⟨result, run, rfl⟩

theorem session_of_splitNote {callback : Str} {k1s : List Str} {amountMsat : UInt64} {trace : List Exchange}
    {result : Except Error SplitOutcome} (run : Dialogue.Runs (C.splitNote config callback k1s amountMsat) trace result) :
    Dialogue.Runs ((split callback k1s amountMsat).session C config) trace
      (result.map fun outcome => [outcome.k1, outcome.change]) :=
  Dialogue.runs_bind_pure.mpr ⟨result, run, rfl⟩

theorem session_of_mergeNotes {callback : Str} {k1s : List Str} {trace : List Exchange}
    {result : Except Error RotateOutcome} (run : Dialogue.Runs (C.mergeNotes config callback k1s) trace result) :
    Dialogue.Runs ((merge callback k1s).session C config) trace (result.map fun outcome => [outcome.k1]) :=
  Dialogue.runs_bind_pure.mpr ⟨result, run, rfl⟩

theorem runs_of_mutate {α : Type} (operation : NoteOperation) (secrets : List Str) {attempts : List Exchange}
    {outcome : MutationResponse → α} {returned : α → List Str} {result : Except Error α}
    (run : Dialogue.Runs (C.mutate config (operation.request C secrets) operation.kind outcome) attempts result)
    (returns : ∀ response, returned (outcome response) = secrets) :
    (∃ error, operation.request C secrets = .error error ∧ attempts = [] ∧ result.map returned = .error error) ∨
      ∃ request reached, operation.request C secrets = .ok request ∧
        Dialogue.Runs (C.runMutation config request operation.kind) attempts reached ∧
        result.map returned = reached.map fun _ => secrets := by
  rcases Crates.runs_mutate run with ⟨error, built, rfl, rfl⟩ | ⟨request, reached, built, mutated, rfl⟩
  · exact Or.inl ⟨error, built, rfl, rfl⟩
  · refine Or.inr ⟨request, reached, built, mutated, ?_⟩
    cases reached with
    | ok response => exact congrArg Except.ok (returns response)
    | error error => rfl

/-- An operation draws a secret for each output, and then refuses to build a
request for them or runs it as one mutation. -/
theorem session_runs {operation : NoteOperation} {trace : List Exchange} {result : Except Error (List Str)}
    (run : Dialogue.Runs (operation.session C config) trace result) :
    ∃ secrets attempts, secrets.length = operation.outputs ∧
      trace = secrets.map (fun secret => (⟨.freshSecret, secret⟩ : Exchange)) ++ attempts ∧
      ((∃ error, operation.request C secrets = .error error ∧ attempts = [] ∧ result = .error error) ∨
        ∃ request reached, operation.request C secrets = .ok request ∧
          Dialogue.Runs (C.runMutation config request operation.kind) attempts reached ∧
          result = reached.map fun _ => secrets) := by
  cases operation with
  | rotate callback k1 =>
    obtain ⟨outcome, ran, rfl⟩ := Dialogue.runs_bind_pure.mp run
    obtain ⟨fresh, attempts, rfl, rest⟩ := Dialogue.runs_query_bind.mp ran
    exact ⟨[fresh], attempts, rfl, rfl, runs_of_mutate (.rotate callback k1) [fresh] rest fun _ => rfl⟩
  | split callback k1s amountMsat =>
    obtain ⟨outcome, ran, rfl⟩ := Dialogue.runs_bind_pure.mp run
    obtain ⟨fresh, others, rfl, more⟩ := Dialogue.runs_query_bind.mp ran
    obtain ⟨change, attempts, rfl, rest⟩ := Dialogue.runs_query_bind.mp more
    exact ⟨[fresh, change], attempts, rfl, rfl,
      runs_of_mutate (.split callback k1s amountMsat) [fresh, change] rest fun _ => rfl⟩
  | merge callback k1s =>
    obtain ⟨outcome, ran, rfl⟩ := Dialogue.runs_bind_pure.mp run
    obtain ⟨fresh, attempts, rfl, rest⟩ := Dialogue.runs_query_bind.mp ran
    exact ⟨[fresh], attempts, rfl, rfl, runs_of_mutate (.merge callback k1s) [fresh] rest fun _ => rfl⟩

/-- An operation whose sends are redirected nowhere. -/
theorem session_traffic {operation : NoteOperation} {result : Except Error (List Str)}
    (run : Dialogue.Runs (operation.session C config) trace result) :
    C.FreshTraffic config operation (trace.map Exchange.direct) result := by
  obtain ⟨secrets, attempts, count, rfl, ends⟩ := session_runs run
  refine ⟨secrets, attempts.map Exchange.direct, count, by simp [Exchange.direct], ?_⟩
  rcases ends with ⟨error, failed, rfl, rfl⟩ | ⟨request, reached, built, mutated, rfl⟩
  · exact Or.inl ⟨error, failed, rfl, rfl, Error.newSecrets_eq_nil (request_error failed)⟩
  · have names := request_ok built
    have traffic := Crates.runMutation_traffic mutated
    refine Or.inr ⟨request, reached, built, names, traffic, rfl, fun error same => ?_⟩
    obtain ⟨_, _, _, _, carried, _⟩ := names
    cases reached with
    | ok response => cases same
    | error failure =>
      cases same
      rw [← carried, or_iff_not_imp_left]
      exact fun carries => (traffic.attached error rfl carries).1

end NoteOperation

/-- The draws come first, and none of them is a redirect. -/
theorem Crates.FreshTraffic.not_redirected {operation : NoteOperation} {packets before after : List Packet} {next : Packet}
    {url target : Str} {result : Except Error (List Str)} (traffic : C.FreshTraffic config operation packets result)
    (redirected : packets = before ++ ⟨.get url, .redirect target⟩ :: next :: after) : False := by
  obtain ⟨secrets, attempts, _, rfl, ends⟩ := traffic
  have sent : ∃ front, attempts = front ++ ⟨.get url, .redirect target⟩ :: next :: after := by
    rcases List.append_eq_append_iff.mp redirected with ⟨front, _, later⟩ | ⟨inside, drawn, later⟩
    · exact ⟨front, later⟩
    · cases inside with
      | nil => exact ⟨[], later.symm⟩
      | cons first more =>
        obtain ⟨rfl, _⟩ := List.cons.inj later
        have member : (⟨.get url, .redirect target⟩ : Packet) ∈
            secrets.map fun secret => (⟨.freshSecret, secret⟩ : Packet) := drawn ▸ by simp
        obtain ⟨_, _, same⟩ := List.mem_map.mp member
        cases same
  obtain ⟨front, sent⟩ := sent
  rcases ends with ⟨_, _, rfl, _⟩ | ⟨_, _, _, _, mutation, _⟩
  · simp at sent
  · exact mutation.not_redirected sent

/-- Retrying never makes a second, different mutation, as long as nothing the
HTTP client is answered redirects it: exactly then the wire shows one request. -/
theorem Crates.mutations_repeat_iff (C : Crates) (config : ClientConfig) (limit : Nat) (follows : 0 < limit) :
    (∀ request kind trace result, Dialogue.Runs (onWire limit (C.runMutation config request kind)) trace result →
      (C.Traffic config request kind trace result ↔ Unredirected trace)) ∧
    ∀ operation trace result, Dialogue.Runs (onWire limit (NoteOperation.session C config operation)) trace result →
      (C.FreshTraffic config operation trace result ↔ Unredirected trace) := by
  refine ⟨fun request kind trace result run => ?_, fun operation trace result run => ?_⟩
  · obtain ⟨exchanges, handled, mutated⟩ := Dialogue.runs_interpret.mp run
    exact sends_iff_unredirected (fun sent => C.Traffic config request kind sent result) handled follows
      (runMutation_traffic mutated) fun _ _ _ _ _ redirected traffic => traffic.not_redirected redirected
  · obtain ⟨exchanges, handled, ran⟩ := Dialogue.runs_interpret.mp run
    exact sends_iff_unredirected (fun sent => C.FreshTraffic config operation sent result) handled follows
      (NoteOperation.session_traffic ran) fun _ _ _ _ _ redirected traffic => traffic.not_redirected redirected

/-- A rotate whose first answer is lost and whose retry is refused as spent, redirected nowhere. -/
theorem reference.lost_rotation_traffic :
    reference.FreshTraffic {} (.rotate mintCallback spentK1)
      ((⟨.freshSecret, freshSecret⟩ :: lostThenRefused "spent".toList).map Exchange.direct)
      (.error (.noteSpent "spent".toList [freshSecret])) := by
  have sent := reference.runs_lostThenRefused "spent".toList (.noteSpent "spent".toList []) rfl rfl
  have rotates := Crates.rotateNote_runs reference.rotateRequest_rotation sent
  have ran : Dialogue.Runs ((NoteOperation.rotate mintCallback spentK1).session reference {})
      (⟨.freshSecret, freshSecret⟩ :: lostThenRefused "spent".toList) (.error (.noteSpent "spent".toList [freshSecret])) :=
    Dialogue.runs_bind_pure.mpr ⟨_, rotates, rfl⟩
  exact ((Crates.mutations_repeat_iff reference {} 10 (by decide)).2 (.rotate mintCallback spentK1) _ _
    (runs_direct 10 ran)).mpr (unredirected_direct _)

/-! The same rotate, redirected to cleartext at another host. -/

def stolenUrl : Str := "http://evil.example/cb?k1=".toList ++ spentK1

def redirectedAway : List Packet :=
  [⟨.get rotation.url, .redirect stolenUrl⟩, ⟨.get stolenUrl, .reply (refusalOf "spent".toList)⟩]

theorem reference.runs_redirectedAway (kind : MutationKind) :
    Dialogue.Runs (onWire 10 (reference.runMutation {} rotation kind)) redirectedAway
      (.error (.noteSpent "spent".toList [freshSecret])) := by
  have sent : Dialogue.Runs (send 10 (.get rotation.url)) redirectedAway (refusalOf "spent".toList) :=
    runs_send_get.mpr (.redirected .replied)
  exact Dialogue.runs_interpret.mpr ⟨_, .cons sent .nil, Crates.runs_at_once reference.refusal_rotation rfl⟩

/-- A rotate and a melt whose only attempt is redirected: the k1 goes on to a
URL that the client would not have sent it to, and the melt is sent twice. -/
theorem reference.mutations_redirected : reference.isAllowedServiceUrl stolenUrl = false ∧
    ∀ kind ∈ [MutationKind.rotate, .melt], ∃ trace result,
      Dialogue.Runs (onWire 10 (reference.runMutation {} rotation kind)) trace result ∧
        (∃ hop : Hop, ⟨.get stolenUrl, hop⟩ ∈ trace) ∧ trace.countP Packet.isGet = 2 ∧
        ¬reference.Traffic {} rotation kind trace result := by
  refine ⟨by decide +kernel, fun kind _ => ⟨redirectedAway, _, runs_redirectedAway kind, ?_, rfl, ?_⟩⟩
  · exact ⟨_, List.mem_cons_of_mem _ List.mem_cons_self⟩
  · exact fun traffic => traffic.not_redirected (List.nil_append _).symm

end LnurlCash
