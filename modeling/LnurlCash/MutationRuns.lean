import LnurlCash.Client

namespace LnurlCash

open Outcome

/-- An answer that does not say what became of the mutation. -/
def Reply.isLost : Reply → Bool
  | .json body => (classified body matches .ok ()) && decide (asStr body "status".toList ≠ some "OK".toList)
  | _ => true

/-- An explicit refusal read neither as spent nor as unknown: the two kinds
of answer that `withSecrets` attaches nothing to. -/
def Reply.isBareRefusal : Reply → Bool
  | .json body =>
    match classified body with
    | .error .notePending | .error (.serviceRejected _) => true
    | _ => false
  | _ => false

variable {C : Crates} {config : ClientConfig} {kind : MutationKind} {request : Request} {reply : Reply}

theorem classified_cases (body : Value) :
    classified body = .ok () ∨ ∃ reason, classified body = .error (classifyNoteError reason) := by
  unfold classified rejectError
  split
  · exact Or.inr ⟨_, rfl⟩
  · exact Or.inl rfl

theorem Reply.isLost_of_accepted {body : Value} (accepted : classified body = .ok ()) :
    (json body).isLost = decide (asStr body "status".toList ≠ some "OK".toList) := by
  simp only [Reply.isLost, accepted, Bool.true_and]

theorem Reply.isBareRefusal_of_accepted {body : Value} (accepted : classified body = .ok ()) :
    (json body).isBareRefusal = false := by
  simp only [Reply.isBareRefusal, accepted]

theorem Crates.owed_error {outputs : List Str} {policy : Policy} {returned : Option Str} {index : Nat} {what : Str}
    {error : Error} (owed : C.owed outputs policy returned index what = .error error) :
    ∃ message, error = .unverifiable message [] := by
  unfold Crates.owed at owed
  split_ifs at owed
  · exact ⟨_, (Except.error.inj owed).symm⟩
  · exact ⟨_, (Except.error.inj owed).symm⟩

theorem Crates.owes_error {outputs : List Str} {policy : Policy} {signature change : Option Str} {error : Error}
    (owed : C.owes outputs policy signature change kind = .error error) : ∃ message, error = .unverifiable message [] := by
  cases kind with
  | melt => cases owed
  | rotate => exact owed_error owed
  | merge => exact owed_error owed
  | split =>
    rcases bind_eq_error.mp owed with first | ⟨_, _, second⟩
    · exact owed_error first
    · exact owed_error second

theorem Crates.parseMutation_error {body : Value} {outputs : List Str} {policy : Policy} {error : Error}
    (failed : C.parseMutation body kind outputs policy = .error error) :
    classified body = .error error ∨ classified body = .ok () ∧
      (asStr body "status".toList ≠ some "OK".toList ∧ error = unconfirmedMutation ∨
        asStr body "status".toList = some "OK".toList ∧ ∃ message, error = .unverifiable message []) := by
  simp only [Crates.parseMutation, bind_eq_error, refuseIf_eq_error, refuseIf_eq_ok, pure_ne_error, and_false,
    exists_false, or_false, not_not] at failed
  rcases failed with refused | ⟨_, accepted, ⟨status, rfl⟩ | ⟨_, status, owed⟩⟩
  · exact Or.inl refused
  · exact Or.inr ⟨accepted, Or.inl ⟨status, rfl⟩⟩
  · exact Or.inr ⟨accepted, Or.inr ⟨status, owes_error owed⟩⟩

/-- An attempt's failure carries secrets unless it was a bare refusal, and is
ambiguous exactly when its answer was lost. -/
theorem Crates.attemptOutcome_error {error : Error}
    (ended : C.attemptOutcome config kind request reply = .error error) :
    error.carriesSecrets = !reply.isBareRefusal ∧ error.isAmbiguous = reply.isLost := by
  cases reply with
  | json body =>
    have failed : C.parseMutation body kind request.outputs config.policy = .error error := ended
    rcases parseMutation_error failed with refused | ⟨accepted, ⟨status, rfl⟩ | ⟨status, message, rfl⟩⟩
    · rcases classified_cases body with accepted | ⟨reason, classifiedAs⟩
      · rw [accepted] at refused
        cases refused
      · have same : classifyNoteError reason = error := Except.error.inj (classifiedAs.symm.trans refused)
        simp only [Reply.isBareRefusal, Reply.isLost, refused]
        rcases classifyNoteError_cases reason with pending | spent | unknown | rejected
        · rw [← same, pending]; exact ⟨rfl, rfl⟩
        · rw [← same, spent]; exact ⟨rfl, rfl⟩
        · rw [← same, unknown]; exact ⟨rfl, rfl⟩
        · rw [← same, rejected]; exact ⟨rfl, rfl⟩
    · rw [Reply.isBareRefusal_of_accepted accepted, Reply.isLost_of_accepted accepted, decide_eq_true status]
      exact ⟨rfl, rfl⟩
    · rw [Reply.isBareRefusal_of_accepted accepted, Reply.isLost_of_accepted accepted,
        decide_eq_false (not_not.mpr status)]
      exact ⟨rfl, rfl⟩
  | timedOut => cases ended; exact ⟨rfl, rfl⟩
  | unreachable => cases ended; exact ⟨rfl, rfl⟩
  | bodyUnread => cases ended; exact ⟨rfl, rfl⟩
  | garbled => cases ended; exact ⟨rfl, rfl⟩

theorem Crates.attemptOutcome_ok {response : MutationResponse}
    (ended : C.attemptOutcome config kind request reply = .ok response) :
    reply.isBareRefusal = false ∧ reply.isLost = false := by
  obtain ⟨body, read, parsed⟩ := bind_eq_ok.mp ended
  cases reply with
  | json other =>
    cases read
    simp only [Crates.parseMutation, bind_eq_ok, refuseIf_eq_ok, not_not] at parsed
    obtain ⟨_, accepted, _, status, _⟩ := parsed
    exact ⟨Reply.isBareRefusal_of_accepted accepted,
      (Reply.isLost_of_accepted accepted).trans (decide_eq_false (not_not.mpr status))⟩
  | _ => cases read

/-- An attempt is refused with nothing sent, or is one GET and ends as its reply has it. -/
theorem Crates.runs_attempt {trace : List Exchange} {outcome : Except Error MutationResponse} :
    Dialogue.Runs (C.attempt config kind request) trace outcome ↔
      (∃ message, C.refusal config request = some message ∧ trace = [] ∧ outcome = .error (.requestRefused message)) ∨
      C.refusal config request = none ∧ ∃ reply, trace = [⟨.get request.url, reply⟩] ∧
        outcome = C.attemptOutcome config kind request reply := by
  unfold Crates.attempt Crates.run
  cases refused : C.refusal config request with
  | some message => simp [Dialogue.runs_bind, Except.bind]
  | none =>
    simp only [Dialogue.runs_bind_pure, Dialogue.runs_query, reduceCtorEq, false_and, exists_false, true_and, false_or]
    constructor
    · rintro ⟨_, ⟨reply, rfl, rfl⟩, rfl⟩
      exact ⟨reply, rfl, rfl⟩
    · rintro ⟨reply, rfl, rfl⟩
      exact ⟨readReply request reply, ⟨reply, rfl, rfl⟩, rfl⟩

def reported (secrets : List Str) : Except Error MutationResponse → Except Error MutationResponse
  | .ok response => .ok response
  | .error error => .error (error.withSecrets secrets)

/-- One GET of a mutation, answered in a way that leaves its outcome unknown. -/
def Crates.LostAttempt (C : Crates) (config : ClientConfig) (kind : MutationKind) (request : Request)
    (exchange : Exchange) : Prop :=
  ∃ reply error, exchange = ⟨.get request.url, reply⟩ ∧ C.attemptOutcome config kind request reply = .error error ∧
    error.isAmbiguous

theorem mutationVerdict_ok {secrets : List Str} {outcome result : Except Error MutationResponse}
    (decided : mutationVerdict secrets outcome = .ok result) : result = reported secrets outcome := by
  unfold mutationVerdict at decided
  split at decided
  · exact (Except.ok.inj decided).symm
  · split_ifs at decided
    exact (Except.ok.inj decided).symm

theorem mutationVerdict_error {secrets : List Str} {outcome : Except Error MutationResponse} {failure : Error}
    (undecided : mutationVerdict secrets outcome = .error failure) :
    outcome = .error failure ∧ failure.isAmbiguous := by
  unfold mutationVerdict at undecided
  split at undecided
  · cases undecided
  · split_ifs at undecided with ambiguous
    cases undecided
    exact ⟨rfl, ambiguous⟩

/-- Every attempt but the last was lost, and the result is what the last one
ended in. -/
theorem Crates.retried_last {count : Nat} {last : Option Error} {trace : List Exchange}
    {result : Except Error MutationResponse}
    (retried : Dialogue.Retried (C.attempt config kind request) (mutationVerdict request.newSecrets)
      (mutationGiveUp request.newSecrets) count last trace result) :
    trace = [] ∧ (count = 0 ∧ result = mutationGiveUp request.newSecrets last ∨
        ∃ message, C.refusal config request = some message ∧ result = .error (.requestRefused message)) ∨
      ∃ before reply, trace = before ++ [⟨.get request.url, reply⟩] ∧ trace.length ≤ count ∧
        (∀ exchange ∈ before, C.LostAttempt config kind request exchange) ∧
        result = reported request.newSecrets (C.attemptOutcome config kind request reply) := by
  induction retried with
  | exhausted => exact Or.inl ⟨rfl, Or.inl ⟨rfl, rfl⟩⟩
  | settled attempted decided =>
    have result := mutationVerdict_ok decided
    rcases runs_attempt.mp attempted with ⟨message, refused, rfl, rfl⟩ | ⟨_, reply, rfl, rfl⟩
    · exact Or.inl ⟨rfl, Or.inr ⟨message, refused, result⟩⟩
    · exact Or.inr ⟨[], reply, rfl, by simp, by simp, result⟩
  | again attempted undecided _ ih =>
    -- a lost attempt was sent, so what follows it is not refused unsent
    obtain ⟨failed, ambiguous⟩ := mutationVerdict_error undecided
    rcases runs_attempt.mp attempted with ⟨message, _, _, rfl⟩ | ⟨allowed, reply, rfl, rfl⟩
    · cases failed
      cases ambiguous
    · have lost : C.LostAttempt config kind request ⟨.get request.url, reply⟩ := ⟨reply, _, rfl, failed, ambiguous⟩
      refine Or.inr ?_
      rcases ih with ⟨rfl, ⟨_, result⟩ | ⟨message, refused, _⟩⟩ | ⟨before, final, rfl, length, earlier, result⟩
      · exact ⟨[], reply, rfl, by simp, by simp, by rw [result, failed]; rfl⟩
      · rw [allowed] at refused
        cases refused
      · refine ⟨⟨.get request.url, reply⟩ :: before, final, by simp, by simpa using length, ?_, result⟩
        intro exchange member
        rcases List.mem_cons.mp member with rfl | member
        · exact lost
        · exact earlier exchange member

/-- A mutation is refused with nothing sent, or reports its last attempt, the
attempts before it all lost and no more of them than the retries allow. -/
theorem Crates.runMutation_last {trace : List Exchange} {result : Except Error MutationResponse}
    (run : Dialogue.Runs (C.runMutation config request kind) trace result) :
    (trace = [] ∧ ∃ message, C.refusal config request = some message ∧ result = .error (.requestRefused message)) ∨
      ∃ before reply, trace = before ++ [⟨.get request.url, reply⟩] ∧ trace.length ≤ retriesFor config kind + 1 ∧
        (∀ exchange ∈ before, C.LostAttempt config kind request exchange) ∧
        result = reported request.newSecrets (C.attemptOutcome config kind request reply) := by
  rcases retried_last (Dialogue.runs_retry.mp run) with ⟨rfl, ⟨never, _⟩ | refused⟩ | sent
  · cases never
  · exact Or.inl ⟨rfl, refused⟩
  · exact Or.inr sent

/-- Every exchange of a mutation is a GET of its one request. -/
theorem Crates.runMutation_same_request {trace : List Exchange} {result : Except Error MutationResponse}
    (run : Dialogue.Runs (C.runMutation config request kind) trace result) :
    ∀ exchange ∈ trace, ∃ reply : Reply, exchange = ⟨.get request.url, reply⟩ := by
  intro exchange member
  rcases runMutation_last run with ⟨rfl, _⟩ | ⟨before, reply, rfl, _, earlier, _⟩
  · cases member
  · rcases List.mem_append.mp member with early | late
    · obtain ⟨answer, _, same, _⟩ := earlier exchange early
      exact ⟨answer, same⟩
    · exact ⟨reply, List.mem_singleton.mp late⟩

theorem Crates.runMutation_length_le {trace : List Exchange} {result : Except Error MutationResponse}
    (run : Dialogue.Runs (C.runMutation config request kind) trace result) : trace.length ≤ retriesFor config kind + 1 := by
  rcases runMutation_last run with ⟨rfl, _⟩ | ⟨_, _, _, length, _⟩
  · exact Nat.zero_le _
  · exact length

theorem retriesFor_le (config : ClientConfig) (kind : MutationKind) :
    retriesFor config kind ≤ config.mutationRetries.toNat := by
  unfold retriesFor
  split <;> omega

theorem retriesFor_melt (config : ClientConfig) : retriesFor config .melt = 0 := rfl

/-- A request the client refuses is never sent, and the refusal is the result. -/
theorem Crates.runMutation_refused {message : Str} {trace : List Exchange} {result : Except Error MutationResponse}
    (refused : C.refusal config request = some message)
    (run : Dialogue.Runs (C.runMutation config request kind) trace result) :
    trace = [] ∧ result = .error (.requestRefused message) := by
  have unsent : ∀ {sent outcome}, Dialogue.Runs (C.attempt config kind request) sent outcome →
      sent = [] ∧ outcome = .error (.requestRefused message) := by
    intro sent outcome attempted
    rcases runs_attempt.mp attempted with ⟨other, same, rfl, rfl⟩ | ⟨allowed, _⟩
    · cases same.symm.trans refused
      exact ⟨rfl, rfl⟩
    · cases allowed.symm.trans refused
  cases Dialogue.runs_retry.mp run with
  | settled attempted decided =>
    obtain ⟨rfl, rfl⟩ := unsent attempted
    exact ⟨rfl, mutationVerdict_ok decided⟩
  | again attempted undecided _ =>
    obtain ⟨_, rfl⟩ := unsent attempted
    obtain ⟨same, ambiguous⟩ := mutationVerdict_error undecided
    cases same
    cases ambiguous

theorem Crates.refusal_of_sent {trace : List Exchange} {result : Except Error MutationResponse}
    (run : Dialogue.Runs (C.runMutation config request kind) trace result) (sent : trace ≠ []) :
    C.refusal config request = none := by
  by_contra refused
  obtain ⟨message, same⟩ := Option.ne_none_iff_exists'.mp refused
  exact sent (runMutation_refused same run).1

/-- What a builder refused is not sent; what it built is sent as one mutation. -/
theorem Crates.runs_mutate {α : Type} {built : Except Error Request} {outcome : MutationResponse → α}
    {trace : List Exchange} {result : Except Error α}
    (run : Dialogue.Runs (C.mutate config built kind outcome) trace result) :
    (∃ error, built = .error error ∧ trace = [] ∧ result = .error error) ∨
      ∃ request reached, built = .ok request ∧ Dialogue.Runs (C.runMutation config request kind) trace reached ∧
        result = reached.map outcome := by
  unfold Crates.mutate at run
  split at run
  · rename_i error
    obtain ⟨rfl, rfl⟩ := Dialogue.runs_pure.mp run
    exact Or.inl ⟨error, rfl, rfl, rfl⟩
  · rename_i request
    obtain ⟨reached, mutated, rfl⟩ := Dialogue.runs_bind_pure.mp run
    exact Or.inr ⟨request, reached, rfl, mutated, rfl⟩

theorem Crates.rotateNote_runs {callback k1 fresh : Str} {attempts : List Exchange}
    {outcome : Except Error MutationResponse} (built : C.rotateRequest callback k1 fresh = .ok request)
    (mutated : Dialogue.Runs (C.runMutation config request .rotate) attempts outcome) :
    Dialogue.Runs (C.rotateNote config callback k1) (⟨.freshSecret, fresh⟩ :: attempts)
      (outcome.map fun response => { k1 := fresh, signature := response.signature }) := by
  refine Dialogue.runs_query_bind.mpr ⟨fresh, attempts, rfl, ?_⟩
  simp only [built]
  exact Dialogue.runs_bind_pure.mpr ⟨outcome, mutated, rfl⟩

theorem Crates.LostAttempt.not_bare {exchange : Exchange} (lost : C.LostAttempt config kind request exchange) :
    ∀ reply : Reply, exchange = ⟨.get request.url, reply⟩ → reply.isBareRefusal = false := by
  rintro reply rfl
  obtain ⟨_, error, same, ended, ambiguous⟩ := lost
  cases same
  have carries := (attemptOutcome_error ended).1
  rw [error.carriesSecrets_of_isAmbiguous ambiguous] at carries
  simpa using carries.symm

theorem Crates.attempt_runs (kind : MutationKind) (reply : Reply) (allowed : C.refusal config request = none) :
    Dialogue.Runs (C.attempt config kind request) [⟨.get request.url, reply⟩]
      (C.attemptOutcome config kind request reply) := runs_attempt.mpr (Or.inr ⟨allowed, reply, rfl, rfl⟩)

theorem Crates.runs_at_once {result : Except Error MutationResponse} (allowed : C.refusal config request = none)
    (decided : mutationVerdict request.newSecrets (C.attemptOutcome config kind request reply) = .ok result) :
    Dialogue.Runs (C.runMutation config request kind) [⟨.get request.url, reply⟩] result :=
  Dialogue.runs_retry.mpr (.settled (attempt_runs kind reply allowed) decided)

theorem Crates.runs_lost_then {first second : Reply} {failure : Error} {result : Except Error MutationResponse}
    (allowed : C.refusal config request = none) (retries : 0 < retriesFor config kind)
    (lost : mutationVerdict request.newSecrets (C.attemptOutcome config kind request first) = .error failure)
    (decided : mutationVerdict request.newSecrets (C.attemptOutcome config kind request second) = .ok result) :
    Dialogue.Runs (C.runMutation config request kind) [⟨.get request.url, first⟩, ⟨.get request.url, second⟩] result := by
  obtain ⟨count, more⟩ := Nat.exists_eq_add_one_of_ne_zero retries.ne'
  unfold Crates.runMutation
  rw [more]
  exact Dialogue.runs_retry.mpr (.again (attempt_runs kind first allowed) lost
    (.settled (attempt_runs kind second allowed) decided))

end LnurlCash
