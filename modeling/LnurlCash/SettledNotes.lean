import LnurlCash.MutationSecrets

namespace LnurlCash

open Outcome

variable {C : Crates} {config : ClientConfig} {baseUrl callback k1 : Str} {amountMsat : UInt64}
  {signature : Option Str} {trace : List Exchange}

/-- The rotate that settling sends was confirmed and the note carries its fresh
secret, or the note carries the given k1 and every attempt that was sent drew
an explicit refusal. -/
def Crates.SettledSafely (C : Crates) (config : ClientConfig) (k1 fresh : Str) (attempts : List Exchange)
    (note : SettledNote) : Prop :=
  note.k1 = fresh ∧ (∃ request before reply response, C.rotateRequest note.callback k1 fresh = .ok request ∧
      attempts = before ++ [⟨.get request.url, reply⟩] ∧
      C.attemptOutcome config .rotate request reply = .ok response) ∨
    note.k1 = k1 ∧ ∀ exchange ∈ attempts, ∃ request reply error, C.rotateRequest note.callback k1 fresh = .ok request ∧
      exchange = ⟨.get request.url, reply⟩ ∧ C.attemptOutcome config .rotate request reply = .error error ∧
      error.burnsNothing

/-- An attempt was lost, and a later one drew a refusal that `settleNote`
takes to have burned nothing. -/
def Crates.LostThenRefused (C : Crates) (k1 fresh : Str) (attempts : List Exchange) (note : SettledNote) : Prop :=
  ∃ request, C.rotateRequest note.callback k1 fresh = .ok request ∧
    (∃ reply : Reply, ⟨.get request.url, reply⟩ ∈ attempts ∧ reply.isLost) ∧
    ∃ reply : Reply, ⟨.get request.url, reply⟩ ∈ attempts ∧ reply.isBareRefusal

theorem Error.burnsNothing_withSecrets (error : Error) (secrets : List Str) :
    (error.withSecrets secrets).burnsNothing = error.burnsNothing := by
  cases error <;> rfl

theorem Error.carriesSecrets_of_burnsNothing {error : Error} (kept : error.burnsNothing) :
    error.carriesSecrets = false := by
  cases error <;> simp_all [burnsNothing, carriesSecrets]

/-- A rotate asks for a fresh secret first; what is sent after is one mutation. -/
theorem Crates.runs_rotateNote {result : Except Error RotateOutcome}
    (run : Dialogue.Runs (C.rotateNote config callback k1) trace result) :
    ∃ fresh attempts, trace = ⟨.freshSecret, fresh⟩ :: attempts ∧
      ((∃ error, C.rotateRequest callback k1 fresh = .error error ∧ attempts = [] ∧ result = .error error) ∨
        ∃ request outcome, C.rotateRequest callback k1 fresh = .ok request ∧
          Dialogue.Runs (C.runMutation config request .rotate) attempts outcome ∧
          result = outcome.map fun response => { k1 := fresh, signature := response.signature }) := by
  obtain ⟨fresh, attempts, rfl, rest⟩ := Dialogue.runs_query_bind.mp run
  exact ⟨fresh, attempts, rfl, runs_mutate rest⟩

/-- Note info comes from one GET, answered with a body that parses. -/
theorem Crates.runs_fetchNoteInfo {url : Str} {info : WithdrawRequestInfo}
    (run : Dialogue.Runs (C.fetchNoteInfo config url) trace (.ok info)) :
    ∃ request body, C.noteInfoRequest url = .ok request ∧ trace = [⟨.get request.url, .json body⟩] ∧
      C.parseNoteInfo body url config.policy = .ok info := by
  unfold Crates.fetchNoteInfo at run
  split at run
  · cases (Dialogue.runs_pure.mp run).2
  · rename_i request asked
    obtain ⟨body, sent, ended⟩ := Dialogue.runs_bind_pure.mp run
    obtain ⟨json, rfl, parsed⟩ := bind_eq_ok.mp ended.symm
    unfold Crates.run at sent
    split at sent
    · cases (Dialogue.runs_pure.mp sent).2
    · obtain ⟨reply, rest, rfl, read⟩ := Dialogue.runs_query_bind.mp sent
      obtain ⟨rfl, same⟩ := Dialogue.runs_pure.mp read
      cases reply with
      | json other =>
        cases same
        exact ⟨request, _, asked, rfl, parsed⟩
      | _ => cases same

theorem settled_eq_ok {info : WithdrawRequestInfo} {outcome : Except Error RotateOutcome} {note : SettledNote}
    (settles : settled info k1 signature outcome = .ok note) :
    note.callback = info.callback ∧
      ((∃ rotated, outcome = .ok rotated ∧ note.k1 = rotated.k1) ∨
        ∃ error, outcome = .error error ∧ error.burnsNothing ∧ note.k1 = k1) := by
  unfold settled at settles
  split at settles
  · rename_i rotated
    cases settles
    exact ⟨rfl, Or.inl ⟨rotated, rfl, rfl⟩⟩
  · rename_i error
    split_ifs at settles with burnsNothing
    cases settles
    exact ⟨rfl, Or.inr ⟨error, rfl, burnsNothing, rfl⟩⟩

theorem Crates.runs_settleNote {note : SettledNote}
    (run : Dialogue.Runs (C.settleNote config baseUrl k1 amountMsat signature) trace (.ok note)) :
    ∃ asked info rotating rotated, trace = asked :: rotating ∧ note.callback = info.callback ∧
      Dialogue.Runs (C.rotateNote config info.callback k1) rotating rotated ∧
      settled info k1 signature rotated = .ok note := by
  unfold Crates.settleNote at run
  split at run
  · cases (Dialogue.runs_pure.mp run).2
  · obtain ⟨before, rest, fetched, rfl, asking, continued⟩ := Dialogue.runs_bind.mp run
    split at continued
    · cases (Dialogue.runs_pure.mp continued).2
    · rename_i info
      obtain ⟨request, body, _, rfl, _⟩ := runs_fetchNoteInfo asking
      obtain ⟨rotated, rotates, settles⟩ := Dialogue.runs_bind_pure.mp continued
      exact ⟨⟨.get request.url, .json body⟩, info, rest, rotated, rfl, (settled_eq_ok settles.symm).1, rotates, settles.symm⟩

theorem Crates.LostAttempt.isLost {kind : MutationKind} {request : Request} {exchange : Exchange}
    (lost : C.LostAttempt config kind request exchange) :
    ∃ reply : Reply, exchange = ⟨.get request.url, reply⟩ ∧ reply.isLost := by
  obtain ⟨reply, error, rfl, ended, ambiguous⟩ := lost
  exact ⟨reply, rfl, (attemptOutcome_error ended).2.symm.trans ambiguous⟩

theorem Reply.isBareRefusal_of_isLost {reply : Reply} (lost : reply.isLost) : reply.isBareRefusal = false := by
  cases reply with
  | json body =>
    rcases classified_cases body with accepted | ⟨reason, refused⟩
    · exact isBareRefusal_of_accepted accepted
    · simp only [isLost, refused, Bool.false_and, Bool.false_eq_true] at lost
  | _ => rfl

theorem Crates.LostThenRefused.of_built {request : Request} {note : SettledNote} {fresh : Str}
    {attempts : List Exchange} (built : C.rotateRequest note.callback k1 fresh = .ok request) :
    C.LostThenRefused k1 fresh attempts note ↔
      (∃ reply : Reply, ⟨.get request.url, reply⟩ ∈ attempts ∧ reply.isLost) ∧
        ∃ reply : Reply, ⟨.get request.url, reply⟩ ∈ attempts ∧ reply.isBareRefusal := by
  constructor
  · rintro ⟨other, same, drawn⟩
    cases Except.ok.inj (built.symm.trans same)
    exact drawn
  · exact fun drawn => ⟨request, built, drawn⟩

section Attempts

variable {request : Request} {note : SettledNote} {fresh : Str} {before : List Exchange} {final : Reply}

theorem Crates.settled_unsent (kept : note.k1 = k1) :
    C.SettledSafely config k1 fresh [] note ↔ ¬C.LostThenRefused k1 fresh [] note := by
  refine iff_of_true (Or.inr ⟨kept, by simp⟩) ?_
  rintro ⟨_, _, ⟨_, member, _⟩, _⟩
  cases member

/-- A rotate that was confirmed at last drew no bare refusal before. -/
theorem Crates.settled_confirmed {response : MutationResponse} (carried : note.k1 = fresh)
    (built : C.rotateRequest note.callback k1 fresh = .ok request)
    (earlier : ∀ exchange ∈ before, C.LostAttempt config .rotate request exchange)
    (ended : C.attemptOutcome config .rotate request final = .ok response) :
    C.SettledSafely config k1 fresh (before ++ [⟨.get request.url, final⟩]) note ↔
      ¬C.LostThenRefused k1 fresh (before ++ [⟨.get request.url, final⟩]) note := by
  refine iff_of_true (Or.inl ⟨carried, request, before, final, response, built, rfl, ended⟩) ?_
  rw [LostThenRefused.of_built built]
  rintro ⟨_, reply, member, bare⟩
  rcases List.mem_append.mp member with early | late
  · rw [(earlier _ early).not_bare reply rfl] at bare
    cases bare
  · cases List.mem_singleton.mp late
    rw [(attemptOutcome_ok ended).1] at bare
    cases bare

theorem Crates.isBareRefusal_of_burnsNothing {failure : Error} (burnsNothing : failure.burnsNothing)
    (ended : C.attemptOutcome config .rotate request final = .error failure) : final.isBareRefusal := by
  have carries := (attemptOutcome_error ended).1
  rw [Error.carriesSecrets_of_burnsNothing burnsNothing] at carries
  simpa using carries.symm

/-- A safe report after a refusal means that nothing was lost before it. -/
theorem Crates.SettledSafely.nothing_lost {failure : Error}
    (safe : C.SettledSafely config k1 fresh (before ++ [⟨.get request.url, final⟩]) note)
    (built : C.rotateRequest note.callback k1 fresh = .ok request)
    (ended : C.attemptOutcome config .rotate request final = .error failure) (reply : Reply)
    (member : (⟨.get request.url, reply⟩ : Exchange) ∈ before ++ [⟨.get request.url, final⟩]) :
    reply.isLost = false := by
  rcases safe with ⟨_, other, _, answer, response, same, split, confirmed⟩ | ⟨_, refused⟩
  · cases Except.ok.inj (built.symm.trans same)
    obtain ⟨_, last⟩ := List.append_inj' split rfl
    cases List.singleton_inj.mp last
    rw [ended] at confirmed
    cases confirmed
  · obtain ⟨other, answer, error, same, equal, drew, kept⟩ := refused _ member
    cases Except.ok.inj (built.symm.trans same)
    cases equal
    have bare := isBareRefusal_of_burnsNothing kept drew
    by_contra lost
    rw [Reply.isBareRefusal_of_isLost (by simpa using lost)] at bare
    cases bare

theorem Crates.settled_refused {failure : Error} (kept : note.k1 = k1) (burnsNothing : failure.burnsNothing)
    (built : C.rotateRequest note.callback k1 fresh = .ok request)
    (earlier : ∀ exchange ∈ before, C.LostAttempt config .rotate request exchange)
    (ended : C.attemptOutcome config .rotate request final = .error failure) :
    C.SettledSafely config k1 fresh (before ++ [⟨.get request.url, final⟩]) note ↔
      ¬C.LostThenRefused k1 fresh (before ++ [⟨.get request.url, final⟩]) note := by
  rw [LostThenRefused.of_built built]
  constructor
  · rintro safe ⟨⟨reply, member, lost⟩, _⟩
    rw [safe.nothing_lost built ended reply member] at lost
    cases lost
  · intro never
    have bare := isBareRefusal_of_burnsNothing burnsNothing ended
    have first : before = [] := by
      cases before with
      | nil => rfl
      | cons exchange rest =>
        obtain ⟨reply, rfl, lost⟩ := (earlier exchange List.mem_cons_self).isLost
        exact absurd ⟨⟨reply, by simp, lost⟩, final, by simp, bare⟩ never
    subst first
    refine Or.inr ⟨kept, fun exchange member => ?_⟩
    cases List.mem_singleton.mp member
    exact ⟨request, final, failure, built, rfl, ended, burnsNothing⟩

end Attempts

/-- `settleNote` reports a note safely unless an attempt was lost and a later
one drew a refusal it takes to have burned nothing. -/
theorem Crates.settleNote_safe_iff {note : SettledNote}
    (run : Dialogue.Runs (C.settleNote config baseUrl k1 amountMsat signature) trace (.ok note)) :
    ∃ asked fresh attempts, trace = asked :: ⟨.freshSecret, fresh⟩ :: attempts ∧
      (C.SettledSafely config k1 fresh attempts note ↔ ¬C.LostThenRefused k1 fresh attempts note) := by
  obtain ⟨asked, info, _, rotated, rfl, callback, rotates, settles⟩ := runs_settleNote run
  obtain ⟨fresh, attempts, rfl, outcome⟩ := runs_rotateNote rotates
  refine ⟨asked, fresh, attempts, rfl, ?_⟩
  rw [← callback] at outcome
  have reports := (settled_eq_ok settles).2
  -- the rotate was never built, never sent, or ended in its last attempt's outcome
  rcases outcome with ⟨error, built, rfl, rfl⟩ | ⟨request, outcome, built, mutated, rfl⟩
  · obtain ⟨_, same, _⟩ | ⟨_, _, _, kept⟩ := reports
    · cases same
    · exact settled_unsent kept
  · rcases runMutation_last mutated with ⟨rfl, message, _, rfl⟩ | ⟨before, final, rfl, _, earlier, rfl⟩
    · obtain ⟨_, same, _⟩ | ⟨_, _, _, kept⟩ := reports
      · cases same
      · exact settled_unsent kept
    · cases ended : C.attemptOutcome config .rotate request final with
      | ok response =>
        rw [ended] at reports
        obtain ⟨_, same, carried⟩ | ⟨_, same, _⟩ := reports
        · cases same
          exact settled_confirmed carried built earlier ended
        · cases same
      | error failure =>
        rw [ended] at reports
        obtain ⟨_, same, _⟩ | ⟨_, same, burnsNothing, kept⟩ := reports
        · cases same
        · cases same
          rw [Error.burnsNothing_withSecrets] at burnsNothing
          exact settled_refused kept burnsNothing built earlier ended

theorem Crates.fetchNoteInfo_runs {url : Str} {asking : Request} {reply : Reply} {body : Value}
    {info : WithdrawRequestInfo} (asks : C.noteInfoRequest url = .ok asking) (allowed : C.refusal config asking = none)
    (answered : readReply asking reply = .ok body) (parsed : C.parseNoteInfo body url config.policy = .ok info) :
    Dialogue.Runs (C.fetchNoteInfo config url) [⟨.get asking.url, reply⟩] (.ok info) := by
  simp only [Crates.fetchNoteInfo, asks, Crates.run, allowed]
  refine Dialogue.runs_bind_pure.mpr ⟨.ok body, ?_, parsed.symm⟩
  exact Dialogue.runs_query_bind.mpr ⟨reply, [], rfl, Dialogue.runs_pure.mpr ⟨rfl, answered.symm⟩⟩

theorem Crates.settleNote_runs {url fresh : Str} {asking request : Request} {reply : Reply} {body : Value}
    {info : WithdrawRequestInfo} {attempts : List Exchange} {outcome : Except Error MutationResponse}
    {note : SettledNote} (named : C.withNewK1 baseUrl k1 amountMsat signature = some url)
    (asks : C.noteInfoRequest url = .ok asking) (allowed : C.refusal config asking = none)
    (answered : readReply asking reply = .ok body) (parsed : C.parseNoteInfo body url config.policy = .ok info)
    (built : C.rotateRequest info.callback k1 fresh = .ok request)
    (mutated : Dialogue.Runs (C.runMutation config request .rotate) attempts outcome)
    (settles : settled info k1 signature
      (outcome.map fun response => { k1 := fresh, signature := response.signature }) = .ok note) :
    Dialogue.Runs (C.settleNote config baseUrl k1 amountMsat signature)
      (⟨.get asking.url, reply⟩ :: ⟨.freshSecret, fresh⟩ :: attempts) (.ok note) := by
  simp only [Crates.settleNote, named]
  refine Dialogue.runs_bind.mpr ⟨[⟨.get asking.url, reply⟩], _, .ok info, rfl,
    fetchNoteInfo_runs asks allowed answered parsed, ?_⟩
  exact Dialogue.runs_bind_pure.mpr ⟨_, rotateNote_runs built mutated, settles.symm⟩

/-! Settling a note at `mint.example`. -/

def noteBase : Str := "https://mint.example/w".toList

def noteInfoBody : Value := .object [
  ("tag".toList, .string "withdrawRequest".toList), ("callback".toList, .string mintCallback),
  ("k1".toList, .string spentK1), ("maxWithdrawable".toList, .number (.posInt 1000)),
  ("mintPubkey".toList, .string ("02".toList ++ List.replicate 64 '7'))]

def noteInfo : WithdrawRequestInfo where
  callback := mintCallback
  k1 := spentK1
  maxWithdrawable := 1000
  minWithdrawable := 0
  defaultDescription := none
  mintPubkey := some ("02".toList ++ List.replicate 64 '7')
  signature := none

def notePage : Str := noteBase ++ "?k1=".toList ++ spentK1 ++ "&amount=1000".toList

set_option maxRecDepth 100000 in
theorem reference.runs_settleNote_noteBase {attempts : List Exchange} {outcome : Except Error MutationResponse}
    {note : SettledNote} (mutated : Dialogue.Runs (reference.runMutation {} rotation .rotate) attempts outcome)
    (settles : settled noteInfo spentK1 none
      (outcome.map fun response => { k1 := freshSecret, signature := response.signature }) = .ok note) :
    Dialogue.Runs (reference.settleNote {} noteBase spentK1 1000 none)
      (⟨.get notePage, .json noteInfoBody⟩ :: ⟨.freshSecret, freshSecret⟩ :: attempts) (.ok note) := by
  have named : reference.withNewK1 noteBase spentK1 1000 none = some notePage := by decide +kernel
  have asks : reference.noteInfoRequest notePage = .ok (Request.plain notePage) := by decide +kernel
  have allowed : reference.refusal {} (Request.plain notePage) = none := by decide +kernel
  have parsed : reference.parseNoteInfo noteInfoBody notePage {} = .ok noteInfo := by decide +kernel
  exact Crates.settleNote_runs named asks allowed rfl parsed reference.rotateRequest_rotation mutated settles

def confirmation : List Exchange :=
  [⟨.get rotation.url, .json (.object [("status".toList, .string "OK".toList)])⟩]

set_option maxRecDepth 100000 in
theorem reference.runs_confirmation :
    Dialogue.Runs (reference.runMutation {} rotation .rotate) confirmation (.ok {
      signature := none, changeSignature := none, pr := none, verify := none }) :=
  Crates.runs_at_once reference.refusal_rotation rfl

theorem reference.confirmed_settles_safely :
    reference.SettledSafely {} spentK1 freshSecret confirmation
      { k1 := freshSecret, amountMsat := 1000, signature := none, callback := mintCallback } := by
  obtain ⟨_, _, _, same, safe⟩ := Crates.settleNote_safe_iff
    (reference.runs_settleNote_noteBase reference.runs_confirmation rfl)
  obtain ⟨_, rest⟩ := List.cons_eq_cons.mp same
  obtain ⟨drawn, rfl⟩ := List.cons_eq_cons.mp rest
  obtain rfl := Exchange.freshSecret_inj drawn
  refine safe.mpr ?_
  rintro ⟨request, _, ⟨reply, member, lost⟩, _⟩
  obtain ⟨_, rfl⟩ := Exchange.get_inj (List.mem_singleton.mp member)
  cases lost

/-- The rotate's answer is lost and its retry refused as pending: the settle
reports the k1 it may have burned. -/
theorem reference.pending_settles_burned_k1 :
    Dialogue.Runs (reference.settleNote {} noteBase spentK1 1000 none)
      (⟨.get notePage, .json noteInfoBody⟩ :: ⟨.freshSecret, freshSecret⟩ :: lostThenRefused "pending".toList)
      (.ok { k1 := spentK1, amountMsat := 1000, signature := none, callback := mintCallback }) ∧
    (∃ exchange ∈ lostThenRefused "pending".toList, reference.LostAttempt {} .rotate rotation exchange) ∧
    ¬reference.SettledSafely {} spentK1 freshSecret (lostThenRefused "pending".toList)
      { k1 := spentK1, amountMsat := 1000, signature := none, callback := mintCallback } := by
  refine ⟨reference.runs_settleNote_noteBase
    (reference.runs_lostThenRefused "pending".toList .notePending rfl rfl) rfl,
    ⟨_, List.mem_cons_self, reference.rotation_timedOut⟩, ?_⟩
  rintro (⟨same, _⟩ | ⟨_, refused⟩)
  · exact absurd same (by decide)
  · obtain ⟨request, reply, error, _, equal, drew, kept⟩ := refused _ List.mem_cons_self
    obtain ⟨_, rfl⟩ := Exchange.get_inj equal
    cases drew
    cases kept

end LnurlCash
