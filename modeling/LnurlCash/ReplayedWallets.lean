import LnurlCash.ClientCalls

namespace LnurlCash

open Outcome

/-- A mutation the mint confirmed, with or without the certificates it owed.
Only an error that hands secrets back says that the mutation landed. -/
def Confirmed (result : Except Error (List Str)) (secrets : List Str) : Prop :=
  result = .ok secrets ∨ secrets ≠ [] ∧ ∃ message, result = .error (.unverifiable message secrets)

theorem Confirmed.handedBack_eq {result : Except Error (List Str)} {secrets : List Str}
    (confirmed : Confirmed result secrets) : handedBack result = secrets := by
  rcases confirmed with rfl | ⟨_, _, rfl⟩ <;> rfl

/-- An error without secrets confirms nothing. -/
theorem not_confirmed_error {error : Error} {secrets : List Str} (none : error.newSecrets = []) :
    ¬Confirmed (.error error) secrets := by
  rintro (ok | ⟨some, _, same⟩)
  · cases ok
  · cases same
    exact some none

/-- What a call reports as confirmed, the mint has on its books. A melt is left
out: LUD-25 has no replay for it, and the mint may confirm one it never applied. -/
def ClientCall.Booked (C : Crates) (ledger : Ledger) : (call : ClientCall) → call.Answer → Prop
  | rotateNote callback k1, answer => ∀ secrets,
    Confirmed (answer.map fun outcome => [outcome.k1]) secrets → C.Landed (.rotate callback k1) secrets ledger
  | splitNote callback k1s amountMsat, answer => ∀ secrets,
    Confirmed (answer.map fun outcome => [outcome.k1, outcome.change]) secrets →
      C.Landed (.split callback k1s amountMsat) secrets ledger
  | mergeNotes callback k1s, answer => ∀ secrets,
    Confirmed (answer.map fun outcome => [outcome.k1]) secrets → C.Landed (.merge callback k1s) secrets ledger
  | settleNote _ k1 _ _, answer => ∀ secrets,
    Confirmed (answer.map fun note => [note.k1]) secrets →
      (∃ note, answer = .ok note ∧ secrets = [k1]) ∨ ∃ callback, C.Landed (.rotate callback k1) secrets ledger
  | _, _ => True

variable {C : Crates} {config : ClientConfig} {others : Str → Prop} {read : Str → Option (List (List Value))}
  {trace part : List Exchange} {log : MintLog}

/-- Every confirmation heard of a request that mints is in the mint's log. -/
def Crates.Logged (C : Crates) (log : MintLog) (trace : List Exchange) : Prop :=
  ∀ url body, (⟨.get url, .json body⟩ : Exchange) ∈ trace → (∃ note, C.Mints url note) → StatusIs body "OK".toList →
    url ∈ log.messages

theorem Crates.logged_of_reaches {α : Type} {start world : Network.World Query Query.Answer MintLog α}
    (reach : Network.Reaches (C.replayNetwork others) start trace world) : C.Logged world.server trace := by
  intro url body heard mints status
  have logged : (url, body) ∈ world.server.answered ∨ ∃ state, C.mintRules.declines state url body :=
    Replay.heard_logged reach heard rfl rfl
  rcases logged with answered | ⟨_, declined⟩
  · exact Replay.Log.mem_messages answered
  · exact absurd status (declined mints)

section Reported

variable {kind : MutationKind} {request : Request} {reply : Reply} {secrets : List Str}

/-- Without a confirmation a mutation ends in an error, and never in one that says it landed. -/
theorem Crates.reported_unconfirmed (unconfirmed : ∀ body, reply = .json body → ¬StatusIs body "OK".toList) :
    ∃ error, reported request.newSecrets (C.attemptOutcome config kind request reply) = .error error ∧
      ∀ message secrets, error ≠ .unverifiable message secrets := by
  cases reply with
  | json body =>
    by_cases refused : StatusIs body "ERROR".toList
    · obtain ⟨error, same, definitive⟩ := reported_of_error refused
      refine ⟨error, same, ?_⟩
      rintro message secrets rfl
      cases definitive
    · obtain ⟨message, same⟩ := reported_of_neither refused (unconfirmed body rfl)
      exact ⟨_, same, nofun⟩
  | _ => exact ⟨_, rfl, nofun⟩

theorem Crates.confirmed_of_reported
    (confirmed : Confirmed ((reported request.newSecrets (C.attemptOutcome config kind request reply)).map
      fun _ => request.newSecrets) secrets) :
    secrets = request.newSecrets ∧ ∃ body, reply = .json body ∧ StatusIs body "OK".toList := by
  by_cases status : ∃ body, reply = .json body ∧ StatusIs body "OK".toList
  · refine ⟨?_, status⟩
    obtain ⟨body, rfl, accepted⟩ := status
    have back := confirmed.handedBack_eq
    rcases reported_of_ok accepted with ⟨response, same⟩ | ⟨message, same⟩
    · rw [same] at back
      exact back.symm
    · rw [same] at back
      exact back.symm
  · exfalso
    obtain ⟨error, same, landed⟩ := reported_unconfirmed fun body is accepted => status ⟨body, is, accepted⟩
    rw [same] at confirmed
    rcases confirmed with ok | ⟨_, message, unverifiable⟩
    · cases ok
    · exact landed message secrets (Except.error.inj unverifiable)

end Reported

/-- An operation reported as confirmed has landed at a mint that has every confirmation on record. -/
theorem NoteOperation.session_booked (keeps : C.url.KeepsPairs) (origin : C.url.KeepsOrigin)
    {operation : NoteOperation} {result : Except Error (List Str)} {secrets : List Str}
    (run : Dialogue.Runs (operation.session C config) part result) (backed : C.Backed log) (logged : C.Logged log part)
    (confirmed : Confirmed result secrets) : C.Landed operation secrets log.state := by
  obtain ⟨drawn, attempts, count, rfl, ends⟩ := session_runs run
  rcases ends with ⟨error, failed, _, rfl⟩ | ⟨request, reached, built, mutated, rfl⟩
  · exact absurd confirmed (not_confirmed_error (Error.newSecrets_eq_nil (request_error failed)))
  · obtain ⟨hashes, _, _, hashed, carried, recorded, _⟩ := request_ok built
    rcases Crates.runMutation_last mutated with ⟨_, _, _, rfl⟩ | ⟨front, reply, rfl, _, _, rfl⟩
    · exact absurd confirmed (not_confirmed_error rfl)
    · rw [← carried] at confirmed
      obtain ⟨rfl, body, rfl, status⟩ := Crates.confirmed_of_reported confirmed
      have output : request.outputs ≠ [] := outputs_ne_nil built count
      obtain ⟨named, member⟩ := List.exists_mem_of_ne_nil _ output
      obtain ⟨note, _, mints⟩ := Crates.mints_of_request keeps origin built member
      have applied := logged request.url body (by simp) ⟨note, mints⟩ status
      rw [carried]
      exact Crates.landed_of_backed keeps origin built backed applied

section Settled

variable {callback k1 : Str} {secrets : List Str}

theorem Crates.rotateNote_booked (keeps : C.url.KeepsPairs) (origin : C.url.KeepsOrigin)
    {result : Except Error RotateOutcome} (run : Dialogue.Runs (C.rotateNote config callback k1) part result)
    (backed : C.Backed log) (logged : C.Logged log part)
    (confirmed : Confirmed (result.map fun outcome => [outcome.k1]) secrets) :
    C.Landed (.rotate callback k1) secrets log.state :=
  NoteOperation.session_booked keeps origin (NoteOperation.session_of_rotateNote run) backed logged confirmed

/-- What settling confirms, its rotate has confirmed, or it kept the k1 it was given. -/
theorem confirmed_of_settled {info : WithdrawRequestInfo} {signature : Option Str}
    {rotated : Except Error RotateOutcome}
    (confirmed : Confirmed ((settled info k1 signature rotated).map fun note => [note.k1]) secrets) :
    (∃ note, settled info k1 signature rotated = .ok note ∧ secrets = [k1]) ∨
      Confirmed (rotated.map fun outcome => [outcome.k1]) secrets := by
  cases rotated with
  | ok outcome => exact Or.inr confirmed
  | error error =>
    by_cases burnsNothing : error.burnsNothing
    · rw [settled, if_pos burnsNothing] at confirmed ⊢
      exact Or.inl ⟨_, rfl, confirmed.handedBack_eq.symm⟩
    · rw [settled, if_neg burnsNothing] at confirmed
      exact Or.inr confirmed

theorem Crates.settleNote_booked (keeps : C.url.KeepsPairs) (origin : C.url.KeepsOrigin) {baseUrl : Str}
    {amountMsat : UInt64} {signature : Option Str} {answer : Except Error SettledNote}
    (run : Dialogue.Runs (C.settleNote config baseUrl k1 amountMsat signature) part answer)
    (backed : C.Backed log) (logged : C.Logged log part)
    (confirmed : Confirmed (answer.map fun note => [note.k1]) secrets) :
    (∃ note, answer = .ok note ∧ secrets = [k1]) ∨ ∃ callback, C.Landed (.rotate callback k1) secrets log.state := by
  rcases settleNote_cases run with ⟨error, rfl, unasked⟩ | ⟨_, info, _, rotating, rotated, rfl, _, rotates, rfl⟩
  · rcases unasked with ⟨_, none⟩ | ⟨url, asked⟩
    · exact absurd confirmed (not_confirmed_error none)
    · exact absurd confirmed (not_confirmed_error (fetchNoteInfo_error asked))
  · refine (confirmed_of_settled confirmed).imp_right fun reported => ⟨info.callback, ?_⟩
    exact rotateNote_booked keeps origin rotates backed
      (fun url body heard => logged url body (List.mem_append_right _ heard)) reported

theorem Crates.perform_booked (keeps : C.url.KeepsPairs) (origin : C.url.KeepsOrigin) {call : ClientCall}
    {answer : call.Answer} (run : Dialogue.Runs (C.perform read config call) part answer) (backed : C.Backed log)
    (logged : C.Logged log part) : call.Booked C log.state answer := by
  cases call with
  | rotateNote callback k1 => exact fun secrets confirmed => rotateNote_booked keeps origin run backed logged confirmed
  | splitNote callback k1s amountMsat =>
    have ran := NoteOperation.session_of_splitNote run
    exact fun secrets confirmed => NoteOperation.session_booked keeps origin ran backed logged confirmed
  | mergeNotes callback k1s =>
    have ran := NoteOperation.session_of_mergeNotes run
    exact fun secrets confirmed => NoteOperation.session_booked keeps origin ran backed logged confirmed
  | settleNote baseUrl k1 expectedAmountMsat signature =>
    exact fun secrets confirmed => settleNote_booked keeps origin run backed logged confirmed
  | _ => trivial

end Settled

/-- Each call of a run is booked at the mint it was made at. -/
theorem Crates.booked_of_handled {α : Type} {start world : Network.World Query Query.Answer MintLog α}
    {calls : List (Dialogue.Event ClientCall ClientCall.Answer)} {call : ClientCall} {answer : call.Answer}
    (keeps : C.url.KeepsPairs) (origin : C.url.KeepsOrigin)
    (reach : Network.Reaches (C.replayNetwork others) start trace world) (kept : C.Backed world.server)
    (handled : Dialogue.Handled (C.perform read config) calls trace) (among : ⟨call, answer⟩ ∈ calls) :
    call.Booked C world.server.state answer := by
  obtain ⟨part, performed, within⟩ := handled.of_call among
  exact perform_booked keeps origin performed kept fun url body heard =>
    logged_of_reaches reach url body (within heard)

/-- Whatever a wallet does at a replaying mint, over a network that loses,
delays and delivers late, and whatever others send the mint: every rotate, split
and merge that a call reported as confirmed stands on the mint's books when the
wallet is done. -/
theorem Crates.replayed_wallet {α : Type} {wallet : Wallet α} {value : α}
    {start world : Network.World Query Query.Answer MintLog α} (keeps : C.url.KeepsPairs) (origin : C.url.KeepsOrigin)
    (began : start.program = wallet.session C read config) (backed : C.Backed start.server)
    (reach : Network.Reaches (C.replayNetwork others) start trace world) (finished : world.program = .done value) :
    ∃ calls, Dialogue.Handled (C.perform read config) calls trace ∧ Dialogue.Runs wallet calls value ∧
      ∀ call answer, ⟨call, answer⟩ ∈ calls → call.Booked C world.server.state answer := by
  have run : Dialogue.Runs start.program (trace ++ []) value := reach.runs (finished ▸ .done)
  rw [began, List.append_nil] at run
  obtain ⟨calls, handled, made⟩ := Dialogue.runs_interpret.mp run
  have kept := backed_invariant.reaches backed reach
  exact ⟨calls, handled, made, fun call answer among =>
    booked_of_handled keeps origin reach kept handled among⟩

theorem reference.rotateOnce_booked : ∃ world : Network.World Query Query.Answer MintLog (Except Error RotateOutcome),
    Network.Reaches (reference.replayNetwork fun _ => False)
        ⟨issuedMint, [], rotateOnce.session reference (fun _ => none) {}⟩ lostThenReplayed world ∧
      world.program = .done (.ok { k1 := freshSecret, signature := none }) ∧
      reference.Landed (.rotate mintCallback spentK1) [freshSecret] world.server.state := by
  obtain ⟨before, world, reach, step, finished⟩ := reference.rotation_replayed (reference.runs_rotateOnce fun _ => none)
  obtain ⟨calls, _, made, booked⟩ := Crates.replayed_wallet reference.keepsPairs reference.keepsOrigin rfl
    reference.backed_issuedMint (reach.tail step) finished
  have only : calls = [⟨.rotateNote mintCallback spentK1, .ok { k1 := freshSecret, signature := none }⟩] :=
    Dialogue.runs_query.mp made
  refine ⟨world, reach.tail step, finished, ?_⟩
  exact booked (.rotateNote mintCallback spentK1) _ (by rw [only]; exact List.mem_cons_self) [freshSecret] (Or.inl rfl)

end LnurlCash
