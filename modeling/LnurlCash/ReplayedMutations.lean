import LnurlCash.Lib.Replay
import LnurlCash.ProbedNotes
import LnurlCash.RequestTexts

namespace LnurlCash

open Outcome

/-- Whether the SERVICE definitively refused. The operation did not happen. -/
def Error.isDefinitive : Error → Bool
  | .serviceRejected _ | .notePending | .noteSpent .. | .noteUnknown .. | .requestRefused _ => true
  | _ => false

/-- What a SERVICE keeps: the notes it issued and the notes it burned. -/
structure Ledger where
  issued : Set (ByteArr 32)
  burned : Set (ByteArr 32)

section Rules

variable (C : Crates)

/-- A parameter of this name on a URL. -/
def Crates.Carries (url name value : Str) : Prop :=
  ∃ parsed, C.url.parse url = some parsed ∧ (name, value) ∈ C.url.queryPairs parsed

def Crates.Spends (url : Str) (note : ByteArr 32) : Prop :=
  ∃ k1 spend, C.Carries url "k1".toList k1 ∧ C.decodeSpend k1 = some spend ∧ spend.outputKey = note

def Crates.Mints (url : Str) (note : ByteArr 32) : Prop :=
  ∃ name ∈ ["p1".toList, "p2".toList], ∃ output, C.Carries url name output ∧ C.decodeNote output = some note

/-- A SERVICE under LUD-25's replay rule. It applies a mutation once, all of it,
and answers a byte-identical retry as it did the first time; it leaves issued
notes issued and burned notes burned. Of requests that mint it confirms the
applied ones alone, of any other, as a melt, it may confirm what it did not apply. -/
def Crates.mintRules : Replay.Rules Ledger Str Value where
  applies ledger url ledger' body :=
    StatusIs body "OK".toList ∧ (∀ note, C.Spends url note → note ∈ ledger.issued ∧ note ∉ ledger.burned) ∧
      (∀ note, C.Mints url note → note ∉ ledger.issued) ∧
      ledger' = ⟨ledger.issued ∪ {note | C.Mints url note}, ledger.burned ∪ {note | C.Spends url note}⟩
  declines _ url body := (∃ note, C.Mints url note) → ¬StatusIs body "OK".toList
  drifts ledger ledger' := ledger.issued ⊆ ledger'.issued ∧ ledger.burned ⊆ ledger'.burned

end Rules

/-- GETs carry their URL; a reply that is no JSON says nothing. -/
def getCarrier : Replay.Carrier Query Query.Answer Str Value where
  carries
    | .get url => some url
    | .freshSecret => none
  hears
    | .get _, .json body => some body
    | _, _ => none
  fails
    | .get _, reply => ∀ body, reply ≠ Reply.json body
    | .freshSecret, _ => False
  unheard question answer failed := by
    cases question with
    | get url =>
      cases answer with
      | json body => exact absurd rfl (failed body)
      | _ => rfl
    | freshSecret => rfl

abbrev MintLog := Replay.Log Ledger Str Value

abbrev ReplayWorld := Network.World Query Query.Answer MintLog (Except Error (List Str))

/-- The client's network to a replaying mint that others also send mutations to. -/
abbrev Crates.replayNetwork (C : Crates) (others : Str → Prop) : Network.Protocol Query Query.Answer MintLog :=
  Replay.network C.mintRules others getCarrier

/-- Every mutation in the log was confirmed once, and its notes changed hands. -/
structure Crates.Backed (C : Crates) (log : MintLog) : Prop where
  once : log.messages.Nodup
  confirmed : ∀ url body, (url, body) ∈ log.answered → StatusIs body "OK".toList
  spent : ∀ url ∈ log.messages, ∀ note, C.Spends url note → note ∈ log.state.burned
  minted : ∀ url ∈ log.messages, ∀ note, C.Mints url note → note ∈ log.state.issued

variable {C : Crates} {config : ClientConfig} {others : Str → Prop}

theorem Crates.backed_invariant : Replay.Invariant C.mintRules C.Backed where
  drifts backed drifted :=
    { backed with
      spent := fun url member note spends => drifted.2 (backed.spent url member note spends)
      minted := fun url member note mints => drifted.1 (backed.minted url member note mints) }
  applies := by
    rintro log url _ body backed unanswered ⟨status, _, _, rfl⟩
    refine ⟨List.nodup_cons.mpr ⟨unanswered, backed.once⟩, ?_, ?_, ?_⟩
    · intro other answer member
      rcases List.mem_cons.mp member with same | earlier
      · cases same
        exact status
      · exact backed.confirmed other answer earlier
    · intro other member note spends
      rcases List.mem_cons.mp member with rfl | earlier
      · exact Or.inr spends
      · exact Or.inl (backed.spent other earlier note spends)
    · intro other member note mints
      rcases List.mem_cons.mp member with rfl | earlier
      · exact Or.inr mints
      · exact Or.inl (backed.minted other earlier note mints)

/-! ### One operation -/

namespace NoteOperation

/-- The notes it spends, in the order given. -/
def k1s : NoteOperation → List Str
  | rotate _ k1 => [k1]
  | split _ k1s _ | merge _ k1s => k1s

/-- The request is what one of the builders makes of the operation and its secrets. -/
theorem builder_of_request {operation : NoteOperation} {secrets : List Str} {request : Request}
    (built : operation.request C secrets = .ok request) :
    ∃ builder : MutationBuilder, builder.build C = .ok request ∧ builder.callback = operation.callback ∧
      builder.k1s = operation.k1s := by
  unfold NoteOperation.request at built
  split at built
  · exact ⟨.rotate _ _ _, built, rfl, rfl⟩
  · exact ⟨.split _ _ _ _ _, built, rfl, rfl⟩
  · exact ⟨.merge _ _ _, built, rfl, rfl⟩
  · cases built

end NoteOperation

theorem mem_zip_right {α β : Type} {names : List α} {values : List β} {value : β}
    (room : values.length ≤ names.length) (member : value ∈ values) : ∃ name, (name, value) ∈ names.zip values := by
  obtain ⟨index, inside, rfl⟩ := List.getElem_of_mem member
  have both : index < (names.zip values).length := by
    rw [List.length_zip]
    omega
  refine ⟨names[index], List.mem_iff_getElem.mpr ⟨index, both, ?_⟩⟩
  rw [List.getElem_zip]

/-- The operation as the mint's books have it: its inputs burned, and a note
issued for each secret that can open one. -/
structure Crates.Landed (C : Crates) (operation : NoteOperation) (secrets : List Str) (ledger : Ledger) : Prop where
  spent : ∀ k1 ∈ operation.k1s, ∀ spend, C.decodeSpend k1 = some spend → spend.outputKey ∈ ledger.burned
  minted : ∀ secret ∈ secrets, isPreimage secret →
    ∃ output note, C.Opens secret output ∧ C.decodeNote output = some note ∧ note ∈ ledger.issued

section Request

variable {operation : NoteOperation} {secrets : List Str} {request : Request}

/-- A request carries every note its operation spends and an output for each secret. -/
theorem Crates.carries_of_request (keeps : C.url.KeepsPairs) (origin : C.url.KeepsOrigin)
    (built : operation.request C secrets = .ok request) :
    (∀ k1 ∈ operation.k1s, C.Carries request.url "k1".toList k1) ∧
      ∀ output ∈ request.outputs, (C.decodeNote (Str.trim output)).isSome ∧
        ∃ name ∈ ["p1".toList, "p2".toList], C.Carries request.url name (Str.trim output) := by
  obtain ⟨builder, builds, sameCallback, sameK1s⟩ := NoteOperation.builder_of_request built
  obtain ⟨_, _, url, out, _, parsed, pairs⟩ :=
    sends_of_callbackUrl keeps origin (MutationBuilder.callbackUrl_of_build builds)
  obtain ⟨recorded, count, usable⟩ := MutationBuilder.build_ok builds
  have carries : ∀ {name value}, (name, value) ∈ builder.params request.outputs → C.Carries request.url name value :=
    fun member => ⟨out, parsed, by rw [pairs]; exact List.mem_append_right _ member⟩
  refine ⟨fun k1 member => carries ?_, fun output member => ⟨usable output (recorded ▸ member), ?_⟩⟩
  · have spent : ("k1".toList, k1) ∈ builder.k1s.map ("k1".toList, ·) := List.mem_map_of_mem (sameK1s ▸ member)
    exact List.mem_append_left _ (List.mem_append_left _ spent)
  · have room : (request.outputs.map Str.trim).length ≤ ["p1".toList, "p2".toList].length := by
      rw [List.length_map, recorded, count]
      cases builder.kind <;> decide
    obtain ⟨name, paired⟩ := mem_zip_right room (List.mem_map_of_mem member)
    exact ⟨name, (List.of_mem_zip paired).1, carries (List.mem_append_right _ paired)⟩

theorem Crates.mints_of_request (keeps : C.url.KeepsPairs) (origin : C.url.KeepsOrigin)
    (built : operation.request C secrets = .ok request) {output : Str} (member : output ∈ request.outputs) :
    ∃ note, C.decodeNote (Str.trim output) = some note ∧ C.Mints request.url note := by
  obtain ⟨usable, name, named, carries⟩ := (carries_of_request keeps origin built).2 output member
  obtain ⟨note, decoded⟩ := Option.isSome_iff_exists.mp usable
  exact ⟨note, decoded, name, named, _, carries, decoded⟩

theorem NoteOperation.outputs_ne_nil (built : operation.request C secrets = .ok request)
    (count : secrets.length = operation.outputs) : request.outputs ≠ [] := by
  intro none
  obtain ⟨hashes, _, _, hashed, _, recorded, _⟩ := request_ok built
  have empty : secrets.length = 0 := by rw [hashed.length_eq, ← recorded, none, List.length_nil]
  cases operation <;> simp [NoteOperation.outputs, empty] at count

theorem Crates.landed_of_backed (keeps : C.url.KeepsPairs) (origin : C.url.KeepsOrigin)
    (built : operation.request C secrets = .ok request) {log : MintLog} (backed : C.Backed log)
    (applied : request.url ∈ log.messages) : C.Landed operation secrets log.state where
  spent k1 member spend decoded :=
    backed.spent _ applied _ ⟨k1, spend, (carries_of_request keeps origin built).1 k1 member, decoded, rfl⟩
  minted secret member preimage := by
    obtain ⟨hashes, _, _, hashed, _, recorded, _⟩ := NoteOperation.request_ok built
    obtain ⟨h, paired⟩ := mem_zip_right hashed.length_eq.le member
    have hash : C.hashK1 secret = .ok h := List.forall₂_zip hashed.flip paired
    obtain ⟨note, decoded, mints⟩ := mints_of_request keeps origin built (recorded ▸ (List.of_mem_zip paired).1)
    rw [trim_of_hashK1 hash] at decoded
    have opens := (opens_iff hash (by rw [decoded]; rfl)).mpr preimage
    exact ⟨h, note, opens, decoded, backed.minted _ applied _ mints⟩

end Request

/-! ### What a mutation reports of its last attempt -/

section Reported

variable {kind : MutationKind} {request : Request} {body : Value} {reply : Reply}

theorem Error.isDefinitive_of_isRefusal {error : Error} (refusal : error.isRefusal) (secrets : List Str) :
    (error.withSecrets secrets).isDefinitive := by
  cases error <;> first | rfl | cases refusal

theorem Crates.reported_of_ok (confirmed : StatusIs body "OK".toList) :
    (∃ response, reported request.newSecrets (C.attemptOutcome config kind request (.json body)) = .ok response) ∨
      ∃ message, reported request.newSecrets (C.attemptOutcome config kind request (.json body)) =
        .error (.unverifiable message request.newSecrets) := by
  change (∃ response, reported request.newSecrets (C.parseMutation body kind request.outputs config.policy) = _) ∨
    ∃ message, reported request.newSecrets (C.parseMutation body kind request.outputs config.policy) = _
  rcases parseMutation_of_ok (C := C) confirmed with ⟨⟨response, same⟩, _⟩ | ⟨⟨message, same⟩, _⟩
  · exact Or.inl ⟨response, by rw [same]; rfl⟩
  · exact Or.inr ⟨message, by rw [same]; rfl⟩

theorem Crates.reported_of_error (refused : StatusIs body "ERROR".toList) :
    ∃ error, reported request.newSecrets (C.attemptOutcome config kind request (.json body)) = .error error ∧
      error.isDefinitive := by
  obtain ⟨error, same, refusal⟩ :
      ∃ error, C.parseMutation body kind request.outputs config.policy = .error error ∧ error.isRefusal :=
    parseMutation_of_error refused
  refine ⟨error.withSecrets request.newSecrets, ?_, Error.isDefinitive_of_isRefusal refusal _⟩
  change reported request.newSecrets (C.parseMutation body kind request.outputs config.policy) = _
  rw [same]
  rfl

theorem Crates.reported_of_neither (accepted : ¬StatusIs body "ERROR".toList) (unconfirmed : ¬StatusIs body "OK".toList) :
    ∃ message, reported request.newSecrets (C.attemptOutcome config kind request (.json body)) =
      .error (.ambiguous message request.newSecrets) := by
  change ∃ message, reported request.newSecrets (C.parseMutation body kind request.outputs config.policy) = _
  rw [parseMutation_of_neither accepted unconfirmed]
  exact ⟨_, rfl⟩

theorem Crates.reported_of_lost (lost : ∀ body, reply ≠ .json body) :
    ∃ message, reported request.newSecrets (C.attemptOutcome config kind request reply) =
      .error (.ambiguous message request.newSecrets) := by
  cases reply with
  | json body => exact absurd rfl (lost body)
  | _ => exact ⟨_, rfl⟩

end Reported

/-! ### The whole operation, across every interleaving -/

section Ended

variable {operation : NoteOperation} {secrets : List Str} {request : Request} {start before after : ReplayWorld}
  {result : Except Error (List Str)} {trace : List Exchange} {event : Exchange}

/-- How an operation that sent its request ends, beside what has become and
will become of that request at the mint. -/
structure Crates.Accounts (C : Crates) (others : Str → Prop) (operation : NoteOperation) (secrets : List Str)
    (request : Request) (result : Except Error (List Str)) (after : ReplayWorld) : Prop where
  reports : result = .ok secrets ∨
    ∃ error, result = .error error ∧ (error.isDefinitive ∨ error.newSecrets = secrets)
  confirmed : (result = .ok secrets ∨ ∃ message, result = .error (.unverifiable message secrets)) →
    request.url ∈ after.server.messages
  refused : ∀ error, result = .error error → error.isDefinitive → request.url ∉ after.server.messages
  stays_refused : ∀ error, result = .error error → error.isDefinitive → Query.get request.url ∉ after.flight →
    ¬others request.url → ∀ further later, Network.Reaches (C.replayNetwork others) after further later →
      request.url ∉ later.server.messages
  once : ∀ further later, Network.Reaches (C.replayNetwork others) after further later →
    later.server.messages.count request.url ≤ 1
  landed : ∀ further later, Network.Reaches (C.replayNetwork others) after further later →
    request.url ∈ later.server.messages → C.Landed operation secrets later.server.state

/-- The ways an attempt can end a mutation at a replaying mint, which of them
says that the request was applied and which that it was not. -/
inductive Ended (url : Str) (secrets : List Str) (log : MintLog) : Except Error MutationResponse → Prop
  | accepted {response} : url ∈ log.messages → Ended url secrets log (.ok response)
  | uncertified {message} : url ∈ log.messages → Ended url secrets log (.error (.unverifiable message secrets))
  | refused {error} : error.isDefinitive → url ∉ log.messages → Ended url secrets log (.error error)
  | lost {message} : Ended url secrets log (.error (.ambiguous message secrets))

theorem Crates.ended_of_step (keeps : C.url.KeepsPairs) (origin : C.url.KeepsOrigin)
    (built : operation.request C secrets = .ok request) (output : request.outputs ≠ []) (backed : C.Backed after.server)
    (config : ClientConfig) (kind : MutationKind) {reply : Reply}
    (step : Network.Step (C.replayNetwork others) before (some ⟨.get request.url, reply⟩) after) :
    Ended request.url request.newSecrets after.server
      (reported request.newSecrets (C.attemptOutcome config kind request reply)) := by
  cases step with
  | delayed failed =>
    obtain ⟨message, same⟩ := reported_of_lost failed
    rw [same]
    exact .lost
  | answered served =>
    obtain ⟨between, _, body, heard, delivered⟩ := served
    cases reply with
    | json answer =>
      cases heard
      rcases delivered.truthful with answered | ⟨unanswered, declined⟩
      · have applied := Replay.Log.mem_messages answered
        rcases reported_of_ok (backed.confirmed _ _ answered) with ⟨response, same⟩ | ⟨message, same⟩
        · rw [same]
          exact .accepted applied
        · rw [same]
          exact .uncertified applied
      · obtain ⟨named, member⟩ := List.exists_mem_of_ne_nil _ output
        obtain ⟨note, _, mints⟩ := mints_of_request keeps origin built member
        have unconfirmed := declined ⟨note, mints⟩
        by_cases refused : StatusIs body "ERROR".toList
        · obtain ⟨error, same, definitive⟩ := reported_of_error refused
          rw [same]
          exact .refused definitive unanswered
        · obtain ⟨message, same⟩ := reported_of_neither refused unconfirmed
          rw [same]
          exact .lost
    | _ => cases heard

theorem Crates.accounts_of_ended (keeps : C.url.KeepsPairs) (origin : C.url.KeepsOrigin)
    (built : operation.request C secrets = .ok request) (backed : C.Backed after.server)
    {outcome : Except Error MutationResponse} (finished : after.program = .done (outcome.map fun _ => secrets))
    (ended : Ended request.url secrets after.server outcome) :
    C.Accounts others operation secrets request (outcome.map fun _ => secrets) after := by
  have once : ∀ further later, Network.Reaches (C.replayNetwork others) after further later →
      later.server.messages.count request.url ≤ 1 := fun _ _ continued =>
    List.nodup_iff_count_le_one.mp (backed_invariant.reaches backed continued).once _
  have landed : ∀ further later, Network.Reaches (C.replayNetwork others) after further later →
      request.url ∈ later.server.messages → C.Landed operation secrets later.server.state := fun _ _ continued =>
    landed_of_backed keeps origin built (backed_invariant.reaches backed continued)
  cases ended with
  | accepted applied =>
    exact ⟨Or.inl rfl, fun _ => applied, nofun, nofun, once, landed⟩
  | uncertified applied =>
    refine ⟨Or.inr ⟨_, rfl, Or.inr rfl⟩, fun _ => applied, ?_, ?_, once, landed⟩
    · intro error same definitive
      cases same
      cases definitive
    · intro error same definitive
      cases same
      cases definitive
  | @refused error definitive unapplied =>
    refine ⟨Or.inr ⟨_, rfl, Or.inl definitive⟩, ?_, fun _ _ _ => unapplied, ?_, once, landed⟩
    · rintro (same | ⟨message, same⟩)
      · cases same
      · cases same
        cases definitive
    · intro _ _ _ landed ours further later continued
      refine fun applied => unapplied ((Replay.messages_of_done continued finished ours ?_).mp applied)
      intro question member carried
      cases question with
      | get url =>
        cases carried
        exact landed member
      | freshSecret => cases carried
  | lost =>
    refine ⟨Or.inr ⟨_, rfl, Or.inr rfl⟩, ?_, ?_, ?_, once, landed⟩
    · rintro (same | ⟨message, same⟩) <;> cases same
    · intro error same definitive
      cases same
      cases definitive
    · intro error same definitive
      cases same
      cases definitive

/-- Whatever the network loses, delays and delivers late, and whatever else
reaches the mint in between: an operation at a replaying mint is applied at most
once, and what it reports is what became of it. -/
theorem Crates.replayed_operation (keeps : C.url.KeepsPairs) (origin : C.url.KeepsOrigin)
    (began : start.program = operation.session C config) (backed : C.Backed start.server)
    (reach : Network.Reaches (C.replayNetwork others) start trace before)
    (ended : Network.Step (C.replayNetwork others) before (some event) after) (finished : after.program = .done result) :
    ∃ secrets attempts, secrets.length = operation.outputs ∧
      trace ++ [event] = secrets.map (fun secret => (⟨.freshSecret, secret⟩ : Exchange)) ++ attempts ∧
      ((attempts = [] ∧ ∃ error, result = .error error ∧ error.newSecrets = []) ∨
        ∃ request, operation.request C secrets = .ok request ∧
          (∀ exchange ∈ attempts, ∃ reply : Reply, exchange = ⟨.get request.url, reply⟩) ∧
          C.Accounts others operation secrets request result after) := by
  have run : Dialogue.Runs start.program ((trace ++ [event]) ++ []) result :=
    (reach.tail ended).runs (finished ▸ .done)
  rw [began, List.append_nil] at run
  obtain ⟨secrets, attempts, count, split, ends⟩ := NoteOperation.session_runs run
  refine ⟨secrets, attempts, count, split, ?_⟩
  rcases ends with ⟨error, failed, rfl, rfl⟩ | ⟨request, reached, built, mutated, rfl⟩
  · exact Or.inl ⟨rfl, error, rfl, Error.newSecrets_eq_nil (NoteOperation.request_error failed)⟩
  · rcases runMutation_last mutated with ⟨rfl, message, _, rfl⟩ | ⟨front, reply, rfl, _, _, rfl⟩
    · exact Or.inl ⟨rfl, _, rfl, rfl⟩
    · refine Or.inr ⟨request, built, runMutation_same_request mutated, ?_⟩
      have last : event = ⟨.get request.url, reply⟩ := by
        rw [← List.append_assoc] at split
        exact List.singleton_inj.mp (List.append_inj' split rfl).2
      subst last
      have kept := backed_invariant.reaches backed (reach.tail ended)
      obtain ⟨_, _, _, _, carried, _⟩ := NoteOperation.request_ok built
      have final := ended_of_step keeps origin built (NoteOperation.outputs_ne_nil built count) kept config operation.kind
        ended
      rw [carried] at final finished ⊢
      exact accounts_of_ended keeps origin built kept finished final

end Ended

/-! The rotate at `mint.example`: its first copy is given up on, arrives late
and is applied, and the retry is answered as that one was. -/

def okBody : Value := .object [("status".toList, .string "OK".toList)]

def issuedMint : MintLog where
  state := { issued := {note | reference.Spends rotation.url note}, burned := ∅ }
  answered := []

def rotatedMint : MintLog where
  state := { issued := issuedMint.state.issued ∪ {note | reference.Mints rotation.url note}
             burned := issuedMint.state.burned ∪ {note | reference.Spends rotation.url note} }
  answered := [(rotation.url, okBody)]

def rotationStart : ReplayWorld := ⟨issuedMint, [], (NoteOperation.rotate mintCallback spentK1).session reference {}⟩

def lostThenReplayed : List Exchange :=
  [⟨.freshSecret, freshSecret⟩, ⟨.get rotation.url, .timedOut⟩, ⟨.get rotation.url, .json okBody⟩]

set_option maxRecDepth 100000 in
theorem reference.queryPairs_rotation : (reference.url.parse rotation.url).map reference.url.queryPairs =
    some [("k1".toList, spentK1), ("p1".toList, freshHash)] := by decide +kernel

set_option maxRecDepth 100000 in
theorem reference.rotation_apart :
    (reference.decodeSpend spentK1).map Spend.outputKey ≠ reference.decodeNote freshHash := by decide +kernel

theorem reference.carries_rotation {name value : Str} (carries : reference.Carries rotation.url name value) :
    (name, value) ∈ [("k1".toList, spentK1), ("p1".toList, freshHash)] := by
  obtain ⟨parsed, found, member⟩ := carries
  have pairs := reference.queryPairs_rotation
  rw [found, Option.map_some] at pairs
  rwa [Option.some.inj pairs] at member

/-- The rotate does not mint the note it spends. -/
theorem reference.rotation_mints {note : ByteArr 32} (mints : reference.Mints rotation.url note) :
    ¬reference.Spends rotation.url note := by
  rintro ⟨k1, spend, carriesSpend, decodes, rfl⟩
  obtain ⟨name, named, output, carriesOutput, outputs⟩ := mints
  have sameK1 : k1 = spentK1 := by
    rcases List.mem_cons.mp (carries_rotation carriesSpend) with same | member
    · exact congrArg Prod.snd same
    · cases List.mem_singleton.mp member
  have sameOutput : output = freshHash := by
    rcases List.mem_cons.mp (carries_rotation carriesOutput) with same | member
    · rw [show name = "k1".toList from congrArg Prod.fst same] at named
      exact absurd named (by decide)
    · exact congrArg Prod.snd (List.mem_singleton.mp member)
  subst sameK1 sameOutput
  exact reference.rotation_apart (by rw [decodes, outputs, Option.map_some])

theorem reference.rotateNote_lostThenReplayed : Dialogue.Runs (reference.rotateNote {} mintCallback spentK1)
    lostThenReplayed (.ok { k1 := freshSecret, signature := none }) := by
  have mutated : Dialogue.Runs (reference.runMutation {} rotation .rotate)
      [⟨.get rotation.url, .timedOut⟩, ⟨.get rotation.url, .json okBody⟩]
      (.ok { signature := none, changeSignature := none, pr := none, verify := none }) := by
    refine Crates.runs_lost_then reference.refusal_rotation (by decide) rfl ?_
    decide +kernel
  exact Crates.rotateNote_runs reference.rotateRequest_rotation mutated

theorem reference.runs_lostThenReplayed :
    Dialogue.Runs rotationStart.program lostThenReplayed (.ok [freshSecret]) :=
  Dialogue.runs_bind_pure.mpr ⟨_, reference.rotateNote_lostThenReplayed, rfl⟩

theorem reference.rotation_applies : (reference.replayNetwork fun _ => False).serves issuedMint (.get rotation.url)
    rotatedMint (.json okBody) := by
  refine ⟨issuedMint, .refl, okBody, rfl, .applied List.not_mem_nil ⟨rfl, ?_, ?_, rfl⟩⟩
  · exact fun note spends => ⟨spends, id⟩
  · exact fun note mints => reference.rotation_mints mints

theorem reference.rotation_replays : (reference.replayNetwork fun _ => False).serves rotatedMint (.get rotation.url)
    rotatedMint (.json okBody) :=
  ⟨rotatedMint, .refl, okBody, rfl, .replayed List.mem_cons_self⟩

theorem reference.backed_issuedMint : reference.Backed issuedMint where
  once := List.nodup_nil
  confirmed := nofun
  spent := nofun
  minted := nofun

/-- A program that hears this much may hear it at the mint that issued the note. -/
theorem reference.rotation_replayed {α : Type} {program : Session α} {value : α}
    (run : Dialogue.Runs program lostThenReplayed value) :
    ∃ before after : Network.World Query Query.Answer MintLog α,
      Network.Reaches (reference.replayNetwork fun _ => False) ⟨issuedMint, [], program⟩
          [⟨.freshSecret, freshSecret⟩, ⟨.get rotation.url, .timedOut⟩] before ∧
        Network.Step (reference.replayNetwork fun _ => False) before
          (some ⟨.get rotation.url, .json okBody⟩) after ∧
        after.program = .done value := by
  obtain ⟨program', rest, drawn⟩ := @Network.Step.answers _ _ _ _ (reference.replayNetwork fun _ => False) _ _ _ _ _
    issuedMint issuedMint run ⟨issuedMint, .refl, rfl⟩ []
  have silent : ∀ event ∈ [(⟨.get rotation.url, .timedOut⟩ : Exchange)],
      (reference.replayNetwork fun _ => False).fails event.1 event.2 := by
    intro event member
    rw [List.mem_singleton.mp member]
    exact fun body => nofun
  obtain ⟨program'', continues, reach⟩ := Network.Reaches.of_delays rest silent issuedMint []
  have late := Network.Reaches.tail reach
    (@Network.Step.late _ _ _ _ _ _ _ [] _ [] _ _ reference.rotation_applies)
  have replay := Network.Step.of_runs continues reference.rotation_replays []
  exact ⟨_, _, (Network.Reaches.tail .refl drawn).trans late, replay, rfl⟩

/-- The rotate whose answer was lost is confirmed by its replay, and its new note is open to the drawn secret. -/
theorem reference.rotation_lands : ∃ before after : ReplayWorld,
    Network.Reaches (reference.replayNetwork fun _ => False) rotationStart
        [⟨.freshSecret, freshSecret⟩, ⟨.get rotation.url, .timedOut⟩] before ∧
      Network.Step (reference.replayNetwork fun _ => False) before (some ⟨.get rotation.url, .json okBody⟩) after ∧
      rotation.url ∈ after.server.messages ∧
      reference.Landed (.rotate mintCallback spentK1) [freshSecret] after.server.state := by
  obtain ⟨before, after, reach, step, finished⟩ := reference.rotation_replayed reference.runs_lostThenReplayed
  refine ⟨before, after, reach, step, ?_⟩
  have began : rotationStart.program = (NoteOperation.rotate mintCallback spentK1).session reference {} := rfl
  obtain ⟨secrets, _, _, _, ⟨_, _, same, _⟩ | ⟨request, built, _, accounts⟩⟩ := Crates.replayed_operation
    reference.keepsPairs reference.keepsOrigin began reference.backed_issuedMint reach step finished
  · cases same
  · rcases accounts.reports with same | ⟨_, same, _⟩
    · cases same
      have asked : reference.rotateRequest mintCallback spentK1 freshSecret = .ok request := built
      cases Except.ok.inj (reference.rotateRequest_rotation.symm.trans asked)
      have applied := accounts.confirmed (Or.inl rfl)
      exact ⟨applied, accounts.landed _ _ .refl applied⟩
    · cases same

end LnurlCash
