import LnurlCash.Lib.Lockstep
import LnurlCash.ReplayedMutations

namespace LnurlCash

open Outcome Dialogue

/-! ### The foreign-language surface -/

/-- The error taxonomy, flattened for the bindings. -/
inductive LnurlcashError where
  | requestRefused (detail : Str)
  | protocol (detail : Str)
  | serviceRejected (reason : Str)
  | notePending
  | noteSpent (reason : Str) (newSecrets : List Str)
  | noteUnknown (reason : Str) (newSecrets : List Str)
  | ambiguous (detail : Str) (newSecrets : List Str)
  | unverifiable (detail : Str) (newSecrets : List Str)
  deriving DecidableEq

/-- `From<Error>` -/
def LnurlcashError.ofError : Error → LnurlcashError
  | .requestRefused detail => requestRefused detail
  | .protocol detail => protocol detail
  | .serviceRejected reason => serviceRejected reason
  | .notePending => notePending
  | .noteSpent reason newSecrets => noteSpent reason newSecrets
  | .noteUnknown reason newSecrets => noteUnknown reason newSecrets
  | .ambiguous message newSecrets => ambiguous message newSecrets
  | .unverifiable message newSecrets => unverifiable message newSecrets

namespace Ffi

/-- `json` is serde_json's reading of a text, or none. -/
def parseBody (json : Str → Option Value) (body : Str) : Except LnurlcashError Value :=
  match json body with
  | some value => .ok value
  | none => .error (.ambiguous "the service returned an unreadable response".toList [])

def parseMutation (C : Crates) (json : Str → Option Value) (body : Str) (newSecrets : List Str) (kind : MutationKind)
    (outputs : List Str) (policy : Policy) : Except LnurlcashError MutationResponse :=
  match parseBody json body with
  | .error (.ambiguous detail _) => .error (.ambiguous detail newSecrets)
  | .error other => .error other
  | .ok value =>
    match C.parseMutation value kind outputs policy with
    | .ok response => .ok response
    | .error err => .error (.ofError (err.withSecrets newSecrets))

/-- The error a caller should raise when the GET itself failed. -/
def ambiguousOutcome (detail : Str) (newSecrets : List Str) : LnurlcashError := .ambiguous detail newSecrets

end Ffi

/-- What an HTTP stack makes of a GET. -/
inductive Fetched where
  | timedOut
  | unreachable
  | bodyUnread
  | body (text : Str)

abbrev Query.Fetched : Query → Type
  | get _ => LnurlCash.Fetched
  | freshSecret => Str

/-- The GET as the client's own transport reports it. -/
def Fetched.reply (json : Str → Option Value) : Fetched → Reply
  | timedOut => .timedOut
  | unreachable => .unreachable
  | bodyUnread => .bodyUnread
  | body text =>
    match json text with
    | some value => .json value
    | none => .garbled

/-- The documented end of a mutation's flow: hand the body to the parser with
the request's secrets and outputs, or make of a failed GET an ambiguous outcome.
`detail` is how the caller words a failure. -/
def Crates.foreignOutcome (C : Crates) (json : Str → Option Value) (detail : Fetched → Str) (policy : Policy)
    (kind : MutationKind) (request : Request) : Fetched → Except LnurlcashError MutationResponse
  | .body text => Ffi.parseMutation C json text request.newSecrets kind request.outputs policy
  | failure => .error (Ffi.ambiguousOutcome (detail failure) request.newSecrets)

/-- The documented flow on the other side: build a request and GET its URL first. -/
def Crates.foreignMutate (C : Crates) (json : Str → Option Value) (detail : Fetched → Str) (policy : Policy)
    (built : Except Error Request) (kind : MutationKind) :
    Dialogue Query Query.Fetched (Except LnurlcashError MutationResponse) :=
  match built with
  | .error err => pure (.error (.ofError err))
  | .ok request => do
    let fetched ← Dialogue.query (Query.get request.url)
    pure (C.foreignOutcome json detail policy kind request fetched)

/-! ### It says what the client says -/

/-- An outcome as it crosses the boundary. Only how an unknown outcome is
worded may differ, never what secrets it hands back. -/
inductive Crosses {α : Type} : Except Error α → Except LnurlcashError α → Prop
  | ok (value : α) : Crosses (.ok value) (.ok value)
  | error (err : Error) : Crosses (.error err) (.error (.ofError err))
  | reworded (message detail : Str) (secrets : List Str) :
      Crosses (.error (.ambiguous message secrets)) (.error (.ambiguous detail secrets))

def Query.heard (json : Str → Option Value) : (question : Query) → question.Fetched → question.Answer
  | .get _, fetched => fetched.reply json
  | .freshSecret, secret => secret

/-- What a foreign caller was told, as the client would have heard it. -/
def heard (json : Str → Option Value) (event : Event Query Query.Fetched) : Exchange :=
  ⟨event.1, event.1.heard json event.2⟩

/-- The same questions, and the answers the client would have heard. -/
def hearing (json : Str → Option Value) : Pairing Query.Answer Query.Fetched where
  questions := Eq
  answers _ question' answer fetched := HEq answer (question'.heard json fetched)

variable {C : Crates} {config : ClientConfig} {json : Str → Option Value} {detail : Fetched → Str} {request : Request}
  {kind : MutationKind} {builder : MutationBuilder}

theorem forall₂_hearing (trace : List (Event Query Query.Fetched)) :
    List.Forall₂ (hearing json).events (trace.map (heard json)) trace := by
  induction trace with
  | nil => exact .nil
  | cons event trace ih => exact .cons ⟨rfl, HEq.rfl⟩ ih

/-- A mutation that is not repeated is one GET, and what its attempt is reported as. -/
theorem Crates.runMutation_once (sent : C.refusal config request = none) (once : retriesFor config kind = 0) :
    C.runMutation config request kind = Dialogue.query (Query.get request.url) >>= fun reply =>
      pure (reported request.newSecrets (C.attemptOutcome config kind request reply)) := by
  have attempts : C.attempt config kind request = Dialogue.query (Query.get request.url) >>= fun reply =>
      pure (C.attemptOutcome config kind request reply) := by
    simp only [attempt, run, sent]
    rfl
  simp only [runMutation, once, retry, attempts]
  refine congrArg (Dialogue.ask (Query.get request.url)) (funext fun reply => ?_)
  simp only [Dialogue.bind, pure]
  cases C.attemptOutcome config kind request reply with
  | ok response => rfl
  | error error =>
    simp only [mutationVerdict]
    split_ifs <;> rfl

theorem Crates.crosses_of_fetched (fetched : Fetched) :
    Crosses (reported request.newSecrets (C.attemptOutcome config kind request (fetched.reply json)))
      (C.foreignOutcome json detail config.policy kind request fetched) := by
  cases fetched with
  | body text =>
    simp only [Fetched.reply, foreignOutcome, Ffi.parseMutation, Ffi.parseBody]
    cases json text with
    | none => exact .error _
    | some value =>
      change Crosses (reported request.newSecrets (C.parseMutation value kind request.outputs config.policy)) _
      simp only
      cases C.parseMutation value kind request.outputs config.policy with
      | ok response => exact .ok response
      | error error => exact .error _
  | _ => exact .reworded _ _ _

theorem Crates.foreignMutate_lockstep (keeps : C.url.KeepsPairs) (origin : C.url.KeepsOrigin)
    (online : config.offline = false) (once : retriesFor config builder.kind = 0) :
    Lockstep (hearing json) Crosses (C.mutate config (builder.build C) builder.kind id)
      (C.foreignMutate json detail config.policy (builder.build C) builder.kind) := by
  cases built : builder.build C with
  | error error => exact .done (.error error)
  | ok request =>
    have admitted := (sends_of_callbackUrl keeps origin (MutationBuilder.callbackUrl_of_build built)).admitted
    have sent : C.refusal config request = none := by simp [refusal_eq_none, online, admitted]
    simp only [mutate, foreignMutate, runMutation_once sent once]
    refine .ask rfl fun reply fetched heard => ?_
    obtain rfl := eq_of_heq heard
    refine .done ?_
    rw [Except.map_id]
    exact crosses_of_fetched fetched

/-- The documented flow over the bindings says what the client says of the same
GET: as long as the client does not repeat the mutation, each has the runs of
the other, and what they end with differs in wording at most. -/
theorem Crates.foreign_flow_agrees (config : ClientConfig) (json : Str → Option Value) (detail : Fetched → Str)
    (builder : MutationBuilder) (keeps : C.url.KeepsPairs) (origin : C.url.KeepsOrigin) (online : config.offline = false)
    (once : retriesFor config builder.kind = 0) (trace : List (Event Query Query.Fetched)) :
    (∀ outcome, Dialogue.Runs (C.mutate config (builder.build C) builder.kind id) (trace.map (heard json)) outcome →
        ∃ result, Dialogue.Runs (C.foreignMutate json detail config.policy (builder.build C) builder.kind) trace result ∧
          Crosses outcome result) ∧
      ∀ result, Dialogue.Runs (C.foreignMutate json detail config.policy (builder.build C) builder.kind) trace result →
        ∃ outcome, Dialogue.Runs (C.mutate config (builder.build C) builder.kind id) (trace.map (heard json)) outcome ∧
          Crosses outcome result := by
  have steps : Lockstep (hearing json) Crosses (C.mutate config (builder.build C) builder.kind id)
      (C.foreignMutate json detail config.policy (builder.build C) builder.kind) :=
    foreignMutate_lockstep keeps origin online once
  constructor
  · exact fun outcome run => steps.along (fun _ _ _ left right => left.symm.trans right) run (forall₂_hearing trace)
  · exact fun result run =>
      steps.flip.along (fun _ _ _ left right => left.trans right.symm) run (forall₂_hearing trace).flip

/-! The rotate at `mint.example`, whose confirmation arrives as text. -/

def okText : Str := "\x7b\"status\":\"OK\"\x7d".toList

def readOk (text : Str) : Option Value := if text = okText then some okBody else none

theorem readOk_okText : readOk okText = some okBody := if_pos rfl

def confirmedRotation : MutationResponse := { signature := none, changeSignature := none, pr := none, verify := none }

theorem reference.runs_rotation_once : Dialogue.Runs
    (reference.mutate { mutationRetries := 0 } (reference.rotateRequest mintCallback spentK1 freshSecret) .rotate id)
    [⟨.get rotation.url, .json okBody⟩] (.ok confirmedRotation) := by
  simp only [Crates.mutate, reference.rotateRequest_rotation]
  refine Dialogue.runs_bind_pure.mpr ⟨.ok confirmedRotation, ?_, rfl⟩
  have sent : reference.refusal { mutationRetries := 0 } rotation = none := reference.refusal_rotation
  rw [Crates.runMutation_once sent rfl]
  refine Dialogue.runs_bind_pure.mpr ⟨.json okBody, Dialogue.runs_query.mpr rfl, ?_⟩
  decide +kernel

theorem reference.rotation_crosses :
    ∃ result, Dialogue.Runs
        (reference.foreignMutate readOk (fun _ => "timed out".toList) {}
          (reference.rotateRequest mintCallback spentK1 freshSecret) .rotate)
        [⟨.get rotation.url, .body okText⟩] result ∧
      Crosses (.ok confirmedRotation) result := by
  have agrees := Crates.foreign_flow_agrees { mutationRetries := 0 } readOk (fun _ => "timed out".toList)
    (.rotate mintCallback spentK1 freshSecret) reference.keepsPairs reference.keepsOrigin rfl rfl
    [⟨.get rotation.url, .body okText⟩]
  refine agrees.1 (.ok confirmedRotation) ?_
  have same : [(⟨.get rotation.url, .body okText⟩ : Event Query Query.Fetched)].map (heard readOk) =
      [⟨.get rotation.url, .json okBody⟩] := by
    simp only [List.map_cons, List.map_nil, heard, Query.heard, Fetched.reply, readOk_okText]
  rw [same]
  exact reference.runs_rotation_once

end LnurlCash
