import LnurlCash.Lib.Curtail
import LnurlCash.ClientCalls

namespace LnurlCash

open Outcome Dialogue

/-- What the one policy demands the other demands as well. -/
structure Policy.Stricter (strict lax : Policy) : Prop where
  signatures : lax.requireSignatures → strict.requireSignatures
  mintPubkeys : lax.requireMintPubkey → strict.requireMintPubkey

/-- What a missing or malformed mint key is refused with. -/
def Error.RefusesKey (error : Error) : Prop := ∃ mintPubkey policy, checkMintPubkey mintPubkey policy = .error error

/-- What a missing certificate is refused with. -/
def Error.RefusesNote (secrets : List Str) (error : Error) : Prop := ∃ message, error = .unverifiable message secrets

def Refusal {α : Type} (E : Error → Prop) (outcome : Except Error α) : Prop := ∃ error, E error ∧ outcome = .error error

variable {C : Crates} {config : ClientConfig} {strict lax : Policy}

section Parsers

theorem checkMintPubkey_tightens (stricter : strict.Stricter lax) (mintPubkey : Option Str) :
    Tightens Error.RefusesKey (checkMintPubkey mintPubkey strict) (checkMintPubkey mintPubkey lax) := by
  cases checked : checkMintPubkey mintPubkey strict with
  | error error => exact Or.inr ⟨error, ⟨mintPubkey, strict, checked⟩, rfl⟩
  | ok passed =>
    refine Or.inl ?_
    have demanded : (!lax.requireMintPubkey || mintPubkey.any isCompressedPubkey) = true := by
      simp only [checkMintPubkey] at checked
      split at checked
      · rename_i fine
        have implied := stricter.mintPubkeys
        grind
      · cases checked
    exact (if_pos demanded).symm

theorem Crates.owed_tightens (stricter : strict.Stricter lax) (outputs : List Str) (returned : Option Str) (index : Nat)
    (what : Str) :
    Tightens (Error.RefusesNote []) (C.owed outputs strict returned index what)
      (C.owed outputs lax returned index what) := by
  unfold Crates.owed
  split
  · exact .refl _
  · split
    · exact .refl _
    · split
      · exact Or.inr ⟨_, ⟨_, rfl⟩, rfl⟩
      · rename_i undemanded
        rw [if_neg fun demanded => undemanded (stricter.signatures demanded)]
        exact .refl _

theorem Crates.parseMutation_tightens (stricter : strict.Stricter lax) (body : Value) (kind : MutationKind)
    (outputs : List Str) :
    Tightens (Error.RefusesNote []) (C.parseMutation body kind outputs strict)
      (C.parseMutation body kind outputs lax) := by
  refine .after _ fun _ => .after _ fun _ => Tightens.andThen ?_ _
  cases kind with
  | melt => exact .refl _
  | rotate => exact owed_tightens stricter outputs _ 0 _
  | merge => exact owed_tightens stricter outputs _ 0 _
  | split => exact (owed_tightens stricter outputs _ 0 _).bind fun _ => owed_tightens stricter outputs _ 1 _

theorem Crates.parseNoteInfo_tightens (stricter : strict.Stricter lax) (body : Value) (queried : Str) :
    Tightens Error.RefusesKey (C.parseNoteInfo body queried strict) (C.parseNoteInfo body queried lax) :=
  .after _ fun _ => .after _ fun _ => .after _ fun _ => .after _ fun _ => .after _ fun _ => .after _ fun _ =>
    .after _ fun _ => .after _ fun _ => (checkMintPubkey_tightens stricter _).andThen _

theorem parseNoteInfoByHash_tightens (stricter : strict.Stricter lax) (body : Value) :
    Tightens Error.RefusesKey (parseNoteInfoByHash body strict) (parseNoteInfoByHash body lax) :=
  .after _ fun _ => .after _ fun _ => .after _ fun _ => .after _ fun _ => .after _ fun _ => .after _ fun _ =>
    (checkMintPubkey_tightens stricter _).andThen _

end Parsers

/-! ### The calls -/

/-- An error that says a note landed and nobody can check it. -/
def Error.Uncertified (error : Error) : Prop := ∃ secrets, error.RefusesNote secrets

/-- How each call refuses what only a stricter policy refuses: without a mint
key, or, where it draws secrets, with an error of this kind. -/
def ClientCall.RefusedBy (unchecked : Error → Prop) : (call : ClientCall) → call.Answer → Prop
  | fetchNoteInfo _ | fetchNoteInfoByHash _ _ => Refusal Error.RefusesKey
  | rotateNote .. | mergeNotes .. | splitNote .. => Refusal unchecked
  | settleNote .. => Refusal fun error => error.RefusesKey ∨ unchecked error
  | probeBurnedNote _ => (· = .unknown)
  | _ => fun _ => False

/-- The refusal of a note that nobody can check carries the secrets which the call drew for it. -/
def ClientCall.Refused (call : ClientCall) (part : List Exchange) : call.Answer → Prop :=
  call.RefusedBy (Error.RefusesNote (drawn part))

section Calls

theorem curtails_of_tightens {α : Type} {E : Error → Prop} {x y : Except Error α} (tightens : Tightens E x y) :
    Curtails (Refusal E) (pure x : Session (Except Error α)) (pure y) := by
  rcases tightens with rfl | ⟨error, refused, rfl⟩
  · exact .same _
  · exact .refused ⟨error, refused, rfl⟩

theorem Crates.askFor_curtails {α : Type} {E : Error → Prop} {parse parse' : Value → Except Error α}
    (built : Except Error Request)
    (tightens : ∀ body, Tightens E (parse body) (parse' body)) :
    Curtails (Refusal E) (C.askFor { config with policy := strict } built parse) (C.askFor config built parse') := by
  unfold Crates.askFor
  split
  · exact .same _
  · exact .after _ fun body => curtails_of_tightens ((Tightens.refl body).bind tightens)

theorem Crates.attempt_curtails (stricter : strict.Stricter config.policy) (request : Request) (kind : MutationKind) :
    Curtails (Refusal (Error.RefusesNote [])) (C.attempt { config with policy := strict } kind request)
      (C.attempt config kind request) :=
  .after _ fun body => curtails_of_tightens
    ((Tightens.refl body).bind fun body => parseMutation_tightens stricter body kind request.outputs)

theorem Crates.mutate_curtails {α : Type} (stricter : strict.Stricter config.policy) (built : Except Error Request)
    (kind : MutationKind) (outcome : MutationResponse → α) :
    Curtails (Refusal Error.Uncertified) (C.mutate { config with policy := strict } built kind outcome)
      (C.mutate config built kind outcome) := by
  cases built with
  | error error => exact .same _
  | ok request =>
    have loop : Curtails (Refusal Error.Uncertified) (C.runMutation { config with policy := strict } request kind)
        (C.runMutation config request kind) := by
      refine (attempt_curtails stricter request kind).retry ?_ _ none
      rintro _ ⟨_, ⟨message, rfl⟩, rfl⟩
      exact ⟨.error (.unverifiable message request.newSecrets), ⟨_, ⟨_, message, rfl⟩, rfl⟩, rfl⟩
    refine loop.map ?_
    rintro _ ⟨error, refused, rfl⟩
    exact ⟨error, refused, rfl⟩

theorem Crates.rotateNote_curtails {callback k1 : Str} (stricter : strict.Stricter config.policy) :
    Curtails (Refusal Error.Uncertified) (C.rotateNote { config with policy := strict } callback k1)
      (C.rotateNote config callback k1) :=
  .after _ fun _ => mutate_curtails stricter _ .rotate _

theorem Crates.fetchNoteInfo_curtails {url : Str} (stricter : strict.Stricter config.policy) :
    Curtails (Refusal Error.RefusesKey) (C.fetchNoteInfo { config with policy := strict } url)
      (C.fetchNoteInfo config url) :=
  askFor_curtails _ fun body => parseNoteInfo_tightens stricter body url

theorem Error.RefusesKey.protocol {error : Error} (refused : error.RefusesKey) :
    ∃ message, error = .protocol message := by
  obtain ⟨mintPubkey, policy, failed⟩ := refused
  unfold checkMintPubkey at failed
  split at failed
  · cases failed
  · cases failed
    exact ⟨_, rfl⟩

theorem Crates.settleNote_curtails {baseUrl k1 : Str} {amountMsat : UInt64} {signature : Option Str}
    (stricter : strict.Stricter config.policy) :
    Curtails (Refusal fun error => error.RefusesKey ∨ error.Uncertified)
      (C.settleNote { config with policy := strict } baseUrl k1 amountMsat signature)
      (C.settleNote config baseUrl k1 amountMsat signature) := by
  unfold Crates.settleNote
  split
  · exact .same _
  · refine (fetchNoteInfo_curtails stricter).bind (fun fetched => ?_) ?_
    · cases fetched with
      | error error => exact .same _
      | ok info =>
        refine (rotateNote_curtails stricter).map ?_
        rintro _ ⟨_, ⟨secrets, message, rfl⟩, rfl⟩
        exact ⟨_, Or.inr ⟨secrets, message, rfl⟩, rfl⟩
    · rintro _ ⟨error, refused, rfl⟩
      exact ⟨_, ⟨error, Or.inl refused, rfl⟩, rfl⟩

theorem Crates.perform_curtails (read : Str → Option (List (List Value))) (stricter : strict.Stricter config.policy)
    (call : ClientCall) :
    Curtails (call.RefusedBy Error.Uncertified) (C.perform read { config with policy := strict } call)
      (C.perform read config call) := by
  cases call with
  | fetchNoteInfo url => exact fetchNoteInfo_curtails stricter
  | fetchNoteInfoByHash withdrawLink h => exact askFor_curtails _ fun body => parseNoteInfoByHash_tightens stricter body
  | rotateNote callback k1 => exact rotateNote_curtails stricter
  | splitNote callback k1s amountMsat => exact .after _ fun fresh => .after _ fun change => mutate_curtails stricter _ .split _
  | mergeNotes callback k1s => exact .after _ fun fresh => mutate_curtails stricter _ .merge _
  | probeBurnedNote url =>
    refine (fetchNoteInfo_curtails stricter).map ?_
    rintro _ ⟨error, refused, rfl⟩
    obtain ⟨message, rfl⟩ := refused.protocol
    rfl
  | settleNote baseUrl k1 expectedAmountMsat signature => exact settleNote_curtails stricter
  | _ => exact .same _

/-- What the refusal carries was drawn by the call that it ended. -/
theorem Crates.perform_refused {read : Str → Option (List (List Value))} {call : ClientCall} {part : List Exchange}
    {answer : call.Answer} (run : Dialogue.Runs (C.perform read config call) part answer)
    (refused : call.RefusedBy Error.Uncertified answer) : call.Refused part answer := by
  have drew : ∀ message secrets, call.failure answer = some (.unverifiable message secrets) → secrets = drawn part :=
    fun _ _ failed => perform_carries run failed rfl
  cases call with
  | rotateNote callback k1 | mergeNotes callback k1s | splitNote callback k1s amountMsat =>
    obtain ⟨_, ⟨secrets, message, rfl⟩, rfl⟩ := refused
    exact ⟨_, ⟨message, by rw [← drew message secrets rfl]⟩, rfl⟩
  | settleNote baseUrl k1 expectedAmountMsat signature =>
    obtain ⟨error, unpublished | ⟨secrets, message, rfl⟩, rfl⟩ := refused
    · exact ⟨error, Or.inl unpublished, rfl⟩
    · exact ⟨_, Or.inr ⟨message, by rw [← drew message secrets rfl]⟩, rfl⟩
  | fetchNoteInfo url | fetchNoteInfoByHash withdrawLink h | probeBurnedNote url => exact refused
  | _ => cases refused

/-- A wallet whose client demands more: it makes the very same run, or makes
the same calls until the first one that the client refuses. -/
theorem Crates.stricter_wallet {α : Type} {read : Str → Option (List (List Value))} {wallet : Wallet α} {value : α}
    {trace : List Exchange} (stricter : strict.Stricter config.policy)
    (run : Dialogue.Runs (wallet.session C read config) trace value) :
    CutShort (C.perform read { config with policy := strict }) ClientCall.Refused wallet trace value :=
  cutShort (perform_curtails read stricter) (fun _ _ _ ran refused => perform_refused ran refused) run

def strictPolicy : Policy := { requireSignatures := true, requireMintPubkey := true }

theorem reference.rotateOnce_stricter :
    CutShort (reference.perform (fun _ => none) { policy := strictPolicy }) ClientCall.Refused rotateOnce
      lostThenReplayed (.ok { k1 := freshSecret, signature := none }) := by
  have stricter : strictPolicy.Stricter (ClientConfig.policy {}) := ⟨fun _ => rfl, fun _ => rfl⟩
  exact Crates.stricter_wallet stricter (reference.runs_rotateOnce fun _ => none)

end Calls

end LnurlCash
