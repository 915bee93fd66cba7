import LnurlCash.Lib.Lockstep
import LnurlCash.ClientCalls

namespace LnurlCash

open Outcome Dialogue

/-- A secret whose hash names a note. -/
def Crates.Usable (C : Crates) (secret : Str) : Prop := ∃ h, C.hashK1 secret = .ok h ∧ (C.decodeNote h).isSome

/-- Swapping these secrets changes no hash. -/
def Crates.SameHashes (C : Crates) (swap : Str → Str) : Prop := ∀ secret, C.hashK1 (swap secret) = C.hashK1 secret

/-- The same replies, and each secret that is drawn swapped for another. -/
def Crates.swapping (C : Crates) (swap : Str → Str) : Pairing Query.Answer Query.Answer where
  questions
    | .get url, .get url' => C.SameHashes swap → url' = url
    | .freshSecret, .freshSecret => True
    | _, _ => False
  answers
    | .get _, .get _, reply, reply' => reply' = reply
    | .freshSecret, .freshSecret, secret, secret' => C.Usable secret ∧ C.Usable secret' ∧ secret' = swap secret
    | _, _, _, _ => False

/-- Errors that differ in the secrets they carry at most. -/
def Error.Same (error other : Error) : Prop := error.withSecrets [] = other.withSecrets []

namespace Error

theorem Same.refl (error : Error) : error.Same error := rfl

theorem withSecrets_withSecrets (error : Error) (first second : List Str) :
    (error.withSecrets first).withSecrets second = error.withSecrets second := by
  cases error <;> rfl

theorem Same.withSecrets {error other : Error} (same : error.Same other) (secrets others : List Str) :
    (error.withSecrets secrets).Same (other.withSecrets others) := by
  unfold Error.Same
  rw [withSecrets_withSecrets, withSecrets_withSecrets]
  exact same

theorem Same.isAmbiguous {error other : Error} (same : error.Same other) : error.isAmbiguous = other.isAmbiguous := by
  rw [← isAmbiguous_withSecrets error [], same, isAmbiguous_withSecrets]

theorem Same.congr {error other : Error} (same : error.Same other) (secrets : List Str) :
    error.withSecrets secrets = other.withSecrets secrets := by
  rw [← withSecrets_withSecrets error [], same, withSecrets_withSecrets]

/-- The error with each secret it carries swapped for another. -/
def mapSecrets (swap : Str → Str) (error : Error) : Error := error.withSecrets (error.newSecrets.map swap)

theorem mapSecrets_withSecrets (swap : Str → Str) (error : Error) (secrets : List Str) :
    (error.withSecrets secrets).mapSecrets swap = error.withSecrets (secrets.map swap) := by
  cases error <;> rfl

theorem burnsNothing_mapSecrets (swap : Str → Str) (error : Error) :
    (error.mapSecrets swap).burnsNothing = error.burnsNothing :=
  burnsNothing_withSecrets error _

theorem mapSecrets_of_newSecrets {swap : Str → Str} {error : Error} (none : error.newSecrets = []) :
    error.mapSecrets swap = error := by
  cases error <;> simp_all [mapSecrets, newSecrets, withSecrets]

end Error

/-- Outcomes that differ in secrets at most, where `R` compares what succeeded. -/
abbrev SameOutcome {α : Type} (R : α → α → Prop) : Except Error α → Except Error α → Prop := Alike Error.Same R

/-- An outcome, and the same one with its secrets swapped. -/
abbrev SwappedOutcome {α : Type} (swap : Str → Str) (R : α → α → Prop) : Except Error α → Except Error α → Prop :=
  Alike (fun error error' => error' = error.mapSecrets swap) R

/-- Requests that the client sends, the second for the first one's secrets
swapped, and that are owed the same certificates. -/
structure Crates.SwapsRequest (C : Crates) (swap : Str → Str) (request other : Request) : Prop where
  allowed : C.isAllowedServiceUrl request.url
  allowed' : C.isAllowedServiceUrl other.url
  sent : C.SameHashes swap → other.url = request.url
  carried : other.newSecrets = request.newSecrets.map swap
  keyed : request.outputs.map C.isKeyOutput = other.outputs.map C.isKeyOutput

variable {C : Crates} {config : ClientConfig} {swap : Str → Str} {request other : Request} {kind : MutationKind}

section Mutation

theorem Crates.parseMutation_congr {body : Value} {outputs others : List Str} {policy : Policy}
    (keyed : outputs.map C.isKeyOutput = others.map C.isKeyOutput) :
    C.parseMutation body kind outputs policy = C.parseMutation body kind others policy := by
  have owed : ∀ returned index what,
      C.owed outputs policy returned index what = C.owed others policy returned index what := by
    intro returned index what
    have same : outputs[index]?.any C.isKeyOutput = others[index]?.any C.isKeyOutput := by
      have mapped := congrArg (fun keys : List Bool => keys[index]?.any id) keyed
      simpa only [List.getElem?_map, Option.any_map, Function.comp_def, id_eq] using mapped
    simp only [Crates.owed, same]
  have owes : ∀ signature changeSignature,
      C.owes outputs policy signature changeSignature kind = C.owes others policy signature changeSignature kind := by
    intro signature changeSignature
    cases kind <;> simp only [Crates.owes, owed]
  simp only [Crates.parseMutation, owes]

theorem readReply_same (reply : Reply) : SameOutcome Eq (readReply request reply) (readReply other reply) := by
  cases reply with
  | json body => exact .ok rfl
  | _ => exact .error (Error.Same.withSecrets (Error.Same.refl _) _ _)

theorem Crates.run_lockstep (same : C.SwapsRequest swap request other) :
    Lockstep (C.swapping swap) (SameOutcome Eq) (C.run config request) (C.run config other) := by
  by_cases offline : config.offline
  · simp only [Crates.run, Crates.refusal, offline, if_true]
    exact .done (.error rfl)
  · simp only [Crates.run, Crates.refusal, offline, same.allowed, same.allowed', Bool.false_eq_true, if_false,
      Bool.not_true]
    refine Lockstep.query_bind same.sent ?_
    rintro reply reply' rfl
    exact .done (readReply_same reply')

theorem Crates.attempt_lockstep (same : C.SwapsRequest swap request other) :
    Lockstep (C.swapping swap) (SameOutcome Eq) (C.attempt config kind request) (C.attempt config kind other) := by
  refine (run_lockstep same).map fun body body' alike => ?_
  cases alike with
  | error failed => exact .error failed
  | ok related =>
    subst related
    change SameOutcome Eq (C.parseMutation _ kind request.outputs config.policy)
      (C.parseMutation _ kind other.outputs config.policy)
    rw [parseMutation_congr same.keyed]
    cases C.parseMutation _ kind other.outputs config.policy with
    | ok response => exact .ok rfl
    | error error => exact .error rfl

theorem Error.Same.swapped {error error' : Error} (failed : error.Same error') {secrets secrets' : List Str}
    (carried : secrets' = secrets.map swap) :
    error'.withSecrets secrets' = (error.withSecrets secrets).mapSecrets swap := by
  rw [Error.mapSecrets_withSecrets, failed.congr, carried]

theorem Crates.runMutation_lockstep (same : C.SwapsRequest swap request other) :
    Lockstep (C.swapping swap) (SwappedOutcome swap Eq) (C.runMutation config request kind)
      (C.runMutation config other kind) := by
  refine (attempt_lockstep same).retry (E := Error.Same) ?_ ?_ _ .none
  · rintro _ _ (related | @⟨error, error', failed⟩)
    · exact .ok (.ok related)
    · simp only [mutationVerdict, failed.isAmbiguous]
      split
      · exact .error failed
      · exact .ok (.error (failed.swapped same.carried))
  · rintro _ _ (failed | _)
    · exact .error (failed.swapped same.carried)
    · exact .error ((Error.Same.refl _).swapped same.carried)

theorem Crates.mutate_lockstep {α : Type} {built built' : Except Error Request} {R : α → α → Prop}
    {outcome outcome' : MutationResponse → α} (alike : SwappedOutcome swap (C.SwapsRequest swap) built built')
    (returns : ∀ response, R (outcome response) (outcome' response)) :
    Lockstep (C.swapping swap) (SwappedOutcome swap R) (C.mutate config built kind outcome)
      (C.mutate config built' kind outcome') := by
  cases alike with
  | error failed => exact .done (.error failed)
  | ok same =>
    refine (runMutation_lockstep same).map fun response response' ended => ?_
    cases ended with
    | error failed => exact .error failed
    | ok related =>
      subst related
      exact .ok (returns _)

end Mutation

/-! ### What the builders make of two usable secrets -/

section Built

variable {callback k1 secret secret' : Str} {k1s : List Str} {amountMsat : UInt64}

/-- A hash that names a bearer note. -/
structure Crates.NamesBearer (C : Crates) (h : Str) : Prop where
  trimmed : Str.trim h = h
  named : (C.decodeNote h).isSome
  bearer : C.isKeyOutput h = false

theorem Crates.Usable.hash (usable : C.Usable secret) : ∃ h, C.hashK1 secret = .ok h ∧ C.NamesBearer h := by
  obtain ⟨h, hashed, named⟩ := usable
  refine ⟨h, hashed, trim_of_hashK1 hashed, named, ?_⟩
  obtain ⟨bytes, _, rfl⟩ := hashK1_ok hashed
  rw [isKeyOutput, Hex.trim_encode, Hex.lower_encode, decodeCp1, decodeFixed,
    decodeBytes_of_hex "cp".toList 'p' (Hex.decode_encode _) (by decide) (by decide)]
  rfl

theorem Crates.outputParam_bearer {h name : Str} (bearer : C.NamesBearer h) : C.outputParam name h = .ok (name, h) := by
  simp only [outputParam, bearer.trimmed, Option.isNone_iff_eq_none]
  rw [if_neg (Option.isSome_iff_ne_none.mp bearer.named)]

theorem Crates.SameHashes.hash_eq {h h' : Str} (same : C.SameHashes swap) (hashed : C.hashK1 secret = .ok h)
    (hashed' : C.hashK1 (swap secret) = .ok h') : h' = h :=
  Except.ok.inj (hashed'.symm.trans ((same secret).trans hashed))

/-- Whether a callback takes a mutation does not depend on the outputs it names. -/
theorem Crates.callbackUrl_alike (keeps : C.url.KeepsPairs) (origin : C.url.KeepsOrigin)
    {params params' : List (Str × Str)}
    (spends : params.any (fun pair => decide (pair.1 = "k1".toList)) =
      params'.any fun pair => decide (pair.1 = "k1".toList)) :
    SwappedOutcome swap
      (fun url url' => C.isAllowedServiceUrl url ∧ C.isAllowedServiceUrl url' ∧ (params' = params → url' = url))
      (C.callbackUrl callback params) (C.callbackUrl callback params') := by
  cases built : C.callbackUrl callback params with
  | ok url =>
    obtain ⟨parsed, allowed, found, _⟩ := callbackUrl_ok built
    have built' : ∃ url', C.callbackUrl callback params' = .ok url' := by
      simp only [callbackUrl, allowed, found, ← spends, Bool.not_true, Bool.false_eq_true, if_false] at built ⊢
      split_ifs at built ⊢
      exact ⟨_, rfl⟩
    obtain ⟨url', built'⟩ := built'
    have named : params' = params → url' = url := by
      rintro rfl
      exact Except.ok.inj (built'.symm.trans built)
    rw [built']
    exact .ok ⟨(sends_of_callbackUrl keeps origin built).admitted,
      (sends_of_callbackUrl keeps origin built').admitted, named⟩
  | error error =>
    have built' : C.callbackUrl callback params' = .error error := by
      simp only [callbackUrl, ← spends] at built ⊢
      split_ifs at built ⊢
      · exact built
      · exact built
      · split at built
        · exact built
        · cases built
    rw [built']
    exact .error (Error.mapSecrets_of_newSecrets (Error.newSecrets_eq_nil (bare_of_refused (callbackUrl_error built)))).symm

/-- A builder whose outputs are settled ends with its callback's URL. -/
theorem Crates.swapsRequest_of_callbackUrl (keeps : C.url.KeepsPairs) (origin : C.url.KeepsOrigin)
    {params params' : List (Str × Str)} {secrets outputs outputs' : List Str}
    (spends : params.any (fun pair => decide (pair.1 = "k1".toList)) =
      params'.any fun pair => decide (pair.1 = "k1".toList))
    (named : C.SameHashes swap → params' = params) (keyed : outputs.map C.isKeyOutput = outputs'.map C.isKeyOutput) :
    SwappedOutcome swap (C.SwapsRequest swap)
      (C.callbackUrl callback params >>= fun url => pure { url, newSecrets := secrets, outputs })
      (C.callbackUrl callback params' >>= fun url => pure { url, newSecrets := secrets.map swap, outputs := outputs' }) :=
  (callbackUrl_alike keeps origin spends).bind fun _ _ allowed =>
    .ok ⟨allowed.1, allowed.2.1, fun same => allowed.2.2 (named same), rfl, keyed⟩

theorem Crates.rotateRequest_alike (keeps : C.url.KeepsPairs) (origin : C.url.KeepsOrigin) (usable : C.Usable secret)
    (usable' : C.Usable (swap secret)) :
    SwappedOutcome swap (C.SwapsRequest swap) (C.rotateRequest callback k1 secret)
      (C.rotateRequest callback k1 (swap secret)) := by
  obtain ⟨h, hashed, bearer⟩ := usable.hash
  obtain ⟨h', hashed', bearer'⟩ := usable'.hash
  simp only [rotateRequest, rotateRequestWithHash, hashed, hashed', outputParam_bearer bearer, outputParam_bearer bearer',
    ok_bind, bind_assoc, pure_bind]
  exact swapsRequest_of_callbackUrl keeps origin rfl (fun same => by rw [same.hash_eq hashed hashed'])
    (by simp [bearer.bearer, bearer'.bearer])

theorem Crates.mergeRequest_alike (keeps : C.url.KeepsPairs) (origin : C.url.KeepsOrigin) (usable : C.Usable secret)
    (usable' : C.Usable (swap secret)) :
    SwappedOutcome swap (C.SwapsRequest swap) (C.mergeRequest callback k1s secret)
      (C.mergeRequest callback k1s (swap secret)) := by
  obtain ⟨h, hashed, bearer⟩ := usable.hash
  obtain ⟨h', hashed', bearer'⟩ := usable'.hash
  simp only [mergeRequest, mergeRequestWithHash, hashed, hashed', outputParam_bearer bearer, outputParam_bearer bearer',
    ok_bind, bind_assoc, pure_bind]
  exact swapsRequest_of_callbackUrl keeps origin (by simp) (fun same => by rw [same.hash_eq hashed hashed'])
    (by simp [bearer.bearer, bearer'.bearer])

theorem Crates.splitRequest_alike (keeps : C.url.KeepsPairs) (origin : C.url.KeepsOrigin) {change : Str}
    (usable : C.Usable secret) (usable' : C.Usable (swap secret)) (usableChange : C.Usable change)
    (usableChange' : C.Usable (swap change)) :
    SwappedOutcome swap (C.SwapsRequest swap) (C.splitRequest callback k1s amountMsat secret change)
      (C.splitRequest callback k1s amountMsat (swap secret) (swap change)) := by
  obtain ⟨h, hashed, bearer⟩ := usable.hash
  obtain ⟨h', hashed', bearer'⟩ := usable'.hash
  obtain ⟨h2, hashed2, bearer2⟩ := usableChange.hash
  obtain ⟨h2', hashed2', bearer2'⟩ := usableChange'.hash
  simp only [splitRequest, splitRequestWithHash, hashed, hashed', hashed2, hashed2', outputParam_bearer bearer,
    outputParam_bearer bearer', outputParam_bearer bearer2, outputParam_bearer bearer2', ok_bind, bind_assoc, pure_bind]
  exact swapsRequest_of_callbackUrl keeps origin (by simp)
    (fun same => by rw [same.hash_eq hashed hashed', same.hash_eq hashed2 hashed2'])
    (by simp [bearer.bearer, bearer'.bearer, bearer2.bearer, bearer2'.bearer])

end Built

/-! ### The calls -/

/-- An answer, and the same one with the secrets the call drew swapped. What
settling keeps of the note it was given is kept as it was. -/
def ClientCall.Swaps (swap : Str → Str) : (call : ClientCall) → call.Answer → call.Answer → Prop
  | rotateNote .. | mergeNotes .. =>
    SwappedOutcome swap fun outcome outcome' => outcome' = { outcome with k1 := swap outcome.k1 }
  | splitNote .. => SwappedOutcome swap fun outcome outcome' =>
    outcome' = { outcome with k1 := swap outcome.k1, change := swap outcome.change }
  | settleNote _ k1 _ _ => SwappedOutcome swap fun note note' =>
    note' = { note with k1 := swap note.k1 } ∨ note.k1 = k1 ∧ note' = note
  | _ => Eq

section Calls

variable {callback k1 : Str} {read : Str → Option (List (List Value))}

theorem Crates.run_self (request : Request) :
    Lockstep (C.swapping swap) Eq (C.run config request) (C.run config request) := by
  unfold Crates.run
  split
  · exact .done rfl
  · refine Lockstep.query_bind (fun _ => rfl) ?_
    rintro reply reply' rfl
    exact .done rfl

theorem Crates.askFor_self {α : Type} (built : Except Error Request) (parse : Value → Except Error α) :
    Lockstep (C.swapping swap) Eq (C.askFor config built parse) (C.askFor config built parse) := by
  unfold Crates.askFor
  split
  · exact .done rfl
  · exact (run_self _).map fun body body' same => by rw [same]

theorem Crates.attempt_self (request : Request) :
    Lockstep (C.swapping swap) Eq (C.attempt config kind request) (C.attempt config kind request) :=
  (run_self request).map fun body body' same => by rw [same]

theorem Crates.mutate_self {α : Type} (built : Except Error Request) (outcome : MutationResponse → α) :
    Lockstep (C.swapping swap) Eq (C.mutate config built kind outcome) (C.mutate config built kind outcome) := by
  unfold Crates.mutate
  split
  · exact .done rfl
  · exact ((attempt_self _).retry_self _).map fun response response' same => by rw [same]

theorem Crates.fetchNoteInfo_self (url : Str) :
    Lockstep (C.swapping swap) Eq (C.fetchNoteInfo config url) (C.fetchNoteInfo config url) := by
  rw [C.fetchNoteInfo_eq]
  exact askFor_self _ _

theorem Crates.rotateNote_lockstep (keeps : C.url.KeepsPairs) (origin : C.url.KeepsOrigin) :
    Lockstep (C.swapping swap)
      (SwappedOutcome swap fun outcome outcome' => outcome' = { outcome with k1 := swap outcome.k1 })
      (C.rotateNote config callback k1) (C.rotateNote config callback k1) := by
  refine Lockstep.query_bind trivial ?_
  rintro fresh _ ⟨usable, usable', rfl⟩
  exact mutate_lockstep (rotateRequest_alike keeps origin usable usable') fun _ => rfl

theorem settled_swapped {info : WithdrawRequestInfo} {signature : Option Str}
    {rotated rotated' : Except Error RotateOutcome}
    (swapped : SwappedOutcome swap (fun outcome outcome' => outcome' = { outcome with k1 := swap outcome.k1 })
      rotated rotated') :
    SwappedOutcome swap (fun note note' => note' = { note with k1 := swap note.k1 } ∨ note.k1 = k1 ∧ note' = note)
      (settled info k1 signature rotated) (settled info k1 signature rotated') := by
  cases swapped with
  | ok same =>
    subst same
    exact .ok (Or.inl rfl)
  | error same =>
    subst same
    simp only [settled, Error.burnsNothing_mapSecrets]
    split
    · exact .ok (Or.inr ⟨rfl, rfl⟩)
    · exact .error rfl

theorem Crates.settleNote_lockstep (keeps : C.url.KeepsPairs) (origin : C.url.KeepsOrigin) {baseUrl : Str}
    {amountMsat : UInt64} {signature : Option Str} :
    Lockstep (C.swapping swap)
      (SwappedOutcome swap fun note note' => note' = { note with k1 := swap note.k1 } ∨ note.k1 = k1 ∧ note' = note)
      (C.settleNote config baseUrl k1 amountMsat signature) (C.settleNote config baseUrl k1 amountMsat signature) := by
  unfold Crates.settleNote
  split
  · exact .done (.error rfl)
  · refine (fetchNoteInfo_self _).ran.bind ?_
    rintro fetched fetched' ⟨rfl, _, asked⟩
    cases fetched with
    | error error => exact .done (.error (Error.mapSecrets_of_newSecrets (fetchNoteInfo_error asked)).symm)
    | ok info => exact (rotateNote_lockstep keeps origin).map fun rotated rotated' swapped => settled_swapped swapped

theorem Crates.perform_lockstep (keeps : C.url.KeepsPairs) (origin : C.url.KeepsOrigin) (call : ClientCall) :
    Lockstep (C.swapping swap) (call.Swaps swap) (C.perform read config call) (C.perform read config call) := by
  cases call with
  | fetchNoteInfo url => exact fetchNoteInfo_self url
  | fetchNoteInfoByHash withdrawLink h => exact askFor_self _ _
  | fetchMintAddress url => exact askFor_self (mintAddressRequest url) parseMintAddress
  | meltNote callback k1 pr => exact mutate_self _ _
  | rotateNote callback k1 => exact rotateNote_lockstep keeps origin
  | splitNote callback k1s amountMsat =>
    refine Lockstep.query_bind trivial ?_
    rintro fresh _ ⟨usable, usable', rfl⟩
    refine Lockstep.query_bind trivial ?_
    rintro change _ ⟨usableChange, usableChange', rfl⟩
    exact mutate_lockstep (splitRequest_alike keeps origin usable usable' usableChange usableChange') fun _ => rfl
  | mergeNotes callback k1s =>
    refine Lockstep.query_bind trivial ?_
    rintro fresh _ ⟨usable, usable', rfl⟩
    exact mutate_lockstep (mergeRequest_alike keeps origin usable usable') fun _ => rfl
  | fetchPayRequest url => exact askFor_self (payRequestRequest url) (parsePayRequest read)
  | requestInvoice payCallback amountMsat => exact askFor_self _ _
  | requestMintInvoice payCallback amountMsat mintSecret => exact askFor_self _ _
  | fetchInvoiceVerification verifyUrl => exact askFor_self (verifyRequest verifyUrl) parseVerify
  | probeBurnedNote url =>
    refine (fetchNoteInfo_self url).map fun info info' same => ?_
    subst same
    rfl
  | settleNote baseUrl k1 expectedAmountMsat signature => exact settleNote_lockstep keeps origin

/-- GETs at the same points, answered alike, and the swapped secrets drawn. The
URLs are the same as well when the swapped secrets have the hashes of their own. -/
def Crates.Swapped (C : Crates) (swap : Str → Str) : Exchange → Exchange → Prop
  | ⟨.get url, reply⟩, ⟨.get url', reply'⟩ => (C.SameHashes swap → url' = url) ∧ reply' = reply
  | ⟨.freshSecret, secret⟩, ⟨.freshSecret, secret'⟩ => secret' = swap secret
  | _, _ => False

/-- The secrets a call draws are opaque to it: drawing others, it sends as many
GETs at the same points, and upon the same replies answers the same but for them.
And nothing but their hashes goes out: with others of the same hashes, the GETs are the same. -/
theorem Crates.secrets_are_opaque (swap : Str → Str) (keeps : C.url.KeepsPairs) (origin : C.url.KeepsOrigin)
    {call : ClientCall}
    {trace : List Exchange} {answer : call.Answer} (run : Dialogue.Runs (C.perform read config call) trace answer)
    (usable : ∀ secret, (⟨.freshSecret, secret⟩ : Exchange) ∈ trace → C.Usable secret ∧ C.Usable (swap secret)) :
    ∃ trace' answer', Dialogue.Runs (C.perform read config call) trace' answer' ∧
      List.Forall₂ (C.Swapped swap) trace trace' ∧ call.Swaps swap answer answer' := by
  have answered : ∀ event ∈ trace, ∀ question', (C.swapping swap).questions event.1 question' →
      ∃ answer', (C.swapping swap).answers event.1 question' event.2 answer' := by
    rintro ⟨question, heard⟩ member question' together
    cases question with
    | get url =>
      cases question' with
      | get url' => exact ⟨heard, rfl⟩
      | freshSecret => cases together
    | freshSecret =>
      cases question' with
      | get url' => cases together
      | freshSecret => exact ⟨swap heard, (usable heard member).1, (usable heard member).2, rfl⟩
  obtain ⟨trace', answer', run', alike, related⟩ := (perform_lockstep keeps origin call).forth run answered
  refine ⟨trace', answer', run', alike.imp ?_, related⟩
  rintro ⟨question, heard⟩ ⟨question', heard'⟩ ⟨together, same⟩
  cases question with
  | get url =>
    cases question' with
    | get url' => exact ⟨together, same⟩
    | freshSecret => cases together
  | freshSecret =>
    cases question' with
    | get url' => cases together
    | freshSecret => exact same.2.2

end Calls

set_option maxRecDepth 100000 in
theorem reference.usable_secrets : reference.Usable freshSecret ∧ reference.Usable zeroSecret :=
  ⟨⟨freshHash, by decide +kernel, by decide +kernel⟩, ⟨_, rfl, by decide +kernel⟩⟩

/-- The rotate whose answer was lost, with a one-byte secret in place of its own. -/
theorem reference.rotation_swapped : ∃ trace', Dialogue.Runs (reference.rotateNote {} mintCallback spentK1) trace'
    (.ok { k1 := zeroSecret, signature := none }) ∧ trace'.length = lostThenReplayed.length := by
  have run : Dialogue.Runs (reference.perform (fun _ => none) {} (.rotateNote mintCallback spentK1)) lostThenReplayed
      (.ok { k1 := freshSecret, signature := none }) := reference.rotateNote_lostThenReplayed
  have usable : ∀ secret, (⟨.freshSecret, secret⟩ : Exchange) ∈ lostThenReplayed →
      reference.Usable secret ∧ reference.Usable zeroSecret := by
    intro secret member
    have drawn : secret = freshSecret := by simpa [lostThenReplayed] using member
    rw [drawn]
    exact reference.usable_secrets
  obtain ⟨trace', answer', run', alike, swapped⟩ :=
    Crates.secrets_are_opaque (fun _ => zeroSecret) reference.keepsPairs reference.keepsOrigin run usable
  cases swapped with
  | ok same =>
    subst same
    exact ⟨trace', run', alike.length_eq.symm⟩

end LnurlCash
