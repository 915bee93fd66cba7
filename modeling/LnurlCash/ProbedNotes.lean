import LnurlCash.Lib.Network
import LnurlCash.SettledNotes

namespace LnurlCash

open Outcome

/-- A SERVICE as far as one note and one rotate of it go. -/
structure Mint where
  /-- the input note is neither spent nor burned -/
  outstanding : Bool
  /-- how often the rotate burned it and minted its output -/
  minted : Nat
  deriving DecidableEq

def Mint.rotate (mint : Mint) : Mint :=
  if mint.outstanding then { outstanding := false, minted := mint.minted + 1 } else mint

/-- A SERVICE that applies each delivered copy of the rotate it can, whatever
it answers, and answers every other GET from its current state. -/
def mintNetwork (rotateUrl : Str) : Network.Protocol Query Query.Answer Mint where
  serves
    | mint, .get url, after, reply =>
      ∃ body, reply = Reply.json body ∧
        if url = rotateUrl then after = mint.rotate else after = mint ∧ (classified body = .ok () ↔ mint.outstanding)
    | mint, .freshSecret, after, _ => after = mint
  fails
    | .get _, reply => ∀ body, reply ≠ Reply.json body
    | .freshSecret, _ => False

/-- A mutation, and a probe of its input note once it has ended. -/
def Crates.mutateThenProbe (C : Crates) (config : ClientConfig) (request : Request) (kind : MutationKind) (url : Str) :
    Session (Except Error MutationResponse × NoteFate) := do
  let outcome ← C.runMutation config request kind
  let fate ← C.probeBurnedNote config url
  pure (outcome, fate)

abbrev MintWorld := Network.World Query Query.Answer Mint (Except Error MutationResponse × NoteFate)

variable {C : Crates} {config : ClientConfig} {request info : Request} {kind : MutationKind} {url : Str}

theorem Crates.parseNoteInfo_accepted {body : Value} {queried : Str} {policy : Policy} {parsed : WithdrawRequestInfo}
    (read : C.parseNoteInfo body queried policy = .ok parsed) : classified body = .ok () := by
  simp only [Crates.parseNoteInfo, bind_eq_ok] at read
  obtain ⟨_, accepted, _⟩ := read
  exact accepted

/-- A live verdict comes from one GET, answered with a body that is no refusal. -/
theorem Crates.runs_probe_live {trace : List Exchange}
    (run : Dialogue.Runs (C.probeBurnedNote config url) trace .live) :
    ∃ request body, C.noteInfoRequest url = .ok request ∧ trace = [⟨.get request.url, .json body⟩] ∧
      classified body = .ok () := by
  obtain ⟨fetched, fetches, fate⟩ := Dialogue.runs_bind_pure.mp run
  cases fetched with
  | error error => cases error <;> cases fate
  | ok parsed =>
    obtain ⟨request, body, asks, rfl, read⟩ := runs_fetchNoteInfo fetches
    exact ⟨request, body, asks, rfl, parseNoteInfo_accepted read⟩

/-- The last thing a mutation probed live heard is the probe's answer. -/
theorem Crates.runs_mutateThenProbe_live {trace : List Exchange} {last : Exchange}
    {outcome : Except Error MutationResponse} (asks : C.noteInfoRequest url = .ok info)
    (run : Dialogue.Runs (C.mutateThenProbe config request kind url) (trace ++ [last]) (outcome, .live)) :
    ∃ body, last = ⟨.get info.url, .json body⟩ ∧ classified body = .ok () := by
  obtain ⟨first, rest, ended, split, _, continued⟩ := Dialogue.runs_bind.mp run
  obtain ⟨fate, probes, same⟩ := Dialogue.runs_bind_pure.mp continued
  cases same
  obtain ⟨asked, body, named, rfl, accepted⟩ := runs_probe_live probes
  cases Except.ok.inj (named.symm.trans asks)
  have last := (List.append_inj' split rfl).2
  exact ⟨body, List.singleton_inj.mp last, accepted⟩

/-- The probe was answered by a SERVICE whose note is still outstanding. -/
theorem outstanding_of_live {α : Type} {before after : Network.World Query Query.Answer Mint α} {body : Value}
    (step : Network.Step (mintNetwork request.url) before (some ⟨.get info.url, .json body⟩) after)
    (apart : info.url ≠ request.url) (accepted : classified body = .ok ()) : after.server.outstanding := by
  cases step with
  | answered served =>
    obtain ⟨other, same, answered⟩ := served
    cases same
    rw [if_neg apart] at answered
    obtain ⟨rfl, informs⟩ := answered
    exact informs.mp accepted
  | delayed failed => exact absurd rfl (failed body)

theorem Mint.rotate_minted {mint : Mint} (outstanding : mint.outstanding) : mint.rotate.minted = mint.minted + 1 := by
  rw [Mint.rotate, if_pos outstanding]

/-- A live probe is the last word on a rotate exactly when no copy of it is
still in flight as the probe's answer is read. -/
theorem Crates.live_is_final_iff {start before after : MintWorld}
    {trace : List Exchange} {event : Exchange} {outcome : Except Error MutationResponse}
    (began : start.program = C.mutateThenProbe config request kind url) (asks : C.noteInfoRequest url = .ok info)
    (apart : info.url ≠ request.url) (reach : Network.Reaches (mintNetwork request.url) start trace before)
    (probed : Network.Step (mintNetwork request.url) before (some event) after)
    (ended : after.program = .done (outcome, .live)) :
    (∀ further later, Network.Reaches (mintNetwork request.url) after further later →
      later.server.minted = after.server.minted) ↔ Query.get request.url ∉ after.flight := by
  have finished : Dialogue.Runs after.program [] (outcome, .live) := ended ▸ .done
  have heard := (reach.tail probed).runs finished
  rw [began, List.append_nil] at heard
  obtain ⟨body, rfl, accepted⟩ := runs_mutateThenProbe_live asks heard
  have outstanding := outstanding_of_live probed apart accepted
  constructor
  · intro final copy
    have served : (mintNetwork request.url).serves after.server (.get request.url) after.server.rotate (.json body) :=
      ⟨body, rfl, by rw [if_pos rfl]⟩
    obtain ⟨flight, delivered⟩ := Network.Reaches.deliver copy served
    have unchanged := final _ _ delivered
    rw [Mint.rotate_minted outstanding] at unchanged
    omega
  · intro landed further later continued
    refine continued.quiet ended fun question member server server' answer served => ?_
    cases question with
    | freshSecret => exact congrArg Mint.minted served
    | get other =>
      obtain ⟨_, _, answered⟩ := served
      have informs : other ≠ request.url := by
        rintro rfl
        exact landed member
      rw [if_neg informs] at answered
      exact congrArg Mint.minted answered.1

/-! The rotate at `mint.example` with both its answers timed out, and its note probed. -/

def timedOutTwice : List Exchange := [⟨.get rotation.url, .timedOut⟩, ⟨.get rotation.url, .timedOut⟩]

def probeAnswer : Exchange := ⟨.get notePage, .json noteInfoBody⟩

def timedOutError : Error :=
  .ambiguous "the service took too long to respond - its answer, if any, was lost".toList [freshSecret]

def untouchedMint : Mint where
  outstanding := true
  minted := 0

/-- The client about to rotate and probe, with nothing sent yet. -/
def rotationWorld : MintWorld := ⟨untouchedMint, [], reference.mutateThenProbe {} rotation .rotate notePage⟩

def probedWorld (flight : List Query) : MintWorld := ⟨untouchedMint, flight, .done (.error timedOutError, .live)⟩

set_option maxRecDepth 100000 in
theorem reference.noteInfoRequest_notePage :
    reference.noteInfoRequest notePage = .ok (Request.plain notePage) := by decide +kernel

theorem reference.runs_timedOutTwice :
    Dialogue.Runs (reference.runMutation {} rotation .rotate) timedOutTwice (.error timedOutError) := by
  have attempted := Crates.attempt_runs .rotate .timedOut reference.refusal_rotation
  exact Dialogue.runs_retry.mpr (.again attempted rfl (.again attempted rfl .exhausted))

set_option maxRecDepth 100000 in
theorem reference.runs_probe_notePage :
    Dialogue.Runs (reference.probeBurnedNote {} notePage) [probeAnswer] .live := by
  have allowed : reference.refusal {} (Request.plain notePage) = none := by decide +kernel
  have parsed : reference.parseNoteInfo noteInfoBody notePage {} = .ok noteInfo := by decide +kernel
  have answered : readReply (Request.plain notePage) (.json noteInfoBody) = .ok noteInfoBody := rfl
  have fetches := Crates.fetchNoteInfo_runs reference.noteInfoRequest_notePage allowed answered parsed
  exact Dialogue.runs_bind_pure.mpr ⟨_, fetches, rfl⟩

theorem reference.runs_rotationWorld :
    Dialogue.Runs rotationWorld.program (timedOutTwice ++ [probeAnswer]) (.error timedOutError, .live) :=
  Dialogue.runs_bind.mpr ⟨_, _, _, rfl, reference.runs_timedOutTwice,
    Dialogue.runs_bind_pure.mpr ⟨_, reference.runs_probe_notePage, rfl⟩⟩

theorem notePage_ne_rotation : notePage ≠ rotation.url := by decide +kernel

/-- The client gives up on both copies, and the probe finds the note outstanding. -/
theorem reference.rotationWorld_reaches :
    ∃ program, Network.Reaches (mintNetwork rotation.url) rotationWorld timedOutTwice
        ⟨untouchedMint, [.get rotation.url, .get rotation.url], program⟩ ∧
      ∀ flight, Network.Step (mintNetwork rotation.url) ⟨untouchedMint, flight, program⟩ (some probeAnswer)
        (probedWorld flight) := by
  have silent : ∀ event ∈ timedOutTwice, (mintNetwork rotation.url).fails event.1 event.2 := by
    intro event member
    rcases List.mem_cons.mp member with rfl | member
    · exact fun body => nofun
    · rw [List.mem_singleton.mp member]
      exact fun body => nofun
  obtain ⟨program, continues, reach⟩ :=
    Network.Reaches.of_delays reference.runs_rotationWorld silent untouchedMint []
  have served : (mintNetwork rotation.url).serves untouchedMint (.get notePage) untouchedMint (.json noteInfoBody) :=
    ⟨noteInfoBody, rfl, by rw [if_neg notePage_ne_rotation]; exact ⟨rfl, by decide⟩⟩
  exact ⟨program, reach, Network.Step.of_runs continues served⟩

/-- With both copies lost before the probe, the live verdict is final. -/
theorem reference.lost_copies_stay_lost :
    ¬∃ further later, Network.Reaches (mintNetwork rotation.url) (probedWorld []) further later ∧
      later.server.minted ≠ 0 := by
  obtain ⟨program, reach, probe⟩ := reference.rotationWorld_reaches
  rintro ⟨further, later, continued, applied⟩
  exact applied ((Crates.live_is_final_iff rfl reference.noteInfoRequest_notePage notePage_ne_rotation
    (reach.trans (Network.Reaches.drop_all _ _ _)) (probe []) rfl).mpr (by simp [probedWorld]) further later continued)

/-- The probe says live, and a copy of the rotate is delivered and applied after it. -/
theorem reference.late_copy_applies :
    ∃ before later, Network.Reaches (mintNetwork rotation.url) rotationWorld timedOutTwice before ∧
      Network.Step (mintNetwork rotation.url) before (some probeAnswer)
        (probedWorld [.get rotation.url, .get rotation.url]) ∧
      timedOutError.isAmbiguous ∧
      Network.Reaches (mintNetwork rotation.url) (probedWorld [.get rotation.url, .get rotation.url]) [] later ∧
      untouchedMint.minted = 0 ∧ later.server.minted = 1 := by
  obtain ⟨program, reach, probe⟩ := reference.rotationWorld_reaches
  have served : (mintNetwork rotation.url).serves untouchedMint (.get rotation.url) untouchedMint.rotate
      (.json .null) := ⟨.null, rfl, by rw [if_pos rfl]⟩
  have copy : Query.get rotation.url ∈ (probedWorld [.get rotation.url, .get rotation.url]).flight := List.mem_cons_self
  obtain ⟨flight, delivered⟩ := Network.Reaches.deliver copy served
  exact ⟨_, _, reach, probe _, rfl, delivered, rfl, rfl⟩

end LnurlCash
