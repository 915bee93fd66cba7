import LnurlCash.Lib.Dialogue

/-! A program in dialogue with a server over a network that delays, drops and
delivers late what the program sent. -/

namespace Network

/-- What a server may do with a question delivered to it, and what the
transport itself may answer in its place. -/
structure Protocol (Q : Type) (A : Q → Type) (S : Type) where
  serves : S → (question : Q) → S → A question → Prop
  fails : (question : Q) → A question → Prop

structure World (Q : Type) (A : Q → Type) (S α : Type) where
  server : S
  /-- copies sent whose sender has given up on them, not yet delivered or lost -/
  flight : List Q
  program : Dialogue Q A α

variable {Q : Type} {A : Q → Type} {S α β : Type} {P : Protocol Q A S}

/-- One event, with what the program heard if it heard anything. -/
inductive Step (P : Protocol Q A S) : World Q A S α → Option (Dialogue.Event Q A) → World Q A S α → Prop
  | answered {server server' flight question next answer} : P.serves server question server' answer →
      Step P ⟨server, flight, .ask question next⟩ (some ⟨question, answer⟩) ⟨server', flight, next answer⟩
  | delayed {server flight question next answer} : P.fails question answer →
      Step P ⟨server, flight, .ask question next⟩ (some ⟨question, answer⟩)
        ⟨server, question :: flight, next answer⟩
  | late {server server' before question after program answer} : P.serves server question server' answer →
      Step P ⟨server, before ++ question :: after, program⟩ none ⟨server', before ++ after, program⟩
  | dropped {server before question after program} :
      Step P ⟨server, before ++ question :: after, program⟩ none ⟨server, before ++ after, program⟩

inductive Reaches (P : Protocol Q A S) (start : World Q A S α) : List (Dialogue.Event Q A) → World Q A S α → Prop
  | refl : Reaches P start [] start
  | tail {trace before event after} : Reaches P start trace before → Step P before event after →
      Reaches P start (trace ++ event.toList) after

/-- A step leaves the program as it was, or takes it past the answer it heard. -/
theorem Step.program {before after : World Q A S α} {event : Option (Dialogue.Event Q A)}
    (step : Step P before event after) {rest : List (Dialogue.Event Q A)} {value : α}
    (run : Dialogue.Runs after.program rest value) : Dialogue.Runs before.program (event.toList ++ rest) value := by
  cases step with
  | answered _ => exact .ask run
  | delayed _ => exact .ask run
  | late _ => exact run
  | dropped => exact run

/-- What a program heard on the way is the beginning of a run of it. -/
theorem Reaches.runs {start world : World Q A S α} {trace : List (Dialogue.Event Q A)}
    (reach : Reaches P start trace world) {rest : List (Dialogue.Event Q A)} {value : α}
    (run : Dialogue.Runs world.program rest value) : Dialogue.Runs start.program (trace ++ rest) value := by
  induction reach generalizing rest with
  | refl => exact run
  | tail _ step ih =>
    rw [List.append_assoc]
    exact ih (step.program run)

/-- Once the program is done nothing more is sent. -/
theorem Reaches.flight_sublist {start world : World Q A S α} {trace : List (Dialogue.Event Q A)} {value : α}
    (reach : Reaches P start trace world) (finished : start.program = .done value) :
    world.program = .done value ∧ world.flight.Sublist start.flight := by
  induction reach with
  | refl => exact ⟨finished, List.Sublist.refl _⟩
  | tail _ step ih =>
    obtain ⟨done, fewer⟩ := ih
    cases step with
    | answered _ => cases done
    | delayed _ => cases done
    | late _ => exact ⟨done, (List.Sublist.append_left (List.sublist_cons_self _ _) _).trans fewer⟩
    | dropped => exact ⟨done, (List.Sublist.append_left (List.sublist_cons_self _ _) _).trans fewer⟩

/-- What no copy in flight can change stays as the finished program left it. -/
theorem Reaches.quiet {start world : World Q A S α} {trace : List (Dialogue.Event Q A)} {value : α} {view : S → β}
    (reach : Reaches P start trace world) (finished : start.program = .done value)
    (kept : ∀ question ∈ start.flight, ∀ server server' answer, P.serves server question server' answer →
      view server' = view server) : view world.server = view start.server := by
  induction reach with
  | refl => rfl
  | tail previous step ih =>
    obtain ⟨done, fewer⟩ := previous.flight_sublist finished
    cases step with
    | answered _ => cases done
    | delayed _ => cases done
    | late served => exact (kept _ (fewer.subset (by simp)) _ _ _ served).trans ih
    | dropped => exact ih

/-- A copy in flight may be delivered at any time. -/
theorem Reaches.deliver {world : World Q A S α} {question : Q} (copy : question ∈ world.flight) {server : S}
    {answer : A question} (served : P.serves world.server question server answer) :
    ∃ flight, Reaches P world [] ⟨server, flight, world.program⟩ := by
  obtain ⟨before, after, split⟩ := List.append_of_mem copy
  obtain ⟨_, flight, _⟩ := world
  subst split
  exact ⟨before ++ after, .tail .refl (.late served)⟩

theorem Reaches.trans {start middle world : World Q A S α} {first second : List (Dialogue.Event Q A)}
    (reach : Reaches P start first middle) (further : Reaches P middle second world) :
    Reaches P start (first ++ second) world := by
  induction further with
  | refl => rwa [List.append_nil]
  | tail _ step ih =>
    rw [← List.append_assoc]
    exact .tail ih step

/-- A run that hears only the transport leaves every copy it sent in flight. -/
theorem Reaches.of_delays {program : Dialogue Q A α} {trace rest : List (Dialogue.Event Q A)} {value : α}
    (run : Dialogue.Runs program (trace ++ rest) value) (failures : ∀ event ∈ trace, P.fails event.1 event.2)
    (server : S) (flight : List Q) :
    ∃ program', Dialogue.Runs program' rest value ∧
      Reaches P ⟨server, flight, program⟩ trace ⟨server, (trace.map Sigma.fst).reverse ++ flight, program'⟩ := by
  induction trace generalizing program flight with
  | nil => exact ⟨program, run, .refl⟩
  | cons event trace ih =>
    cases run with
    | @ask question next answer _ _ run =>
      obtain ⟨program', continues, reach⟩ := ih run (fun other member => failures other (List.mem_cons_of_mem _ member))
        (question :: flight)
      have first : Reaches P ⟨server, flight, .ask question next⟩ [⟨question, answer⟩]
          ⟨server, question :: flight, next answer⟩ := .tail .refl (.delayed (failures _ List.mem_cons_self))
      exact ⟨program', continues, by simpa using first.trans reach⟩

/-- A program with one answer to hear is done once the server gives it. -/
theorem Step.of_runs {program : Dialogue Q A α} {question : Q} {answer : A question} {value : α} {server server' : S}
    (run : Dialogue.Runs program [⟨question, answer⟩] value) (served : P.serves server question server' answer)
    (flight : List Q) :
    Step P ⟨server, flight, program⟩ (some ⟨question, answer⟩) ⟨server', flight, .done value⟩ := by
  cases run with
  | @ask _ next _ _ _ rest =>
    have ended : next answer = .done value := by
      generalize next answer = program at rest
      cases rest
      rfl
    rw [← ended]
    exact .answered served

/-- A program goes on with what the server answers it. -/
theorem Step.answers {program : Dialogue Q A α} {question : Q} {answer : A question} {rest : List (Dialogue.Event Q A)}
    {value : α} {server server' : S} (run : Dialogue.Runs program (⟨question, answer⟩ :: rest) value)
    (served : P.serves server question server' answer) (flight : List Q) :
    ∃ program', Dialogue.Runs program' rest value ∧
      Step P ⟨server, flight, program⟩ (some ⟨question, answer⟩) ⟨server', flight, program'⟩ := by
  cases run with
  | ask run => exact ⟨_, run, .answered served⟩

/-- Everything in flight may be lost. -/
theorem Reaches.drop_all (server : S) (flight : List Q) (program : Dialogue Q A α) :
    Reaches P ⟨server, flight, program⟩ [] ⟨server, [], program⟩ := by
  induction flight with
  | nil => exact .refl
  | cons question flight ih =>
    have first : Reaches P ⟨server, question :: flight, program⟩ [] ⟨server, flight, program⟩ :=
      .tail .refl (@Step.dropped Q A S α P server [] question flight program)
    exact first.trans ih

end Network
