import LnurlCash.Lib.Network
import Mathlib.Data.List.Nodup

/-! A server that answers a message it has applied as it did the first time. -/

namespace Replay

variable {S M R : Type}

/-- A server, and the messages it applied with what it answered them, latest first. -/
structure Log (S M R : Type) where
  state : S
  answered : List (M × R)

def Log.messages (log : Log S M R) : List M := log.answered.map Prod.fst

/-- What applying a message does and answers, what a message that is not
applied may be answered, and what else may become of the server. -/
structure Rules (S M R : Type) where
  applies : S → M → S → R → Prop
  declines : S → M → R → Prop
  drifts : S → S → Prop

/-- One message delivered and answered. -/
inductive Serves (rules : Rules S M R) : Log S M R → M → Log S M R → R → Prop
  | replayed {log message reply} : (message, reply) ∈ log.answered → Serves rules log message log reply
  | applied {log message state reply} : message ∉ log.messages → rules.applies log.state message state reply →
      Serves rules log message ⟨state, (message, reply) :: log.answered⟩ reply
  | declined {log message reply} : message ∉ log.messages → rules.declines log.state message reply →
      Serves rules log message log reply

/-- What may happen at the server between two deliveries; `others` is what
everyone else may send it. -/
inductive Evolves (rules : Rules S M R) (others : M → Prop) (start : Log S M R) : Log S M R → Prop
  | refl : Evolves rules others start start
  | drifted {log state} : Evolves rules others start log → rules.drifts log.state state →
      Evolves rules others start ⟨state, log.answered⟩
  | served {log message after reply} : Evolves rules others start log → others message →
      Serves rules log message after reply → Evolves rules others start after

variable {rules : Rules S M R} {others : M → Prop} {before after log : Log S M R} {message other : M} {reply : R}

theorem Log.mem_messages (answered : (message, reply) ∈ log.answered) : message ∈ log.messages :=
  List.mem_map_of_mem answered

/-- A property of the server that drifting and every delivery keep. -/
structure Invariant (rules : Rules S M R) (I : Log S M R → Prop) : Prop where
  drifts : ∀ {log state}, I log → rules.drifts log.state state → I ⟨state, log.answered⟩
  applies : ∀ {log message state reply}, I log → message ∉ log.messages → rules.applies log.state message state reply →
    I ⟨state, (message, reply) :: log.answered⟩

theorem Invariant.serves {I : Log S M R → Prop} (invariant : Invariant rules I) (holds : I before)
    (served : Serves rules before message after reply) : I after := by
  cases served with
  | replayed _ => exact holds
  | applied unanswered applied => exact invariant.applies holds unanswered applied
  | declined _ _ => exact holds

theorem Invariant.evolves {I : Log S M R → Prop} (invariant : Invariant rules I) (holds : I before)
    (evolved : Evolves rules others before after) : I after := by
  induction evolved with
  | refl => exact holds
  | drifted _ drifted ih => exact invariant.drifts ih drifted
  | served _ _ served ih => exact invariant.serves ih served

/-- What has been answered is answered for good. -/
theorem mem_invariant (message : M) (reply : R) :
    Invariant rules fun log : Log S M R => (message, reply) ∈ log.answered where
  drifts holds _ := holds
  applies holds _ _ := List.mem_cons_of_mem _ holds

/-- A reply is what the message was answered when it was applied, or declines a
message that has not been applied. -/
theorem Serves.truthful (served : Serves rules before message after reply) :
    (message, reply) ∈ after.answered ∨ message ∉ after.messages ∧ rules.declines after.state message reply := by
  cases served with
  | replayed answered => exact Or.inl answered
  | applied _ _ => exact Or.inl List.mem_cons_self
  | declined unanswered declined => exact Or.inr ⟨unanswered, declined⟩

/-- A delivery leaves every other message as it was. -/
theorem Serves.mem_messages (served : Serves rules before message after reply) (apart : other ≠ message) :
    other ∈ after.messages ↔ other ∈ before.messages := by
  cases served with
  | replayed _ => rfl
  | applied _ _ => exact List.mem_cons.trans (or_iff_right apart)
  | declined _ _ => rfl

theorem Evolves.mem_messages (evolved : Evolves rules others before after) (ours : ¬others message) :
    message ∈ after.messages ↔ message ∈ before.messages := by
  induction evolved with
  | refl => rfl
  | drifted _ _ ih => exact ih
  | served _ theirs served ih =>
    refine (served.mem_messages ?_).trans ih
    rintro rfl
    exact ours theirs

section Network

variable {Q : Type} {A : Q → Type}

/-- How a program's questions carry messages to the server, and what an answer
to one says: a question that carries none is answered by the environment. -/
structure Carrier (Q : Type) (A : Q → Type) (M R : Type) where
  carries : Q → Option M
  hears : (question : Q) → A question → Option R
  fails : (question : Q) → A question → Prop
  unheard : ∀ question answer, fails question answer → hears question answer = none

/-- A replaying server behind a network, with others at work in between. -/
def network (rules : Rules S M R) (others : M → Prop) (carrier : Carrier Q A M R) :
    Network.Protocol Q A (Log S M R) where
  serves before question after answer := ∃ between, Evolves rules others before between ∧
    match carrier.carries question with
    | some message => ∃ reply, carrier.hears question answer = some reply ∧ Serves rules between message after reply
    | none => after = between
  fails := carrier.fails

variable {carrier : Carrier Q A M R} {α : Type}

theorem Invariant.network {I : Log S M R → Prop} (invariant : Invariant rules I) {question : Q} {answer : A question}
    (holds : I before) (served : (network rules others carrier).serves before question after answer) : I after := by
  obtain ⟨between, evolved, delivered⟩ := served
  have kept := invariant.evolves holds evolved
  split at delivered
  · obtain ⟨reply, _, delivered⟩ := delivered
    exact invariant.serves kept delivered
  · rwa [delivered]

theorem Invariant.step {I : Log S M R → Prop} (invariant : Invariant rules I) {before after : Network.World Q A (Log S M R) α}
    {event : Option (Dialogue.Event Q A)} (holds : I before.server)
    (step : Network.Step (Replay.network rules others carrier) before event after) : I after.server := by
  cases step with
  | answered served => exact invariant.network holds served
  | delayed _ => exact holds
  | late served => exact invariant.network holds served
  | dropped => exact holds

/-- An invariant of the server holds in every world a program reaches. -/
theorem Invariant.reaches {I : Log S M R → Prop} (invariant : Invariant rules I)
    {start world : Network.World Q A (Log S M R) α} {trace : List (Dialogue.Event Q A)} (holds : I start.server)
    (reach : Network.Reaches (Replay.network rules others carrier) start trace world) : I world.server := by
  induction reach with
  | refl => exact holds
  | tail _ step ih => exact invariant.step ih step

/-- Whatever a program has heard, the server still has on record, unless it was declined. -/
theorem heard_logged {start world : Network.World Q A (Log S M R) α} {trace : List (Dialogue.Event Q A)}
    (reach : Network.Reaches (Replay.network rules others carrier) start trace world) {question : Q} {answer : A question}
    (heard : ⟨question, answer⟩ ∈ trace) (carries : carrier.carries question = some message)
    (hears : carrier.hears question answer = some reply) :
    (message, reply) ∈ world.server.answered ∨ ∃ state, rules.declines state message reply := by
  induction reach with
  | refl => cases heard
  | @tail trace before event after _ step ih =>
    rcases List.mem_append.mp heard with early | last
    · exact (ih early).imp_left fun logged => (mem_invariant message reply).step logged step
    · cases step with
      | answered served =>
        cases List.mem_singleton.mp last
        obtain ⟨between, _, delivered⟩ := served
        rw [carries] at delivered
        obtain ⟨said, hears', delivered⟩ := delivered
        cases Option.some.inj (hears.symm.trans hears')
        exact delivered.truthful.imp_right fun declined => ⟨_, declined.2⟩
      | delayed failed =>
        cases List.mem_singleton.mp last
        cases (carrier.unheard _ _ failed).symm.trans hears
      | late _ => cases last
      | dropped => cases last

/-- Once the program is done, a message that is in no copy in flight and that
nobody else sends is never applied any more. -/
theorem messages_of_done {start world : Network.World Q A (Log S M R) α} {trace : List (Dialogue.Event Q A)}
    {value : α} (reach : Network.Reaches (Replay.network rules others carrier) start trace world)
    (finished : start.program = .done value) (ours : ¬others message)
    (landed : ∀ question ∈ start.flight, carrier.carries question ≠ some message) :
    message ∈ world.server.messages ↔ message ∈ start.server.messages := by
  let applied : Log S M R → Prop := fun log => message ∈ log.messages
  have quiet : applied world.server = applied start.server := by
    refine reach.quiet finished fun question member server server' answer served => ?_
    obtain ⟨between, evolved, delivered⟩ := served
    refine propext (Iff.trans ?_ (evolved.mem_messages ours))
    split at delivered
    · rename_i carried carries
      obtain ⟨reply, _, delivered⟩ := delivered
      refine delivered.mem_messages ?_
      rintro rfl
      exact landed question member carries
    · rw [delivered]
  exact iff_of_eq quiet

end Network

end Replay
