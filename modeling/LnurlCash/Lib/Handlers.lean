import LnurlCash.Lib.Dialogue
import Mathlib.Algebra.GroupWithZero.Nat

/-! Programs whose questions are answered by running other programs. -/

namespace Dialogue

variable {P Q : Type} {B : P → Type} {A : Q → Type} {α : Type} {handler : (call : P) → Dialogue Q A (B call)}

/-- Each call of the program runs its handler, and goes on with what that returns. -/
def interpret (handler : (call : P) → Dialogue Q A (B call)) : Dialogue P B α → Dialogue Q A α
  | done value => done value
  | ask call next => (handler call).bind fun answer => interpret handler (next answer)

/-- Calls, each answered by a run of its handler, and what these runs asked, one after the other. -/
inductive Handled (handler : (call : P) → Dialogue Q A (B call)) : List (Event P B) → List (Event Q A) → Prop
  | nil : Handled handler [] []
  | cons {call answer part calls trace} : Runs (handler call) part answer → Handled handler calls trace →
      Handled handler (⟨call, answer⟩ :: calls) (part ++ trace)

theorem runs_interpret {program : Dialogue P B α} {trace : List (Event Q A)} {value : α} :
    Runs (interpret handler program) trace value ↔ ∃ calls, Handled handler calls trace ∧ Runs program calls value := by
  induction program generalizing trace with
  | done result =>
    constructor
    · intro run
      cases run
      exact ⟨[], .nil, .done⟩
    · rintro ⟨calls, handled, run⟩
      cases run
      cases handled
      exact .done
  | ask call next ih =>
    constructor
    · intro run
      obtain ⟨part, rest, answer, rfl, first, second⟩ := runs_bind.mp run
      obtain ⟨calls, handled, continues⟩ := (ih answer).mp second
      exact ⟨⟨call, answer⟩ :: calls, .cons first handled, .ask continues⟩
    · rintro ⟨calls, handled, run⟩
      cases run with
      | ask continues =>
        cases handled with
        | cons first handled =>
          exact runs_bind.mpr ⟨_, _, _, rfl, first, (ih _).mpr ⟨_, handled, continues⟩⟩

section Handled

variable {calls : List (Event P B)} {trace : List (Event Q A)}

/-- Budgets of the calls add up to a budget of the run. -/
theorem Handled.countP_le {counted : Event Q A → Bool} {budget : P → Nat} (handled : Handled handler calls trace)
    (each : ∀ call part answer, Runs (handler call) part answer → part.countP counted ≤ budget call) :
    trace.countP counted ≤ (calls.map fun call => budget call.1).sum := by
  induction handled with
  | nil => simp
  | cons first _ ih =>
    rw [List.countP_append, List.map_cons, List.sum_cons]
    exact Nat.add_le_add (each _ _ _ first) ih

/-- The event between `front` and `back` was asked by this call, in this part of the trace. -/
def AskedBy (handler : (call : P) → Dialogue Q A (B call)) (calls : List (Event P B)) (front : List (Event Q A))
    (event : Event Q A) (back : List (Event Q A)) (call : P) (answer : B call) (part : List (Event Q A)) : Prop :=
  ∃ earlier later before ahead behind after, calls = earlier ++ ⟨call, answer⟩ :: later ∧
    Handled handler earlier before ∧ Runs (handler call) part answer ∧ Handled handler later after ∧
    front = before ++ ahead ∧ part = ahead ++ event :: behind ∧ back = behind ++ after

/-- Whatever was asked, one of the calls asked it. -/
theorem Handled.asked {event : Event Q A} {front back : List (Event Q A)} (handled : Handled handler calls trace)
    (split : trace = front ++ event :: back) : ∃ call answer part, AskedBy handler calls front event back call answer part := by
  induction handled generalizing front with
  | nil => simp at split
  | @cons call answer part calls trace first rest ih =>
    have later : ∀ more, front = part ++ more → trace = more ++ event :: back → ∃ other given within,
        AskedBy handler (⟨call, answer⟩ :: calls) front event back other given within := by
      rintro more rfl remaining
      obtain ⟨other, given, within, earlier, after, before, ahead, behind, done, rfl, made, run, rest', rfl, inside, rfl⟩ :=
        ih remaining
      exact ⟨other, given, within, _ :: earlier, after, part ++ before, ahead, behind, done, rfl, .cons first made, run,
        rest', (List.append_assoc ..).symm, inside, rfl⟩
    rcases List.append_eq_append_iff.mp split with ⟨more, behind, remaining⟩ | ⟨inside, ahead, remaining⟩
    · exact later more behind remaining
    · cases inside with
      | nil => exact later [] (by simpa using ahead.symm) remaining.symm
      | cons head tail =>
        obtain ⟨rfl, rfl⟩ := List.cons.inj remaining
        exact ⟨call, answer, part, [], calls, [], front, tail, trace, rfl, .nil, first, rest, rfl, ahead, rfl⟩

/-- Each call made is a run of its handler, and what that asked is part of the whole. -/
theorem Handled.of_call {call : P} {answer : B call} (handled : Handled handler calls trace)
    (made : ⟨call, answer⟩ ∈ calls) : ∃ part, Runs (handler call) part answer ∧ part ⊆ trace := by
  induction handled with
  | nil => cases made
  | @cons _ _ part calls trace first _ ih =>
    rcases List.mem_cons.mp made with same | later
    · cases same
      exact ⟨part, first, List.subset_append_left _ _⟩
    · obtain ⟨part, run, within⟩ := ih later
      exact ⟨part, run, List.Subset.trans within (List.subset_append_right _ _)⟩

end Handled

end Dialogue
