import Mathlib.Tactic.Common

/-- A program that asks its environment questions and is answered one at a
time. Nothing is assumed about the answers. -/
inductive Dialogue (Q : Type) (A : Q → Type) (α : Type) where
  | done (value : α)
  | ask (question : Q) (next : A question → Dialogue Q A α)

namespace Dialogue

variable {Q : Type} {A : Q → Type} {α β : Type}

abbrev Event (Q : Type) (A : Q → Type) := (question : Q) × A question

def bind : Dialogue Q A α → (α → Dialogue Q A β) → Dialogue Q A β
  | done value, f => f value
  | ask question next, f => ask question fun answer => (next answer).bind f

instance : Monad (Dialogue Q A) where
  pure := done
  bind := bind

def query (question : Q) : Dialogue Q A (A question) := ask question done

/-- `Runs d trace value`: some environment gives the answers in `trace`, in
order, and `d` then ends with `value`. -/
inductive Runs : Dialogue Q A α → List (Event Q A) → α → Prop
  | done {value} : Runs (done value) [] value
  | ask {question next answer trace value} : Runs (next answer) trace value →
      Runs (ask question next) (⟨question, answer⟩ :: trace) value

/-- Repeats `attempt` at most `count` times. An outcome `verdict` accepts ends
the loop; any other is the last failure, and `giveUp` has the last word. -/
def retry {ε : Type} (attempt : Dialogue Q A α) (verdict : α → Except ε β) (giveUp : Option ε → β) :
    (count : Nat) → Option ε → Dialogue Q A β
  | 0, last => done (giveUp last)
  | count + 1, _ => attempt.bind fun outcome =>
    match verdict outcome with
    | .ok result => done result
    | .error failure => retry attempt verdict giveUp count (some failure)

inductive Retried {ε : Type} (attempt : Dialogue Q A α) (verdict : α → Except ε β) (giveUp : Option ε → β) :
    (count : Nat) → Option ε → List (Event Q A) → β → Prop
  | exhausted {last} : Retried attempt verdict giveUp 0 last [] (giveUp last)
  | settled {count last trace outcome result} : Runs attempt trace outcome → verdict outcome = .ok result →
      Retried attempt verdict giveUp (count + 1) last trace result
  | again {count last trace outcome failure rest result} : Runs attempt trace outcome →
      verdict outcome = .error failure → Retried attempt verdict giveUp count (some failure) rest result →
      Retried attempt verdict giveUp (count + 1) last (trace ++ rest) result

@[simp] theorem runs_pure {value result : α} {trace : List (Event Q A)} :
    Runs (pure value : Dialogue Q A α) trace result ↔ trace = [] ∧ result = value := by
  constructor
  · intro run
    cases run
    exact ⟨rfl, rfl⟩
  · rintro ⟨rfl, rfl⟩
    exact .done

@[simp] theorem runs_ask {question : Q} {next : A question → Dialogue Q A α} {trace : List (Event Q A)} {value : α} :
    Runs (ask question next) trace value ↔
      ∃ answer rest, trace = ⟨question, answer⟩ :: rest ∧ Runs (next answer) rest value := by
  constructor
  · intro run
    cases run with
    | ask rest => exact ⟨_, _, rfl, rest⟩
  · rintro ⟨answer, rest, rfl, run⟩
    exact .ask run

/-- A run of a sequence is a run of the first part followed by a run of what
its value continues with. -/
theorem runs_bind {d : Dialogue Q A α} {f : α → Dialogue Q A β} {trace : List (Event Q A)} {result : β} :
    Runs (d >>= f) trace result ↔
      ∃ before after value, trace = before ++ after ∧ Runs d before value ∧ Runs (f value) after result := by
  change Runs (bind d f) trace result ↔ _
  induction d generalizing trace with
  | done value =>
    constructor
    · intro run
      exact ⟨[], trace, value, rfl, .done, run⟩
    · rintro ⟨before, after, other, rfl, first, second⟩
      cases first
      exact second
  | ask question next ih =>
    simp only [bind, runs_ask]
    constructor
    · rintro ⟨answer, rest, rfl, run⟩
      obtain ⟨before, after, value, rfl, first, second⟩ := (ih answer).mp run
      exact ⟨⟨question, answer⟩ :: before, after, value, rfl, ⟨answer, before, rfl, first⟩, second⟩
    · rintro ⟨before, after, value, rfl, ⟨answer, rest, rfl, first⟩, second⟩
      exact ⟨answer, rest ++ after, rfl, (ih answer).mpr ⟨rest, after, value, rfl, first, second⟩⟩

@[simp] theorem runs_query {question : Q} {trace : List (Event Q A)} {answer : A question} :
    Runs (query question) trace answer ↔ trace = [⟨question, answer⟩] := by
  constructor
  · intro run
    obtain ⟨given, rest, rfl, finished⟩ := runs_ask.mp run
    cases finished
    rfl
  · rintro rfl
    exact .ask .done

theorem runs_query_bind {question : Q} {f : A question → Dialogue Q A β} {trace : List (Event Q A)} {result : β} :
    Runs (query question >>= f) trace result ↔
      ∃ answer rest, trace = ⟨question, answer⟩ :: rest ∧ Runs (f answer) rest result := runs_ask

/-- What is only computed at the end takes no question. -/
theorem runs_bind_pure {d : Dialogue Q A α} {g : α → β} {trace : List (Event Q A)} {result : β} :
    Runs (d >>= fun value => pure (g value)) trace result ↔ ∃ value, Runs d trace value ∧ result = g value := by
  rw [runs_bind]
  constructor
  · rintro ⟨before, after, value, rfl, run, finished⟩
    obtain ⟨rfl, same⟩ := runs_pure.mp finished
    exact ⟨value, by rwa [List.append_nil], same⟩
  · rintro ⟨value, run, same⟩
    exact ⟨trace, [], value, by rw [List.append_nil], run, runs_pure.mpr ⟨rfl, same⟩⟩

theorem runs_retry {ε : Type} {attempt : Dialogue Q A α} {verdict : α → Except ε β} {giveUp : Option ε → β}
    {count : Nat} {last : Option ε} {trace : List (Event Q A)} {result : β} :
    Runs (retry attempt verdict giveUp count last) trace result ↔
      Retried attempt verdict giveUp count last trace result := by
  constructor
  · intro run
    induction count generalizing last trace with
    | zero =>
      cases run
      exact .exhausted
    | succ count ih =>
      obtain ⟨before, after, outcome, rfl, first, second⟩ := runs_bind.mp run
      cases decision : verdict outcome with
      | ok value =>
        rw [decision] at second
        cases second
        rw [List.append_nil]
        exact .settled first decision
      | error failure =>
        rw [decision] at second
        exact .again first decision (ih second)
  · intro retried
    induction retried with
    | exhausted => exact .done
    | @settled count last trace outcome result first decision =>
      refine runs_bind.mpr ⟨trace, [], outcome, by simp, first, ?_⟩
      rw [decision]
      exact .done
    | @again count last trace outcome failure rest result first decision _ ih =>
      refine runs_bind.mpr ⟨trace, rest, outcome, rfl, first, ?_⟩
      rw [decision]
      exact ih

end Dialogue
