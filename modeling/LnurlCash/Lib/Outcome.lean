import Mathlib.Tactic.Common

namespace Outcome

variable {ε α β : Type}

def expect (error : ε) : Option α → Except ε α
  | some value => .ok value
  | none => .error error

def refuseIf (condition : Prop) [Decidable condition] (error : ε) : Except ε Unit :=
  if condition then .error error else .ok ()

theorem bind_eq_ok {x : Except ε α} {f : α → Except ε β} {value : β} :
    (x >>= f) = .ok value ↔ ∃ a, x = .ok a ∧ f a = .ok value := by
  cases x <;> simp [bind, Except.bind]

theorem ok_bind {a : α} {f : α → Except ε β} : (Except.ok a >>= f) = f a := rfl

theorem bind_eq_error {x : Except ε α} {f : α → Except ε β} {error : ε} :
    (x >>= f) = .error error ↔ x = .error error ∨ ∃ a, x = .ok a ∧ f a = .error error := by
  cases x <;> simp [bind, Except.bind]

@[simp] theorem pure_eq_ok {a b : α} : (pure a : Except ε α) = .ok b ↔ a = b := by
  simp [pure, Except.pure]

@[simp] theorem pure_ne_error {a : α} {error : ε} : (pure a : Except ε α) ≠ .error error := by
  simp [pure, Except.pure]

@[simp] theorem expect_eq_ok {error : ε} {x : Option α} {value : α} : expect error x = .ok value ↔ x = some value := by
  cases x <;> simp [expect]

@[simp] theorem expect_eq_error {error other : ε} {x : Option α} :
    expect error x = .error other ↔ x = none ∧ error = other := by
  cases x <;> simp [expect]

@[simp] theorem refuseIf_eq_ok {condition : Prop} [Decidable condition] {error : ε} {u : Unit} :
    refuseIf condition error = .ok u ↔ ¬condition := by
  unfold refuseIf
  split <;> simp_all

@[simp] theorem refuseIf_eq_error {condition : Prop} [Decidable condition] {error other : ε} :
    refuseIf condition error = .error other ↔ condition ∧ error = other := by
  unfold refuseIf
  split <;> simp_all

theorem toOption_eq_some {x : Except ε α} {value : α} : x.toOption = some value ↔ x = .ok value := by
  cases x <;> simp [Except.toOption]

theorem exists_error_iff {x : Except ε α} {error : ε} (failed : x = .error error) {P : ε → Prop} :
    (∃ other, x = .error other ∧ P other) ↔ P error := by
  simp [failed]

theorem not_exists_error {x : Except ε α} {value : α} (succeeded : x = .ok value) {P : ε → Prop} :
    ¬∃ error, x = .error error ∧ P error := by
  simp [succeeded]

end Outcome
