import LnurlCash.Lib.Dialogue
import Mathlib.Data.Option.Basic

/-! Two programs that ask alike as long as they are answered alike. -/

namespace Dialogue

variable {Q Q' : Type} {A : Q → Type} {A' : Q' → Type} {α α' β β' ε ε' : Type}

/-- Which questions go together, and which answers to them. -/
structure Pairing (A : Q → Type) (A' : Q' → Type) where
  questions : Q → Q' → Prop
  answers : (question : Q) → (question' : Q') → A question → A' question' → Prop

def Pairing.events (P : Pairing A A') (event : Event Q A) (event' : Event Q' A') : Prop :=
  P.questions event.1 event'.1 ∧ P.answers event.1 event'.1 event.2 event'.2

inductive Lockstep (P : Pairing A A') (R : α → α' → Prop) : Dialogue Q A α → Dialogue Q' A' α' → Prop
  | done {value value'} : R value value' → Lockstep P R (done value) (done value')
  | ask {question question' next next'} : P.questions question question' →
      (∀ answer answer', P.answers question question' answer answer' → Lockstep P R (next answer) (next' answer')) →
      Lockstep P R (ask question next) (ask question' next')

/-- Outcomes that succeed alike or fail alike. -/
inductive Alike (E : ε → ε' → Prop) (R : α → α' → Prop) : Except ε α → Except ε' α' → Prop
  | ok {value value'} : R value value' → Alike E R (.ok value) (.ok value')
  | error {failure failure'} : E failure failure' → Alike E R (.error failure) (.error failure')

variable {P : Pairing A A'} {R : α → α' → Prop} {S : β → β' → Prop} {E : ε → ε' → Prop} {d : Dialogue Q A α}
  {d' : Dialogue Q' A' α'}

theorem Lockstep.bind {f : α → Dialogue Q A β} {f' : α' → Dialogue Q' A' β'} (first : Lockstep P R d d')
    (rest : ∀ value value', R value value' → Lockstep P S (f value) (f' value')) :
    Lockstep P S (d >>= f) (d' >>= f') := by
  change Lockstep P S (Dialogue.bind d f) (Dialogue.bind d' f')
  induction first with
  | done related => exact rest _ _ related
  | ask together _ ih => exact .ask together ih

theorem Lockstep.mono {T : α → α' → Prop} (steps : Lockstep P R d d')
    (weaker : ∀ value value', R value value' → T value value') :
    Lockstep P T d d' := by
  induction steps with
  | done related => exact .done (weaker _ _ related)
  | ask together _ ih => exact .ask together ih

/-- Programs in step end as the first one can end. -/
theorem Lockstep.ran (steps : Lockstep P R d d') :
    Lockstep P (fun value value' => R value value' ∧ ∃ trace, Runs d trace value) d d' := by
  induction steps with
  | done related => exact .done ⟨related, [], .done⟩
  | ask together _ ih =>
    refine .ask together fun answer answer' heard => (ih answer answer' heard).mono ?_
    rintro value value' ⟨related, trace, run⟩
    exact ⟨related, _, .ask run⟩

/-- A computation at the end keeps the step. -/
theorem Lockstep.map {g : α → β} {g' : α' → β'} (first : Lockstep P R d d')
    (rest : ∀ value value', R value value' → S (g value) (g' value')) :
    Lockstep P S (d >>= fun value => pure (g value)) (d' >>= fun value => pure (g' value)) :=
  first.bind fun value value' related => .done (rest value value' related)

theorem Lockstep.query_bind {question : Q} {question' : Q'} {f : A question → Dialogue Q A β}
    {f' : A' question' → Dialogue Q' A' β'} (together : P.questions question question')
    (rest : ∀ answer answer', P.answers question question' answer answer' → Lockstep P S (f answer) (f' answer')) :
    Lockstep P S (query question >>= f) (query question' >>= f') := .ask together rest

theorem Alike.bind {x : Except ε α} {x' : Except ε' α'} {f : α → Except ε β} {f' : α' → Except ε' β'}
    (first : Alike E R x x') (rest : ∀ value value', R value value' → Alike E S (f value) (f' value')) :
    Alike E S (x >>= f) (x' >>= f') := by
  cases first with
  | ok related => exact rest _ _ related
  | error failed => exact .error failed

/-- Loops of attempts keep step where their attempts do, and go on alike. -/
theorem Lockstep.retry {verdict : α → Except ε β} {verdict' : α' → Except ε' β'} {giveUp : Option ε → β}
    {giveUp' : Option ε' → β'} (attempts : Lockstep P R d d')
    (decides : ∀ outcome outcome', R outcome outcome' → Alike E S (verdict outcome) (verdict' outcome'))
    (gives : ∀ last last', Option.Rel E last last' → S (giveUp last) (giveUp' last')) (count : Nat)
    {last : Option ε} {last' : Option ε'} (failed : Option.Rel E last last') :
    Lockstep P S (Dialogue.retry d verdict giveUp count last) (Dialogue.retry d' verdict' giveUp' count last') := by
  induction count generalizing last last' with
  | zero => exact .done (gives _ _ failed)
  | succ count ih =>
    refine attempts.bind fun outcome outcome' related => ?_
    cases decision : verdict outcome <;> cases decision' : verdict' outcome' <;>
      have alike := decides _ _ related <;> rw [decision, decision'] at alike <;> cases alike
    · rename_i again
      exact ih (.some again)
    · rename_i settled
      exact .done settled

theorem Alike.refl (outcome : Except ε α) : Alike Eq Eq outcome outcome := by
  cases outcome with
  | ok value => exact .ok rfl
  | error failure => exact .error rfl

theorem Lockstep.retry_self {P : Pairing A A} {verdict : α → Except ε β} {giveUp : Option ε → β}
    (attempts : Lockstep P Eq d d) (count : Nat) :
    Lockstep P Eq (Dialogue.retry d verdict giveUp count none) (Dialogue.retry d verdict giveUp count none) := by
  refine attempts.retry (E := Eq) (fun outcome outcome' same => ?_) (fun last last' failed => ?_) count .none
  · rw [same]
    exact .refl _
  · cases failed with
    | some same => rw [same]
    | none => rfl

/-- What one program hears, the other may hear its own version of. -/
theorem Lockstep.forth {trace : List (Event Q A)} {value : α} (steps : Lockstep P R d d') (run : Runs d trace value)
    (answered : ∀ event ∈ trace, ∀ question', P.questions event.1 question' →
      ∃ answer', P.answers event.1 question' event.2 answer') :
    ∃ trace' value', Runs d' trace' value' ∧ List.Forall₂ P.events trace trace' ∧ R value value' := by
  induction run generalizing d' with
  | done =>
    cases steps with
    | done related => exact ⟨[], _, .done, .nil, related⟩
  | @ask question next answer trace value _ ih =>
    cases steps with
    | @ask _ question' _ next' together continues =>
      obtain ⟨answer', heard⟩ := answered ⟨question, answer⟩ List.mem_cons_self _ together
      obtain ⟨trace', value', run', alike, related⟩ := ih (continues answer answer' heard)
        fun event member => answered event (List.mem_cons_of_mem _ member)
      exact ⟨⟨question', answer'⟩ :: trace', value', .ask run', .cons ⟨together, heard⟩ alike, related⟩

/-- Where a question has one counterpart, a run in step follows the answers it is given. -/
theorem Lockstep.along {trace : List (Event Q A)} {trace' : List (Event Q' A')} {value : α} (steps : Lockstep P R d d')
    (unique : ∀ question left right, P.questions question left → P.questions question right → left = right)
    (run : Runs d trace value) (alike : List.Forall₂ P.events trace trace') :
    ∃ value', Runs d' trace' value' ∧ R value value' := by
  induction run generalizing d' trace' with
  | done =>
    cases alike
    cases steps with
    | done related => exact ⟨_, .done, related⟩
  | ask _ ih =>
    cases alike with
    | @cons _ event' _ _ heard alike =>
      cases steps with
      | ask together continues =>
        obtain ⟨question', answer'⟩ := event'
        obtain rfl := unique _ _ _ together heard.1
        obtain ⟨value', run', related⟩ := ih (continues _ _ heard.2) alike
        exact ⟨value', .ask run', related⟩

def Pairing.flip (P : Pairing A A') : Pairing A' A where
  questions question' question := P.questions question question'
  answers question' question answer' answer := P.answers question question' answer answer'

theorem Lockstep.flip (steps : Lockstep P R d d') : Lockstep P.flip (fun value' value => R value value') d' d := by
  induction steps with
  | done related => exact .done related
  | ask together _ ih => exact .ask together fun answer' answer heard => ih answer answer' heard

end Dialogue
