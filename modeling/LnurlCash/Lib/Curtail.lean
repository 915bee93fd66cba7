import LnurlCash.Lib.Handlers
import LnurlCash.Lib.Outcome

/-! Programs that do as others do, unless they refuse and stop. -/

namespace Outcome

variable {ε α β : Type} {E : ε → Prop}

/-- The first outcome is the second, or one of these refusals. -/
def Tightens (E : ε → Prop) (x y : Except ε α) : Prop := x = y ∨ ∃ error, E error ∧ x = .error error

theorem Tightens.refl (x : Except ε α) : Tightens E x x := Or.inl rfl

theorem Tightens.bind {x y : Except ε α} {f g : α → Except ε β} (first : Tightens E x y)
    (rest : ∀ a, Tightens E (f a) (g a)) : Tightens E (x >>= f) (y >>= g) := by
  rcases first with rfl | ⟨error, refused, rfl⟩
  · cases x with
    | error error => exact Or.inl rfl
    | ok a => exact rest a
  · exact Or.inr ⟨error, refused, rfl⟩

/-- What is done with the value afterwards is the same. -/
theorem Tightens.andThen {x y : Except ε α} (first : Tightens E x y) (f : α → Except ε β) :
    Tightens E (x >>= f) (y >>= f) := first.bind fun a => .refl (f a)

/-- What came before is the same. -/
theorem Tightens.after (x : Except ε α) {f g : α → Except ε β} (rest : ∀ a, Tightens E (f a) (g a)) :
    Tightens E (x >>= f) (x >>= g) := (Tightens.refl x).bind rest

end Outcome

namespace Dialogue

variable {Q : Type} {A : Q → Type} {α β ε : Type}

/-- The first program asks and ends as the second does, unless it ends earlier, or otherwise, with a refusal. -/
inductive Curtails (S : α → Prop) : Dialogue Q A α → Dialogue Q A α → Prop
  | refused {value : α} {other : Dialogue Q A α} : S value → Curtails S (done value) other
  | same (program : Dialogue Q A α) : Curtails S program program
  | ask {question next next'} : (∀ answer, Curtails S (next answer) (next' answer)) →
      Curtails S (ask question next) (ask question next')

variable {S : α → Prop} {T : β → Prop} {d d' : Dialogue Q A α}

theorem Curtails.mono {S' : α → Prop} (curtails : Curtails S d d') (weaker : ∀ value, S value → S' value) :
    Curtails S' d d' := by
  induction curtails with
  | refused refusal => exact .refused (weaker _ refusal)
  | same d => exact .same d
  | ask _ ih => exact .ask ih

/-- A program that is followed by a curtailed one. -/
theorem Curtails.after (d : Dialogue Q A α) {f f' : α → Dialogue Q A β}
    (rest : ∀ value, Curtails T (f value) (f' value)) :
    Curtails T (d >>= f) (d >>= f') := by
  change Curtails T (Dialogue.bind d f) (Dialogue.bind d f')
  induction d with
  | done value => exact rest value
  | ask question next ih => exact .ask ih

/-- Refusals that the rest of the program passes on keep a sequence curtailed. -/
theorem Curtails.bind {f f' : α → Dialogue Q A β} (first : Curtails S d d')
    (rest : ∀ value, Curtails T (f value) (f' value))
    (passes : ∀ value, S value → ∃ result, T result ∧ f value = done result) :
    Curtails T (d >>= f) (d' >>= f') := by
  induction first with
  | refused refusal =>
    obtain ⟨result, refused, ends⟩ := passes _ refusal
    change Curtails T (f _) _
    rw [ends]
    exact .refused refused
  | same d => exact .after d rest
  | ask _ ih => exact .ask ih

theorem Curtails.map {g : α → β} (first : Curtails S d d') (passes : ∀ value, S value → T (g value)) :
    Curtails T (d >>= fun value => pure (g value)) (d' >>= fun value => pure (g value)) :=
  first.bind (fun _ => .same _) fun value refusal => ⟨g value, passes value refusal, rfl⟩

/-- A loop that ends upon its attempt's refusals. -/
theorem Curtails.retry {verdict : α → Except ε β} {giveUp : Option ε → β} (attempts : Curtails S d d')
    (ends : ∀ value, S value → ∃ result, T result ∧ verdict value = .ok result) (count : Nat) (last : Option ε) :
    Curtails T (Dialogue.retry d verdict giveUp count last) (Dialogue.retry d' verdict giveUp count last) := by
  induction count generalizing last with
  | zero => exact .same _
  | succ count ih =>
    refine attempts.bind (fun value => ?_) fun value refusal => ?_
    · cases verdict value with
      | ok result => exact .same _
      | error failure => exact ih (some failure)
    · obtain ⟨result, refused, decided⟩ := ends value refusal
      refine ⟨result, refused, ?_⟩
      rw [decided]

/-- On the answers of the other's run, a curtailed program ends as it does, or with a refusal on the way. -/
theorem Curtails.runs {trace : List (Event Q A)} {value : α} (curtails : Curtails S d d') (run : Runs d' trace value) :
    ∃ front back value', trace = front ++ back ∧ Runs d front value' ∧ (back = [] ∧ value' = value ∨ S value') := by
  induction curtails generalizing trace with
  | refused refusal => exact ⟨[], trace, _, rfl, .done, Or.inr refusal⟩
  | same d => exact ⟨trace, [], value, by rw [List.append_nil], run, Or.inl ⟨rfl, rfl⟩⟩
  | ask _ ih =>
    cases run with
    | ask rest =>
      obtain ⟨front, back, value', rfl, shorter, ends⟩ := ih _ rest
      exact ⟨_ :: front, back, value', rfl, .ask shorter, ends⟩

/-! ### Handlers that only refuse more -/

variable {P : Type} {B : P → Type} {refused : (call : P) → B call → Prop}
  {strict lax : (call : P) → Dialogue Q A (B call)}

/-- With these handlers a program makes the very same run, or makes the same
calls upon the same answers until the first call that ends, after its own part
of the run, in a refusal. -/
def CutShort (handler : (call : P) → Dialogue Q A (B call)) (ends : (call : P) → List (Event Q A) → B call → Prop)
    (program : Dialogue P B α) (trace : List (Event Q A)) (value : α) : Prop :=
  Runs (interpret handler program) trace value ∨ ∃ made call answer answer' skipped before part back,
    Runs program (made ++ ⟨call, answer⟩ :: skipped) value ∧ trace = before ++ (part ++ back) ∧
      Handled handler made before ∧ Runs (handler call) part answer' ∧ ends call part answer'

theorem Handled.curtailed (curtails : ∀ call, Curtails (refused call) (strict call) (lax call))
    {calls : List (Event P B)} {trace : List (Event Q A)} (handled : Handled lax calls trace) :
    Handled strict calls trace ∨ ∃ made call answer answer' skipped before part back,
      calls = made ++ ⟨call, answer⟩ :: skipped ∧ trace = before ++ (part ++ back) ∧
        Handled strict made before ∧ Runs (strict call) part answer' ∧ refused call answer' := by
  induction handled with
  | nil => exact Or.inl .nil
  | @cons call answer part calls trace first rest ih =>
    obtain ⟨front, back, answer', rfl, shorter, ends⟩ := (curtails call).runs first
    rcases ends with ⟨rfl, rfl⟩ | refusal
    · rw [List.append_nil]
      rcases ih with whole | ⟨made, last, answer, answer', skipped, before, part, back', rfl, rfl, made', ran, refusal⟩
      · exact Or.inl (.cons shorter whole)
      · exact Or.inr ⟨_ :: made, last, answer, answer', skipped, front ++ before, part, back', rfl,
          (List.append_assoc ..).symm, .cons shorter made', ran, refusal⟩
    · exact Or.inr ⟨[], call, answer, answer', calls, [], front, back ++ trace, rfl, List.append_assoc .., .nil, shorter,
        refusal⟩

theorem cutShort {ends : (call : P) → List (Event Q A) → B call → Prop}
    (curtails : ∀ call, Curtails (refused call) (strict call) (lax call))
    (refuses : ∀ call part answer, Runs (strict call) part answer → refused call answer → ends call part answer)
    {program : Dialogue P B α} {trace : List (Event Q A)} {value : α} (run : Runs (interpret lax program) trace value) :
    CutShort strict ends program trace value := by
  obtain ⟨calls, handled, made⟩ := runs_interpret.mp run
  rcases handled.curtailed curtails with
    whole | ⟨earlier, call, answer, answer', skipped, before, part, back, rfl, rfl, cut, ran, refusal⟩
  · exact Or.inl (runs_interpret.mpr ⟨calls, whole, made⟩)
  · exact Or.inr ⟨earlier, call, answer, answer', skipped, before, part, back, made, rfl, cut, ran,
      refuses call part answer' ran refusal⟩

end Dialogue
