import LnurlCash.Lib.Outcome

/-! Values that a caller keeps as texts between the steps it asks for. -/

variable {V T E F I α β : Type}

/-- How values are written as texts and read back. `Same` relates two texts
that are read alike; only sound values are ever written. -/
structure Carrier (V T E : Type) where
  write : V → T
  read : T → Except E V
  Sound : V → Prop
  Same : T → T → Prop
  reads : ∀ value text, Sound value → Same (write value) text → read text = .ok value

/-- An outcome as it is told on the other side. -/
def Except.told (spell : α → β) (wrap : E → F) (outcome : Except E α) : Except F β := (outcome.map spell).mapError wrap

@[simp] theorem Except.told_ok (spell : α → β) (wrap : E → F) (value : α) :
    (Except.ok value).told spell wrap = .ok (spell value) := rfl

@[simp] theorem Except.told_error (spell : α → β) (wrap : E → F) (error : E) :
    (Except.error error : Except E α).told spell wrap = .error (wrap error) := rfl

namespace Carrier

/-- An operation on values, asked for with a text and answered in the caller's terms. -/
def lift (carrier : Carrier V T E) (wrap : E → F) (operation : V → Except E α) (spell : α → β) (text : T) : Except F β :=
  (carrier.read text >>= operation).told spell wrap

variable {carrier : Carrier V T E} {wrap : E → F} {value : V} {text : T}

theorem lift_same {operation : V → Except E α} {spell : α → β} (sound : carrier.Sound value)
    (same : carrier.Same (carrier.write value) text) :
    carrier.lift wrap operation spell text = (operation value).told spell wrap := by
  rw [lift, carrier.reads value text sound same, Outcome.ok_bind]

/-- Steps that keep values sound. -/
def Keeps (carrier : Carrier V T E) (step : I → V → Except E V) : Prop :=
  ∀ call value next, carrier.Sound value → step call value = .ok next → carrier.Sound next

theorem Keeps.foldlM {step : I → V → Except E V} (keeps : carrier.Keeps step) {calls : List I} {last : V}
    (sound : carrier.Sound value) (walked : calls.foldlM (fun value call => step call value) value = .ok last) :
    carrier.Sound last := by
  induction calls generalizing value with
  | nil =>
    cases walked
    exact sound
  | cons call rest ih =>
    rw [List.foldlM_cons, Outcome.bind_eq_ok] at walked
    obtain ⟨next, stepped, more⟩ := walked
    exact ih (keeps call value next sound stepped) more

/-- A walk over texts, each kept by the caller in its own way before the next
step, is told as the walk over the values themselves. -/
theorem foldlM_lift (wrap : E → F) {step : I → V → Except E V} (keep : I → T → T) (keeps : carrier.Keeps step)
    (kept : ∀ call value, carrier.Sound value → carrier.Same (carrier.write value) (keep call (carrier.write value)))
    (calls : List I) (sound : carrier.Sound value) :
    calls.foldlM (fun text call => carrier.lift wrap (step call) carrier.write (keep call text)) (carrier.write value) =
      (calls.foldlM (fun value call => step call value) value).told carrier.write wrap := by
  induction calls generalizing value with
  | nil => rfl
  | cons call rest ih =>
    rw [List.foldlM_cons, List.foldlM_cons, lift_same sound (kept call value sound)]
    cases stepped : step call value with
    | error error => rfl
    | ok next => exact ih (keeps call value next sound stepped)

end Carrier
