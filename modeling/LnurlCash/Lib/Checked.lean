import LnurlCash.Lib.Bytes

/-! Functions with their checks in them: an index, a slice, a copy or a
difference out of range stops the program, and so does a loop that is not over
in as many turns as it is given. Counts of bytes in memory are plain numbers. -/

inductive Panic where
  | index
  | slice
  /-- a text cut outside it, or inside a character -/
  | boundary
  | copy
  | underflow
  | unreachable
  | endless
  deriving DecidableEq

/-- A function that may panic and, if not, returns an option, leaving early with none. -/
abbrev Checked := OptionT (Except Panic)

namespace Checked

variable {α β σ : Type}

def panic (reason : Panic) : Checked α := OptionT.mk (.error reason)

/-- An option looked into with a question mark. -/
def ask (option : Option α) : Checked α := OptionT.mk (.ok option)

/-- What the function returns, as an option in hand. -/
def attempt (x : Checked α) : Checked (Option α) := OptionT.mk (x.run.map some)

def index (items : List α) (i : Nat) : Checked α :=
  match items[i]? with
  | some item => pure item
  | none => panic .index

def slice (items : List α) (lo hi : Nat) : Checked (List α) :=
  if lo ≤ hi ∧ hi ≤ items.length then pure ((items.drop lo).take (hi - lo)) else panic .slice

/-- The slice, or none where slicing would panic. -/
def range? (items : List α) (lo hi : Nat) : Option (List α) :=
  if lo ≤ hi ∧ hi ≤ items.length then some ((items.drop lo).take (hi - lo)) else none

def sub (a b : Nat) : Checked Nat := if b ≤ a then pure (a - b) else panic .underflow

def zeroed (n : Nat) : ByteArr n := ⟨List.replicate n 0, List.length_replicate⟩

/-- An array with one of its bytes replaced. -/
def store {n : Nat} (arr : ByteArr n) (i : Nat) (byte : UInt8) : Checked (ByteArr n) :=
  if i < n then pure ⟨arr.toList.set i byte, by rw [List.length_set, arr.size]⟩ else panic .index

/-- An array with a slice of it replaced by as many bytes. -/
def copy {n : Nat} (arr : ByteArr n) (lo hi : Nat) (source : Bytes) : Checked (ByteArr n) :=
  if lo ≤ hi ∧ hi ≤ n then
    if fits : lo ≤ hi ∧ hi ≤ n ∧ source.length = hi - lo then
      pure ⟨arr.toList.take lo ++ (source ++ arr.toList.drop hi), by simp [arr.size, fits]; omega⟩
    else panic .copy
  else panic .slice

/-- A loop whose turn goes on from a state, or ends it with a value. -/
def loop (turn : σ → Checked (σ ⊕ β)) : Nat → σ → Checked β
  | 0, _ => panic .endless
  | turns + 1, s => do
    match ← turn s with
    | .inl next => loop turn turns next
    | .inr value => pure value

/-- It panics nowhere, and this is what it returns. -/
def Returns (x : Checked α) (option : Option α) : Prop := x.run = .ok option

/-- What it returns; of a program that panics, nothing. -/
def returned (x : Checked α) : Option α :=
  match x.run with
  | .ok option => option
  | .error _ => none

theorem Returns.returned {x : Checked α} {option : Option α} (returned : Returns x option) : x.returned = option := by
  unfold Checked.returned
  rw [returned]

theorem returns_pure (a : α) : Returns (pure a) (some a) := rfl

theorem returns_ask (option : Option α) : Returns (ask option) option := rfl

theorem returns_asked {option result : Option α} (found : option = result) : Returns (ask option) result :=
  congrArg Except.ok found

theorem returns_failure : Returns (failure : Checked α) none := rfl

theorem returns_unless {c : Prop} [Decidable c] {x : Checked α} (passed : ¬c → Returns x none) :
    Returns (if c then failure else x) none := by
  split
  · exact returns_failure
  · rename_i holds
    exact passed holds

theorem Returns.attempt {x : Checked α} {option : Option α} (returned : Returns x option) :
    Returns (attempt x) (some option) := by
  rw [Returns] at returned
  rw [Returns, Checked.attempt, OptionT.run_mk, returned]
  rfl

/-- The rest of a function runs from the value returned so far. -/
theorem Returns.andThen {x : Checked α} {a : α} {f : α → Checked β} {option : Option β}
    (first : Returns x (some a)) (rest : Returns (f a) option) : Returns (x >>= f) option := by
  rw [Returns] at first
  rw [Returns, OptionT.run_bind, first]
  exact rest

theorem Returns.leave {x : Checked α} {f : α → Checked β} (first : Returns x none) : Returns (x >>= f) none := by
  rw [Returns] at first
  rw [Returns, OptionT.run_bind, first]
  rfl

theorem Returns.bind {x : Checked α} {option : Option α} {f : α → Checked β} {g : α → Option β}
    (first : Returns x option) (rest : ∀ a, option = some a → Returns (f a) (g a)) :
    Returns (x >>= f) (option.bind g) := by
  cases option with
  | none => exact first.leave
  | some a => exact first.andThen (rest a rfl)

theorem Returns.map {x : Checked α} {option : Option α} (f : α → β) (returned : Returns x option) :
    Returns (f <$> x) (option.map f) := by
  rw [Returns] at returned
  rw [Returns, OptionT.run_map, returned]
  rfl

theorem returns_ite {c : Prop} [Decidable c] {x y : Checked α} {left right : Option α} (yes : c → Returns x left)
    (no : ¬c → Returns y right) : Returns (if c then x else y) (if c then left else right) := by
  by_cases holds : c
  · rw [if_pos holds, if_pos holds]
    exact yes holds
  · rw [if_neg holds, if_neg holds]
    exact no holds

theorem returns_index {items : List α} {i : Nat} {item : α} (found : items[i]? = some item) :
    Returns (index items i) (some item) := by
  rw [index, found]
  exact returns_pure item

theorem returns_get {n i : Nat} (arr : ByteArr n) (inside : i < n) :
    Returns (index arr.toList i) (some (arr.get i)) := by
  have bound : i < arr.toList.length := by rwa [arr.size]
  rw [ByteArr.get, List.getD_eq_getElem?_getD, List.getElem?_eq_getElem bound, Option.getD_some]
  exact returns_index (List.getElem?_eq_getElem bound)

theorem returns_slice {items : List α} {lo hi : Nat} (ordered : lo ≤ hi) (inside : hi ≤ items.length) :
    Returns (slice items lo hi) (some ((items.drop lo).take (hi - lo))) := by
  rw [slice, if_pos ⟨ordered, inside⟩]
  exact returns_pure _

theorem returns_slice_to {items : List α} {hi : Nat} (inside : hi ≤ items.length) :
    Returns (slice items 0 hi) (some (items.take hi)) := by
  have returned := returns_slice (Nat.zero_le hi) inside
  rwa [List.drop_zero, Nat.sub_zero] at returned

theorem returns_slice_from {items : List α} {lo : Nat} (inside : lo ≤ items.length) :
    Returns (slice items lo items.length) (some (items.drop lo)) := by
  have returned := returns_slice inside (Nat.le_refl items.length)
  rwa [List.take_of_length_le (Nat.le_of_eq List.length_drop)] at returned

/-- The slice from within a list is there as far as the list goes. -/
theorem range?_of_le {items : List α} {lo : Nat} (inside : lo ≤ items.length) (n : Nat) :
    range? items lo (lo + n) = if n ≤ (items.drop lo).length then some ((items.drop lo).take n) else none := by
  rw [range?, List.length_drop, Nat.add_sub_cancel_left]
  exact if_congr (by omega) rfl rfl

theorem returns_store {n i : Nat} (arr : ByteArr n) (byte : UInt8) (inside : i < n) :
    ∃ stored, Returns (store arr i byte) (some stored) ∧ stored.toList = arr.toList.set i byte := by
  rw [store, if_pos inside]
  exact ⟨_, returns_pure _, rfl⟩

theorem returns_copy {n lo hi : Nat} (arr : ByteArr n) {source : Bytes} (ordered : lo ≤ hi) (inside : hi ≤ n)
    (sized : source.length = hi - lo) :
    ∃ copied, Returns (copy arr lo hi source) (some copied) ∧
      copied.toList = arr.toList.take lo ++ (source ++ arr.toList.drop hi) := by
  rw [copy, if_pos ⟨ordered, inside⟩, dif_pos ⟨ordered, inside, sized⟩]
  exact ⟨_, returns_pure _, rfl⟩

theorem returns_sub {a b : Nat} (fits : b ≤ a) : Returns (sub a b) (some (a - b)) := by
  rw [sub, if_pos fits]
  exact returns_pure _

/-- A turn of a loop that computes `value`: it leaves, ends or goes on with what
is left to compute, nearer its end by `measure`. -/
inductive Turns (value : σ → Option β) (measure : σ → Nat) (s : σ) : Option (σ ⊕ β) → Prop where
  | leaves (nothing : value s = none) : Turns value measure s none
  | ends {b : β} (result : value s = some b) : Turns value measure s (some (.inr b))
  | goesOn {next : σ} (same : value s = value next) (nearer : measure next < measure s) :
    Turns value measure s (some (.inl next))

/-- A loop that comes nearer its end each turn is over in time, with the value it computes. -/
theorem returns_loop {turn : σ → Checked (σ ⊕ β)} {value : σ → Option β} {measure : σ → Nat}
    (step : ∀ s, ∃ result, Returns (turn s) result ∧ Turns value measure s result) {turns : Nat} (s : σ)
    (enough : measure s < turns) : Returns (loop turn turns s) (value s) := by
  induction turns generalizing s with
  | zero => exact absurd enough (Nat.not_lt_zero _)
  | succ turns ih =>
    obtain ⟨result, returned, taken⟩ := step s
    cases taken with
    | leaves nothing =>
      rw [loop, nothing]
      exact returned.leave
    | ends result =>
      rw [loop, result]
      refine returned.andThen ?_
      exact returns_pure _
    | goesOn same nearer =>
      rw [loop, same]
      refine returned.andThen ?_
      exact ih _ (by omega)

end Checked
