import LnurlCash.Lib.Text

namespace LnurlCash

/-- The reason LUD-25 fixes for an output naming a note already outstanding or burned. -/
def outputInUse : Str := "already in use".toList

/-- What each kind of failure means for the money involved. -/
inductive Error where
  | requestRefused (message : Str)
  | protocol (message : Str)
  /-- the SERVICE answered `{"status":"ERROR"}` -/
  | serviceRejected (reason : Str)
  | notePending
  | noteSpent (reason : Str) (newSecrets : List Str)
  | noteUnknown (reason : Str) (newSecrets : List Str)
  /-- a mutation landed without a certificate it owed -/
  | unverifiable (message : Str) (newSecrets : List Str)
  | ambiguous (message : Str) (newSecrets : List Str)
  deriving DecidableEq, Repr

namespace Error

/-- Attaches the secrets a mutation generated; four of the eight kinds carry them. -/
def withSecrets : Error → List Str → Error
  | ambiguous message _, secrets => ambiguous message secrets
  | unverifiable message _, secrets => unverifiable message secrets
  | noteSpent reason _, secrets => noteSpent reason secrets
  | noteUnknown reason _, secrets => noteUnknown reason secrets
  | other, _ => other

def newSecrets : Error → List Str
  | ambiguous _ secrets | unverifiable _ secrets | noteSpent _ secrets | noteUnknown _ secrets => secrets
  | _ => []

def isAmbiguous : Error → Bool
  | ambiguous .. => true
  | _ => false

def carriesSecrets : Error → Bool
  | ambiguous .. | unverifiable .. | noteSpent .. | noteUnknown .. => true
  | _ => false

theorem newSecrets_withSecrets (error : Error) (secrets : List Str) :
    (error.withSecrets secrets).newSecrets = if error.carriesSecrets then secrets else [] := by
  cases error <;> rfl

theorem newSecrets_eq_nil {error : Error} (bare : error.carriesSecrets = false) : error.newSecrets = [] := by
  cases error <;> first | rfl | cases bare

theorem isAmbiguous_withSecrets (error : Error) (secrets : List Str) :
    (error.withSecrets secrets).isAmbiguous = error.isAmbiguous := by
  cases error <;> rfl

theorem carriesSecrets_withSecrets (error : Error) (secrets : List Str) :
    (error.withSecrets secrets).carriesSecrets = error.carriesSecrets := by
  cases error <;> rfl

theorem carriesSecrets_of_isAmbiguous {error : Error} (ambiguous : error.isAmbiguous) : error.carriesSecrets := by
  cases error <;> simp_all [isAmbiguous, carriesSecrets]

end Error

def classifyNoteError (reason : Str) : Error :=
  let lowered := Str.lower reason
  if lowered = "pending".toList then .notePending
  else if Str.contains lowered "spent".toList || decide (Str.trim lowered = outputInUse) then .noteSpent reason []
  else if Str.contains lowered "unknown".toList || Str.contains lowered "not found".toList then .noteUnknown reason []
  else .serviceRejected reason

/-- A classified refusal is one of four kinds, and says which reason it read. -/
theorem classifyNoteError_cases (reason : Str) :
    classifyNoteError reason = .notePending ∨ classifyNoteError reason = .noteSpent reason [] ∨
      classifyNoteError reason = .noteUnknown reason [] ∨ classifyNoteError reason = .serviceRejected reason := by
  simp only [classifyNoteError]
  split
  · exact Or.inl rfl
  · split
    · exact Or.inr (Or.inl rfl)
    · split
      · exact Or.inr (Or.inr (Or.inl rfl))
      · exact Or.inr (Or.inr (Or.inr rfl))

end LnurlCash
