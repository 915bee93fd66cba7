import LnurlCash.MutationRuns
import LnurlCash.Reference

namespace LnurlCash

/-- A mutation that may have been applied and then failed still hands back its
fresh secrets, unless a later attempt drew a refusal read as pending or as
nothing about the note. -/
theorem Crates.runMutation_keeps_secrets_iff {C : Crates} {config : ClientConfig} {kind : MutationKind}
    {request : Request} {trace : List Exchange} {error : Error}
    (run : Dialogue.Runs (C.runMutation config request kind) trace (.error error))
    (lost : ∃ exchange ∈ trace, C.LostAttempt config kind request exchange) :
    error.newSecrets = request.newSecrets ↔
      request.newSecrets = [] ∨ ∀ reply : Reply, ⟨.get request.url, reply⟩ ∈ trace → reply.isBareRefusal = false := by
  obtain ⟨exchange, member, lost⟩ := lost
  rcases runMutation_last run with ⟨rfl, _⟩ | ⟨before, final, rfl, _, earlier, result⟩
  · cases member
  · cases ended : C.attemptOutcome config kind request final with
    | ok response =>
      rw [ended] at result
      cases result
    | error failure =>
      rw [ended] at result
      cases result
      have carries := (attemptOutcome_error ended).1
      have bare : (∀ reply : Reply, ⟨.get request.url, reply⟩ ∈ before ++ [⟨.get request.url, final⟩] →
          reply.isBareRefusal = false) ↔ final.isBareRefusal = false := by
        constructor
        · exact fun all => all final (by simp)
        · intro last reply among
          rcases List.mem_append.mp among with early | late
          · exact (earlier _ early).not_bare reply rfl
          · cases List.mem_singleton.mp late
            exact last
      rw [Error.newSecrets_withSecrets, bare, carries]
      cases final.isBareRefusal with
      | false => simp
      | true => simp [eq_comm]

/-! A rotate at `mint.example`, built by the request builder. -/

def spentK1 : Str := Hex.encode (List.replicate 32 7)

def freshSecret : Str := Hex.encode (List.replicate 32 8)

def freshHash : Str := Hex.encode (Sha256.hash (List.replicate 32 8)).toList

def mintCallback : Str := "https://mint.example/cb".toList

def rotation : Request where
  url := mintCallback ++ "?k1=".toList ++ spentK1 ++ "&p1=".toList ++ freshHash
  newSecrets := [freshSecret]
  outputs := [freshHash]

def refusalOf (reason : Str) : Reply :=
  .json (.object [("status".toList, .string "ERROR".toList), ("reason".toList, .string reason)])

set_option maxRecDepth 100000 in
theorem reference.rotateRequest_rotation : reference.rotateRequest mintCallback spentK1 freshSecret = .ok rotation := by
  decide +kernel

set_option maxRecDepth 100000 in
theorem reference.refusal_rotation : reference.refusal {} rotation = none := by decide +kernel

theorem reference.rotation_timedOut :
    reference.LostAttempt {} .rotate rotation ⟨.get rotation.url, .timedOut⟩ := ⟨.timedOut, _, rfl, rfl, rfl⟩

def lostThenRefused (reason : Str) : List Exchange :=
  [⟨.get rotation.url, .timedOut⟩, ⟨.get rotation.url, refusalOf reason⟩]

theorem reference.runs_lostThenRefused (reason : Str) (error : Error)
    (refused : reference.attemptOutcome {} .rotate rotation (refusalOf reason) = .error error)
    (settles : error.isAmbiguous = false) :
    Dialogue.Runs (reference.runMutation {} rotation .rotate) (lostThenRefused reason)
      (.error (error.withSecrets rotation.newSecrets)) := by
  refine Crates.runs_lost_then reference.refusal_rotation (by decide) rfl ?_
  rw [refused]
  simp [mutationVerdict, settles]

theorem reference.spent_keeps_secrets :
    ((Error.noteSpent "spent".toList []).withSecrets rotation.newSecrets).newSecrets = rotation.newSecrets :=
  (Crates.runMutation_keeps_secrets_iff (reference.runs_lostThenRefused "spent".toList _ rfl rfl)
    ⟨_, List.mem_cons_self, reference.rotation_timedOut⟩).mpr
    (Or.inr fun reply member => by
      rcases List.mem_cons.mp member with same | member
      · cases same; rfl
      · cases List.mem_singleton.mp member; rfl)

theorem reference.pending_loses_secrets :
    reference.rotateRequest mintCallback spentK1 freshSecret = .ok rotation ∧
      Dialogue.Runs (reference.runMutation {} rotation .rotate) (lostThenRefused "pending".toList) (.error .notePending) ∧
      (∃ exchange ∈ lostThenRefused "pending".toList, reference.LostAttempt {} .rotate rotation exchange) ∧
      Error.notePending.newSecrets ≠ rotation.newSecrets :=
  ⟨reference.rotateRequest_rotation, reference.runs_lostThenRefused "pending".toList .notePending rfl rfl,
    ⟨_, List.mem_cons_self, reference.rotation_timedOut⟩, by simp [Error.newSecrets, rotation]⟩

end LnurlCash
