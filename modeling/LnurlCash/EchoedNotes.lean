import LnurlCash.Protocol
import LnurlCash.Reference

namespace LnurlCash

open Outcome

variable {C : Crates} {echoed queried queriedUrl domain k1 other : Str}

theorem Crates.checkSpend_congr (same : C.decodeSpend k1 = C.decodeSpend other) (domain : Str) :
    C.checkSpend k1 domain = C.checkSpend other domain := by
  simp only [Crates.checkSpend, same]

/-- The text of a spend matters up to ASCII case and whitespace around it. -/
theorem Crates.decodeSpend_of_same_text {spend : Spend} (decoded : C.decodeSpend queried = some spend)
    (same : Str.lower (Str.trim echoed) = Str.lower (Str.trim queried)) :
    C.decodeSpend (Str.lower echoed) = some spend := by
  rw [← C.decodeSpend_trim, Str.trim_lower, same]
  exact decodeSpend_lower (by rw [C.decodeSpend_trim, decoded])

def Crates.FailsAt (C : Crates) (k1 domain : Str) : Prop :=
  ∃ outputKey reason, C.checkSpend k1 domain = some { outputKey, verdict := .fails reason }

/-- An echo that is accepted is the same text, or a spend of the same note
that is not known to fail. -/
theorem Crates.sameNote_cases {id : Str} (named : C.noteIdOf queried = some id)
    (same : C.sameNote echoed queried queriedUrl) :
    Str.lower (Str.trim echoed) = Str.lower (Str.trim queried) ∨
      C.noteIdOf echoed = some id ∧ ¬C.FailsAt echoed ((C.spendDomainOf queriedUrl).getD []) := by
  simp only [Crates.sameNote, named] at same
  split_ifs at same with text
  · exact Or.inl text
  · cases found : C.noteIdOf echoed with
    | none => simp [found] at same
    | some a =>
      simp only [found, Bool.and_eq_true, decide_eq_true_eq] at same
      obtain ⟨rfl, verdict⟩ := same
      refine Or.inr ⟨rfl, ?_⟩
      rintro ⟨outputKey, reason, failed⟩
      simp [failed] at verdict

theorem Crates.parseNoteInfo_ok {body : Value} {policy : Policy} {info : WithdrawRequestInfo}
    (parsed : C.parseNoteInfo body queriedUrl policy = .ok info) :
    ∃ k1, asStr body "k1".toList = some k1 ∧ info.k1 = Str.lower k1 ∧
      ∀ queried, C.noteK1 queriedUrl = some queried → C.sameNote k1 queried queriedUrl := by
  simp only [Crates.parseNoteInfo, bind_eq_ok, refuseIf_eq_ok, expect_eq_ok, pure_eq_ok] at parsed
  obtain ⟨_, _, _, _, _, _, k1, echoed, _, _, _, _, _, _, _, same, _, _, rfl⟩ := parsed
  refine ⟨k1, echoed, rfl, fun queried asked => ?_⟩
  simpa [asked] using same

/-- A SERVICE cannot swap the note at the informational GET: what comes back
names the note that was asked about, is the same text or not known to fail,
and was not changed by being lowercased. -/
theorem Crates.parseNoteInfo_same_note {body : Value} {policy : Policy} {info : WithdrawRequestInfo} {id : Str}
    (asked : C.noteK1 queriedUrl = some queried) (named : C.noteIdOf queried = some id)
    (parsed : C.parseNoteInfo body queriedUrl policy = .ok info) :
    C.noteIdOf info.k1 = some id ∧
      (Str.lower (Str.trim info.k1) = Str.lower (Str.trim queried) ∨
        ¬C.FailsAt info.k1 ((C.spendDomainOf queriedUrl).getD [])) ∧
      ∃ k1, asStr body "k1".toList = some k1 ∧ info.k1 = Str.lower k1 ∧
        ∀ spend, C.decodeSpend k1 = some spend → C.decodeSpend info.k1 = some spend := by
  obtain ⟨k1, echoed, lowered, accepted⟩ := parseNoteInfo_ok parsed
  have unchanged : ∀ spend, C.decodeSpend k1 = some spend → C.decodeSpend info.k1 = some spend := by
    rw [lowered]
    exact fun spend => decodeSpend_lower
  refine ⟨?_, ?_, k1, echoed, lowered, unchanged⟩
  · rcases sameNote_cases named (accepted queried asked) with text | ⟨found, _⟩
    · obtain ⟨spend, decoded, rfl⟩ := Option.map_eq_some_iff.mp named
      rw [Crates.noteIdOf, lowered, decodeSpend_of_same_text decoded text, Option.map_some]
    · obtain ⟨spend, decoded, rfl⟩ := Option.map_eq_some_iff.mp found
      rw [Crates.noteIdOf, unchanged spend decoded, Option.map_some]
  · rcases sameNote_cases named (accepted queried asked) with text | ⟨found, opens⟩
    · exact Or.inl (by rw [lowered, Str.trim_lower, Str.lower_lower, text])
    · refine Or.inr ?_
      obtain ⟨spend, decoded, _⟩ := Option.map_eq_some_iff.mp found
      rwa [Crates.FailsAt, checkSpend_congr ((unchanged spend decoded).trans decoded.symm)]

/-! A preimage asked about in one case and echoed in the other. -/

def askedK1 : Str := Hex.encode (List.replicate 32 0xaa)

def askedUrl : Str := "https://mint.example/w?k1=".toList ++ askedK1

def echoBody : Value := .object [
  ("tag".toList, .string "withdrawRequest".toList), ("callback".toList, .string "https://mint.example/cb".toList),
  ("k1".toList, .string (Str.upper askedK1)), ("maxWithdrawable".toList, .number (.posInt 1000))]

def echoInfo : WithdrawRequestInfo where
  callback := "https://mint.example/cb".toList
  k1 := askedK1
  maxWithdrawable := 1000
  minWithdrawable := 0
  defaultDescription := none
  mintPubkey := none
  signature := none

set_option maxRecDepth 100000 in
theorem reference.echo_same_note : ∃ id, reference.noteIdOf echoInfo.k1 = some id := by
  have asked : reference.noteK1 askedUrl = some askedK1 := by decide +kernel
  have parsed : reference.parseNoteInfo echoBody askedUrl { requireMintPubkey := false } = .ok echoInfo := by
    decide +kernel
  obtain ⟨id, named⟩ := Option.isSome_iff_exists.mp (show (reference.noteIdOf askedK1).isSome by decide +kernel)
  exact ⟨id, (Crates.parseNoteInfo_same_note asked named parsed).1⟩

end LnurlCash
