import LnurlCash.MutationTraffic

namespace LnurlCash

open Outcome

variable {C : Crates}

/-- The seven builders of a mutating request. -/
inductive MutationBuilder where
  | melt (callback k1 pr : Str)
  | rotate (callback k1 newSecret : Str)
  | split (callback : Str) (k1s : List Str) (amountMsat : UInt64) (newSecret changeSecret : Str)
  | merge (callback : Str) (k1s : List Str) (newSecret : Str)
  | rotateWithHash (callback k1 h : Str)
  | splitWithHash (callback : Str) (k1s : List Str) (amountMsat : UInt64) (h h2 : Str)
  | mergeWithHash (callback : Str) (k1s : List Str) (h : Str)

namespace MutationBuilder

def build (C : Crates) : MutationBuilder → Except Error Request
  | melt callback k1 pr => C.meltRequest callback k1 pr
  | rotate callback k1 newSecret => C.rotateRequest callback k1 newSecret
  | split callback k1s amountMsat newSecret changeSecret =>
    C.splitRequest callback k1s amountMsat newSecret changeSecret
  | merge callback k1s newSecret => C.mergeRequest callback k1s newSecret
  | rotateWithHash callback k1 h => C.rotateRequestWithHash callback k1 h
  | splitWithHash callback k1s amountMsat h h2 => C.splitRequestWithHash callback k1s amountMsat h h2
  | mergeWithHash callback k1s h => C.mergeRequestWithHash callback k1s h

def kind : MutationBuilder → MutationKind
  | melt .. => .melt
  | rotate .. | rotateWithHash .. => .rotate
  | split .. | splitWithHash .. => .split
  | merge .. | mergeWithHash .. => .merge

/-- The outputs it names, `p1` first; a secret's output is named by its hash. -/
def outputs (C : Crates) : MutationBuilder → List Str
  | melt .. => []
  | rotate _ _ newSecret | merge _ _ newSecret => (C.hashK1 newSecret).toOption.toList
  | split _ _ _ newSecret changeSecret => (C.hashK1 newSecret).toOption.toList ++ (C.hashK1 changeSecret).toOption.toList
  | rotateWithHash _ _ h | mergeWithHash _ _ h => [h]
  | splitWithHash _ _ _ h h2 => [h, h2]

end MutationBuilder

/-- The response's `status` is this string; a missing or non-string one is none. -/
def StatusIs (body : Value) (text : Str) : Prop := body.get? "status".toList = some (.string text)

/-- The fields that certify `p1` and `p2`, each by its current and its legacy name. -/
def certificateFields : List (Str × Str) := [("c".toList, "sig".toList), ("c2".toList, "sig2".toList)]

def Certified (body : Value) (fields : Str × Str) : Prop :=
  ∃ text, text ≠ [] ∧ (asStr body fields.1 = some text ∨ asStr body fields.2 = some text)

/-- An output named as a `cp1` is owed its certificate, and under a strict policy so is every other. -/
def Crates.IsOwed (C : Crates) (policy : Policy) (output : Str) : Prop :=
  (C.decodeCp1 output).isSome ∨ policy.requireSignatures

def Error.isRefusal : Error → Bool
  | .notePending | .noteSpent .. | .noteUnknown .. | .serviceRejected _ => true
  | _ => false

theorem isAmbiguous_of_isRefusal {error : Error} (refusal : error.isRefusal) : error.isAmbiguous = false := by
  cases error <;> first | rfl | cases refusal

/-- How many outputs a mutation of this kind names. -/
def MutationKind.outputs : MutationKind → Nat
  | melt => 0
  | rotate | merge => 1
  | split => 2

theorem statusIs_iff {body : Value} {text : Str} : StatusIs body text ↔ asStr body "status".toList = some text := by
  unfold StatusIs asStr
  cases body.get? "status".toList with
  | none => simp
  | some value => cases value <;> simp [Value.asStr?]

theorem certificate_isSome_iff {body : Value} {current legacy : Str} :
    (certificate body current legacy).isSome ↔ Certified body (current, legacy) := by
  simp only [certificate, Certified, Option.isSome_or, Bool.or_eq_true, Option.isSome_iff_exists,
    Option.filter_eq_some_iff, decide_eq_true_eq]
  constructor
  · rintro (⟨text, found, nonempty⟩ | ⟨text, found, nonempty⟩)
    · exact ⟨text, nonempty, Or.inl found⟩
    · exact ⟨text, nonempty, Or.inr found⟩
  · rintro ⟨text, nonempty, found | found⟩
    · exact Or.inl ⟨text, found, nonempty⟩
    · exact Or.inr ⟨text, found, nonempty⟩

theorem classifyNoteError_isRefusal (reason : Str) : (classifyNoteError reason).isRefusal := by
  rcases classifyNoteError_cases reason with same | same | same | same <;> rw [same] <;> rfl

/-- An output a request was built for is read as a `cp1` afterwards exactly when it was one. -/
theorem Crates.isKeyOutput_iff {output : Str} (usable : (C.decodeNote (Str.trim output)).isSome) :
    C.isKeyOutput output ↔ (C.decodeCp1 output).isSome := by
  have same : decodeBytes "cp".toList (Str.lower (Str.trim output)) = decodeBytes "cp".toList output := by
    rw [← decodeBytes_trim "cp".toList output]
    cases short : hex32 (Str.trim output) with
    | some h =>
      simp only [hex32, Option.ite_none_right_eq_some, Str.trim_trim] at short
      obtain ⟨bytes, digits, _⟩ := Option.bind_eq_some_iff.mp short.2
      have lowered : Hex.decode (Str.lower (Str.trim output)) = some bytes := by rw [Hex.decode_lower, digits]
      rw [decodeBytes_of_hex _ 'p' lowered (by decide) (by decide), decodeBytes_of_hex _ 'p' digits (by decide) (by decide)]
    | none =>
      simp only [decodeNote, short] at usable
      obtain ⟨key, decoded⟩ := Option.isSome_iff_exists.mp usable
      have found := decodeBytes_of_decodeFixed (Option.filter_eq_some_iff.mp decoded).1
      exact decodeBytes_lower found "cp".toList
  rw [isKeyOutput, decodeCp1, decodeCp1, decodeFixed, decodeFixed, same]

theorem Crates.owed_ok {outputs : List Str} {policy : Policy} {returned : Option Str} {index : Nat} {what output : Str}
    (named : outputs[index]? = some output) (usable : (C.decodeNote (Str.trim output)).isSome) :
    C.owed outputs policy returned index what = .ok () ↔ (C.IsOwed policy output → returned.isSome) := by
  rw [IsOwed, ← isKeyOutput_iff usable, owed, named, Option.any_some]
  cases returned <;> cases C.isKeyOutput output <;> cases policy.requireSignatures <;> simp

/-- A confirmed mutation is accepted when each output that is owed a certificate got one in its own field. -/
theorem Crates.owes_ok (body : Value) (policy : Policy) {kind : MutationKind} {outputs : List Str}
    (count : outputs.length = kind.outputs) (usable : ∀ output ∈ outputs, (C.decodeNote (Str.trim output)).isSome) :
    C.owes outputs policy (certificate body "c".toList "sig".toList) (certificate body "c2".toList "sig2".toList) kind =
        .ok () ↔
      ∀ pair ∈ outputs.zip certificateFields, C.IsOwed policy pair.1 → Certified body pair.2 := by
  cases kind with
  | melt =>
    rw [List.eq_nil_of_length_eq_zero count]
    simp [owes]
  | rotate =>
    obtain ⟨output, rfl⟩ := List.length_eq_one_iff.mp count
    rw [owes, owed_ok rfl (usable output (by simp)), certificate_isSome_iff]
    simp [certificateFields]
  | merge =>
    obtain ⟨output, rfl⟩ := List.length_eq_one_iff.mp count
    rw [owes, owed_ok rfl (usable output (by simp)), certificate_isSome_iff]
    simp [certificateFields]
  | split =>
    obtain ⟨output, change, rfl⟩ := List.length_eq_two.mp count
    simp only [owes, bind_eq_ok, exists_const, owed_ok (show [output, change][0]? = some output from rfl) (usable output (by simp)),
      owed_ok (show [output, change][1]? = some change from rfl) (usable change (by simp)), certificate_isSome_iff]
    simp [certificateFields]

theorem outputs_of_hashK1 {secret h : Str} (hashed : C.hashK1 secret = .ok h) : (C.hashK1 secret).toOption.toList = [h] := by
  rw [hashed]
  rfl

/-- What the builder recorded is what it named, and each of these is a note's name. -/
theorem MutationBuilder.build_ok {builder : MutationBuilder} {request : Request} (built : builder.build C = .ok request) :
    request.outputs = builder.outputs C ∧ (builder.outputs C).length = builder.kind.outputs ∧
      ∀ output ∈ builder.outputs C, (C.decodeNote (Str.trim output)).isSome := by
  cases builder with
  | melt callback k1 pr =>
    simp only [build, Crates.meltRequest, bind_eq_ok, pure_eq_ok] at built
    obtain ⟨_, _, rfl⟩ := built
    exact ⟨rfl, rfl, by simp [outputs]⟩
  | rotateWithHash callback k1 h =>
    have mutates := (Crates.rotateRequestWithHash_ok built).1
    exact ⟨mutates.recorded, rfl, mutates.usable⟩
  | splitWithHash callback k1s amountMsat h h2 =>
    have mutates := (Crates.splitRequestWithHash_ok built).1
    exact ⟨mutates.recorded, rfl, mutates.usable⟩
  | mergeWithHash callback k1s h =>
    have mutates := (Crates.mergeRequestWithHash_ok built).1
    exact ⟨mutates.recorded, rfl, mutates.usable⟩
  | rotate callback k1 newSecret =>
    obtain ⟨h, hashed, mutates, _⟩ := Crates.rotateRequest_ok built
    simp only [outputs, outputs_of_hashK1 hashed]
    exact ⟨mutates.recorded, rfl, mutates.usable⟩
  | split callback k1s amountMsat newSecret changeSecret =>
    obtain ⟨h, h2, hashed, hashed2, mutates, _⟩ := Crates.splitRequest_ok built
    simp only [outputs, outputs_of_hashK1 hashed, outputs_of_hashK1 hashed2]
    exact ⟨mutates.recorded, rfl, mutates.usable⟩
  | merge callback k1s newSecret =>
    obtain ⟨h, hashed, mutates, _⟩ := Crates.mergeRequest_ok built
    simp only [outputs, outputs_of_hashK1 hashed]
    exact ⟨mutates.recorded, rfl, mutates.usable⟩

section Classified

variable {body : Value} {kind : MutationKind} {outputs : List Str} {policy : Policy}

theorem not_ok_of_error (refused : StatusIs body "ERROR".toList) : ¬StatusIs body "OK".toList := by
  intro confirmed
  rw [statusIs_iff] at confirmed refused
  rw [confirmed] at refused
  exact absurd (Option.some.inj refused) (by decide)

theorem classified_of_error (refused : StatusIs body "ERROR".toList) :
    ∃ reason, classified body = .error (classifyNoteError reason) := by
  rw [statusIs_iff] at refused
  rw [classified, rejectError, if_pos refused]
  exact ⟨_, rfl⟩

theorem classified_of_not_error (accepted : ¬StatusIs body "ERROR".toList) : classified body = .ok () := by
  rw [statusIs_iff] at accepted
  rw [classified, rejectError, if_neg accepted]

theorem Crates.parseMutation_of_error (refused : StatusIs body "ERROR".toList) :
    ∃ error, C.parseMutation body kind outputs policy = .error error ∧ error.isRefusal := by
  obtain ⟨reason, same⟩ := classified_of_error refused
  refine ⟨_, ?_, classifyNoteError_isRefusal reason⟩
  rw [parseMutation, same]
  rfl

theorem Crates.parseMutation_of_neither (accepted : ¬StatusIs body "ERROR".toList) (unconfirmed : ¬StatusIs body "OK".toList) :
    C.parseMutation body kind outputs policy = .error unconfirmedMutation := by
  rw [statusIs_iff] at unconfirmed
  rw [parseMutation, classified_of_not_error accepted, refuseIf, if_pos unconfirmed]
  rfl

/-- A confirmed mutation is accepted, or was landed without a certificate it owed. -/
theorem Crates.parseMutation_of_ok (confirmed : StatusIs body "OK".toList) :
    ((∃ response, C.parseMutation body kind outputs policy = .ok response) ∧
        C.owes outputs policy (certificate body "c".toList "sig".toList) (certificate body "c2".toList "sig2".toList) kind =
          .ok ()) ∨
      (∃ message, C.parseMutation body kind outputs policy = .error (.unverifiable message [])) ∧
        C.owes outputs policy (certificate body "c".toList "sig".toList) (certificate body "c2".toList "sig2".toList) kind ≠
          .ok () := by
  have accepted := fun refused => not_ok_of_error refused confirmed
  have whole := classified_of_not_error accepted
  rw [statusIs_iff] at confirmed
  rw [parseMutation, whole, refuseIf, if_neg (not_not.mpr confirmed)]
  simp only [ok_bind]
  cases owes : C.owes outputs policy (certificate body "c".toList "sig".toList)
      (certificate body "c2".toList "sig2".toList) kind with
  | ok u => exact Or.inl ⟨⟨_, rfl⟩, rfl⟩
  | error error =>
    obtain ⟨message, rfl⟩ := owes_error owes
    exact Or.inr ⟨⟨message, rfl⟩, by simp⟩

end Classified

/-- The answer to a mutation, from its builder to its verdict. -/
theorem Crates.mutation_verdict {builder : MutationBuilder} {request : Request} (built : builder.build C = .ok request)
    (body : Value) (policy : Policy) :
    ((∃ error, C.parseMutation body builder.kind request.outputs policy = .error error ∧ error.isRefusal) ↔
        StatusIs body "ERROR".toList) ∧
      ((∃ error, C.parseMutation body builder.kind request.outputs policy = .error error ∧ error.isAmbiguous) ↔
        ¬StatusIs body "ERROR".toList ∧ ¬StatusIs body "OK".toList) ∧
      (StatusIs body "OK".toList →
        ((∃ response, C.parseMutation body builder.kind request.outputs policy = .ok response) ∨
          ∃ message, C.parseMutation body builder.kind request.outputs policy = .error (.unverifiable message [])) ∧
        ((∃ response, C.parseMutation body builder.kind request.outputs policy = .ok response) ↔
          ∀ pair ∈ (builder.outputs C).zip certificateFields, C.IsOwed policy pair.1 → Certified body pair.2)) := by
  obtain ⟨recorded, count, usable⟩ := MutationBuilder.build_ok built
  have accepts := owes_ok body policy count usable
  rw [← recorded] at accepts ⊢
  by_cases refused : StatusIs body "ERROR".toList
  · obtain ⟨error, same, refusal⟩ : ∃ error,
        C.parseMutation body builder.kind request.outputs policy = .error error ∧ error.isRefusal :=
      parseMutation_of_error refused
    rw [exists_error_iff same, exists_error_iff same]
    refine ⟨iff_of_true refusal refused, iff_of_false ?_ fun neither => neither.1 refused,
      fun confirmed => absurd confirmed (not_ok_of_error refused)⟩
    rw [isAmbiguous_of_isRefusal refusal]
    exact Bool.false_ne_true
  · by_cases confirmed : StatusIs body "OK".toList
    · rcases parseMutation_of_ok (C := C) confirmed with ⟨⟨response, same⟩, owes⟩ | ⟨⟨message, same⟩, owes⟩
      · refine ⟨iff_of_false (not_exists_error same) refused,
          iff_of_false (not_exists_error same) fun neither => neither.2 confirmed, fun _ => ⟨Or.inl ⟨response, same⟩, ?_⟩⟩
        exact iff_of_true ⟨response, same⟩ (accepts.mp owes)
      · rw [exists_error_iff same, exists_error_iff same]
        refine ⟨iff_of_false Bool.false_ne_true refused,
          iff_of_false Bool.false_ne_true fun neither => neither.2 confirmed, fun _ => ⟨Or.inr ⟨message, same⟩, ?_⟩⟩
        exact iff_of_false (by simp [same]) fun all => owes (accepts.mpr all)
    · have same : C.parseMutation body builder.kind request.outputs policy = .error unconfirmedMutation :=
        parseMutation_of_neither refused confirmed
      rw [exists_error_iff same, exists_error_iff same]
      exact ⟨iff_of_false Bool.false_ne_true refused, iff_of_true rfl ⟨refused, confirmed⟩, fun ok => absurd ok confirmed⟩

def confirmedWith (field : Str) : Value :=
  .object [("status".toList, .string "OK".toList), (field, .string "cs1".toList)]

/-- A certificate for another output is none for this one. -/
theorem reference.rotation_verdicts :
    (∃ response, reference.parseMutation (confirmedWith "sig".toList) .rotate rotation.outputs
      { requireSignatures := true } = .ok response) ∧
    ¬∃ response, reference.parseMutation (confirmedWith "c2".toList) .rotate rotation.outputs
      { requireSignatures := true } = .ok response := by
  have built : (MutationBuilder.rotate mintCallback spentK1 freshSecret).build reference = .ok rotation :=
    reference.rotateRequest_rotation
  have named : (MutationBuilder.rotate mintCallback spentK1 freshSecret).outputs reference = [freshHash] := by decide +kernel
  have inField := Crates.mutation_verdict built (confirmedWith "sig".toList) { requireSignatures := true }
  have inOther := Crates.mutation_verdict built (confirmedWith "c2".toList) { requireSignatures := true }
  rw [named] at inField inOther
  refine ⟨(inField.2.2 rfl).2.mpr ?_, fun accepted => ?_⟩
  · intro pair member _
    rw [List.mem_singleton.mp member]
    exact ⟨"cs1".toList, by decide, Or.inr rfl⟩
  · obtain ⟨text, _, current | legacy⟩ := (inOther.2.2 rfl).2.mp accepted _ List.mem_cons_self (Or.inr rfl)
    · cases current
    · cases legacy

end LnurlCash
