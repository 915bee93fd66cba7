import LnurlCash.CanonicalSpends
import LnurlCash.LeafOpcodes

namespace LnurlCash

open Script

theorem bearerLeaf_eq_serialize (h : ByteArr 32) : (bearerLeaf h).toList = serialize (hashlock h) := by
  have length : UInt8.ofNat h.toList.length = 0x20 := by rw [h.size]; rfl
  simp only [hashlock, serialize_cons, Instruction.bytes, length, serialize_nil]
  rfl

/-- A leaf read as a hashlock is one. -/
theorem eq_bearerLeaf {script : Bytes} {h : ByteArr 32} (read : bearerHashOfLeaf script = some h) :
    script = (bearerLeaf h).toList := by
  obtain ⟨⟨size, first, second, last⟩, inner⟩ := Option.ite_none_right_eq_some.mp read
  rcases script with _ | ⟨a, _ | ⟨b, rest⟩⟩
  · cases size
  · cases size
  · rw [List.getElem?_cons_zero, Option.some.injEq] at first
    rw [List.getElem?_cons_succ, List.getElem?_cons_zero, Option.some.injEq] at second
    rw [List.getElem?_cons_succ, List.getElem?_cons_succ] at last
    rw [List.length_cons, List.length_cons] at size
    have hash : rest.take 32 = h.toList := Bytes.toArr_eq_some.mp inner
    have final : rest.drop 32 = [0x87] := by
      obtain ⟨within, value⟩ := List.getElem?_eq_some_iff.mp last
      rw [List.drop_eq_getElem_cons within, value, List.drop_of_length_le (by omega)]
    change a :: b :: rest = 0xa8 :: 0x20 :: (h.toList ++ [0x87])
    rw [first, second, ← hash, ← final, List.take_append_drop]

variable {C : Crates} {k1 : Str} {cw1 : Cw1}

theorem Crates.checkSpend_of_decodeCw1 (decoded : C.decodeCw1 k1 = some cw1) :
    ∃ key, C.cw1OutputKey cw1 = some key ∧
      ∀ domain, C.checkSpend k1 domain = some { outputKey := key, verdict := C.scriptPathVerdict cw1 } := by
  obtain ⟨named, _⟩ := decodeCw1_eq_some decoded
  obtain ⟨key, commits⟩ := Option.isSome_iff_exists.mp named
  have trimmed : C.decodeCw1 (Str.trim k1) = some cw1 := by rw [decodeCw1_trim, decoded]
  have spend := decodeSpend_of_decodeCw1 (Str.trim_trim k1) trimmed commits
  rw [decodeSpend_trim] at spend
  refine ⟨key, commits, fun domain => ?_⟩
  simp only [checkSpend, spend, Option.bind_eq_bind, Option.bind_some, Spend.outputKey]

/-- SHA-256 as an opcode has it, from bytes to bytes. -/
def Crates.opSha256 (C : Crates) (bytes : Bytes) : Bytes := (C.sha256 bytes).toList

/-- A hashlock under the current leaf version opens for a witness that satisfies it and fails for any other. -/
theorem Crates.hashlock_verdict {h : ByteArr 32} (current : cw1.controlBlock.headD 0 &&& 0xfe = tapleafVersion)
    (leaf : cw1.script = serialize (hashlock h)) :
    (Satisfies C.opSha256 (hashlock h) cw1.witness → C.scriptPathVerdict cw1 = .opens) ∧
      (¬Satisfies C.opSha256 (hashlock h) cw1.witness →
        C.scriptPathVerdict cw1 = .fails "the witness does not satisfy the leaf".toList) := by
  have allowed : checkLeaf (cw1.controlBlock.headD 0) cw1.script = none := by
    rw [leaf, ← bearerLeaf_eq_serialize, checkLeaf_bearerLeaf current]
  have hash : bearerHashOfLeaf cw1.script = some h := by
    rw [leaf, ← bearerLeaf_eq_serialize, bearerHashOfLeaf_bearerLeaf]
  have same (preimage : Bytes) : C.opSha256 preimage = h.toList ↔ C.sha256 preimage = h := ByteArr.ext_iff.symm
  rw [satisfies_hashlock_iff]
  simp only [same]
  constructor
  · rintro ⟨preimage, lone, small, hashed⟩
    simp only [scriptPathVerdict, allowed, hash, lone]
    exact if_pos ⟨small, hashed⟩
  · intro unsatisfied
    simp only [scriptPathVerdict, allowed, hash]
    rcases witness : cw1.witness with _ | ⟨preimage, _ | ⟨second, rest⟩⟩
    · rfl
    · exact if_neg fun opens => unsatisfied ⟨preimage, witness, opens.1, opens.2⟩
    · rfl

theorem Crates.leaf_of_opens (opens : C.scriptPathVerdict cw1 = .opens) : ∃ h, cw1.script = serialize (hashlock h) := by
  rw [scriptPathVerdict] at opens
  split at opens
  · cases opens
  · split at opens
    · cases opens
    · rename_i h read
      exact ⟨h, by rw [← bearerLeaf_eq_serialize, eq_bearerLeaf read]⟩

/-- What is decided about a decoded script path: a hashlock is judged as its
script runs, and nothing else is opened. -/
theorem Crates.hashlock_decided (decoded : C.decodeCw1 k1 = some cw1) :
    ∃ key, C.cw1OutputKey cw1 = some key ∧ ∀ domain, ∃ verdict,
      C.checkSpend k1 domain = some { outputKey := key, verdict } ∧
        (∀ h, cw1.controlBlock.headD 0 &&& 0xfe = tapleafVersion → cw1.script = serialize (hashlock h) →
          (Satisfies C.opSha256 (hashlock h) cw1.witness → verdict = .opens) ∧
            (¬Satisfies C.opSha256 (hashlock h) cw1.witness → ∃ reason, verdict = .fails reason)) ∧
        (verdict = .opens → ∃ h, cw1.script = serialize (hashlock h)) := by
  obtain ⟨key, commits, checked⟩ := checkSpend_of_decodeCw1 decoded
  refine ⟨key, commits, fun domain => ⟨_, checked domain, fun h current leaf => ?_, leaf_of_opens⟩⟩
  obtain ⟨satisfied, unsatisfied⟩ := hashlock_verdict current leaf
  exact ⟨satisfied, fun other => ⟨_, unsatisfied other⟩⟩

theorem shoutedCw1_opens :
    ∃ key, reference.checkSpend shoutedCw1 "mint.example".toList = some { outputKey := key, verdict := .opens } := by
  have decoded : reference.decodeCw1 shoutedCw1 = some shortCw1 := by decide +kernel
  obtain ⟨key, _, decided⟩ := Crates.hashlock_decided decoded
  obtain ⟨verdict, checked, judged, _⟩ := decided "mint.example".toList
  have satisfied : Satisfies reference.opSha256 (hashlock (Sha256.hash onePreimage.toList)) shortCw1.witness :=
    satisfies_hashlock_iff.mpr ⟨onePreimage.toList, rfl, by decide, rfl⟩
  have opens := (judged (Sha256.hash onePreimage.toList) (by decide) (bearerLeaf_eq_serialize _)).1 satisfied
  exact ⟨key, by rw [checked, opens]⟩

end LnurlCash
