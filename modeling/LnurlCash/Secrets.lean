import LnurlCash.Lib.Hex
import LnurlCash.Crates
import LnurlCash.Errors

namespace LnurlCash

def Crates.hashK1 (C : Crates) (k1 : Str) : Except Error Str :=
  match Hex.decode k1 with
  | none => .error (.protocol "k1 is not hex".toList)
  | some bytes => .ok (Hex.encode (C.sha256 bytes).toList)

/-- 64 hex characters: a preimage where a spend goes, a hash where a `cp1` goes. -/
def isPreimage (value : Str) : Bool :=
  let trimmed := Str.trim value
  decide (Str.byteLen trimmed = 64) && trimmed.all Hex.isHexDigit

theorem isPreimage_iff {value : Str} :
    isPreimage value ↔ (Str.trim value).length = 64 ∧ ∀ c ∈ Str.trim value, Hex.isHexDigit c := by
  simp only [isPreimage, Bool.and_eq_true, decide_eq_true_eq, List.all_eq_true]
  constructor
  · rintro ⟨size, digits⟩
    rw [Str.byteLen_of_ascii fun c member => Hex.toNat_lt_of_isHexDigit (digits c member)] at size
    exact ⟨size, digits⟩
  · rintro ⟨size, digits⟩
    rw [Str.byteLen_of_ascii fun c member => Hex.toNat_lt_of_isHexDigit (digits c member)]
    exact ⟨size, digits⟩

@[simp] theorem isPreimage_trim (value : Str) : isPreimage (Str.trim value) = isPreimage value := by
  simp only [isPreimage, Str.trim_trim]

@[simp] theorem isPreimage_lower (value : Str) : isPreimage (Str.lower value) = isPreimage value := by
  rw [Bool.eq_iff_iff, isPreimage_iff, isPreimage_iff, Str.trim_lower]
  simp only [Str.lower, List.length_map, List.mem_map, forall_exists_index, and_imp, forall_apply_eq_imp_iff₂,
    Hex.isHexDigit_toLower]

end LnurlCash
