import LnurlCash.AmountCodec
import LnurlCash.Invoices

namespace LnurlCash

/-- What an invoice's data is made of, its checksum unread. -/
def isDataChar (c : Char) : Bool := c.isLower || c.isDigit

/-- A loose shape check, anchored to a network's prefix. -/
def isBolt11Invoice (value : Str) : Bool :=
  match splitAtSeparator (Str.lower (Str.trim value)) with
  | none => false
  | some (hrp, data) =>
    if data = [] || !data.all isDataChar then false else (parseHrp hrp).isSome

/-- Equality up to the case of ASCII letters and surrounding whitespace. -/
def sameInvoice (a b : Str) : Bool := decide (Str.lower (Str.trim a) = Str.lower (Str.trim b))

theorem sameInvoice_iff {a b : Str} : sameInvoice a b ↔ Str.lower (Str.trim a) = Str.lower (Str.trim b) :=
  decide_eq_true_iff

/-- A human-readable part whose number a `u64` holds, the separator, and data behind it. -/
structure Bolt11Text where
  part : Bolt11Part
  data : Str
  fits : part.value < 2 ^ 64
  nonempty : data ≠ []
  lowercase : data.all isDataChar
  absent : '1' ∉ data

namespace Bolt11Text

def text (invoice : Bolt11Text) : Str := invoice.part.hrp ++ '1' :: invoice.data

variable {invoice : Bolt11Text} {value : Str}

end Bolt11Text

theorem stripNetworkPrefix_eq_some {hrp rest : Str} (stripped : stripNetworkPrefix hrp = some rest) :
    ∃ network ∈ networkPrefixes, hrp = "ln".toList ++ (network ++ rest) := by
  simp only [stripNetworkPrefix, Option.bind_eq_bind, Option.bind_eq_some_iff, Str.stripPrefix_eq_some] at stripped
  obtain ⟨behind, rfl, found⟩ := stripped
  obtain ⟨network, known, same⟩ := List.exists_of_findSome?_eq_some found
  exact ⟨network, known, by rw [Str.stripPrefix_eq_some.mp same]⟩

theorem exists_suffix {multiplier : Str} (known : multiplier ∈ bolt11Multipliers) :
    ∃ unit : Multiplier, multiplier = unit.suffix := by
  simp only [bolt11Multipliers, List.mem_cons, List.not_mem_nil, or_false] at known
  rcases known with rfl | rfl | rfl | rfl | rfl
  · exact ⟨.whole, rfl⟩
  · exact ⟨.milli, rfl⟩
  · exact ⟨.micro, rfl⟩
  · exact ⟨.nano, rfl⟩
  · exact ⟨.pico, rfl⟩

/-- What `parse_hrp` takes is written as a part, its number no more than a `u64`. -/
theorem exists_part {hrp : Str} (parsed : (parseHrp hrp).isSome) :
    ∃ part : Bolt11Part, hrp = part.hrp ∧ part.value < 2 ^ 64 := by
  obtain ⟨_, parsed⟩ := Option.isSome_iff_exists.mp parsed
  obtain ⟨rest, stripped, read⟩ := Option.bind_eq_some_iff.mp parsed
  obtain ⟨network, known, rfl⟩ := stripNetworkPrefix_eq_some stripped
  dsimp only at read
  split at read
  · cases read
  rename_i listed
  rw [Bool.not_eq_true, Bool.not_eq_false', List.contains_iff_mem] at listed
  obtain ⟨unit, same⟩ := exists_suffix listed
  have decimal : (rest.takeWhile Char.isDigit).all Char.isDigit :=
    List.all_eq_true.mpr fun c member => List.mem_takeWhile_imp member
  refine ⟨{ network, digits := rest.takeWhile Char.isDigit, multiplier := unit, known, decimal }, ?_, ?_⟩
  · rw [Bolt11Part.hrp, ← same, List.takeWhile_append_dropWhile]
  · change Nat.ofDigitChars 10 (rest.takeWhile Char.isDigit) 0 < 2 ^ 64
    split at read
    · rename_i empty
      rw [empty]
      decide
    · obtain ⟨amount, number, _⟩ := Option.bind_eq_some_iff.mp read
      rw [Str.parseDigits, Option.ite_none_right_eq_some] at number
      exact number.1.2.2

namespace Bolt11Text

variable {invoice : Bolt11Text} {value : Str}

theorem lowercase_of_mem {c : Char} (member : c ∈ invoice.data) :
    ¬(65 ≤ c.toNat ∧ c.toNat ≤ 90) ∧ Str.isWhitespace c = false := by
  have lowercase : c.isLower ∨ c.isDigit := by
    simpa [isDataChar] using List.all_eq_true.mp invoice.lowercase c member
  have range : 48 ≤ c.toNat ∧ c.toNat ≤ 57 ∨ 97 ≤ c.toNat ∧ c.toNat ≤ 122 := by
    rcases lowercase with letter | digit
    · have bounds : (decide (c.val ≥ 'a'.val) && decide (c.val ≤ 'z'.val)) = true := letter
      rw [Bool.and_eq_true, decide_eq_true_eq, decide_eq_true_eq] at bounds
      exact Or.inr bounds
    · exact Or.inl (Str.isDigit_iff.mp digit)
  refine ⟨by omega, ?_⟩
  rw [Str.isWhitespace, decide_eq_false_iff_not]
  omega

theorem lower_data (invoice : Bolt11Text) : Str.lower invoice.data = invoice.data := by
  refine (List.map_congr_left fun c member => ?_).trans (List.map_id _)
  rw [id_eq, ← Char.toNat_inj, Str.toNat_toLower, if_neg (lowercase_of_mem member).1]

/-- An invoice is written in lowercase, and with nothing around it. -/
theorem lower_trim_text (invoice : Bolt11Text) : Str.lower (Str.trim invoice.text) = invoice.text := by
  have head : ∀ c ∈ invoice.text.head?, Str.isWhitespace c = false := by
    intro c member
    cases member
    decide
  have last : ∀ c ∈ invoice.text.getLast?, Str.isWhitespace c = false := by
    intro c member
    rw [text, List.getLast?_append_of_ne_nil _ (List.cons_ne_nil '1' _),
      List.getLast?_cons_of_ne_nil invoice.nonempty] at member
    exact (lowercase_of_mem (List.mem_of_getLast? member)).2
  rw [Str.trim_eq_self head last, text, Str.lower_append, invoice.part.lower_hrp, Str.lower_cons, invoice.lower_data]
  rfl

theorem sameInvoice_text : sameInvoice value invoice.text ↔ Str.lower (Str.trim value) = invoice.text := by
  rw [sameInvoice_iff, invoice.lower_trim_text]

theorem rsplitOnce_same (same : sameInvoice value invoice.text) :
    Str.rsplitOnce '1' (Str.lower (Str.trim value)) = some (invoice.part.hrp, invoice.data) :=
  Str.rsplitOnce_eq_some.mpr ⟨sameInvoice_text.mp same, invoice.absent⟩

theorem splitAtSeparator_same (same : sameInvoice value invoice.text) :
    splitAtSeparator (Str.lower (Str.trim value)) = some (invoice.part.hrp, invoice.data) := by
  have heads : invoice.part.Heads value := ⟨invoice.data, rsplitOnce_same same⟩
  obtain ⟨data, split⟩ := heads.split
  obtain ⟨parts, cut, long⟩ := Option.bind_eq_some_iff.mp split
  cases (rsplitOnce_same same).symm.trans cut
  dsimp only at long
  split at long
  · cases long
  · cases long
    exact split

end Bolt11Text

theorem isBolt11Invoice_iff (value : Str) :
    isBolt11Invoice value ↔ ∃ invoice : Bolt11Text, sameInvoice value invoice.text := by
  constructor
  · intro accepted
    unfold isBolt11Invoice at accepted
    split at accepted
    · cases accepted
    rename_i hrp data split
    split_ifs at accepted with malformed
    obtain ⟨part, rfl, fits⟩ := exists_part accepted
    have wellFormed : data ≠ [] ∧ data.all isDataChar := by simpa using malformed
    obtain ⟨⟨before, behind⟩, cut, long⟩ := Option.bind_eq_some_iff.mp split
    obtain ⟨whole, absent⟩ := Str.rsplitOnce_eq_some.mp cut
    dsimp only at long
    split at long
    · cases long
    · cases long
      exact ⟨{ part, data, fits, nonempty := wellFormed.1, lowercase := wellFormed.2, absent },
        Bolt11Text.sameInvoice_text.mpr whole⟩
  · rintro ⟨invoice, same⟩
    have parsed : (parseHrp invoice.part.hrp).isSome := by
      rw [invoice.part.parseHrp_hrp, if_pos invoice.fits]
      split <;> rfl
    unfold isBolt11Invoice
    rw [Bolt11Text.splitAtSeparator_same same]
    simp [invoice.nonempty, invoice.lowercase, parsed]

/-- The shape check takes exactly the spellings of invoices the grammar
writes, and of each the amount is read that its prefix states. -/
theorem invoices_read_alike (value : Str) :
    (isBolt11Invoice value ↔ ∃ invoice : Bolt11Text, sameInvoice value invoice.text) ∧
      ∀ invoice : Bolt11Text, sameInvoice value invoice.text → ∀ amount, decodeBolt11AmountMsat value = some amount ↔
        invoice.part.digits ≠ [] ∧ invoice.part.msat = amount.toNat := by
  refine ⟨isBolt11Invoice_iff value, fun invoice same amount => ?_⟩
  by_cases stated : invoice.part.digits = []
  · have parsed := invoice.part.parseHrp_hrp
    rw [if_pos stated] at parsed
    refine iff_of_false ?_ fun stating => stating.1 stated
    simp [decodeBolt11AmountMsat, Bolt11Text.splitAtSeparator_same same, parsed]
  · have heads : invoice.part.Heads value := ⟨invoice.data, Bolt11Text.rsplitOnce_same same⟩
    rw [heads.decode stated, and_iff_right invoice.fits, and_iff_right stated]

example : isBolt11Invoice " LNBC2500u1PVJLUEZ ".toList ∧ isBolt11Invoice "lnurl1dp68gurn8ghj7".toList = false := by
  decide

end LnurlCash
