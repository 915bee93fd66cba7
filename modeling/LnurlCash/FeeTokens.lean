import LnurlCash.Fees

namespace LnurlCash

/-- A run of decimal digits, of any length, and its value. -/
structure Numeral (text : Str) (n : Nat) : Prop where
  nonempty : text ≠ []
  digits : ∀ c ∈ text, c.isDigit
  value : Nat.ofDigitChars 10 text 0 = n

/-- A `Mint fees:` token behind `front` whose first two values are decimal
integers of any size, the second ended by a comma, whitespace or the end. -/
def NamesFee (text front : Str) (base ppm : Nat) : Prop :=
  ∃ spaces first second rest : Str,
    text = front ++ (mintFeesToken ++ (spaces ++ (first ++ ',' :: (second ++ rest)))) ∧
      (∀ c ∈ spaces, Str.isWhitespace c) ∧ Numeral first base ∧ Numeral second ppm ∧
      ∀ c ∈ rest.head?, c = ',' ∨ Str.isWhitespace c

/-- A fee that withholds nothing. -/
def MintFee.isZero (fee : MintFee) : Prop :=
  fee.baseFeeMsat = 0 ∧ fee.feePpm = 0 ∧ fee.addressFeeMsat.getD 0 = 0

/-- The fees a payRequest can advertise: the values are safe integers, the rate
leaves something, and not all of them are zero. -/
structure MintFee.Advertisable (fee : MintFee) : Prop where
  base : fee.baseFeeMsat ≤ maxSafeInteger
  ppm : fee.feePpm < 1000000
  address : ∀ value ∈ fee.addressFeeMsat, value ≤ maxSafeInteger
  withholds : ¬fee.isZero

/-- A fee's values in decimal, joined by commas. -/
def MintFee.values (fee : MintFee) : Str :=
  Str.decimal fee.baseFeeMsat.toNat ++ ',' :: (Str.decimal fee.feePpm.toNat ++
    match fee.addressFeeMsat with
    | some address => ',' :: Str.decimal address.toNat
    | none => [])

/-- The texts of the `text/plain` entries, in order. -/
def plainTexts (entries : List (List Value)) : List Str :=
  (entries.filter fun entry => decide (entry.head?.bind Value.asStr? = some "text/plain".toList)).filterMap
    fun entry => entry[1]?.bind Value.asStr?

/-! ### Finding the token -/

/-- A needle whose first character is in it once cannot overlap itself, so what
stands before one of it, if it holds none, hides no earlier one. -/
theorem afterFirst_append {c : Char} {tail front : Str} (single : c ∉ tail) (absent : ¬c :: tail <:+: front)
    (rest : Str) :
    afterFirst (c :: tail) (front ++ (c :: tail ++ rest)) = some rest := by
  induction front with
  | nil =>
    have found : (c :: tail).isPrefixOf (c :: (tail ++ rest)) :=
      List.isPrefixOf_iff_prefix.mpr (List.prefix_append (c :: tail) rest)
    have after : (c :: (tail ++ rest)).drop (c :: tail).length = rest := by
      rw [← List.cons_append, List.drop_left]
    rw [List.nil_append, List.cons_append, afterFirst, if_pos found, after]
  | cons d front ih =>
    have later : ¬c :: tail <:+: front := fun inside => absent (inside.trans (List.suffix_cons d front).isInfix)
    have missed : ¬(c :: tail).isPrefixOf (d :: (front ++ (c :: tail ++ rest))) := by
      intro starts
      have needle := List.isPrefixOf_iff_prefix.mp starts
      have whole : d :: front <+: d :: (front ++ (c :: tail ++ rest)) := List.prefix_append (d :: front) _
      rcases List.prefix_or_prefix_of_prefix needle whole with within | overlaps
      · exact absent within.isInfix
      · obtain ⟨more, joined⟩ := overlaps
        obtain ⟨beyond, spelled⟩ := needle
        rw [← joined, List.append_assoc, ← List.cons_append, List.append_cancel_left_eq] at spelled
        cases more with
        | nil =>
          rw [List.append_nil] at joined
          exact absent (joined ▸ List.infix_refl _)
        | cons e more =>
          obtain ⟨again, _⟩ := List.cons.inj spelled
          obtain ⟨first, same⟩ := List.cons.inj joined
          rw [← same, ← first, ← again] at single
          exact single (List.mem_append_right front List.mem_cons_self)
    rw [List.cons_append, afterFirst, if_neg missed, ih later]

/-! ### Reading its values -/

theorem Numeral.parses {text : Str} {n : Nat} (numeral : Numeral text n) (safe : n ≤ maxSafeInteger.toNat) :
    valueOf text = some (UInt64.ofNat n) := by
  have room : maxSafeInteger.toNat < 2 ^ 64 := maxSafeInteger.toNat_lt
  have small : n < 2 ^ 64 := by omega
  have digits : Str.parseDigits (2 ^ 64) text = some n := by
    rw [Str.parseDigits, numeral.value, if_pos ⟨numeral.nonempty, List.all_eq_true.mpr numeral.digits, small⟩]
  have kept : UInt64.ofNat n ≤ maxSafeInteger := by
    rw [UInt64.le_iff_toNat_le, UInt64.toNat_ofNat_of_lt' small]
    exact safe
  rw [valueOf, digits, Option.map_some, Option.filter_some, if_pos (decide_eq_true kept)]

theorem numeral_decimal (n : Nat) : Numeral (Str.decimal n) n where
  nonempty := Str.decimal_ne_nil n
  digits := fun _ member => Str.isDigit_of_mem_decimal member
  value := Str.ofDigitChars_decimal n

/-- A digit is neither a comma nor whitespace. -/
theorem plain_of_isDigit {c : Char} (digit : c.isDigit) : c ≠ ',' ∧ Str.isWhitespace c = false := by
  have range := Str.isDigit_iff.mp digit
  constructor
  · rintro rfl
    exact absurd digit (by decide)
  · rw [Str.isWhitespace, decide_eq_false_iff_not]
    omega

theorem Numeral.comma_notMem {text : Str} {n : Nat} (numeral : Numeral text n) : ',' ∉ text := fun member =>
  (plain_of_isDigit (numeral.digits ',' member)).1 rfl

theorem Numeral.spaceless {text : Str} {n : Nat} (numeral : Numeral text n) : ∀ c ∈ text, Str.isWhitespace c = false :=
  fun c member => (plain_of_isDigit (numeral.digits c member)).2

theorem spaceless_joined {first rest : Str} (left : ∀ c ∈ first, Str.isWhitespace c = false)
    (right : ∀ c ∈ rest, Str.isWhitespace c = false) : ∀ c ∈ first ++ ',' :: rest, Str.isWhitespace c = false := by
  intro c member
  rcases List.mem_append.mp member with inside | member
  · exact left c inside
  · rcases List.mem_cons.mp member with rfl | inside
    · decide
    · exact right c inside

/-- Behind the first token and any whitespace, the values are what stands
before the next whitespace. -/
theorem parseToken_eq {front spaces values after first second : Str} {base ppm : UInt64} {more : List Str}
    (absent : ¬mintFeesToken <:+: front) (blank : ∀ c ∈ spaces, Str.isWhitespace c)
    (solid : ∀ c ∈ values, Str.isWhitespace c = false) (ends : ∀ c ∈ after.head?, Str.isWhitespace c)
    (split : values.splitOn ',' = first :: second :: more) (left : valueOf first = some base)
    (right : valueOf second = some ppm) (rate : ppm < 1000000) :
    parseToken (front ++ (mintFeesToken ++ (spaces ++ (values ++ after)))) =
      some { baseFeeMsat := base, feePpm := ppm, addressFeeMsat := more.head?.bind valueOf } := by
  have found : afterFirst mintFeesToken (front ++ (mintFeesToken ++ (spaces ++ (values ++ after)))) =
      some (spaces ++ (values ++ after)) := afterFirst_append (by decide) absent _
  have trimmed : Str.trimStart (spaces ++ (values ++ after)) = values ++ after := by
    have stays : Str.trimStart (values ++ after) = values ++ after := by
      cases values with
      | nil => cases split
      | cons c rest => exact Str.trimStart_eq_self fun d head => by cases head; exact solid c List.mem_cons_self
    rw [Str.trimStart, List.dropWhile_append_of_pos blank]
    exact stays
  have taken : (values ++ after).takeWhile (fun c => !Str.isWhitespace c) = values := by
    have stops : after.takeWhile (fun c => !Str.isWhitespace c) = [] := by
      cases after with
      | nil => rfl
      | cons c rest => exact List.takeWhile_cons_of_neg (by simp [ends c rfl])
    rw [List.takeWhile_append_of_pos fun c member => by simp [solid c member], stops, List.append_nil]
  have below : ¬ppm ≥ 1000000 := UInt64.not_le.mpr rate
  simp only [parseToken, found, trimmed, taken, split, left, right, Option.bind_eq_bind, Option.bind_some, if_neg below]

/-- A text up to its first whitespace, and from there on. -/
theorem exists_solid (text : Str) : ∃ solid after, text = solid ++ after ∧
    (∀ c ∈ solid, Str.isWhitespace c = false) ∧ ∀ c ∈ after.head?, Str.isWhitespace c := by
  induction text with
  | nil => exact ⟨[], [], rfl, by simp, by simp⟩
  | cons c rest ih =>
    obtain ⟨solid, after, whole, spaceless, ends⟩ := ih
    by_cases space : Str.isWhitespace c
    · refine ⟨[], c :: rest, rfl, by simp, fun d head => ?_⟩
      cases head
      exact space
    · refine ⟨c :: solid, after, congrArg (c :: ·) whole, fun d member => ?_, ends⟩
      rcases List.mem_cons.mp member with rfl | inside
      · exact Bool.eq_false_iff.mpr space
      · exact spaceless d inside

/-- Two numbers joined by a comma are the first two values, whatever ends the second. -/
theorem Numeral.splitOn_joined {first second rest : Str} {base ppm : Nat} (left : Numeral first base)
    (right : Numeral second ppm) (comma : ∀ c ∈ rest.head?, c = ',') :
    ∃ more, (first ++ ',' :: (second ++ rest)).splitOn ',' = first :: second :: more := by
  rw [List.splitOn_append_cons_self_of_not_mem left.comma_notMem]
  cases rest with
  | nil => exact ⟨[], by rw [List.append_nil, List.splitOn_eq_singleton right.comma_notMem]⟩
  | cons c rest =>
    obtain rfl := comma c rfl
    exact ⟨_, by rw [List.splitOn_append_cons_self_of_not_mem right.comma_notMem]⟩

/-- A named fee of safe size behind the first token is read, whatever follows its two values. -/
theorem NamesFee.parses {text front : Str} {base ppm : Nat} (named : NamesFee text front base ppm)
    (absent : ¬mintFeesToken <:+: front) (safe : base ≤ maxSafeInteger.toNat) (rate : ppm < 1000000) :
    ∃ fee, parseToken text = some fee ∧ fee.baseFeeMsat.toNat = base ∧ fee.feePpm.toNat = ppm := by
  obtain ⟨spaces, first, second, rest, rfl, blank, left, right, stops⟩ := named
  obtain ⟨solid, after, rfl, spaceless, ends⟩ := exists_solid rest
  have room : maxSafeInteger.toNat < 2 ^ 64 := maxSafeInteger.toNat_lt
  have million : 1000000 ≤ maxSafeInteger.toNat := by decide
  have baseValue : (UInt64.ofNat base).toNat = base := UInt64.toNat_ofNat_of_lt' (show base < 2 ^ 64 by omega)
  have ppmValue : (UInt64.ofNat ppm).toNat = ppm := UInt64.toNat_ofNat_of_lt' (show ppm < 2 ^ 64 by omega)
  have below : UInt64.ofNat ppm < 1000000 := by
    rw [UInt64.lt_iff_toNat_lt, ppmValue]
    exact rate
  -- what ends the second value and is solid is a comma
  have comma : ∀ c ∈ solid.head?, c = ',' := by
    intro c head
    cases solid with
    | nil => cases head
    | cons d solid =>
      cases head
      have solidHead := spaceless c List.mem_cons_self
      rcases stops c rfl with same | space
      · exact same
      · rw [solidHead] at space
        cases space
  obtain ⟨more, split⟩ := left.splitOn_joined right comma
  have values : ∀ c ∈ first ++ ',' :: (second ++ solid), Str.isWhitespace c = false := by
    refine spaceless_joined left.spaceless fun c member => ?_
    rcases List.mem_append.mp member with inside | behind
    · exact right.spaceless c inside
    · exact spaceless c behind
  have read := parseToken_eq absent blank values ends split (left.parses safe) (right.parses (by omega)) below
  refine ⟨{
    baseFeeMsat := UInt64.ofNat base
    feePpm := UInt64.ofNat ppm
    addressFeeMsat := more.head?.bind valueOf }, ?_, baseValue, ppmValue⟩
  simpa only [List.append_assoc, List.cons_append] using read

/-! ### The entries -/

theorem findSome?_texts (entries : List (List Value)) :
    (entries.findSome? fun entry => (entry[1]?.bind Value.asStr?).bind parseToken) =
      (entries.filterMap fun entry => entry[1]?.bind Value.asStr?).findSome? parseToken := by
  induction entries with
  | nil => rfl
  | cons entry rest ih =>
    rw [List.findSome?_cons, List.filterMap_cons, ih]
    cases entry[1]?.bind Value.asStr? <;> rfl

theorem parseMintFee_eq_some {read : Str → Option (List (List Value))} {metadata : Str} {fee : MintFee} :
    parseMintFee read metadata = some fee ↔ ∃ entries, read metadata = some entries ∧
      (plainTexts entries).findSome? parseToken = some fee ∧ ¬fee.isZero := by
  constructor
  · intro parsed
    obtain ⟨entries, parsed, rest⟩ := Option.bind_eq_some_iff.mp parsed
    obtain ⟨found, first, kept⟩ := Option.bind_eq_some_iff.mp rest
    obtain ⟨withholds, same⟩ := Option.ite_none_left_eq_some.mp kept
    cases same
    exact ⟨entries, parsed, (findSome?_texts _).symm.trans first, withholds⟩
  · rintro ⟨entries, parsed, first, withholds⟩
    exact Option.bind_eq_some_iff.mpr ⟨entries, parsed,
      Option.bind_eq_some_iff.mpr ⟨fee, (findSome?_texts _).trans first, if_neg withholds⟩⟩

theorem plainTexts_append (front back : List (List Value)) :
    plainTexts (front ++ back) = plainTexts front ++ plainTexts back := by
  rw [plainTexts, List.filter_append, List.filterMap_append]
  rfl

theorem plainTexts_cons (text : Str) (extra : List Value) (rest : List (List Value)) :
    plainTexts ((.string "text/plain".toList :: .string text :: extra) :: rest) = text :: plainTexts rest := rfl

/-- Every fee that is read back is one that can be advertised. -/
theorem parseToken_advertisable {text : Str} {fee : MintFee} (parsed : parseToken text = some fee)
    (withholds : ¬fee.isZero) :
    fee.Advertisable := by
  obtain ⟨base, ppm⟩ := parseToken_bounds parsed
  refine ⟨base, ppm, ?_, withholds⟩
  intro value address
  simp only [parseToken, Option.bind_eq_bind, Option.bind_eq_some_iff] at parsed
  obtain ⟨rest, _, parsed⟩ := parsed
  split at parsed
  · obtain ⟨_, _, _, _, parsed⟩ := by simpa only [Option.bind_eq_some_iff] using parsed
    obtain ⟨_, same⟩ := Option.ite_none_left_eq_some.mp parsed
    cases same
    obtain ⟨_, _, read⟩ := Option.bind_eq_some_iff.mp address
    exact valueOf_le read
  · cases parsed

/-- A value written in decimal is solid, and read as it was. -/
theorem valueOf_decimal {value : UInt64} (safe : value ≤ maxSafeInteger) :
    valueOf (Str.decimal value.toNat) = some value := by
  rw [(numeral_decimal value.toNat).parses (UInt64.le_iff_toNat_le.mp safe), UInt64.ofNat_toNat]

theorem MintFee.spaceless_values (fee : MintFee) : ∀ c ∈ fee.values, Str.isWhitespace c = false := by
  have decimal (n : Nat) := (numeral_decimal n).spaceless
  obtain ⟨base, ppm, address⟩ := fee
  cases address with
  | none =>
    rw [values, List.append_nil]
    exact spaceless_joined (decimal _) (decimal _)
  | some address => exact spaceless_joined (decimal _) (spaceless_joined (decimal _) (decimal _))

theorem MintFee.splitOn_values (fee : MintFee) : fee.values.splitOn ',' =
    Str.decimal fee.baseFeeMsat.toNat :: Str.decimal fee.feePpm.toNat ::
      (fee.addressFeeMsat.map fun address => Str.decimal address.toNat).toList := by
  have whole (n : Nat) := (numeral_decimal n).comma_notMem
  obtain ⟨base, ppm, address⟩ := fee
  cases address with
  | none =>
    rw [values, List.splitOn_append_cons_self_of_not_mem (whole _), List.append_nil, List.splitOn_eq_singleton (whole _)]
    rfl
  | some address =>
    rw [values, List.splitOn_append_cons_self_of_not_mem (whole _), List.splitOn_append_cons_self_of_not_mem (whole _),
      List.splitOn_eq_singleton (whole _)]
    rfl

theorem MintFee.Advertisable.parseToken_values {fee : MintFee} (advertisable : fee.Advertisable)
    {front spaces after : Str}
    (absent : ¬mintFeesToken <:+: front) (blank : ∀ c ∈ spaces, Str.isWhitespace c)
    (ends : ∀ c ∈ after.head?, Str.isWhitespace c) :
    parseToken (front ++ mintFeesToken ++ spaces ++ fee.values ++ after) = some fee := by
  have left := valueOf_decimal advertisable.base
  have below : (1000000 : UInt64) ≤ maxSafeInteger := by decide
  have right := valueOf_decimal (UInt64.le_trans (UInt64.le_of_lt advertisable.ppm) below)
  have third : (fee.addressFeeMsat.map fun address => Str.decimal address.toNat).toList.head?.bind valueOf =
      fee.addressFeeMsat := by
    cases stated : fee.addressFeeMsat with
    | none => rfl
    | some address => exact valueOf_decimal (advertisable.address address stated)
  have read := parseToken_eq absent blank fee.spaceless_values ends fee.splitOn_values left right advertisable.ppm
  rw [third] at read
  simp only [List.append_assoc]
  exact read

/-- An advertised fee is read back exactly, wherever it is written, and no
other fee is. -/
theorem parseMintFee_reads_back (read : Str → Option (List (List Value))) :
    (∀ metadata fee, parseMintFee read metadata = some fee → fee.Advertisable) ∧
      ∀ fee : MintFee, fee.Advertisable → ∀ front spaces after : Str, ¬mintFeesToken <:+: front →
        (∀ c ∈ spaces, Str.isWhitespace c) → (∀ c ∈ after.head?, Str.isWhitespace c) →
          ∀ metadata entries extra later, (∀ text ∈ plainTexts entries, parseToken text = none) →
            read metadata = some (entries ++ (.string "text/plain".toList ::
              .string (front ++ mintFeesToken ++ spaces ++ fee.values ++ after) :: extra) :: later) →
              parseMintFee read metadata = some fee := by
  constructor
  · intro metadata fee parsed
    obtain ⟨entries, _, first, withholds⟩ := parseMintFee_eq_some.mp parsed
    obtain ⟨text, _, token⟩ := List.exists_of_findSome?_eq_some first
    exact parseToken_advertisable token withholds
  · intro fee advertisable front spaces after absent blank ends metadata entries extra later silent parsed
    have token := advertisable.parseToken_values absent blank ends
    refine parseMintFee_eq_some.mpr ⟨_, parsed, ?_, advertisable.withholds⟩
    rw [plainTexts_append, plainTexts_cons, List.findSome?_append, List.findSome?_eq_none_iff.mpr silent,
      Option.none_or,
      List.findSome?_cons, token]

/-- A metadata whose text overlaps the token's own letters. -/
def overlappingMetadata : Str :=
  "[[\"text/plain\",\"a mint\"],[\"text/plain\",\"Mint fees Mint feMint fees:  1000,2000,21000 thanks\"]]".toList

def overlappingEntries : List (List Value) := [
  [.string "text/plain".toList, .string "a mint".toList],
  [.string "text/plain".toList, .string "Mint fees Mint feMint fees:  1000,2000,21000 thanks".toList]]

def overlappingRead (text : Str) : Option (List (List Value)) :=
  if text = overlappingMetadata then some overlappingEntries else none

theorem overlappingMetadata_read : parseMintFee overlappingRead overlappingMetadata =
    some { baseFeeMsat := 1000, feePpm := 2000, addressFeeMsat := some 21000 } := by
  have absent : ¬mintFeesToken <:+: "Mint fees Mint fe".toList := by decide
  have silent : ∀ text ∈ plainTexts [[.string "text/plain".toList, .string "a mint".toList]],
      parseToken text = none := by
    intro text member
    rw [List.mem_singleton.mp member]
    decide +kernel
  have blank : ∀ c ∈ "  ".toList, Str.isWhitespace c := List.all_eq_true.mp (by decide)
  have ends : ∀ c ∈ " thanks".toList.head?, Str.isWhitespace c := by
    intro c head
    cases head
    decide
  have advertisable : MintFee.Advertisable { baseFeeMsat := 1000, feePpm := 2000, addressFeeMsat := some 21000 } := {
    base := by decide
    ppm := by decide
    address := by
      intro value stated
      cases stated
      decide
    withholds := fun zero => absurd zero.1 (by decide) }
  exact (parseMintFee_reads_back overlappingRead).2 _ advertisable "Mint fees Mint fe".toList "  ".toList
    " thanks".toList
    absent blank ends overlappingMetadata [[.string "text/plain".toList, .string "a mint".toList]] [] [] silent
      (if_pos rfl)

end LnurlCash
