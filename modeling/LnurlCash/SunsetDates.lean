import LnurlCash.Discovery
import LnurlCash.Lib.Calendar

namespace LnurlCash

open Checked

/-- Four digits, two and two, with dashes between them. -/
structure Dashed (raw year month day : Str) : Prop where
  whole : raw = year ++ '-' :: (month ++ '-' :: day)
  years : year.length = 4 ∧ year.all Char.isDigit
  months : month.length = 2 ∧ month.all Char.isDigit
  days : day.length = 2 ∧ day.all Char.isDigit

theorem byteLen_of_digits {s : Str} (digits : s.all Char.isDigit) : Str.byteLen s = s.length := by
  refine Str.byteLen_of_ascii fun c member => ?_
  have digit := Str.isDigit_iff.mp (List.all_eq_true.mp digits c member)
  omega

theorem charIndices_of_ascii {s : Str} (ascii : ∀ c ∈ s, c.toNat < 128) (offset : Nat) :
    charIndices offset s = (List.range' offset s.length).zip s := by
  induction s generalizing offset with
  | nil => rfl
  | cons c rest ih =>
    have single : c.utf8Size = 1 := by
      have size := Str.byteLen_of_ascii (s := [c]) fun d member => ascii d (by simp_all)
      simpa [Str.byteLen] using size
    rw [charIndices, single, ih (fun d member => ascii d (List.mem_cons_of_mem c member)), List.length_cons,
      List.range'_succ, List.zip_cons_cons]

theorem mem_charIndices {s : Str} {c : Char} (member : c ∈ s) (offset : Nat) : ∃ i, (i, c) ∈ charIndices offset s := by
  induction s generalizing offset with
  | nil => cases member
  | cons d rest ih =>
    rcases List.mem_cons.mp member with rfl | later
    · exact ⟨offset, List.mem_cons_self⟩
    · obtain ⟨i, found⟩ := ih later (offset + d.utf8Size)
      exact ⟨i, List.mem_cons_of_mem _ found⟩

theorem ascii_of_dashedAt {raw : Str} (shape : (charIndices 0 raw).all dashedAt) : ∀ c ∈ raw, c.toNat < 128 := by
  intro c member
  obtain ⟨i, found⟩ := mem_charIndices member 0
  have placed := List.all_eq_true.mp shape _ found
  unfold dashedAt at placed
  split at placed
  · rw [show c = '-' from of_decide_eq_true placed]
    decide
  · have digit : 48 ≤ c.toNat ∧ c.toNat ≤ 57 := Str.isDigit_iff.mp placed
    omega

theorem dashed_of_dashedAt {raw : Str} (size : Str.byteLen raw = 10) (shape : (charIndices 0 raw).all dashedAt) :
    ∃ year month day, Dashed raw year month day := by
  have ascii := ascii_of_dashedAt shape
  rw [Str.byteLen_of_ascii ascii] at size
  rw [charIndices_of_ascii ascii, size] at shape
  match raw with
  | [a, b, c, d, e, f, g, h, i, j] =>
    have places : a.isDigit ∧ b.isDigit ∧ c.isDigit ∧ d.isDigit ∧ e = '-' ∧ f.isDigit ∧ g.isDigit ∧ h = '-' ∧
        i.isDigit ∧ j.isDigit := by
      simpa [dashedAt, List.range'] using shape
    obtain ⟨first, second, third, fourth, rfl, fifth, sixth, rfl, seventh, eighth⟩ := places
    exact ⟨[a, b, c, d], [f, g], [i, j], rfl, ⟨rfl, by simp [first, second, third, fourth]⟩,
      ⟨rfl, by simp [fifth, sixth]⟩, ⟨rfl, by simp [seventh, eighth]⟩⟩

section Dashed

variable {raw year month day : Str}

theorem Dashed.ascii (dashed : Dashed raw year month day) : ∀ c ∈ raw, c.toNat < 128 := by
  have digit : ∀ {s : Str}, s.all Char.isDigit → ∀ c ∈ s, c.toNat < 128 := by
    intro s digits c member
    have digit : 48 ≤ c.toNat ∧ c.toNat ≤ 57 := Str.isDigit_iff.mp (List.all_eq_true.mp digits c member)
    omega
  intro c member
  rw [dashed.whole] at member
  rcases List.mem_append.mp member with inYear | rest
  · exact digit dashed.years.2 c inYear
  rcases List.mem_cons.mp rest with rfl | rest
  · decide
  rcases List.mem_append.mp rest with inMonth | rest
  · exact digit dashed.months.2 c inMonth
  rcases List.mem_cons.mp rest with rfl | inDay
  · decide
  · exact digit dashed.days.2 c inDay

theorem Dashed.byteLen (dashed : Dashed raw year month day) : Str.byteLen raw = 10 := by
  rw [Str.byteLen_of_ascii dashed.ascii, dashed.whole]
  simp [dashed.years.1, dashed.months.1, dashed.days.1]

theorem Dashed.places (dashed : Dashed raw year month day) : (charIndices 0 raw).all dashedAt := by
  have size := dashed.byteLen
  rw [Str.byteLen_of_ascii dashed.ascii] at size
  rw [charIndices_of_ascii dashed.ascii, size]
  obtain ⟨rfl, ⟨four, years⟩, ⟨two, months⟩, ⟨last, days⟩⟩ := dashed
  match year, month, day with
  | [a, b, c, d], [e, f], [g, h] =>
    simp only [List.all_cons, List.all_nil, Bool.and_true, Bool.and_eq_true] at years months days
    simp [dashedAt, List.range', years, months, days]

end Dashed

/-! ### Reading one -/

theorem returns_parseUnsigned {digits : Str} (decimal : digits.all Char.isDigit) (size : 0 < digits.length)
    (short : digits.length ≤ 4) :
    Returns (ask (Str.parseUnsigned (2 ^ 32) digits)) (some (Nat.ofDigitChars 10 digits 0)) := by
  have fits : Nat.ofDigitChars 10 digits 0 < 10 ^ digits.length := (Str.padded_ofDigitChars decimal).2
  have room : 10 ^ digits.length ≤ 10 ^ 4 := Nat.pow_le_pow_right (by decide) short
  have parsed : Str.parseDigits (2 ^ 32) digits = some (Nat.ofDigitChars 10 digits 0) :=
    if_pos ⟨List.ne_nil_of_length_pos size, decimal, by omega⟩
  refine returns_asked ?_
  match digits with
  | c :: rest =>
    have digit : c.isDigit := List.all_eq_true.mp decimal c List.mem_cons_self
    have unsigned : c ≠ '+' := by
      rintro rfl
      cases digit
    rwa [Str.parseUnsigned]
    intro _ same
    exact unsigned (List.cons.inj same).1

theorem lastDay_eq_some {year month last : Nat} :
    lastDay year month = some last ↔ (1 ≤ month ∧ month ≤ 12) ∧ last = Calendar.monthLength year month := by
  have leap : (decide (year % 4 = 0) && (decide (year % 100 ≠ 0) || decide (year % 400 = 0))) =
      decide (Calendar.IsLeap year) := by
    simp only [Calendar.IsLeap, Nat.dvd_iff_mod_eq_zero]
    grind
  simp only [lastDay, leap]
  split
  case h_12 =>
    by_cases leaps : Calendar.IsLeap year <;> simp [Calendar.monthLength, Calendar.monthLengths, leaps, eq_comm]
  case h_13 =>
    refine iff_of_false (by simp) ?_
    grind
  all_goals simp [Calendar.monthLength, Calendar.monthLengths, eq_comm]

section Dashed

variable {raw year month day : Str}

theorem Dashed.lengths (dashed : Dashed raw year month day) :
    Str.byteLen year = 4 ∧ Str.byteLen (year ++ ['-']) = 5 ∧ Str.byteLen (year ++ '-' :: month) = 7 ∧
      Str.byteLen (year ++ '-' :: (month ++ ['-'])) = 8 := by
  simp only [Str.byteLen_append, Str.byteLen_cons, byteLen_of_digits dashed.years.2,
    byteLen_of_digits dashed.months.2, dashed.years.1, dashed.months.1]
  decide

/-- What a text of that shape is read as. -/
theorem Dashed.returns_isoDay (dashed : Dashed raw year month day) :
    Returns (isoDay raw) ((lastDay (Nat.ofDigitChars 10 year 0) (Nat.ofDigitChars 10 month 0)).bind fun last =>
      if 1 ≤ Nat.ofDigitChars 10 day 0 ∧ Nat.ofDigitChars 10 day 0 ≤ last then some raw else none) := by
  obtain ⟨upToYear, behindYear, upToMonth, behindMonth⟩ := dashed.lengths
  have years := returns_textTo year ('-' :: (month ++ '-' :: day))
  have toMonth := returns_textTo (year ++ '-' :: month) ('-' :: day)
  have months := returns_textFrom (year ++ ['-']) month
  have toDay := returns_textTo raw []
  have days := returns_textFrom (year ++ '-' :: (month ++ ['-'])) day
  simp only [List.append_assoc, List.cons_append, List.nil_append, List.append_nil, ← dashed.whole, upToYear,
    behindYear, upToMonth, behindMonth, dashed.byteLen] at years toMonth months toDay days
  have yearRead := returns_parseUnsigned dashed.years.2 (by rw [dashed.years.1]; decide) (by rw [dashed.years.1])
  have monthRead := returns_parseUnsigned dashed.months.2 (by rw [dashed.months.1]; decide)
    (by rw [dashed.months.1]; decide)
  have dayRead := returns_parseUnsigned dashed.days.2 (by rw [dashed.days.1]; decide) (by rw [dashed.days.1]; decide)
  refine years.andThen (yearRead.andThen ?_)
  refine toMonth.andThen (months.andThen (monthRead.andThen ?_))
  refine toDay.andThen (days.andThen (dayRead.andThen ?_))
  exact (returns_ask _).bind fun last _ => returns_ask _

theorem Dashed.returns_isoDate (dashed : Dashed raw year month day) {option : Option Str}
    (returned : Returns (isoDay raw) option) : Returns (isoDate raw) option := by
  obtain ⟨upToYear, _, upToMonth, _⟩ := dashed.lengths
  have dash : String.utf8EncodeChar '-' = [45] := by decide
  have first := Str.getElem?_utf8 year (month ++ '-' :: day) dash
  have second := Str.getElem?_utf8 (year ++ '-' :: month) day dash
  rw [List.append_assoc, List.cons_append, upToMonth, ← dashed.whole] at second
  rw [upToYear, ← dashed.whole] at first
  unfold isoDate
  rw [if_neg (not_not.mpr ((Str.length_utf8 raw).trans dashed.byteLen))]
  refine (returns_index first).andThen ?_
  rw [if_neg (not_not.mpr rfl)]
  refine (returns_index second).andThen ?_
  rw [if_neg (not_not.mpr rfl), dashed.places]
  exact returned

/-- A text of that shape is the day's whose numbers it writes. -/
theorem Dashed.date (dashed : Dashed raw year month day)
    (inYear : 1 ≤ Nat.ofDigitChars 10 month 0 ∧ Nat.ofDigitChars 10 month 0 ≤ 12)
    (inMonth : 1 ≤ Nat.ofDigitChars 10 day 0 ∧ Nat.ofDigitChars 10 day 0 ≤
      Calendar.monthLength (Nat.ofDigitChars 10 year 0) (Nat.ofDigitChars 10 month 0)) :
    ∃ date : Calendar.Date, date.text = raw := by
  obtain ⟨yearText, four⟩ := Str.padded_ofDigitChars dashed.years.2
  have monthText := (Str.padded_ofDigitChars dashed.months.2).1
  have dayText := (Str.padded_ofDigitChars dashed.days.2).1
  rw [dashed.years.1] at yearText four
  rw [dashed.months.1] at monthText
  rw [dashed.days.1] at dayText
  refine ⟨{ year := _, month := _, day := _, four, inYear, inMonth }, ?_⟩
  rw [Calendar.Date.text, yearText, monthText, dayText, dashed.whole]

end Dashed

theorem dashed_text (date : Calendar.Date) :
    Dashed date.text (Str.padded 4 date.year) (Str.padded 2 date.month) (Str.padded 2 date.day) where
  whole := rfl
  years := ⟨Str.length_padded 4 _, Str.all_isDigit_padded 4 _⟩
  months := ⟨Str.length_padded 2 _, Str.all_isDigit_padded 2 _⟩
  days := ⟨Str.length_padded 2 _, Str.all_isDigit_padded 2 _⟩

theorem returns_isoDate_cases (raw : Str) :
    Returns (isoDate raw) none ∨ ∃ year month day, Dashed raw year month day := by
  by_cases shaped : Str.byteLen raw = 10 ∧ (charIndices 0 raw).all dashedAt
  · exact Or.inr (dashed_of_dashedAt shaped.1 shaped.2)
  · refine Or.inl (returns_unless fun sized => ?_)
    have size : (Str.utf8 raw).length = 10 := not_not.mp sized
    refine (returns_index (List.getElem?_eq_getElem (show 4 < (Str.utf8 raw).length by omega))).andThen ?_
    refine returns_unless fun _ => ?_
    refine (returns_index (List.getElem?_eq_getElem (show 7 < (Str.utf8 raw).length by omega))).andThen ?_
    refine returns_unless fun _ => returns_unless fun passed => ?_
    rw [Str.length_utf8] at size
    exact absurd ⟨size, by simpa using passed⟩ shaped

/-- The texts of calendar days are returned, everything else is dropped, and nothing panics. -/
theorem returns_isoDate (raw : Str) :
    (∃ date : Calendar.Date, date.text = raw) ∧ Returns (isoDate raw) (some raw) ∨
      (¬∃ date : Calendar.Date, date.text = raw) ∧ Returns (isoDate raw) none := by
  by_cases named : ∃ date : Calendar.Date, date.text = raw
  · refine Or.inl ⟨named, ?_⟩
    obtain ⟨date, rfl⟩ := named
    have read := (dashed_text date).returns_isoDate (dashed_text date).returns_isoDay
    rw [Str.ofDigitChars_padded date.four, Str.ofDigitChars_padded date.month_lt, Str.ofDigitChars_padded date.day_lt,
      lastDay_eq_some.mpr ⟨date.inYear, rfl⟩, Option.bind_some, if_pos date.inMonth] at read
    exact read
  · refine Or.inr ⟨named, ?_⟩
    rcases returns_isoDate_cases raw with dropped | ⟨year, month, day, dashed⟩
    · exact dropped
    · have read := dashed.returns_isoDate dashed.returns_isoDay
      cases found : lastDay (Nat.ofDigitChars 10 year 0) (Nat.ofDigitChars 10 month 0) with
      | none => rwa [found] at read
      | some last =>
        obtain ⟨inYear, rfl⟩ := lastDay_eq_some.mp found
        rw [found, Option.bind_some, if_neg fun inMonth => named (dashed.date inYear inMonth)] at read
        exact read

example : (isoDate "2000-02-29".toList).returned = some "2000-02-29".toList ∧
    (isoDate "1900-02-29".toList).returned = none := by decide

/-- A field holds a calendar day, or it is dropped; no value of it stops the program. -/
theorem returns_asIsoDate (body : Value) (key : Str) : ∃ announced, Returns (asIsoDate body key) announced ∧
    ∀ text, announced = some text ↔ asStr body key = some text ∧ ∃ date : Calendar.Date, date.text = text := by
  unfold asIsoDate asStr
  cases body.get? key with
  | none => exact ⟨none, (returns_ask none).leave, by simp⟩
  | some value =>
    cases sent : value.asStr? with
    | none => exact ⟨none, (returns_ask (some value)).andThen (returns_asked sent).leave, by simp [sent]⟩
    | some raw =>
      have reached : ∀ {option}, Returns (isoDate raw) option →
          Returns (ask (some value) >>= fun value => ask value.asStr? >>= isoDate) option := by
        intro option returned
        exact (returns_ask (some value)).andThen ((returns_asked sent).andThen returned)
      rw [Option.bind_some, sent]
      obtain ⟨named, returned⟩ | ⟨unnamed, returned⟩ := returns_isoDate raw
      · refine ⟨some raw, reached returned, fun text => ?_⟩
        constructor
        · intro same
          cases same
          exact ⟨rfl, named⟩
        · exact And.left
      · refine ⟨none, reached returned, fun text => iff_of_false (by simp) ?_⟩
        intro same
        cases same.1
        exact unnamed same.2

theorem exists_date_iff {text : Str} :
    (∃ date : Calendar.Date, date.text = text) ↔ ∃! date : Calendar.Date, date.text = text := by
  constructor
  · intro named
    obtain ⟨date, same⟩ := named
    refine ⟨date, same, ?_⟩
    intro other written
    exact Calendar.Date.text_injective (written.trans same.symm)
  · exact ExistsUnique.exists

/-- What a mint announces as its last day is the text of one day of the
calendar, or it is dropped; no text it could send stops the program. -/
theorem sunset_is_a_day (body : Value) : ∃ announced, Returns (asIsoDate body "sunsetDate".toList) announced ∧
    (∀ info, parseMintAddress body = .ok info → info.sunsetDate = announced) ∧
    ∀ text, announced = some text ↔
      asStr body "sunsetDate".toList = some text ∧ ∃! date : Calendar.Date, date.text = text := by
  obtain ⟨announced, returned, exactly⟩ := returns_asIsoDate body "sunsetDate".toList
  refine ⟨announced, returned, ?_, ?_⟩
  · intro info parsed
    simp only [parseMintAddress, Outcome.bind_eq_ok, Outcome.pure_eq_ok] at parsed
    obtain ⟨_, _, _, _, _, _, _, _, _, _, rfl⟩ := parsed
    exact returned.returned
  · intro text
    rw [exactly text, exists_date_iff]

end LnurlCash
