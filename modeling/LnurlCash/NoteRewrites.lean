import LnurlCash.QueryRewrites

namespace LnurlCash

/-- The parameters a rewritten note URL states afresh. -/
def restatedParams : List Str := ["k1".toList, "amount".toList, "c".toList, "sig".toList]

def isOtherParam (pair : Str × Str) : Bool := !restatedParams.contains pair.1

/-- The amount a note is stated to carry: its certificate's, where that names one. -/
def statedAmount (amountMsat : UInt64) (signature : Option Str) : UInt64 :=
  ((signature.bind decodeCs1WithAmount).map Cs1.amountMsat).getD amountMsat

/-- What a walk over parameters has written, whatever the flags: nothing but the
new secret, amount and certificate under the restated names, and the others as
they were. A flag is up only over a parameter written. -/
structure Rewrite.Restates (k1 : Option Str) (amountMsat : UInt64) (signature : Option Str) (implied : Bool)
    (seen : List (Str × Str)) (done : Rewrite) : Prop where
  k1 : ∀ value, ("k1".toList, value) ∈ done.pairs → k1.map Str.lower = some value
  amount : ∀ value, ("amount".toList, value) ∈ done.pairs → implied = false ∧ value = Str.decimal amountMsat.toNat
  certificate : ∀ value, ("c".toList, value) ∈ done.pairs → signature = some value
  legacy : ∀ value, ("sig".toList, value) ∉ done.pairs
  others : done.pairs.filter isOtherParam = seen.filter isOtherParam
  sawK1 : done.sawK1 → ∃ value, ("k1".toList, value) ∈ done.pairs
  sawAmount : done.sawAmount → ∃ value, ("amount".toList, value) ∈ done.pairs
  sawSig : done.sawSig → ∃ value, ("c".toList, value) ∈ done.pairs

namespace Rewrite

variable {k1 : Option Str} {amountMsat : UInt64} {signature : Option Str} {implied : Bool}
  {seen more : List (Str × Str)} {done new next : Rewrite}

/-- Two walks, one after the other. -/
theorem Restates.append (left : Restates k1 amountMsat signature implied seen done)
    (right : Restates k1 amountMsat signature implied more new) (pairs : next.pairs = done.pairs ++ new.pairs)
    (k1Flag : next.sawK1 → done.sawK1 ∨ new.sawK1) (amountFlag : next.sawAmount → done.sawAmount ∨ new.sawAmount)
    (sigFlag : next.sawSig → done.sawSig ∨ new.sawSig) :
    Restates k1 amountMsat signature implied (seen ++ more) next where
  k1 value member := by
    rw [pairs, List.mem_append] at member
    exact member.elim (left.k1 value) (right.k1 value)
  amount value member := by
    rw [pairs, List.mem_append] at member
    exact member.elim (left.amount value) (right.amount value)
  certificate value member := by
    rw [pairs, List.mem_append] at member
    exact member.elim (left.certificate value) (right.certificate value)
  legacy value member := by
    rw [pairs, List.mem_append] at member
    exact member.elim (left.legacy value) (right.legacy value)
  others := by rw [pairs, List.filter_append, List.filter_append, left.others, right.others]
  sawK1 flag := by
    simp only [pairs, List.mem_append, exists_or]
    exact (k1Flag flag).imp left.sawK1 right.sawK1
  sawAmount flag := by
    simp only [pairs, List.mem_append, exists_or]
    exact (amountFlag flag).imp left.sawAmount right.sawAmount
  sawSig flag := by
    simp only [pairs, List.mem_append, exists_or]
    exact (sigFlag flag).imp left.sawSig right.sawSig

/-- The walk that writes nothing over parameters that are all restated. -/
theorem restates_nil (dropped : more.filter isOtherParam = []) :
    Restates k1 amountMsat signature implied more
      { pairs := [], sawK1 := false, sawAmount := false, sawSig := false } where
  k1 _ member := by cases member
  amount _ member := by cases member
  certificate _ member := by cases member
  legacy _ member := by cases member
  others := dropped.symm
  sawK1 flag := by cases flag
  sawAmount flag := by cases flag
  sawSig flag := by cases flag

/-- The walk that writes one parameter. -/
theorem restates_one (pair : Str × Str) (k1s : pair.1 = "k1".toList → k1.map Str.lower = some pair.2)
    (amounts : pair.1 = "amount".toList → implied = false ∧ pair.2 = Str.decimal amountMsat.toNat)
    (certificates : pair.1 = "c".toList → signature = some pair.2) (current : pair.1 ≠ "sig".toList)
    (same : [pair].filter isOtherParam = more.filter isOtherParam) :
    Restates k1 amountMsat signature implied more {
      pairs := [pair]
      sawK1 := decide (pair.1 = "k1".toList)
      sawAmount := decide (pair.1 = "amount".toList)
      sawSig := decide (pair.1 = "c".toList) } where
  k1 value member := by
    rw [← List.mem_singleton.mp member] at k1s
    exact k1s rfl
  amount value member := by
    rw [← List.mem_singleton.mp member] at amounts
    exact amounts rfl
  certificate value member := by
    rw [← List.mem_singleton.mp member] at certificates
    exact certificates rfl
  legacy value member := by
    rw [← List.mem_singleton.mp member] at current
    exact current rfl
  others := same
  sawK1 flag := ⟨pair.2, List.mem_singleton.mpr (Prod.ext (of_decide_eq_true flag).symm rfl)⟩
  sawAmount flag := ⟨pair.2, List.mem_singleton.mpr (Prod.ext (of_decide_eq_true flag).symm rfl)⟩
  sawSig flag := ⟨pair.2, List.mem_singleton.mpr (Prod.ext (of_decide_eq_true flag).symm rfl)⟩

theorem restates_k1 {secret : Str} (dropped : more.filter isOtherParam = []) :
    Restates (some secret) amountMsat signature implied more {
      pairs := [("k1".toList, Str.lower secret)], sawK1 := true, sawAmount := false, sawSig := false } :=
  restates_one ("k1".toList, Str.lower secret) (fun _ => rfl) (by simp) (by simp) (by simp) dropped.symm

theorem restates_amount (explicit : implied = false) (dropped : more.filter isOtherParam = []) :
    Restates k1 amountMsat signature implied more {
      pairs := [("amount".toList, Str.decimal amountMsat.toNat)]
      sawK1 := false
      sawAmount := true
      sawSig := false } :=
  restates_one ("amount".toList, Str.decimal amountMsat.toNat) (by simp) (fun _ => ⟨explicit, rfl⟩) (by simp) (by simp)
    dropped.symm

theorem restates_certificate {sig : Str} (dropped : more.filter isOtherParam = []) :
    Restates k1 amountMsat (some sig) implied more {
      pairs := [("c".toList, sig)], sawK1 := false, sawAmount := false, sawSig := true } :=
  restates_one ("c".toList, sig) (by simp) (by simp) (fun _ => rfl) (by simp) dropped.symm

/-- A parameter that is restated elsewhere may be dropped. -/
theorem Restates.drop (walked : Restates k1 amountMsat signature implied seen done)
    (dropped : more.filter isOtherParam = []) :
    Restates k1 amountMsat signature implied (seen ++ more) done :=
  walked.append (restates_nil dropped) (List.append_nil _).symm Or.inl Or.inl Or.inl

/-! ### One parameter, and all of them -/

theorem filter_restated {pair : Str × Str} (restated : pair.1 ∈ restatedParams) : [pair].filter isOtherParam = [] := by
  rw [List.filter_cons_of_neg]
  · rfl
  · simp [isOtherParam, restated]

/-- Every parameter but `k1`, which is where the two loops differ. -/
theorem Restates.step {pair : Str × Str} (walked : Restates k1 amountMsat signature implied seen done)
    (notK1 : pair.1 ≠ "k1".toList) (secret : Str) :
    Restates k1 amountMsat signature implied (seen ++ [pair]) (step secret amountMsat signature implied done pair) := by
  unfold Rewrite.step
  rw [if_neg notK1]
  by_cases amount : pair.1 = "amount".toList
  · have dropped : [pair].filter isOtherParam = [] := filter_restated (by simp [amount, restatedParams])
    rw [if_pos amount]
    by_cases implies : implied
    · rw [if_pos implies]
      exact walked.drop dropped
    · rw [if_neg implies]
      have explicit : implied = false := Bool.eq_false_iff.mpr implies
      exact walked.append (restates_amount explicit dropped) rfl Or.inl (fun _ => Or.inr rfl) Or.inl
  · rw [if_neg amount]
    by_cases certificate : pair.1 = "c".toList ∨ pair.1 = "sig".toList
    · have dropped : [pair].filter isOtherParam = [] :=
        filter_restated (by rcases certificate with c | sig <;> simp [*, restatedParams])
      rw [if_pos certificate]
      cases carried : signature with
      | none =>
        rw [carried] at walked
        exact walked.drop dropped
      | some sig =>
        rw [carried] at walked
        by_cases saw : done.sawSig
        · simp only [if_pos saw]
          exact walked.drop dropped
        · simp only [if_neg saw]
          exact walked.append (restates_certificate dropped) rfl Or.inl Or.inl (fun _ => Or.inr rfl)
    · rw [if_neg certificate]
      obtain ⟨notC, notSig⟩ := not_or.mp certificate
      refine walked.append (restates_one pair (fun same => absurd same notK1) (fun same => absurd same amount)
        (fun same => absurd same notC) notSig rfl) rfl Or.inl Or.inl Or.inl

theorem Restates.stepK1 {secret : Str} {pair : Str × Str}
    (walked : Restates (some secret) amountMsat signature implied seen done) :
    Restates (some secret) amountMsat signature implied (seen ++ [pair])
      (Rewrite.step secret amountMsat signature implied done pair) := by
  by_cases named : pair.1 = "k1".toList
  · have dropped : [pair].filter isOtherParam = [] := filter_restated (by simp [named, restatedParams])
    unfold Rewrite.step
    rw [if_pos named]
    exact walked.append (restates_k1 dropped) rfl (fun _ => Or.inr rfl) Or.inl Or.inl
  · exact walked.step named secret

theorem Restates.stepWithoutK1 {pair : Str × Str} (walked : Restates none amountMsat signature implied seen done) :
    Restates none amountMsat signature implied (seen ++ [pair])
      (Rewrite.stepWithoutK1 amountMsat signature implied done pair) := by
  by_cases named : pair.1 = "k1".toList
  · have dropped : [pair].filter isOtherParam = [] := filter_restated (by simp [named, restatedParams])
    unfold Rewrite.stepWithoutK1
    rw [if_pos named]
    exact walked.drop dropped
  · have same : Rewrite.stepWithoutK1 amountMsat signature implied done pair =
        Rewrite.step [] amountMsat signature implied done pair := by
      unfold Rewrite.stepWithoutK1 Rewrite.step
      rw [if_neg named, if_neg named]
    rw [same]
    exact walked.step named []

theorem Restates.foldl {step : Rewrite → Str × Str → Rewrite}
    (one : ∀ {seen done} pair, Restates k1 amountMsat signature implied seen done →
      Restates k1 amountMsat signature implied (seen ++ [pair]) (step done pair))
    (walked : Restates k1 amountMsat signature implied seen done) (pairs : List (Str × Str)) :
    Restates k1 amountMsat signature implied (seen ++ pairs) (pairs.foldl step done) := by
  induction pairs generalizing seen done with
  | nil => rwa [List.append_nil]
  | cons pair rest ih =>
    have next := ih (one pair walked)
    rwa [List.append_assoc, List.singleton_append] at next

/-! ### What is still missing at the end -/

theorem Restates.extend (left : Restates k1 amountMsat signature implied seen done)
    (right : Restates k1 amountMsat signature implied [] new) (pairs : next.pairs = done.pairs ++ new.pairs)
    (k1Flag : next.sawK1 → done.sawK1 ∨ new.sawK1) (amountFlag : next.sawAmount → done.sawAmount ∨ new.sawAmount)
    (sigFlag : next.sawSig → done.sawSig ∨ new.sawSig) : Restates k1 amountMsat signature implied seen next := by
  have whole := left.append right pairs k1Flag amountFlag sigFlag
  rwa [List.append_nil] at whole

theorem Restates.completeK1 {secret : Str} (walked : Restates (some secret) amountMsat signature implied seen done) :
    Restates (some secret) amountMsat signature implied seen { done with
      pairs := done.pairs ++ if done.sawK1 then [] else [("k1".toList, Str.lower secret)]
      sawK1 := true } := by
  by_cases saw : done.sawK1
  · exact walked.extend (restates_nil rfl) (by rw [if_pos saw]) (fun _ => Or.inl saw) Or.inl Or.inl
  · exact walked.extend (restates_k1 rfl) (by rw [if_neg saw]) (fun _ => Or.inr rfl) Or.inl Or.inl

theorem Restates.completeAmount (walked : Restates k1 amountMsat signature implied seen done) :
    Restates k1 amountMsat signature implied seen { done with
      pairs := done.pairs ++
        if !done.sawAmount && !implied then [("amount".toList, Str.decimal amountMsat.toNat)] else []
      sawAmount := !implied } := by
  by_cases missing : !done.sawAmount && !implied
  · have explicit : implied = false := by
      rw [Bool.and_eq_true, Bool.not_eq_true', Bool.not_eq_true'] at missing
      exact missing.2
    exact walked.extend (restates_amount explicit rfl) (by rw [if_pos missing]) Or.inl (fun _ => Or.inr rfl) Or.inl
  · have present : (!implied) = true → done.sawAmount := by
      intro explicit
      by_contra unseen
      apply missing
      rw [explicit, Bool.and_true, Bool.not_eq_true', Bool.eq_false_iff]
      exact unseen
    exact walked.extend (restates_nil rfl) (by rw [if_neg missing]) Or.inl (fun flag => Or.inl (present flag)) Or.inl

theorem Restates.completeSig (walked : Restates k1 amountMsat signature implied seen done) :
    Restates k1 amountMsat signature implied seen { done with
      pairs := done.pairs ++ signature.elim [] fun sig => if done.sawSig then [] else [("c".toList, sig)]
      sawSig := signature.isSome } := by
  cases signature with
  | none => exact walked.extend (restates_nil rfl) rfl Or.inl Or.inl (fun flag => by cases flag)
  | some sig =>
    by_cases saw : done.sawSig
    · exact walked.extend (restates_nil rfl) (by rw [Option.elim_some, if_pos saw]) Or.inl Or.inl (fun _ => Or.inl saw)
    · exact walked.extend (restates_certificate rfl) (by rw [Option.elim_some, if_neg saw]) Or.inl Or.inl
        (fun _ => Or.inr rfl)

end Rewrite

/-! ### What the rewritten URL says -/

/-- A URL that states this secret, amount and certificate of its note, and for the rest what the old one said. -/
structure Crates.Restated (C : Crates) (link : C.url.Url) (k1 : Option Str) (amountMsat : UInt64)
    (signature : Option Str) (text : Str) : Prop where
  pairs : ∃ out, C.url.parse text = some out ∧
    (∀ value, ("k1".toList, value) ∈ C.url.queryPairs out → k1.map Str.lower = some value) ∧
    (∀ value, ("sig".toList, value) ∉ C.url.queryPairs out) ∧
    (C.url.queryPairs out).filter isOtherParam = (C.url.queryPairs link).filter isOtherParam
  secret : C.noteK1 text = k1.map Str.lower
  certified : C.noteSignature text = signature
  stated : C.noteDeclaredAmount text = some (statedAmount amountMsat signature)

theorem lookup_of_forall {pairs : List (Str × Str)} {key value : Str}
    (only : ∀ other, (key, other) ∈ pairs → other = value)
    (present : ∃ other, (key, other) ∈ pairs) : pairs.lookup key = some value := by
  cases found : pairs.lookup key with
  | none =>
    obtain ⟨other, member⟩ := present
    have absent := List.lookup_eq_none_iff.mp found _ member
    simp at absent
  | some other =>
    obtain ⟨before, after, whole, _⟩ := List.lookup_eq_some_iff.mp found
    rw [only other (by rw [whole]; simp)]

theorem lookup_of_notMem {pairs : List (Str × Str)} {key : Str} (absent : ∀ other, (key, other) ∉ pairs) :
    pairs.lookup key = none := by
  rw [List.lookup_eq_none_iff]
  rintro ⟨name, value⟩ member
  have other : key ≠ name := by
    rintro rfl
    exact absent value member
  exact bne_iff_ne.mpr other

section Restating

variable {C : Crates} {url : Str} {link : C.url.Url} {amountMsat : UInt64} {signature : Option Str}

theorem parseUnsigned_decimal (amount : UInt64) :
    (Str.parseUnsigned (2 ^ 64) (Str.decimal amount.toNat)).map UInt64.ofNat = some amount := by
  have digits : Str.parseDigits (2 ^ 64) (Str.decimal amount.toNat) = some amount.toNat :=
    Str.parseDigits_decimal amount.toNat_lt
  have unsigned : Str.parseUnsigned (2 ^ 64) (Str.decimal amount.toNat) = some amount.toNat := by
    rw [← digits]
    cases written : Str.decimal amount.toNat with
    | nil => exact absurd written (Str.decimal_ne_nil _)
    | cons c rest =>
      have digit : c.isDigit := Str.isDigit_of_mem_decimal (by rw [written]; exact List.mem_cons_self)
      have notPlus : c ≠ '+' := by
        rintro rfl
        exact absurd digit (by decide)
      rw [Str.parseUnsigned]
      rintro more same
      exact notPlus (List.cons.inj same).1
  rw [unsigned, Option.map_some, UInt64.ofNat_toNat]

/-- A parameter is found as what is stated for it, where no other value is written
for it and one is written if any is stated. -/
theorem lookup_of_stated {pairs : List (Str × Str)} {key : Str} {stated : Option Str}
    (only : ∀ value, (key, value) ∈ pairs → stated = some value)
    (present : stated.isSome → ∃ value, (key, value) ∈ pairs) : pairs.lookup key = stated := by
  cases stated with
  | none =>
    refine lookup_of_notMem fun value member => ?_
    have other := only value member
    cases other
  | some value => exact lookup_of_forall (fun other member => (Option.some.inj (only other member)).symm) (present rfl)

theorem Rewrite.Restates.lookup_amount {k1 : Option Str} {implied : Bool} {seen : List (Str × Str)} {done : Rewrite}
    (walked : done.Restates k1 amountMsat signature implied seen) (amountFlag : done.sawAmount = !implied) :
    done.pairs.lookup "amount".toList = if implied then none else some (Str.decimal amountMsat.toNat) := by
  refine lookup_of_stated (fun value member => ?_) (fun stated => walked.sawAmount ?_)
  · obtain ⟨explicit, rfl⟩ := walked.amount value member
    rw [explicit, if_neg (by decide)]
  · rw [amountFlag]
    by_contra implies
    rw [Bool.not_eq_true, Bool.not_eq_false'] at implies
    rw [if_pos implies] at stated
    cases stated

/-- A complete walk, put back into the URL. -/
theorem Crates.restated_rebuild (keeps : C.url.KeepsPairs) (parsed : C.url.parse url = some link) {k1 : Option Str}
    {done : Rewrite}
    (walked : done.Restates k1 amountMsat signature (signature.any fun sig => (decodeCs1WithAmount sig).isSome)
      (C.url.queryPairs link))
    (k1Flag : k1.isSome → done.sawK1)
    (amountFlag : done.sawAmount = !signature.any fun sig => (decodeCs1WithAmount sig).isSome)
    (sigFlag : done.sawSig = signature.isSome) :
    C.Restated link k1 amountMsat signature (C.rebuild link done.pairs) := by
  have named : C.noteSignature (C.rebuild link done.pairs) = signature := by
    have current := lookup_of_stated walked.certificate fun stated => walked.sawSig (sigFlag.trans stated)
    have legacy := lookup_of_notMem walked.legacy
    simp only [noteSignature, firstParam_rebuild keeps parsed, current, legacy, Option.or_none]
  constructor
  · obtain ⟨out, again, pairs⟩ := parse_rebuild keeps parsed done.pairs
    refine ⟨out, again, ?_⟩
    rw [pairs]
    exact ⟨walked.k1, walked.legacy, walked.others⟩
  · have secret := lookup_of_stated walked.k1 fun stated => walked.sawK1 (k1Flag (Option.isSome_map.symm.trans stated))
    rw [noteK1, firstParam_rebuild keeps parsed, secret, Option.map_map]
    exact congrArg (fun lowered => Option.map lowered k1) (funext Str.lower_lower)
  · exact named
  · rw [noteDeclaredAmount, named, firstParam_rebuild keeps parsed, walked.lookup_amount amountFlag]
    cases carried : signature.bind decodeCs1WithAmount with
    | some cs1 =>
      obtain ⟨sig, rfl, decoded⟩ := Option.bind_eq_some_iff.mp carried
      simp only [statedAmount, Option.any_some, decoded, Option.isSome_some, if_true, Option.bind_eq_bind,
        Option.bind_some, Option.map_some, Option.getD_some]
    | none =>
      have explicit : (signature.any fun sig => (decodeCs1WithAmount sig).isSome) = false := by
        cases signature with
        | none => rfl
        | some sig => simpa using carried
      simp only [explicit, Bool.false_eq_true, if_false, parseUnsigned_decimal, statedAmount, carried, Option.map_none,
        Option.getD_none]

theorem Crates.withNewK1_restates (keeps : C.url.KeepsPairs) (parsed : C.url.parse url = some link) (k1 : Str)
    (amountMsat : UInt64) (signature : Option Str) :
    ∃ r, C.withNewK1 url k1 amountMsat signature = some r ∧ C.Restated link (some k1) amountMsat signature r := by
  have start : Rewrite.Restates (some k1) amountMsat signature
      (signature.any fun sig => (decodeCs1WithAmount sig).isSome) []
      { pairs := [], sawK1 := false, sawAmount := false, sawSig := false } :=
    Rewrite.restates_nil rfl
  have walked := Rewrite.Restates.foldl (fun _ walked => walked.stepK1) start (C.url.queryPairs link)
  have whole := walked.completeK1.completeAmount.completeSig
  refine ⟨_, ?_, restated_rebuild keeps parsed whole (fun _ => rfl) rfl rfl⟩
  simp only [withNewK1, parsed, Option.bind_eq_bind, Option.bind_some]
  cases signature <;> rfl

theorem Crates.withoutK1_restates (keeps : C.url.KeepsPairs) (parsed : C.url.parse url = some link)
    (amountMsat : UInt64) (signature : Option Str) :
    ∃ r, C.withoutK1 url amountMsat signature = some r ∧ C.Restated link none amountMsat signature r := by
  have start : Rewrite.Restates none amountMsat signature
      (signature.any fun sig => (decodeCs1WithAmount sig).isSome) []
      { pairs := [], sawK1 := false, sawAmount := false, sawSig := false } :=
    Rewrite.restates_nil rfl
  have walked := Rewrite.Restates.foldl (fun _ walked => walked.stepWithoutK1) start (C.url.queryPairs link)
  have whole := walked.completeAmount.completeSig
  refine ⟨_, ?_, restated_rebuild keeps parsed whole (fun named => by cases named) rfl rfl⟩
  simp only [withoutK1, parsed, Option.bind_eq_bind, Option.bind_some]
  cases signature <;> rfl

/-- The lowercase spelling a rewritten URL carries is a spend of the same note. -/
theorem Crates.Restated.noteIdOf_noteK1 {k1 r id : Str} (restated : C.Restated link (some k1) amountMsat signature r)
    (named : C.noteIdOf k1 = some id) : (C.noteK1 r).bind C.noteIdOf = some id := by
  obtain ⟨spend, decoded, rfl⟩ := Option.map_eq_some_iff.mp named
  rw [restated.secret, Option.map_some, Option.bind_some, noteIdOf, decodeSpend_lower decoded, Option.map_some]

/-- Rewriting a note URL leaves no stale secret, amount or certificate, keeps the
rest, and may be done by way of the URL without its secret. -/
theorem Crates.rewriting_leaves_nothing_stale (keeps : C.url.KeepsPairs) (parsed : C.url.parse url = some link)
    (k1 : Str)
    (amountMsat : UInt64) (signature : Option Str) :
    ∃ r blank again, C.withNewK1 url k1 amountMsat signature = some r ∧
      C.Restated link (some k1) amountMsat signature r ∧
      (∀ id, C.noteIdOf k1 = some id → (C.noteK1 r).bind C.noteIdOf = some id) ∧
      C.withoutK1 url amountMsat signature = some blank ∧ C.Restated link none amountMsat signature blank ∧
      C.withNewK1 blank k1 amountMsat signature = some again ∧
      C.Restated link (some k1) amountMsat signature again ∧
      C.noteK1 again = C.noteK1 r ∧ C.noteDeclaredAmount again = C.noteDeclaredAmount r ∧
      C.noteSignature again = C.noteSignature r := by
  obtain ⟨r, made, restated⟩ := withNewK1_restates keeps parsed k1 amountMsat signature
  obtain ⟨blank, stripped, bare⟩ := withoutK1_restates keeps parsed amountMsat signature
  obtain ⟨out, reparsed, _, _, others⟩ := bare.pairs
  obtain ⟨again, remade, renewed⟩ := withNewK1_restates keeps reparsed k1 amountMsat signature
  have whole : C.Restated link (some k1) amountMsat signature again := by
    refine { renewed with pairs := ?_ }
    obtain ⟨last, final, k1s, legacy, kept⟩ := renewed.pairs
    exact ⟨last, final, k1s, legacy, kept.trans others⟩
  exact ⟨r, blank, again, made, restated, fun id named => restated.noteIdOf_noteK1 named, stripped, bare, remade, whole,
    whole.secret.trans restated.secret.symm, whole.stated.trans restated.stated.symm,
    whole.certified.trans restated.certified.symm⟩

/-- Two old secrets, a stale certificate of each name and a stale amount. -/
def staleNote : Str := "https://mint.example/w?k1=ab&sig=cd&x=1&k1=ef&amount=5&c=gh".toList

theorem reference.staleNote_rewritten : ∃ r, reference.withNewK1 staleNote "AB".toList 7 none = some r ∧
    reference.noteK1 r = some "ab".toList ∧ reference.noteSignature r = none ∧
      reference.noteDeclaredAmount r = some 7 := by
  have parses : (reference.url.parse staleNote).isSome := by decide +kernel
  obtain ⟨link, parsed⟩ := Option.isSome_iff_exists.mp parses
  obtain ⟨r, _, _, made, restated, _⟩ := Crates.rewriting_leaves_nothing_stale reference.keepsPairs parsed
    "AB".toList 7 none
  exact ⟨r, made, restated.secret, restated.certified, restated.stated⟩

end Restating

end LnurlCash
