import LnurlCash.Protocol
import LnurlCash.QueryRewrites
import LnurlCash.Spellings

namespace LnurlCash

/-- Tweaking an x-only key and recovering a signer yield points of the curve. -/
structure Crates.YieldsPoints (C : Crates) : Prop where
  tweaked : ∀ {internalKey tweak output odd}, C.isXOnlyKey internalKey →
    C.addTweak internalKey tweak = some (output, odd) → C.isXOnlyKey output
  recovered : ∀ {digest compact recovery key}, C.recoverEcdsa digest compact recovery = some key → C.isXOnlyKey key.tail

variable {C : Crates} {k1 h : Str} {key : ByteArr 32} {spend : Spend}

theorem not_isPreimage_of_hex32 (long : hex32 k1 = none) : isPreimage k1 = false := by
  by_contra preimage
  rw [Bool.not_eq_false] at preimage
  obtain ⟨size, digits⟩ := isPreimage_iff.mp preimage
  have whole : (Hex.decode (Str.trim k1)).isSome := Hex.decode_isSome_iff.mpr ⟨by omega, List.all_eq_true.mpr digits⟩
  obtain ⟨bytes, read⟩ := Option.isSome_iff_exists.mp whole
  have length := Hex.decode_length read
  have fits : bytes.length = 32 := by omega
  rw [hex32, if_pos preimage, read, Option.bind_some, Bytes.toArr, dif_pos fits] at long
  cases long

/-! ### A note named by its key -/

theorem Crates.decodeNote_of_cp1 (decoded : C.decodeCp1 h = some key) : C.decodeNote h = some key := by
  have found := decodeBytes_of_decodeFixed (Option.filter_eq_some_iff.mp decoded).1
  have noHex : hex32 h = none := by
    rw [hex32, not_isPreimage_of_decodeBytes found ⟨'p', by decide, by decide⟩, if_neg (by decide)]
  rw [decodeNote, noHex, decoded]

theorem Crates.decodeCp1_encodeCp1 (point : C.isXOnlyKey key) : C.decodeCp1 (encodeCp1 key) = some key :=
  C.cp1_oneSpelling.reads_pasted (by rwa [isXOnlyPoint, Bytes.toArr_toList]) (pasted_self _)

/-- A `cp1` is written in lowercase, with nothing around it. -/
theorem Crates.cleaned_encodeCp1 (point : C.isXOnlyKey key) : Str.lower (Str.trim (encodeCp1 key)) = encodeCp1 key :=
  (C.cp1_oneSpelling.canonical _ _ (decodeCp1_encodeCp1 point)).2

/-- What spells a spend under its own prefix names no note. -/
theorem Crates.decodeNote_of_decodeBytes {hrp : Str} {bytes : Bytes} (decoded : decodeBytes hrp h = some bytes)
    (other : hrp ≠ "cp".toList) (letter : ∃ c ∈ hrp, Hex.isHexDigit c = false) : C.decodeNote h = none := by
  have noHex : hex32 h = none := by rw [hex32, not_isPreimage_of_decodeBytes decoded letter, if_neg (by decide)]
  rw [decodeNote, noHex]
  by_contra present
  obtain ⟨key, found⟩ := Option.ne_none_iff_exists'.mp present
  exact other (decodeBytes_unique decoded (decodeBytes_of_decodeFixed (Option.filter_eq_some_iff.mp found).1)).1

theorem decodeBytes_of_decodeCk1 {ck1 : DecodedCk1} (decoded : decodeCk1 h = some ck1) :
    ∃ bytes, decodeBytes "ck".toList h = some bytes := by
  obtain ⟨bytes, found, _⟩ := Option.bind_eq_some_iff.mp decoded
  exact ⟨bytes, found⟩

theorem Crates.decodeBytes_of_decodeCw1 {cw1 : Cw1} (decoded : C.decodeCw1 h = some cw1) :
    ∃ bytes, decodeBytes "cw".toList h = some bytes := by
  obtain ⟨bytes, found, _⟩ := Option.bind_eq_some_iff.mp decoded
  exact ⟨bytes, found⟩

/-- A text that names a note is no spend's. -/
theorem Crates.notSpend_of_decodeNote (named : C.decodeNote h = some key) :
    decodeCk1 h = none ∧ C.decodeCw1 h = none := by
  constructor
  · by_contra present
    obtain ⟨ck1, decoded⟩ := Option.ne_none_iff_exists'.mp present
    obtain ⟨bytes, found⟩ := decodeBytes_of_decodeCk1 decoded
    rw [decodeNote_of_decodeBytes found (by decide) ⟨'k', by decide, by decide⟩] at named
    cases named
  · by_contra present
    obtain ⟨cw1, decoded⟩ := Option.ne_none_iff_exists'.mp present
    obtain ⟨bytes, found⟩ := decodeBytes_of_decodeCw1 decoded
    rw [decodeNote_of_decodeBytes found (by decide) ⟨'w', by decide, by decide⟩] at named
    cases named

theorem Crates.buildNoteInfoUrlByHash_isSome {withdrawLink : Str}
    (named : C.decodeNote (Str.lower (Str.trim h)) = some key)
    (parses : (C.url.parse (fromLud17 (Str.trim withdrawLink))).isSome) :
    (C.buildNoteInfoUrlByHash withdrawLink h).isSome := by
  obtain ⟨url, parsed⟩ := Option.isSome_iff_exists.mp parses
  simp only [buildNoteInfoUrlByHash, named, parsed, Option.bind_eq_bind, Option.bind_some, Option.isSome_some]

/-! ### The key a spend names -/

theorem Crates.isXOnlyKey_of_outputKeyOf (points : C.YieldsPoints) {script controlBlock : Bytes}
    (committed : C.outputKeyOf script controlBlock = some key) : C.isXOnlyKey key := by
  simp only [outputKeyOf, Option.bind_eq_bind] at committed
  obtain ⟨_, committed⟩ := Option.ite_none_left_eq_some.mp committed
  simp only [Option.bind_eq_some_iff, Option.ite_none_right_eq_some, Option.some.injEq] at committed
  obtain ⟨_, _, internalKey, _, tweaked, done, _, rfl⟩ := committed
  simp only [taprootTweak, Option.bind_eq_bind, Option.ite_none_right_eq_some, Option.bind_eq_some_iff,
    Option.some.injEq] at done
  obtain ⟨internal, tweak, _, ⟨output, odd⟩, sum, rfl⟩ := done
  exact points.tweaked internal sum

theorem Crates.isXOnlyKey_of_legacyCk1Key (points : C.YieldsPoints) {signature : Bytes}
    (recovered : C.legacyCk1Key signature = some key) : C.isXOnlyKey key := by
  simp only [legacyCk1Key, recover, Option.bind_eq_bind, Option.bind_eq_some_iff] at recovered
  obtain ⟨signature, _, compressed, found, coordinate⟩ := recovered
  split at found
  · have tail : compressed.tail = key := ByteArr.ext (Bytes.toArr_eq_some.mp coordinate)
    rw [← tail]
    exact points.recovered found
  · cases found

/-- The key a spend names is a point. -/
theorem Crates.isXOnlyKey_of_decodeSpend (points : C.YieldsPoints) (decoded : C.decodeSpend k1 = some spend) :
    C.isXOnlyKey spend.outputKey := by
  simp only [decodeSpend, hex32_trim, decodeCk1_trim, decodeCw1_trim] at decoded
  split at decoded
  · simp only [Option.bind_eq_bind, Option.bind_eq_some_iff, Option.some.injEq] at decoded
    obtain ⟨cw1, _, key, committed, rfl⟩ := decoded
    exact isXOnlyKey_of_outputKeyOf points committed
  · split at decoded
    · simp only [Option.bind_eq_bind, Option.bind_eq_some_iff, Option.ite_none_right_eq_some,
        Option.some.injEq] at decoded
      obtain ⟨key, _, signature, _, point, rfl⟩ := decoded
      rwa [isXOnlyPoint, Bytes.toArr_toList] at point
    · simp only [Option.bind_eq_bind, Option.bind_eq_some_iff, Option.some.injEq] at decoded
      obtain ⟨key, recovered, rfl⟩ := decoded
      exact isXOnlyKey_of_legacyCk1Key points recovered
    · simp only [Option.bind_eq_bind, Option.bind_eq_some_iff, Option.some.injEq] at decoded
      obtain ⟨cw1, _, key, committed, rfl⟩ := decoded
      exact isXOnlyKey_of_outputKeyOf points committed

/-- A preimage's spend is its bearer note's, whose hash names the same note. -/
theorem Crates.decodeNote_of_preimage {preimage : ByteArr 32} (short : hex32 k1 = some preimage)
    (decoded : C.decodeSpend k1 = some spend) :
    C.decodeNote (Hex.encode (C.sha256 preimage.toList).toList) = some spend.outputKey := by
  simp only [decodeSpend, hex32_trim, short, Option.bind_eq_bind, Option.bind_eq_some_iff, Option.some.injEq] at decoded
  obtain ⟨cw1, spelled, key, committed, rfl⟩ := decoded
  obtain ⟨note, named, rfl⟩ := bearerCw1_eq_some spelled
  have size : preimage.toList.length ≤ maxStackElement := by
    rw [preimage.size]
    decide
  have own := (bearerNote_opens named size).1
  cases Option.some.inj (own.symm.trans committed)
  rw [decodeNote, hex32_encode]
  simp only [named, Option.map_some, Spend.outputKey]

/-- A note is looked up by its hash or its key, which names it and spends nothing. -/
theorem Crates.note_lookup_names_note (points : C.YieldsPoints) {id : Str} (named : C.noteIdOf k1 = some id) :
    ∃ r key, C.noteLookupOf k1 = some r ∧ C.decodeNote r = some key ∧ Hex.encode key.toList = id ∧
      decodeCk1 r = none ∧ C.decodeCw1 r = none ∧
      (∀ withdrawLink, (C.url.parse (fromLud17 (Str.trim withdrawLink))).isSome →
        (C.buildNoteInfoUrlByHash withdrawLink r).isSome) ∧
      (isPreimage k1 → ∃ preimage, Hex.decode (Str.trim k1) = some preimage ∧
        r = Hex.encode (C.sha256 preimage).toList) ∧
      (isPreimage k1 = false → r = encodeCp1 key) := by
  obtain ⟨spend, decoded, rfl⟩ := Option.map_eq_some_iff.mp named
  cases short : hex32 k1 with
  | some preimage =>
    obtain ⟨isHex, digits⟩ := Option.ite_none_right_eq_some.mp short
    obtain ⟨bytes, read, size⟩ := Option.bind_eq_some_iff.mp digits
    rw [Bytes.toArr_eq_some.mp size] at read
    have lookup : C.noteLookupOf k1 = some (Hex.encode (C.sha256 preimage.toList).toList) := by
      simp only [noteLookupOf, isPreimage_trim, isHex, if_true, hashK1, Hex.decode_lower, read]
      rfl
    have note := decodeNote_of_preimage short decoded
    obtain ⟨notCk1, notCw1⟩ := notSpend_of_decodeNote note
    have cleaned : C.decodeNote (Str.lower (Str.trim (Hex.encode (C.sha256 preimage.toList).toList))) =
        some spend.outputKey := by
      rw [Hex.trim_encode, Hex.lower_encode, note]
    refine ⟨_, spend.outputKey, lookup, note, rfl, notCk1, notCw1,
      fun link parses => buildNoteInfoUrlByHash_isSome cleaned parses, fun _ => ⟨_, read, rfl⟩, fun long => ?_⟩
    rw [isHex] at long
    cases long
  | none =>
    have long := not_isPreimage_of_hex32 short
    have point := isXOnlyKey_of_decodeSpend points decoded
    have lookup : C.noteLookupOf k1 = some (encodeCp1 spend.outputKey) := by
      simp only [noteLookupOf, isPreimage_trim, long, Bool.false_eq_true, if_false, decodeSpend_trim, decoded,
        Option.map_some]
    have note := decodeNote_of_cp1 (decodeCp1_encodeCp1 point)
    obtain ⟨notCk1, notCw1⟩ := notSpend_of_decodeNote note
    have cleaned : C.decodeNote (Str.lower (Str.trim (encodeCp1 spend.outputKey))) = some spend.outputKey := by
      rw [cleaned_encodeCp1 point, note]
    refine ⟨_, spend.outputKey, lookup, note, rfl, notCk1, notCw1,
      fun link parses => buildNoteInfoUrlByHash_isSome cleaned parses, fun preimage => ?_, fun _ => rfl⟩
    rw [long] at preimage
    cases preimage

/-! The computed crates, with whatever is off the curve refused. -/

def onCurve : Crates := { reference with
  addTweak := fun key tweak => (reference.addTweak key tweak).filter fun output => reference.isXOnlyKey output.1
  recoverEcdsa := fun digest compact recovery =>
    (reference.recoverEcdsa digest compact recovery).filter fun key => reference.isXOnlyKey key.tail }

theorem onCurve.yieldsPoints : onCurve.YieldsPoints where
  tweaked _ sum := (Option.filter_eq_some_iff.mp sum).2
  recovered found := (Option.filter_eq_some_iff.mp found).2

/-- The id of the note whose preimage is written in ones. -/
def onCurve.idOfOnes : Str := (onCurve.noteIdOf (List.replicate 64 '1')).get (by decide +kernel)

theorem onCurve.lookup_names_note :
    ∃ id r key, onCurve.noteIdOf (List.replicate 64 '1') = some id ∧
      onCurve.noteLookupOf (List.replicate 64 '1') = some r ∧ onCurve.decodeNote r = some key ∧
      Hex.encode key.toList = id := by
  have named : onCurve.noteIdOf (List.replicate 64 '1') = some onCurve.idOfOnes := (Option.some_get _).symm
  obtain ⟨r, key, lookup, note, same, _⟩ := Crates.note_lookup_names_note onCurve.yieldsPoints named
  exact ⟨_, r, key, named, lookup, note, same⟩

/-! ### The lookup's URL -/

/-- The parameters that name, value or certify a note. -/
def noteParams : List Str :=
  ["k1".toList, "amount".toList, "c".toList, "sig".toList, "p".toList, "h".toList]

theorem Crates.buildNoteInfoUrlByHash_eq_some {withdrawLink built : Str}
    (made : C.buildNoteInfoUrlByHash withdrawLink h = some built) :
    ∃ link key, C.url.parse (fromLud17 (Str.trim withdrawLink)) = some link ∧
      C.decodeNote (Str.lower (Str.trim h)) = some key ∧
      built = C.rebuild link ((C.url.queryPairs link).filter (fun pair => !noteParams.contains pair.1) ++
        [("p".toList, Str.lower (Str.trim h))]) := by
  simp only [buildNoteInfoUrlByHash, Option.bind_eq_bind, Option.bind_eq_some_iff, Option.some.injEq] at made
  obtain ⟨key, note, link, parsed, rfl⟩ := made
  refine ⟨link, key, parsed, note, ?_⟩
  have outside (pair : Str × Str) : (!noteParams.contains pair.1) =
      decide (pair.1 ≠ "k1".toList ∧ pair.1 ≠ "amount".toList ∧ pair.1 ≠ "c".toList ∧ pair.1 ≠ "sig".toList ∧
        pair.1 ≠ "p".toList ∧ pair.1 ≠ "h".toList) := by
    rw [Bool.eq_iff_iff, decide_eq_true_iff, Bool.not_eq_true', ← Bool.not_eq_true, List.contains_iff_mem]
    simp only [noteParams, List.mem_cons, List.not_mem_nil, or_false, not_or, ne_eq]
  simp only [outside]

/-- A text under a spend's own prefix is never looked up by. -/
theorem Crates.buildNoteInfoUrlByHash_spend {withdrawLink hrp : Str} (prefixed : hrp = "ck".toList ∨ hrp = "cw".toList)
    {bytes : Bytes} (decoded : decodeBytes hrp h = some bytes) : C.buildNoteInfoUrlByHash withdrawLink h = none := by
  have lowered : decodeBytes hrp (Str.lower (Str.trim h)) = some bytes := by
    rw [← Str.trim_lower, decodeBytes_trim, decodeBytes_lower decoded, decoded]
  have refused : C.decodeNote (Str.lower (Str.trim h)) = none := by
    rcases prefixed with rfl | rfl
    · exact decodeNote_of_decodeBytes lowered (by decide) ⟨'k', by decide, by decide⟩
    · exact decodeNote_of_decodeBytes lowered (by decide) ⟨'w', by decide, by decide⟩
  rw [buildNoteInfoUrlByHash, refused]
  rfl

theorem Crates.noteInfoRequest_eq {url : Str} {parsed : C.url.Url} (found : C.url.parse url = some parsed) :
    C.noteInfoRequest url = .ok (Request.plain (C.rebuild parsed
      ((C.url.queryPairs parsed).filter fun pair => !(["c".toList, "sig".toList].contains pair.1)))) := by
  have outside (pair : Str × Str) : (!(["c".toList, "sig".toList].contains pair.1)) =
      decide (pair.1 ≠ "c".toList ∧ pair.1 ≠ "sig".toList) := by
    rw [Bool.eq_iff_iff]
    simp
  simp only [noteInfoRequest, found, outside]

/-- What is left of a link's pairs once those that name a note are dropped, and one `p` behind it. -/
theorem lookupPairs_private (pairs : List (Str × Str)) (value : Str) :
    (∀ pair ∈ pairs.filter (fun pair => !noteParams.contains pair.1) ++ [("p".toList, value)],
        pair.1 ∉ ["k1".toList, "amount".toList, "c".toList, "sig".toList, "h".toList]) ∧
      (pairs.filter (fun pair => !noteParams.contains pair.1) ++ [("p".toList, value)]).filter
        (fun pair => pair.1 = "p".toList) = [("p".toList, value)] ∧
      (pairs.filter (fun pair => !noteParams.contains pair.1) ++ [("p".toList, value)]).filter
        (fun pair => !noteParams.contains pair.1) = pairs.filter (fun pair => !noteParams.contains pair.1) := by
  refine ⟨fun pair member => ?_, ?_, ?_⟩
  · rw [List.mem_append, List.mem_singleton, List.mem_filter] at member
    rcases member with ⟨_, outside⟩ | rfl
    · simp only [noteParams, Bool.not_eq_true', List.contains_eq_mem, decide_eq_false_iff_not, List.mem_cons,
        List.not_mem_nil, or_false, not_or] at outside ⊢
      tauto
    · simp
  · have none : pairs.filter (fun pair => decide (pair.1 = "p".toList) && !noteParams.contains pair.1) = [] := by
      rw [List.filter_eq_nil_iff]
      rintro ⟨name, value⟩ _ named
      obtain ⟨same, outside⟩ := Bool.and_eq_true_iff.mp named
      rw [of_decide_eq_true same] at outside
      exact absurd outside (by decide)
    rw [List.filter_append, List.filter_filter, none]
    rfl
  · have last : [("p".toList, value)].filter (fun pair => !noteParams.contains pair.1) = [] := rfl
    rw [List.filter_append, List.filter_filter, last, List.append_nil]
    simp only [Bool.and_self]

theorem Crates.noteInfoRequest_keeps (keeps : C.url.KeepsPairs) {url : Str} {parsed : C.url.Url}
    (found : C.url.parse url = some parsed) :
    ∃ request out, C.noteInfoRequest url = .ok request ∧ C.url.parse request.url = some out ∧
      C.url.queryPairs out = (C.url.queryPairs parsed).filter
        (fun pair => !(["c".toList, "sig".toList].contains pair.1)) ∧
      C.noteK1 request.url = C.noteK1 url := by
  obtain ⟨out, again, pairs⟩ := parse_rebuild keeps found
    ((C.url.queryPairs parsed).filter fun pair => !(["c".toList, "sig".toList].contains pair.1))
  refine ⟨_, out, noteInfoRequest_eq found, again, pairs, ?_⟩
  have kept := @lookup_filter "k1".toList (fun pair => !(["c".toList, "sig".toList].contains pair.1)) (fun _ => rfl)
    (C.url.queryPairs parsed)
  simp only [noteK1, Request.plain, firstParam_rebuild keeps found, kept]
  simp only [firstParam, found, Option.bind_eq_bind, Option.bind_some]

/-- A lookup by reference carries one `p`, no spend, amount or certificate, and the link's
other pairs; a note's own informational GET loses its certificate and nothing else. -/
theorem Crates.lookup_is_private (keeps : C.url.KeepsPairs) :
    (∀ withdrawLink h built, C.buildNoteInfoUrlByHash withdrawLink h = some built →
      ∃ link out value key, C.url.parse (fromLud17 (Str.trim withdrawLink)) = some link ∧
        C.url.parse built = some out ∧
        (∀ pair ∈ C.url.queryPairs out,
          pair.1 ∉ ["k1".toList, "amount".toList, "c".toList, "sig".toList, "h".toList]) ∧
        (C.url.queryPairs out).filter (fun pair => pair.1 = "p".toList) = [("p".toList, value)] ∧
        C.decodeNote value = some key ∧ C.decodeNote (Str.lower (Str.trim h)) = some key ∧
        (C.url.queryPairs out).filter (fun pair => !noteParams.contains pair.1) =
          (C.url.queryPairs link).filter (fun pair => !noteParams.contains pair.1)) ∧
      (∀ withdrawLink h, (decodeBytes "ck".toList h).isSome ∨ (decodeBytes "cw".toList h).isSome →
        C.buildNoteInfoUrlByHash withdrawLink h = none) ∧
      ∀ url parsed, C.url.parse url = some parsed →
        ∃ request out, C.noteInfoRequest url = .ok request ∧ C.url.parse request.url = some out ∧
          C.url.queryPairs out =
            (C.url.queryPairs parsed).filter (fun pair => !(["c".toList, "sig".toList].contains pair.1)) ∧
          C.noteK1 request.url = C.noteK1 url := by
  refine ⟨fun withdrawLink h built made => ?_, fun withdrawLink h spend => ?_,
    fun url parsed found => noteInfoRequest_keeps keeps found⟩
  · obtain ⟨link, key, parsed, note, rfl⟩ := buildNoteInfoUrlByHash_eq_some made
    obtain ⟨out, again, pairs⟩ := parse_rebuild keeps parsed
      ((C.url.queryPairs link).filter (fun pair => !noteParams.contains pair.1) ++
        [("p".toList, Str.lower (Str.trim h))])
    obtain ⟨absent, one, others⟩ := lookupPairs_private (C.url.queryPairs link) (Str.lower (Str.trim h))
    rw [← pairs] at absent one others
    exact ⟨link, out, _, key, parsed, again, absent, one, note, note, others⟩
  · rcases spend with ck1 | cw1
    · obtain ⟨bytes, decoded⟩ := Option.isSome_iff_exists.mp ck1
      exact buildNoteInfoUrlByHash_spend (Or.inl rfl) decoded
    · obtain ⟨bytes, decoded⟩ := Option.isSome_iff_exists.mp cw1
      exact buildNoteInfoUrlByHash_spend (Or.inr rfl) decoded

def reference.lookupOfOnes : Str :=
  (reference.buildNoteInfoUrlByHash "lnurlw://mint.example/w?sig=ab&x=1&k1=cd".toList (List.replicate 64 '1')).get
    (by decide +kernel)

theorem reference.lookup_carries_hash :
    ∃ built out value, reference.buildNoteInfoUrlByHash "lnurlw://mint.example/w?sig=ab&x=1&k1=cd".toList
        (List.replicate 64 '1') = some built ∧
      reference.url.parse built = some out ∧
      (reference.url.queryPairs out).filter (fun pair => pair.1 = "p".toList) = [("p".toList, value)] := by
  obtain ⟨lookup, _, _⟩ := Crates.lookup_is_private reference.keepsPairs
  have made : reference.buildNoteInfoUrlByHash "lnurlw://mint.example/w?sig=ab&x=1&k1=cd".toList
      (List.replicate 64 '1') = some reference.lookupOfOnes := (Option.some_get _).symm
  obtain ⟨link, out, value, key, _, again, _, one, _⟩ := lookup _ _ _ made
  exact ⟨_, out, value, made, again, one⟩

end LnurlCash
