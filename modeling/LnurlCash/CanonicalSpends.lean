import LnurlCash.ScriptSpends

namespace LnurlCash

/-- Items are read off nothing but their own frames, and none is too long for one. -/
theorem cw1Items_eq_some {fuel : Nat} {bytes : Bytes} {items : List Bytes} (read : cw1Items fuel bytes = some items) :
    bytes = (items.map framed).flatten ∧ ∀ item ∈ items, item.length < 2 ^ 16 := by
  induction fuel generalizing bytes items with
  | zero =>
    cases bytes with
    | nil =>
      cases read
      exact ⟨rfl, by simp⟩
    | cons b rest => simp [cw1Items] at read
  | succ fuel ih =>
    rcases bytes with _ | ⟨high, _ | ⟨low, rest⟩⟩
    · cases read
      exact ⟨rfl, by simp⟩
    · simp [cw1Items] at read
    · simp only [cw1Items, Option.ite_none_left_eq_some] at read
      obtain ⟨long, read⟩ := read
      obtain ⟨others, readOn, rfl⟩ := Option.map_eq_some_iff.mp read
      obtain ⟨whole, short⟩ := ih readOn
      have size : (rest.take (Bytes.beNat [high, low])).length = Bytes.beNat [high, low] := by
        rw [List.length_take]
        omega
      have bound := Bytes.beNat_lt [high, low]
      rw [List.length_cons, List.length_singleton] at bound
      have frame : framed (rest.take (Bytes.beNat [high, low])) = high :: low :: rest.take (Bytes.beNat [high, low]) := by
        rw [framed, size]
        exact congrArg (· ++ _) (Bytes.be_beNat [high, low])
      constructor
      · rw [List.map_cons, List.flatten_cons, frame, ← whole, List.cons_append, List.cons_append, List.take_append_drop]
      · rw [List.forall_mem_cons, size]
        exact ⟨by omega, short⟩

variable {C : Crates} {s t : Str} {cw1 other : Cw1}

/-- A decoded spend names a note, and its payload is exactly what was read. -/
theorem Crates.decodeCw1_eq_some (decoded : C.decodeCw1 s = some cw1) :
    (C.cw1OutputKey cw1).isSome ∧ (∀ item ∈ cw1.items, item.length < 2 ^ 16) ∧
      decodeBytes "cw".toList s = some cw1.payload := by
  obtain ⟨payload, found, read⟩ := Option.bind_eq_some_iff.mp decoded
  obtain ⟨long, read⟩ := Option.ite_none_left_eq_some.mp read
  obtain ⟨items, listed, read⟩ := Option.bind_eq_some_iff.mp read
  obtain ⟨whole, short⟩ := cw1Items_eq_some listed
  rcases items with _ | ⟨script, _ | ⟨controlBlock, witness⟩⟩
  · cases read
  · cases read
  · obtain ⟨named, same⟩ := Option.ite_none_right_eq_some.mp read
    cases same
    refine ⟨named, short, ?_⟩
    have locktime : (payload.take 4).length = 4 := by
      rw [List.length_take]
      omega
    have sequence : ((payload.drop 4).take 4).length = 4 := by
      rw [List.length_take, List.length_drop]
      omega
    rw [found, Cw1.payload, Bytes.be_word locktime, Bytes.be_word sequence, Cw1.items, ← whole, List.append_assoc]
    have eight : payload.drop 8 = (payload.drop 4).drop 4 := by rw [List.drop_drop]
    rw [eight, List.take_append_drop, List.take_append_drop]

theorem Crates.decodeCw1_canonicalForm (decoded : C.decodeCw1 s = some cw1) :
    C.decodeCw1 (Str.lower (Str.trim s)) = some cw1 := by
  obtain ⟨_, _, found⟩ := decodeCw1_eq_some decoded
  have same : decodeBytes "cw".toList (Str.lower (Str.trim s)) = decodeBytes "cw".toList s := by
    rw [← Str.trim_lower, decodeBytes_trim, decodeBytes_lower found]
  rwa [decodeCw1, same]

/-- Only the canonical encoding of a spend that names a note is read, whole, as that spend. -/
theorem Crates.decodeCw1_canonical (decoded : C.decodeCw1 s = some cw1) :
    (C.cw1OutputKey cw1).isSome ∧ (∀ item ∈ cw1.items, item.length ≤ 65535) ∧
      encodeCw1 cw1 = .ok (Str.lower (Str.trim s)) ∧
      ∀ t other, C.decodeCw1 t = some other → (Str.lower (Str.trim s) = Str.lower (Str.trim t) ↔ cw1 = other) := by
  obtain ⟨named, short, found⟩ := decodeCw1_eq_some decoded
  have encoded : encodeCw1 cw1 = .ok (Str.lower (Str.trim s)) :=
    encodeCw1_eq_ok.mpr ⟨short, encodeBytes_of_decode found⟩
  refine ⟨named, fun item member => Nat.le_of_lt_succ (short item member), encoded, ?_⟩
  intro t other again
  constructor
  · intro same
    have canonical := decodeCw1_canonicalForm decoded
    rw [same, decodeCw1_canonicalForm again] at canonical
    exact (Option.some.inj canonical).symm
  · rintro rfl
    obtain ⟨_, _, foundAgain⟩ := decodeCw1_eq_some again
    rw [encodeBytes_of_decode found, encodeBytes_of_decode foundAgain]

def shoutedCw1 : Str := "\t".toList ++ Str.upper (encodeBytes "cw".toList shortCw1.payload)

theorem shoutedCw1_canonical : encodeCw1 shortCw1 = .ok (Str.lower (Str.trim shoutedCw1)) :=
  (@Crates.decodeCw1_canonical reference shoutedCw1 shortCw1 (by decide +kernel)).2.2.1

end LnurlCash
