import LnurlCash.LeafOpcodes
import LnurlCash.CheckedTexts

/-! The functions that take bytes apart, each index, slice and copy a checked one. -/

namespace LnurlCash.Sliced

open Checked

def outputKeyOf (C : Crates) (script controlBlock : Bytes) : Checked (ByteArr 32) :=
  let len := controlBlock.length
  if len < 33 then failure
  else do
    let path ← sub len 33
    if path % 32 ≠ 0 ∨ path / 32 > maxMerkleDepth then failure
    else
      let first ← index controlBlock 0
      let siblings ← slice controlBlock 33 len
      let node := (Bytes.chunksExact 32 siblings).foldl C.tapbranchHash (C.tapleafHash script (first &&& 0xfe))
      let internal ← slice controlBlock 1 33
      let internalKey ← ask (Bytes.toArr 32 internal)
      let tweaked ← ask (C.taprootTweak internalKey node)
      if tweaked.parity = first &&& 1 then pure tweaked.outputKey else failure

def bearerLeaf (h : ByteArr 32) : Checked (ByteArr 35) := do
  let leaf ← store (zeroed 35) 0 0xa8
  let leaf ← store leaf 1 0x20
  let leaf ← copy leaf 2 34 h.toList
  store leaf 34 0x87

/-- Each byte is looked at only if those before it were the right ones. -/
def bearerHashOfLeaf (script : Bytes) : Checked (ByteArr 32) :=
  if script.length = 35 then do
    let sha256 ← index script 0
    if sha256 = 0xa8 then
      let push ← index script 1
      if push = 0x20 then
        let equal ← index script 34
        if equal = 0x87 then
          let h ← slice script 2 34
          ask (Bytes.toArr 32 h)
        else failure
      else failure
    else failure
  else failure

def bearerNote (C : Crates) (h : ByteArr 32) : Checked BearerNote := do
  let leaf ← bearerLeaf h
  let tweaked ← ask (C.taprootTweak numsH (C.tapleafHash leaf.toList tapleafVersion))
  let controlBlock ← store (zeroed 33) 0 (tapleafVersion ||| tweaked.parity)
  let controlBlock ← copy controlBlock 1 33 numsH.toList
  pure { outputKey := tweaked.outputKey, controlBlock, leaf }

def bearerCw1 (C : Crates) (preimage : Bytes) : Checked Cw1 := do
  let note ← bearerNote C (C.sha256 preimage)
  pure {
    locktime := keyPathLocktime
    sequence := keyPathSequence
    script := note.leaf.toList
    controlBlock := note.controlBlock.toList
    witness := [preimage] }

/-- One item of the payload behind its length, from where the last one ended. -/
def cw1Turn (payload : Bytes) (read : Nat × List Bytes) : Checked ((Nat × List Bytes) ⊕ List Bytes) :=
  if read.1 < payload.length then do
    let header ← ask ((range? payload read.1 (read.1 + 2)).bind (Bytes.toArr 2))
    let len := Bytes.beNat header.toList
    let item ← ask (range? payload (read.1 + 2) (read.1 + 2 + len))
    pure (.inl (read.1 + 2 + len, read.2 ++ [item]))
  else pure (.inr read.2)

def decodeCw1 (C : Crates) (value : Str) : Checked Cw1 := do
  let payload ← ask (decodeBytes "cw".toList value)
  if payload.length < 8 then failure
  else
    let items ← loop (cw1Turn payload) payload.length (8, [])
    if items.length < 2 then failure
    else
      let front ← slice payload 0 4
      let locktime ← ask (Bytes.toArr 4 front)
      let next ← slice payload 4 8
      let sequence ← ask (Bytes.toArr 4 next)
      let script ← ask items[0]?
      let controlBlock ← ask items[1]?
      let cw1 : Cw1 := {
        locktime := UInt32.ofNat (Bytes.beNat locktime.toList)
        sequence := UInt32.ofNat (Bytes.beNat sequence.toList)
        script, controlBlock
        witness := items.drop 2 }
      let key ← attempt (outputKeyOf C cw1.script cw1.controlBlock)
      if key.isSome then pure cw1 else failure

def legacyCk1Key (C : Crates) (signature : Bytes) : Checked (ByteArr 32) := do
  let signature ← ask (Bytes.toArr 65 signature)
  let recovery ← index signature.toList 64
  let compact ← slice signature.toList 0 64
  let key ← ask (C.recover (C.lightningSignedDigest legacyOwnershipMessage) compact recovery)
  ask (Bytes.toArr 32 (key.toList.drop 1))

def recoverNoteOwnershipPubkey (C : Crates) (payload : Bytes) (domain : Str) : Checked NoteOwner :=
  if payload.length = 65 then do
    let key ← legacyCk1Key C payload
    pure { pubkeyXOnly := key, legacy := true }
  else if payload.length ≠ 96 then failure
  else do
    let front ← slice payload 0 32
    let key ← ask (Bytes.toArr 32 front)
    let signature ← slice payload 32 payload.length
    let verifies (message : Bytes) : Bool := C.verifySchnorr key signature message
    let named ← attempt (spendDomainOf C domain)
    if named.any fun domain => verifies (C.keyPathSighash key domain).toList then
      pure { pubkeyXOnly := key, legacy := false }
    else if verifies C.legacyOwnershipDigest.toList || verifies (Str.utf8 legacyOwnershipMessage) then
      pure { pubkeyXOnly := key, legacy := true }
    else failure

def decodeNote (C : Crates) (value : Str) : Checked (ByteArr 32) :=
  match hex32 value with
  | some h => BearerNote.outputKey <$> bearerNote C h
  | none => ask (C.decodeCp1 value)

def bearerHash (C : Crates) : Spend → Checked (ByteArr 32)
  | .scriptPath outputKey cw1 => do
    let h ← bearerHashOfLeaf cw1.script
    let note ← bearerNote C h
    if note.outputKey = outputKey then pure h else failure
  | _ => failure

def decodeSpend (C : Crates) (k1 : Str) : Checked Spend :=
  let value := Str.trim k1
  match hex32 value with
  | some preimage => do
    let cw1 ← bearerCw1 C preimage.toList
    let outputKey ← outputKeyOf C cw1.script cw1.controlBlock
    pure (.scriptPath outputKey cw1)
  | none =>
    match decodeCk1 value with
    | some (.current payload) => do
      let front ← slice payload.toList 0 32
      let outputKey ← ask (Bytes.toArr 32 front)
      let back ← slice payload.toList 32 payload.toList.length
      let signature ← ask (Bytes.toArr 64 back)
      if C.isXOnlyPoint outputKey.toList then pure (.keyPath outputKey signature) else failure
    | some (.legacy signature) => do
      let outputKey ← legacyCk1Key C signature.toList
      pure (.legacyKeyPath outputKey)
    | none => do
      let cw1 ← decodeCw1 C value
      let outputKey ← outputKeyOf C cw1.script cw1.controlBlock
      pure (.scriptPath outputKey cw1)

/-- How much data an opcode has behind it, or the reason it is refused. -/
def skipOf (script : Bytes) (i : Nat) (op : UInt8) : Checked (Nat ⊕ Str) :=
  if 1 ≤ op ∧ op ≤ 75 then pure (.inl op.toNat)
  else if op = 0x4c then do
    let len ← ask script[i]?
    pure (.inl (1 + len.toNat))
  else if op = 0x4d then do
    let len ← ask (range? script i (i + 2))
    let l₀ ← index len 0
    let l₁ ← index len 1
    pure (.inl (2 + Bytes.beNat [l₁, l₀]))
  else if op = 0x4e then do
    let len ← ask (range? script i (i + 4))
    let l₀ ← index len 0
    let l₁ ← index len 1
    let l₂ ← index len 2
    let l₃ ← index len 3
    pure (.inl (4 + Bytes.beNat [l₃, l₂, l₁, l₀]))
  else if isOpSuccess op then pure (.inr reservedOpcode)
  else pure (.inl 0)

/-- One opcode of the walk. -/
def leafTurn (script : Bytes) (i : Nat) : Checked (Nat ⊕ Str) :=
  if i < script.length then do
    let op ← index script i
    match ← skipOf script (i + 1) op with
    | .inl skip => pure (.inl (i + 1 + skip))
    | .inr reason => pure (.inr reason)
  else failure

/-- The reason a leaf is refused; a walk to the script's end has none. -/
def checkLeaf (leafVersion : UInt8) (script : Bytes) : Checked Str :=
  if leafVersion &&& 0xfe ≠ tapleafVersion then pure unknownLeafVersion
  else loop (leafTurn script) (script.length + 1) 0

def scriptPathVerdict (C : Crates) (cw1 : Cw1) : Checked SpendVerdict := do
  let first ← index cw1.controlBlock 0
  match ← attempt (checkLeaf first cw1.script) with
  | some reason => pure (.fails reason)
  | none =>
    match ← attempt (bearerHashOfLeaf cw1.script) with
    | none => pure .unevaluated
    | some h =>
      match cw1.witness with
      | [preimage] =>
        if preimage.length ≤ maxStackElement ∧ C.sha256 preimage = h then pure .opens
        else pure (.fails "the witness does not satisfy the leaf".toList)
      | _ => pure (.fails "the witness does not satisfy the leaf".toList)

def checkSpend (C : Crates) (k1 domain : Str) : Checked SpendCheck := do
  let spend ← decodeSpend C k1
  let verdict ← match spend with
    | .keyPath outputKey signature => do
      let payload ← copy (zeroed 96) 0 32 outputKey.toList
      let payload ← copy payload 32 96 signature.toList
      match ← attempt (recoverNoteOwnershipPubkey C payload.toList domain) with
      | some owner => pure (if owner.legacy then .opensLegacy else .opens)
      | none => pure (.fails "the signature does not open this note here".toList)
    | .legacyKeyPath _ => pure .opensLegacy
    | .scriptPath _ cw1 => scriptPathVerdict C cw1
  pure { outputKey := spend.outputKey, verdict }

/-! ### The payload of a `cw1` -/

/-- Any fuel that covers the bytes reads the same items off them. -/
theorem cw1Items_fuel {fuel other : Nat} {bytes : Bytes} (enough : bytes.length ≤ fuel) (also : bytes.length ≤ other) :
    cw1Items fuel bytes = cw1Items other bytes := by
  induction fuel generalizing other bytes with
  | zero =>
    rw [List.eq_nil_of_length_eq_zero (Nat.le_zero.mp enough)]
    cases other <;> rfl
  | succ fuel ih =>
    rcases bytes with _ | ⟨high, _ | ⟨low, rest⟩⟩
    · cases other <;> rfl
    · cases other <;> rfl
    · rw [List.length_cons, List.length_cons] at enough also
      obtain ⟨other, rfl⟩ : ∃ less, other = less + 1 := Nat.exists_eq_add_one.mpr (by omega)
      have left : (rest.drop (Bytes.beNat [high, low])).length ≤ fuel := by
        rw [List.length_drop]
        omega
      have right : (rest.drop (Bytes.beNat [high, low])).length ≤ other := by
        rw [List.length_drop]
        omega
      rw [cw1Items, cw1Items, ih left right]

/-- The items read so far, and those of the rest of the payload. -/
def itemsFrom (payload : Bytes) (read : Nat × List Bytes) : Option (List Bytes) :=
  (cw1Items payload.length (payload.drop read.1)).map (read.2 ++ ·)

theorem drop_behind {payload rest : Bytes} {high low : UInt8} {offset : Nat}
    (here : payload.drop offset = high :: low :: rest) : payload.drop (offset + 2) = rest := by
  rw [← List.drop_drop, here]
  rfl

/-- An item that is all there is one more of those read, and what is behind it the rest. -/
theorem itemsFrom_cons {payload rest : Bytes} {high low : UInt8} {offset : Nat}
    (here : payload.drop offset = high :: low :: rest) (items : List Bytes) :
    itemsFrom payload (offset, items) =
      if rest.length < Bytes.beNat [high, low] then none
      else itemsFrom payload (offset + 2 + Bytes.beNat [high, low], items ++ [rest.take (Bytes.beNat [high, low])]) := by
  have left := List.length_drop (l := payload) (i := offset)
  rw [here, List.length_cons, List.length_cons] at left
  obtain ⟨fuel, size⟩ : ∃ fuel, payload.length = fuel + 1 := Nat.exists_eq_add_one.mpr (by omega)
  have spelled : cw1Items payload.length (high :: low :: rest) =
      if rest.length < Bytes.beNat [high, low] then none
      else (cw1Items fuel (rest.drop (Bytes.beNat [high, low]))).map (rest.take (Bytes.beNat [high, low]) :: ·) := by
    rw [size, cw1Items]
  generalize Bytes.beNat [high, low] = n at spelled ⊢
  have same : cw1Items fuel (rest.drop n) = cw1Items payload.length (rest.drop n) :=
    cw1Items_fuel (by rw [List.length_drop]; omega) (by rw [List.length_drop]; omega)
  rw [itemsFrom, itemsFrom, here, spelled, same, ← List.drop_drop, drop_behind here]
  split
  · rfl
  · rw [Option.map_map]
    refine congrArg (Option.map · _) (funext fun found => ?_)
    rw [Function.comp_apply, List.append_assoc, List.singleton_append]

theorem turns_cw1Turn (payload : Bytes) (read : Nat × List Bytes) :
    ∃ result, Returns (cw1Turn payload read) result ∧
      Turns (itemsFrom payload) (fun read => payload.length - read.1) read result := by
  obtain ⟨offset, items⟩ := read
  by_cases inside : offset < payload.length
  · rw [cw1Turn, if_pos inside, range?_of_le inside.le]
    have left := List.length_drop (l := payload) (i := offset)
    rcases here : payload.drop offset with _ | ⟨high, _ | ⟨low, rest⟩⟩
    · rw [here, List.length_nil] at left
      omega
    · refine ⟨none, (returns_ask none).leave, .leaves ?_⟩
      rw [itemsFrom, here]
      cases payload.length <;> rfl
    · rw [here, List.length_cons, List.length_cons] at left
      have within : offset + 2 ≤ payload.length := by omega
      have step := itemsFrom_cons here items
      have header := returns_ask (some (⟨[high, low], rfl⟩ : ByteArr 2))
      generalize len : Bytes.beNat [high, low] = n at step
      by_cases long : n ≤ rest.length
      · refine ⟨some (.inl (offset + 2 + n, items ++ [rest.take n])), header.andThen ?_, .goesOn ?_ ?_⟩
        · rw [len]
          have item : range? payload (offset + 2) (offset + 2 + n) = some (rest.take n) := by
            rw [range?_of_le within, drop_behind here, if_pos long]
          exact (returns_asked item).andThen (returns_pure _)
        · rw [step, if_neg (by omega)]
        · change payload.length - (offset + 2 + n) < payload.length - offset
          omega
      · refine ⟨none, header.andThen ?_, .leaves ?_⟩
        · rw [len]
          have item : range? payload (offset + 2) (offset + 2 + n) = none := by
            rw [range?_of_le within, drop_behind here, if_neg long]
          exact (returns_asked item).leave
        · rw [step, if_pos (by omega)]
  · refine ⟨some (.inr items), ?_, .ends ?_⟩
    · rw [cw1Turn, if_neg inside]
      exact returns_pure _
    · rw [itemsFrom, List.drop_of_length_le (by omega)]
      cases payload.length <;> rw [cw1Items, Option.map_some, List.append_nil]

theorem returns_cw1Items {payload : Bytes} (long : 8 ≤ payload.length) :
    Returns (loop (cw1Turn payload) payload.length (8, [])) (cw1Items payload.length (payload.drop 8)) := by
  have returned := returns_loop (turns_cw1Turn payload) (8, []) (by omega : payload.length - 8 < payload.length)
  rwa [itemsFrom, show ([] ++ · : List Bytes → List Bytes) = id from rfl, Option.map_id_fun, id_eq] at returned

/-! ### The walk over a leaf -/

theorem checkOpcodes_fuel {fuel other : Nat} {script : Bytes} (enough : script.length ≤ fuel)
    (also : script.length ≤ other) : checkOpcodes fuel script = checkOpcodes other script := by
  by_cases meets : Script.MeetsOpSuccess script
  · rw [checkOpcodes_of_meets enough meets, checkOpcodes_of_meets also meets]
  · rw [checkOpcodes_of_not_meets fuel meets, checkOpcodes_of_not_meets other meets]

/-- Where the walk goes from an opcode, with `rest` behind it. -/
def walkOn (fuel : Nat) (rest : Bytes) : Option (Nat ⊕ Str) → Option Str
  | none => none
  | some (.inl skip) => checkOpcodes fuel (rest.drop skip)
  | some (.inr reason) => some reason

theorem returns_skipOf {script rest : Bytes} {i : Nat} (inside : i ≤ script.length) (here : script.drop i = rest)
    (fuel : Nat) (op : UInt8) :
    ∃ result, Returns (skipOf script i op) result ∧ checkOpcodes (fuel + 1) (op :: rest) = walkOn fuel rest result := by
  have read : ∀ n, range? script i (i + n) = if n ≤ rest.length then some (rest.take n) else none := by
    intro n
    rw [range?_of_le inside, here]
  rw [skipOf]
  conv => enter [1, result, 2, 1]; unfold checkOpcodes
  by_cases direct : 1 ≤ op ∧ op ≤ 75
  · rw [if_pos direct, if_pos direct]
    exact ⟨_, returns_pure _, rfl⟩
  rw [if_neg direct, if_neg direct]
  by_cases one : op = 0x4c
  · rw [if_pos one, if_pos one]
    have len : script[i]? = rest.head? := by rw [← here, List.head?_drop]
    rcases rest with _ | ⟨l₀, more⟩
    · exact ⟨none, (returns_asked len).leave, rfl⟩
    · exact ⟨_, (returns_asked len).andThen (returns_pure _), rfl⟩
  rw [if_neg one, if_neg one]
  by_cases two : op = 0x4d
  · rw [if_pos two, if_pos two]
    rcases rest with _ | ⟨l₀, _ | ⟨l₁, more⟩⟩
    · exact ⟨none, (returns_asked (read 2)).leave, rfl⟩
    · exact ⟨none, (returns_asked (read 2)).leave, rfl⟩
    · refine ⟨some (.inl (2 + Bytes.beNat [l₁, l₀])), (returns_asked (read 2)).andThen ?_, rfl⟩
      exact (returns_index rfl).andThen ((returns_index rfl).andThen (returns_pure _))
  rw [if_neg two, if_neg two]
  by_cases four : op = 0x4e
  · rw [if_pos four, if_pos four]
    rcases rest with _ | ⟨l₀, _ | ⟨l₁, _ | ⟨l₂, _ | ⟨l₃, more⟩⟩⟩⟩
    · exact ⟨none, (returns_asked (read 4)).leave, rfl⟩
    · exact ⟨none, (returns_asked (read 4)).leave, rfl⟩
    · exact ⟨none, (returns_asked (read 4)).leave, rfl⟩
    · exact ⟨none, (returns_asked (read 4)).leave, rfl⟩
    · refine ⟨some (.inl (4 + Bytes.beNat [l₃, l₂, l₁, l₀])), (returns_asked (read 4)).andThen ?_, rfl⟩
      refine (returns_index rfl).andThen ((returns_index rfl).andThen ?_)
      exact (returns_index rfl).andThen ((returns_index rfl).andThen (returns_pure _))
  rw [if_neg four, if_neg four]
  by_cases reserved : isOpSuccess op
  · rw [if_pos reserved, if_pos reserved]
    exact ⟨_, returns_pure _, rfl⟩
  · rw [if_neg reserved, if_neg reserved]
    exact ⟨_, returns_pure _, rfl⟩

def reasonFrom (script : Bytes) (i : Nat) : Option Str := checkOpcodes script.length (script.drop i)

theorem turns_leafTurn (script : Bytes) (i : Nat) :
    ∃ result, Returns (leafTurn script i) result ∧
      Turns (reasonFrom script) (fun i => script.length - i) i result := by
  by_cases inside : i < script.length
  · have here : script.drop i = script[i] :: script.drop (i + 1) := List.drop_eq_getElem_cons inside
    obtain ⟨fuel, size⟩ : ∃ fuel, script.length = fuel + 1 := Nat.exists_eq_add_one.mpr (by omega)
    obtain ⟨result, skipped, walked⟩ := returns_skipOf inside rfl fuel script[i]
    have reason : reasonFrom script i = walkOn fuel (script.drop (i + 1)) result := by
      rw [reasonFrom, size, here, walked]
    have first := returns_index (List.getElem?_eq_getElem inside)
    rw [leafTurn, if_pos inside]
    rcases result with _ | skip | refused
    · exact ⟨none, first.andThen skipped.leave, .leaves reason⟩
    · refine ⟨some (.inl (i + 1 + skip)), first.andThen (skipped.andThen (returns_pure _)), .goesOn ?_ ?_⟩
      · rw [reason, reasonFrom, walkOn, List.drop_drop]
        refine checkOpcodes_fuel ?_ ?_ <;> rw [List.length_drop] <;> omega
      · omega
    · exact ⟨some (.inr refused), first.andThen (skipped.andThen (returns_pure _)), .ends reason⟩
  · refine ⟨none, ?_, .leaves ?_⟩
    · rw [leafTurn, if_neg inside]
      exact returns_failure
    · rw [reasonFrom, List.drop_of_length_le (by omega), checkOpcodes_nil]

theorem returns_checkLeaf (leafVersion : UInt8) (script : Bytes) :
    Returns (checkLeaf leafVersion script) (LnurlCash.checkLeaf leafVersion script) := by
  rw [checkLeaf, LnurlCash.checkLeaf]
  refine returns_ite (fun _ => returns_pure _) fun _ => ?_
  exact returns_loop (turns_leafTurn script) 0 (Nat.lt_succ_self _)

/-! ### Keys and leaves -/

theorem returns_outputKeyOf (C : Crates) (script controlBlock : Bytes) :
    Returns (outputKeyOf C script controlBlock) (C.outputKeyOf script controlBlock) := by
  simp only [outputKeyOf, Crates.outputKeyOf]
  by_cases short : controlBlock.length < 33
  · rw [if_pos short, if_pos (Or.inl short)]
    exact returns_failure
  · rw [if_neg short, if_congr (or_iff_right short) rfl rfl]
    refine (returns_sub (by omega)).andThen ?_
    refine returns_ite (fun _ => returns_failure) fun _ => ?_
    obtain ⟨first, rest, rfl⟩ : ∃ first rest, controlBlock = first :: rest :=
      List.exists_cons_of_length_pos (by omega)
    refine (returns_index rfl).andThen ?_
    refine (returns_slice_from (by omega)).andThen ?_
    refine (returns_slice (by omega) (by omega)).andThen ?_
    refine (returns_ask _).bind fun internalKey _ => ?_
    refine (returns_ask _).bind fun tweaked _ => ?_
    exact returns_ite (fun _ => returns_pure _) (fun _ => returns_failure)

theorem returns_bearerLeaf (h : ByteArr 32) : Returns (bearerLeaf h) (some (LnurlCash.bearerLeaf h)) := by
  obtain ⟨first, storedFirst, firstBytes⟩ := returns_store (zeroed 35) 0xa8 (by omega : 0 < 35)
  obtain ⟨second, storedSecond, secondBytes⟩ := returns_store first 0x20 (by omega : 1 < 35)
  obtain ⟨third, copied, thirdBytes⟩ := returns_copy second (by decide : 2 ≤ 34) (by decide : 34 ≤ 35) h.size
  obtain ⟨leaf, storedLast, bytes⟩ := returns_store third 0x87 (by omega : 34 < 35)
  have whole : leaf = LnurlCash.bearerLeaf h := by
    ext1
    rw [bytes, thirdBytes, secondBytes, firstBytes]
    change 0xa8 :: 0x20 :: (h.toList ++ [0]).set 32 0x87 = 0xa8 :: 0x20 :: (h.toList ++ [0x87])
    rw [List.set_append_right 32 _ h.size.le, h.size]
    rfl
  rw [whole] at storedLast
  exact storedFirst.andThen (storedSecond.andThen (copied.andThen storedLast))

theorem returns_bearerHashOfLeaf (script : Bytes) :
    Returns (bearerHashOfLeaf script) (LnurlCash.bearerHashOfLeaf script) := by
  rw [bearerHashOfLeaf, LnurlCash.bearerHashOfLeaf, ite_and]
  refine returns_ite (fun size => ?_) (fun _ => returns_failure)
  have byte : ∀ i < 35, ∃ b, script[i]? = some b := fun i inside =>
    ⟨script[i], List.getElem?_eq_getElem (by omega)⟩
  obtain ⟨sha256, first⟩ := byte 0 (by omega)
  obtain ⟨push, second⟩ := byte 1 (by omega)
  obtain ⟨equal, last⟩ := byte 34 (by omega)
  simp only [first, second, last, Option.some.injEq, ite_and]
  refine (returns_index first).andThen ?_
  refine returns_ite (fun _ => ?_) (fun _ => returns_failure)
  refine (returns_index second).andThen ?_
  refine returns_ite (fun _ => ?_) (fun _ => returns_failure)
  refine (returns_index last).andThen ?_
  refine returns_ite (fun _ => ?_) (fun _ => returns_failure)
  exact (returns_slice (by omega) (by omega)).andThen (returns_ask _)

theorem returns_bearerNote (C : Crates) (h : ByteArr 32) : Returns (bearerNote C h) (C.bearerNote h) := by
  refine (returns_bearerLeaf h).andThen ?_
  refine (returns_ask _).bind fun tweaked _ => ?_
  obtain ⟨first, stored, firstBytes⟩ := returns_store (zeroed 33) (tapleafVersion ||| tweaked.parity) (by omega : 0 < 33)
  obtain ⟨controlBlock, copied, bytes⟩ := returns_copy first (by decide : 1 ≤ 33) (by decide : 33 ≤ 33) numsH.size
  have whole : controlBlock = ⟨(tapleafVersion ||| tweaked.parity) :: numsH.toList, rfl⟩ := by
    ext1
    rw [bytes, firstBytes]
    rfl
  rw [whole] at copied
  exact stored.andThen (copied.andThen (returns_pure _))

theorem returns_bearerCw1 (C : Crates) (preimage : Bytes) : Returns (bearerCw1 C preimage) (C.bearerCw1 preimage) :=
  (returns_bearerNote C _).bind fun _ _ => returns_pure _

theorem returns_decodeNote (C : Crates) (value : Str) : Returns (decodeNote C value) (C.decodeNote value) := by
  rw [decodeNote, Crates.decodeNote]
  cases hex32 value with
  | some h => exact (returns_bearerNote C h).map BearerNote.outputKey
  | none => exact returns_ask _

theorem returns_bearerHash (C : Crates) (spend : Spend) : Returns (bearerHash C spend) (C.bearerHash spend) := by
  cases spend with
  | scriptPath outputKey cw1 =>
    refine (returns_bearerHashOfLeaf cw1.script).bind fun h _ => ?_
    refine (returns_bearerNote C h).bind fun note _ => ?_
    exact returns_ite (fun _ => returns_pure _) (fun _ => returns_failure)
  | keyPath | legacyKeyPath => exact returns_failure

/-! ### Spends -/

theorem returns_decodeCw1 (C : Crates) (value : Str) : Returns (decodeCw1 C value) (C.decodeCw1 value) := by
  refine (returns_ask _).bind fun payload _ => ?_
  refine returns_ite (fun _ => returns_failure) fun long => ?_
  refine (returns_cw1Items (Nat.not_lt.mp long)).bind fun items _ => ?_
  rcases items with _ | ⟨script, _ | ⟨controlBlock, witness⟩⟩
  · exact returns_failure
  · exact returns_failure
  · have front : Bytes.toArr 4 (payload.take 4) = some ⟨payload.take 4, List.length_take_of_le (by omega)⟩ :=
      Bytes.toArr_eq_some.mpr rfl
    have next : Bytes.toArr 4 ((payload.drop 4).take 4) =
        some ⟨(payload.drop 4).take 4, List.length_take_of_le (by rw [List.length_drop]; omega)⟩ :=
      Bytes.toArr_eq_some.mpr rfl
    have second : (script :: controlBlock :: witness)[1]? = some controlBlock := rfl
    refine (returns_slice_to (by omega)).andThen ?_
    refine (returns_asked front).andThen ?_
    refine (returns_slice (by omega) (by omega)).andThen ?_
    refine (returns_asked next).andThen ?_
    refine (returns_asked List.getElem?_cons_zero).andThen ?_
    refine (returns_asked second).andThen ?_
    refine (returns_outputKeyOf C script controlBlock).attempt.andThen ?_
    exact returns_ite (fun _ => returns_pure _) (fun _ => returns_failure)

theorem returns_legacyCk1Key (C : Crates) (signature : Bytes) :
    Returns (legacyCk1Key C signature) (C.legacyCk1Key signature) := by
  refine (returns_ask _).bind fun signature _ => ?_
  refine (returns_get signature (by omega : 64 < 65)).andThen ?_
  refine (returns_slice_to (by rw [signature.size]; decide)).andThen ?_
  exact (returns_ask _).bind fun key _ => returns_ask _

theorem returns_recoverNoteOwnershipPubkey (C : Crates) (payload : Bytes) (domain : Str) :
    Returns (recoverNoteOwnershipPubkey C payload domain) (C.recoverNoteOwnershipPubkey payload domain) := by
  refine returns_ite (fun _ => ?_) fun _ => ?_
  · exact (returns_legacyCk1Key C payload).map _
  refine returns_ite (fun _ => returns_failure) fun size => ?_
  refine (returns_slice_to (by omega)).andThen ?_
  refine (returns_ask _).bind fun key _ => ?_
  refine (returns_slice_from (by omega)).andThen ?_
  refine (returns_spendDomainOf C domain).attempt.andThen ?_
  refine returns_ite (fun _ => returns_pure _) fun _ => ?_
  exact returns_ite (fun _ => returns_pure _) (fun _ => returns_failure)

theorem returns_decodeSpend (C : Crates) (k1 : Str) : Returns (decodeSpend C k1) (C.decodeSpend k1) := by
  rw [decodeSpend, Crates.decodeSpend]
  cases hex32 (Str.trim k1) with
  | some preimage =>
    refine (returns_bearerCw1 C preimage.toList).bind fun cw1 _ => ?_
    exact (returns_outputKeyOf C cw1.script cw1.controlBlock).bind fun _ _ => returns_pure _
  | none =>
    rcases decodeCk1 (Str.trim k1) with _ | payload | signature
    · refine (returns_decodeCw1 C _).bind fun cw1 _ => ?_
      exact (returns_outputKeyOf C cw1.script cw1.controlBlock).bind fun _ _ => returns_pure _
    · refine (returns_slice_to (by rw [payload.size]; decide)).andThen ?_
      refine (returns_ask _).bind fun outputKey _ => ?_
      refine (returns_slice_from (by rw [payload.size]; decide)).andThen ?_
      refine (returns_ask _).bind fun signature _ => ?_
      exact returns_ite (fun _ => returns_pure _) (fun _ => returns_failure)
    · exact (returns_legacyCk1Key C signature.toList).bind fun _ _ => returns_pure _

theorem outputKeyOf_of_decodeSpend {C : Crates} {k1 : Str} {outputKey : ByteArr 32} {cw1 : Cw1}
    (decoded : C.decodeSpend k1 = some (.scriptPath outputKey cw1)) :
    C.outputKeyOf cw1.script cw1.controlBlock = some outputKey := by
  rw [Crates.decodeSpend] at decoded
  cases short : hex32 (Str.trim k1) with
  | some preimage =>
    simp only [short, Option.bind_eq_bind, Option.bind_eq_some_iff, Option.some.injEq, Spend.scriptPath.injEq] at decoded
    obtain ⟨_, _, _, commits, rfl, rfl⟩ := decoded
    exact commits
  | none =>
    rcases ck1 : decodeCk1 (Str.trim k1) with _ | payload | signature
    · simp only [short, ck1, Option.bind_eq_bind, Option.bind_eq_some_iff, Option.some.injEq, Spend.scriptPath.injEq]
        at decoded
      obtain ⟨_, _, _, commits, rfl, rfl⟩ := decoded
      exact commits
    · simp [short, ck1, Option.bind_eq_some_iff] at decoded
    · simp [short, ck1, Option.bind_eq_some_iff] at decoded

/-- A control block that commits to a key is long enough to have a first byte. -/
theorem controlBlock_of_outputKeyOf {C : Crates} {script controlBlock : Bytes} {outputKey : ByteArr 32}
    (commits : C.outputKeyOf script controlBlock = some outputKey) : ∃ first, controlBlock[0]? = some first := by
  have long : 33 ≤ controlBlock.length := by
    by_contra short
    rw [Crates.outputKeyOf, if_pos (Or.inl (Nat.not_le.mp short))] at commits
    cases commits
  exact ⟨controlBlock[0], List.getElem?_eq_getElem (by omega)⟩

theorem returns_scriptPathVerdict (C : Crates) {cw1 : Cw1} {first : UInt8} (block : cw1.controlBlock[0]? = some first) :
    Returns (scriptPathVerdict C cw1) (some (C.scriptPathVerdict cw1)) := by
  have head : cw1.controlBlock.headD 0 = first := by
    rw [List.headD_eq_head?_getD, List.head?_eq_getElem?, block, Option.getD_some]
  rw [scriptPathVerdict, Crates.scriptPathVerdict, head]
  refine (returns_index block).andThen ?_
  refine (returns_checkLeaf first cw1.script).attempt.andThen ?_
  cases LnurlCash.checkLeaf first cw1.script with
  | some reason => exact returns_pure _
  | none =>
    refine (returns_bearerHashOfLeaf cw1.script).attempt.andThen ?_
    cases LnurlCash.bearerHashOfLeaf cw1.script with
    | none => exact returns_pure _
    | some h =>
      rcases cw1.witness with _ | ⟨preimage, _ | ⟨second, rest⟩⟩
      · exact returns_pure _
      · rw [apply_ite some]
        exact returns_ite (fun _ => returns_pure _) (fun _ => returns_pure _)
      · exact returns_pure _

theorem returns_checkSpend (C : Crates) (k1 domain : Str) : Returns (checkSpend C k1 domain) (C.checkSpend k1 domain) := by
  refine (returns_decodeSpend C k1).bind fun spend decoded => ?_
  cases spend with
  | keyPath outputKey signature =>
    obtain ⟨front, copiedFront, frontBytes⟩ :=
      returns_copy (zeroed 96) (by decide : 0 ≤ 32) (by decide : 32 ≤ 96) outputKey.size
    obtain ⟨payload, copied, bytes⟩ := returns_copy front (by decide : 32 ≤ 96) (by decide : 96 ≤ 96) signature.size
    have whole : payload.toList = outputKey.toList ++ signature.toList := by
      rw [bytes, List.drop_of_length_le front.size.le, List.append_nil, frontBytes, List.take_zero, List.nil_append,
        List.take_left' outputKey.size]
    have owner := (returns_recoverNoteOwnershipPubkey C payload.toList domain).attempt
    refine copiedFront.andThen (copied.andThen (owner.andThen ?_))
    rw [whole]
    dsimp only
    cases C.recoverNoteOwnershipPubkey (outputKey.toList ++ signature.toList) domain with
    | none => exact returns_pure _
    | some owner => exact returns_pure _
  | legacyKeyPath outputKey => exact returns_pure _
  | scriptPath outputKey cw1 =>
    obtain ⟨first, block⟩ := controlBlock_of_outputKeyOf (outputKeyOf_of_decodeSpend decoded)
    exact (returns_scriptPathVerdict C block).andThen (returns_pure _)

end LnurlCash.Sliced
