import LnurlCash.Recoverable

namespace LnurlCash

def maxStackElement : Nat := 520

def hex32 (value : Str) : Option (ByteArr 32) :=
  if isPreimage value then (Hex.decode (Str.trim value)).bind (Bytes.toArr 32) else none

/-- The `Q` of whatever goes where a `cp1` goes: a `cp1`, or a bearer note's 64-hex `h`. -/
def Crates.decodeNote (C : Crates) (value : Str) : Option (ByteArr 32) :=
  match hex32 value with
  | some h => (C.bearerNote h).map BearerNote.outputKey
  | none => C.decodeCp1 value

/-- A `k1`, decoded. Nothing here checks a signature. -/
inductive Spend where
  /-- a `ck1`: `Q` and a BIP-340 signature by it -/
  | keyPath (outputKey : ByteArr 32) (signature : ByteArr 64)
  /-- a 65-byte `ck1`, naming whatever key its signature recovers to -/
  | legacyKeyPath (outputKey : ByteArr 32)
  /-- a `cw1`, or a 64-hex preimage, which is a bearer note's `cw1` in short -/
  | scriptPath (outputKey : ByteArr 32) (cw1 : Cw1)
  deriving DecidableEq

def Spend.outputKey : Spend → ByteArr 32
  | keyPath outputKey _ | legacyKeyPath outputKey | scriptPath outputKey _ => outputKey

def Crates.bearerHash (C : Crates) : Spend → Option (ByteArr 32)
  | .scriptPath outputKey cw1 => do
    let h ← bearerHashOfLeaf cw1.script
    let note ← C.bearerNote h
    if note.outputKey = outputKey then some h else none
  | _ => none

def Crates.decodeSpend (C : Crates) (k1 : Str) : Option Spend :=
  let value := Str.trim k1
  match hex32 value with
  | some preimage => do
    let cw1 ← C.bearerCw1 preimage.toList
    let outputKey ← C.cw1OutputKey cw1
    some (.scriptPath outputKey cw1)
  | none =>
    match decodeCk1 value with
    | some (.current payload) => do
      let outputKey ← Bytes.toArr 32 (payload.toList.take 32)
      let signature ← Bytes.toArr 64 (payload.toList.drop 32)
      if C.isXOnlyPoint outputKey.toList then some (.keyPath outputKey signature) else none
    | some (.legacy signature) => do
      let outputKey ← C.legacyCk1Key signature.toList
      some (.legacyKeyPath outputKey)
    | none => do
      let cw1 ← C.decodeCw1 value
      let outputKey ← C.cw1OutputKey cw1
      some (.scriptPath outputKey cw1)

def Crates.noteIdOf (C : Crates) (k1 : Str) : Option Str :=
  (C.decodeSpend k1).map fun spend => Hex.encode spend.outputKey.toList

/-- What a note is looked up by without its spend: a preimage's hash, or the `cp1` of any other spend's `Q`. -/
def Crates.noteLookupOf (C : Crates) (k1 : Str) : Option Str :=
  let value := Str.trim k1
  if isPreimage value then (C.hashK1 (Str.lower value)).toOption
  else (C.decodeSpend value).map fun spend => encodeCp1 spend.outputKey

def isOpSuccess (op : UInt8) : Bool :=
  let n := op.toNat
  decide (n = 80 ∨ n = 98 ∨ 126 ≤ n ∧ n ≤ 129 ∨ 131 ≤ n ∧ n ≤ 134 ∨ n = 137 ∨ n = 138 ∨ n = 141 ∨ n = 142 ∨
    149 ≤ n ∧ n ≤ 153 ∨ 187 ≤ n ∧ n ≤ 254)

def unknownLeafVersion : Str := "unknown tapleaf version".toList

def reservedOpcode : Str := "leaf uses a reserved OP_SUCCESS opcode".toList

/-- The walk over a script's opcodes. Pushed data is skipped, and a truncated
push ends the walk. `fuel` bounds the opcodes; the script's length is enough. -/
def checkOpcodes : Nat → Bytes → Option Str
  | fuel + 1, op :: rest =>
    if 1 ≤ op ∧ op ≤ 75 then checkOpcodes fuel (rest.drop op.toNat)
    else if op = 0x4c then
      match rest with
      | len :: _ => checkOpcodes fuel (rest.drop (1 + len.toNat))
      | _ => none
    else if op = 0x4d then
      match rest with
      | l₀ :: l₁ :: _ => checkOpcodes fuel (rest.drop (2 + Bytes.beNat [l₁, l₀]))
      | _ => none
    else if op = 0x4e then
      match rest with
      | l₀ :: l₁ :: l₂ :: l₃ :: _ => checkOpcodes fuel (rest.drop (4 + Bytes.beNat [l₃, l₂, l₁, l₀]))
      | _ => none
    else if isOpSuccess op then some reservedOpcode
    else checkOpcodes fuel rest
  | _, _ => none

/-- The reason a mint refuses a leaf for one of tapscript's upgrade hooks, if it has one. -/
def checkLeaf (leafVersion : UInt8) (script : Bytes) : Option Str :=
  if leafVersion &&& 0xfe ≠ tapleafVersion then some unknownLeafVersion
  else checkOpcodes script.length script

inductive SpendVerdict where
  | opens
  | opensLegacy
  | unevaluated
  | fails (reason : Str)
  deriving DecidableEq

structure SpendCheck where
  outputKey : ByteArr 32
  verdict : SpendVerdict
  deriving DecidableEq

/-- The rules for a decoded script path; a decoded control block is never empty. -/
def Crates.scriptPathVerdict (C : Crates) (cw1 : Cw1) : SpendVerdict :=
  match checkLeaf (cw1.controlBlock.headD 0) cw1.script with
  | some reason => .fails reason
  | none =>
    match bearerHashOfLeaf cw1.script with
    | none => .unevaluated
    | some h =>
      match cw1.witness with
      | [preimage] =>
        if preimage.length ≤ maxStackElement ∧ C.sha256 preimage = h then .opens
        else .fails "the witness does not satisfy the leaf".toList
      | _ => .fails "the witness does not satisfy the leaf".toList

def Crates.checkSpend (C : Crates) (k1 domain : Str) : Option SpendCheck := do
  let spend ← C.decodeSpend k1
  let verdict : SpendVerdict := match spend with
    | .keyPath outputKey signature =>
      match C.recoverNoteOwnershipPubkey (outputKey.toList ++ signature.toList) domain with
      | some owner => if owner.legacy then .opensLegacy else .opens
      | none => .fails "the signature does not open this note here".toList
    | .legacyKeyPath _ => .opensLegacy
    | .scriptPath _ cw1 => C.scriptPathVerdict cw1
  some { outputKey := spend.outputKey, verdict }

@[simp] theorem hex32_trim (value : Str) : hex32 (Str.trim value) = hex32 value := by
  simp only [hex32, isPreimage_trim, Str.trim_trim]

@[simp] theorem hex32_lower (value : Str) : hex32 (Str.lower value) = hex32 value := by
  simp only [hex32, isPreimage_lower, Str.trim_lower, Hex.decode_lower]

theorem hex32_encode (h : ByteArr 32) : hex32 (Hex.encode h.toList) = some h := by
  have preimage : isPreimage (Hex.encode h.toList) :=
    isPreimage_iff.mpr ⟨by simp, by rw [Hex.trim_encode]; exact fun _ => Hex.isHexDigit_of_mem_encode⟩
  simp [hex32, preimage, Hex.decode_encode]

@[simp] theorem decodeBytes_trim (hrp value : Str) : decodeBytes hrp (Str.trim value) = decodeBytes hrp value := by
  simp only [decodeBytes, Str.trim_trim]

@[simp] theorem decodeCk1_trim (value : Str) : decodeCk1 (Str.trim value) = decodeCk1 value := by
  simp only [decodeCk1, decodeBytes_trim]

@[simp] theorem Crates.decodeCw1_trim (C : Crates) (value : Str) : C.decodeCw1 (Str.trim value) = C.decodeCw1 value := by
  simp only [Crates.decodeCw1, decodeBytes_trim]

@[simp] theorem Crates.decodeSpend_trim (C : Crates) (k1 : Str) : C.decodeSpend (Str.trim k1) = C.decodeSpend k1 := by
  simp only [Crates.decodeSpend, Str.trim_trim]

/-- A string that decodes under some prefix decodes the same in lowercase, under every prefix. -/
theorem decodeBytes_lower {hrp value : Str} {payload : Bytes} (decoded : decodeBytes hrp value = some payload)
    (other : Str) : decodeBytes other (Str.lower value) = decodeBytes other value := by
  simp only [decodeBytes, Option.ite_none_left_eq_some] at decoded ⊢
  obtain ⟨values, parsed⟩ := Bech32.parse_isSome_of_decode decoded.2
  rw [Str.trim_lower, Str.byteLen_lower, Bech32.decode_lower (by simp [parsed])]

/-- A spend's lowercase spelling is the same spend. -/
theorem Crates.decodeSpend_lower {C : Crates} {k1 : Str} {spend : Spend} (decoded : C.decodeSpend k1 = some spend) :
    C.decodeSpend (Str.lower k1) = some spend := by
  rw [← decoded]
  simp only [Crates.decodeSpend, hex32_trim, hex32_lower, decodeCk1_trim, Crates.decodeCw1_trim] at decoded ⊢
  cases short : hex32 k1 with
  | some preimage => rfl
  | none =>
    simp only [short] at decoded ⊢
    -- one prefix decoded, so the text is bech32m and reads the same in lowercase under both
    have same : ∀ other, decodeBytes other (Str.lower k1) = decodeBytes other k1 := by
      cases keyPath : decodeCk1 k1 with
      | some ck1 =>
        simp only [decodeCk1, Option.bind_eq_bind, Option.bind_eq_some_iff] at keyPath
        obtain ⟨payload, bytes, _⟩ := keyPath
        exact decodeBytes_lower bytes
      | none =>
        simp only [keyPath, Crates.decodeCw1, Option.bind_eq_bind, Option.bind_eq_some_iff] at decoded
        obtain ⟨cw1, ⟨payload, bytes, _⟩, _⟩ := decoded
        exact decodeBytes_lower bytes
    simp only [decodeCk1, Crates.decodeCw1, same]

theorem checkLeaf_bearerLeaf {version : UInt8} (current : version &&& 0xfe = tapleafVersion) (h : ByteArr 32) :
    checkLeaf version (bearerLeaf h).toList = none := by
  have size : (bearerLeaf h).toList.length = 35 := (bearerLeaf h).size
  have rest : (h.toList ++ [0x87]).drop 32 = [0x87] := by simp
  rw [checkLeaf, if_neg (not_not.mpr current), size]
  simp [bearerLeaf, checkOpcodes, rest, isOpSuccess]

/-- The full spend of a bearer note by a preimage of its hash. -/
def BearerNote.cw1 (note : BearerNote) (preimage : Bytes) : Cw1 where
  locktime := keyPathLocktime
  sequence := keyPathSequence
  script := note.leaf.toList
  controlBlock := note.controlBlock.toList
  witness := [preimage]

theorem Crates.bearerCw1_eq_some {C : Crates} {preimage : Bytes} {cw1 : Cw1} (spelled : C.bearerCw1 preimage = some cw1) :
    ∃ note, C.bearerNote (C.sha256 preimage) = some note ∧ cw1 = note.cw1 preimage := by
  simp only [Crates.bearerCw1, Option.bind_eq_bind, Option.bind_eq_some_iff, Option.some.injEq] at spelled
  obtain ⟨note, named, rfl⟩ := spelled
  exact ⟨note, named, rfl⟩

/-- That spend names the note, opens it, and is known for a bearer note's. -/
theorem Crates.bearerNote_opens {C : Crates} {preimage : Bytes} {note : BearerNote}
    (named : C.bearerNote (C.sha256 preimage) = some note) (small : preimage.length ≤ maxStackElement) :
    C.cw1OutputKey (note.cw1 preimage) = some note.outputKey ∧ C.scriptPathVerdict (note.cw1 preimage) = .opens ∧
      C.bearerHash (.scriptPath note.outputKey (note.cw1 preimage)) = some (C.sha256 preimage) := by
  obtain ⟨leaf, commits⟩ := bearerNote_commits named
  have version := bearerNote_version named
  refine ⟨commits, ?_, ?_⟩
  · simp only [scriptPathVerdict, BearerNote.cw1, leaf, checkLeaf_bearerLeaf version, bearerHashOfLeaf_bearerLeaf, small,
      true_and, if_true]
  · simp only [bearerHash, BearerNote.cw1, leaf, bearerHashOfLeaf_bearerLeaf, named, Option.bind_eq_bind,
      Option.bind_some, if_true]

end LnurlCash
