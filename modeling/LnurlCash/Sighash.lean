import LnurlCash.Taproot
import LnurlCash.Urls

namespace LnurlCash

/-- A bech32 LNURL or a LUD-17 link as the URL it stands for; other text as it is. -/
def expandLink (trimmed : Str) : Option Str :=
  if isBech32Lnurl trimmed then fromBech32Lnurl trimmed else some (fromLud17 trimmed)

/-- The domain a spend at `value` is bound to: the lowercase hostname, never
the scheme or the port. -/
def Crates.spendDomainOf (C : Crates) (value : Str) : Option Str := do
  let expanded ← expandLink (Str.trim value)
  let candidate := if Str.contains expanded "://".toList then expanded else "https://".toList ++ expanded
  let url ← C.url.parse candidate
  let host ← C.url.hostStr url
  if Str.lower host ≠ [] then some (Str.lower host) else none

def Crates.spendPrevout (C : Crates) (domain : Str) : ByteArr 32 :=
  C.taggedHash "LNURLcash/mint".toList [Str.utf8 (Str.lower domain)]

def Crates.spendOutpoint (C : Crates) (domain : Str) : Bytes := (C.spendPrevout domain).toList ++ Bytes.le 4 0

def spendScriptPubkey (outputKey : ByteArr 32) : Bytes := 0x51 :: 0x20 :: outputKey.toList

/-- The script behind its one-byte length, as the message hashes it. -/
def spendScriptField (outputKey : ByteArr 32) : Bytes :=
  UInt8.ofNat (spendScriptPubkey outputKey).length :: spendScriptPubkey outputKey

/-- BIP-341's `SigMsg` for input 0 of the spend transaction, with BIP-342's
extension when a leaf is given. -/
def Crates.spendSigMsg (C : Crates) (outputKey : ByteArr 32) (domain : Str) (locktime sequence : UInt32)
    (leafScript : Option Bytes) : Bytes :=
  [0x00] ++ (Bytes.le 4 2 ++ (Bytes.le 4 locktime.toNat ++
    ((C.sha256 (C.spendOutpoint domain)).toList ++
    ((C.sha256 (Bytes.le 8 0)).toList ++
    ((C.sha256 (spendScriptField outputKey)).toList ++
    ((C.sha256 (Bytes.le 4 sequence.toNat)).toList ++
    ((C.sha256 (List.replicate 9 0)).toList ++
    ([if leafScript.isSome then 0x02 else 0x00] ++ (Bytes.le 4 0 ++
      match leafScript with
      | none => []
      | some leaf => (C.tapleafHash leaf tapleafVersion).toList ++ ([0x00] ++ Bytes.le 4 0xffffffff))))))))))

def Crates.tapSighash (C : Crates) (sigMsg : Bytes) : ByteArr 32 := C.taggedHash "TapSighash".toList [[0x00], sigMsg]

def Crates.keyPathSighash (C : Crates) (outputKey : ByteArr 32) (domain : Str) : ByteArr 32 :=
  C.tapSighash (C.spendSigMsg outputKey domain keyPathLocktime keyPathSequence none)

/-- What a signature inside a `cw1`'s leaf signs, for the time the spend claims. -/
def Crates.scriptPathSighash (C : Crates) (outputKey : ByteArr 32) (domain : Str) (leafScript : Bytes)
    (locktime sequence : UInt32) : ByteArr 32 :=
  C.tapSighash (C.spendSigMsg outputKey domain locktime sequence (some leafScript))

/-- Every byte string hashed, tags apart, on the way from a spend's
arguments to its sighash. -/
def Crates.spendHashed (C : Crates) (outputKey : ByteArr 32) (domain : Str) (locktime sequence : UInt32)
    (leafScript : Option Bytes) : List Bytes :=
  [C.taggedMessage "LNURLcash/mint".toList [Str.utf8 (Str.lower domain)], C.spendOutpoint domain,
    spendScriptField outputKey, Bytes.le 4 sequence.toNat,
    C.taggedMessage "TapSighash".toList [[0x00], C.spendSigMsg outputKey domain locktime sequence leafScript]] ++
  leafScript.toList.map fun leaf =>
    C.taggedMessage "TapLeaf".toList [[tapleafVersion], compactSize leaf.length, leaf]

variable {C : Crates} {outputKey otherKey : ByteArr 32} {domain otherDomain : Str}
  {locktime sequence otherLocktime otherSequence : UInt32} {leaf otherLeaf : Option Bytes}

/-- The fields of a message are at fixed places, so equal messages have equal fields. -/
theorem Crates.spendSigMsg_fields
    (equal : C.spendSigMsg outputKey domain locktime sequence leaf =
      C.spendSigMsg otherKey otherDomain otherLocktime otherSequence otherLeaf) :
    locktime = otherLocktime ∧ C.sha256 (C.spendOutpoint domain) = C.sha256 (C.spendOutpoint otherDomain) ∧
      C.sha256 (spendScriptField outputKey) = C.sha256 (spendScriptField otherKey) ∧
      C.sha256 (Bytes.le 4 sequence.toNat) = C.sha256 (Bytes.le 4 otherSequence.toNat) ∧
      leaf.map (C.tapleafHash · tapleafVersion) = otherLeaf.map (C.tapleafHash · tapleafVersion) := by
  unfold Crates.spendSigMsg at equal
  have rest := List.append_cancel_left (List.append_cancel_left equal)
  obtain ⟨time, rest⟩ := List.append_inj rest (by simp)
  obtain ⟨prevouts, rest⟩ := List.append_inj rest (by simp)
  obtain ⟨scripts, rest⟩ := List.append_inj (List.append_cancel_left rest) (by simp)
  obtain ⟨sequences, rest⟩ := List.append_inj rest (by simp)
  obtain ⟨kind, rest⟩ := List.append_inj (List.append_cancel_left rest) (by simp)
  have leaves := List.append_cancel_left rest
  refine ⟨Bytes.le_word_inj time, ByteArr.ext prevouts, ByteArr.ext scripts, ByteArr.ext sequences, ?_⟩
  cases leaf with
  | none => cases otherLeaf with
    | none => rfl
    | some other => simp at kind
  | some script => cases otherLeaf with
    | none => simp at kind
    | some other =>
      obtain ⟨hashes, _⟩ := List.append_inj leaves (by simp)
      exact congrArg some (ByteArr.ext hashes)

theorem Crates.tapleafHash_inj {script other : Bytes} {version : UInt8}
    (free : C.CollisionFree [C.taggedMessage "TapLeaf".toList [[version], compactSize script.length, script],
      C.taggedMessage "TapLeaf".toList [[version], compactSize other.length, other]])
    (equal : C.tapleafHash script version = C.tapleafHash other version) : script = other := by
  have parts := taggedMessage_inj (free (by simp) (by simp) equal)
  simp only [List.flatten_cons, List.flatten_nil, List.append_nil] at parts
  exact compactSize_append_inj (List.append_cancel_left parts)

theorem Crates.spendOutpoint_inj
    (free : C.CollisionFree [C.taggedMessage "LNURLcash/mint".toList [Str.utf8 (Str.lower domain)],
      C.taggedMessage "LNURLcash/mint".toList [Str.utf8 (Str.lower otherDomain)]])
    (equal : C.spendOutpoint domain = C.spendOutpoint otherDomain) : Str.lower domain = Str.lower otherDomain := by
  have prevouts : C.spendPrevout domain = C.spendPrevout otherDomain := ByteArr.ext (List.append_cancel_right equal)
  have parts := taggedMessage_inj (free (by simp) (by simp) prevouts)
  simp only [List.flatten_cons, List.flatten_nil, List.append_nil] at parts
  exact Str.utf8_injective parts

/-- The message determines everything it was built from, the domain up to ASCII case. -/
theorem Crates.spendSigMsg_inj
    (free : C.CollisionFree (C.spendHashed outputKey domain locktime sequence leaf ++
      C.spendHashed otherKey otherDomain otherLocktime otherSequence otherLeaf))
    (equal : C.spendSigMsg outputKey domain locktime sequence leaf =
      C.spendSigMsg otherKey otherDomain otherLocktime otherSequence otherLeaf) :
    outputKey = otherKey ∧ Str.lower domain = Str.lower otherDomain ∧ locktime = otherLocktime ∧
      sequence = otherSequence ∧ leaf = otherLeaf := by
  obtain ⟨time, prevouts, scripts, sequences, leaves⟩ := spendSigMsg_fields equal
  have outpoint := free (by simp [spendHashed]) (by simp [spendHashed]) prevouts
  have mint := spendOutpoint_inj (free.mono (by simp [spendHashed])) outpoint
  have field := free (by simp [spendHashed]) (by simp [spendHashed]) scripts
  have key : outputKey = otherKey := by
    simp only [spendScriptField, spendScriptPubkey, List.cons.injEq] at field
    exact ByteArr.ext field.2.2.2
  have claimed := Bytes.le_word_inj (free (by simp [spendHashed]) (by simp [spendHashed]) sequences)
  refine ⟨key, mint, time, claimed, ?_⟩
  cases leaf with
  | none => cases otherLeaf with
    | none => rfl
    | some other => simp at leaves
  | some script => cases otherLeaf with
    | none => simp at leaves
    | some other => rw [tapleafHash_inj (free.mono (by simp [spendHashed])) (Option.some.inj leaves)]

theorem Crates.tapSighash_inj
    (free : C.CollisionFree (C.spendHashed outputKey domain locktime sequence leaf ++
      C.spendHashed otherKey otherDomain otherLocktime otherSequence otherLeaf))
    (equal : C.tapSighash (C.spendSigMsg outputKey domain locktime sequence leaf) =
      C.tapSighash (C.spendSigMsg otherKey otherDomain otherLocktime otherSequence otherLeaf)) :
    C.spendSigMsg outputKey domain locktime sequence leaf =
      C.spendSigMsg otherKey otherDomain otherLocktime otherSequence otherLeaf := by
  have parts := taggedMessage_inj (free (by simp [spendHashed]) (by simp [spendHashed]) equal)
  simpa using parts

end LnurlCash
