import LnurlCash.Crates

namespace LnurlCash

def tapleafVersion : UInt8 := 0xc0

def keyPathLocktime : UInt32 := 0

def keyPathSequence : UInt32 := 0xffffffff

/-- BIP-341's point with no known discrete logarithm, a bearer note's internal key. -/
def numsH : ByteArr 32 where
  toList := [
    0x50, 0x92, 0x9b, 0x74, 0xc1, 0xa0, 0x49, 0x54, 0xb7, 0x8b, 0x4b, 0x60, 0x35, 0xe9, 0x7a, 0x5e,
    0x07, 0x8a, 0x5a, 0x0f, 0x28, 0xec, 0x96, 0xd5, 0x47, 0xbf, 0xee, 0x9a, 0xce, 0x80, 0x3a, 0xc0]
  size := rfl

def maxMerkleDepth : Nat := 128

/-- What a tagged hash hashes: the tag's own hash twice, then the parts. -/
def Crates.taggedMessage (C : Crates) (tag : Str) (parts : List Bytes) : Bytes :=
  (C.sha256 (Str.utf8 tag)).toList ++ (C.sha256 (Str.utf8 tag)).toList ++ parts.flatten

theorem Crates.taggedMessage_inj {C : Crates} {tag : Str} {parts others : List Bytes}
    (equal : C.taggedMessage tag parts = C.taggedMessage tag others) : parts.flatten = others.flatten := by
  simp only [Crates.taggedMessage] at equal
  exact List.append_cancel_left equal

def Crates.taggedHash (C : Crates) (tag : Str) (parts : List Bytes) : ByteArr 32 :=
  C.sha256 (C.taggedMessage tag parts)

def compactSize (n : Nat) : Bytes :=
  if n ≤ 0xfc then [UInt8.ofNat n]
  else if n ≤ 0xffff then 0xfd :: Bytes.le 2 n
  else if n ≤ 0xffffffff then 0xfe :: Bytes.le 4 n
  else 0xff :: Bytes.le 8 n

def Crates.tapleafHash (C : Crates) (script : Bytes) (version : UInt8) : ByteArr 32 :=
  C.taggedHash "TapLeaf".toList [[version], compactSize script.length, script]

def Crates.tapbranchHash (C : Crates) (a b : ByteArr 32) : ByteArr 32 :=
  if a.toList ≤ b.toList then C.taggedHash "TapBranch".toList [a.toList, b.toList]
  else C.taggedHash "TapBranch".toList [b.toList, a.toList]

def Crates.isXOnlyPoint (C : Crates) (x : Bytes) : Bool := (Bytes.toArr 32 x).any C.isXOnlyKey

/-- A tweaked output key and its parity, which a control block carries in its low bit. -/
structure TaprootTweak where
  outputKey : ByteArr 32
  parity : UInt8
  deriving DecidableEq

/-- BIP-341 refuses `t ≥ n` rather than reducing it. -/
def Crates.tweakScalar (C : Crates) (internalKey merkleRoot : ByteArr 32) : Option (ByteArr 32) :=
  let t := C.taggedHash "TapTweak".toList [internalKey.toList, merkleRoot.toList]
  if Bytes.beNat t.toList < curveOrder then some t else none

def Crates.taprootTweak (C : Crates) (internalKey merkleRoot : ByteArr 32) : Option TaprootTweak :=
  if C.isXOnlyKey internalKey then do
    let tweak ← C.tweakScalar internalKey merkleRoot
    let (output, odd) ← C.addTweak internalKey tweak
    some { outputKey := output, parity := if odd then 1 else 0 }
  else none

/-- The `Q` a leaf and its control block commit to. -/
def Crates.outputKeyOf (C : Crates) (script controlBlock : Bytes) : Option (ByteArr 32) :=
  let len := controlBlock.length
  if len < 33 ∨ (len - 33) % 32 ≠ 0 ∨ (len - 33) / 32 > maxMerkleDepth then none
  else do
    let first ← controlBlock.head?
    let leaf := C.tapleafHash script (first &&& 0xfe)
    let node := (Bytes.chunksExact 32 (controlBlock.drop 33)).foldl C.tapbranchHash leaf
    let internalKey ← Bytes.toArr 32 ((controlBlock.drop 1).take 32)
    let tweaked ← C.taprootTweak internalKey node
    if tweaked.parity = first &&& 1 then some tweaked.outputKey else none

/-- `OP_SHA256 <h> OP_EQUAL`. -/
def bearerLeaf (h : ByteArr 32) : ByteArr 35 where
  toList := 0xa8 :: 0x20 :: (h.toList ++ [0x87])
  size := by simp [h.size]

def bearerHashOfLeaf (script : Bytes) : Option (ByteArr 32) :=
  if script.length = 35 ∧ script[0]? = some 0xa8 ∧ script[1]? = some 0x20 ∧ script[34]? = some 0x87 then
    Bytes.toArr 32 ((script.drop 2).take 32)
  else none

structure BearerNote where
  outputKey : ByteArr 32
  controlBlock : ByteArr 33
  leaf : ByteArr 35
  deriving DecidableEq

/-- The bearer note `h` names; none only if its tweak is refused. -/
def Crates.bearerNote (C : Crates) (h : ByteArr 32) : Option BearerNote := do
  let leaf := bearerLeaf h
  let tweaked ← C.taprootTweak numsH (C.tapleafHash leaf.toList tapleafVersion)
  some {
    outputKey := tweaked.outputKey
    controlBlock := ⟨(tapleafVersion ||| tweaked.parity) :: numsH.toList, rfl⟩
    leaf := leaf }

/-- A script-path spend: a leaf script, its control block and the witness
items that satisfy it, with the time the spend claims. -/
structure Cw1 where
  locktime : UInt32
  sequence : UInt32
  script : Bytes
  /-- `(leaf version | parity) || internal key || merkle path` -/
  controlBlock : Bytes
  witness : List Bytes
  deriving DecidableEq

def Crates.cw1OutputKey (C : Crates) (cw1 : Cw1) : Option (ByteArr 32) := C.outputKeyOf cw1.script cw1.controlBlock

def Crates.bearerCw1 (C : Crates) (preimage : Bytes) : Option Cw1 := do
  let note ← C.bearerNote (C.sha256 preimage)
  some {
    locktime := keyPathLocktime
    sequence := keyPathSequence
    script := note.leaf.toList
    controlBlock := note.controlBlock.toList
    witness := [preimage] }

@[simp] theorem ByteArr.length_toList {n : Nat} (arr : ByteArr n) : arr.toList.length = n := arr.size

/-- A size prefix says by its first byte how much of it follows. -/
theorem compactSize_eq_cons (n : Nat) :
    ∃ first rest, compactSize n = first :: rest ∧
      rest.length = if first = 0xfd then 2 else if first = 0xfe then 4 else if first = 0xff then 8 else 0 := by
  unfold compactSize
  split_ifs with byte
  · have small : (UInt8.ofNat n).toNat ≤ 0xfc := by
      rw [UInt8.toNat_ofNat']
      omega
    have unmarked : ∀ marker : UInt8, 0xfc < marker.toNat → UInt8.ofNat n ≠ marker := by
      rintro _ large rfl
      omega
    refine ⟨UInt8.ofNat n, [], rfl, ?_⟩
    rw [if_neg (unmarked 0xfd (by decide)), if_neg (unmarked 0xfe (by decide)), if_neg (unmarked 0xff (by decide))]
    rfl
  · exact ⟨0xfd, Bytes.le 2 n, rfl, by simp⟩
  · exact ⟨0xfe, Bytes.le 4 n, rfl, by simp⟩
  · exact ⟨0xff, Bytes.le 8 n, rfl, by simp⟩

theorem compactSize_append_inj {a b : Bytes}
    (equal : compactSize a.length ++ a = compactSize b.length ++ b) : a = b := by
  obtain ⟨first, rest, left, length⟩ := compactSize_eq_cons a.length
  obtain ⟨other, tail, right, otherLength⟩ := compactSize_eq_cons b.length
  rw [left, right, List.cons_append, List.cons_append, List.cons.injEq] at equal
  obtain ⟨rfl, body⟩ := equal
  exact (List.append_inj body (length.trans otherLength.symm)).2

theorem Crates.taprootTweak_parity {C : Crates} {internalKey merkleRoot : ByteArr 32} {tweaked : TaprootTweak}
    (done : C.taprootTweak internalKey merkleRoot = some tweaked) : tweaked.parity = 0 ∨ tweaked.parity = 1 := by
  simp only [Crates.taprootTweak, Option.bind_eq_bind, Option.ite_none_right_eq_some, Option.bind_eq_some_iff,
    Option.some.injEq] at done
  obtain ⟨_, tweak, _, ⟨output, odd⟩, _, rfl⟩ := done
  cases odd <;> simp

theorem bearerHashOfLeaf_bearerLeaf (h : ByteArr 32) : bearerHashOfLeaf (bearerLeaf h).toList = some h := by
  have last : (bearerLeaf h).toList[34]? = some 0x87 := by
    simp [bearerLeaf]
  have inner : ((bearerLeaf h).toList.drop 2).take 32 = h.toList := by
    simp [bearerLeaf]
  rw [bearerHashOfLeaf, if_pos ⟨(bearerLeaf h).size, rfl, rfl, last⟩, inner, Bytes.toArr_toList]

theorem Crates.bearerNote_eq_some {C : Crates} {h : ByteArr 32} {note : BearerNote}
    (named : C.bearerNote h = some note) :
    ∃ tweaked, C.taprootTweak numsH (C.tapleafHash (bearerLeaf h).toList tapleafVersion) = some tweaked ∧
      (tweaked.parity = 0 ∨ tweaked.parity = 1) ∧ note.outputKey = tweaked.outputKey ∧ note.leaf = bearerLeaf h ∧
      note.controlBlock.toList = (tapleafVersion ||| tweaked.parity) :: numsH.toList := by
  simp only [Crates.bearerNote, Option.bind_eq_bind, Option.bind_eq_some_iff, Option.some.injEq] at named
  obtain ⟨tweaked, done, rfl⟩ := named
  exact ⟨tweaked, done, taprootTweak_parity done, rfl, rfl, rfl⟩

theorem tapleafVersion_or_parity {parity : UInt8} (bit : parity = 0 ∨ parity = 1) :
    (tapleafVersion ||| parity) &&& 0xfe = tapleafVersion ∧ (tapleafVersion ||| parity) &&& 1 = parity := by
  rcases bit with even | odd
  · rw [even]; decide
  · rw [odd]; decide

theorem Crates.bearerNote_version {C : Crates} {h : ByteArr 32} {note : BearerNote}
    (named : C.bearerNote h = some note) : note.controlBlock.toList.headD 0 &&& 0xfe = tapleafVersion := by
  obtain ⟨tweaked, _, bit, _, _, block⟩ := bearerNote_eq_some named
  rw [block]
  exact (tapleafVersion_or_parity bit).1

/-- A bearer note's leaf and control block commit to its own output key. -/
theorem Crates.bearerNote_commits {C : Crates} {h : ByteArr 32} {note : BearerNote}
    (named : C.bearerNote h = some note) :
    note.leaf = bearerLeaf h ∧ C.outputKeyOf note.leaf.toList note.controlBlock.toList = some note.outputKey := by
  obtain ⟨tweaked, done, bit, key, leaf, block⟩ := bearerNote_eq_some named
  obtain ⟨version, low⟩ := tapleafVersion_or_parity bit
  have internal : Bytes.toArr 32 (List.take 32 numsH.toList) = some numsH := by decide
  have path : Bytes.chunksExact 32 (List.drop 32 numsH.toList) = [] := by decide
  refine ⟨leaf, ?_⟩
  rw [leaf, block, key]
  simp [Crates.outputKeyOf, version, low, internal, path, done, numsH.size]

end LnurlCash
