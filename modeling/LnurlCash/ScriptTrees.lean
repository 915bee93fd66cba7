import LnurlCash.Lib.MerkleTree
import LnurlCash.Reference
import LnurlCash.Taproot

namespace LnurlCash

/-- A leaf script and its version, whose low bit a control block keeps for the parity. -/
structure TapLeaf where
  version : UInt8
  script : Bytes
  even : version &&& 1 = 0

def Crates.leafHash (C : Crates) (leaf : TapLeaf) : ByteArr 32 := C.tapleafHash leaf.script leaf.version

def Crates.merkleRoot (C : Crates) (tree : MerkleTree TapLeaf) : ByteArr 32 := tree.root C.leafHash C.tapbranchHash

def Crates.merklePaths (C : Crates) (tree : MerkleTree TapLeaf) : List (TapLeaf × List (ByteArr 32)) :=
  tree.paths C.leafHash C.tapbranchHash

/-- `first || internal key || merkle path` -/
def controlBlockOf (first : UInt8) (internalKey : ByteArr 32) (siblings : List (ByteArr 32)) : Bytes :=
  first :: (internalKey.toList ++ (siblings.map ByteArr.toList).flatten)

/-- Whichever child comes first, the lesser is hashed first. -/
theorem Crates.tapbranchHash_comm (C : Crates) (a b : ByteArr 32) : C.tapbranchHash a b = C.tapbranchHash b a := by
  unfold tapbranchHash
  by_cases ordered : a.toList ≤ b.toList
  · by_cases reversed : b.toList ≤ a.toList
    · rw [ByteArr.ext (List.le_antisymm ordered reversed)]
    · rw [if_pos ordered, if_neg reversed]
  · have reversed : b.toList ≤ a.toList := List.le_of_lt (List.not_le.mp ordered)
    rw [if_neg ordered, if_pos reversed]

/-- A control block whose length and depth are right is read field by field. -/
theorem Crates.outputKeyOf_controlBlock (C : Crates) (script : Bytes) (first : UInt8) (internalKey : ByteArr 32)
    {siblings : List (ByteArr 32)} (shallow : siblings.length ≤ maxMerkleDepth) :
    C.outputKeyOf script (controlBlockOf first internalKey siblings) =
      (C.taprootTweak internalKey (siblings.foldl C.tapbranchHash (C.tapleafHash script (first &&& 0xfe)))).bind
        fun tweaked => if tweaked.parity = first &&& 1 then some tweaked.outputKey else none := by
  have length : (controlBlockOf first internalKey siblings).length = 33 + 32 * siblings.length := by
    rw [controlBlockOf, List.length_cons, List.length_append, internalKey.size, Bytes.length_flatten_pieces]
    omega
  have key : ((controlBlockOf first internalKey siblings).drop 1).take 32 = internalKey.toList := by
    rw [controlBlockOf, List.drop_one, List.tail_cons, List.take_left' internalKey.size]
  have path : (controlBlockOf first internalKey siblings).drop 33 = (siblings.map ByteArr.toList).flatten := by
    rw [controlBlockOf, List.drop_succ_cons, List.drop_left' internalKey.size]
  have accepted : ¬((controlBlockOf first internalKey siblings).length < 33 ∨
      ((controlBlockOf first internalKey siblings).length - 33) % 32 ≠ 0 ∨
      ((controlBlockOf first internalKey siblings).length - 33) / 32 > maxMerkleDepth) := by
    rw [length]
    omega
  have head : (controlBlockOf first internalKey siblings).head? = some first := rfl
  simp only [outputKeyOf, if_neg accepted, head, path, key, Bytes.chunksExact_flatten (show 0 < 32 by decide), Bytes.toArr_toList, Option.bind_eq_bind,
    Option.bind_some]

theorem Crates.outputKeyOf_eq_none (C : Crates) (script : Bytes) {block : Bytes} (odd : ∀ m, block.length ≠ 33 + 32 * m) :
    C.outputKeyOf script block = none := by
  have refused : block.length < 33 ∨ (block.length - 33) % 32 ≠ 0 ∨ (block.length - 33) / 32 > maxMerkleDepth := by
    have wrong := odd ((block.length - 33) / 32)
    omega
  exact if_pos refused

/-- A parity bit put on an even version is read off again, and the other one leaves the version alone. -/
theorem firstByte : ∀ version : UInt8, version &&& 1 = 0 → ∀ parity ∈ [(0 : UInt8), 1],
    (version + parity) &&& 0xfe = version ∧ (version + parity) &&& 1 = parity ∧
      ((version + parity) ^^^ 1) &&& 0xfe = version ∧ ((version + parity) ^^^ 1) &&& 1 ≠ parity :=
  Bytes.forall_byte (by decide +kernel)

/-- Every leaf of a tree, with the roots beside its way up, commits to the tree's
one output key; under the other parity or in a block of another size, to none. -/
theorem Crates.every_leaf_commits {C : Crates} {tree : MerkleTree TapLeaf} {internalKey : ByteArr 32}
    {tweaked : TaprootTweak} (shallow : tree.depth ≤ maxMerkleDepth)
    (done : C.taprootTweak internalKey (C.merkleRoot tree) = some tweaked) :
    (C.merklePaths tree).map Prod.fst = tree.leaves ∧
      ∀ leaf siblings, (leaf, siblings) ∈ C.merklePaths tree →
        C.outputKeyOf leaf.script (controlBlockOf (leaf.version + tweaked.parity) internalKey siblings) =
            some tweaked.outputKey ∧
          C.outputKeyOf leaf.script (controlBlockOf ((leaf.version + tweaked.parity) ^^^ 1) internalKey siblings) = none ∧
          ∀ block : Bytes, (∀ m, block.length ≠ 33 + 32 * m) → C.outputKeyOf leaf.script block = none := by
  refine ⟨MerkleTree.map_fst_paths _ _ tree, fun leaf siblings path => ?_⟩
  have bit : tweaked.parity ∈ [(0 : UInt8), 1] := by simpa using taprootTweak_parity done
  obtain ⟨version, parity, flippedVersion, flippedParity⟩ := firstByte leaf.version leaf.even tweaked.parity bit
  have within : siblings.length ≤ maxMerkleDepth := (MerkleTree.length_le_depth path).trans shallow
  have root : siblings.foldl C.tapbranchHash (C.tapleafHash leaf.script leaf.version) = C.merkleRoot tree :=
    MerkleTree.foldl_path C.tapbranchHash_comm path
  refine ⟨?_, ?_, fun block odd => C.outputKeyOf_eq_none leaf.script odd⟩
  · rw [outputKeyOf_controlBlock C leaf.script _ internalKey within, version, root, done, Option.bind_some, parity,
      if_pos rfl]
  · rw [outputKeyOf_controlBlock C leaf.script _ internalKey within, flippedVersion, root, done, Option.bind_some,
      if_neg (Ne.symm flippedParity)]

/-! Three leaves, two of them a level down. -/

def hashlockLeaf : TapLeaf := ⟨tapleafVersion, (bearerLeaf (Bytes.beArr 32 1)).toList, by decide⟩

def otherVersionLeaf : TapLeaf := ⟨0xc2, [0x51], by decide⟩

def threeLeaves : MerkleTree TapLeaf := .branch (.leaf hashlockLeaf) (.branch (.leaf otherVersionLeaf) (.leaf hashlockLeaf))

theorem reference.threeLeaves_commit :
    ∃ key, ∀ leaf ∈ threeLeaves.leaves, ∃ block, reference.outputKeyOf leaf.script block = some key := by
  have tweaks : (reference.taprootTweak numsH (reference.merkleRoot threeLeaves)).isSome := by decide +kernel
  obtain ⟨tweaked, done⟩ := Option.isSome_iff_exists.mp tweaks
  obtain ⟨whole, commits⟩ := Crates.every_leaf_commits (by decide) done
  refine ⟨tweaked.outputKey, fun leaf member => ?_⟩
  rw [← whole] at member
  obtain ⟨⟨other, siblings⟩, path, same⟩ := List.mem_map.mp member
  have commitment := (commits other siblings path).1
  rw [show other = leaf from same] at commitment
  exact ⟨_, commitment⟩

end LnurlCash
