import Mathlib.Tactic.Common

/-- A binary tree with its data at the leaves. -/
inductive MerkleTree (α : Type) where
  | leaf (value : α)
  | branch (left right : MerkleTree α)
  deriving DecidableEq

namespace MerkleTree

variable {α H : Type} (leafHash : α → H) (combine : H → H → H)

def leaves : MerkleTree α → List α
  | leaf value => [value]
  | branch left right => left.leaves ++ right.leaves

def depth : MerkleTree α → Nat
  | leaf _ => 0
  | branch left right => max left.depth right.depth + 1

def root : MerkleTree α → H
  | leaf value => leafHash value
  | branch left right => combine left.root right.root

/-- Each leaf with the roots beside its way up, its own sibling first. -/
def paths : MerkleTree α → List (α × List H)
  | leaf value => [(value, [])]
  | branch left right =>
    (left.paths.map fun path => (path.1, path.2 ++ [right.root leafHash combine])) ++
      right.paths.map fun path => (path.1, path.2 ++ [left.root leafHash combine])

theorem map_fst_paths (tree : MerkleTree α) : (tree.paths leafHash combine).map Prod.fst = tree.leaves := by
  induction tree with
  | leaf value => rfl
  | branch left right leftIH rightIH =>
    have forget (sibling : H) : (Prod.fst ∘ fun path : α × List H => (path.1, path.2 ++ [sibling])) = Prod.fst := rfl
    rw [paths, leaves, List.map_append, List.map_map, List.map_map, forget, forget, leftIH, rightIH]

variable {leafHash combine} {tree : MerkleTree α} {value : α} {siblings : List H}

theorem mem_paths_branch {left right : MerkleTree α} :
    (value, siblings) ∈ (branch left right).paths leafHash combine ↔
      (∃ below, (value, below) ∈ left.paths leafHash combine ∧ siblings = below ++ [right.root leafHash combine]) ∨
        ∃ below, (value, below) ∈ right.paths leafHash combine ∧ siblings = below ++ [left.root leafHash combine] := by
  simp only [paths, List.mem_append, List.mem_map, Prod.mk.injEq, Prod.exists]
  grind

theorem length_le_depth (path : (value, siblings) ∈ tree.paths leafHash combine) : siblings.length ≤ tree.depth := by
  induction tree generalizing siblings with
  | leaf other =>
    simp only [paths, List.mem_singleton, Prod.mk.injEq] at path
    rw [path.2]
    exact Nat.zero_le _
  | branch left right leftIH rightIH =>
    rw [depth]
    rcases mem_paths_branch.mp path with ⟨below, member, rfl⟩ | ⟨below, member, rfl⟩
    · have shorter := leftIH member
      rw [List.length_append, List.length_singleton]
      omega
    · have shorter := rightIH member
      rw [List.length_append, List.length_singleton]
      omega

/-- Folding a leaf's siblings in gives the root, whichever side each was on. -/
theorem foldl_path (symmetric : ∀ a b, combine a b = combine b a)
    (path : (value, siblings) ∈ tree.paths leafHash combine) :
    siblings.foldl combine (leafHash value) = tree.root leafHash combine := by
  induction tree generalizing siblings with
  | leaf other =>
    simp only [paths, List.mem_singleton, Prod.mk.injEq] at path
    obtain ⟨rfl, rfl⟩ := path
    rfl
  | branch left right leftIH rightIH =>
    rcases mem_paths_branch.mp path with ⟨below, member, rfl⟩ | ⟨below, member, rfl⟩
    · rw [List.foldl_append, leftIH member]
      rfl
    · rw [List.foldl_append, rightIH member, root, symmetric]
      rfl

end MerkleTree
