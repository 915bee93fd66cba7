import LnurlCash.Taproot
import LnurlCash.XOnlyKeys

namespace LnurlCash

open Outcome

/-- The superseded watch-only half of a branch node. -/
def KeyCrates.legacyCx1Of (K : KeyCrates) (node : CashNode) : Except Error LegacyCx1 := do
  refuseIf (K.isSecretKey node.privateKey = false) invalidNodeKey
  return { pubkeyXOnly := (K.publicKeyOf node.privateKey).tail, chainCode := node.chainCode }

def noteDeriveTag : Str := "LNURLcash/derive".toList

def unusable (index : UInt32) : Error := .protocol
  ("note index ".toList ++ Str.decimal index.toNat ++ " is unusable on this branch - use the next index".toList)

/-- What a note's tweak hashes; a purpose of none is the scheme before purposes existed. -/
def tweakParts (pubkeyXOnly chainCode : ByteArr 32) (purpose : Option UInt32) (index : UInt32) : List Bytes :=
  match purpose with
  | some purpose => [pubkeyXOnly.toList, chainCode.toList, Bytes.be 4 purpose.toNat, Bytes.be 4 index.toNat]
  | none => [pubkeyXOnly.toList, chainCode.toList, Bytes.be 4 index.toNat]

def reduceModN (t : ByteArr 32) : ByteArr 32 := Bytes.beArr 32 (Bytes.beNat t.toList % curveOrder)

def Crates.tweakFor (C : Crates) (pubkeyXOnly chainCode : ByteArr 32) (purpose : Option UInt32) (index : UInt32) :
    Except Error (ByteArr 32) :=
  expect (unusable index)
    (scalarOfBytes (reduceModN (C.taggedHash noteDeriveTag (tweakParts pubkeyXOnly chainCode purpose index))))

/-- A note key under the superseded tweak, from the legacy `cx1` alone. -/
def Crates.legacyDeriveNotePubkey (C : Crates) (cx1 : LegacyCx1) (purpose : Option UInt32) (index : UInt32) :
    Except Error (ByteArr 32) := do
  refuseIf (C.isXOnlyKey cx1.pubkeyXOnly = false) (.protocol "a branch key is not an x-only secp256k1 point".toList)
  let tweak ← C.tweakFor cx1.pubkeyXOnly cx1.chainCode purpose index
  let (note, _) ← expect (unusable index) (C.addTweak cx1.pubkeyXOnly tweak)
  return note

/-- The secret key behind it, from the branch node. -/
def TweakCrates.legacyDeriveNoteSecretKey (K : TweakCrates) (node : CashNode) (purpose : Option UInt32) (index : UInt32) :
    Except Error (ByteArr 32) := do
  refuseIf (K.isSecretKey node.privateKey = false)
    (.protocol "a branch private key is a 32-byte scalar in [1, n)".toList)
  let tweak ← K.tweakFor (K.publicKeyOf node.privateKey).tail node.chainCode purpose index
  expect (unusable index) (K.addXonlyTweak node.privateKey tweak)

/-! ### The tweak -/

theorem beNat_reduceModN (t : ByteArr 32) : Bytes.beNat (reduceModN t).toList = Bytes.beNat t.toList % curveOrder := by
  have small : Bytes.beNat t.toList % curveOrder < curveOrder := Nat.mod_lt _ (by decide)
  exact beNat_beArr_of_lt small

/-- Reduced, every digest is a scalar. -/
theorem Crates.tweakFor_eq_ok (C : Crates) (pubkeyXOnly chainCode : ByteArr 32) (purpose : Option UInt32) (index : UInt32) :
    ∃ tweak, C.tweakFor pubkeyXOnly chainCode purpose index = .ok tweak ∧ Bytes.beNat tweak.toList < curveOrder := by
  have small : Bytes.beNat
      (reduceModN (C.taggedHash noteDeriveTag (tweakParts pubkeyXOnly chainCode purpose index))).toList < curveOrder := by
    rw [beNat_reduceModN]
    exact Nat.mod_lt _ (by decide)
  refine ⟨_, ?_, small⟩
  rw [tweakFor, scalarOfBytes, if_pos small]
  rfl

/-- A purpose makes the parts four bytes longer, and an index of a purpose is the parts' last bytes. -/
theorem tweakParts_injective {pubkeyXOnly chainCode : ByteArr 32} {purpose other : Option UInt32} {index next : UInt32}
    (equal : (tweakParts pubkeyXOnly chainCode purpose index).flatten =
      (tweakParts pubkeyXOnly chainCode other next).flatten) : purpose = other ∧ index = next := by
  have word {a b : UInt32} (same : Bytes.be 4 a.toNat = Bytes.be 4 b.toNat) : a = b :=
    Bytes.le_word_inj (List.reverse_injective same)
  have sizes := congrArg List.length equal
  cases purpose with
  | none =>
    cases other with
    | none =>
      simp only [tweakParts, List.flatten_cons, List.flatten_nil, List.append_nil, List.append_cancel_left_eq] at equal
      exact ⟨rfl, word equal⟩
    | some number => simp [tweakParts] at sizes
  | some purpose =>
    cases other with
    | none => simp [tweakParts] at sizes
    | some number =>
      simp only [tweakParts, List.flatten_cons, List.flatten_nil, List.append_nil, List.append_cancel_left_eq] at equal
      obtain ⟨purposes, indices⟩ := List.append_inj equal (by simp)
      rw [word purposes, word indices]
      exact ⟨rfl, rfl⟩

section Agreement

variable {K : TweakCrates} {Point : Type} [AddCommGroup Point] {curve : XOnlyGroup Point curveOrder (ByteArr 32)}

/-- What the watcher and the holder of one branch make of one purpose and index. -/
theorem TweakCrates.OnXOnly.legacy_agrees (on : K.OnXOnly curve) {node : CashNode} (valid : K.isSecretKey node.privateKey)
    (purpose : Option UInt32) (index : UInt32) :
    (K.legacyDeriveNotePubkey { pubkeyXOnly := (K.publicKeyOf node.privateKey).tail, chainCode := node.chainCode }
        purpose index).toOption =
      (K.legacyDeriveNoteSecretKey node purpose index).toOption.map fun secret =>
        curve.spell (curve.point (Bytes.beNat secret.toList)) := by
  have point := on.isXOnlyKey_publicKeyOf valid
  obtain ⟨tweak, made, scalar⟩ := K.tweakFor_eq_ok (K.publicKeyOf node.privateKey).tail node.chainCode purpose index
  simp only [Crates.legacyDeriveNotePubkey, legacyDeriveNoteSecretKey, point, valid, refuseIf, Bool.true_eq_false,
    if_false, ok_bind, made]
  rcases on.xonly_tweak valid scalar with ⟨secret, public'⟩ | ⟨tweaked, odd, tweakedValid, secret, public'⟩
  · rw [secret, public']
    rfl
  · rw [secret, public', on.publicKeyOf_tail tweaked tweakedValid]
    rfl

/-- A branch's watcher and its holder agree on every legacy note, and no two of
them hash the same tweak input. -/
theorem TweakCrates.OnXOnly.legacy_notes_agree (on : K.OnXOnly curve) :
    ∀ node, K.isSecretKey node.privateKey → ∃ cx1, K.legacyCx1Of node = .ok cx1 ∧
      (∀ purpose index, (K.legacyDeriveNotePubkey cx1 purpose index).toOption =
        (K.legacyDeriveNoteSecretKey node purpose index).toOption.map fun secret =>
          curve.spell (curve.point (Bytes.beNat secret.toList))) ∧
      ∀ purpose index other next, (purpose, index) ≠ (other, next) →
        K.taggedMessage noteDeriveTag (tweakParts cx1.pubkeyXOnly cx1.chainCode purpose index) ≠
          K.taggedMessage noteDeriveTag (tweakParts cx1.pubkeyXOnly cx1.chainCode other next) := by
  intro node valid
  refine ⟨_, ?_, fun purpose index => on.legacy_agrees valid purpose index, ?_⟩
  · simp only [KeyCrates.legacyCx1Of, valid, refuseIf, Bool.true_eq_false, if_false, ok_bind]
    rfl
  · intro purpose index other next different equal
    obtain ⟨rfl, rfl⟩ := tweakParts_injective (Crates.taggedMessage_inj equal)
    exact different rfl

end Agreement

/-- A branch whose own point has an odd y coordinate, so that its secret is negated before it is tweaked. -/
def oddBranch : CashNode where
  privateKey := Bytes.beArr 32 6
  chainCode := Bytes.beArr 32 999

/-- Its first note before purposes existed, as secp256k1 itself has it. -/
def oddBranchNote : ByteArr 32 :=
  Bytes.beArr 32 0x75bceaa058829eecd01882d18e20ce2749c9a948cdb06da7b1227ae3ff520dd6

theorem oddBranchNote_watched : ∃ cx1, mirrorKeys.legacyCx1Of oddBranch = .ok cx1 ∧
    cx1.pubkeyXOnly = (Secp256k1.publicKey oddBranch.privateKey).tail ∧
    (mirrorKeys.legacyDeriveNotePubkey cx1 none 0).toOption = some oddBranchNote ∧
    (mirrorKeys.legacyDeriveNoteSecretKey oddBranch none 0).toOption.map (fun secret => (Secp256k1.publicKey secret).tail) =
      some oddBranchNote := by
  have valid : mirrorKeys.isSecretKey oddBranch.privateKey := by decide +kernel
  obtain ⟨cx1, made, agrees, _⟩ := mirrorKeys_onXOnly.legacy_notes_agree oddBranch valid
  have branch : cx1.pubkeyXOnly = (Secp256k1.publicKey oddBranch.privateKey).tail := by
    have key : (mirrorKeys.legacyCx1Of oddBranch).toOption.map LegacyCx1.pubkeyXOnly =
        some (Secp256k1.publicKey oddBranch.privateKey).tail := by decide +kernel
    rw [made] at key
    exact Option.some.inj key
  have held : (mirrorKeys.legacyDeriveNoteSecretKey oddBranch none 0).toOption =
      some (Bytes.beArr 32 0xcb23eb07575b42ff6828e6f00c9896589287b1e8584092be66a27ce294c0e9e6) := by decide +kernel
  have shown := agrees none 0
  rw [held, Option.map_some] at shown
  refine ⟨cx1, made, branch, shown.trans (congrArg some ?_), ?_⟩
  · rw [mirrorCurve_spell]
    decide +kernel
  · rw [held]
    decide +kernel

end LnurlCash
