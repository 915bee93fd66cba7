import LnurlCash.KeyPathSpends
import LnurlCash.ScriptTrees
import LnurlCash.XOnlyKeys

namespace LnurlCash

open Outcome

def unusableTree : Error := .protocol "this tree does not tweak to a usable key".toList

/-- The secret key that signs for a tree's `Q`, from its internal key's. -/
def TweakCrates.taprootTweakSecretKey (K : TweakCrates) (secretKey merkleRoot : ByteArr 32) :
    Except Error (ByteArr 32) := do
  refuseIf (K.isSecretKey secretKey = false)
    (.protocol "an internal secret key is a 32-byte scalar in [1, n)".toList)
  let tweak ← expect unusableTree (K.tweakScalar (K.publicKeyOf secretKey).tail merkleRoot)
  expect unusableTree (K.addXonlyTweak secretKey tweak)

theorem Crates.tweakScalar_eq_some {C : Crates} {internalKey merkleRoot tweak : ByteArr 32}
    (scalar : C.tweakScalar internalKey merkleRoot = some tweak) : Bytes.beNat tweak.toList < curveOrder := by
  simp only [tweakScalar, Option.ite_none_right_eq_some, Option.some.injEq] at scalar
  obtain ⟨small, rfl⟩ := scalar
  exact small

/-- A signed key-path spend is its key's x coordinate and a signature. -/
theorem KeyCrates.signNoteOwnership_eq_ok {K : KeyCrates} {secretKey : ByteArr 32} {domain : Str} {payload : ByteArr 96}
    (signed : K.signNoteOwnership secretKey domain = .ok payload) :
    ∃ key, ∃ signature : ByteArr 64,
      K.signingKey secretKey = some key ∧ payload.toList = key.toList ++ signature.toList := by
  simp only [signNoteOwnership, bind_eq_ok, expect_eq_ok, pure_eq_ok] at signed
  obtain ⟨key, signing, _, _, signature, _, rfl⟩ := signed
  exact ⟨key, signature, signing, rfl⟩

section KeyPath

variable {K : TweakCrates} {Point : Type} [AddCommGroup Point] {curve : XOnlyGroup Point curveOrder (ByteArr 32)}
  {secretKey : ByteArr 32}

/-- The secret and the public tweak fail together, or give a key pair. -/
theorem TweakCrates.OnXOnly.taproot_tweak (on : K.OnXOnly curve) (valid : K.isSecretKey secretKey)
    (merkleRoot : ByteArr 32) :
    (K.taprootTweakSecretKey secretKey merkleRoot).toOption = none ∧
        K.taprootTweak (K.publicKeyOf secretKey).tail merkleRoot = none ∨
      ∃ tweaked output, K.isSecretKey tweaked ∧ K.taprootTweakSecretKey secretKey merkleRoot = .ok tweaked ∧
        K.taprootTweak (K.publicKeyOf secretKey).tail merkleRoot = some output ∧
          output.outputKey = (K.publicKeyOf tweaked).tail := by
  have point := on.isXOnlyKey_publicKeyOf valid
  simp only [taprootTweakSecretKey, Crates.taprootTweak, valid, point, refuseIf, Bool.true_eq_false, if_true, if_false,
    ok_bind, Option.bind_eq_bind]
  cases scalar : K.tweakScalar (K.publicKeyOf secretKey).tail merkleRoot with
  | none => exact Or.inl ⟨rfl, rfl⟩
  | some tweak =>
    rcases on.xonly_tweak valid (Crates.tweakScalar_eq_some scalar) with
      ⟨secret, shown⟩ | ⟨tweaked, odd, tweakedValid, secret, shown⟩
    · left
      simp only [expect, ok_bind, Option.bind_some, secret, shown]
      exact ⟨rfl, rfl⟩
    · right
      refine ⟨tweaked, { outputKey := (K.publicKeyOf tweaked).tail, parity := if odd then 1 else 0 }, tweakedValid,
        ?_, ?_, rfl⟩
      · simp only [expect, ok_bind, secret]
      · simp only [Option.bind_some, shown]

/-- A tree's note can be spent by its key path: tweaking the internal secret
succeeds exactly when tweaking its x-only key does, and what the tweaked secret
signs names the key that every control block under that root commits to. -/
theorem TweakCrates.OnXOnly.tree_key_path (on : K.OnXOnly curve) (valid : K.isSecretKey secretKey)
    (merkleRoot : ByteArr 32) :
    ((K.taprootTweakSecretKey secretKey merkleRoot).toOption.isSome ↔
        (K.taprootTweak (curve.spell (curve.point (Bytes.beNat secretKey.toList))) merkleRoot).isSome) ∧
      ∀ tweaked, K.taprootTweakSecretKey secretKey merkleRoot = .ok tweaked →
        ∃ output, K.taprootTweak (curve.spell (curve.point (Bytes.beNat secretKey.toList))) merkleRoot = some output ∧
          curve.spell (curve.point (Bytes.beNat tweaked.toList)) = output.outputKey ∧
          (∀ domain payload, K.signNoteOwnership tweaked domain = .ok payload →
            payload.toList.take 32 = output.outputKey.toList ∧
              K.noteIdOf (encodeCk1 payload) = some (Hex.encode output.outputKey.toList)) ∧
          ∀ script first siblings, siblings.length ≤ maxMerkleDepth →
            siblings.foldl K.tapbranchHash (K.tapleafHash script (first &&& 0xfe)) = merkleRoot →
              K.outputKeyOf script
                  (controlBlockOf first (curve.spell (curve.point (Bytes.beNat secretKey.toList))) siblings) =
                if output.parity = first &&& 1 then some output.outputKey else none := by
  rw [← on.publicKeyOf_tail secretKey valid]
  rcases on.taproot_tweak valid merkleRoot with ⟨secret, shown⟩ | ⟨key, output, keyValid, secret, shown, named⟩
  · refine ⟨by rw [secret, shown]; rfl, fun tweaked made => ?_⟩
    rw [made] at secret
    cases secret
  · refine ⟨by rw [secret, shown]; exact Iff.rfl, fun tweaked made => ?_⟩
    cases Except.ok.inj (secret.symm.trans made)
    refine ⟨output, shown, by rw [named, on.publicKeyOf_tail key keyValid], fun domain payload signed => ?_,
      fun script first siblings shallow root => ?_⟩
    · obtain ⟨signer, signature, signing, parts⟩ := KeyCrates.signNoteOwnership_eq_ok signed
      have same : signer = output.outputKey := by
        rw [on.signingKey_eq key keyValid, ← on.publicKeyOf_tail key keyValid, ← named] at signing
        exact (Option.some.inj signing).symm
      subst same
      have point : K.isXOnlyKey output.outputKey := by
        rw [named]
        exact on.isXOnlyKey_publicKeyOf keyValid
      refine ⟨by rw [parts, List.take_left' output.outputKey.size], ?_⟩
      rw [Crates.noteIdOf, Crates.decodeSpend_ck1 (pasted_self _) parts point]
      rfl
    · rw [Crates.outputKeyOf_controlBlock K.toCrates script first _ shallow, root, shown, Option.bind_some]

end KeyPath

/-- An internal secret whose point has an odd y coordinate. -/
def oddSecret : ByteArr 32 := Bytes.beArr 32 6

/-- The key of `hashlockLeaf` alone under it, as secp256k1 itself has it; its y is odd too. -/
def oddTreeKey : ByteArr 32 :=
  Bytes.beArr 32 0x7a8aac1a844e9961233ee8b3404c10902f62bc4900de741d020f14683b5a6f04

theorem oddSecret_spends : ∃ tweaked payload,
    mirrorKeys.taprootTweakSecretKey oddSecret (mirrorKeys.tapleafHash hashlockLeaf.script tapleafVersion) =
      .ok tweaked ∧
      (Secp256k1.publicKey tweaked).tail = oddTreeKey ∧
      mirrorKeys.signNoteOwnership tweaked "mint.example".toList = .ok payload ∧
      payload.toList.take 32 = oddTreeKey.toList ∧
      mirrorKeys.outputKeyOf hashlockLeaf.script (controlBlockOf 0xc1 (Secp256k1.publicKey oddSecret).tail []) =
        some oddTreeKey := by
  have valid : mirrorKeys.isSecretKey oddSecret := by decide +kernel
  obtain ⟨_, signs⟩ := mirrorKeys_onXOnly.tree_key_path valid
    (mirrorKeys.tapleafHash hashlockLeaf.script tapleafVersion)
  have made : mirrorKeys.taprootTweakSecretKey oddSecret (mirrorKeys.tapleafHash hashlockLeaf.script tapleafVersion) =
      .ok (Bytes.beArr 32 0xadeaa7c23f1f3e14f96abe3b587d8ad096c1698a0e0219b354bc31f0caa6308e) := by decide +kernel
  obtain ⟨output, shown, _, named, commits⟩ := signs _ made
  have real : mirrorKeys.taprootTweak (Secp256k1.publicKey oddSecret).tail
      (mirrorKeys.tapleafHash hashlockLeaf.script tapleafVersion) = some ⟨oddTreeKey, 1⟩ := by decide +kernel
  have internal : mirrorCurve.spell (mirrorCurve.point (Bytes.beNat oddSecret.toList)) =
      (Secp256k1.publicKey oddSecret).tail := by
    rw [mirrorCurve_spell]
    decide +kernel
  rw [internal] at shown commits
  obtain rfl := Option.some.inj (real.symm.trans shown)
  have signing : (mirrorKeys.signNoteOwnership (Bytes.beArr 32
      0xadeaa7c23f1f3e14f96abe3b587d8ad096c1698a0e0219b354bc31f0caa6308e) "mint.example".toList).toOption.isSome := by
    decide +kernel
  obtain ⟨payload, signed⟩ := Option.isSome_iff_exists.mp signing
  have signed := toOption_eq_some.mp signed
  refine ⟨_, payload, made, by decide +kernel, signed, (named _ payload signed).1, ?_⟩
  rw [commits _ 0xc1 [] (Nat.zero_le _) rfl]
  rfl

end LnurlCash
