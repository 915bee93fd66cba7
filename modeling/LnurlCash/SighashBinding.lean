import LnurlCash.Sighash
import LnurlCash.Reference

namespace LnurlCash

variable {C : Crates} {outputKey otherKey : ByteArr 32} {domain otherDomain : Str}
  {locktime sequence otherLocktime otherSequence : UInt32} {leaf otherLeaf : Option Bytes}

/-- Spend signatures are not reusable. With no SHA-256 collision among the
byte strings the two spends hash, one message, or one sighash, is for one key,
one domain up to ASCII case, one time claim and one leaf; and a key-path
sighash is never a script-path one. -/
theorem Crates.spend_signature_binds
    (free : C.CollisionFree (C.spendHashed outputKey domain locktime sequence leaf ++
      C.spendHashed otherKey otherDomain otherLocktime otherSequence otherLeaf)) :
    (C.spendSigMsg outputKey domain locktime sequence leaf =
        C.spendSigMsg otherKey otherDomain otherLocktime otherSequence otherLeaf ∨
      C.tapSighash (C.spendSigMsg outputKey domain locktime sequence leaf) =
        C.tapSighash (C.spendSigMsg otherKey otherDomain otherLocktime otherSequence otherLeaf) →
      outputKey = otherKey ∧ Str.lower domain = Str.lower otherDomain ∧ locktime = otherLocktime ∧
        sequence = otherSequence ∧ leaf = otherLeaf) ∧
    (∀ script, locktime = keyPathLocktime → sequence = keyPathSequence → leaf = none → otherLeaf = some script →
      C.keyPathSighash outputKey domain ≠
        C.scriptPathSighash otherKey otherDomain script otherLocktime otherSequence) := by
  have binds := fun same => spendSigMsg_inj free (tapSighash_inj free same)
  constructor
  · rintro (message | sighash)
    · exact spendSigMsg_inj free message
    · exact binds sighash
  · rintro script rfl rfl rfl rfl same
    have leaves := (binds same).2.2.2.2
    cases leaves

set_option maxRecDepth 100000 in
theorem reference.key_path_is_not_script_path :
    reference.keyPathSighash numsH "mint.example".toList ≠
      reference.scriptPathSighash numsH "mint.example".toList [0x51] 0 7 :=
  (Crates.spend_signature_binds (.of_nodup (by decide +kernel))).2 [0x51] rfl rfl rfl rfl

end LnurlCash
