import LnurlCash.Lib.Bip341
import LnurlCash.Sighash

namespace LnurlCash

open Bip341

/-- The transaction no mint broadcasts: its one prevout names the mint, and the output it spends the note. -/
def Crates.canonicalTransaction (C : Crates) (outputKey : ByteArr 32) (domain : Str) (locktime sequence : UInt32) :
    Transaction where
  version := 2
  inputs := [{
    prevout := { txid := C.spendPrevout domain, vout := 0 }
    sequence := sequence
    spent := { value := 0, scriptPubKey := taprootScript outputKey } }]
  outputs := [{ value := 0, scriptPubKey := [] }]
  lockTime := locktime

/-- Its only input, spent by key or by a tapscript that executes no `OP_CODESEPARATOR`. -/
def Crates.canonicalSpend (C : Crates) (outputKey : ByteArr 32) (domain : Str) (locktime sequence : UInt32)
    (leafScript : Option Bytes) : Spending where
  tx := C.canonicalTransaction outputKey domain locktime sequence
  index := ⟨0, Nat.one_pos⟩
  annex := none
  leaf := leafScript.map fun script => {
    leafVersion := 0xc0
    script := script
    keyVersion := 0x00
    codeSeparator := 0xffffffff }

theorem compactSize_eq (n : Nat) : compactSize n = Bip341.compactSize n := by
  unfold LnurlCash.compactSize Bip341.compactSize
  split_ifs <;> first | rfl | omega

theorem Crates.taggedHash_eq (C : Crates) (tag : Str) (parts : List Bytes) :
    C.taggedHash tag parts = Bip341.taggedHash C.sha256 tag parts.flatten := rfl

theorem Crates.tapleafHash_eq (C : Crates) (leaf : LeafExecution) :
    C.tapleafHash leaf.script leaf.leafVersion = leaf.leafHash C.sha256 := by
  rw [tapleafHash, taggedHash_eq, compactSize_eq, LeafExecution.leafHash, lengthPrefixed]
  simp only [List.flatten_cons, List.flatten_nil, List.append_nil, List.singleton_append]

theorem lengthPrefixed_taprootScript (outputKey : ByteArr 32) :
    lengthPrefixed (taprootScript outputKey) = spendScriptField outputKey := by
  have length : (taprootScript outputKey).length = 34 := by
    rw [taprootScript, List.length_append, List.length_append, outputKey.size]
    rfl
  have same : spendScriptPubkey outputKey = taprootScript outputKey := rfl
  rw [lengthPrefixed, spendScriptField, same, length]
  rfl

/-- The five hashes of the canonical transaction's parts are the ones the program writes out. -/
theorem Crates.canonicalTransaction_hashes (C : Crates) (outputKey : ByteArr 32) (domain : Str)
    (locktime sequence : UInt32) :
    (C.canonicalTransaction outputKey domain locktime sequence).sigMsg C.sha256 =
      Bytes.le 4 2 ++ Bytes.le 4 locktime.toNat ++ (C.sha256 (C.spendOutpoint domain)).toList ++
        (C.sha256 (Bytes.le 8 0)).toList ++ (C.sha256 (spendScriptField outputKey)).toList ++
        (C.sha256 (Bytes.le 4 sequence.toNat)).toList ++ (C.sha256 (List.replicate 9 0)).toList := by
  have output : TxOut.serialize { value := 0, scriptPubKey := [] } = List.replicate 9 0 := by decide
  simp only [Transaction.sigMsg, Transaction.shaPrevouts, Transaction.shaAmounts, Transaction.shaScriptPubKeys,
    Transaction.shaSequences, Transaction.shaOutputs, canonicalTransaction, List.flatMap_singleton,
    lengthPrefixed_taprootScript, output]
  rfl

theorem Crates.extension_tapscript (C : Crates) (script : Bytes) :
    LeafExecution.extension C.sha256 { leafVersion := 0xc0, script, keyVersion := 0x00, codeSeparator := 0xffffffff } =
      (C.tapleafHash script tapleafVersion).toList ++ ([0x00] ++ Bytes.le 4 0xffffffff) := by
  rw [LeafExecution.extension, ← tapleafHash_eq]
  rfl

theorem Crates.spendSigMsg_eq (C : Crates) (outputKey : ByteArr 32) (domain : Str) (locktime sequence : UInt32)
    (leafScript : Option Bytes) :
    C.spendSigMsg outputKey domain locktime sequence leafScript =
      (C.canonicalSpend outputKey domain locktime sequence leafScript).sigMsg C.sha256 := by
  have hashes := C.canonicalTransaction_hashes outputKey domain locktime sequence
  cases leafScript with
  | none =>
    simp only [Spending.sigMsg, canonicalSpend, hashes, spendSigMsg, List.append_assoc, List.cons_append]
    rfl
  | some script =>
    simp only [Spending.sigMsg, canonicalSpend, hashes, spendSigMsg, List.append_assoc, List.cons_append,
      Option.map_some, Option.elim_some, extension_tapscript]
    rfl

/-- The program's message for a spend is the general one on the canonical
transaction, of one length for a key path and one for every leaf. -/
theorem Crates.spend_sig_msg_is_standard (C : Crates) (outputKey : ByteArr 32) (domain : Str)
    (locktime sequence : UInt32) (leafScript : Option Bytes) :
    C.spendSigMsg outputKey domain locktime sequence leafScript =
        (C.canonicalSpend outputKey domain locktime sequence leafScript).sigMsg C.sha256 ∧
      (C.spendSigMsg outputKey domain locktime sequence leafScript).length =
        if leafScript.isSome then 211 else 174 := by
  have same := C.spendSigMsg_eq outputKey domain locktime sequence leafScript
  refine ⟨same, ?_⟩
  rw [same, Spending.length_sigMsg]
  cases leafScript <;> rfl

theorem Crates.tapSighash_eq (C : Crates) (outputKey : ByteArr 32) (domain : Str) (locktime sequence : UInt32)
    (leafScript : Option Bytes) :
    C.tapSighash (C.spendSigMsg outputKey domain locktime sequence leafScript) =
      (C.canonicalSpend outputKey domain locktime sequence leafScript).sighash C.sha256 := by
  rw [tapSighash, taggedHash_eq, spendSigMsg_eq, Spending.sighash]
  simp only [List.flatten_cons, List.flatten_nil, List.append_nil, List.singleton_append]

/-- So a spend's signature signs what a standard verifier checks it against, by key and by script. -/
theorem Crates.sighashes_standard (C : Crates) (outputKey : ByteArr 32) (domain : Str) :
    C.keyPathSighash outputKey domain =
        (C.canonicalSpend outputKey domain keyPathLocktime keyPathSequence none).sighash C.sha256 ∧
      ∀ script locktime sequence, C.scriptPathSighash outputKey domain script locktime sequence =
        (C.canonicalSpend outputKey domain locktime sequence (some script)).sighash C.sha256 :=
  ⟨C.tapSighash_eq .., fun _ _ _ => C.tapSighash_eq ..⟩

end LnurlCash
