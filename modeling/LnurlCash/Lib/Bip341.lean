import LnurlCash.Lib.Secp256k1
import LnurlCash.Lib.Text

/-! BIP-341's signature message for any input of any transaction under
`SIGHASH_DEFAULT`, with BIP-342's extension for a script. -/

namespace Bip341

def compactSize (n : Nat) : Bytes :=
  if n < 253 then Bytes.le 1 n
  else if n < 2 ^ 16 then 0xfd :: Bytes.le 2 n
  else if n < 2 ^ 32 then 0xfe :: Bytes.le 4 n
  else 0xff :: Bytes.le 8 n

def lengthPrefixed (bytes : Bytes) : Bytes := compactSize bytes.length ++ bytes

structure OutPoint where
  txid : ByteArr 32
  vout : UInt32

structure TxOut where
  value : UInt64
  scriptPubKey : Bytes

/-- An input beside the output it spends, which the message commits to as well. -/
structure TxIn where
  prevout : OutPoint
  sequence : UInt32
  spent : TxOut

structure Transaction where
  version : UInt32
  inputs : List TxIn
  outputs : List TxOut
  lockTime : UInt32

/-- A script being executed, of this leaf version, from behind its last `OP_CODESEPARATOR`. -/
structure LeafExecution where
  leafVersion : UInt8
  script : Bytes
  keyVersion : UInt8
  codeSeparator : UInt32

/-- What a signature is made for: one input of a transaction, by key or by a leaf. -/
structure Spending where
  tx : Transaction
  index : Fin tx.inputs.length
  annex : Option Bytes
  leaf : Option LeafExecution

/-- Version 1 of a witness program: `OP_1` and a push of the output key. -/
def taprootScript (outputKey : ByteArr 32) : Bytes := [0x51] ++ ([0x20] ++ outputKey.toList)

def OutPoint.serialize (outPoint : OutPoint) : Bytes := outPoint.txid.toList ++ Bytes.le 4 outPoint.vout.toNat

def TxOut.serialize (output : TxOut) : Bytes := Bytes.le 8 output.value.toNat ++ lengthPrefixed output.scriptPubKey

def sighashDefault : UInt8 := 0x00

section Message

variable (hash : Bytes → ByteArr 32)

def taggedHash (tag : Str) (message : Bytes) : ByteArr 32 := Secp256k1.taggedHash hash (Str.utf8 tag) message

def Transaction.shaPrevouts (tx : Transaction) : ByteArr 32 :=
  hash (tx.inputs.flatMap fun input => input.prevout.serialize)

def Transaction.shaAmounts (tx : Transaction) : ByteArr 32 :=
  hash (tx.inputs.flatMap fun input => Bytes.le 8 input.spent.value.toNat)

def Transaction.shaScriptPubKeys (tx : Transaction) : ByteArr 32 :=
  hash (tx.inputs.flatMap fun input => lengthPrefixed input.spent.scriptPubKey)

def Transaction.shaSequences (tx : Transaction) : ByteArr 32 :=
  hash (tx.inputs.flatMap fun input => Bytes.le 4 input.sequence.toNat)

def Transaction.shaOutputs (tx : Transaction) : ByteArr 32 := hash (tx.outputs.flatMap TxOut.serialize)

def LeafExecution.leafHash (leaf : LeafExecution) : ByteArr 32 :=
  taggedHash hash "TapLeaf".toList (leaf.leafVersion :: lengthPrefixed leaf.script)

/-- BIP-342's extension of the message. -/
def LeafExecution.extension (leaf : LeafExecution) : Bytes :=
  (leaf.leafHash hash).toList ++ leaf.keyVersion :: Bytes.le 4 leaf.codeSeparator.toNat

def Transaction.sigMsg (tx : Transaction) : Bytes :=
  Bytes.le 4 tx.version.toNat ++ Bytes.le 4 tx.lockTime.toNat ++ (tx.shaPrevouts hash).toList ++
    (tx.shaAmounts hash).toList ++ (tx.shaScriptPubKeys hash).toList ++ (tx.shaSequences hash).toList ++
    (tx.shaOutputs hash).toList

/-- The extension flag, doubled, and a bit for the annex. -/
def Spending.spendType (spending : Spending) : UInt8 :=
  UInt8.ofNat (2 * spending.leaf.isSome.toNat + spending.annex.isSome.toNat)

def Spending.inputMsg (spending : Spending) : Bytes :=
  spending.spendType :: Bytes.le 4 spending.index.val ++
    spending.annex.elim [] fun annex => (hash (lengthPrefixed annex)).toList

def Spending.sigMsg (spending : Spending) : Bytes :=
  sighashDefault :: spending.tx.sigMsg hash ++ spending.inputMsg hash ++
    spending.leaf.elim [] fun leaf => leaf.extension hash

/-- What the signature signs; the leading zero byte is the message's epoch. -/
def Spending.sighash (spending : Spending) : ByteArr 32 :=
  taggedHash hash "TapSighash".toList (0x00 :: spending.sigMsg hash)

end Message

variable {hash : Bytes → ByteArr 32}

theorem LeafExecution.length_extension (leaf : LeafExecution) : (leaf.extension hash).length = 37 := by
  rw [extension, List.length_append, List.length_cons, Bytes.length_le, (leaf.leafHash hash).size]

theorem Transaction.length_sigMsg (tx : Transaction) : (tx.sigMsg hash).length = 168 := by
  simp only [sigMsg, List.length_append, Bytes.length_le, ByteArr.size]

theorem Spending.length_inputMsg (spending : Spending) :
    (spending.inputMsg hash).length = 5 + 32 * spending.annex.isSome.toNat := by
  cases annex : spending.annex with
  | none =>
    rw [inputMsg, annex, List.cons_append, List.length_cons, List.length_append, Bytes.length_le]
    rfl
  | some bytes =>
    rw [inputMsg, annex, List.cons_append, List.length_cons, List.length_append, Bytes.length_le, Option.elim_some,
      ByteArr.size]
    rfl

/-- A message is as long as its annex and its extension make it, whatever the transaction. -/
theorem Spending.length_sigMsg (spending : Spending) :
    (spending.sigMsg hash).length = 174 + 32 * spending.annex.isSome.toNat + 37 * spending.leaf.isSome.toNat := by
  have front : (spending.tx.sigMsg hash).length = 168 := spending.tx.length_sigMsg
  have middle : (spending.inputMsg hash).length = 5 + 32 * spending.annex.isSome.toNat := spending.length_inputMsg
  cases script : spending.leaf with
  | none =>
    rw [sigMsg, script, List.length_append, List.cons_append, List.length_cons, List.length_append, front, middle]
    simp only [Option.elim_none, List.length_nil, Option.isSome_none, Bool.toNat_false]
    omega
  | some leaf =>
    rw [sigMsg, script, List.length_append, List.cons_append, List.length_cons, List.length_append, front, middle]
    simp only [Option.elim_some, leaf.length_extension, Option.isSome_some, Bool.toNat_true]
    omega

end Bip341
