import LnurlCash.Recoverable

namespace LnurlCash

open Outcome

def hardened : UInt32 := 0x80000000

def cashPurpose : UInt32 := 139

/-- A BIP-32 extended private key, reduced to what deriving a child needs. -/
structure CashNode where
  privateKey : ByteArr 32
  chainCode : ByteArr 32
  deriving DecidableEq

def invalidNodeKey : Error := .protocol "cash node holds an invalid private key".toList

def outOfRange (index : UInt32) : Error :=
  .protocol ("BIP-32 derivation at ".toList ++ Str.decimal index.toNat ++ " is out of range".toList)

def noHardenedChild (index : UInt32) : Error :=
  .protocol ("a public key has no hardened child, and ".toList ++ Str.decimal index.toNat ++ " is one".toList)

/-- `Scalar::from_be_bytes(..).ok()` -/
def scalarOfBytes (bytes : ByteArr 32) : Option (ByteArr 32) := if Bytes.beNat bytes.toList < curveOrder then some bytes else none

/-- One CKDpriv step, hardened by the index's own magnitude. -/
def KeyCrates.deriveCashChild (K : KeyCrates) (node : CashNode) (index : UInt32) : Except Error CashNode := do
  refuseIf (K.isSecretKey node.privateKey = false) invalidNodeKey
  let point := if index ≥ hardened then 0 :: node.privateKey.toList else (K.publicKeyOf node.privateKey).toList
  let (left, right) := (K.hmacSha512 node.chainCode.toList (point ++ Bytes.be 4 index.toNat)).halves
  let tweak ← expect (outOfRange index) (scalarOfBytes left)
  let child ← expect (outOfRange index) (K.addSecretTweak node.privateKey tweak)
  return { privateKey := child, chainCode := right }

/-- One CKDpub step, from a compressed public key and its chain code. -/
def KeyCrates.deriveCashChildPub (K : KeyCrates) (pubkey : ByteArr 33) (chainCode : ByteArr 32) (index : UInt32) :
    Except Error (ByteArr 33 × ByteArr 32) := do
  refuseIf (index ≥ hardened) (noHardenedChild index)
  refuseIf (K.isPublicKey pubkey = false) (.protocol "not a compressed secp256k1 point".toList)
  let (left, right) := (K.hmacSha512 chainCode.toList (pubkey.toList ++ Bytes.be 4 index.toNat)).halves
  let tweak ← expect (outOfRange index) (scalarOfBytes left)
  let child ← expect (outOfRange index) (K.addExpTweak pubkey tweak)
  return (child, right)

def KeyCrates.cashNodePublicKey (K : KeyCrates) (node : CashNode) : Except Error (ByteArr 33) :=
  if K.isSecretKey node.privateKey then .ok (K.publicKeyOf node.privateKey) else .error invalidNodeKey

def KeyCrates.deriveCashMaster (K : KeyCrates) (seed : Bytes) : Except Error CashNode := do
  refuseIf (seed.length < 16 ∨ 64 < seed.length) (.protocol
    ("a BIP-32 seed must be 16 to 64 bytes, not ".toList ++ Str.decimal seed.length))
  let (privateKey, chainCode) := (K.hmacSha512 (Str.utf8 "Bitcoin seed".toList) seed).halves
  refuseIf (K.isSecretKey privateKey = false)
    (.protocol "this seed does not produce a valid BIP-32 master key".toList)
  return { privateKey, chainCode }

/-- `m/139'`, the wallet's root for note secrets. -/
def KeyCrates.deriveCashRoot (K : KeyCrates) (seed : Bytes) : Except Error CashNode := do
  let master ← K.deriveCashMaster seed
  K.deriveCashChild master (cashPurpose + hardened)

/-- The four raw levels a mint's subtree hangs off. -/
def KeyCrates.cashDomainIndices (K : KeyCrates) (root : CashNode) (host : Str) : Except Error (List UInt32) := do
  let hashing ← K.deriveCashChild root 0
  let material := K.hmacSha256 hashing.privateKey.toList (Str.utf8 host)
  return [0, 4, 8, 12].map fun i => UInt32.ofNat (Bytes.beNat ((material.toList.drop i).take 4))

def KeyCrates.deriveCashDomainNode (K : KeyCrates) (root : CashNode) (host : Str) : Except Error CashNode := do
  let indices ← K.cashDomainIndices root host
  indices.foldlM K.deriveCashChild root

/-- `S`, one SERVICE's root: the domain is a URL or a bare host, reduced to its hostname. -/
def KeyCrates.deriveServiceRoot (K : KeyCrates) (root : CashNode) (domain : Str) : Except Error CashNode := do
  let domain ← expect (.protocol "a SERVICE root is derived for a domain".toList) (K.spendDomainOf domain)
  K.deriveCashDomainNode root domain

/-- privateKey || chainCode, as a caller stores a node. -/
def cashNodeToHex (node : CashNode) : Str := Hex.encode node.privateKey.toList ++ Hex.encode node.chainCode.toList

def KeyCrates.cashNodeFromHex (K : KeyCrates) (value : Str) : Except Error CashNode := do
  let bytes ← expect (.protocol "a cash node is 64 bytes of hex".toList) (Hex.decode (K.toLowercase (Str.trim value)))
  let whole ← expect (.protocol ("a cash node is 64 bytes - a 32-byte key and a 32-byte chain code - not ".toList ++
    Str.decimal bytes.length)) (Bytes.toArr 64 bytes)
  let (privateKey, chainCode) := whole.halves
  refuseIf (K.isSecretKey privateKey = false) (.protocol "that cash node holds an invalid private key".toList)
  return { privateKey, chainCode }

end LnurlCash
