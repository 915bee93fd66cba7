import LnurlCash.Lib.Outcome
import LnurlCash.Secrets
import LnurlCash.Sighash

namespace LnurlCash

open Outcome

def lightningSignedMessagePrefix : Str := "Lightning Signed Message:".toList

/-- What a Lightning node's signmessage signs. -/
def Crates.lightningSignedDigest (C : Crates) (message : Str) : ByteArr 32 :=
  C.sha256 (C.sha256 (Str.utf8 lightningSignedMessagePrefix ++ Str.utf8 message)).toList

/-- `RecoveryId::try_from`, `RecoverableSignature::from_compact` and `recover_ecdsa` in one. -/
def Crates.recover (C : Crates) (digest : ByteArr 32) (compact : Bytes) (recovery : UInt8) : Option (ByteArr 33) :=
  if small : recovery.toNat < 4 then C.recoverEcdsa digest compact ⟨recovery.toNat, small⟩ else none

def maxBech32Chars : Nat := 8192

/-- Every human-readable part it is given is one bech32 can carry. -/
def encodeBytes (hrp : Str) (bytes : Bytes) : Str := (Bech32.encode bech32mResidue hrp bytes).getD []

def decodeBytes (hrp value : Str) : Option Bytes :=
  let value := Str.trim value
  if Str.byteLen value > maxBech32Chars then none else Bech32.decode bech32mResidue hrp value

def decodeFixed (n : Nat) (hrp value : Str) : Option (ByteArr n) := (decodeBytes hrp value).bind (Bytes.toArr n)

def encodeCp1 (outputKey : ByteArr 32) : Str := encodeBytes "cp".toList outputKey.toList

/-- A `cp1` whose `Q` is the x coordinate of a curve point. -/
def Crates.decodeCp1 (C : Crates) (value : Str) : Option (ByteArr 32) :=
  (decodeFixed 32 "cp".toList value).filter fun key => C.isXOnlyPoint key.toList

inductive DecodedCk1 where
  | current (payload : ByteArr 96)
  /-- pre-Schnorr recoverable ECDSA, read so that old notes can be rotated -/
  | legacy (signature : ByteArr 65)
  deriving DecidableEq

def DecodedCk1.asBytes : DecodedCk1 → Bytes
  | current payload => payload.toList
  | legacy signature => signature.toList

def encodeCk1 (payload : ByteArr 96) : Str := encodeBytes "ck".toList payload.toList

def decodeCk1 (value : Str) : Option DecodedCk1 := do
  let bytes ← decodeBytes "ck".toList value
  if bytes.length = 96 then (Bytes.toArr 96 bytes).map .current
  else if bytes.length = 65 then (Bytes.toArr 65 bytes).map .legacy
  else none

/-- One item behind its 16-bit length. -/
def cw1Item (item : Bytes) : Except Error Bytes :=
  if item.length < 2 ^ 16 then .ok (Bytes.be 2 item.length ++ item)
  else .error (.protocol "a cw1 item is at most 65535 bytes".toList)

def encodeCw1 (cw1 : Cw1) : Except Error Str := do
  let items ← (cw1.script :: cw1.controlBlock :: cw1.witness).mapM cw1Item
  .ok (encodeBytes "cw".toList (Bytes.be 4 cw1.locktime.toNat ++ Bytes.be 4 cw1.sequence.toNat ++ items.flatten))

/-- Items behind 16-bit lengths, until the payload is used up exactly. `fuel`
bounds the items; the payload's own length is enough. -/
def cw1Items : Nat → Bytes → Option (List Bytes)
  | _, [] => some []
  | fuel + 1, high :: low :: rest =>
    let len := Bytes.beNat [high, low]
    if rest.length < len then none else (cw1Items fuel (rest.drop len)).map (rest.take len :: ·)
  | _, _ => none

def Crates.decodeCw1 (C : Crates) (value : Str) : Option Cw1 := do
  let payload ← decodeBytes "cw".toList value
  if payload.length < 8 then none
  else
    let items ← cw1Items payload.length (payload.drop 8)
    match items with
    | script :: controlBlock :: witness =>
      let cw1 : Cw1 := {
        locktime := UInt32.ofNat (Bytes.beNat (payload.take 4))
        sequence := UInt32.ofNat (Bytes.beNat ((payload.drop 4).take 4))
        script, controlBlock, witness }
      if (C.cw1OutputKey cw1).isSome then some cw1 else none
    | _ => none

/-- A decoded current `cs1`: the amount its prefix commits to and the mint's signature. -/
structure Cs1 where
  amountMsat : UInt64
  signature : ByteArr 65
  deriving DecidableEq

/-- `u128::checked_mul` -/
def checkedMul (a b : Nat) : Option Nat := if a * b < 2 ^ 128 then some (a * b) else none

def amountUnits : List (Str × UInt64) := [([], 100000000000), (['m'], 100000000), (['u'], 100000), (['n'], 100)]

/-- An amount in the largest unit that is exact, pico-bitcoin where none above is. -/
def encodeAmountSuffix (amountMsat : UInt64) : Str :=
  match amountUnits.find? fun unit => decide (amountMsat % unit.2 = 0) with
  | some (suffix, unit) => Str.decimal (amountMsat / unit).toNat ++ suffix
  | none => Str.decimal (amountMsat.toNat * 10) ++ ['p']

def decodeAmountSuffix (value : Str) : Option UInt64 := do
  let unit := value.getLast?.filter (· ∈ ['m', 'u', 'n', 'p'])
  let digits := if unit.isSome then value.dropLast else value
  let n ← Str.parseDigits (2 ^ 128) digits
  let amount ← match unit with
    | some 'm' => checkedMul n 100000000
    | some 'u' => checkedMul n 100000
    | some 'n' => checkedMul n 100
    | some 'p' => if n % 10 = 0 then some (n / 10) else none
    | _ => checkedMul n 100000000000
  if amount < 2 ^ 64 then some (UInt64.ofNat amount) else none

def encodeCs1 (signature : ByteArr 65) : Str := encodeBytes "cs".toList signature.toList

def decodeCs1 (value : Str) : Option (ByteArr 65) := decodeFixed 65 "cs".toList value

def encodeCs1WithAmount (amountMsat : UInt64) (signature : ByteArr 65) : Str :=
  encodeBytes ("cs".toList ++ encodeAmountSuffix amountMsat) signature.toList

/-- A current `cs1`: 65 bytes, `r || s || recovery-id`, the recovery id 0 to 3. -/
def decodeCs1WithAmount (value : Str) : Option Cs1 := do
  let trimmed := Str.trim value
  let (before, _) ← Str.rsplitOnce '1' trimmed
  let hrp := Str.lower before
  let suffix ← Str.stripPrefix "cs".toList hrp
  let amountMsat ← decodeAmountSuffix suffix
  let signature ← decodeFixed 65 hrp trimmed
  if signature.get 64 > 3 then none else some { amountMsat, signature }

def decodeAnyCs1 (value : Str) : Option (ByteArr 65) :=
  ((decodeCs1WithAmount value).map Cs1.signature).or (decodeCs1 value)

/-- A share's extended public key: its chain code and compressed point. -/
structure Cx1 where
  chainCode : ByteArr 32
  pubkey : ByteArr 33
  deriving DecidableEq

/-- `x(P)`: what a registration proof by this share verifies against. -/
def Cx1.pubkeyXOnly (cx1 : Cx1) : ByteArr 32 := cx1.pubkey.tail

def encodeCx1 (cx1 : Cx1) : Str := encodeBytes "cx".toList (cx1.chainCode.toList ++ cx1.pubkey.toList)

def KeyCrates.decodeCx1 (K : KeyCrates) (value : Str) : Option Cx1 := do
  let bytes ← decodeFixed 65 "cx".toList value
  let chainCode ← Bytes.toArr 32 (bytes.toList.take 32)
  let pubkey ← Bytes.toArr 33 (bytes.toList.drop 32)
  if K.isPublicKey pubkey then some { chainCode, pubkey } else none

/-- A superseded 64-byte `cx1`, `x(P) || chainCode`. -/
structure LegacyCx1 where
  pubkeyXOnly : ByteArr 32
  chainCode : ByteArr 32
  deriving DecidableEq

def encodeLegacyCx1 (cx1 : LegacyCx1) : Str := encodeBytes "cx".toList (cx1.pubkeyXOnly.toList ++ cx1.chainCode.toList)

def decodeLegacyCx1 (value : Str) : Option LegacyCx1 := do
  let bytes ← decodeFixed 64 "cx".toList value
  let pubkeyXOnly ← Bytes.toArr 32 (bytes.toList.take 32)
  let chainCode ← Bytes.toArr 32 (bytes.toList.drop 32)
  some { pubkeyXOnly, chainCode }

def legacyOwnershipMessage : Str := "LNURLcash".toList

def Crates.legacyOwnershipDigest (C : Crates) : ByteArr 32 := C.sha256 (Str.utf8 legacyOwnershipMessage)

/-- `Q || sig`, the key-path spend of the note `x(sk·G)` at `domain`. -/
def KeyCrates.signNoteOwnership (K : KeyCrates) (secretKey : ByteArr 32) (domain : Str) : Except Error (ByteArr 96) := do
  let outputKey ← expect (.protocol "a note secret key is a 32-byte scalar in [1, n)".toList) (K.signingKey secretKey)
  let domain ← expect (.protocol "a ck1 is signed for a mint's domain, and that names none".toList)
    (K.spendDomainOf domain)
  let signature ← expect (.protocol "could not sign the key-path spend".toList)
    (K.signRaw secretKey (K.keyPathSighash outputKey domain).toList (Bytes.beArr 32 0))
  return ⟨outputKey.toList ++ signature.toList, by simp⟩

/-- A verified `ck1` payload's note, and whether it was signed under a deprecated scheme. -/
structure NoteOwner where
  pubkeyXOnly : ByteArr 32
  legacy : Bool
  deriving DecidableEq

def Crates.legacyCk1Key (C : Crates) (signature : Bytes) : Option (ByteArr 32) := do
  let signature ← Bytes.toArr 65 signature
  let key ← C.recover (C.lightningSignedDigest legacyOwnershipMessage) (signature.toList.take 64) (signature.get 64)
  Bytes.toArr 32 (key.toList.drop 1)

def Crates.recoverNoteOwnershipPubkey (C : Crates) (payload : Bytes) (domain : Str) : Option NoteOwner :=
  if payload.length = 65 then (C.legacyCk1Key payload).map fun key => { pubkeyXOnly := key, legacy := true }
  else if payload.length ≠ 96 then none
  else do
    let key ← Bytes.toArr 32 (payload.take 32)
    let verifies (message : Bytes) : Bool := C.verifySchnorr key (payload.drop 32) message
    if (C.spendDomainOf domain).any fun domain => verifies (C.keyPathSighash key domain).toList then
      some { pubkeyXOnly := key, legacy := false }
    else if verifies C.legacyOwnershipDigest.toList || verifies (Str.utf8 legacyOwnershipMessage) then
      some { pubkeyXOnly := key, legacy := true }
    else none

/-- Hexadecimal text is no bech32m string whose prefix has a letter past `f`. -/
theorem bech32m_decode_of_hex {value : Str} {bytes : Bytes} (hrp : Str) (c : Char)
    (decoded : Hex.decode value = some bytes) (letter : c ∈ hrp) (notHex : Hex.isHexDigit c = false) :
    Bech32.decode bech32mResidue hrp value = none := by
  by_contra present
  obtain ⟨payload, found⟩ := Option.ne_none_iff_exists'.mp present
  obtain ⟨values, parsed⟩ := Bech32.parse_isSome_of_decode found
  obtain ⟨before, data, _, whole, _, rfl, _⟩ := Bech32.parse_eq_some parsed
  obtain ⟨d, member, rfl⟩ := List.mem_map.mp letter
  have digit := Hex.isHexDigit_of_decode decoded d (by rw [whole]; simp [member])
  rw [Hex.isHexDigit_toLower, digit] at notHex
  cases notHex

theorem decodeBytes_of_hex {value : Str} {bytes : Bytes} (hrp : Str) (c : Char)
    (decoded : Hex.decode value = some bytes) (letter : c ∈ hrp) (notHex : Hex.isHexDigit c = false) :
    decodeBytes hrp value = none := by
  rw [decodeBytes, Hex.trim_of_decode decoded, bech32m_decode_of_hex hrp c decoded letter notHex, ite_self]

theorem decodeBytes_of_decodeFixed {n : Nat} {hrp s : Str} {arr : ByteArr n} (decoded : decodeFixed n hrp s = some arr) :
    decodeBytes hrp s = some arr.toList := by
  obtain ⟨bytes, found, size⟩ := Option.bind_eq_some_iff.mp decoded
  rw [found, Bytes.toArr_eq_some.mp size]

end LnurlCash
