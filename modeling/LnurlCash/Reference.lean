import LnurlCash.Lib.PlainUrl
import LnurlCash.Lib.Secp256k1
import LnurlCash.Lib.Sha256
import LnurlCash.Lib.Sha512
import LnurlCash.Crates
import Mathlib.Data.List.Dedup

namespace LnurlCash

/-- The crates, computed: SHA-256 and secp256k1 in full, and the plain URLs. -/
def reference : Crates where
  url := {
    Url := PlainUrl
    parse := PlainUrl.parse
    scheme := PlainUrl.scheme
    hostStr := fun url => some url.host
    queryPairs := PlainUrl.queryPairs
    clearQuery := fun url => { url with query := none }
    appendPairs := PlainUrl.appendPairs
    toText := PlainUrl.toText }
  sha256 := Sha256.hash
  isXOnlyKey key := (Secp256k1.liftX (Bytes.beNat key.toList) false).isSome
  addTweak := Secp256k1.addTweak
  recoverEcdsa := Secp256k1.recoverEcdsa
  verifySchnorr := Secp256k1.verifySchnorr Sha256.hash

/-- The key operations, computed as well; lowercasing covers ASCII only. -/
def referenceKeys : KeyCrates where
  toCrates := reference
  hmacSha256 := hmac 64 Sha256.hash
  hmacSha512 := hmac 128 Sha512.hash
  isSecretKey := Secp256k1.isSecretKey
  publicKeyOf := Secp256k1.publicKey
  addSecretTweak := Secp256k1.addSecretTweak
  isPublicKey pubkey := (Secp256k1.parsePublicKey pubkey).isSome
  addExpTweak := Secp256k1.addExpTweak
  signingKey key := if Secp256k1.isSecretKey key then some (Secp256k1.publicKey key).tail else none
  signRaw := Secp256k1.signSchnorr Sha256.hash
  toLowercase := Str.lower

/-- Distinct digests rule out a collision, and are found by computing them. -/
theorem Crates.CollisionFree.of_nodup {C : Crates} {messages : List Bytes}
    (distinct : (messages.dedup.map fun m => (C.sha256 m).toList).Nodup) : C.CollisionFree messages := by
  intro a memberA b memberB equal
  exact List.inj_on_of_nodup_map distinct (List.mem_dedup.mpr memberA) (List.mem_dedup.mpr memberB)
    (congrArg ByteArr.toList equal)

end LnurlCash
