import LnurlCash.Lib.Text
import LnurlCash.Lib.Bytes
import Mathlib.Data.Set.Function

namespace LnurlCash

/-- What the source uses of the `url` crate. A parsed URL is whatever the
crate makes of it; only these readings of one are ever taken. -/
structure UrlCrate where
  Url : Type
  parse : Str → Option Url
  scheme : Url → Str
  hostStr : Url → Option Str
  /-- `query_pairs()`, percent-decoded, in order -/
  queryPairs : Url → List (Str × Str)
  /-- `set_query(None)` -/
  clearQuery : Url → Url
  /-- `query_pairs_mut()` with one `append_pair` for each pair, in order -/
  appendPairs : Url → List (Str × Str) → Url
  toText : Url → Str

/-- The crates the source calls, as parameters: `url`, `sha2`, and the curve
operations of `secp256k1` and `k256`. -/
structure Crates where
  url : UrlCrate
  sha256 : Bytes → ByteArr 32
  /-- `XOnlyPublicKey::from_byte_array(..).is_ok()` -/
  isXOnlyKey : ByteArr 32 → Bool
  /-- `XOnlyPublicKey::add_tweak` of a scalar: the x coordinate and whether y is odd -/
  addTweak : ByteArr 32 → ByteArr 32 → Option (ByteArr 32 × Bool)
  /-- `RecoverableSignature::from_compact` of 64 bytes and a recovery id, then
  `recover_ecdsa` over a digest, as a compressed point -/
  recoverEcdsa : ByteArr 32 → Bytes → Fin 4 → Option (ByteArr 33)
  /-- k256's BIP-340 `verify_raw` of a 64-byte signature by an x-only key over
  a message; `false` when the key or the signature does not parse -/
  verifySchnorr : ByteArr 32 → Bytes → Bytes → Bool

/-- The same crates with `hmac` and the operations on secret keys and full
public keys, which only wallets and share derivation use. -/
structure KeyCrates extends Crates where
  hmacSha256 : Bytes → Bytes → ByteArr 32
  hmacSha512 : Bytes → Bytes → ByteArr 64
  /-- `SecretKey::from_secret_bytes(..).is_ok()` -/
  isSecretKey : ByteArr 32 → Bool
  /-- `PublicKey::from_secret_key(..).serialize()` of a valid secret key -/
  publicKeyOf : ByteArr 32 → ByteArr 33
  /-- `SecretKey::add_tweak` of a scalar to a valid secret key -/
  addSecretTweak : ByteArr 32 → ByteArr 32 → Option (ByteArr 32)
  /-- `PublicKey::from_byte_array_compressed(..).is_ok()` -/
  isPublicKey : ByteArr 33 → Bool
  /-- `PublicKey::add_exp_tweak` of a scalar to a valid key, serialized -/
  addExpTweak : ByteArr 33 → ByteArr 32 → Option (ByteArr 33)
  /-- k256's `SigningKey::from_slice`, and the x-only key it verifies under -/
  signingKey : ByteArr 32 → Option (ByteArr 32)
  /-- `sign_raw` of a message by a valid signing key, with its auxiliary bytes -/
  signRaw : ByteArr 32 → Bytes → ByteArr 32 → Option (ByteArr 64)
  /-- `str::to_lowercase`, over all of Unicode -/
  toLowercase : Str → Str

def curveOrder : Nat := 0xfffffffffffffffffffffffffffffffebaaedce6af48a03bbfd25e8cd0364141

instance : NeZero curveOrder := ⟨by decide⟩

theorem beNat_beArr_of_lt {m : Nat} (small : m < curveOrder) : Bytes.beNat (Bytes.beArr 32 m).toList = m := by
  have room : curveOrder < 256 ^ 32 := by decide
  exact Bytes.beNat_be (by omega)

/-- No two of these messages have the same SHA-256. For a hash with 32-byte
digests this is asked of listed messages only, never of all byte strings. -/
def Crates.CollisionFree (C : Crates) (messages : List Bytes) : Prop := Set.InjOn C.sha256 {m | m ∈ messages}

theorem Crates.CollisionFree.mono {C : Crates} {fewer more : List Bytes} (free : C.CollisionFree more)
    (within : fewer ⊆ more) : C.CollisionFree fewer := Set.InjOn.mono (fun _ member => within member) free

end LnurlCash
