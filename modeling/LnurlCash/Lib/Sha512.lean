import LnurlCash.Lib.Bytes

/-! SHA-512 on words held as `Nat` below `2 ^ 64`, and HMAC over any hash. -/

namespace Sha512

def modulus : Nat := 18446744073709551616

def rotateRight (n x : Nat) : Nat := (x >>> n) ||| ((x <<< (64 - n)) % modulus)

def roundConstants : List Nat := [
  0x428a2f98d728ae22, 0x7137449123ef65cd, 0xb5c0fbcfec4d3b2f, 0xe9b5dba58189dbbc,
  0x3956c25bf348b538, 0x59f111f1b605d019, 0x923f82a4af194f9b, 0xab1c5ed5da6d8118,
  0xd807aa98a3030242, 0x12835b0145706fbe, 0x243185be4ee4b28c, 0x550c7dc3d5ffb4e2,
  0x72be5d74f27b896f, 0x80deb1fe3b1696b1, 0x9bdc06a725c71235, 0xc19bf174cf692694,
  0xe49b69c19ef14ad2, 0xefbe4786384f25e3, 0x0fc19dc68b8cd5b5, 0x240ca1cc77ac9c65,
  0x2de92c6f592b0275, 0x4a7484aa6ea6e483, 0x5cb0a9dcbd41fbd4, 0x76f988da831153b5,
  0x983e5152ee66dfab, 0xa831c66d2db43210, 0xb00327c898fb213f, 0xbf597fc7beef0ee4,
  0xc6e00bf33da88fc2, 0xd5a79147930aa725, 0x06ca6351e003826f, 0x142929670a0e6e70,
  0x27b70a8546d22ffc, 0x2e1b21385c26c926, 0x4d2c6dfc5ac42aed, 0x53380d139d95b3df,
  0x650a73548baf63de, 0x766a0abb3c77b2a8, 0x81c2c92e47edaee6, 0x92722c851482353b,
  0xa2bfe8a14cf10364, 0xa81a664bbc423001, 0xc24b8b70d0f89791, 0xc76c51a30654be30,
  0xd192e819d6ef5218, 0xd69906245565a910, 0xf40e35855771202a, 0x106aa07032bbd1b8,
  0x19a4c116b8d2d0c8, 0x1e376c085141ab53, 0x2748774cdf8eeb99, 0x34b0bcb5e19b48a8,
  0x391c0cb3c5c95a63, 0x4ed8aa4ae3418acb, 0x5b9cca4f7763e373, 0x682e6ff3d6b2b8a3,
  0x748f82ee5defb2fc, 0x78a5636f43172f60, 0x84c87814a1f0ab72, 0x8cc702081a6439ec,
  0x90befffa23631e28, 0xa4506cebde82bde9, 0xbef9a3f7b2c67915, 0xc67178f2e372532b,
  0xca273eceea26619c, 0xd186b8c721c0c207, 0xeada7dd6cde0eb1e, 0xf57d4f7fee6ed178,
  0x06f067aa72176fba, 0x0a637dc5a2c898a6, 0x113f9804bef90dae, 0x1b710b35131c471b,
  0x28db77f523047d84, 0x32caab7b40c72493, 0x3c9ebe0a15c9bebc, 0x431d67c49c100d4c,
  0x4cc5d4becb3e42b6, 0x597f299cfc657e2a, 0x5fcb6fab3ad6faec, 0x6c44198c4a475817]

structure State where
  (a b c d e f g h : Nat)

def initial : State :=
  ⟨0x6a09e667f3bcc908, 0xbb67ae8584caa73b, 0x3c6ef372fe94f82b, 0xa54ff53a5f1d36f1,
    0x510e527fade682d1, 0x9b05688c2b3e6c1f, 0x1f83d9abfb41bd6b, 0x5be0cd19137e2179⟩

def State.add (s t : State) : State :=
  ⟨(s.a + t.a) % modulus, (s.b + t.b) % modulus, (s.c + t.c) % modulus, (s.d + t.d) % modulus,
    (s.e + t.e) % modulus, (s.f + t.f) % modulus, (s.g + t.g) % modulus, (s.h + t.h) % modulus⟩

/-- One round; `word` is the round's constant plus its schedule word. -/
def round (s : State) (word : Nat) : State :=
  let mixE := rotateRight 14 s.e ^^^ rotateRight 18 s.e ^^^ rotateRight 41 s.e
  let choice := (s.e &&& s.f) ^^^ ((modulus - 1 - s.e) &&& s.g)
  let t := s.h + mixE + choice + word
  let mixA := rotateRight 28 s.a ^^^ rotateRight 34 s.a ^^^ rotateRight 39 s.a
  let majority := (s.a &&& s.b) ^^^ (s.a &&& s.c) ^^^ (s.b &&& s.c)
  ⟨(t + mixA + majority) % modulus, s.a, s.b, s.c, (s.d + t) % modulus, s.e, s.f, s.g⟩

/-- The rounds over a window of sixteen schedule words, oldest first. -/
def rounds : List Nat → List Nat → State → State
  | [], _, s => s
  | k :: ks, [w₀, w₁, w₂, w₃, w₄, w₅, w₆, w₇, w₈, w₉, w₁₀, w₁₁, w₁₂, w₁₃, w₁₄, w₁₅], s =>
    let early := rotateRight 1 w₁ ^^^ rotateRight 8 w₁ ^^^ (w₁ >>> 7)
    let late := rotateRight 19 w₁₄ ^^^ rotateRight 61 w₁₄ ^^^ (w₁₄ >>> 6)
    let next := (w₀ + early + w₉ + late) % modulus
    rounds ks [w₁, w₂, w₃, w₄, w₅, w₆, w₇, w₈, w₉, w₁₀, w₁₁, w₁₂, w₁₃, w₁₄, w₁₅, next] (round s (k + w₀))
  | _, _, s => s

def words : Nat → Bytes → List Nat
  | 0, _ => []
  | count + 1, bytes => Bytes.beNat (bytes.take 8) :: words count (bytes.drop 8)

def blocks : Nat → Bytes → State → State
  | 0, _, s => s
  | count + 1, bytes, s =>
    blocks count (bytes.drop 128) (s.add (rounds roundConstants (words 16 (bytes.take 128)) s))

def padded (message : Bytes) : Bytes :=
  message ++ 0x80 :: List.replicate ((239 - message.length % 128) % 128) 0 ++ Bytes.be 16 (8 * message.length)

def hash (message : Bytes) : ByteArr 64 :=
  let s := blocks ((padded message).length / 128) (padded message) initial
  ⟨Bytes.be 8 s.a ++ Bytes.be 8 s.b ++ Bytes.be 8 s.c ++ Bytes.be 8 s.d ++
    Bytes.be 8 s.e ++ Bytes.be 8 s.f ++ Bytes.be 8 s.g ++ Bytes.be 8 s.h, by simp⟩

end Sha512

/-- HMAC over a hash whose block is `block` bytes. -/
def hmac {n : Nat} (block : Nat) (hash : Bytes → ByteArr n) (key message : Bytes) : ByteArr n :=
  let short := if key.length > block then (hash key).toList else key
  let padded := short ++ List.replicate (block - short.length) 0
  hash (padded.map (· ^^^ 0x5c) ++ (hash (padded.map (· ^^^ 0x36) ++ message)).toList)
