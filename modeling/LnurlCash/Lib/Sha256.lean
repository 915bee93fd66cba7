import LnurlCash.Lib.Bytes

/-! SHA-256 on words held as `Nat` below `2 ^ 32`, which the kernel computes with. -/

namespace Sha256

def modulus : Nat := 4294967296

def rotateRight (n x : Nat) : Nat := (x >>> n) ||| ((x <<< (32 - n)) % modulus)

def roundConstants : List Nat := [
  0x428a2f98, 0x71374491, 0xb5c0fbcf, 0xe9b5dba5, 0x3956c25b, 0x59f111f1, 0x923f82a4, 0xab1c5ed5,
  0xd807aa98, 0x12835b01, 0x243185be, 0x550c7dc3, 0x72be5d74, 0x80deb1fe, 0x9bdc06a7, 0xc19bf174,
  0xe49b69c1, 0xefbe4786, 0x0fc19dc6, 0x240ca1cc, 0x2de92c6f, 0x4a7484aa, 0x5cb0a9dc, 0x76f988da,
  0x983e5152, 0xa831c66d, 0xb00327c8, 0xbf597fc7, 0xc6e00bf3, 0xd5a79147, 0x06ca6351, 0x14292967,
  0x27b70a85, 0x2e1b2138, 0x4d2c6dfc, 0x53380d13, 0x650a7354, 0x766a0abb, 0x81c2c92e, 0x92722c85,
  0xa2bfe8a1, 0xa81a664b, 0xc24b8b70, 0xc76c51a3, 0xd192e819, 0xd6990624, 0xf40e3585, 0x106aa070,
  0x19a4c116, 0x1e376c08, 0x2748774c, 0x34b0bcb5, 0x391c0cb3, 0x4ed8aa4a, 0x5b9cca4f, 0x682e6ff3,
  0x748f82ee, 0x78a5636f, 0x84c87814, 0x8cc70208, 0x90befffa, 0xa4506ceb, 0xbef9a3f7, 0xc67178f2]

structure State where
  (a b c d e f g h : Nat)

def initial : State :=
  ⟨0x6a09e667, 0xbb67ae85, 0x3c6ef372, 0xa54ff53a, 0x510e527f, 0x9b05688c, 0x1f83d9ab, 0x5be0cd19⟩

def State.add (s t : State) : State :=
  ⟨(s.a + t.a) % modulus, (s.b + t.b) % modulus, (s.c + t.c) % modulus, (s.d + t.d) % modulus,
    (s.e + t.e) % modulus, (s.f + t.f) % modulus, (s.g + t.g) % modulus, (s.h + t.h) % modulus⟩

/-- One round; `word` is the round's constant plus its schedule word. -/
def round (s : State) (word : Nat) : State :=
  let mixE := rotateRight 6 s.e ^^^ rotateRight 11 s.e ^^^ rotateRight 25 s.e
  let choice := (s.e &&& s.f) ^^^ ((modulus - 1 - s.e) &&& s.g)
  let t := s.h + mixE + choice + word
  let mixA := rotateRight 2 s.a ^^^ rotateRight 13 s.a ^^^ rotateRight 22 s.a
  let majority := (s.a &&& s.b) ^^^ (s.a &&& s.c) ^^^ (s.b &&& s.c)
  ⟨(t + mixA + majority) % modulus, s.a, s.b, s.c, (s.d + t) % modulus, s.e, s.f, s.g⟩

/-- The rounds over a window of sixteen schedule words, oldest first. -/
def rounds : List Nat → List Nat → State → State
  | [], _, s => s
  | k :: ks, [w₀, w₁, w₂, w₃, w₄, w₅, w₆, w₇, w₈, w₉, w₁₀, w₁₁, w₁₂, w₁₃, w₁₄, w₁₅], s =>
    let early := rotateRight 7 w₁ ^^^ rotateRight 18 w₁ ^^^ (w₁ >>> 3)
    let late := rotateRight 17 w₁₄ ^^^ rotateRight 19 w₁₄ ^^^ (w₁₄ >>> 10)
    let next := (w₀ + early + w₉ + late) % modulus
    rounds ks [w₁, w₂, w₃, w₄, w₅, w₆, w₇, w₈, w₉, w₁₀, w₁₁, w₁₂, w₁₃, w₁₄, w₁₅, next] (round s (k + w₀))
  | _, _, s => s

def words : Nat → Bytes → List Nat
  | 0, _ => []
  | count + 1, bytes => Bytes.beNat (bytes.take 4) :: words count (bytes.drop 4)

def blocks : Nat → Bytes → State → State
  | 0, _, s => s
  | count + 1, bytes, s =>
    blocks count (bytes.drop 64) (s.add (rounds roundConstants (words 16 (bytes.take 64)) s))

def padded (message : Bytes) : Bytes :=
  message ++ 0x80 :: List.replicate ((119 - message.length % 64) % 64) 0 ++ Bytes.be 8 (8 * message.length)

def hash (message : Bytes) : ByteArr 32 :=
  let s := blocks ((padded message).length / 64) (padded message) initial
  ⟨Bytes.be 4 s.a ++ Bytes.be 4 s.b ++ Bytes.be 4 s.c ++ Bytes.be 4 s.d ++
    Bytes.be 4 s.e ++ Bytes.be 4 s.f ++ Bytes.be 4 s.g ++ Bytes.be 4 s.h, by simp⟩

end Sha256
