import LnurlCash.Lib.Bytes

/-! The curve `y² = x³ + 7` over the field of `p` elements, on coordinates held as `Nat`. -/

namespace Secp256k1

def p : Nat := 0xfffffffffffffffffffffffffffffffffffffffffffffffffffffffefffffc2f

def n : Nat := 0xfffffffffffffffffffffffffffffffebaaedce6af48a03bbfd25e8cd0364141

/-- `acc * b ^ e` modulo `m`, for an exponent of at most `fuel` bits. -/
def powMod (m : Nat) : (fuel : Nat) → (b e acc : Nat) → Nat
  | 0, _, _, acc => acc
  | fuel + 1, b, e, acc => powMod m fuel (b * b % m) (e / 2) (if e % 2 = 1 then acc * b % m else acc)

def inverse (m a : Nat) : Nat := powMod m 256 a (m - 2) 1

def sub (a b : Nat) : Nat := (a + (p - b)) % p

/-- A point in Jacobian coordinates; `z` is zero at infinity. -/
structure Point where
  (x y z : Nat)

def infinity : Point := ⟨1, 1, 0⟩

def generator : Point where
  x := 0x79be667ef9dcbbac55a06295ce870b07029bfcdb2dce28d959f2815b16f81798
  y := 0x483ada7726a3c4655da4fbfc0e1108a8fd17b448a68554199c47d08ffb10d4b8
  z := 1

def Point.double (P : Point) : Point :=
  let a := P.x * P.x % p
  let b := P.y * P.y % p
  let c := b * b % p
  let d := 2 * sub (sub ((P.x + b) * (P.x + b) % p) a) c % p
  let e := 3 * a % p
  let x := sub (e * e % p) (2 * d % p)
  ⟨x, sub (e * sub d x % p) (8 * c % p), 2 * P.y * P.z % p⟩

def Point.add (P Q : Point) : Point :=
  if P.z = 0 then Q
  else if Q.z = 0 then P
  else
    let zz := P.z * P.z % p
    let ww := Q.z * Q.z % p
    let u := P.x * ww % p
    let v := Q.x * zz % p
    let s := P.y * (Q.z * ww % p) % p
    let t := Q.y * (P.z * zz % p) % p
    if u = v then if s = t then P.double else infinity
    else
      let h := sub v u
      let r := sub t s
      let hh := h * h % p
      let hhh := h * hh % p
      let x := sub (sub (r * r % p) hhh) (2 * (u * hh % p) % p)
      ⟨x, sub (r * sub (u * hh % p) x % p) (s * hhh % p), h * (P.z * Q.z % p) % p⟩

def Point.neg (P : Point) : Point := { P with y := sub 0 P.y }

/-- The multiple of a point by a scalar of at most `fuel` bits. -/
def Point.mulBits : (fuel : Nat) → (k : Nat) → Point → Point
  | 0, _, _ => infinity
  | fuel + 1, k, P =>
    let half := (P.mulBits fuel (k / 2)).double
    if k % 2 = 1 then half.add P else half

def Point.mul (k : Nat) (P : Point) : Point := P.mulBits 256 k

def Point.affine (P : Point) : Option (Nat × Nat) :=
  if P.z = 0 then none
  else
    let i := inverse p P.z
    some (P.x * (i * i % p) % p, P.y * (i * (i * i % p) % p) % p)

/-- The point with this x coordinate and y of this parity. -/
def liftX (x : Nat) (odd : Bool) : Option Point :=
  let square := (x * x % p * x + 7) % p
  let y := powMod p 256 square ((p + 1) / 4) 1
  if p ≤ x ∨ y * y % p ≠ square then none
  else some ⟨x, if decide (y % 2 = 1) = odd then y else p - y, 1⟩

def taggedHash (hash : Bytes → ByteArr 32) (tag message : Bytes) : ByteArr 32 :=
  hash ((hash tag).toList ++ (hash tag).toList ++ message)

def addTweak (key tweak : ByteArr 32) : Option (ByteArr 32 × Bool) := do
  let P ← liftX (Bytes.beNat key.toList) false
  let (x, y) ← (P.add (generator.mul (Bytes.beNat tweak.toList))).affine
  some (Bytes.beArr 32 x, decide (y % 2 = 1))

/-- The compressed key a compact signature and recovery id recover to over a digest. -/
def recoverEcdsa (digest : ByteArr 32) (compact : Bytes) (id : Fin 4) : Option (ByteArr 33) := do
  let r := Bytes.beNat (compact.take 32)
  let s := Bytes.beNat (compact.drop 32)
  if compact.length ≠ 64 ∨ r = 0 ∨ s = 0 ∨ n ≤ r ∨ n ≤ s then none
  else
    let R ← liftX (if id.val / 2 = 1 then r + n else r) (decide (id.val % 2 = 1))
    let i := inverse n r
    let z := Bytes.beNat digest.toList % n
    let (x, y) ← ((R.mul (i * s % n)).add (generator.mul (i * (n - z) % n))).affine
    some ⟨(if y % 2 = 1 then 3 else 2) :: Bytes.be 32 x, by simp⟩

def verifySchnorr (hash : Bytes → ByteArr 32) (key : ByteArr 32) (signature message : Bytes) : Bool :=
  let r := Bytes.beNat (signature.take 32)
  let s := Bytes.beNat (signature.drop 32)
  match liftX (Bytes.beNat key.toList) false with
  | none => false
  | some P =>
    if signature.length ≠ 64 ∨ p ≤ r ∨ n ≤ s ∨ s = 0 then false
    else
      let challenge := taggedHash hash "BIP0340/challenge".toUTF8.toList (signature.take 32 ++ key.toList ++ message)
      let e := Bytes.beNat challenge.toList % n
      match ((generator.mul s).add (P.neg.mul e)).affine with
      | none => false
      | some (x, y) => decide (x = r) && decide (y % 2 = 0)

/-! ### Keys -/

def compress (x y : Nat) : ByteArr 33 := ⟨(if y % 2 = 1 then 3 else 2) :: Bytes.be 32 x, by simp⟩

def isSecretKey (key : ByteArr 32) : Bool := decide (0 < Bytes.beNat key.toList ∧ Bytes.beNat key.toList < n)

def publicKey (key : ByteArr 32) : ByteArr 33 :=
  match (generator.mul (Bytes.beNat key.toList)).affine with
  | some (x, y) => compress x y
  | none => compress 0 0

def addSecretTweak (key tweak : ByteArr 32) : Option (ByteArr 32) :=
  let sum := (Bytes.beNat key.toList + Bytes.beNat tweak.toList) % n
  if sum = 0 then none else some (Bytes.beArr 32 sum)

def parsePublicKey (pubkey : ByteArr 33) : Option Point :=
  if pubkey.get 0 = 2 ∨ pubkey.get 0 = 3 then liftX (Bytes.beNat (pubkey.toList.drop 1)) (decide (pubkey.get 0 = 3))
  else none

def addExpTweak (pubkey : ByteArr 33) (tweak : ByteArr 32) : Option (ByteArr 33) := do
  let P ← parsePublicKey pubkey
  let (x, y) ← (P.add (generator.mul (Bytes.beNat tweak.toList))).affine
  some (compress x y)

/-- The scalar below `n` whose point has even y and x coordinate `x`, given one of its two. -/
def evenSecret (d y : Nat) : Nat := if y % 2 = 1 then n - d else d

/-- BIP-340 signing, without its check of what it made. -/
def signSchnorr (hash : Bytes → ByteArr 32) (key : ByteArr 32) (message : Bytes) (aux : ByteArr 32) :
    Option (ByteArr 64) := do
  let secret := Bytes.beNat key.toList
  let (px, py) ← (generator.mul secret).affine
  let d := evenSecret secret py
  let mask := taggedHash hash "BIP0340/aux".toUTF8.toList aux.toList
  let t := Bytes.be 32 (d ^^^ Bytes.beNat mask.toList)
  let k := Bytes.beNat (taggedHash hash "BIP0340/nonce".toUTF8.toList (t ++ Bytes.be 32 px ++ message)).toList % n
  let (rx, ry) ← (generator.mul k).affine
  let challenge := taggedHash hash "BIP0340/challenge".toUTF8.toList (Bytes.be 32 rx ++ Bytes.be 32 px ++ message)
  let s := (evenSecret k ry + Bytes.beNat challenge.toList % n * d) % n
  some ⟨Bytes.be 32 rx ++ Bytes.be 32 s, by simp⟩

end Secp256k1
