import LnurlCash.Lib.Text

namespace Hex

def digitValue (c : Char) : Option Nat :=
  if 48 ≤ c.toNat ∧ c.toNat ≤ 57 then some (c.toNat - 48)
  else if 97 ≤ c.toNat ∧ c.toNat ≤ 102 then some (c.toNat - 87)
  else if 65 ≤ c.toNat ∧ c.toNat ≤ 70 then some (c.toNat - 55)
  else none

def isHexDigit (c : Char) : Bool := (digitValue c).isSome

/-- Two digits a byte, either case; an odd digit or anything else is refused. -/
def decode : Str → Option (List UInt8)
  | [] => some []
  | [_] => none
  | high :: low :: rest => do
    let h ← digitValue high
    let l ← digitValue low
    let bytes ← decode rest
    some (UInt8.ofNat (16 * h + l) :: bytes)

def encode (bytes : List UInt8) : Str :=
  bytes.flatMap fun b => [Nat.digitChar (b.toNat / 16), Nat.digitChar (b.toNat % 16)]

theorem digitValue_toLower (c : Char) : digitValue c.toLower = digitValue c := by
  simp only [digitValue, Str.toNat_toLower]
  grind

theorem digitValue_digitChar {n : Nat} (small : n < 16) : digitValue (Nat.digitChar n) = some n := by
  revert n
  decide

theorem isHexDigit_toLower (c : Char) : isHexDigit c.toLower = isHexDigit c := by
  rw [isHexDigit, digitValue_toLower, isHexDigit]

theorem toNat_lt_of_isHexDigit {c : Char} (digit : isHexDigit c) : c.toNat < 128 := by
  simp only [isHexDigit, digitValue] at digit
  grind

theorem not_isWhitespace {c : Char} (digit : isHexDigit c) : Str.isWhitespace c = false := by
  have range : 48 ≤ c.toNat ∧ c.toNat ≤ 57 ∨ 97 ≤ c.toNat ∧ c.toNat ≤ 102 ∨ 65 ≤ c.toNat ∧ c.toNat ≤ 70 := by
    simp only [isHexDigit, digitValue] at digit
    grind
  simp only [Str.isWhitespace, decide_eq_false_iff_not]
  omega

theorem decode_lower (s : Str) : decode (Str.lower s) = decode s := by
  induction s using decode.induct with
  | case1 => rfl
  | case2 c => rfl
  | case3 high low rest ih =>
    simp only [Str.lower, List.map_cons, decode, digitValue_toLower] at ih ⊢
    rw [ih]

theorem decode_length {s : Str} {bytes : List UInt8} (decoded : decode s = some bytes) :
    s.length = 2 * bytes.length := by
  induction s using decode.induct generalizing bytes with
  | case1 => cases decoded; rfl
  | case2 c => simp [decode] at decoded
  | case3 high low rest ih =>
    simp only [decode, Option.bind_eq_bind, Option.bind_eq_some_iff, Option.some.injEq] at decoded
    obtain ⟨h, _, l, _, tail, rest', rfl⟩ := decoded
    simp only [List.length_cons, ih rest']
    omega

/-- What decodes is an even run of hexadecimal digits, and nothing else. -/
theorem decode_isSome_iff {s : Str} : (decode s).isSome ↔ s.length % 2 = 0 ∧ s.all isHexDigit := by
  induction s using decode.induct with
  | case1 => simp [decode]
  | case2 c => simp [decode]
  | case3 high low rest ih =>
    have parity : (high :: low :: rest).length % 2 = rest.length % 2 := by simp only [List.length_cons]; omega
    rw [parity]
    simp only [decode, List.all_cons, Bool.and_eq_true]
    cases hh : digitValue high <;> cases hl : digitValue low <;> simp [isHexDigit, hh, hl] at ih ⊢
    rw [← ih, Option.isSome_bind]
    cases decode rest <;> simp

theorem isHexDigit_of_decode {s : Str} {bytes : List UInt8} (decoded : decode s = some bytes) : ∀ c ∈ s, isHexDigit c :=
  List.all_eq_true.mp (decode_isSome_iff.mp (by rw [decoded]; rfl)).2

theorem trim_of_decode {s : Str} {bytes : List UInt8} (decoded : decode s = some bytes) : Str.trim s = s :=
  Str.trim_eq_self_of_forall fun c member => not_isWhitespace (isHexDigit_of_decode decoded c member)

theorem decode_encode (bytes : List UInt8) : decode (encode bytes) = some bytes := by
  induction bytes with
  | nil => rfl
  | cons b rest ih =>
    have bound := b.toNat_lt
    have tail : decode (rest.flatMap fun b => [Nat.digitChar (b.toNat / 16), Nat.digitChar (b.toNat % 16)]) =
      some rest := ih
    simp only [encode, List.flatMap_cons, List.cons_append, List.nil_append, decode,
      digitValue_digitChar (show b.toNat / 16 < 16 by omega), digitValue_digitChar (show b.toNat % 16 < 16 by omega),
      tail, Option.bind_eq_bind, Option.bind_some]
    rw [show 16 * (b.toNat / 16) + b.toNat % 16 = b.toNat by omega, UInt8.ofNat_toNat]

theorem encode_injective : Function.Injective encode := by
  intro a b equal
  have decoded := decode_encode a
  rw [equal, decode_encode] at decoded
  exact (Option.some.inj decoded).symm

@[simp] theorem length_encode (bytes : List UInt8) : (encode bytes).length = 2 * bytes.length :=
  decode_length (decode_encode bytes)

theorem isHexDigit_of_mem_encode {c : Char} {bytes : List UInt8} (member : c ∈ encode bytes) : isHexDigit c :=
  isHexDigit_of_decode (decode_encode bytes) c member

@[simp] theorem trim_encode (bytes : List UInt8) : Str.trim (encode bytes) = encode bytes :=
  trim_of_decode (decode_encode bytes)

theorem lower_encode (bytes : List UInt8) : Str.lower (encode bytes) = encode bytes := by
  have digit : ∀ n, n < 16 → (Nat.digitChar n).toLower = Nat.digitChar n := by decide
  induction bytes with
  | nil => rfl
  | cons b rest ih =>
    have bound := b.toNat_lt
    simp only [encode, List.flatMap_cons, Str.lower_append] at ih ⊢
    rw [ih]
    simp [Str.lower, digit (b.toNat / 16) (by omega), digit (b.toNat % 16) (by omega)]

end Hex
