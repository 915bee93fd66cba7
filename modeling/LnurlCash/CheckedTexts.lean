import LnurlCash.Lib.ByteOffsets
import LnurlCash.Bolt11
import LnurlCash.Signature

/-! The functions that cut texts, each cut a checked one at the offset the source takes. -/

namespace LnurlCash.Sliced

open Checked

def fromLud17 (url : Str) : Checked Str :=
  match lud17Schemes.find? (·.isPrefixOf (Str.lower url)) with
  | none => pure url
  | some pre => do
    let rest ← textFrom url (Str.byteLen pre)
    let host := Str.before ':' (Str.before '/' rest)
    let scheme := if isInsecureHost (Str.lower host) then "http".toList else "https".toList
    pure (scheme ++ "://".toList ++ rest)

def expandLink (trimmed : Str) : Checked Str :=
  if isBech32Lnurl trimmed then ask (fromBech32Lnurl trimmed) else fromLud17 trimmed

def spendDomainOf (C : Crates) (value : Str) : Checked Str := do
  let expanded ← expandLink (Str.trim value)
  let candidate := if Str.contains expanded "://".toList then expanded else "https://".toList ++ expanded
  let url ← ask (C.url.parse candidate)
  let host ← ask (C.url.hostStr url)
  if Str.lower host ≠ [] then pure (Str.lower host) else failure

def resolveLnurlInput (C : Crates) (value : Str) : Checked Str :=
  let trimmed := Str.trim value
  if trimmed = [] then failure
  else if isBech32Lnurl trimmed then do
    let url ← ask (fromBech32Lnurl trimmed)
    if C.isAllowedServiceUrl url then pure url else failure
  else
    let lowered := Str.lower trimmed
    if lud17Schemes.any (·.isPrefixOf lowered) then do
      let url ← fromLud17 trimmed
      if C.isAllowedServiceUrl url then pure url else failure
    else if isLightningAddress trimmed || isLoopbackLightningAddress trimmed then ask (lnAddressToUrl trimmed)
    else if "http://".toList.isPrefixOf lowered || "https://".toList.isPrefixOf lowered then
      if C.isAllowedServiceUrl trimmed then pure trimmed else failure
    else failure

/-- A unit's text without the last of its bytes. -/
def cutUnit (value : Str) (unit : Char) : Checked (Str × Char) := do
  let last ← sub (Str.byteLen value) 1
  let digits ← textTo value last
  pure (digits, unit)

/-- The unit is found by the last byte, as `as_bytes().last()` gives it. -/
def splitUnit (value : Str) : Checked (Str × Char) :=
  match (Str.utf8 value).getLast? with
  | some 0x6d => cutUnit value 'm'
  | some 0x75 => cutUnit value 'u'
  | some 0x6e => cutUnit value 'n'
  | some 0x70 => cutUnit value 'p'
  | _ => pure (value, '\x00')

/-- The digits in a unit's terms; the last arm is the source's `unreachable!`. -/
def scaled (n : Nat) (unit : Char) : Checked Nat :=
  if unit = '\x00' then ask (checkedMul n 100000000000)
  else if unit = 'm' then ask (checkedMul n 100000000)
  else if unit = 'u' then ask (checkedMul n 100000)
  else if unit = 'n' then ask (checkedMul n 100)
  else if unit = 'p' then if n % 10 = 0 then pure (n / 10) else failure
  else panic .unreachable

def decodeAmountSuffix (value : Str) : Checked UInt64 := do
  let (digits, unit) ← splitUnit value
  let n ← ask (Str.parseDigits (2 ^ 128) digits)
  let amount ← scaled n unit
  if amount < 2 ^ 64 then pure (UInt64.ofNat amount) else failure

def decodeCs1WithAmount (value : Str) : Checked Cs1 := do
  let trimmed := Str.trim value
  let separator ← ask (Str.rfind '1' trimmed)
  let before ← textTo trimmed separator
  let hrp := Str.lower before
  let suffix ← ask (Str.stripPrefix "cs".toList hrp)
  let amountMsat ← decodeAmountSuffix suffix
  let signature ← ask (decodeFixed 65 hrp trimmed)
  let recovery ← index signature.toList 64
  if recovery > 3 then failure else pure { amountMsat, signature }

def decodeAnyCs1Bytes (value : Str) : Checked Bytes :=
  match decodeCs1 value with
  | some signature => pure signature.toList
  | none => do
    let separator ← ask (Str.rfind '1' value)
    let before ← textTo value separator
    let hrp := Str.lower before
    let _ ← ask (Str.stripPrefix "cs".toList hrp)
    ask (Bech32.decode bech32mResidue hrp value)

def splitAtSeparator (lowered : Str) : Checked (Str × Str) := do
  let separator ← ask (Str.rfind '1' lowered)
  if separator < 2 then failure
  else
    let hrp ← textTo lowered separator
    let data ← textFrom lowered (separator + 1)
    pure (hrp, data)

def parseHrp (hrp : Str) : Checked (Option UInt64 × Str) := do
  let rest ← ask (stripNetworkPrefix hrp)
  let digitsEnd ← sub (Str.byteLen rest) (Str.byteLen (rest.dropWhile Char.isDigit))
  let (digits, multiplier) ← splitAt rest digitsEnd
  if !bolt11Multipliers.contains multiplier then failure
  else if digits = [] then pure (none, multiplier)
  else
    let amount ← ask (Str.parseDigits (2 ^ 64) digits)
    pure (some (UInt64.ofNat amount), multiplier)

def decodeBolt11AmountMsat (pr : Str) : Checked UInt64 := do
  let (hrp, _) ← splitAtSeparator (Str.lower (Str.trim pr))
  let (amount, multiplier) ← parseHrp hrp
  let value ← ask amount
  ask (bolt11Msat value multiplier)

/-! ### Links -/

/-- A scheme found in the lowercased text is as many bytes of the text itself. -/
theorem byteLen_take_of_lower {pre url : Str} (found : pre <+: Str.lower url) :
    Str.byteLen (url.take pre.length) = Str.byteLen pre := by
  have lowered : Str.lower (url.take pre.length) = pre := by
    rw [Str.lower, List.map_take]
    exact List.prefix_iff_eq_take.mp found |>.symm
  rw [← Str.byteLen_lower, lowered]

theorem returns_fromLud17 (url : Str) : Returns (fromLud17 url) (some (LnurlCash.fromLud17 url)) := by
  rw [fromLud17, LnurlCash.fromLud17]
  cases found : lud17Schemes.find? (·.isPrefixOf (Str.lower url)) with
  | none => exact returns_pure url
  | some pre =>
    have holds : pre.isPrefixOf (Str.lower url) = true := by simpa only using List.find?_some found
    have scheme : pre <+: Str.lower url := List.isPrefixOf_iff_prefix.mp holds
    have rest := returns_textFrom (url.take pre.length) (url.drop pre.length)
    rw [List.take_append_drop, byteLen_take_of_lower scheme] at rest
    exact rest.andThen (returns_pure _)

theorem returns_expandLink (trimmed : Str) : Returns (expandLink trimmed) (LnurlCash.expandLink trimmed) :=
  returns_ite (fun _ => returns_ask _) (fun _ => returns_fromLud17 trimmed)

theorem returns_spendDomainOf (C : Crates) (value : Str) : Returns (spendDomainOf C value) (C.spendDomainOf value) := by
  refine (returns_expandLink (Str.trim value)).bind fun expanded _ => ?_
  refine (returns_ask _).bind fun url _ => ?_
  refine (returns_ask _).bind fun host _ => ?_
  exact returns_ite (fun _ => returns_pure _) (fun _ => returns_failure)

theorem returns_resolveLnurlInput (C : Crates) (value : Str) :
    Returns (resolveLnurlInput C value) (C.resolveLnurlInput value) := by
  rw [resolveLnurlInput, Crates.resolveLnurlInput]
  refine returns_ite (fun _ => returns_failure) fun _ => ?_
  refine returns_ite (fun _ => ?_) fun _ => ?_
  · refine (returns_ask _).bind fun url _ => ?_
    exact returns_ite (fun _ => returns_pure _) (fun _ => returns_failure)
  · refine returns_ite (fun _ => ?_) fun _ => ?_
    · refine (returns_fromLud17 _).andThen ?_
      exact returns_ite (fun _ => returns_pure _) (fun _ => returns_failure)
    · refine returns_ite (fun _ => returns_ask _) fun _ => ?_
      refine returns_ite (fun _ => ?_) (fun _ => returns_failure)
      exact returns_ite (fun _ => returns_pure _) (fun _ => returns_failure)

/-! ### Amounts -/

/-- The text before a last character of one byte. -/
theorem returns_cutUnit (front : Str) {unit : Char} (single : unit.utf8Size = 1) :
    Returns (cutUnit (front ++ [unit]) unit) (some (front, unit)) := by
  have size : Str.byteLen (front ++ [unit]) - 1 = Str.byteLen front := by
    rw [Str.byteLen_append, Str.byteLen_cons, single]
    exact Nat.add_sub_cancel _ _
  have positive : 1 ≤ Str.byteLen (front ++ [unit]) := by
    rw [Str.byteLen_append, Str.byteLen_cons, single]
    omega
  have last := returns_sub positive
  rw [size] at last
  refine last.andThen ?_
  refine (returns_textTo front [unit]).andThen ?_
  exact returns_pure _

def units : List Char := ['m', 'u', 'n', 'p']

/-- What a unit's text is without it, and the unit: a zero character for none. -/
def unitOf (value : Str) : Str × Char :=
  match value.getLast?.filter (· ∈ units) with
  | some unit => (value.dropLast, unit)
  | none => (value, '\x00')

theorem ascii_of_mem_units {unit : Char} (member : unit ∈ units) : unit.toNat < 128 ∧ unit.utf8Size = 1 := by
  simp only [units, List.mem_cons, List.not_mem_nil, or_false] at member
  rcases member with rfl | rfl | rfl | rfl <;> decide

theorem unitOf_of_getLast? {value : Str} {unit : Char} (last : value.getLast? = some unit) (member : unit ∈ units) :
    unitOf value = (value.dropLast, unit) := by
  rw [unitOf, last, Option.filter_some, if_pos (decide_eq_true member)]

theorem returns_splitUnit (value : Str) : Returns (splitUnit value) (some (unitOf value)) := by
  have cut : ∀ unit ∈ units, (Str.utf8 value).getLast? = some (UInt8.ofNat unit.toNat) →
      Returns (cutUnit value unit) (some (unitOf value)) := by
    intro unit member byte
    have last : value.getLast? = some unit := (Str.getLast?_utf8 (ascii_of_mem_units member).1 value).mp byte
    have whole : value.dropLast ++ [unit] = value := List.dropLast_append_getLast? unit last
    have returned := returns_cutUnit value.dropLast (ascii_of_mem_units member).2
    rwa [whole, ← unitOf_of_getLast? last member] at returned
  rw [splitUnit]
  split
  case h_1 byte => exact cut 'm' (by decide) byte
  case h_2 byte => exact cut 'u' (by decide) byte
  case h_3 byte => exact cut 'n' (by decide) byte
  case h_4 byte => exact cut 'p' (by decide) byte
  case h_5 notM notU notN notP =>
    have none : value.getLast?.filter (· ∈ units) = none := by
      rw [Option.filter_eq_none_iff]
      intro unit last member
      have unitMem : unit ∈ units := of_decide_eq_true member
      have byte := (Str.getLast?_utf8 (ascii_of_mem_units unitMem).1 value).mpr last
      simp only [units, List.mem_cons, List.not_mem_nil, or_false] at unitMem
      rcases unitMem with rfl | rfl | rfl | rfl
      · exact notM byte
      · exact notU byte
      · exact notN byte
      · exact notP byte
    rw [unitOf, none]
    exact returns_pure _

theorem returns_scaled_pico (n : Nat) : Returns (scaled n 'p') (if n % 10 = 0 then some (n / 10) else none) := by
  rw [scaled, if_neg (by decide), if_neg (by decide), if_neg (by decide), if_neg (by decide), if_pos rfl]
  exact returns_ite (fun _ => returns_pure _) (fun _ => returns_failure)

/-- Once the unit is known, the rest is the digits' value in its terms. -/
theorem returns_amount {value digits : Str} {unit : Char} {product : Nat → Option Nat}
    (cut : unitOf value = (digits, unit)) (scale : ∀ n, Returns (scaled n unit) (product n)) :
    Returns (decodeAmountSuffix value) ((Str.parseDigits (2 ^ 128) digits).bind fun n =>
      (product n).bind fun amount => if amount < 2 ^ 64 then some (UInt64.ofNat amount) else none) := by
  have split := returns_splitUnit value
  rw [cut] at split
  refine split.andThen ?_
  refine (returns_ask _).bind fun n _ => ?_
  refine (scale n).bind fun amount _ => ?_
  exact returns_ite (fun _ => returns_pure _) (fun _ => returns_failure)

theorem returns_decodeAmountSuffix (value : Str) :
    Returns (decodeAmountSuffix value) (LnurlCash.decodeAmountSuffix value) := by
  cases found : value.getLast?.filter (· ∈ units) with
  | none =>
    have cut : unitOf value = (value, '\x00') := by rw [unitOf, found]
    rw [LnurlCash.decodeAmountSuffix, show ['m', 'u', 'n', 'p'] = units from rfl, found]
    exact returns_amount cut fun n => returns_ask _
  | some unit =>
    obtain ⟨last, member⟩ := Option.filter_eq_some_iff.mp found
    have unitMem : unit ∈ units := of_decide_eq_true member
    have cut := unitOf_of_getLast? last unitMem
    rw [LnurlCash.decodeAmountSuffix, show ['m', 'u', 'n', 'p'] = units from rfl, found]
    simp only [units, List.mem_cons, List.not_mem_nil, or_false] at unitMem
    rcases unitMem with rfl | rfl | rfl | rfl
    · exact returns_amount cut fun n => returns_ask _
    · exact returns_amount cut fun n => returns_ask _
    · exact returns_amount cut fun n => returns_ask _
    · have returned := returns_amount cut returns_scaled_pico
      simp only [apply_ite (Option.bind · fun amount => if amount < 2 ^ 64 then some (UInt64.ofNat amount) else none)]
        at returned
      exact returned

/-! ### Separators -/

theorem returns_decodeCs1WithAmount (value : Str) :
    Returns (decodeCs1WithAmount value) (LnurlCash.decodeCs1WithAmount value) := by
  rw [decodeCs1WithAmount, LnurlCash.decodeCs1WithAmount]
  refine returns_at_separator fun parts found => ?_
  refine (returns_cut found).1.andThen ?_
  refine (returns_ask _).bind fun suffix _ => ?_
  refine (returns_decodeAmountSuffix suffix).bind fun amountMsat _ => ?_
  refine (returns_ask _).bind fun signature _ => ?_
  refine (returns_get signature (by omega : 64 < 65)).andThen ?_
  exact returns_ite (fun _ => returns_failure) (fun _ => returns_pure _)

theorem returns_decodeAnyCs1Bytes (value : Str) :
    Returns (decodeAnyCs1Bytes value) (LnurlCash.decodeAnyCs1Bytes value) := by
  rw [decodeAnyCs1Bytes, LnurlCash.decodeAnyCs1Bytes]
  cases decodeCs1 value with
  | some signature => exact returns_pure _
  | none =>
    refine returns_at_separator fun parts found => ?_
    refine (returns_cut found).1.andThen ?_
    exact (returns_ask _).bind fun _ _ => returns_ask _

theorem returns_splitAtSeparator (lowered : Str) :
    Returns (splitAtSeparator lowered) (LnurlCash.splitAtSeparator lowered) := by
  rw [splitAtSeparator, LnurlCash.splitAtSeparator]
  refine returns_at_separator fun parts found => ?_
  refine returns_ite (fun _ => returns_failure) fun _ => ?_
  obtain ⟨before, behind⟩ := returns_cut found
  exact before.andThen (behind.andThen (returns_pure _))

theorem returns_parseHrp (hrp : Str) : Returns (parseHrp hrp) (LnurlCash.parseHrp hrp) := by
  rw [parseHrp, LnurlCash.parseHrp]
  refine (returns_ask _).bind fun rest _ => ?_
  have whole : rest.takeWhile Char.isDigit ++ rest.dropWhile Char.isDigit = rest := List.takeWhile_append_dropWhile
  have size := Str.byteLen_append (rest.takeWhile Char.isDigit) (rest.dropWhile Char.isDigit)
  rw [whole] at size
  have digitsEnd : Str.byteLen rest - Str.byteLen (rest.dropWhile Char.isDigit) =
      Str.byteLen (rest.takeWhile Char.isDigit) := by omega
  have cut := returns_splitAt (rest.takeWhile Char.isDigit) (rest.dropWhile Char.isDigit)
  rw [whole, ← digitsEnd] at cut
  refine (returns_sub (by omega)).andThen ?_
  refine cut.andThen ?_
  refine returns_ite (fun _ => returns_failure) fun _ => ?_
  refine returns_ite (fun _ => returns_pure _) fun _ => ?_
  exact (returns_ask _).bind fun _ _ => returns_pure _

theorem returns_decodeBolt11AmountMsat (pr : Str) :
    Returns (decodeBolt11AmountMsat pr) (LnurlCash.decodeBolt11AmountMsat pr) := by
  refine (returns_splitAtSeparator _).bind fun parts _ => ?_
  refine (returns_parseHrp parts.1).bind fun amount _ => ?_
  refine (returns_ask _).bind fun value _ => ?_
  exact returns_ask _

end LnurlCash.Sliced
