import LnurlCash.Signature

namespace LnurlCash

def Crates.firstParam (C : Crates) (url key : Str) : Option Str := do
  let parsed ← C.url.parse url
  (C.url.queryPairs parsed).lookup key

def Crates.noteK1 (C : Crates) (url : Str) : Option Str := (C.firstParam url "k1".toList).map Str.lower

/-- The certificate a note URL carries, under its current or its legacy name. -/
def Crates.noteSignature (C : Crates) (url : Str) : Option Str :=
  (C.firstParam url "c".toList).or (C.firstParam url "sig".toList)

def Crates.noteDeclaredAmount (C : Crates) (url : Str) : Option UInt64 :=
  match C.firstParam url "amount".toList with
  | some amount => (Str.parseUnsigned (2 ^ 64) amount).map UInt64.ofNat
  | none => do
    let signature ← C.noteSignature url
    (decodeCs1WithAmount signature).map Cs1.amountMsat

def Crates.resolveNoteInput (C : Crates) (value : Str) : Option Str := do
  let url ← C.resolveLnurlInput value
  let k1 ← C.noteK1 url
  if (C.noteIdOf k1).isSome then some url else none

/-- The URL with exactly these pairs for its query. -/
def Crates.rebuild (C : Crates) (url : C.url.Url) (pairs : List (Str × Str)) : Str :=
  let out := C.url.clearQuery url
  if pairs = [] then C.url.toText out else C.url.toText (C.url.appendPairs out pairs)

/-- A withdrawLink and a secret make a note. -/
def Crates.buildNoteUrl (C : Crates) (withdrawLink k1 : Str) (amountMsat : Option UInt64) : Option Str := do
  let url ← C.url.parse (fromLud17 (Str.trim withdrawLink))
  let kept := (C.url.queryPairs url).filter fun pair => pair.1 ≠ "k1".toList ∧ pair.1 ≠ "amount".toList
  let amountPair := match amountMsat with
    | some amount => [("amount".toList, Str.decimal amount.toNat)]
    | none => []
  some (C.rebuild url (kept ++ [("k1".toList, Str.lower (Str.trim k1))] ++ amountPair))

/-- The informational GET for a note named without its spend. -/
def Crates.buildNoteInfoUrlByHash (C : Crates) (withdrawLink h : Str) : Option Str := do
  let value := Str.lower (Str.trim h)
  let _ ← C.decodeNote value
  let url ← C.url.parse (fromLud17 (Str.trim withdrawLink))
  let kept := (C.url.queryPairs url).filter fun pair =>
    pair.1 ≠ "k1".toList ∧ pair.1 ≠ "amount".toList ∧ pair.1 ≠ "c".toList ∧ pair.1 ≠ "sig".toList ∧
      pair.1 ≠ "p".toList ∧ pair.1 ≠ "h".toList
  some (C.rebuild url (kept ++ [("p".toList, value)]))

def Crates.checkNoteUrl (C : Crates) (url mintPubkey : Str) : Option NoteCheck := do
  let url ← C.resolveLnurlInput url
  let k1 ← C.noteK1 url
  let domain ← C.spendDomainOf url
  let amountMsat ← C.noteDeclaredAmount url
  let signature ← C.noteSignature url
  C.checkNote k1 domain amountMsat signature mintPubkey

structure Rewrite where
  pairs : List (Str × Str)
  sawK1 : Bool
  sawAmount : Bool
  sawSig : Bool
  deriving DecidableEq

/-- One parameter of the old URL, replaced, dropped or carried over. -/
def Rewrite.step (k1 : Str) (amountMsat : UInt64) (signature : Option Str) (amountIsImplied : Bool)
    (done : Rewrite) (pair : Str × Str) : Rewrite :=
  if pair.1 = "k1".toList then
    { done with pairs := done.pairs ++ [("k1".toList, Str.lower k1)], sawK1 := true }
  else if pair.1 = "amount".toList then
    if amountIsImplied then done
    else
      { done with pairs := done.pairs ++ [("amount".toList, Str.decimal amountMsat.toNat)], sawAmount := true }
  else if pair.1 = "c".toList ∨ pair.1 = "sig".toList then
    match signature with
    | some sig =>
      if done.sawSig then done else { done with pairs := done.pairs ++ [("c".toList, sig)], sawSig := true }
    | none => done
  else { done with pairs := done.pairs ++ [pair] }

def Crates.withNewK1 (C : Crates) (url k1 : Str) (amountMsat : UInt64) (signature : Option Str) : Option Str := do
  let parsed ← C.url.parse url
  let amountIsImplied := signature.any fun sig => (decodeCs1WithAmount sig).isSome
  let done := (C.url.queryPairs parsed).foldl (Rewrite.step k1 amountMsat signature amountIsImplied)
    { pairs := [], sawK1 := false, sawAmount := false, sawSig := false }
  let k1Pair := if done.sawK1 then [] else [("k1".toList, Str.lower k1)]
  let amountPair :=
    if !done.sawAmount && !amountIsImplied then [("amount".toList, Str.decimal amountMsat.toNat)] else []
  let sigPair := match signature with
    | some sig => if done.sawSig then [] else [("c".toList, sig)]
    | none => []
  some (C.rebuild parsed (done.pairs ++ k1Pair ++ amountPair ++ sigPair))

/-- The same rewriting for a URL whose k1 is dropped, and its other parameters treated alike. -/
def Rewrite.stepWithoutK1 (amountMsat : UInt64) (signature : Option Str) (amountIsImplied : Bool)
    (done : Rewrite) (pair : Str × Str) : Rewrite :=
  if pair.1 = "k1".toList then done
  else if pair.1 = "amount".toList then
    if amountIsImplied then done
    else
      { done with pairs := done.pairs ++ [("amount".toList, Str.decimal amountMsat.toNat)], sawAmount := true }
  else if pair.1 = "c".toList ∨ pair.1 = "sig".toList then
    match signature with
    | some sig =>
      if done.sawSig then done else { done with pairs := done.pairs ++ [("c".toList, sig)], sawSig := true }
    | none => done
  else { done with pairs := done.pairs ++ [pair] }

def Crates.withoutK1 (C : Crates) (url : Str) (amountMsat : UInt64) (signature : Option Str) : Option Str := do
  let parsed ← C.url.parse url
  let amountIsImplied := signature.any fun sig => (decodeCs1WithAmount sig).isSome
  let done := (C.url.queryPairs parsed).foldl (Rewrite.stepWithoutK1 amountMsat signature amountIsImplied)
    { pairs := [], sawK1 := false, sawAmount := false, sawSig := false }
  let amountPair :=
    if !done.sawAmount && !amountIsImplied then [("amount".toList, Str.decimal amountMsat.toNat)] else []
  let sigPair := match signature with
    | some sig => if done.sawSig then [] else [("c".toList, sig)]
    | none => []
  some (C.rebuild parsed (done.pairs ++ amountPair ++ sigPair))

end LnurlCash
