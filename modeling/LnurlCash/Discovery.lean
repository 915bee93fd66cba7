import LnurlCash.Lib.ByteOffsets
import LnurlCash.Protocol

namespace LnurlCash

open Outcome

/-! ### A note named without its spend -/

/-- What a `?p=` lookup returns: no `k1`, since no spend was sent. -/
structure NoteInfoByHash where
  callback : Str
  maxWithdrawable : UInt64
  minWithdrawable : UInt64
  defaultDescription : Option Str
  mintPubkey : Option Str
  signature : Option Str
  deriving DecidableEq

def parseNoteInfoByHash (body : Value) (policy : Policy) : Except Error NoteInfoByHash := do
  classified body
  refuseIf (asStr body "tag".toList ≠ some "withdrawRequest".toList) notWithdrawRequest
  let callback ← expect notWithdrawRequest (asStr body "callback".toList)
  let maxWithdrawable ← expect notWithdrawRequest (asU64 body "maxWithdrawable".toList)
  let minWithdrawable ← minWithdrawableOf body
  refuseIf (minWithdrawable > maxWithdrawable) notWithdrawRequest
  let mintPubkey := asStr body "mintPubkey".toList
  checkMintPubkey mintPubkey policy
  return {
    callback
    maxWithdrawable
    minWithdrawable
    defaultDescription := asStr body "defaultDescription".toList
    mintPubkey := mintPubkey.map fun key => Str.lower (Str.trim key)
    signature := certificate body "c".toList "sig".toList }

/-! ### Mint addresses -/

/-- The nonempty strings of a list, if it has any. -/
def asStrList (body : Value) (key : Str) : Option (List Str) :=
  match body.get? key with
  | some (.array items) =>
    let entries := (items.filterMap Value.asStr?).filter (· ≠ [])
    if entries = [] then none else some entries
  | _ => none

/-- A text's characters, each with the offset of its first byte. -/
def charIndices : Nat → Str → List (Nat × Char)
  | _, [] => []
  | offset, c :: rest => (offset, c) :: charIndices (offset + c.utf8Size) rest

def lastDay (year month : Nat) : Option Nat :=
  let leap := decide (year % 4 = 0) && (decide (year % 100 ≠ 0) || decide (year % 400 = 0))
  match month with
  | 1 | 3 | 5 | 7 | 8 | 10 | 12 => some 31
  | 4 | 6 | 9 | 11 => some 30
  | 2 => if leap then some 29 else some 28
  | _ => none

/-- Digits, but for a dash at either offset. -/
def dashedAt (place : Nat × Char) : Bool := if place.1 = 4 ∨ place.1 = 7 then decide (place.2 = '-') else place.2.isDigit

/-- A text of the right shape, if it names a day of its month. -/
def isoDay (raw : Str) : Checked Str := do
  let year ← Checked.ask (Str.parseUnsigned (2 ^ 32) (← Checked.textTo raw 4))
  let month ← Checked.ask (Str.parseUnsigned (2 ^ 32) (← Checked.textFrom (← Checked.textTo raw 7) 5))
  let day ← Checked.ask (Str.parseUnsigned (2 ^ 32) (← Checked.textFrom (← Checked.textTo raw 10) 8))
  let last ← Checked.ask (lastDay year month)
  Checked.ask (if 1 ≤ day ∧ day ≤ last then some raw else none)

/-- A calendar day, `YYYY-MM-DD`, and nothing else. -/
def isoDate (raw : Str) : Checked Str :=
  let bytes := Str.utf8 raw
  if bytes.length ≠ 10 then failure
  else do
    let first ← Checked.index bytes 4
    if first ≠ 45 then failure
    else
      let second ← Checked.index bytes 7
      if second ≠ 45 then failure
      else if !(charIndices 0 raw).all dashedAt then failure
      else isoDay raw

def asIsoDate (body : Value) (key : Str) : Checked Str := do
  let value ← Checked.ask (body.get? key)
  let raw ← Checked.ask value.asStr?
  isoDate raw

structure MintAddressInfo where
  callback : Str
  payLink : Str
  maxWithdrawable : UInt64
  minWithdrawable : UInt64
  nodePubkey : Option Str
  nodeAlias : Option Str
  nodeUri : Option Str
  nodeColor : Option Str
  nodeCapacityMsat : Option UInt64
  nodeNumChannels : Option UInt64
  nodeNumPeers : Option UInt64
  nodeUris : Option (List Str)
  sunsetDate : Option Str
  outstandingNotesMsat : Option UInt64
  deriving DecidableEq

def notMintAddress : Error := .protocol "not a mint address response (unexpected shape)".toList

def mintAddressRequest (url : Str) : Except Error Request := .ok (Request.plain url)

def parseMintAddress (body : Value) : Except Error MintAddressInfo := do
  rejectError body
  refuseIf (asStr body "tag".toList ≠ some "withdrawRequest".toList) notMintAddress
  let callback ← expect notMintAddress (asStr body "callback".toList)
  let payLink ← expect notMintAddress (asStr body "payLink".toList)
  let maxWithdrawable ← expect notMintAddress (asU64 body "maxWithdrawable".toList)
  return {
    callback
    payLink
    maxWithdrawable
    minWithdrawable := (asU64 body "minWithdrawable".toList).getD 0
    nodePubkey := asStr body "mintPubkey".toList
    nodeAlias := asStr body "nodeAlias".toList
    nodeUri := asStr body "nodeUri".toList
    nodeColor := asStr body "nodeColor".toList
    nodeCapacityMsat := asU64 body "nodeCapacity".toList
    nodeNumChannels := asU64 body "nodeNumChannels".toList
    nodeNumPeers := asU64 body "nodeNumPeers".toList
    nodeUris := asStrList body "nodeUris".toList
    sunsetDate := (asIsoDate body "sunsetDate".toList).returned
    outstandingNotesMsat := asU64 body "outstandingNotesMsat".toList }

/-! ### Paying, and what became of a payment -/

def payRequestRequest (url : Str) : Except Error Request := .ok (Request.plain url)

/-- A plain LUD-06 invoice: it names no output. -/
def Crates.invoiceRequest (C : Crates) (payCallback : Str) (amountMsat : UInt64) : Except Error Request :=
  match C.url.parse payCallback with
  | none => .error (.requestRefused "that pay callback does not parse".toList)
  | some url =>
    .ok (Request.plain (C.url.toText (C.url.appendPairs url [("amount".toList, Str.decimal amountMsat.toNat)])))

structure VerifyResult where
  settled : Bool
  preimage : Option Str
  pr : Str
  deriving DecidableEq

def unexpectedVerify : Error := .protocol "the service returned an unexpected verify response".toList

def verifyRequest (verifyUrl : Str) : Except Error Request := .ok (Request.plain verifyUrl)

def parseVerify (body : Value) : Except Error VerifyResult := do
  rejectError body
  let settled ← expect unexpectedVerify ((body.get? "settled".toList).bind Value.asBool?)
  let pr ← expect unexpectedVerify (asStr body "pr".toList)
  return { settled, preimage := asStr body "preimage".toList, pr }

end LnurlCash
