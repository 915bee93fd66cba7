import LnurlCash.FeeTokens
import LnurlCash.Protocol

namespace LnurlCash

open Outcome

/-- The whole of a payRequest, of which a transfer reads `PayRequestInfo`. -/
structure PayRequest extends PayRequestInfo where
  metadata : Str
  mintPubkey : Option Str
  mintFee : Option MintFee
  commentAllowed : Option UInt64
  mintToHash : Bool
  deriving DecidableEq

/-- 32 bytes as lowercase hex. -/
def mintCommentLength : UInt64 := 64

def notPayRequest : Error := .protocol "not a payRequest (unexpected response)".toList

/-- `withdrawLink` may be absent, but not other than a string. -/
def withdrawLinkOf (body : Value) : Except Error (Option Str) :=
  match body.get? "withdrawLink".toList with
  | some (.string link) => .ok (some link)
  | some _ => .error (.protocol "the mint's payRequest has an invalid withdrawLink".toList)
  | none => .ok none

/-- `read` is serde_json's reading of the metadata as a list of lists. -/
def parsePayRequest (read : Str → Option (List (List Value))) (body : Value) : Except Error PayRequest := do
  rejectError body
  refuseIf (asStr body "tag".toList ≠ some "payRequest".toList) notPayRequest
  let metadata := (asStr body "metadata".toList).getD []
  let withdrawLink ← withdrawLinkOf body
  let commentAllowed := asU64 body "commentAllowed".toList
  refuseIf (withdrawLink.isSome ∧ ¬commentAllowed.any (mintCommentLength ≤ ·)) (.protocol
    "this mint offers no room for the required output commitment - it cannot mint".toList)
  let callback ← expect notPayRequest (asStr body "callback".toList)
  return {
    callback
    minSendable := (asU64 body "minSendable".toList).getD 0
    maxSendable := (asU64 body "maxSendable".toList).getD 0
    withdrawLink
    metadata
    mintPubkey := asStr body "mintPubkey".toList
    mintFee := parseMintFee read metadata
    commentAllowed
    mintToHash := decide ((body.get? "mintToHash".toList).bind Value.asBool? = some true) }

variable {read : Str → Option (List (List Value))} {body : Value} {info : PayRequest}

theorem mintFee_of_parsePayRequest (parsed : parsePayRequest read body = .ok info) :
    info.mintFee = parseMintFee read info.metadata := by
  simp only [parsePayRequest, bind_eq_ok, pure_eq_ok] at parsed
  obtain ⟨_, _, _, _, _, _, _, _, _, _, rfl⟩ := parsed
  rfl

/-! ### Fees that are read as none -/

def Value.asArray? : Value → Option (List Value)
  | .array items => some items
  | _ => none

/-- A list of lists, which every item has to be. -/
def Value.lists? (value : Value) : Option (List (List Value)) :=
  value.asArray?.bind fun items => items.mapM Value.asArray?

/-- The items of a list that are lists, whatever the others are. -/
def Value.lists (value : Value) : List (List Value) := (value.asArray?.getD []).filterMap Value.asArray?

/-- serde_json's reading of a text as a list of lists, for `json` its reading of any text. -/
def readLists (json : Str → Option Value) (text : Str) : Option (List (List Value)) := (json text).bind Value.lists?

/-- No `text/plain` entry names a fee, of any size, anywhere in its text. -/
def FeeFree (json : Str → Option Value) (metadata : Str) : Prop :=
  ∀ value, json metadata = some value → ∀ text ∈ plainTexts value.lists, ∀ front base ppm,
    NamesFee text front base ppm → base = 0 ∧ ppm = 0

/-- What keeps a fee that a text names from being read: `earlier` are the texts
before it, `front` what stands before its token. -/
inductive Overlooked (value : Value) (earlier : List Str) (front : Str) (base ppm : Nat) : Prop
  /-- an item beside the entry is no list -/
  | misshapen (unlisted : value.lists? = none)
  /-- only the first token of a text is tried -/
  | laterToken (present : mintFeesToken <:+: front)
  | largeBase (large : maxSafeInteger.toNat < base)
  | wholeRate (whole : 1000000 ≤ ppm)
  /-- the first token that can be read is the last one that is tried -/
  | behindZero (other : Str) (among : other ∈ earlier) (fee : MintFee) (read : parseToken other = some fee)
      (zero : fee.isZero)

/-- Some text names a fee that is not zero, and it is overlooked. -/
def OverlooksFee (value : Value) : Prop :=
  ∃ earlier text later front base ppm, plainTexts value.lists = earlier ++ text :: later ∧
    NamesFee text front base ppm ∧ ¬(base = 0 ∧ ppm = 0) ∧ Overlooked value earlier front base ppm

/-- The first text whose token can be read names a fee there that is not zero. -/
def AnnouncesFee (value : Value) : Prop :=
  ∃ entries earlier text later fee, value.lists? = some entries ∧ plainTexts entries = earlier ++ text :: later ∧
    (∀ other ∈ earlier, parseToken other = none) ∧ parseToken text = some fee ∧ ¬fee.isZero

theorem filterMap_of_mapM {α β : Type} {f : α → Option β} {items : List α} {values : List β}
    (whole : items.mapM f = some values) : items.filterMap f = values := by
  induction items generalizing values with
  | nil =>
    cases whole
    rfl
  | cons item rest ih =>
    rw [List.mapM_cons] at whole
    obtain ⟨value, head, whole⟩ := Option.bind_eq_some_iff.mp whole
    obtain ⟨tail, others, same⟩ := Option.bind_eq_some_iff.mp whole
    cases same
    rw [List.filterMap_cons_some head, ih others]

theorem Value.lists_of_lists? {value : Value} {entries : List (List Value)} (listed : value.lists? = some entries) :
    value.lists = entries := by
  obtain ⟨items, array, whole⟩ := Option.bind_eq_some_iff.mp listed
  rw [Value.lists, array, Option.getD_some, filterMap_of_mapM whole]

variable {json : Str → Option Value} {value : Value}

theorem announcesFee_of_first {entries : List (List Value)} {fee : MintFee} (listed : value.lists? = some entries)
    (first : (plainTexts entries).findSome? parseToken = some fee) (withholds : ¬fee.isZero) : AnnouncesFee value := by
  obtain ⟨earlier, text, later, texts, token, silent⟩ := List.findSome?_eq_some_iff.mp first
  exact ⟨entries, earlier, text, later, fee, listed, texts, silent, token, withholds⟩

theorem parseMintFee_eq_none {metadata : Str} : parseMintFee (readLists json) metadata = none ↔
    ∀ value, json metadata = some value → ¬AnnouncesFee value := by
  constructor
  · rintro unread value reads ⟨entries, earlier, text, later, fee, listed, texts, silent, token, withholds⟩
    have entriesRead : readLists json metadata = some entries := Option.bind_eq_some_iff.mpr ⟨value, reads, listed⟩
    have first : (plainTexts entries).findSome? parseToken = some fee :=
      List.findSome?_eq_some_iff.mpr ⟨earlier, text, later, texts, token, silent⟩
    have stated := parseMintFee_eq_some.mpr ⟨entries, entriesRead, first, withholds⟩
    rw [unread] at stated
    cases stated
  · intro silent
    by_contra stated
    obtain ⟨fee, stated⟩ := Option.ne_none_iff_exists'.mp stated
    obtain ⟨entries, entriesRead, first, withholds⟩ := parseMintFee_eq_some.mp stated
    obtain ⟨value, reads, listed⟩ := Option.bind_eq_some_iff.mp entriesRead
    exact silent value reads (announcesFee_of_first listed first withholds)

/-- Where no fee is announced, each that a text names is zero or overlooked. -/
theorem overlooked_of_silent {earlier later : List Str} {text front : Str} {base ppm : Nat}
    (silent : ¬AnnouncesFee value) (texts : plainTexts value.lists = earlier ++ text :: later)
    (named : NamesFee text front base ppm) (nonzero : ¬(base = 0 ∧ ppm = 0)) :
    Overlooked value earlier front base ppm := by
  by_cases present : mintFeesToken <:+: front
  · exact .laterToken present
  by_cases large : maxSafeInteger.toNat < base
  · exact .largeBase large
  by_cases whole : 1000000 ≤ ppm
  · exact .wholeRate whole
  obtain ⟨fee, token, baseValue, ppmValue⟩ := named.parses present (by omega) (by omega)
  cases listed : value.lists? with
  | none => exact .misshapen listed
  | some entries =>
    rw [Value.lists_of_lists? listed] at texts
    have zero_of_first : ∀ fee, (plainTexts entries).findSome? parseToken = some fee → fee.isZero := by
      intro fee first
      by_contra withholds
      exact silent (announcesFee_of_first listed first withholds)
    cases before : earlier.findSome? parseToken with
    | some other =>
      obtain ⟨text, among, read⟩ := List.exists_of_findSome?_eq_some before
      exact .behindZero text among other read
        (zero_of_first other (by rw [texts, List.findSome?_append, before, Option.some_or]))
    | none =>
      have zero := zero_of_first fee
        (by rw [texts, List.findSome?_append, before, Option.none_or, List.findSome?_cons, token])
      refine absurd ⟨?_, ?_⟩ nonzero
      · rw [← baseValue, zero.1]
        rfl
      · rw [← ppmValue, zero.2.1]
        rfl

/-- A payRequest read as having no fee names none, exactly when its texts name
none that is overlooked, or announce one. -/
theorem parsePayRequest_free_iff (parsed : parsePayRequest (readLists json) body = .ok info) :
    (info.mintFee = none → FeeFree json info.metadata) ↔
      ∀ value, json info.metadata = some value → OverlooksFee value → AnnouncesFee value := by
  rw [mintFee_of_parsePayRequest parsed]
  constructor
  · rintro sound value reads ⟨earlier, text, later, front, base, ppm, texts, named, nonzero, _⟩
    by_contra silent
    have unread : parseMintFee (readLists json) info.metadata = none := by
      refine parseMintFee_eq_none.mpr fun other again => ?_
      rwa [← Option.some.inj (reads.symm.trans again)]
    have member : text ∈ plainTexts value.lists := by
      rw [texts]
      exact List.mem_append_right earlier List.mem_cons_self
    exact nonzero (sound unread value reads text member front base ppm named)
  · intro heeded unread value reads text member front base ppm named
    by_contra nonzero
    obtain ⟨earlier, later, texts⟩ := List.append_of_mem member
    have silent := parseMintFee_eq_none.mp unread value reads
    exact silent (heeded value reads ⟨earlier, text, later, front, base, ppm, texts, named, nonzero,
      overlooked_of_silent silent texts named nonzero⟩)

/-- A `text/plain` entry, for a text with nothing to escape, or what is no entry. -/
def entryJson : Option Str → Str
  | some text => "[\"text/plain\",\"".toList ++ text ++ "\"]".toList
  | none => "null".toList

def entryValue : Option Str → Value
  | some text => .array [.string "text/plain".toList, .string text]
  | none => .null

def textsMetadata (texts : List (Option Str)) : Str :=
  '[' :: (List.intercalate [','] (texts.map entryJson) ++ "]".toList)

def textsJson (texts : List (Option Str)) (metadata : Str) : Option Value :=
  if metadata = textsMetadata texts then some (.array (texts.map entryValue)) else none

def textsBody (texts : List (Option Str)) : Value := .object [
  ("tag".toList, .string "payRequest".toList),
  ("callback".toList, .string "https://mint.example/pay".toList),
  ("metadata".toList, .string (textsMetadata texts))]

/-- Whether such a payRequest is read as having no fee, though a text of it names one. -/
def ReadAsFree (texts : List (Option Str)) : Prop :=
  ∃ info, parsePayRequest (readLists (textsJson texts)) (textsBody texts) = .ok info ∧ info.mintFee = none ∧
    ¬FeeFree (textsJson texts) info.metadata

theorem plainTexts_entryValue (texts : List (Option Str)) :
    plainTexts (Value.lists (.array (texts.map entryValue))) = texts.filterMap id := by
  induction texts with
  | nil => rfl
  | cons text rest ih =>
    cases text with
    | none => exact ih
    | some text => exact congrArg (text :: ·) ih

theorem parsePayRequest_textsBody (texts : List (Option Str)) : ∃ info,
    parsePayRequest (readLists (textsJson texts)) (textsBody texts) = .ok info ∧
      info.metadata = textsMetadata texts :=
  ⟨_, rfl, rfl⟩

theorem readAsFree_of_named {texts : List (Option Str)} {text front : Str} {base ppm : Nat}
    (unread : parseMintFee (readLists (textsJson texts)) (textsMetadata texts) = none) (member : some text ∈ texts)
    (named : NamesFee text front base ppm) (nonzero : ¬(base = 0 ∧ ppm = 0)) : ReadAsFree texts := by
  obtain ⟨info, parsed, stated⟩ := parsePayRequest_textsBody texts
  refine ⟨info, parsed, by rw [mintFee_of_parsePayRequest parsed, stated, unread], fun free => nonzero ?_⟩
  have listed : text ∈ plainTexts (Value.lists (.array (texts.map entryValue))) := by
    rw [plainTexts_entryValue]
    exact List.mem_filterMap.mpr ⟨some text, member, rfl⟩
  rw [stated] at free
  exact free _ (if_pos rfl) text listed front base ppm named

theorem namesFee_decimal {text : Str} (front : Str) (base ppm : Nat)
    (whole : text = front ++ (mintFeesToken ++ ([' '] ++ (Str.decimal base ++ ',' :: (Str.decimal ppm ++ []))))) :
    NamesFee text front base ppm := by
  refine ⟨[' '], Str.decimal base, Str.decimal ppm, [], whole, ?_, numeral_decimal base, numeral_decimal ppm, ?_⟩
  · intro c member
    rw [List.mem_singleton.mp member]
    decide
  · intro c member
    cases member

/-- A later token behind an unreadable one, a later entry behind a zero fee, a
base too large, a whole rate and an item that is no entry: each is read as no fee. -/
theorem namedFees_readAsFree :
    ReadAsFree [some "Mint fees: none. Mint fees: 5,5".toList] ∧
      ReadAsFree [some "Mint fees: 0,0".toList, some "Mint fees: 5,5".toList] ∧
      ReadAsFree [some "Mint fees: 9007199254740992,0".toList] ∧
      ReadAsFree [some "Mint fees: 1,1000000".toList] ∧ ReadAsFree [some "Mint fees: 5,5".toList, none] := by
  refine ⟨?_, ?_, ?_, ?_, ?_⟩
  · exact readAsFree_of_named (by decide +kernel) List.mem_cons_self
      (namesFee_decimal "Mint fees: none. ".toList 5 5 (by decide)) (by decide)
  · exact readAsFree_of_named (by decide +kernel) (List.mem_cons_of_mem _ List.mem_cons_self)
      (namesFee_decimal [] 5 5 (by decide)) (by decide)
  · exact readAsFree_of_named (by decide +kernel) List.mem_cons_self
      (namesFee_decimal [] 9007199254740992 0 (by decide)) (by decide)
  · exact readAsFree_of_named (by decide +kernel) List.mem_cons_self
      (namesFee_decimal [] 1 1000000 (by decide)) (by decide)
  · exact readAsFree_of_named (by decide +kernel) List.mem_cons_self
      (namesFee_decimal [] 5 5 (by decide)) (by decide)

theorem NamesFee.token_present {text front : Str} {base ppm : Nat} (named : NamesFee text front base ppm) :
    mintFeesToken <:+: text := by
  obtain ⟨spaces, first, second, rest, rfl, _⟩ := named
  exact ⟨front, _, List.append_assoc _ _ _⟩

theorem unnamed_readsAsFree : ∃ info,
    parsePayRequest (readLists (textsJson [some "a mint".toList, some "mint fees: 5,5".toList]))
        (textsBody [some "a mint".toList, some "mint fees: 5,5".toList]) = .ok info ∧
      info.mintFee = none ∧ FeeFree (textsJson [some "a mint".toList, some "mint fees: 5,5".toList]) info.metadata := by
  have tokenless : ∀ text ∈ ["a mint".toList, "mint fees: 5,5".toList], ¬mintFeesToken <:+: text := by decide
  have unread : parseMintFee (readLists (textsJson [some "a mint".toList, some "mint fees: 5,5".toList]))
      (textsMetadata [some "a mint".toList, some "mint fees: 5,5".toList]) = none := by decide +kernel
  obtain ⟨info, parsed, stated⟩ := parsePayRequest_textsBody [some "a mint".toList, some "mint fees: 5,5".toList]
  have free : info.mintFee = none := by rw [mintFee_of_parsePayRequest parsed, stated, unread]
  refine ⟨info, parsed, free, (parsePayRequest_free_iff parsed).mpr ?_ free⟩
  rintro value reads ⟨earlier, text, later, front, base, ppm, texts, named, _, _⟩
  rw [stated, textsJson, if_pos rfl] at reads
  cases reads
  rw [plainTexts_entryValue] at texts
  have member : text ∈ ["a mint".toList, "mint fees: 5,5".toList] := by
    change text ∈ [some "a mint".toList, some "mint fees: 5,5".toList].filterMap id
    rw [texts]
    exact List.mem_append_right earlier List.mem_cons_self
  exact absurd named.token_present (tokenless text member)

end LnurlCash
