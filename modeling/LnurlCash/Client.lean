import LnurlCash.Lib.Dialogue
import LnurlCash.Protocol

namespace LnurlCash

/-- What the client asks of the world: one send of its HTTP client, with any
redirects it follows, or a fresh note secret. -/
inductive Query where
  | get (url : Str)
  | freshSecret

/-- What became of a GET. Only `json` is an answer; the others lose it. -/
inductive Reply where
  | timedOut
  | unreachable
  | bodyUnread
  | garbled
  | json (body : Value)

abbrev Query.Answer : Query → Type
  | get _ => Reply
  | freshSecret => Str

abbrev Session := Dialogue Query Query.Answer

abbrev Exchange := Dialogue.Event Query Query.Answer

theorem Exchange.get_inj {url other : Str} {reply answer : Reply}
    (equal : (⟨.get url, reply⟩ : Exchange) = ⟨.get other, answer⟩) : url = other ∧ reply = answer := by
  cases equal
  exact ⟨rfl, rfl⟩

theorem Exchange.freshSecret_inj {secret other : Str}
    (equal : (⟨.freshSecret, secret⟩ : Exchange) = ⟨.freshSecret, other⟩) : secret = other := by
  cases equal
  rfl

def Exchange.isGet : Exchange → Bool
  | ⟨.get _, _⟩ => true
  | ⟨.freshSecret, _⟩ => false

def Exchange.isDraw : Exchange → Bool
  | ⟨.get _, _⟩ => false
  | ⟨.freshSecret, _⟩ => true

structure ClientConfig where
  offline : Bool := false
  policy : Policy := {}
  mutationRetries : UInt32 := 1
  deriving DecidableEq

def Crates.refusal (C : Crates) (config : ClientConfig) (request : Request) : Option Str :=
  if config.offline then some "offline mode is on - no request was made".toList
  else if !C.isAllowedServiceUrl request.url then
    some "refusing to fetch that URL - only https, or http to a loopback or .onion host, is allowed".toList
  else none

/-- A reply as `run` reads it: anything but a JSON body is ambiguous. -/
def readReply (request : Request) : Reply → Except Error Value
  | .timedOut => lost "the service took too long to respond - its answer, if any, was lost"
  | .unreachable => lost "failed to reach the service - it may be offline or unreachable"
  | .bodyUnread => lost "the service's response could not be read"
  | .garbled => lost "the service returned an unreadable response"
  | .json body => .ok body
where
  lost (message : String) : Except Error Value :=
    .error ((Error.ambiguous message.toList []).withSecrets request.newSecrets)

def Crates.run (C : Crates) (config : ClientConfig) (request : Request) : Session (Except Error Value) :=
  match C.refusal config request with
  | some message => pure (.error (.requestRefused message))
  | none => do
    let reply ← Dialogue.query (Query.get request.url)
    pure (readReply request reply)

def Crates.attemptOutcome (C : Crates) (config : ClientConfig) (kind : MutationKind) (request : Request)
    (reply : Reply) : Except Error MutationResponse := do
  let body ← readReply request reply
  C.parseMutation body kind request.outputs config.policy

def Crates.attempt (C : Crates) (config : ClientConfig) (kind : MutationKind) (request : Request) :
    Session (Except Error MutationResponse) := do
  let body ← C.run config request
  pure (body.bind fun body => C.parseMutation body kind request.outputs config.policy)

def mutationVerdict (secrets : List Str) :
    Except Error MutationResponse → Except Error (Except Error MutationResponse)
  | .ok response => .ok (.ok response)
  | .error err => if err.isAmbiguous then .error err else .ok (.error (err.withSecrets secrets))

def mutationGiveUp (secrets : List Str) (last : Option Error) : Except Error MutationResponse :=
  .error ((last.getD (.ambiguous "the mutation was never attempted".toList [])).withSecrets secrets)

/-- How often a lost answer is asked for again; a melt's never is. -/
def retriesFor (config : ClientConfig) (kind : MutationKind) : Nat :=
  if kind = .melt then 0 else config.mutationRetries.toNat

/-- One mutating GET, re-sent while the transport keeps losing the answer. -/
def Crates.runMutation (C : Crates) (config : ClientConfig) (request : Request) (kind : MutationKind) :
    Session (Except Error MutationResponse) :=
  Dialogue.retry (C.attempt config kind request) (mutationVerdict request.newSecrets)
    (mutationGiveUp request.newSecrets) (retriesFor config kind + 1) none

def Crates.fetchNoteInfo (C : Crates) (config : ClientConfig) (url : Str) :
    Session (Except Error WithdrawRequestInfo) :=
  match C.noteInfoRequest url with
  | .error err => pure (.error err)
  | .ok request => do
    let body ← C.run config request
    pure (body.bind fun body => C.parseNoteInfo body url config.policy)

structure RotateOutcome where
  k1 : Str
  signature : Option Str
  deriving DecidableEq

def Crates.rotateNote (C : Crates) (config : ClientConfig) (callback k1 : Str) :
    Session (Except Error RotateOutcome) := do
  let fresh ← Dialogue.query Query.freshSecret
  match C.rotateRequest callback k1 fresh with
  | .error err => pure (.error err)
  | .ok request => do
    let response ← C.runMutation config request .rotate
    pure (response.map fun response => { k1 := fresh, signature := response.signature })

/-- What a builder returned, sent as a mutation. -/
def Crates.mutate (C : Crates) (config : ClientConfig) {α : Type} (built : Except Error Request) (kind : MutationKind)
    (outcome : MutationResponse → α) : Session (Except Error α) :=
  match built with
  | .error err => pure (.error err)
  | .ok request => do
    let response ← C.runMutation config request kind
    pure (response.map outcome)

structure MeltOutcome where
  pr : Option Str
  verify : Option Str
  deriving DecidableEq

def Crates.meltNote (C : Crates) (config : ClientConfig) (callback k1 pr : Str) :
    Session (Except Error MeltOutcome) :=
  C.mutate config (C.meltRequest callback k1 pr) .melt fun response => { pr := response.pr, verify := response.verify }

structure SplitOutcome where
  k1 : Str
  change : Str
  signature : Option Str
  changeSignature : Option Str
  deriving DecidableEq

def Crates.splitNote (C : Crates) (config : ClientConfig) (callback : Str) (k1s : List Str) (amountMsat : UInt64) :
    Session (Except Error SplitOutcome) := do
  let fresh ← Dialogue.query Query.freshSecret
  let change ← Dialogue.query Query.freshSecret
  C.mutate config (C.splitRequest callback k1s amountMsat fresh change) .split fun response =>
    { k1 := fresh, change, signature := response.signature, changeSignature := response.changeSignature }

def Crates.mergeNotes (C : Crates) (config : ClientConfig) (callback : Str) (k1s : List Str) :
    Session (Except Error RotateOutcome) := do
  let fresh ← Dialogue.query Query.freshSecret
  C.mutate config (C.mergeRequest callback k1s fresh) .merge fun response =>
    { k1 := fresh, signature := response.signature }

/-- What a probe learned about a note whose fate was uncertain. -/
inductive NoteFate where
  | live
  | gone
  | unknown
  deriving DecidableEq

def NoteFate.of : Except Error WithdrawRequestInfo → NoteFate
  | .ok _ => live
  | .error (.noteSpent ..) | .error (.noteUnknown ..) => gone
  | .error _ => unknown

def Crates.probeBurnedNote (C : Crates) (config : ClientConfig) (url : Str) : Session NoteFate := do
  let info ← C.fetchNoteInfo config url
  pure (NoteFate.of info)

structure SettledNote where
  k1 : Str
  amountMsat : UInt64
  signature : Option Str
  callback : Str
  deriving DecidableEq

/-- The refusals that leave the exposed k1 the note it was. -/
def Error.burnsNothing : Error → Bool
  | requestRefused _ | serviceRejected _ | notePending => true
  | _ => false

def settled (info : WithdrawRequestInfo) (k1 : Str) (signature : Option Str) :
    Except Error RotateOutcome → Except Error SettledNote
  | .ok rotated => .ok {
      k1 := rotated.k1, amountMsat := info.maxWithdrawable, signature := rotated.signature, callback := info.callback }
  | .error err =>
    if err.burnsNothing then
      .ok { k1, amountMsat := info.maxWithdrawable, signature, callback := info.callback }
    else .error err

/-- Resolves what a note is worth, then rotates it before further use. -/
def Crates.settleNote (C : Crates) (config : ClientConfig) (baseUrl k1 : Str) (expectedAmountMsat : UInt64)
    (signature : Option Str) : Session (Except Error SettledNote) :=
  match C.withNewK1 baseUrl k1 expectedAmountMsat signature with
  | none => pure (.error (.requestRefused "that note URL does not parse".toList))
  | some url => do
    match ← C.fetchNoteInfo config url with
    | .error err => pure (.error err)
    | .ok info => do
      let rotated ← C.rotateNote config info.callback k1
      pure (settled info k1 signature rotated)

end LnurlCash
