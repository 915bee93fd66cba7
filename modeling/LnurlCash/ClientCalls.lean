import LnurlCash.Lib.Handlers
import LnurlCash.Discovery
import LnurlCash.Invoices
import LnurlCash.PayRequests
import LnurlCash.ReplayedMutations

namespace LnurlCash

open Outcome

/-! ### The rest of the client -/

section Client

variable (C : Crates) (config : ClientConfig)

/-- One informational GET, built and read as the call has it. -/
def Crates.askFor {α : Type} (built : Except Error Request) (parse : Value → Except Error α) :
    Session (Except Error α) :=
  match built with
  | .error err => pure (.error err)
  | .ok request => do
    let body ← C.run config request
    pure (body.bind parse)

def Crates.noteInfoByHashRequest (withdrawLink h : Str) : Except Error Request :=
  match C.buildNoteInfoUrlByHash withdrawLink h with
  | none =>
    .error (.requestRefused "a note lookup needs a URL and a cp1 or a bearer note's 64-hex hash".toList)
  | some url => C.noteInfoRequest url

def Crates.fetchNoteInfoByHash (withdrawLink h : Str) : Session (Except Error NoteInfoByHash) :=
  C.askFor config (C.noteInfoByHashRequest withdrawLink h) fun body => parseNoteInfoByHash body config.policy

def Crates.fetchMintAddress (url : Str) : Session (Except Error MintAddressInfo) :=
  C.askFor config (mintAddressRequest url) parseMintAddress

def Crates.fetchPayRequest (read : Str → Option (List (List Value))) (url : Str) : Session (Except Error PayRequest) :=
  C.askFor config (payRequestRequest url) (parsePayRequest read)

def Crates.requestInvoice (payCallback : Str) (amountMsat : UInt64) : Session (Except Error InvoiceResult) :=
  C.askFor config (C.invoiceRequest payCallback amountMsat) fun body => parseInvoice body amountMsat

def Crates.requestMintInvoice (payCallback : Str) (amountMsat : UInt64) (mintSecret : Str) :
    Session (Except Error InvoiceResult) :=
  C.askFor config (C.mintInvoiceRequest payCallback amountMsat mintSecret) fun body => parseInvoice body amountMsat

def Crates.fetchInvoiceVerification (verifyUrl : Str) : Session (Except Error VerifyResult) :=
  C.askFor config (verifyRequest verifyUrl) parseVerify

theorem Crates.fetchNoteInfo_eq (url : Str) : C.fetchNoteInfo config url =
    C.askFor config (C.noteInfoRequest url) fun body => C.parseNoteInfo body url config.policy := rfl

end Client

/-- Everything a wallet can ask of the client. -/
inductive ClientCall where
  | fetchNoteInfo (url : Str)
  | fetchNoteInfoByHash (withdrawLink h : Str)
  | fetchMintAddress (url : Str)
  | meltNote (callback k1 pr : Str)
  | rotateNote (callback k1 : Str)
  | splitNote (callback : Str) (k1s : List Str) (amountMsat : UInt64)
  | mergeNotes (callback : Str) (k1s : List Str)
  | fetchPayRequest (url : Str)
  | requestInvoice (payCallback : Str) (amountMsat : UInt64)
  | requestMintInvoice (payCallback : Str) (amountMsat : UInt64) (mintSecret : Str)
  | fetchInvoiceVerification (verifyUrl : Str)
  | probeBurnedNote (url : Str)
  | settleNote (baseUrl k1 : Str) (expectedAmountMsat : UInt64) (signature : Option Str)

namespace ClientCall

abbrev Answer : ClientCall → Type
  | fetchNoteInfo _ => Except Error WithdrawRequestInfo
  | fetchNoteInfoByHash .. => Except Error NoteInfoByHash
  | fetchMintAddress _ => Except Error MintAddressInfo
  | meltNote .. => Except Error MeltOutcome
  | rotateNote .. | mergeNotes .. => Except Error RotateOutcome
  | splitNote .. => Except Error SplitOutcome
  | fetchPayRequest _ => Except Error PayRequest
  | requestInvoice .. | requestMintInvoice .. => Except Error InvoiceResult
  | fetchInvoiceVerification _ => Except Error VerifyResult
  | probeBurnedNote _ => NoteFate
  | settleNote .. => Except Error SettledNote

/-- How many GETs a call may make. -/
def gets (config : ClientConfig) : ClientCall → Nat
  | rotateNote .. | splitNote .. | mergeNotes .. => 1 + config.mutationRetries.toNat
  | settleNote .. => 2 + config.mutationRetries.toNat
  | _ => 1

/-- How many fresh secrets a call may draw. -/
def draws : ClientCall → Nat
  | rotateNote .. | mergeNotes .. | settleNote .. => 1
  | splitNote .. => 2
  | _ => 0

end ClientCall

/-- `read` is serde_json's reading of a payRequest's metadata as a list of lists. -/
def Crates.perform (C : Crates) (read : Str → Option (List (List Value))) (config : ClientConfig) :
    (call : ClientCall) → Session call.Answer
  | .fetchNoteInfo url => C.fetchNoteInfo config url
  | .fetchNoteInfoByHash withdrawLink h => C.fetchNoteInfoByHash config withdrawLink h
  | .fetchMintAddress url => C.fetchMintAddress config url
  | .meltNote callback k1 pr => C.meltNote config callback k1 pr
  | .rotateNote callback k1 => C.rotateNote config callback k1
  | .splitNote callback k1s amountMsat => C.splitNote config callback k1s amountMsat
  | .mergeNotes callback k1s => C.mergeNotes config callback k1s
  | .fetchPayRequest url => C.fetchPayRequest config read url
  | .requestInvoice payCallback amountMsat => C.requestInvoice config payCallback amountMsat
  | .requestMintInvoice payCallback amountMsat mintSecret => C.requestMintInvoice config payCallback amountMsat mintSecret
  | .fetchInvoiceVerification verifyUrl => C.fetchInvoiceVerification config verifyUrl
  | .probeBurnedNote url => C.probeBurnedNote config url
  | .settleNote baseUrl k1 expectedAmountMsat signature => C.settleNote config baseUrl k1 expectedAmountMsat signature

/-- A wallet: any program of calls, each one chosen by what the earlier ones answered. -/
abbrev Wallet := Dialogue ClientCall ClientCall.Answer

def Wallet.session {α : Type} (wallet : Wallet α) (C : Crates) (read : Str → Option (List (List Value)))
    (config : ClientConfig) : Session α :=
  Dialogue.interpret (C.perform read config) wallet

/-! ### What a call may send -/

/-- Every GET goes to an admitted URL and none while offline, and GETs and
fresh secrets are no more than these. -/
structure Crates.Within (C : Crates) (config : ClientConfig) (gets draws : Nat) (trace : List Exchange) : Prop where
  admitted : ∀ url, ∀ reply : Reply, ⟨.get url, reply⟩ ∈ trace → C.isAllowedServiceUrl url ∧ config.offline = false
  gets : trace.countP Exchange.isGet ≤ gets
  draws : trace.countP Exchange.isDraw ≤ draws

variable {C : Crates} {config : ClientConfig} {read : Str → Option (List (List Value))} {trace rest : List Exchange}
  {gets draws moreGets moreDraws : Nat}

theorem Crates.within_nil : C.Within config gets draws [] where
  admitted _ _ member := absurd member List.not_mem_nil
  gets := Nat.zero_le _
  draws := Nat.zero_le _

theorem Crates.Within.append (first : C.Within config gets draws trace)
    (second : C.Within config moreGets moreDraws rest) :
    C.Within config (gets + moreGets) (draws + moreDraws) (trace ++ rest) where
  admitted url reply member := by
    rcases List.mem_append.mp member with early | late
    · exact first.admitted url reply early
    · exact second.admitted url reply late
  gets := by
    rw [List.countP_append]
    exact Nat.add_le_add first.gets second.gets
  draws := by
    rw [List.countP_append]
    exact Nat.add_le_add first.draws second.draws

theorem Crates.Within.mono (within : C.Within config gets draws trace) (getsRoom : gets ≤ moreGets)
    (drawsRoom : draws ≤ moreDraws) : C.Within config moreGets moreDraws trace :=
  ⟨within.admitted, within.gets.trans getsRoom, within.draws.trans drawsRoom⟩

theorem Crates.within_draw (secret : Str) : C.Within config 0 1 [⟨.freshSecret, secret⟩] where
  admitted url reply member := by cases List.mem_singleton.mp member
  gets := Nat.le_refl 0
  draws := Nat.le_refl 1

/-- GETs of one request that the client does not refuse. -/
theorem Crates.within_sent {request : Request} (allowed : trace ≠ [] → C.refusal config request = none)
    (same : ∀ exchange ∈ trace, ∃ reply : Reply, exchange = ⟨.get request.url, reply⟩) (bound : trace.length ≤ gets) :
    C.Within config gets 0 trace where
  admitted url reply member := by
    obtain ⟨answer, equal⟩ := same _ member
    obtain ⟨rfl, _⟩ := Exchange.get_inj equal
    have sent := refusal_eq_none.mp (allowed (List.ne_nil_of_mem member))
    simpa [and_comm] using sent
  gets := List.countP_le_length.trans bound
  draws := by
    refine (List.countP_eq_zero.mpr fun exchange member => ?_).le
    obtain ⟨reply, rfl⟩ := same exchange member
    exact Bool.false_ne_true

theorem Crates.run_within {request : Request} {result : Except Error Value}
    (run : Dialogue.Runs (C.run config request) trace result) : C.Within config 1 0 trace := by
  unfold Crates.run at run
  cases refused : C.refusal config request with
  | some message =>
    rw [refused] at run
    obtain ⟨rfl, _⟩ := Dialogue.runs_pure.mp run
    exact within_nil
  | none =>
    rw [refused] at run
    obtain ⟨reply, rest, rfl, read⟩ := Dialogue.runs_query_bind.mp run
    obtain ⟨rfl, _⟩ := Dialogue.runs_pure.mp read
    exact within_sent (fun _ => refused) (by simp) (Nat.le_refl 1)

theorem Crates.askFor_within {α : Type} {built : Except Error Request} {parse : Value → Except Error α}
    {result : Except Error α} (run : Dialogue.Runs (C.askFor config built parse) trace result) :
    C.Within config 1 0 trace := by
  unfold Crates.askFor at run
  split at run
  · obtain ⟨rfl, _⟩ := Dialogue.runs_pure.mp run
    exact within_nil
  · obtain ⟨_, sent, _⟩ := Dialogue.runs_bind_pure.mp run
    exact run_within sent

theorem Crates.runMutation_within {request : Request} {kind : MutationKind} {result : Except Error MutationResponse}
    (run : Dialogue.Runs (C.runMutation config request kind) trace result) :
    C.Within config (1 + config.mutationRetries.toNat) 0 trace ∧ (kind = .melt → C.Within config 1 0 trace) := by
  have length := runMutation_length_le run
  have limit := retriesFor_le config kind
  refine ⟨within_sent (refusal_of_sent run) (runMutation_same_request run) (by omega), fun melt => ?_⟩
  rw [melt, retriesFor_melt] at length
  exact within_sent (refusal_of_sent run) (runMutation_same_request run) length

theorem Crates.mutate_within {α : Type} {built : Except Error Request} {kind : MutationKind}
    {outcome : MutationResponse → α} {result : Except Error α}
    (run : Dialogue.Runs (C.mutate config built kind outcome) trace result) :
    C.Within config (1 + config.mutationRetries.toNat) 0 trace ∧ (kind = .melt → C.Within config 1 0 trace) := by
  rcases runs_mutate run with ⟨_, _, rfl, _⟩ | ⟨request, reached, _, mutated, _⟩
  · exact ⟨within_nil, fun _ => within_nil⟩
  · exact runMutation_within mutated

theorem Crates.rotateNote_within {callback k1 : Str} {result : Except Error RotateOutcome}
    (run : Dialogue.Runs (C.rotateNote config callback k1) trace result) :
    C.Within config (1 + config.mutationRetries.toNat) 1 trace := by
  obtain ⟨fresh, attempts, rfl, rest⟩ := Dialogue.runs_query_bind.mp run
  have mutated : C.Within config (1 + config.mutationRetries.toNat) 0 attempts := (mutate_within rest).1
  simpa using (within_draw (C := C) fresh).append mutated

/-- Settling stops at the informational GET, or ends as its rotate does. -/
theorem Crates.settleNote_cases {baseUrl k1 : Str} {amountMsat : UInt64} {signature : Option Str}
    {answer : Except Error SettledNote}
    (run : Dialogue.Runs (C.settleNote config baseUrl k1 amountMsat signature) trace answer) :
    (∃ error, answer = .error error ∧
        (trace = [] ∧ error.newSecrets = [] ∨ ∃ url, Dialogue.Runs (C.fetchNoteInfo config url) trace (.error error))) ∨
      ∃ url info asking rotating rotated, trace = asking ++ rotating ∧
        Dialogue.Runs (C.fetchNoteInfo config url) asking (.ok info) ∧
        Dialogue.Runs (C.rotateNote config info.callback k1) rotating rotated ∧
        answer = settled info k1 signature rotated := by
  unfold Crates.settleNote at run
  split at run
  · obtain ⟨rfl, rfl⟩ := Dialogue.runs_pure.mp run
    exact Or.inl ⟨_, rfl, Or.inl ⟨rfl, rfl⟩⟩
  · rename_i url _
    obtain ⟨asking, rotating, fetched, rfl, asked, continued⟩ := Dialogue.runs_bind.mp run
    cases fetched with
    | error error =>
      obtain ⟨rfl, rfl⟩ := Dialogue.runs_pure.mp continued
      rw [List.append_nil]
      exact Or.inl ⟨error, rfl, Or.inr ⟨url, asked⟩⟩
    | ok info =>
      obtain ⟨rotated, rotates, rfl⟩ := Dialogue.runs_bind_pure.mp continued
      exact Or.inr ⟨url, info, asking, rotating, rotated, rfl, asked, rotates, rfl⟩

theorem Crates.fetchNoteInfo_within {url : Str} {result : Except Error WithdrawRequestInfo}
    (run : Dialogue.Runs (C.fetchNoteInfo config url) trace result) : C.Within config 1 0 trace :=
  askFor_within (C.fetchNoteInfo_eq config url ▸ run)

theorem classifyNoteError_newSecrets (reason : Str) : (classifyNoteError reason).newSecrets = [] := by
  rcases classifyNoteError_cases reason with same | same | same | same <;> rw [same] <;> rfl

theorem Crates.parseNoteInfo_error {body : Value} {queried : Str} {policy : Policy} {error : Error}
    (failed : C.parseNoteInfo body queried policy = .error error) : error.newSecrets = [] := by
  simp only [Crates.parseNoteInfo, bind_eq_error, refuseIf_eq_error, expect_eq_error, pure_ne_error, and_false,
    exists_false, or_false] at failed
  rcases failed with refused | ⟨_, _, ⟨_, rfl⟩ | ⟨_, _, ⟨_, rfl⟩ | ⟨_, _, ⟨_, rfl⟩ | ⟨_, _, ⟨_, rfl⟩ |
    ⟨_, _, minimum | ⟨_, _, ⟨_, rfl⟩ | ⟨_, _, ⟨_, rfl⟩ | ⟨_, _, unpublished⟩⟩⟩⟩⟩⟩⟩⟩
  · rcases classified_cases body with accepted | ⟨reason, same⟩
    · cases accepted.symm.trans refused
    · cases same.symm.trans refused
      exact classifyNoteError_newSecrets reason
  · rfl
  · rfl
  · rfl
  · rfl
  · unfold minWithdrawableOf at minimum
    split at minimum
    · cases minimum
    · cases minimum
    · obtain ⟨_, rfl⟩ := expect_eq_error.mp minimum
      rfl
  · rfl
  · rfl
  · unfold checkMintPubkey at unpublished
    split_ifs at unpublished
    cases unpublished
    rfl

theorem Crates.run_error {request : Request} {error : Error} (plain : request.newSecrets = [])
    (run : Dialogue.Runs (C.run config request) trace (.error error)) : error.newSecrets = [] := by
  unfold Crates.run at run
  split at run
  · cases (Dialogue.runs_pure.mp run).2
    rfl
  · obtain ⟨reply, _, _, read⟩ := Dialogue.runs_query_bind.mp run
    have same := (Dialogue.runs_pure.mp read).2
    cases reply with
    | json body => cases same
    | _ =>
      cases same
      exact plain

/-- What note info fails with carries no secrets. -/
theorem Crates.fetchNoteInfo_error {url : Str} {error : Error}
    (run : Dialogue.Runs (C.fetchNoteInfo config url) trace (.error error)) : error.newSecrets = [] := by
  unfold Crates.fetchNoteInfo at run
  cases asked : C.noteInfoRequest url with
  | error refused =>
    rw [asked] at run
    cases (Dialogue.runs_pure.mp run).2
    unfold Crates.noteInfoRequest at asked
    split at asked
    · cases asked
      rfl
    · cases asked
  | ok request =>
    rw [asked] at run
    obtain ⟨body, sent, ended⟩ := Dialogue.runs_bind_pure.mp run
    cases body with
    | ok body => exact parseNoteInfo_error ended.symm
    | error failure =>
      cases ended
      refine run_error ?_ sent
      unfold Crates.noteInfoRequest at asked
      split at asked
      · cases asked
      · cases asked
        rfl

theorem Crates.settleNote_within {baseUrl k1 : Str} {amountMsat : UInt64} {signature : Option Str}
    {answer : Except Error SettledNote}
    (run : Dialogue.Runs (C.settleNote config baseUrl k1 amountMsat signature) trace answer) :
    C.Within config (2 + config.mutationRetries.toNat) 1 trace := by
  rcases settleNote_cases run with ⟨_, _, ⟨rfl, _⟩ | ⟨url, asked⟩⟩ | ⟨_, _, _, _, _, rfl, asked, rotates, _⟩
  · exact within_nil
  · exact (fetchNoteInfo_within asked).mono (by omega) (by omega)
  · exact ((fetchNoteInfo_within asked).append (rotateNote_within rotates)).mono (by omega) (by omega)

theorem Crates.perform_within {call : ClientCall} {answer : call.Answer}
    (run : Dialogue.Runs (C.perform read config call) trace answer) :
    C.Within config (call.gets config) call.draws trace := by
  cases call with
  | fetchNoteInfo url => exact fetchNoteInfo_within run
  | fetchNoteInfoByHash withdrawLink h => exact askFor_within run
  | fetchMintAddress url =>
    change Dialogue.Runs (C.askFor config (mintAddressRequest url) parseMintAddress) trace answer at run
    exact askFor_within run
  | meltNote callback k1 pr => exact (mutate_within run).2 rfl
  | rotateNote callback k1 => exact rotateNote_within run
  | splitNote callback k1s amountMsat =>
    obtain ⟨fresh, others, rfl, more⟩ := Dialogue.runs_query_bind.mp run
    obtain ⟨change, attempts, rfl, mutated⟩ := Dialogue.runs_query_bind.mp more
    have drawn := (within_draw (C := C) fresh).append ((within_draw change).append (mutate_within mutated).1)
    exact drawn.mono (by simp [ClientCall.gets]) (by simp [ClientCall.draws])
  | mergeNotes callback k1s =>
    obtain ⟨fresh, attempts, rfl, mutated⟩ := Dialogue.runs_query_bind.mp run
    have drawn := (within_draw (C := C) fresh).append (mutate_within mutated).1
    exact drawn.mono (by simp [ClientCall.gets]) (by simp [ClientCall.draws])
  | fetchPayRequest url =>
    change Dialogue.Runs (C.askFor config (payRequestRequest url) (parsePayRequest read)) trace answer at run
    exact askFor_within run
  | requestInvoice payCallback amountMsat => exact askFor_within run
  | requestMintInvoice payCallback amountMsat mintSecret => exact askFor_within run
  | fetchInvoiceVerification verifyUrl =>
    change Dialogue.Runs (C.askFor config (verifyRequest verifyUrl) parseVerify) trace answer at run
    exact askFor_within run
  | probeBurnedNote url =>
    obtain ⟨_, asked, _⟩ := Dialogue.runs_bind_pure.mp run
    exact fetchNoteInfo_within asked
  | settleNote baseUrl k1 expectedAmountMsat signature => exact settleNote_within run

/-- Whatever a wallet calls, in whatever order and upon whatever answers: none
of its GETs goes out offline, each goes to an admitted URL or to where the answer
right before it redirected, and but for those redirects each call stays in its budget. -/
theorem Crates.wallet_traffic {α : Type} {wallet : Wallet α} {value : α} {limit : Nat} {packets : List Packet}
    (run : Dialogue.Runs (onWire limit (wallet.session C read config)) packets value) :
    ∃ calls exchanges, Dialogue.Runs wallet calls value ∧ Dialogue.Handled (C.perform read config) calls exchanges ∧
      Dialogue.Handled (send limit) exchanges packets ∧
      (∀ front url, ∀ hop : Hop, ∀ back, packets = front ++ ⟨.get url, hop⟩ :: back →
        config.offline = false ∧
          (C.isAllowedServiceUrl url ∨ ∃ earlier other, front = earlier ++ [⟨.get other, .redirect url⟩])) ∧
      packets.countP Packet.isLastHop ≤ (calls.map fun call => call.1.gets config).sum ∧
      packets.countP Packet.isGet ≤ (limit + 1) * (calls.map fun call => call.1.gets config).sum ∧
      packets.countP Packet.isDraw ≤ (calls.map fun call => call.1.draws).sum := by
  obtain ⟨exchanges, sent, session⟩ := Dialogue.runs_interpret.mp run
  obtain ⟨calls, handled, made⟩ := Dialogue.runs_interpret.mp session
  have admitted : ∀ url, ∀ reply : Reply, ⟨.get url, reply⟩ ∈ exchanges →
      C.isAllowedServiceUrl url ∧ config.offline = false := by
    intro url reply member
    obtain ⟨front, back, split⟩ := List.append_of_mem member
    obtain ⟨call, answer, part, _, _, _, _, _, _, _, _, performed, _, _, within, _⟩ := handled.asked split
    exact (perform_within performed).admitted url reply (by rw [within]; simp)
  have each : ∀ call part answer, Dialogue.Runs (C.perform read config call) part answer →
      C.Within config (call.gets config) call.draws part := fun _ _ _ performed => perform_within performed
  have gets := handled.countP_le fun call part answer performed => (each call part answer performed).gets
  have draws := handled.countP_le fun call part answer performed => (each call part answer performed).draws
  refine ⟨calls, exchanges, made, handled, sent, fun front url hop back split => ?_, ?_, ?_, ?_⟩
  · obtain ⟨start, ⟨reply, asked⟩, origin⟩ := sends_origin sent split
    obtain ⟨allowed, online⟩ := admitted start reply asked
    refine ⟨online, origin.imp_left ?_⟩
    rintro rfl
    exact allowed
  · exact (sends_countP_le sent (fun _ _ _ followed => followed.countP_isLastHop) fun _ => rfl).trans
      ((Nat.one_mul _).trans_le gets)
  · exact (sends_countP_le sent (fun _ _ _ followed => followed.countP_isGet) fun _ => rfl).trans
      (Nat.mul_le_mul_left _ gets)
  · exact (sends_countP_isDraw sent).trans_le draws

/-- A wallet that rotates a note and is done. -/
def rotateOnce : Wallet (Except Error RotateOutcome) :=
  Dialogue.query (A := ClientCall.Answer) (ClientCall.rotateNote mintCallback spentK1)

theorem reference.runs_rotateOnce (read : Str → Option (List (List Value))) :
    Dialogue.Runs (rotateOnce.session reference read {}) lostThenReplayed
      (.ok { k1 := freshSecret, signature := none }) := by
  have performed : Dialogue.Runs (reference.perform read {} (.rotateNote mintCallback spentK1)) lostThenReplayed
      (.ok { k1 := freshSecret, signature := none }) := reference.rotateNote_lostThenReplayed
  have handled := Dialogue.Handled.cons performed .nil
  rw [List.append_nil] at handled
  exact Dialogue.runs_interpret.mpr ⟨_, handled, .ask .done⟩

/-- The rotate's first GET is redirected, and the answer lost where it leads. -/
def redirectedOnce : List Packet :=
  [⟨.freshSecret, freshSecret⟩, ⟨.get rotation.url, .redirect stolenUrl⟩, ⟨.get stolenUrl, .reply .timedOut⟩,
    ⟨.get rotation.url, .reply (.json okBody)⟩]

theorem reference.rotateOnce_traffic : reference.isAllowedServiceUrl rotation.url ∧
    redirectedOnce.countP Packet.isLastHop = 2 ∧ redirectedOnce.countP Packet.isGet = 3 ∧
    redirectedOnce.countP Packet.isDraw = 1 := by
  have drawn : Dialogue.Runs (send 10 .freshSecret) [⟨.freshSecret, freshSecret⟩] freshSecret := runs_send_draw.mpr rfl
  have lost : Dialogue.Runs (send 10 (.get rotation.url))
      [⟨.get rotation.url, .redirect stolenUrl⟩, ⟨.get stolenUrl, .reply .timedOut⟩] .timedOut :=
    runs_send_get.mpr (.redirected .replied)
  have replayed : Dialogue.Runs (send 10 (.get rotation.url)) [⟨.get rotation.url, .reply (.json okBody)⟩] (.json okBody) :=
    runs_send_get.mpr .replied
  have sent : Dialogue.Handled (send 10) lostThenReplayed redirectedOnce := .cons drawn (.cons lost (.cons replayed .nil))
  have run := Dialogue.runs_interpret.mpr ⟨_, sent, reference.runs_rotateOnce fun _ => none⟩
  obtain ⟨_, _, _, _, _, admitted, _⟩ := Crates.wallet_traffic run
  have first := (admitted [⟨.freshSecret, freshSecret⟩] rotation.url (.redirect stolenUrl) _ rfl).2
  refine ⟨first.resolve_right ?_, rfl, rfl, rfl⟩
  rintro ⟨earlier, other, same⟩
  cases earlier with
  | nil => cases List.singleton_inj.mp same
  | cons _ more => simp at same

/-! ### What becomes of the secrets a call draws -/

/-- The secrets a mutation returns, or its error carries. -/
def handedBack : Except Error (List Str) → List Str
  | .ok secrets => secrets
  | .error error => error.newSecrets

namespace ClientCall

def secrets : (call : ClientCall) → call.Answer → List Str
  | rotateNote .., answer | mergeNotes .., answer => handedBack (answer.map fun outcome => [outcome.k1])
  | splitNote .., answer => handedBack (answer.map fun outcome => [outcome.k1, outcome.change])
  | settleNote .., answer => handedBack (answer.map fun note => [note.k1])
  | _, _ => []

end ClientCall

/-- The secret that an exchange drew. -/
def Exchange.secret? : Exchange → Option Str
  | ⟨.get _, _⟩ => none
  | ⟨.freshSecret, secret⟩ => some secret

/-- The secrets that a run drew, in order. -/
def drawn (trace : List Exchange) : List Str := trace.filterMap Exchange.secret?

theorem drawn_append : drawn (trace ++ rest) = drawn trace ++ drawn rest := List.filterMap_append

theorem drawn_draws (secrets : List Str) : drawn (secrets.map fun secret => (⟨.freshSecret, secret⟩ : Exchange)) = secrets := by
  induction secrets with
  | nil => rfl
  | cons secret secrets ih => exact congrArg (secret :: ·) ih

theorem drawn_eq_nil (undrawn : trace.countP Exchange.isDraw ≤ 0) : drawn trace = [] := by
  refine List.filterMap_eq_nil_iff.mpr fun exchange member => ?_
  have none := List.countP_eq_zero.mp (Nat.le_zero.mp undrawn) exchange member
  obtain ⟨query, answer⟩ := exchange
  cases query with
  | get url => rfl
  | freshSecret => exact absurd rfl none

/-- The error that a call which draws secrets ended in. -/
def ClientCall.failure : (call : ClientCall) → call.Answer → Option Error
  | rotateNote .., .error error | splitNote .., .error error | mergeNotes .., .error error
  | settleNote .., .error error => some error
  | _, _ => none

/-- An error of a kind that carries secrets carries those that were drawn. -/
theorem NoteOperation.session_carries {operation : NoteOperation} {error : Error}
    (run : Dialogue.Runs (operation.session C config) trace (.error error)) (carries : error.carriesSecrets) :
    error.newSecrets = drawn trace := by
  obtain ⟨secrets, attempts, _, rfl, ends⟩ := session_runs run
  rcases ends with ⟨failure, failed, _, same⟩ | ⟨request, reached, built, mutated, same⟩
  · cases same
    cases (request_error failed).symm.trans carries
  · have none : drawn attempts = [] := drawn_eq_nil (Crates.runMutation_within mutated).1.draws
    rw [drawn_append, drawn_draws, none, List.append_nil]
    obtain ⟨_, _, _, _, carried, _⟩ := request_ok built
    rcases Crates.runMutation_last mutated with ⟨_, _, _, rfl⟩ | ⟨_, reply, _, _, _, rfl⟩
    · cases same
      cases carries
    · cases ended : C.attemptOutcome config operation.kind request reply with
      | ok response =>
        rw [ended] at same
        cases same
      | error failure =>
        rw [ended] at same
        cases same
        rw [Error.carriesSecrets_withSecrets] at carries
        rw [Error.newSecrets_withSecrets, if_pos carries, carried]

theorem Crates.rotateNote_carries {callback k1 : Str} {error : Error}
    (run : Dialogue.Runs (C.rotateNote config callback k1) trace (.error error)) (carries : error.carriesSecrets) :
    error.newSecrets = drawn trace :=
  NoteOperation.session_carries (NoteOperation.session_of_rotateNote run) carries

theorem Crates.settleNote_carries {baseUrl k1 : Str} {amountMsat : UInt64} {signature : Option Str} {error : Error}
    (run : Dialogue.Runs (C.settleNote config baseUrl k1 amountMsat signature) trace (.error error))
    (carries : error.carriesSecrets) : error.newSecrets = drawn trace := by
  rcases settleNote_cases run with ⟨_, same, ⟨rfl, none⟩ | ⟨url, asked⟩⟩ | ⟨_, _, _, _, rotated, rfl, asked, rotates, same⟩
  · cases same
    exact none
  · cases same
    rw [fetchNoteInfo_error asked, drawn_eq_nil (fetchNoteInfo_within asked).draws]
  · rw [drawn_append, drawn_eq_nil (fetchNoteInfo_within asked).draws, List.nil_append]
    cases rotated with
    | ok outcome => cases same
    | error failure =>
      by_cases burnsNothing : failure.burnsNothing
      · rw [settled, if_pos burnsNothing] at same
        cases same
      · rw [settled, if_neg burnsNothing] at same
        cases same
        exact rotateNote_carries rotates carries

theorem Crates.perform_carries {call : ClientCall} {answer : call.Answer} {error : Error}
    (run : Dialogue.Runs (C.perform read config call) trace answer) (failed : call.failure answer = some error)
    (carries : error.carriesSecrets) : error.newSecrets = drawn trace := by
  cases call with
  | rotateNote callback k1 =>
    cases answer with
    | ok outcome => cases failed
    | error failure =>
      cases failed
      exact rotateNote_carries run carries
  | splitNote callback k1s amountMsat =>
    cases answer with
    | ok outcome => cases failed
    | error failure =>
      cases failed
      exact NoteOperation.session_carries (NoteOperation.session_of_splitNote run) carries
  | mergeNotes callback k1s =>
    cases answer with
    | ok outcome => cases failed
    | error failure =>
      cases failed
      exact NoteOperation.session_carries (NoteOperation.session_of_mergeNotes run) carries
  | settleNote baseUrl k1 expectedAmountMsat signature =>
    cases answer with
    | ok note => cases failed
    | error failure =>
      cases failed
      exact settleNote_carries run carries
  | _ => cases failed

section HandedBack

variable {callback k1 secret : Str}

end HandedBack

end LnurlCash
