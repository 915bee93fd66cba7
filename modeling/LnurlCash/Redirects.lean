import LnurlCash.Lib.Handlers
import LnurlCash.Client

namespace LnurlCash

/-! What one GET of a session is on the wire. The client sets no redirect
policy, so its HTTP client goes on by itself to wherever an answer redirects it. -/

/-- An answer on the wire: a redirect that the HTTP client goes on to, or what it makes of any other. -/
inductive Hop where
  | redirect (target : Str)
  | reply (reply : Reply)

abbrev Query.WireAnswer : Query → Type
  | get _ => Hop
  | freshSecret => Str

abbrev Wire := Dialogue Query Query.WireAnswer

abbrev Packet := Dialogue.Event Query Query.WireAnswer

/-- One send of the HTTP client. It follows at most `limit` redirects, ten unless
told otherwise, looks at no target it goes to, and fails upon one redirect more. -/
def follow : (limit : Nat) → Str → Wire Reply
  | 0, url => do
    match ← Dialogue.query (Query.get url) with
    | .reply reply => pure reply
    | .redirect _ => pure .unreachable
  | limit + 1, url => do
    match ← Dialogue.query (Query.get url) with
    | .reply reply => pure reply
    | .redirect target => follow limit target

def send (limit : Nat) : (query : Query) → Wire query.Answer
  | .get url => follow limit url
  | .freshSecret => Dialogue.query (A := Query.WireAnswer) .freshSecret

/-- The session with every redirect that its GETs follow. -/
def onWire {α : Type} (limit : Nat) (session : Session α) : Wire α := Dialogue.interpret (send limit) session

/-- An exchange answered at once. -/
def Exchange.direct : Exchange → Packet
  | ⟨.get url, reply⟩ => ⟨.get url, .reply reply⟩
  | ⟨.freshSecret, secret⟩ => ⟨.freshSecret, secret⟩

namespace Packet

def isRedirect : Packet → Bool
  | ⟨.get _, .redirect _⟩ => true
  | ⟨.get _, .reply _⟩ => false
  | ⟨.freshSecret, _⟩ => false

def isGet : Packet → Bool
  | ⟨.get _, _⟩ => true
  | ⟨.freshSecret, _⟩ => false

def isDraw (packet : Packet) : Bool := !packet.isGet

/-- A GET that leads to no other. -/
def isLastHop (packet : Packet) : Bool := packet.isGet && !packet.isRedirect

end Packet

theorem Packet.reply_inj {url other : Str} {reply answer : Reply}
    (equal : (⟨.get url, .reply reply⟩ : Packet) = ⟨.get other, .reply answer⟩) : reply = answer := by
  cases equal
  rfl

/-- No answer is a redirect that the HTTP client goes on to. -/
def Unredirected (trace : List Packet) : Prop := ∀ packet ∈ trace, packet.isRedirect = false

/-! ### One send -/

/-- The hops of one send, each where the one before it redirected. -/
inductive Followed : Nat → Str → List Packet → Reply → Prop
  | replied {limit url reply} : Followed limit url [⟨.get url, .reply reply⟩] reply
  | exceeded {url target} : Followed 0 url [⟨.get url, .redirect target⟩] .unreachable
  | redirected {limit url target part reply} : Followed limit target part reply →
      Followed (limit + 1) url (⟨.get url, .redirect target⟩ :: part) reply

theorem runs_follow {limit : Nat} {url : Str} {part : List Packet} {reply : Reply} :
    Dialogue.Runs (follow limit url) part reply ↔ Followed limit url part reply := by
  constructor
  · intro run
    induction limit generalizing url part with
    | zero =>
      obtain ⟨hop, rest, rfl, ended⟩ := Dialogue.runs_query_bind.mp run
      cases hop with
      | reply answer =>
        obtain ⟨rfl, rfl⟩ := Dialogue.runs_pure.mp ended
        exact .replied
      | redirect target =>
        obtain ⟨rfl, rfl⟩ := Dialogue.runs_pure.mp ended
        exact .exceeded
    | succ limit ih =>
      obtain ⟨hop, rest, rfl, ended⟩ := Dialogue.runs_query_bind.mp run
      cases hop with
      | reply answer =>
        obtain ⟨rfl, rfl⟩ := Dialogue.runs_pure.mp ended
        exact .replied
      | redirect target => exact .redirected (ih ended)
  · intro followed
    induction followed with
    | @replied limit url reply => cases limit <;> exact .ask .done
    | exceeded => exact .ask .done
    | redirected _ ih => exact .ask ih

section Send

variable {limit : Nat} {start url : Str} {hop : Hop} {ahead behind part trace : List Packet} {reply : Reply}
  {exchanges : List Exchange}

/-- Each hop is the send's own URL, or where the hop right before it redirected. -/
theorem Followed.origin (followed : Followed limit start part reply) (split : part = ahead ++ ⟨.get url, hop⟩ :: behind) :
    ahead = [] ∧ url = start ∨ ∃ earlier other, ahead = earlier ++ [⟨.get other, .redirect url⟩] := by
  induction followed generalizing ahead with
  | replied | exceeded =>
    cases ahead with
    | nil =>
      cases split
      exact Or.inl ⟨rfl, rfl⟩
    | cons first more => simp at split
  | @redirected limit start target part reply _ ih =>
    cases ahead with
    | nil =>
      cases split
      exact Or.inl ⟨rfl, rfl⟩
    | cons first more =>
      obtain ⟨rfl, later⟩ := List.cons.inj split
      rcases ih later with ⟨rfl, rfl⟩ | ⟨earlier, other, rfl⟩
      · exact Or.inr ⟨[], start, rfl⟩
      · exact Or.inr ⟨_ :: earlier, other, rfl⟩

theorem Followed.countP_isGet (followed : Followed limit start part reply) : part.countP Packet.isGet ≤ limit + 1 := by
  induction followed with
  | replied => exact Nat.succ_le_succ (Nat.zero_le _)
  | exceeded => exact Nat.le_refl 1
  | redirected _ ih => exact (List.countP_cons_of_pos rfl).trans_le (Nat.succ_le_succ ih)

theorem Followed.countP_isLastHop (followed : Followed limit start part reply) : part.countP Packet.isLastHop ≤ 1 := by
  induction followed with
  | replied => exact Nat.le_refl 1
  | exceeded => exact Nat.zero_le 1
  | redirected _ ih => exact (List.countP_cons_of_neg (by simp [Packet.isLastHop, Packet.isRedirect])).trans_le ih

theorem Followed.countP_isDraw (followed : Followed limit start part reply) : part.countP Packet.isDraw = 0 := by
  induction followed with
  | replied => rfl
  | exceeded => rfl
  | redirected _ ih => exact (List.countP_cons_of_neg (by simp [Packet.isDraw, Packet.isGet])).trans ih

/-- A send that is redirected nowhere is one GET. -/
theorem Followed.eq_singleton (followed : Followed limit start part reply) (plain : Unredirected part) :
    part = [⟨.get start, .reply reply⟩] := by
  cases followed with
  | replied => rfl
  | exceeded => cases plain _ List.mem_cons_self
  | redirected _ => cases plain _ List.mem_cons_self

theorem Followed.ne_nil (followed : Followed limit start part reply) : part ≠ [] := by cases followed <;> simp

/-- A send that is redirected at all goes on to its first target. -/
theorem Followed.goes_on (followed : Followed limit start part reply) (follows : 0 < limit)
    (redirected : ¬Unredirected part) : ∃ target next rest, part = ⟨.get start, .redirect target⟩ :: next :: rest := by
  cases followed with
  | replied =>
    refine absurd (fun packet member => ?_) redirected
    cases List.mem_singleton.mp member
    rfl
  | exceeded => cases follows
  | redirected more =>
    obtain ⟨next, rest, rfl⟩ := List.exists_cons_of_ne_nil more.ne_nil
    exact ⟨_, next, rest, rfl⟩

theorem runs_send_get : Dialogue.Runs (send limit (.get url)) part reply ↔ Followed limit url part reply := runs_follow

theorem runs_send_draw {secret : Str} :
    Dialogue.Runs (send limit .freshSecret) part secret ↔ part = [⟨.freshSecret, secret⟩] := Dialogue.runs_query

/-! ### The sends of a session -/

theorem Unredirected.append {more : List Packet} :
    Unredirected (trace ++ more) ↔ Unredirected trace ∧ Unredirected more := List.forall_mem_append

theorem unredirected_direct (exchanges : List Exchange) : Unredirected (exchanges.map Exchange.direct) := by
  intro packet member
  obtain ⟨⟨query, answer⟩, _, rfl⟩ := List.mem_map.mp member
  cases query <;> rfl

/-- Without redirects the wire shows the session's own exchanges. -/
theorem sends_direct (handled : Dialogue.Handled (send limit) exchanges trace) (plain : Unredirected trace) :
    trace = exchanges.map Exchange.direct := by
  induction handled with
  | nil => rfl
  | @cons query answer part exchanges trace sent _ ih =>
    obtain ⟨first, rest⟩ := Unredirected.append.mp plain
    rw [List.map_cons, ← ih rest]
    cases query with
    | get url => rw [(runs_send_get.mp sent).eq_singleton first]; rfl
    | freshSecret => rw [runs_send_draw.mp sent]; rfl

theorem handled_direct (limit : Nat) (exchanges : List Exchange) :
    Dialogue.Handled (send limit) exchanges (exchanges.map Exchange.direct) := by
  induction exchanges with
  | nil => exact .nil
  | cons exchange exchanges ih =>
    obtain ⟨query, answer⟩ := exchange
    cases query with
    | get url =>
      have sent : Dialogue.Runs (send limit (.get url)) [Exchange.direct ⟨.get url, answer⟩] answer :=
        runs_send_get.mpr .replied
      exact .cons sent ih
    | freshSecret =>
      have drawn : Dialogue.Runs (send limit .freshSecret) [Exchange.direct ⟨.freshSecret, answer⟩] answer :=
        runs_send_draw.mpr rfl
      exact .cons drawn ih

theorem runs_direct {α : Type} {session : Session α} {value : α} (limit : Nat)
    (run : Dialogue.Runs session exchanges value) :
    Dialogue.Runs (onWire limit session) (exchanges.map Exchange.direct) value :=
  Dialogue.runs_interpret.mpr ⟨exchanges, handled_direct limit exchanges, run⟩

/-- A redirected run goes on to some target. -/
theorem sends_go_on (handled : Dialogue.Handled (send limit) exchanges trace) (follows : 0 < limit)
    (redirected : ¬Unredirected trace) :
    ∃ before url target next after, trace = before ++ ⟨.get url, .redirect target⟩ :: next :: after := by
  induction handled with
  | nil => exact absurd (fun _ member => absurd member List.not_mem_nil) redirected
  | @cons query answer part exchanges trace sent _ ih =>
    by_cases later : Unredirected trace
    · have first : ¬Unredirected part := fun plain => redirected (Unredirected.append.mpr ⟨plain, later⟩)
      cases query with
      | get url =>
        obtain ⟨target, next, rest, rfl⟩ := (runs_send_get.mp sent).goes_on follows first
        exact ⟨[], url, target, next, rest ++ trace, rfl⟩
      | freshSecret =>
        rw [runs_send_draw.mp sent] at first
        exact absurd (unredirected_direct [⟨.freshSecret, answer⟩]) first
    · obtain ⟨before, url, target, next, after, rfl⟩ := ih later
      exact ⟨part ++ before, url, target, next, after, (List.append_assoc ..).symm⟩

/-- What holds of the session's own exchanges and of no redirect that is followed holds of the unredirected runs alone. -/
theorem sends_iff_unredirected (allowed : List Packet → Prop) (handled : Dialogue.Handled (send limit) exchanges trace)
    (follows : 0 < limit) (direct : allowed (exchanges.map Exchange.direct))
    (excludes : ∀ before url target next after,
      trace = before ++ ⟨.get url, .redirect target⟩ :: next :: after → ¬allowed trace) :
    allowed trace ↔ Unredirected trace := by
  constructor
  · intro held
    by_contra redirected
    obtain ⟨before, url, target, next, after, split⟩ := sends_go_on handled follows redirected
    exact excludes before url target next after split held
  · intro plain
    rw [sends_direct handled plain]
    exact direct

/-- Every GET on the wire is one of the session's, or where the answer right before it redirected. -/
theorem sends_origin {front back : List Packet} (handled : Dialogue.Handled (send limit) exchanges trace)
    (split : trace = front ++ ⟨.get url, hop⟩ :: back) :
    ∃ start, (∃ reply : Reply, ⟨.get start, reply⟩ ∈ exchanges) ∧
      (url = start ∨ ∃ earlier other, front = earlier ++ [⟨.get other, .redirect url⟩]) := by
  obtain ⟨query, answer, part, earlier, later, before, ahead, behind, after, rfl, _, sent, _, rfl, inside, _⟩ :=
    handled.asked split
  cases query with
  | get start =>
    refine ⟨start, ⟨answer, by simp⟩, ?_⟩
    rcases (runs_send_get.mp sent).origin inside with ⟨_, rfl⟩ | ⟨first, other, rfl⟩
    · exact Or.inl rfl
    · exact Or.inr ⟨before ++ first, other, (List.append_assoc ..).symm⟩
  | freshSecret =>
    rw [runs_send_draw.mp sent] at inside
    cases ahead with
    | nil => cases inside
    | cons first more => simp at inside

theorem sends_countP_le {counted : Packet → Bool} {most : Nat} (handled : Dialogue.Handled (send limit) exchanges trace)
    (each : ∀ start part reply, Followed limit start part reply → part.countP counted ≤ most)
    (draws : ∀ secret, counted ⟨.freshSecret, secret⟩ = false) :
    trace.countP counted ≤ most * exchanges.countP Exchange.isGet := by
  induction handled with
  | nil => exact Nat.zero_le _
  | @cons query answer part exchanges trace sent _ ih =>
    rw [List.countP_append]
    cases query with
    | get start =>
      rw [List.countP_cons_of_pos rfl, Nat.mul_succ, Nat.add_comm]
      exact Nat.add_le_add ih (each start part answer (runs_send_get.mp sent))
    | freshSecret =>
      rw [List.countP_cons_of_neg (by simp [Exchange.isGet]), runs_send_draw.mp sent, List.countP_singleton, draws answer]
      simpa using ih

theorem sends_countP_isDraw (handled : Dialogue.Handled (send limit) exchanges trace) :
    trace.countP Packet.isDraw = exchanges.countP Exchange.isDraw := by
  induction handled with
  | nil => rfl
  | @cons query answer part exchanges trace sent _ ih =>
    rw [List.countP_append, ih]
    cases query with
    | get start =>
      rw [(runs_send_get.mp sent).countP_isDraw, Nat.zero_add, List.countP_cons_of_neg (by simp [Exchange.isDraw])]
    | freshSecret =>
      have drawn : (⟨.freshSecret, answer⟩ :: exchanges : List Exchange).countP Exchange.isDraw =
          exchanges.countP Exchange.isDraw + 1 := List.countP_cons_of_pos rfl
      rw [runs_send_draw.mp sent, drawn, Nat.add_comm]
      rfl

end Send

end LnurlCash
