import LnurlCash.NoteLookups
import LnurlCash.NoteRewrites
import LnurlCash.ReplayedWallets
import LnurlCash.UnseenSecrets

namespace LnurlCash

open Outcome

variable {C : Crates} {secret h : Str} {key : ByteArr 32}

/-- A text that is a spend of this note wherever it goes. -/
def Crates.OpensEverywhere (C : Crates) (k1 : Str) (key : ByteArr 32) : Prop :=
  C.noteIdOf k1 = some (Hex.encode key.toList) ∧
    ∀ domain, C.checkSpend k1 domain = some { outputKey := key, verdict := .opens }

theorem Crates.OpensEverywhere.lower {k1 : Str} (opens : C.OpensEverywhere k1 key) :
    C.OpensEverywhere (Str.lower k1) key := by
  obtain ⟨spend, spends, _⟩ := Option.map_eq_some_iff.mp opens.1
  constructor
  · rw [noteIdOf, decodeSpend_lower spends, ← spends]
    exact opens.1
  · intro domain
    rw [checkSpend, decodeSpend_lower spends, ← spends]
    exact opens.2 domain

theorem Crates.Opens.everywhere (opens : C.Opens secret h) (named : C.decodeNote h = some key) :
    C.OpensEverywhere secret key := by
  obtain ⟨_, _, _, named', identified, checks⟩ := opens
  cases named'.symm.trans named
  exact ⟨identified, checks⟩

/-! ### Minting -/

section Minting

variable {withdrawLink payCallback : Str} {amountMsat : UInt64} {request : Request}

/-- A note URL built from a link states the secret and the amount it was built with. -/
theorem Crates.buildNoteUrl_states (keeps : C.url.KeepsPairs)
    (parses : (C.url.parse (fromLud17 (Str.trim withdrawLink))).isSome) (k1 : Str) (declared : Option UInt64) :
    ∃ note, C.buildNoteUrl withdrawLink k1 declared = some note ∧ C.noteK1 note = some (Str.lower (Str.trim k1)) ∧
      ∀ amount, declared = some amount → C.noteDeclaredAmount note = some amount := by
  obtain ⟨link, parsed⟩ := Option.isSome_iff_exists.mp parses
  let kept := (C.url.queryPairs link).filter fun pair => pair.1 ≠ "k1".toList ∧ pair.1 ≠ "amount".toList
  have noK1 : kept.lookup "k1".toList = none :=
    lookup_of_notMem fun _ member => (of_decide_eq_true (List.mem_filter.mp member).2).1 rfl
  have noAmount : kept.lookup "amount".toList = none :=
    lookup_of_notMem fun _ member => (of_decide_eq_true (List.mem_filter.mp member).2).2 rfl
  have secret : ∀ rest, C.noteK1 (C.rebuild link (kept ++ ("k1".toList, Str.lower (Str.trim k1)) :: rest)) =
      some (Str.lower (Str.trim k1)) := by
    intro rest
    rw [noteK1, firstParam_rebuild keeps parsed, List.lookup_append, noK1, Option.none_or, List.lookup_cons_self,
      Option.map_some, Str.lower_lower]
  cases declared with
  | none =>
    have built : C.buildNoteUrl withdrawLink k1 none =
        some (C.rebuild link (kept ++ [("k1".toList, Str.lower (Str.trim k1))])) := by
      simp only [buildNoteUrl, parsed, Option.bind_eq_bind, Option.bind_some, List.append_nil, kept]
    exact ⟨_, built, secret [], fun _ same => absurd same (by simp)⟩
  | some amount =>
    have built : C.buildNoteUrl withdrawLink k1 (some amount) = some (C.rebuild link (kept ++
        [("k1".toList, Str.lower (Str.trim k1)), ("amount".toList, Str.decimal amount.toNat)])) := by
      simp only [buildNoteUrl, parsed, Option.bind_eq_bind, Option.bind_some, List.append_assoc, List.singleton_append,
        kept]
    refine ⟨_, built, secret _, ?_⟩
    intro _ same
    cases same
    have written : (kept ++ [("k1".toList, Str.lower (Str.trim k1)), ("amount".toList, Str.decimal amount.toNat)]).lookup
        "amount".toList = some (Str.decimal amount.toNat) := by
      rw [List.lookup_append, noAmount]
      rfl
    simp only [noteDeclaredAmount, firstParam_rebuild keeps parsed, written, parseUnsigned_decimal]

/-- A note is looked up by the text it was asked for by. -/
theorem Crates.buildNoteInfoUrlByHash_names (keeps : C.url.KeepsPairs)
    (parses : (C.url.parse (fromLud17 (Str.trim withdrawLink))).isSome) (clean : Str.lower (Str.trim h) = h)
    (named : C.decodeNote h = some key) :
    ∃ lookup, C.buildNoteInfoUrlByHash withdrawLink h = some lookup ∧ C.firstParam lookup "p".toList = some h := by
  have note : C.decodeNote (Str.lower (Str.trim h)) = some key := clean.symm ▸ named
  obtain ⟨lookup, built⟩ := Option.isSome_iff_exists.mp (buildNoteInfoUrlByHash_isSome note parses)
  obtain ⟨link, _, parsed, _, rfl⟩ := buildNoteInfoUrlByHash_eq_some built
  refine ⟨_, built, ?_⟩
  have absent : ((C.url.queryPairs link).filter fun pair => !noteParams.contains pair.1).lookup "p".toList = none :=
    lookup_of_notMem fun _ => by simp [noteParams]
  rw [firstParam_rebuild keeps parsed, List.lookup_append, absent, Option.none_or, List.lookup_cons_self, clean]

/-- Minting speaks of one note throughout: the invoice names it by its hash, the
secret opens it, a link with the secret is its URL, and it is looked up as the invoice named it. -/
theorem Crates.minted_note_is_one (keeps : C.url.KeepsPairs) (usable : C.Usable secret)
    (built : C.mintInvoiceRequest payCallback amountMsat secret = .ok request) :
    ∃ h key, request.newSecrets = [secret] ∧ C.decodeNote h = some key ∧ C.OpensEverywhere secret key ∧
      C.noteLookupOf secret = some h ∧
      (∃ url out, C.url.parse payCallback = some url ∧ C.url.parse request.url = some out ∧
        C.url.queryPairs out = C.url.queryPairs url ++
          [("amount".toList, Str.decimal amountMsat.toNat), ("comment".toList, h), ("h".toList, h)]) ∧
      ∀ withdrawLink, (C.url.parse (fromLud17 (Str.trim withdrawLink))).isSome → ∀ declared : Option UInt64,
        ∃ note k1 lookup, C.buildNoteUrl withdrawLink secret declared = some note ∧ C.noteK1 note = some k1 ∧
          C.OpensEverywhere k1 key ∧ (∀ amount, declared = some amount → C.noteDeclaredAmount note = some amount) ∧
          C.buildNoteInfoUrlByHash withdrawLink h = some lookup ∧ C.firstParam lookup "p".toList = some h := by
  obtain ⟨h, hashed, named⟩ := usable
  obtain ⟨key, note⟩ := Option.isSome_iff_exists.mp named
  simp only [mintInvoiceRequest, bind_eq_ok, refuseIf_eq_ok, pure_eq_ok, Bool.not_eq_true,
    Bool.not_eq_false'] at built
  obtain ⟨_, preimage, _, hashed', invoice, requested, rfl⟩ := built
  cases Except.ok.inj (hashed.symm.trans hashed')
  have opens := ((opens_iff hashed named).mpr preimage).everywhere note
  obtain ⟨bytes, decoded, rfl⟩ := hashK1_ok hashed
  have clean := Hex.trim_of_decode decoded
  have lookup : C.noteLookupOf secret = some (Hex.encode (C.sha256 bytes).toList) := by
    simp only [noteLookupOf, preimage, if_true, hashK1, Hex.decode_lower, clean, decoded]
    rfl
  obtain ⟨url, parsed, sent⟩ := mintInvoiceRequestWithHash_encode requested
  obtain ⟨out, again, pairs⟩ := keeps.appended parsed [("amount".toList, Str.decimal amountMsat.toNat),
    ("comment".toList, Hex.encode (C.sha256 bytes).toList), ("h".toList, Hex.encode (C.sha256 bytes).toList)]
  refine ⟨_, key, rfl, note, opens, lookup, ⟨url, out, parsed, sent ▸ again, pairs⟩, ?_⟩
  intro withdrawLink parses declared
  obtain ⟨text, made, stated, amount⟩ := buildNoteUrl_states keeps parses secret declared
  rw [clean] at stated
  have lowercase : Str.lower (Str.trim (Hex.encode (C.sha256 bytes).toList)) = Hex.encode (C.sha256 bytes).toList := by
    rw [Hex.trim_encode, Hex.lower_encode]
  obtain ⟨asked, found, carried⟩ := buildNoteInfoUrlByHash_names keeps parses lowercase note
  exact ⟨text, _, asked, made, stated, opens.lower, amount, found, carried⟩

set_option maxRecDepth 100000 in
theorem reference.mints_fresh : (reference.mintInvoiceRequest mintCallback 1000 freshSecret).toOption.isSome := by
  decide +kernel

theorem reference.fresh_note_is_one : ∃ h key, reference.decodeNote h = some key ∧
    reference.OpensEverywhere freshSecret key ∧ reference.noteLookupOf freshSecret = some h := by
  obtain ⟨request, found⟩ := Option.isSome_iff_exists.mp reference.mints_fresh
  obtain ⟨h, key, _, note, opens, lookup, _⟩ := Crates.minted_note_is_one reference.keepsPairs
    reference.usable_secrets.1 (toOption_eq_some.mp found)
  exact ⟨h, key, note, opens, lookup⟩

end Minting

/-! ### What a wallet stores of a mutation -/

/-- The secrets an answer says now stand for minted notes. -/
def ClientCall.minted : (call : ClientCall) → call.Answer → List Str
  | rotateNote .., .ok outcome | mergeNotes .., .ok outcome => [outcome.k1]
  | splitNote .., .ok outcome => [outcome.k1, outcome.change]
  | settleNote _ k1 _ _, .ok note => if note.k1 = k1 then [] else [note.k1]
  | rotateNote .., .error (.unverifiable _ secrets) | mergeNotes .., .error (.unverifiable _ secrets)
  | splitNote .., .error (.unverifiable _ secrets) | settleNote .., .error (.unverifiable _ secrets) => secrets
  | _, _ => []

section Stored

variable {config : ClientConfig} {others : Str → Prop} {read : Str → Option (List (List Value))} {trace : List Exchange}
  {operation : NoteOperation} {secrets : List Str} {ledger : Ledger}

theorem confirmed_unverifiable {message : Str} (member : secret ∈ secrets) :
    Confirmed (.error (.unverifiable message secrets)) secrets :=
  Or.inr ⟨List.ne_nil_of_mem member, message, rfl⟩

theorem ClientCall.landed_of_minted {call : ClientCall} {answer : call.Answer} (booked : call.Booked C ledger answer)
    (member : secret ∈ call.minted answer) :
    ∃ operation secrets, secret ∈ secrets ∧ C.Landed operation secrets ledger := by
  cases call with
  | rotateNote callback k1 =>
    cases answer with
    | ok outcome => exact ⟨_, _, member, booked [outcome.k1] (Or.inl rfl)⟩
    | error error =>
      cases error with
      | unverifiable message secrets => exact ⟨_, _, member, booked secrets (confirmed_unverifiable member)⟩
      | _ => cases member
  | mergeNotes callback k1s =>
    cases answer with
    | ok outcome => exact ⟨_, _, member, booked [outcome.k1] (Or.inl rfl)⟩
    | error error =>
      cases error with
      | unverifiable message secrets => exact ⟨_, _, member, booked secrets (confirmed_unverifiable member)⟩
      | _ => cases member
  | splitNote callback k1s amountMsat =>
    cases answer with
    | ok outcome => exact ⟨_, _, member, booked [outcome.k1, outcome.change] (Or.inl rfl)⟩
    | error error =>
      cases error with
      | unverifiable message secrets => exact ⟨_, _, member, booked secrets (confirmed_unverifiable member)⟩
      | _ => cases member
  | settleNote baseUrl k1 expectedAmountMsat signature =>
    cases answer with
    | ok note =>
      rcases booked [note.k1] (Or.inl rfl) with ⟨_, _, same⟩ | ⟨callback, landed⟩
      · have kept : ClientCall.minted (.settleNote baseUrl k1 expectedAmountMsat signature) (.ok note) = [] :=
          if_pos (List.singleton_inj.mp same)
        rw [kept] at member
        cases member
      · have within : secret ∈ [note.k1] := by
          simp only [ClientCall.minted] at member
          split_ifs at member
          · cases member
          · exact member
        exact ⟨_, _, within, landed⟩
    | error error =>
      cases error with
      | unverifiable message secrets =>
        rcases booked secrets (confirmed_unverifiable member) with ⟨_, ended, _⟩ | ⟨callback, landed⟩
        · cases ended
        · exact ⟨_, _, member, landed⟩
      | _ => cases member
  | _ => cases member

/-- Whatever a wallet did at a replaying mint, and whatever became of its GETs on
the way: each note URL it writes with a secret that a mutation returned to it
opens, at that secret's lowercase spelling, a note the mint has issued. -/
theorem Crates.stored_notes_are_issued {α : Type} {wallet : Wallet α} {value : α}
    {start world : Network.World Query Query.Answer MintLog α} (keeps : C.url.KeepsPairs) (origin : C.url.KeepsOrigin)
    (began : start.program = wallet.session C read config) (backed : C.Backed start.server)
    (reach : Network.Reaches (C.replayNetwork others) start trace world) (finished : world.program = .done value) :
    ∃ calls, Dialogue.Handled (C.perform read config) calls trace ∧ Dialogue.Runs wallet calls value ∧
      ∀ call answer, ⟨call, answer⟩ ∈ calls → ∀ secret ∈ call.minted answer, isPreimage secret →
        ∃ note ∈ world.server.state.issued, ∀ url link amountMsat signature, C.url.parse url = some link →
          ∃ text k1, C.withNewK1 url secret amountMsat signature = some text ∧ C.noteK1 text = some k1 ∧
            C.OpensEverywhere k1 note ∧ C.noteSignature text = signature ∧
            C.noteDeclaredAmount text = some (statedAmount amountMsat signature) := by
  have run : Dialogue.Runs start.program (trace ++ []) value := reach.runs (finished ▸ .done)
  rw [began, List.append_nil] at run
  obtain ⟨calls, handled, made⟩ := Dialogue.runs_interpret.mp run
  refine ⟨calls, handled, made, fun call answer among secret member preimage => ?_⟩
  have booked := booked_of_handled keeps origin reach (backed_invariant.reaches backed reach) handled among
  obtain ⟨operation, secrets, within, landed⟩ := ClientCall.landed_of_minted booked member
  obtain ⟨output, note, opens, named, issued⟩ := landed.minted secret within preimage
  refine ⟨note, issued, fun url link amountMsat signature parsed => ?_⟩
  obtain ⟨text, rewritten, restated⟩ := withNewK1_restates keeps parsed secret amountMsat signature
  exact ⟨text, _, rewritten, restated.secret, (opens.everywhere named).lower, restated.certified, restated.stated⟩

theorem reference.rotateOnce_stored : ∃ world : Network.World Query Query.Answer MintLog (Except Error RotateOutcome),
    Network.Reaches (reference.replayNetwork fun _ => False)
        ⟨issuedMint, [], rotateOnce.session reference (fun _ => none) {}⟩ lostThenReplayed world ∧
      ∃ note ∈ world.server.state.issued, ∃ text k1, reference.withNewK1 staleNote freshSecret 7 none = some text ∧
        reference.noteK1 text = some k1 ∧ reference.OpensEverywhere k1 note := by
  obtain ⟨before, world, reach, step, finished⟩ := reference.rotation_replayed (reference.runs_rotateOnce fun _ => none)
  obtain ⟨calls, _, made, stored⟩ := Crates.stored_notes_are_issued reference.keepsPairs reference.keepsOrigin rfl
    reference.backed_issuedMint (reach.tail step) finished
  have only : calls = [⟨.rotateNote mintCallback spentK1, .ok { k1 := freshSecret, signature := none }⟩] :=
    Dialogue.runs_query.mp made
  obtain ⟨note, issued, opens⟩ := stored (.rotateNote mintCallback spentK1) _ (by rw [only]; exact List.mem_cons_self)
    freshSecret List.mem_cons_self (by decide)
  have parses : (reference.url.parse staleNote).isSome := by decide +kernel
  obtain ⟨link, parsed⟩ := Option.isSome_iff_exists.mp parses
  obtain ⟨text, k1, rewritten, carried, everywhere, _⟩ := opens staleNote link 7 none parsed
  exact ⟨world, reach.tail step, note, issued, text, k1, rewritten, carried, everywhere⟩

end Stored

end LnurlCash
