import LnurlCash.Bolt11
import LnurlCash.Protocol

namespace LnurlCash

open Outcome

structure InvoiceResult where
  pr : Str
  verify : Option Str
  disposable : Bool
  deriving DecidableEq

def invoiceForAnother (invoiced requestedMsat : UInt64) : Error :=
  .protocol ("the service returned an invoice for ".toList ++ Str.decimal invoiced.toNat ++ " msat, not the ".toList ++
    Str.decimal requestedMsat.toNat ++ " requested".toList)

/-- The amount read off the invoice is held to the one asked for; where none is read, the invoice passes. -/
def checkInvoiced (requestedMsat : UInt64) : Option UInt64 → Except Error Unit
  | some invoiced => refuseIf (invoiced ≠ requestedMsat) (invoiceForAnother invoiced requestedMsat)
  | none => .ok ()

def parseInvoice (body : Value) (requestedMsat : UInt64) : Except Error InvoiceResult := do
  rejectError body
  let pr ← expect (.protocol "the service did not return an invoice".toList) (asStr body "pr".toList)
  checkInvoiced requestedMsat (decodeBolt11AmountMsat pr)
  return {
    pr
    verify := asStr body "verify".toList
    disposable := decide ((body.get? "disposable".toList).bind Value.asBool? ≠ some false) }

variable {body : Value} {requestedMsat : UInt64} {part : Bolt11Part} {pr : Str}

theorem checkInvoiced_eq_ok {read : Option UInt64} {u : Unit} :
    checkInvoiced requestedMsat read = .ok u ↔ ∀ invoiced, read = some invoiced → invoiced = requestedMsat := by
  cases read with
  | none => simp [checkInvoiced]
  | some invoiced => simp [checkInvoiced]

theorem parseInvoice_eq_ok {invoice : InvoiceResult} :
    parseInvoice body requestedMsat = .ok invoice ↔
      rejectError body = .ok () ∧ asStr body "pr".toList = some invoice.pr ∧
        (∀ invoiced, decodeBolt11AmountMsat invoice.pr = some invoiced → invoiced = requestedMsat) ∧
        invoice.verify = asStr body "verify".toList ∧
        invoice.disposable = decide ((body.get? "disposable".toList).bind Value.asBool? ≠ some false) := by
  simp only [parseInvoice, bind_eq_ok, expect_eq_ok, checkInvoiced_eq_ok, pure_eq_ok]
  constructor
  · rintro ⟨_, passed, pr, named, _, same, rfl⟩
    exact ⟨passed, named, same, rfl, rfl⟩
  · rintro ⟨passed, named, same, verify, disposable⟩
    exact ⟨(), passed, invoice.pr, named, (), same, by rw [← verify, ← disposable]⟩

/-- The part stands before the last separator of an invoice. -/
def Bolt11Part.Heads (part : Bolt11Part) (pr : Str) : Prop :=
  ∃ data, Str.rsplitOnce '1' (Str.lower (Str.trim pr)) = some (part.hrp, data)

theorem Bolt11Part.Heads.split (heads : part.Heads pr) :
    ∃ data, splitAtSeparator (Str.lower (Str.trim pr)) = some (part.hrp, data) := by
  obtain ⟨data, split⟩ := heads
  have long : ¬Str.byteLen part.hrp < 2 := by
    have two : Str.byteLen "ln".toList = 2 := by decide
    rw [Bolt11Part.hrp, Str.byteLen, List.map_append, List.sum_append, ← Str.byteLen, two]
    omega
  exact ⟨data, by simp only [splitAtSeparator, split, Option.bind_eq_bind, Option.bind_some, if_neg long]⟩

/-- A number of digits and an amount that a `u64` each can hold. -/
def Bolt11Part.Readable (part : Bolt11Part) : Prop := part.value < 2 ^ 64 ∧ ∃ amount : UInt64, part.msat = amount.toNat

theorem Bolt11Part.Heads.decode (heads : part.Heads pr) (stated : part.digits ≠ []) {amount : UInt64} :
    decodeBolt11AmountMsat pr = some amount ↔ part.value < 2 ^ 64 ∧ part.msat = amount.toNat := by
  obtain ⟨data, split⟩ := heads.split
  rw [Bolt11Part.decodeBolt11AmountMsat_eq_some split stated, Bolt11Part.msat_eq_iff]

/-- An accepted invoice that states an amount states the one requested. -/
def AsksRequested (body : Value) (requestedMsat : UInt64) : Prop :=
  ∀ invoice, parseInvoice body requestedMsat = .ok invoice → ∀ part : Bolt11Part, part.Heads invoice.pr →
    part.digits ≠ [] → part.msat = requestedMsat.toNat

/-- The amount asked for is held to exactly where the stated one can be read, or happens to be it. -/
theorem asksRequested_iff (body : Value) (requestedMsat : UInt64) :
    AsksRequested body requestedMsat ↔
      (rejectError body = .ok () → ∀ pr, asStr body "pr".toList = some pr → ∀ part : Bolt11Part, part.Heads pr →
        part.digits ≠ [] → part.Readable ∨ part.msat = requestedMsat.toNat) := by
  constructor
  · intro asks passed pr named part heads stated
    by_cases readable : part.Readable
    · exact Or.inl readable
    · have unread : ∀ invoiced, decodeBolt11AmountMsat pr = some invoiced → invoiced = requestedMsat := by
        intro invoiced decoded
        obtain ⟨fits, amount⟩ := (heads.decode stated).mp decoded
        exact absurd ⟨fits, invoiced, amount⟩ readable
      have accepted : parseInvoice body requestedMsat = .ok { pr, verify := _, disposable := _ } :=
        parseInvoice_eq_ok.mpr ⟨passed, named, unread, rfl, rfl⟩
      exact Or.inr (asks _ accepted part heads stated)
  · intro readable invoice accepted part heads stated
    obtain ⟨passed, named, same, _⟩ := parseInvoice_eq_ok.mp accepted
    rcases readable passed invoice.pr named part heads stated with ⟨fits, amount, exact⟩ | requested
    · rw [exact, same amount ((heads.decode stated).mpr ⟨fits, exact⟩)]
    · exact requested

/-! Half a millisatoshi, and more than `u64` holds: neither is read, so both pass for an amountless invoice. -/

def replyWith (pr : Str) : Value := .object [("pr".toList, .string pr)]

def halfMsat : Bolt11Part where
  network := "bc".toList
  digits := ['5']
  multiplier := .pico
  known := by decide
  decimal := by decide

def hugeAmount : Bolt11Part where
  network := "bc".toList
  digits := "184467440738".toList
  multiplier := .milli
  known := by decide
  decimal := by decide

/-- Both are accepted as the invoice for 1000 msat. -/
theorem another_amount_accepted :
    halfMsat.Heads "lnbc5p1data".toList ∧ hugeAmount.Heads "lnbc184467440738m1data".toList ∧
      ¬AsksRequested (replyWith "lnbc5p1data".toList) 1000 ∧
      ¬AsksRequested (replyWith "lnbc184467440738m1data".toList) 1000 := by
  have half : halfMsat.Heads "lnbc5p1data".toList := ⟨"data".toList, by decide⟩
  have huge : hugeAmount.Heads "lnbc184467440738m1data".toList := ⟨"data".toList, by decide⟩
  refine ⟨half, huge, fun asks => ?_, fun asks => ?_⟩
  · have accepted : parseInvoice (replyWith "lnbc5p1data".toList) 1000 =
        .ok { pr := "lnbc5p1data".toList, verify := none, disposable := true } := by rfl
    have stated := Bolt11Part.msat_eq_iff.mp (asks _ accepted halfMsat half (by decide))
    exact absurd stated (by decide)
  · have accepted : parseInvoice (replyWith "lnbc184467440738m1data".toList) 1000 =
        .ok { pr := "lnbc184467440738m1data".toList, verify := none, disposable := true } := by rfl
    have stated := Bolt11Part.msat_eq_iff.mp (asks _ accepted hugeAmount huge (by decide))
    exact absurd stated (by decide)

end LnurlCash
