import LnurlCash.MutationSecrets

namespace LnurlCash

open Outcome

variable {C : Crates} {secret : Str} {bytes : Bytes}

/-- Hexadecimal text that is not 32 bytes is no spend. -/
theorem Crates.decodeSpend_of_not_preimage (decoded : Hex.decode secret = some bytes)
    (short : isPreimage secret = false) : C.decodeSpend secret = none := by
  have noHex : hex32 secret = none := by simp [hex32, short]
  have noCk := decodeBytes_of_hex "ck".toList 'k' decoded (by decide) (by decide)
  have noCw := decodeBytes_of_hex "cw".toList 'w' decoded (by decide) (by decide)
  simp only [Crates.decodeSpend, Hex.trim_of_decode decoded, noHex, decodeCk1, Crates.decodeCw1, noCk, noCw,
    Option.bind_eq_bind, Option.bind_none]

/-- A 32-byte preimage whose bearer note exists is a spend that opens it everywhere. -/
theorem Crates.preimage_opens {note : BearerNote} (preimage : isPreimage secret)
    (decoded : Hex.decode secret = some bytes) (named : C.bearerNote (C.sha256 bytes) = some note) :
    ∃ spend, C.decodeSpend secret = some spend ∧ spend.outputKey = note.outputKey ∧
      ∀ domain, C.checkSpend secret domain = some { outputKey := note.outputKey, verdict := .opens } := by
  have clean := Hex.trim_of_decode decoded
  have length : bytes.length = 32 := by
    have digits := (isPreimage_iff.mp preimage).1
    have pairs := Hex.decode_length decoded
    rw [clean] at digits
    omega
  have short : hex32 secret = some ⟨bytes, length⟩ := by
    simp [hex32, preimage, clean, decoded, Bytes.toArr, length]
  have cw1 : C.bearerCw1 bytes = some (note.cw1 bytes) := by
    simp only [Crates.bearerCw1, named, Option.bind_eq_bind, Option.bind_some, BearerNote.cw1]
  obtain ⟨commits, opens, _⟩ := bearerNote_opens named (by rw [length]; decide)
  have spends : C.decodeSpend secret = some (.scriptPath note.outputKey (note.cw1 bytes)) := by
    simp only [Crates.decodeSpend, hex32_trim, short, cw1, commits, Option.bind_eq_bind, Option.bind_some]
  refine ⟨_, spends, rfl, fun domain => ?_⟩
  simp only [Crates.checkSpend, spends, Option.bind_eq_bind, Option.bind_some, opens, Spend.outputKey]

/-- The four requests that mint a bearer note to a secret the caller passes in. -/
inductive Builder where
  | rotate (callback k1 newSecret : Str)
  | split (callback : Str) (k1s : List Str) (amountMsat : UInt64) (newSecret changeSecret : Str)
  | merge (callback : Str) (k1s : List Str) (newSecret : Str)
  | mintInvoice (payCallback : Str) (amountMsat : UInt64) (mintSecret : Str)

namespace Builder

def secrets : Builder → List Str
  | rotate _ _ newSecret | merge _ _ newSecret | mintInvoice _ _ newSecret => [newSecret]
  | split _ _ _ newSecret changeSecret => [newSecret, changeSecret]

def build (C : Crates) : Builder → Except Error Request
  | rotate callback k1 newSecret => C.rotateRequest callback k1 newSecret
  | split callback k1s amountMsat newSecret changeSecret =>
    C.splitRequest callback k1s amountMsat newSecret changeSecret
  | merge callback k1s newSecret => C.mergeRequest callback k1s newSecret
  | mintInvoice payCallback amountMsat mintSecret => C.mintInvoiceRequest payCallback amountMsat mintSecret

/-- The outputs a request named: its `p1` and `p2`, or the mint comment on its URL. -/
def Names (C : Crates) (request : Request) : Builder → List Str → Prop
  | mintInvoice payCallback amountMsat _, outputs =>
    ∃ url comment, C.url.parse payCallback = some url ∧ outputs = [comment] ∧
      request.url = C.url.toText (C.url.appendPairs url
        [("amount".toList, Str.decimal amountMsat.toNat), ("comment".toList, comment), ("h".toList, comment)])
  | _, outputs => outputs = request.outputs

end Builder

/-- A secret that is itself a spend of the note an output names, and opens it at every domain. -/
def Crates.Opens (C : Crates) (secret output : Str) : Prop :=
  ∃ spend key, C.decodeSpend secret = some spend ∧ C.decodeNote output = some key ∧
    C.noteIdOf secret = some (Hex.encode key.toList) ∧
    ∀ domain, C.checkSpend secret domain = some { outputKey := key, verdict := .opens }

theorem Crates.hashK1_ok {h : Str} (hashed : C.hashK1 secret = .ok h) :
    ∃ bytes, Hex.decode secret = some bytes ∧ h = Hex.encode (C.sha256 bytes).toList := by
  unfold Crates.hashK1 at hashed
  split at hashed
  · cases hashed
  · rename_i bytes decoded
    exact ⟨bytes, decoded, (Except.ok.inj hashed).symm⟩

theorem Crates.decodeNote_encode (C : Crates) (h : ByteArr 32) :
    C.decodeNote (Hex.encode h.toList) = (C.bearerNote h).map BearerNote.outputKey := by
  simp only [Crates.decodeNote, hex32_encode]

/-- A hashed secret opens the output it names exactly when it is 64 hex digits. -/
theorem Crates.opens_iff {h : Str} (hashed : C.hashK1 secret = .ok h) (usable : (C.decodeNote h).isSome) :
    C.Opens secret h ↔ isPreimage secret := by
  obtain ⟨bytes, decoded, rfl⟩ := hashK1_ok hashed
  constructor
  · rintro ⟨spend, _, spends, _⟩
    by_contra short
    rw [decodeSpend_of_not_preimage decoded (by simpa using short)] at spends
    cases spends
  · intro preimage
    rw [C.decodeNote_encode, Option.isSome_map] at usable
    obtain ⟨note, named⟩ := Option.isSome_iff_exists.mp usable
    obtain ⟨spend, spends, key, opens⟩ := preimage_opens preimage decoded named
    refine ⟨spend, note.outputKey, spends, by rw [C.decodeNote_encode, named, Option.map_some], ?_, opens⟩
    rw [Crates.noteIdOf, spends, Option.map_some, key]

theorem Crates.trim_of_hashK1 {h : Str} (hashed : C.hashK1 secret = .ok h) : Str.trim h = h := by
  obtain ⟨bytes, _, rfl⟩ := hashK1_ok hashed
  exact Hex.trim_encode _

theorem Crates.Mutates.usable_hash {callback h : Str} {spent : List (Str × Str)} {outputs : List Str} {request : Request}
    (mutates : C.Mutates callback spent outputs request) (member : h ∈ outputs) (hashed : C.hashK1 secret = .ok h) :
    (C.decodeNote h).isSome := by
  have usable := mutates.usable h member
  rwa [trim_of_hashK1 hashed] at usable

/-- A bearer note's hash goes on a mint invoice as its comment and as its `h`. -/
theorem Crates.mintInvoiceRequestWithHash_encode {payCallback : Str} {amountMsat : UInt64} {h : ByteArr 32}
    {request : Request}
    (invoice : C.mintInvoiceRequestWithHash payCallback amountMsat (Hex.encode h.toList) = .ok request) :
    ∃ url, C.url.parse payCallback = some url ∧ request.url = C.url.toText (C.url.appendPairs url
      [("amount".toList, Str.decimal amountMsat.toNat), ("comment".toList, Hex.encode h.toList),
        ("h".toList, Hex.encode h.toList)]) := by
  have noKey : C.decodeCp1 (Hex.encode h.toList) = none := by
    simp only [Crates.decodeCp1, decodeFixed, decodeBytes_of_hex "cp".toList 'p' (Hex.decode_encode _) (by decide) (by decide),
      Option.bind_none, Option.filter_none]
  simp only [Crates.mintInvoiceRequestWithHash, Hex.trim_encode, Hex.lower_encode, noKey, Option.isSome_none,
    Bool.false_eq_true, if_false] at invoice
  split_ifs at invoice
  cases parsed : C.url.parse payCallback with
  | none =>
    rw [parsed] at invoice
    cases invoice
  | some url =>
    rw [parsed] at invoice
    cases invoice
    exact ⟨url, rfl, rfl⟩

/-- A built request carries its secrets in order, one for each output it named. -/
theorem Builder.build_ok {builder : Builder} {request : Request} (built : builder.build C = .ok request)
    (usable : ∀ secret ∈ builder.secrets, ∀ bytes, Hex.decode secret = some bytes →
      (C.bearerNote (C.sha256 bytes)).isSome) :
    request.newSecrets = builder.secrets ∧ ∃ outputs, builder.Names C request outputs ∧
      List.Forall₂ (fun secret h => C.hashK1 secret = .ok h ∧ (C.decodeNote h).isSome) builder.secrets outputs := by
  cases builder with
  | rotate callback k1 newSecret =>
    obtain ⟨h, hashed, mutates, carried⟩ := Crates.rotateRequest_ok built
    exact ⟨carried, [h], mutates.recorded.symm, .cons ⟨hashed, mutates.usable_hash (by simp) hashed⟩ .nil⟩
  | split callback k1s amountMsat newSecret changeSecret =>
    obtain ⟨h, h2, hashed, hashed2, mutates, carried⟩ := Crates.splitRequest_ok built
    exact ⟨carried, [h, h2], mutates.recorded.symm, .cons ⟨hashed, mutates.usable_hash (by simp) hashed⟩
      (.cons ⟨hashed2, mutates.usable_hash (by simp) hashed2⟩ .nil)⟩
  | merge callback k1s newSecret =>
    obtain ⟨h, hashed, mutates, carried⟩ := Crates.mergeRequest_ok built
    exact ⟨carried, [h], mutates.recorded.symm, .cons ⟨hashed, mutates.usable_hash (by simp) hashed⟩ .nil⟩
  | mintInvoice payCallback amountMsat mintSecret =>
    simp only [build, Crates.mintInvoiceRequest, bind_eq_ok, pure_eq_ok] at built
    obtain ⟨_, _, h, hashed, _, invoice, rfl⟩ := built
    obtain ⟨bytes, decoded, rfl⟩ := Crates.hashK1_ok hashed
    obtain ⟨url, parsed, named⟩ := Crates.mintInvoiceRequestWithHash_encode invoice
    refine ⟨rfl, _, ⟨url, _, parsed, rfl, named⟩, .cons ⟨hashed, ?_⟩ .nil⟩
    rw [C.decodeNote_encode, Option.isSome_map]
    exact usable mintSecret List.mem_cons_self bytes decoded

/-- The mint invoice's builder is the one that refuses a secret which is not 32 bytes. -/
theorem Builder.isPreimage_of_mintInvoice {payCallback mintSecret : Str} {amountMsat : UInt64} {request : Request}
    (built : (mintInvoice payCallback amountMsat mintSecret).build C = .ok request) : isPreimage mintSecret := by
  simp only [build, Crates.mintInvoiceRequest, bind_eq_ok, refuseIf_eq_ok] at built
  obtain ⟨_, preimage, _⟩ := built
  simpa using preimage

theorem Crates.forall₂_opens_iff {secrets outputs : List Str}
    (named : List.Forall₂ (fun secret h => C.hashK1 secret = .ok h ∧ (C.decodeNote h).isSome) secrets outputs) :
    List.Forall₂ C.Opens secrets outputs ↔ ∀ secret ∈ secrets, isPreimage secret := by
  induction named with
  | nil => simp
  | cons pair _ ih => rw [List.forall₂_cons, List.forall_mem_cons, ih, opens_iff pair.1 pair.2]

/-- Every secret of a built request opens the output it named, unless a rotate,
split or merge was handed one that is not 32 bytes. -/
theorem Builder.secrets_open_iff {builder : Builder} {request : Request} (built : builder.build C = .ok request)
    (usable : ∀ secret ∈ builder.secrets, ∀ bytes, Hex.decode secret = some bytes →
      (C.bearerNote (C.sha256 bytes)).isSome) :
    (∃ outputs, builder.Names C request outputs ∧ List.Forall₂ C.Opens request.newSecrets outputs) ↔
      ∀ secret ∈ builder.secrets, isPreimage secret := by
  obtain ⟨carried, named, names, hashes⟩ := build_ok built usable
  constructor
  · rintro ⟨outputs, same, opens⟩
    rw [carried] at opens
    cases builder with
    | mintInvoice payCallback amountMsat mintSecret =>
      intro secret member
      rw [List.mem_singleton.mp member]
      exact isPreimage_of_mintInvoice built
    | _ =>
      have unique : outputs = named := same.trans names.symm
      exact (Crates.forall₂_opens_iff hashes).mp (unique ▸ opens)
  · intro preimages
    exact ⟨named, names, carried ▸ (Crates.forall₂_opens_iff hashes).mpr preimages⟩

/-! A rotate at `mint.example` to a 32-byte secret, and one to a single zero byte. -/

def rotateTo (newSecret : Str) : Builder := .rotate mintCallback spentK1 newSecret

def freshNote : Option BearerNote := reference.bearerNote (Sha256.hash (List.replicate 32 8))

set_option maxRecDepth 100000 in
theorem freshNote_isSome : freshNote.isSome := by decide +kernel

theorem reference.rotation_opens :
    ∃ outputs, (rotateTo freshSecret).Names reference rotation outputs ∧
      List.Forall₂ reference.Opens rotation.newSecrets outputs := by
  have built : (rotateTo freshSecret).build reference = .ok rotation := reference.rotateRequest_rotation
  refine (Builder.secrets_open_iff built ?_).mpr ?_
  · intro secret member bytes decoded
    rw [List.mem_singleton.mp member, freshSecret, Hex.decode_encode, Option.some_inj] at decoded
    subst decoded
    exact freshNote_isSome
  · intro secret member
    rw [List.mem_singleton.mp member]
    decide

def zeroSecret : Str := "00".toList

def zeroRotation : Request where
  url := mintCallback ++ "?k1=".toList ++ spentK1 ++ "&p1=".toList ++ Hex.encode (Sha256.hash [0]).toList
  newSecrets := [zeroSecret]
  outputs := [Hex.encode (Sha256.hash [0]).toList]

set_option maxRecDepth 100000 in
/-- A rotate to one byte of hex is built, and its secret is no spend. -/
theorem reference.zeroRotation_loses :
    (rotateTo zeroSecret).build reference = .ok zeroRotation ∧ (reference.bearerNote (Sha256.hash [0])).isSome ∧
      reference.decodeSpend zeroSecret = none ∧
      ¬∃ outputs, (rotateTo zeroSecret).Names reference zeroRotation outputs ∧
        List.Forall₂ reference.Opens zeroRotation.newSecrets outputs := by
  have lost : reference.decodeSpend zeroSecret = none := by decide +kernel
  refine ⟨by decide +kernel, by decide +kernel, lost, ?_⟩
  rintro ⟨outputs, rfl, opens⟩
  obtain ⟨spend, _, spends, _⟩ := (List.forall₂_cons.mp opens).1
  rw [lost] at spends
  cases spends

end LnurlCash
