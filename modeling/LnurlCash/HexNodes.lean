import LnurlCash.Lib.Carried
import LnurlCash.Ffi
import LnurlCash.LegacyNotes
import LnurlCash.SeedTrees

namespace LnurlCash

open Outcome

/-! ### Nodes as the bindings hand them over -/

def nostrCashSeedLabel : Str := "LNURLcash/nostr-seed".toList

def KeyCrates.deriveNostrCashSeed (K : KeyCrates) (secretKey : ByteArr 32) : ByteArr 32 :=
  K.hmacSha256 secretKey.toList (Str.utf8 nostrCashSeedLabel)

/-- One mint's root `S` for a Nostr identity. -/
def KeyCrates.deriveNostrServiceRoot (K : KeyCrates) (secretKey : ByteArr 32) (domain : Str) : Except Error CashNode := do
  let root ← K.deriveCashRoot (K.deriveNostrCashSeed secretKey).toList
  K.deriveServiceRoot root domain

/-- `m/139'/d1..d4` over the host exactly as the wallet stored it. -/
def KeyCrates.legacyBranchNode (K : KeyCrates) (root : CashNode) (host : Str) : Except Error CashNode :=
  K.deriveCashDomainNode root host

namespace Ffi

def hexArray (n : Nat) (value what : Str) : Except Error (ByteArr n) := do
  let bytes ← expect (.protocol (what ++ " must be hex".toList)) (Hex.decode (Str.trim value))
  expect (.protocol (what ++ " is ".toList ++ Str.decimal n ++ " bytes, not ".toList ++ Str.decimal bytes.length))
    (Bytes.toArr n bytes)

def seedOf (seedHex : Str) : Except Error Bytes :=
  expect (.protocol "a seed must be hex".toList) (Hex.decode (Str.trim seedHex))

structure NoteKey where
  secretKey : Str
  pubkey : Str
  outputKey : Str
  deriving DecidableEq

def NoteKey.ofKey (key : LnurlCash.NoteKey) : NoteKey where
  secretKey := Hex.encode key.secretKey.toList
  pubkey := Hex.encode key.pubkey.toList
  outputKey := Hex.encode key.outputKey.toList

section Exports

variable (K : KeyCrates)

def deriveCashRoot (seedHex : Str) : Except LnurlcashError Str :=
  (seedOf seedHex >>= K.deriveCashRoot).told cashNodeToHex .ofError

def deriveCashMaster (seedHex : Str) : Except LnurlcashError Str :=
  (seedOf seedHex >>= K.deriveCashMaster).told cashNodeToHex .ofError

def deriveNostrServiceRoot (secretKeyHex domain : Str) : Except LnurlcashError Str :=
  (hexArray 32 secretKeyHex "a Nostr secret key".toList >>= (K.deriveNostrServiceRoot · domain)).told cashNodeToHex .ofError

/-- An exported function of a node: read it, run the core on it, write what comes of it. -/
def ofNode {α β : Type} (operation : CashNode → Except Error α) (spell : α → β) (nodeHex : Str) :
    Except LnurlcashError β :=
  (K.cashNodeFromHex nodeHex >>= operation).told spell .ofError

def deriveCashChild (nodeHex : Str) (index : UInt32) : Except LnurlcashError Str :=
  ofNode K (K.deriveCashChild · index) cashNodeToHex nodeHex

def deriveCashDomainNode (rootHex host : Str) : Except LnurlcashError Str :=
  ofNode K (K.deriveCashDomainNode · host) cashNodeToHex rootHex

def deriveServiceRoot (rootHex domain : Str) : Except LnurlcashError Str :=
  ofNode K (K.deriveServiceRoot · domain) cashNodeToHex rootHex

def deriveShareNode (serviceRootHex : Str) (account share : UInt32) : Except LnurlcashError Str :=
  ofNode K (K.deriveShareNode · account share) cashNodeToHex serviceRootHex

def legacyBranchNode (rootHex host : Str) : Except LnurlcashError Str :=
  ofNode K (K.legacyBranchNode · host) cashNodeToHex rootHex

def cashDomainIndices (rootHex host : Str) : Except LnurlcashError (List UInt32) :=
  ofNode K (K.cashDomainIndices · host) id rootHex

def deriveNoteKey (serviceRootHex : Str) (path : NotePath) : Except LnurlcashError NoteKey :=
  ofNode K (K.deriveNoteKey · path) NoteKey.ofKey serviceRootHex

def cashNodeToCx1 (nodeHex : Str) : Except LnurlcashError Str :=
  ofNode K K.cashNodeToCx1 encodeCx1 nodeHex

def legacyCx1Of (nodeHex : Str) : Except LnurlcashError Str :=
  ofNode K K.legacyCx1Of encodeLegacyCx1 nodeHex

def spellKey (key : ByteArr 32) : Str := Hex.encode key.toList

def legacyDeriveNoteSecretKey (K : TweakCrates) (nodeHex : Str) (purpose : Option UInt32) (index : UInt32) :
    Except LnurlcashError Str :=
  ofNode K.toKeyCrates (K.legacyDeriveNoteSecretKey · purpose index) spellKey nodeHex

end Exports

end Ffi

/-! ### A wallet that only ever holds texts -/

/-- Where a tree begins. -/
inductive TreeStart where
  | master (seedHex : Str)
  | cashRoot (seedHex : Str)
  | nostrServiceRoot (secretKeyHex domain : Str)

/-- A step from one node to another. -/
inductive TreeCall where
  | child (index : UInt32)
  | domainNode (host : Str)
  | serviceRoot (domain : Str)
  | shareNode (account share : UInt32)
  | legacyBranch (host : Str)

/-- What is read off a node at the end. -/
inductive TreeView where
  | domainIndices (host : Str)
  | noteKey (path : NotePath)
  | cx1
  | legacyCx1
  | legacySecretKey (purpose : Option UInt32) (index : UInt32)

abbrev TreeView.Native : TreeView → Type
  | domainIndices _ => List UInt32
  | noteKey _ => NoteKey
  | cx1 => Cx1
  | legacyCx1 => LegacyCx1
  | legacySecretKey .. => ByteArr 32

abbrev TreeView.Foreign : TreeView → Type
  | domainIndices _ => List UInt32
  | noteKey _ => Ffi.NoteKey
  | cx1 => Str
  | legacyCx1 => Str
  | legacySecretKey .. => Str

def TreeView.spell : (view : TreeView) → view.Native → view.Foreign
  | domainIndices _ => id
  | noteKey _ => Ffi.NoteKey.ofKey
  | cx1 => encodeCx1
  | legacyCx1 => encodeLegacyCx1
  | legacySecretKey .. => Ffi.spellKey

section Trees

variable (K : KeyCrates)

def TreeStart.native : TreeStart → Except Error CashNode
  | master seedHex => Ffi.seedOf seedHex >>= K.deriveCashMaster
  | cashRoot seedHex => Ffi.seedOf seedHex >>= K.deriveCashRoot
  | nostrServiceRoot secretKeyHex domain => do
    let secretKey ← Ffi.hexArray 32 secretKeyHex "a Nostr secret key".toList
    K.deriveNostrServiceRoot secretKey domain

def TreeStart.foreign : TreeStart → Except LnurlcashError Str
  | master seedHex => Ffi.deriveCashMaster K seedHex
  | cashRoot seedHex => Ffi.deriveCashRoot K seedHex
  | nostrServiceRoot secretKeyHex domain => Ffi.deriveNostrServiceRoot K secretKeyHex domain

def TreeCall.native : TreeCall → CashNode → Except Error CashNode
  | child index, node => K.deriveCashChild node index
  | domainNode host, node => K.deriveCashDomainNode node host
  | serviceRoot domain, node => K.deriveServiceRoot node domain
  | shareNode account share, node => K.deriveShareNode node account share
  | legacyBranch host, node => K.legacyBranchNode node host

def TreeCall.foreign : TreeCall → Str → Except LnurlcashError Str
  | child index, nodeHex => Ffi.deriveCashChild K nodeHex index
  | domainNode host, nodeHex => Ffi.deriveCashDomainNode K nodeHex host
  | serviceRoot domain, nodeHex => Ffi.deriveServiceRoot K nodeHex domain
  | shareNode account share, nodeHex => Ffi.deriveShareNode K nodeHex account share
  | legacyBranch host, nodeHex => Ffi.legacyBranchNode K nodeHex host

def TreeView.native (K : TweakCrates) : (view : TreeView) → CashNode → Except Error view.Native
  | domainIndices host, node => K.cashDomainIndices node host
  | noteKey path, node => K.deriveNoteKey node path
  | cx1, node => K.cashNodeToCx1 node
  | legacyCx1, node => K.legacyCx1Of node
  | legacySecretKey purpose index, node => K.legacyDeriveNoteSecretKey node purpose index

def TreeView.foreign (K : TweakCrates) : (view : TreeView) → Str → Except LnurlcashError view.Foreign
  | domainIndices host, nodeHex => Ffi.cashDomainIndices K.toKeyCrates nodeHex host
  | noteKey path, nodeHex => Ffi.deriveNoteKey K.toKeyCrates nodeHex path
  | cx1, nodeHex => Ffi.cashNodeToCx1 K.toKeyCrates nodeHex
  | legacyCx1, nodeHex => Ffi.legacyCx1Of K.toKeyCrates nodeHex
  | legacySecretKey purpose index, nodeHex => Ffi.legacyDeriveNoteSecretKey K nodeHex purpose index

end Trees

/-- One way to keep a node's text until it is next needed: in either case, padded with whitespace. -/
structure Keeping where
  keep : Str → Str
  same : ∀ text, Str.lower (Str.trim (keep text)) = Str.lower (Str.trim text)

/-- The tree walked by a caller that holds nodes as texts, each kept in its own way before the next call. -/
def TweakCrates.foreignTree (K : TweakCrates) (start : TreeStart) (calls : List (Keeping × TreeCall)) (last : Keeping)
    (view : TreeView) : Except LnurlcashError view.Foreign := do
  let text ← start.foreign K.toKeyCrates
  let text ← calls.foldlM (fun text call => call.2.foreign K.toKeyCrates (call.1.keep text)) text
  view.foreign K (last.keep text)

/-- The same walk over the core's own nodes. -/
def TweakCrates.nativeTree (K : TweakCrates) (start : TreeStart) (calls : List TreeCall) (view : TreeView) :
    Except Error view.Native := do
  let node ← start.native K.toKeyCrates
  let node ← calls.foldlM (fun node call => TreeCall.native K.toKeyCrates call node) node
  view.native K node

/-! ### The texts change nothing -/

/-- Tweaking a valid secret key gives a valid one, or fails. -/
def KeyCrates.KeepsKeys (K : KeyCrates) : Prop :=
  ∀ key tweak child, K.isSecretKey key → K.addSecretTweak key tweak = some child → K.isSecretKey child

/-- On ASCII, `str::to_lowercase` is ASCII lowercasing. -/
def KeyCrates.LowersAscii (K : KeyCrates) : Prop :=
  ∀ text : Str, (∀ c ∈ text, c.toNat < 128) → K.toLowercase text = Str.lower text

section Agreement

variable {K : KeyCrates} {node next : CashNode} {stored : Str}

theorem cashNodeToHex_eq (node : CashNode) :
    cashNodeToHex node = Hex.encode (node.privateKey.toList ++ node.chainCode.toList) := by
  rw [cashNodeToHex, Hex.encode, Hex.encode, Hex.encode, List.flatMap_append]

theorem lower_trim_cashNodeToHex (node : CashNode) : Str.lower (Str.trim (cashNodeToHex node)) = cashNodeToHex node := by
  rw [cashNodeToHex_eq, Hex.trim_encode, Hex.lower_encode]

theorem KeyCrates.LowersAscii.toLowercase_hex {bytes : Bytes} (lowers : K.LowersAscii)
    (same : Str.lower stored = Hex.encode bytes) : K.toLowercase stored = Hex.encode bytes := by
  rw [lowers stored, same]
  intro c member
  have digit : c.toLower ∈ Hex.encode bytes := by
    rw [← same]
    exact List.mem_map_of_mem member
  refine Hex.toNat_lt_of_isHexDigit ?_
  rw [← Hex.isHexDigit_toLower]
  exact Hex.isHexDigit_of_mem_encode digit

/-- A stored node is read back, in either case and whatever whitespace is around it. -/
theorem KeyCrates.cashNodeFromHex_of_same (lowers : K.LowersAscii) (valid : K.isSecretKey node.privateKey)
    (same : Str.lower (Str.trim (cashNodeToHex node)) = Str.lower (Str.trim stored)) :
    K.cashNodeFromHex stored = .ok node := by
  rw [lower_trim_cashNodeToHex, cashNodeToHex_eq] at same
  have size : (node.privateKey.toList ++ node.chainCode.toList).length = 64 := by
    rw [List.length_append, node.privateKey.size, node.chainCode.size]
  have whole : Bytes.toArr 64 (node.privateKey.toList ++ node.chainCode.toList) =
      some ⟨node.privateKey.toList ++ node.chainCode.toList, size⟩ := dif_pos size
  have key : (⟨node.privateKey.toList ++ node.chainCode.toList, size⟩ : ByteArr 64).halves =
      (node.privateKey, node.chainCode) := by
    simp only [ByteArr.halves, List.take_left' node.privateKey.size, List.drop_left' node.privateKey.size]
  simp only [cashNodeFromHex, bind_eq_ok, expect_eq_ok, refuseIf_eq_ok, pure_eq_ok]
  refine ⟨_, by rw [lowers.toLowercase_hex same.symm, Hex.decode_encode], _, whole, ?_⟩
  rw [key]
  exact ⟨(), by simp [valid], rfl⟩

/-- Nodes with a valid key, as 64 bytes of hex. -/
def KeyCrates.hexNodes (K : KeyCrates) (lowers : K.LowersAscii) : Carrier CashNode Str Error where
  write := cashNodeToHex
  read := K.cashNodeFromHex
  Sound node := K.isSecretKey node.privateKey
  Same text stored := Str.lower (Str.trim text) = Str.lower (Str.trim stored)
  reads _ _ valid same := cashNodeFromHex_of_same lowers valid same

theorem KeyCrates.KeepsKeys.child {index : UInt32} (keeps : K.KeepsKeys)
    (derived : K.deriveCashChild node index = .ok next) : K.isSecretKey next.privateKey := by
  simp only [deriveCashChild, bind_eq_ok, refuseIf_eq_ok, expect_eq_ok, pure_eq_ok, Bool.not_eq_false] at derived
  obtain ⟨_, valid, tweak, _, key, added, rfl⟩ := derived
  exact keeps _ tweak key valid added

theorem KeyCrates.KeepsKeys.path {indices : List UInt32} (keeps : K.KeepsKeys) (lowers : K.LowersAscii)
    (valid : K.isSecretKey node.privateKey) (derived : indices.foldlM K.deriveCashChild node = .ok next) :
    K.isSecretKey next.privateKey := by
  have steps : (K.hexNodes lowers).Keeps fun index node => K.deriveCashChild node index :=
    fun _ _ _ _ stepped => keeps.child stepped
  exact steps.foldlM valid derived

theorem KeyCrates.KeepsKeys.domainNode {host : Str} (keeps : K.KeepsKeys) (lowers : K.LowersAscii)
    (valid : K.isSecretKey node.privateKey) (derived : K.deriveCashDomainNode node host = .ok next) :
    K.isSecretKey next.privateKey := by
  obtain ⟨_, _, descended⟩ := bind_eq_ok.mp derived
  exact keeps.path lowers valid descended

theorem KeyCrates.KeepsKeys.serviceRoot {domain : Str} (keeps : K.KeepsKeys) (lowers : K.LowersAscii)
    (valid : K.isSecretKey node.privateKey) (derived : K.deriveServiceRoot node domain = .ok next) :
    K.isSecretKey next.privateKey := by
  obtain ⟨_, _, descended⟩ := bind_eq_ok.mp derived
  exact keeps.domainNode lowers valid descended

/-- Every step of a tree is a step between nodes with valid keys. -/
theorem KeyCrates.KeepsKeys.keeps (keeps : K.KeepsKeys) (lowers : K.LowersAscii) :
    (K.hexNodes lowers).Keeps (TreeCall.native K) := by
  intro call node next valid stepped
  cases call with
  | child index => exact keeps.child stepped
  | domainNode host => exact keeps.domainNode lowers valid stepped
  | serviceRoot domain => exact keeps.serviceRoot lowers valid stepped
  | shareNode account share =>
    simp only [TreeCall.native, deriveShareNode, bind_eq_ok] at stepped
    obtain ⟨_, _, _, _, _, _, _, _, last⟩ := stepped
    exact keeps.child last
  | legacyBranch host => exact keeps.domainNode lowers valid stepped

theorem KeyCrates.KeepsKeys.start {start : TreeStart} (keeps : K.KeepsKeys) (lowers : K.LowersAscii)
    (begun : start.native K = .ok node) : K.isSecretKey node.privateKey := by
  have root : ∀ seed root, K.deriveCashRoot seed = .ok root → K.isSecretKey root.privateKey := by
    intro seed root derived
    obtain ⟨_, _, purpose⟩ := bind_eq_ok.mp derived
    exact keeps.child purpose
  cases start with
  | master seedHex =>
    obtain ⟨seed, _, derived⟩ := bind_eq_ok.mp begun
    simp only [deriveCashMaster, bind_eq_ok, refuseIf_eq_ok, pure_eq_ok, Bool.not_eq_false] at derived
    obtain ⟨_, _, _, valid, rfl⟩ := derived
    exact valid
  | cashRoot seedHex =>
    obtain ⟨seed, _, derived⟩ := bind_eq_ok.mp begun
    exact root seed node derived
  | nostrServiceRoot secretKeyHex domain =>
    obtain ⟨secretKey, _, derived⟩ := bind_eq_ok.mp begun
    obtain ⟨top, rooted, served⟩ := bind_eq_ok.mp derived
    exact keeps.serviceRoot lowers (root _ top rooted) served

theorem TreeStart.foreign_eq (start : TreeStart) : start.foreign K = (start.native K).told cashNodeToHex .ofError := by
  cases start <;> rfl

theorem TreeCall.foreign_eq (lowers : K.LowersAscii) (call : TreeCall) (nodeHex : Str) :
    call.foreign K nodeHex = (K.hexNodes lowers).lift .ofError (call.native K) cashNodeToHex nodeHex := by
  cases call <;> rfl

theorem TreeView.foreign_eq {K : TweakCrates} (lowers : K.LowersAscii) (view : TreeView) (nodeHex : Str) :
    view.foreign K nodeHex = (K.hexNodes lowers).lift .ofError (view.native K) view.spell nodeHex := by
  cases view <;> rfl

theorem KeyCrates.foreign_walk (keeps : K.KeepsKeys) (lowers : K.LowersAscii) (valid : K.isSecretKey node.privateKey)
    (calls : List (Keeping × TreeCall)) :
    calls.foldlM (fun text call => call.2.foreign K (call.1.keep text)) (cashNodeToHex node) =
      ((calls.map Prod.snd).foldlM (fun node call => TreeCall.native K call node) node).told cashNodeToHex .ofError := by
  have steps : (K.hexNodes lowers).Keeps fun (call : Keeping × TreeCall) => call.2.native K :=
    fun call => keeps.keeps lowers call.2
  simp only [TreeCall.foreign_eq lowers, List.foldlM_map]
  exact Carrier.foldlM_lift LnurlcashError.ofError (fun call : Keeping × TreeCall => call.1.keep) steps
    (fun call node _ => (call.1.same (cashNodeToHex node)).symm) calls valid

/-- A wallet that walks its tree by the texts of the nodes, kept in whatever case
and with whatever whitespace, is told at the end what the core finds on its own
nodes, and every error on the way. -/
theorem TweakCrates.foreign_tree_agrees {K : TweakCrates} (keeps : K.KeepsKeys) (lowers : K.LowersAscii) (start : TreeStart)
    (calls : List (Keeping × TreeCall)) (last : Keeping) (view : TreeView) :
    K.foreignTree start calls last view =
      (K.nativeTree start (calls.map Prod.snd) view).told view.spell .ofError := by
  rw [foreignTree, nativeTree, TreeStart.foreign_eq]
  cases begun : start.native K.toKeyCrates with
  | error error => rfl
  | ok node =>
    have valid : (K.hexNodes lowers).Sound node := keeps.start lowers begun
    rw [Except.told_ok, ok_bind, ok_bind, KeyCrates.foreign_walk keeps lowers valid]
    cases walked : (calls.map Prod.snd).foldlM (fun node call => TreeCall.native K.toKeyCrates call node) node with
    | error error => rfl
    | ok leaf =>
      have sound : (K.hexNodes lowers).Sound leaf := (keeps.keeps lowers).foldlM valid walked
      rw [Except.told_ok, ok_bind, ok_bind, TreeView.foreign_eq lowers]
      exact Carrier.lift_same sound (last.same (cashNodeToHex leaf)).symm

/-- Exporting a share is one such walk. -/
theorem TweakCrates.nativeTree_exportShare {K : TweakCrates} {seedHex domain : Str} {seed : Bytes} {account share : UInt32}
    (read : Hex.decode (Str.trim seedHex) = some seed) :
    (K.nativeTree (.cashRoot seedHex) [.serviceRoot domain, .shareNode account share] .cx1).told encodeCx1
        LnurlcashError.ofError = (K.exportShare seed domain account share).told id .ofError := by
  simp only [nativeTree, TreeStart.native, Ffi.seedOf, read, expect, ok_bind, List.foldlM_cons, List.foldlM_nil,
    TreeCall.native, TreeView.native, KeyCrates.exportShare]
  cases K.deriveCashRoot seed with
  | error error => rfl
  | ok root =>
    rw [ok_bind, ok_bind]
    cases K.deriveServiceRoot root domain with
    | error error => rfl
    | ok service =>
      rw [ok_bind, ok_bind]
      cases K.deriveShareNode service account share with
      | error error => rfl
      | ok node =>
        rw [ok_bind]
        cases made : K.cashNodeToCx1 node with
        | error error => simp only [made, pure, Except.pure, ok_bind]; rfl
        | ok cx1 => simp only [made, pure, Except.pure, ok_bind]; rfl

end Agreement

/-! The first share at `d.example`, exported by a caller that shouts its nodes and indents them. -/

theorem Str.trim_space (text : Str) : Str.trim (' ' :: text) = Str.trim text := rfl

def shouted : Keeping where
  keep text := ' ' :: Str.upper text
  same text := by rw [Str.trim_space, ← Str.trim_lower, Str.lower_upper, Str.trim_lower]

theorem referenceKeys.keepsKeys : referenceKeys.KeepsKeys := by
  intro key tweak child _ tweaked
  have small : (Bytes.beNat key.toList + Bytes.beNat tweak.toList) % curveOrder < curveOrder := Nat.mod_lt _ (by decide)
  change (if (Bytes.beNat key.toList + Bytes.beNat tweak.toList) % curveOrder = 0 then none
    else some (Bytes.beArr 32 ((Bytes.beNat key.toList + Bytes.beNat tweak.toList) % curveOrder))) = some child at tweaked
  rw [Option.ite_none_left_eq_some, Option.some.injEq] at tweaked
  obtain ⟨nonzero, rfl⟩ := tweaked
  refine decide_eq_true ?_
  rw [beNat_beArr_of_lt small]
  exact ⟨Nat.pos_of_ne_zero nonzero, small⟩

/-- The tweak of an x-only keypair, computed: the key of the even point is tweaked. -/
def referenceTweaks : TweakCrates := { referenceKeys with
  addXonlyTweak := fun key tweak =>
    let k := Bytes.beNat key.toList
    let even := if (Secp256k1.publicKey key).toList.head? = some 3 then curveOrder - k else k
    let sum := (even + Bytes.beNat tweak.toList) % curveOrder
    if sum = 0 then none else some (Bytes.beArr 32 sum) }

theorem referenceTweaks.shouted_export :
    referenceTweaks.foreignTree (.cashRoot (Hex.encode exampleSeed))
      [(shouted, .serviceRoot exampleHost), (shouted, .shareNode 0 0)] shouted .cx1 = .ok exampleCx1.val := by
  have exported := (congrArg (fun K => K.exportShare exampleSeed exampleHost 0 0) listedKeys_eq).symm.trans
    exampleCx1.property
  have seed : Hex.decode (Str.trim (Hex.encode exampleSeed)) = some exampleSeed := by
    rw [Hex.trim_encode, Hex.decode_encode]
  have keeps : referenceTweaks.KeepsKeys := referenceKeys.keepsKeys
  rw [TweakCrates.foreign_tree_agrees keeps fun _ _ => rfl]
  exact (TweakCrates.nativeTree_exportShare seed).trans (congrArg (Except.told id LnurlcashError.ofError) exported)

end LnurlCash
