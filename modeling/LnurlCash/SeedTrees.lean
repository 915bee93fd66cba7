import LnurlCash.Lib.HashChain
import LnurlCash.ShareNotes

namespace LnurlCash

open Outcome

section Chain

variable (K : KeyCrates)

/-- The chain code a BIP-32 step derives. -/
def KeyCrates.chainStep (key message : Bytes) : Bytes := (K.hmacSha512 key message).halves.2.toList

/-- The key of a master node's HMAC, which no chain code is as long as. -/
def bitcoinSeed : Bytes := Str.utf8 "Bitcoin seed".toList

def KeyCrates.childMessage (node : CashNode) (index : UInt32) : Bytes :=
  (if index ≥ hardened then 0 :: node.privateKey.toList else (K.publicKeyOf node.privateKey).toList) ++
    Bytes.be 4 index.toNat

/-- What the steps down a path hash, up to the first one that fails. -/
def KeyCrates.pathMessages : CashNode → List UInt32 → List Bytes
  | _, [] => []
  | node, index :: rest => K.childMessage node index ::
    match K.deriveCashChild node index with
    | .ok child => KeyCrates.pathMessages child rest
    | .error _ => []

/-- The node at a path below the master node of a seed. -/
def KeyCrates.derivePath (seed : Bytes) (indices : List UInt32) : Except Error CashNode := do
  let master ← K.deriveCashMaster seed
  indices.foldlM K.deriveCashChild master

def KeyCrates.seedMessages (seed : Bytes) (indices : List UInt32) : List Bytes :=
  seed ::
    match K.deriveCashMaster seed with
    | .ok master => K.pathMessages master indices
    | .error _ => []

def KeyCrates.derivationQueries (derivation : Bytes × List UInt32) : List (Bytes × Bytes) :=
  HashChain.queries K.chainStep bitcoinSeed (K.seedMessages derivation.1 derivation.2)

/-- HMAC-SHA512 gives no two of these derivations' steps the same chain code. -/
def KeyCrates.ChainFree (derivations : List (Bytes × List UInt32)) : Prop :=
  Set.InjOn (Function.uncurry K.chainStep) {query | query ∈ derivations.flatMap K.derivationQueries}

end Chain

variable {K : KeyCrates} {node child other : CashNode} {index : UInt32} {indices others : List UInt32} {seed seed' : Bytes}

theorem KeyCrates.length_chainStep (key message : Bytes) : (K.chainStep key message).length = 32 :=
  (K.hmacSha512 key message).halves.2.size

theorem KeyCrates.chainFree_free {derivations : List (Bytes × List UInt32)} (free : K.ChainFree derivations) :
    HashChain.Free K.chainStep bitcoinSeed (derivations.flatMap K.derivationQueries) where
  injective := free
  fresh query _ same := by
    have size := K.length_chainStep query.1 query.2
    rw [same] at size
    exact absurd size (by decide)

theorem KeyCrates.chainCode_of_child (derived : K.deriveCashChild node index = .ok child) :
    child.chainCode.toList = K.chainStep node.chainCode.toList (K.childMessage node index) := by
  simp only [deriveCashChild, bind_eq_ok, pure_eq_ok] at derived
  obtain ⟨_, _, _, _, _, _, rfl⟩ := derived
  rfl

/-- The last chain code of a path is the chain of what its steps hash. -/
theorem KeyCrates.chainCode_of_path (derived : indices.foldlM K.deriveCashChild node = .ok child) :
    child.chainCode.toList = HashChain.digest K.chainStep node.chainCode.toList (K.pathMessages node indices) := by
  induction indices generalizing node with
  | nil =>
    cases derived
    rfl
  | cons index rest ih =>
    rw [List.foldlM_cons, bind_eq_ok] at derived
    obtain ⟨next, first, more⟩ := derived
    rw [pathMessages, first, HashChain.digest, List.foldl_cons, ← chainCode_of_child first]
    exact ih more

theorem KeyCrates.chainCode_of_master (derived : K.deriveCashMaster seed = .ok node) :
    node.chainCode.toList = K.chainStep bitcoinSeed seed := by
  simp only [deriveCashMaster, bind_eq_ok, pure_eq_ok] at derived
  obtain ⟨_, _, _, _, rfl⟩ := derived
  rfl

theorem KeyCrates.chainCode_of_seed (derived : K.derivePath seed indices = .ok node) :
    node.chainCode.toList = HashChain.digest K.chainStep bitcoinSeed (K.seedMessages seed indices) := by
  obtain ⟨master, root, path⟩ := bind_eq_ok.mp derived
  rw [seedMessages, root, chainCode_of_path path, chainCode_of_master root]
  rfl

/-- A step hashes its index behind 33 bytes, whichever key goes before it. -/
theorem KeyCrates.childMessage_index {index' : UInt32} (same : K.childMessage node index = K.childMessage other index') :
    index = index' := by
  have points := (List.append_inj' same (by rw [Bytes.length_be, Bytes.length_be])).2
  exact Bytes.le_word_inj (List.reverse_inj.mp points)

theorem KeyCrates.pathMessages_inj {last last' : CashNode} (derived : indices.foldlM K.deriveCashChild node = .ok last)
    (derived' : others.foldlM K.deriveCashChild other = .ok last')
    (same : K.pathMessages node indices = K.pathMessages other others) : indices = others := by
  induction indices generalizing node other others with
  | nil =>
    cases others with
    | nil => rfl
    | cons index rest => cases same
  | cons index rest ih =>
    cases others with
    | nil => cases same
    | cons index' rest' =>
      rw [List.foldlM_cons, bind_eq_ok] at derived derived'
      obtain ⟨next, first, more⟩ := derived
      obtain ⟨next', first', more'⟩ := derived'
      rw [pathMessages, pathMessages, first, first'] at same
      obtain ⟨head, tail⟩ := List.cons.inj same
      rw [childMessage_index head, ih more more' tail]

/-- A chain code says which seed and which path it was derived from. -/
theorem KeyCrates.derivePath_injective (free : K.ChainFree [(seed, indices), (seed', others)])
    (derived : K.derivePath seed indices = .ok node) (derived' : K.derivePath seed' others = .ok other)
    (same : node.chainCode = other.chainCode) : seed = seed' ∧ indices = others := by
  have whole : K.seedMessages seed indices = K.seedMessages seed' others := by
    refine HashChain.digest_injective ((chainFree_free free).mono fun query member => ?_) ?_
    · simpa [derivationQueries] using member
    · rw [← chainCode_of_seed derived, ← chainCode_of_seed derived', same]
  obtain ⟨master, root, path⟩ := bind_eq_ok.mp derived
  obtain ⟨master', root', path'⟩ := bind_eq_ok.mp derived'
  rw [seedMessages, seedMessages, root, root'] at whole
  obtain ⟨rfl, below⟩ := List.cons.inj whole
  exact ⟨rfl, pathMessages_inj path path' below⟩

/-! ### A wallet's tree -/

section Wallet

variable (K : KeyCrates)

/-- The path of what lies below one SERVICE's root, from the master node on. -/
def KeyCrates.servicePath (seed : Bytes) (domain : Str) (below : List UInt32) : Except Error (List UInt32) := do
  let root ← K.deriveCashRoot seed
  let host ← expect (.protocol "a SERVICE root is derived for a domain".toList) (K.spendDomainOf domain)
  let levels ← K.cashDomainIndices root host
  return (cashPurpose + hardened) :: levels ++ below

/-- What a wallet hands out of one share at one SERVICE. -/
def KeyCrates.exportShare (seed : Bytes) (domain : Str) (account share : UInt32) : Except Error Str := do
  let root ← K.deriveCashRoot seed
  let service ← K.deriveServiceRoot root domain
  let node ← K.deriveShareNode service account share
  let cx1 ← K.cashNodeToCx1 node
  return encodeCx1 cx1

def shareIndices (account share : UInt32) : List UInt32 := [account + hardened, chainShare, share + hardened]

/-- The derivation behind an exported share. -/
def KeyCrates.shareDerivation (seed : Bytes) (domain : Str) (account share : UInt32) : List (Bytes × List UInt32) :=
  match K.servicePath seed domain (shareIndices account share) with
  | .ok path => [(seed, path)]
  | .error _ => []

/-- HMAC-SHA256 under a seed's hashing key gives no two of these hosts the same first 16 bytes. -/
def KeyCrates.HostsFree (seed : Bytes) (hosts : List Str) : Prop :=
  ∀ root hashing, K.deriveCashRoot seed = .ok root → K.deriveCashChild root 0 = .ok hashing →
    Set.InjOn (fun host => (K.hmacSha256 hashing.privateKey.toList (Str.utf8 host)).toList.take 16) {host | host ∈ hosts}

end Wallet

section Shares

variable {domain domain' host host' : Str} {account account' share share' : UInt32} {below below' levels levels' : List UInt32}
  {root service : CashNode}

theorem KeyCrates.servicePath_ok (rooted : K.deriveCashRoot seed = .ok root)
    (served : K.deriveServiceRoot root domain = .ok service) (walked : below.foldlM K.deriveCashChild service = .ok node) :
    ∃ host levels, K.spendDomainOf domain = some host ∧ K.cashDomainIndices root host = .ok levels ∧
      K.servicePath seed domain below = .ok ((cashPurpose + hardened) :: levels ++ below) ∧
      K.derivePath seed ((cashPurpose + hardened) :: levels ++ below) = .ok node := by
  simp only [deriveServiceRoot, deriveCashDomainNode, bind_eq_ok, expect_eq_ok] at served
  obtain ⟨host, named, levels, found, descended⟩ := served
  obtain ⟨master, mastered, purpose⟩ := bind_eq_ok.mp rooted
  refine ⟨host, levels, named, found, ?_, ?_⟩
  · simp only [servicePath, bind_eq_ok, expect_eq_ok, pure_eq_ok]
    exact ⟨root, rooted, host, named, levels, found, rfl⟩
  · refine bind_eq_ok.mpr ⟨master, mastered, ?_⟩
    rw [List.cons_append, List.foldlM_cons]
    refine bind_eq_ok.mpr ⟨root, purpose, ?_⟩
    rw [List.foldlM_append]
    exact bind_eq_ok.mpr ⟨service, descended, walked⟩

theorem KeyCrates.exportShare_ok {cx1 : Str} (exported : K.exportShare seed domain account share = .ok cx1) :
    ∃ root host levels node pubkey, K.deriveCashRoot seed = .ok root ∧ K.spendDomainOf domain = some host ∧
      K.cashDomainIndices root host = .ok levels ∧ account < hardened ∧ share < hardened ∧
      K.servicePath seed domain (shareIndices account share) =
        .ok ((cashPurpose + hardened) :: levels ++ shareIndices account share) ∧
      K.derivePath seed ((cashPurpose + hardened) :: levels ++ shareIndices account share) = .ok node ∧
      cx1 = encodeCx1 { chainCode := node.chainCode, pubkey } := by
  simp only [exportShare, deriveShareNode, cashNodeToCx1, bind_eq_ok, pure_eq_ok, belowHardened_eq_ok] at exported
  obtain ⟨root, rooted, service, served, node, ⟨_, ⟨low, plain⟩, first, accounts, second, chain, _, ⟨low', plain'⟩, last⟩,
    _, ⟨pubkey, _, rfl⟩, rfl⟩ := exported
  rw [plain] at accounts
  rw [plain'] at last
  have walked : (shareIndices account share).foldlM K.deriveCashChild service = .ok node := by
    simp only [shareIndices, List.foldlM_cons, List.foldlM_nil, bind_eq_ok, pure_eq_ok]
    exact ⟨first, accounts, second, chain, node, last, rfl⟩
  obtain ⟨host, levels, named, found, path, derived⟩ := servicePath_ok rooted served walked
  exact ⟨root, host, levels, node, pubkey, rooted, named, found, low, low', path, derived, rfl⟩

theorem KeyCrates.length_cashDomainIndices (found : K.cashDomainIndices root host = .ok levels) : levels.length = 4 := by
  simp only [cashDomainIndices, bind_eq_ok, pure_eq_ok] at found
  obtain ⟨_, _, rfl⟩ := found
  rfl

/-- Sixteen bytes are four big-endian words and nothing else. -/
theorem take_of_words {bytes bytes' : Bytes} (size : bytes.length = 32) (size' : bytes'.length = 32)
    (same : ([0, 4, 8, 12].map fun i => UInt32.ofNat (Bytes.beNat ((bytes.drop i).take 4))) =
      [0, 4, 8, 12].map fun i => UInt32.ofNat (Bytes.beNat ((bytes'.drop i).take 4))) :
    bytes.take 16 = bytes'.take 16 := by
  have word : ∀ i ∈ [0, 4, 8, 12], (bytes.drop i).take 4 = (bytes'.drop i).take 4 := by
    intro i member
    have equal := List.map_inj_left.mp same i member
    have bound : i + 4 ≤ 32 := by
      have : ∀ i ∈ [0, 4, 8, 12], i + 4 ≤ 32 := by decide
      exact this i member
    have long : ((bytes.drop i).take 4).length = 4 := by rw [List.length_take, List.length_drop]; omega
    have long' : ((bytes'.drop i).take 4).length = 4 := by rw [List.length_take, List.length_drop]; omega
    have small := Bytes.beNat_lt ((bytes.drop i).take 4)
    have small' := Bytes.beNat_lt ((bytes'.drop i).take 4)
    rw [long] at small
    rw [long'] at small'
    have values := congrArg UInt32.toNat equal
    rw [UInt32.toNat_ofNat_of_lt' small, UInt32.toNat_ofNat_of_lt' small'] at values
    rw [← Bytes.be_beNat ((bytes.drop i).take 4), ← Bytes.be_beNat ((bytes'.drop i).take 4), long, long', values]
  have pieces : ∀ b : Bytes, b.take 16 = (b.drop 0).take 4 ++ ((b.drop 4).take 4 ++ ((b.drop 8).take 4 ++ (b.drop 12).take 4)) := by
    intro b
    rw [show 16 = 4 + (4 + (4 + 4)) from rfl, List.take_add, List.take_add, List.take_add, List.drop_drop, List.drop_drop]
    rfl
  rw [pieces, pieces bytes', word 0 (by simp), word 4 (by simp), word 8 (by simp), word 12 (by simp)]

/-- Two hosts with the same four levels under one root are the same host. -/
theorem KeyCrates.host_of_levels {hosts : List Str} (free : K.HostsFree seed hosts) (member : host ∈ hosts)
    (member' : host' ∈ hosts) (rooted : K.deriveCashRoot seed = .ok root)
    (found : K.cashDomainIndices root host = .ok levels) (found' : K.cashDomainIndices root host' = .ok levels) :
    host = host' := by
  simp only [cashDomainIndices, bind_eq_ok, pure_eq_ok] at found found'
  obtain ⟨hashing, derived, rfl⟩ := found
  obtain ⟨other, derived', same⟩ := found'
  cases Except.ok.inj (derived.symm.trans derived')
  exact free root hashing rooted derived member member' (take_of_words (ByteArr.size _) (ByteArr.size _) same.symm)

theorem chainCode_of_encodeCx1 {cx1 other : Cx1} (same : encodeCx1 cx1 = encodeCx1 other) :
    cx1.chainCode = other.chainCode := by
  have payload : ∀ cx1 : Cx1, decodeBytes "cx".toList (encodeCx1 cx1) = some (cx1.chainCode.toList ++ cx1.pubkey.toList) := by
    intro cx1
    have size : (cx1.chainCode.toList ++ cx1.pubkey.toList).length = 65 := by
      rw [List.length_append, cx1.chainCode.size, cx1.pubkey.size]
    have carries : Carries "cx".toList (cx1.chainCode.toList ++ cx1.pubkey.toList).length :=
      size ▸ carries_cx (Or.inr rfl)
    have read : decodeBytes "cx".toList ([] ++ encodeCx1 cx1 ++ []) = some _ :=
      (decodeBytes_encodeBytes carries (by simp) (by simp)).1
    rwa [List.nil_append, List.append_nil] at read
  have bytes := (payload cx1).symm.trans ((congrArg _ same).trans (payload other))
  exact ByteArr.ext (List.append_inj (Option.some.inj bytes) (by rw [cx1.chainCode.size, other.chainCode.size])).1

theorem KeyCrates.shareDerivation_eq {path : List UInt32}
    (found : K.servicePath seed domain (shareIndices account share) = .ok path) :
    K.shareDerivation seed domain account share = [(seed, path)] := by
  rw [shareDerivation, found]

/-- What a wallet hands out of a share names one seed, one SERVICE, one account and one share. -/
theorem KeyCrates.cx1_identifies_share {cx1 : Str} (exported : K.exportShare seed domain account share = .ok cx1)
    (exported' : K.exportShare seed' domain' account' share' = .ok cx1)
    (free : K.ChainFree (K.shareDerivation seed domain account share ++ K.shareDerivation seed' domain' account' share'))
    (hosts : K.HostsFree seed ((K.spendDomainOf domain).toList ++ (K.spendDomainOf domain').toList)) :
    seed = seed' ∧ K.spendDomainOf domain = K.spendDomainOf domain' ∧ account = account' ∧ share = share' := by
  obtain ⟨root, host, levels, node, _, rooted, named, found, _, _, path, derived, rfl⟩ := exportShare_ok exported
  obtain ⟨root', host', levels', node', _, rooted', named', found', _, _, path', derived', same⟩ := exportShare_ok exported'
  rw [shareDerivation_eq path, shareDerivation_eq path', List.singleton_append] at free
  obtain ⟨rfl, paths⟩ := derivePath_injective free derived derived' (chainCode_of_encodeCx1 same)
  cases Except.ok.inj (rooted.symm.trans rooted')
  have counts := (length_cashDomainIndices found).trans (length_cashDomainIndices found').symm
  obtain ⟨rfl, shares⟩ := List.append_inj (List.cons.inj paths).2 counts
  simp only [shareIndices, List.cons.injEq, UInt32.add_left_inj, true_and, and_true] at shares
  rw [named, named'] at hosts ⊢
  have sameHost := host_of_levels hosts (by simp) (by simp) rooted found found'
  exact ⟨rfl, congrArg some sameHost, shares.1, shares.2⟩

end Shares

/-! The first share at `d.example`, whose four levels are all hardened, exported under two spellings of the domain. -/

def exampleSeed : Bytes := List.replicate 64 7

def exampleHost : Str := "d.example".toList

def exampleNoteUrl : Str := "https://d.example/w".toList

def examplePath : List UInt32 :=
  [cashPurpose + hardened, 3815006891, 3558665692, 3867428541, 2311097935, hardened, chainShare, hardened]

theorem KeyCrates.exportShare_congr {K : KeyCrates} {domain domain' : Str}
    (same : K.spendDomainOf domain = K.spendDomainOf domain') (seed : Bytes) (account share : UInt32) :
    K.exportShare seed domain account share = K.exportShare seed domain' account share ∧
      K.shareDerivation seed domain account share = K.shareDerivation seed domain' account share := by
  simp only [exportShare, deriveServiceRoot, shareDerivation, servicePath, same, and_self]

/-- The secret keys of `m/139'`, of the account and of the share, whose points are met on the way. -/
def metPubkeys : List (ByteArr 32 × ByteArr 33) := [
  (Bytes.beArr 32 0x57d6bdaeff4e837cedfa194d268bdf8041221188cbfda6d7ed22f2b6aa4953b1,
    Bytes.beArr 33 0x03e0ad4f74983c96d3a5c6df2cc238d4e7cc235e60c4bbb9b8236f7361210191be),
  (Bytes.beArr 32 0xc065503c8bd199a0bc04171e71b03e457da038c0874c4aae8a842e3d61ec97d5,
    Bytes.beArr 33 0x02cfec921a616eed513facb0bd534761d8a2125f6b147e7199014fd27367423a72),
  (Bytes.beArr 32 0xac79a0f589c16938a2fa3c34dc28fe6c71491b5232347b44f0e73e06ddd43d11,
    Bytes.beArr 33 0x026fc00a1346aff2af507b14094356e56325ed30e0e77a20489b8165ba5642d29d)]

/-- The keys, messages and MACs of `m` and `m/139'`, of the hashing key, and of the seven steps from there. -/
def metMacs : List (Bytes × Bytes × Bytes) := [
  (bitcoinSeed, exampleSeed,
    Bytes.be 32 0xad1d9556b8004dc49511340b642accb9d6bfaae8726f5c424fda613a2b8a09c6 ++
      Bytes.be 32 0x7f9e20b792820470d09353e3f511721adc6e2988c19553396d39c9e2949d4b9f),
  (Bytes.be 32 0x7f9e20b792820470d09353e3f511721adc6e2988c19553396d39c9e2949d4b9f,
    Bytes.be 37 0xad1d9556b8004dc49511340b642accb9d6bfaae8726f5c424fda613a2b8a09c68000008b,
    Bytes.be 32 0xaab92858474e35b858e8e541c26112c52511438708d6ead15d1af0094ef58b2c ++
      Bytes.be 32 0x92f5e1b1e6b6bde816887d559b23b6f95660387fc330d35feb39382e13fea221),
  (Bytes.be 32 0x92f5e1b1e6b6bde816887d559b23b6f95660387fc330d35feb39382e13fea221,
    Bytes.be 37 0x3e0ad4f74983c96d3a5c6df2cc238d4e7cc235e60c4bbb9b8236f7361210191be00000000,
    Bytes.be 32 0xa47ec2c94950427ffef48d0e0e88666708540952935a148901438478a062de5a ++
      Bytes.be 32 0x3d7625d917b3742c31547e0e7279cb79c31fa37791739da8f2586d0ef041d6df),
  (Bytes.be 32 0x92f5e1b1e6b6bde816887d559b23b6f95660387fc330d35feb39382e13fea221,
    Bytes.be 37 0x57d6bdaeff4e837cedfa194d268bdf8041221188cbfda6d7ed22f2b6aa4953b1e36462ab,
    Bytes.be 32 0xc32dce6aed9945764e97061309bde9b8e2e86d592d7428f70490c20c46d1c310 ++
      Bytes.be 32 0xed82c4dcd8f946b38fa10273516ddb45dd7b804add97dd8d718fa5061a12c185),
  (Bytes.be 32 0xed82c4dcd8f946b38fa10273516ddb45dd7b804add97dd8d718fa5061a12c185,
    Bytes.be 37 0x1b048c19ece7c8f33c911f603049c93a695ba1fb4a292f9331e1563620e4d580d41ceddc,
    Bytes.be 32 0xcd4eb7ef85a7c899a0d2de21a9a20b4c5a53df6478ae4bc63fdb388cbc679cd8 ++
      Bytes.be 32 0xd45938bf264ff4884cb8e3d62d160c9a89de1db3c439efb11ca6cf3a86ce96d3),
  (Bytes.be 32 0xd45938bf264ff4884cb8e3d62d160c9a89de1db3c439efb11ca6cf3a86ce96d3,
    Bytes.be 37 0xe8534409728f918cdd63fd81d9ebd486c3af815fc2d77b5971bc8ec2dd4c7258e68446bd,
    Bytes.be 32 0x3a3c21a13dbee418545866c9ab622c3b1144a709e0d7109b7ed5d3da384b41d ++
      Bytes.be 32 0x9ec2180f6490861acc750a66be533068fbf76322d5e59c6e2d8d630674b68b8d),
  (Bytes.be 32 0x9ec2180f6490861acc750a66be533068fbf76322d5e59c6e2d8d630674b68b8d,
    Bytes.be 37 0xebf70623866b7fce62a983ee74a1f74a74c3cbd060e4ec6329a9ec0080d1267589c08e4f,
    Bytes.be 32 0xbde026c8bf264da601ecf1f817e969f5d46e8c979de29b8c3b4da6aa62ffbb63 ++
      Bytes.be 32 0xd71813d98d8b2a64614625a52b55b8b7904758aea8e39b16f8eb57dc48f3dd3e),
  (Bytes.be 32 0xd71813d98d8b2a64614625a52b55b8b7904758aea8e39b16f8eb57dc48f3dd3e,
    Bytes.be 37 0xa9d72cec4591cd74649675e68c8b61418e837b814f7ee7b3a525341e139aa09780000000,
    Bytes.be 32 0x168e2350463fcc2c576da137e524dd03ef1cbd3f37cd62fae55efa1f4e51f73e ++
      Bytes.be 32 0x9b95cca63ee85f7825f5b30eeae80e15f624f39e8a08e0a84c2a1321d5f4cd60),
  (Bytes.be 32 0x9b95cca63ee85f7825f5b30eeae80e15f624f39e8a08e0a84c2a1321d5f4cd60,
    Bytes.be 37 0x2cfec921a616eed513facb0bd534761d8a2125f6b147e7199014fd27367423a7200000002,
    Bytes.be 32 0xc0f37a2de3229368194d81859b5e511b35ecb85760165d84bada952e6063a12 ++
      Bytes.be 32 0x55ef5788aff931abccfccc561c9d259dca71ce78c6494b0595b119af141fef2b),
  (Bytes.be 32 0x55ef5788aff931abccfccc561c9d259dca71ce78c6494b0595b119af141fef2b,
    Bytes.be 37 0xcc7487df6a03c2d73d98ef36cb66235730ff0445fd4db086d631d79047f2d1e780000000,
    Bytes.be 32 0xe00519161fbda66165614cfe10c2db13faf8f3f2e42f6af9da87c5036617ac6b ++
      Bytes.be 32 0x6db96a1d8b690253e7c46a3069adbdb8b00694dfcd3a1a8e38462e619e25826b)]

def listedMac (key message : Bytes) : Option (ByteArr 64) := do
  let (_, _, mac) ← metMacs.find? fun met => decide (met.1 = key ∧ met.2.1 = message)
  Bytes.toArr 64 mac

/-- The reference, its points and MACs looked up where they are listed. -/
def listedKeys : KeyCrates := { referenceKeys with
  publicKeyOf := fun key => (metPubkeys.lookup key).getD (Secp256k1.publicKey key)
  hmacSha512 := fun key message => (listedMac key message).getD (hmac 128 Sha512.hash key message) }

set_option maxRecDepth 100000 in
theorem metPubkeys_secp256k1 : ∀ pair ∈ metPubkeys, Secp256k1.publicKey pair.1 = pair.2 := by decide +kernel

set_option maxRecDepth 100000 in
theorem metMacs_hmac : ∀ met ∈ metMacs, (hmac 128 Sha512.hash met.1 met.2.1).toList = met.2.2 := by decide +kernel

theorem mem_of_lookup {α β : Type} [BEq α] [LawfulBEq α] {pairs : List (α × β)} {key : α} {value : β}
    (found : pairs.lookup key = some value) : (key, value) ∈ pairs := by
  induction pairs with
  | nil => cases found
  | cons pair rest ih =>
    rw [List.lookup_cons] at found
    split at found
    · rename_i same
      rw [eq_of_beq same, ← Option.some.inj found]
      exact List.mem_cons_self
    · exact List.mem_cons_of_mem _ (ih found)

theorem getD_eq_of_forall {α : Type} {listed : Option α} {real : α} (right : ∀ value, listed = some value → value = real) :
    listed.getD real = real := by
  cases listed with
  | none => rfl
  | some value => exact right value rfl

/-- The lists change nothing. -/
theorem listedKeys_eq : listedKeys = referenceKeys := by
  have points : listedKeys.publicKeyOf = Secp256k1.publicKey := by
    funext key
    exact getD_eq_of_forall fun pubkey found => (metPubkeys_secp256k1 _ (mem_of_lookup found)).symm
  have macs : listedKeys.hmacSha512 = hmac 128 Sha512.hash := by
    funext key message
    refine getD_eq_of_forall fun mac found => ?_
    obtain ⟨met, among, fits⟩ := Option.bind_eq_some_iff.mp found
    have named : met.1 = key ∧ met.2.1 = message := by simpa using List.find?_some among
    have right := metMacs_hmac met (List.mem_of_find?_eq_some among)
    rw [named.1, named.2] at right
    exact ByteArr.ext ((Bytes.toArr_eq_some.mp fits).symm.trans right.symm)
  change { listedKeys with publicKeyOf := listedKeys.publicKeyOf, hmacSha512 := listedKeys.hmacSha512 } = referenceKeys
  rw [points, macs]
  rfl

set_option maxRecDepth 100000 in
theorem listedKeys.servicePath_example :
    listedKeys.servicePath exampleSeed exampleHost (shareIndices 0 0) = .ok examplePath := by decide +kernel

set_option maxRecDepth 100000 in
theorem listedKeys.spendDomainOf_example : listedKeys.spendDomainOf exampleNoteUrl = some exampleHost ∧
    listedKeys.spendDomainOf exampleHost = some exampleHost := by decide +kernel

set_option maxRecDepth 100000 in
theorem listedKeys.chainFree_example : listedKeys.ChainFree [(exampleSeed, examplePath), (exampleSeed, examplePath)] := by
  have distinct : ((listedKeys.derivationQueries (exampleSeed, examplePath)).map
      (Function.uncurry listedKeys.chainStep)).Nodup := by decide +kernel
  intro query member other member' same
  rw [Set.mem_ofPred_eq, List.flatMap_cons, List.flatMap_cons, List.flatMap_nil, List.append_nil, List.mem_append,
    or_self] at member member'
  exact List.inj_on_of_nodup_map distinct member member' same

set_option maxRecDepth 100000 in
def exampleCx1 : { cx1 : Str // listedKeys.exportShare exampleSeed exampleHost 0 0 = .ok cx1 } :=
  ⟨"cx1dkuk58vtdyp98e7ydgcxntdahzcqd9xle5ap4r3cgchxr839sf4sym7qpgf5dtlj4ag8k9qfgdtw2ce9a5cwpem6ypyfhqt9hfty955az0g99w".toList,
    by decide +kernel⟩

/-- One `cx1` for both spellings, and by it one host. -/
theorem referenceKeys.example_identified :
    referenceKeys.exportShare exampleSeed exampleNoteUrl 0 0 = .ok exampleCx1.val ∧
      referenceKeys.spendDomainOf exampleNoteUrl = referenceKeys.spendDomainOf exampleHost := by
  rw [← listedKeys_eq]
  obtain ⟨url, host⟩ := listedKeys.spendDomainOf_example
  obtain ⟨sameExport, sameDerivation⟩ := KeyCrates.exportShare_congr (url.trans host.symm) exampleSeed 0 0
  have exported := sameExport.trans exampleCx1.property
  refine ⟨exported, (KeyCrates.cx1_identifies_share exported exampleCx1.property ?_ ?_).2.1⟩
  · rw [sameDerivation, KeyCrates.shareDerivation_eq listedKeys.servicePath_example]
    exact listedKeys.chainFree_example
  · rw [url, host]
    rintro _ _ _ _ left member right member' _
    simp only [Option.toList_some, List.singleton_append, Set.mem_ofPred_eq, List.mem_cons, List.not_mem_nil, or_false,
      or_self] at member member'
    rw [member, member']

end LnurlCash
