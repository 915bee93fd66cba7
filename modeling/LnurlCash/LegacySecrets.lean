import LnurlCash.Lib.HashChain
import LnurlCash.SeedTrees

namespace LnurlCash

/-! ### The derivation notes were minted under before LUD-25 had one -/

def noteDerivationDomain : Bytes := Str.utf8 "lnurlcash-note-v1".toList

section Derivation

variable (K : KeyCrates)

def KeyCrates.deriveNoteRoot (seed : Bytes) : ByteArr 32 := K.hmacSha256 noteDerivationDomain seed

/-- The i-th secret at a host, as 32 bytes of hex. -/
def KeyCrates.deriveNoteSecret (root : ByteArr 32) (host : Str) (index : UInt32) : Str :=
  Hex.encode (K.hmacSha256 root.toList (Str.utf8 (host ++ ":".toList ++ Str.decimal index.toNat))).toList

/-- A note as a restore comes by it. -/
structure LegacyNote where
  seed : Bytes
  host : Str
  index : UInt32
  deriving DecidableEq

def LegacyNote.messages (note : LegacyNote) : List Bytes :=
  [note.seed, Str.utf8 (note.host ++ ":".toList ++ Str.decimal note.index.toNat)]

def KeyCrates.legacySecret (note : LegacyNote) : Str := K.deriveNoteSecret (K.deriveNoteRoot note.seed) note.host note.index

def KeyCrates.legacyHash (key message : Bytes) : Bytes := (K.hmacSha256 key message).toList

/-- What is hashed on the way to a note's secret. -/
def KeyCrates.legacyQueries (note : LegacyNote) : List (Bytes × Bytes) :=
  HashChain.queries K.legacyHash noteDerivationDomain note.messages

/-- A note's secret, as bytes. -/
def KeyCrates.legacyBytes (note : LegacyNote) : Bytes := HashChain.digest K.legacyHash noteDerivationDomain note.messages

/-- Neither HMAC nor SHA-256 collides on what these notes hash. -/
structure KeyCrates.LegacyFree (notes : List LegacyNote) : Prop where
  macs : Set.InjOn (Function.uncurry K.legacyHash) {query | query ∈ notes.flatMap K.legacyQueries}
  hashes : K.CollisionFree (notes.map K.legacyBytes)

end Derivation

variable {K : KeyCrates} {notes : List LegacyNote} {note other : LegacyNote}

theorem KeyCrates.legacySecret_eq (note : LegacyNote) : K.legacySecret note = Hex.encode (K.legacyBytes note) := rfl

theorem KeyCrates.isPreimage_legacySecret (note : LegacyNote) : isPreimage (K.legacySecret note) := by
  rw [isPreimage_iff, legacySecret, deriveNoteSecret, Hex.trim_encode]
  exact ⟨by rw [Hex.length_encode, ByteArr.size], fun c member => Hex.isHexDigit_of_mem_encode member⟩

/-- Host and index are read off the text that is hashed, whatever colons and digits the host has. -/
theorem LegacyNote.messages_inj (same : note.messages = other.messages) : note = other := by
  obtain ⟨seeds, names⟩ := List.cons.inj same
  have text := Str.utf8_injective (List.cons.inj names).1
  rw [List.append_assoc, List.append_assoc] at text
  have colonless : ∀ n, ':' ∉ Str.decimal n := by
    intro n member
    cases Str.isDigit_of_mem_decimal member
  obtain ⟨hosts, indices⟩ := Str.append_sep_inj (colonless _) (colonless _) text
  have index := UInt32.toNat_inj.mp (Str.decimal_injective indices)
  cases note
  cases other
  simp_all

/-- A digest of 32 bytes is not the 17 bytes the derivation starts from. -/
theorem KeyCrates.LegacyFree.chains (free : K.LegacyFree notes) :
    HashChain.Free K.legacyHash noteDerivationDomain (notes.flatMap K.legacyQueries) where
  injective := free.macs
  fresh query _ same := by
    have sizes := congrArg List.length same
    rw [legacyHash, ByteArr.size] at sizes
    exact absurd sizes (by decide)

theorem KeyCrates.LegacyFree.bytes_inj (free : K.LegacyFree notes) (member : note ∈ notes) (member' : other ∈ notes)
    (same : K.legacyBytes note = K.legacyBytes other) : note = other := by
  refine LegacyNote.messages_inj (HashChain.digest_injective (free.chains.mono ?_) same)
  intro query asked
  rw [List.mem_flatMap]
  rcases List.mem_append.mp asked with left | right
  · exact ⟨note, member, left⟩
  · exact ⟨other, member', right⟩

theorem KeyCrates.noteLookupOf_legacySecret (note : LegacyNote) :
    K.noteLookupOf (K.legacySecret note) = some (Hex.encode (K.sha256 (K.legacyBytes note)).toList) := by
  have preimage := K.isPreimage_legacySecret note
  rw [legacySecret_eq] at preimage ⊢
  simp only [Crates.noteLookupOf, preimage, if_true, Crates.hashK1, Hex.decode_lower, Hex.trim_encode, Hex.decode_encode]
  rfl

/-- A restore of legacy notes, over any seeds, hosts and indices: each secret
is a preimage, and no two notes are looked up under one hash. -/
theorem KeyCrates.legacy_notes_apart (free : K.LegacyFree notes) :
    (∀ note ∈ notes, isPreimage (K.legacySecret note)) ∧
      Set.InjOn (fun note => K.noteLookupOf (K.legacySecret note)) {note | note ∈ notes} := by
  refine ⟨fun note _ => K.isPreimage_legacySecret note, ?_⟩
  intro note member other member' same
  simp only [noteLookupOf_legacySecret, Option.some.injEq] at same
  have hashes := ByteArr.ext (Hex.encode_injective same)
  refine free.bytes_inj member member' (free.hashes ?_ ?_ hashes)
  · exact List.mem_map_of_mem member
  · exact List.mem_map_of_mem member'

/-! Two notes of one seed, where the host's port and the index could be mistaken for one another. -/

def restoredNotes : List LegacyNote := [
  { seed := exampleSeed, host := exampleHost, index := 11 },
  { seed := exampleSeed, host := exampleHost ++ ":1".toList, index := 1 }]

set_option maxRecDepth 100000 in
theorem referenceKeys.legacyFree_restored : referenceKeys.LegacyFree restoredNotes where
  macs := by
    have distinct : ((restoredNotes.flatMap referenceKeys.legacyQueries).dedup.map
        (Function.uncurry referenceKeys.legacyHash)).Nodup := by decide +kernel
    intro query member other member' same
    exact List.inj_on_of_nodup_map distinct (List.mem_dedup.mpr member) (List.mem_dedup.mpr member') same
  hashes := Crates.CollisionFree.of_nodup (by decide +kernel)

theorem referenceKeys.restored_apart :
    (∀ note ∈ restoredNotes, isPreimage (referenceKeys.legacySecret note)) ∧
      Set.InjOn (fun note => referenceKeys.noteLookupOf (referenceKeys.legacySecret note))
        {note | note ∈ restoredNotes} :=
  KeyCrates.legacy_notes_apart referenceKeys.legacyFree_restored

end LnurlCash
