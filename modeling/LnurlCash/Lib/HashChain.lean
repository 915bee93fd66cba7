import Mathlib.Data.List.Induction
import Mathlib.Data.Set.Function

/-! Chains of keyed hashes: each digest is the key under which the next message is hashed. -/

namespace HashChain

variable {Key Msg : Type} {hash : Key → Msg → Key} {start : Key}

def digest (hash : Key → Msg → Key) (key : Key) (messages : List Msg) : Key := messages.foldl hash key

/-- What a chain hashes, each message with its key. -/
def queries (hash : Key → Msg → Key) : Key → List Msg → List (Key × Msg)
  | _, [] => []
  | key, message :: rest => (key, message) :: queries hash (hash key message) rest

/-- No two of these have the same digest, and none has the chains' starting key for its digest. -/
structure Free (hash : Key → Msg → Key) (start : Key) (asked : List (Key × Msg)) : Prop where
  injective : Set.InjOn (Function.uncurry hash) {query | query ∈ asked}
  fresh : ∀ query ∈ asked, hash query.1 query.2 ≠ start

theorem Free.mono {fewer more : List (Key × Msg)} (free : Free hash start more) (within : fewer ⊆ more) :
    Free hash start fewer where
  injective := free.injective.mono fun _ member => within member
  fresh query member := free.fresh query (within member)

theorem digest_concat (key : Key) (messages : List Msg) (last : Msg) :
    digest hash key (messages ++ [last]) = hash (digest hash key messages) last := by
  rw [digest, List.foldl_append, List.foldl_cons, List.foldl_nil, digest]

theorem queries_concat (key : Key) (messages : List Msg) (last : Msg) :
    queries hash key (messages ++ [last]) = queries hash key messages ++ [(digest hash key messages, last)] := by
  induction messages generalizing key with
  | nil => rfl
  | cons message rest ih =>
    rw [List.cons_append, queries, ih, queries, List.cons_append]
    rfl

/-- A chain's last digest says what was hashed into it, all of it and in order. -/
theorem digest_injective {messages others : List Msg}
    (free : Free hash start (queries hash start messages ++ queries hash start others))
    (same : digest hash start messages = digest hash start others) : messages = others := by
  induction messages using List.reverseRecOn generalizing others with
  | nil =>
    induction others using List.reverseRecOn with
    | nil => rfl
    | append_singleton others last _ =>
      rw [digest_concat] at same
      refine absurd same.symm (free.fresh (digest hash start others, last) ?_)
      simp [queries_concat]
  | append_singleton messages message ih =>
    induction others using List.reverseRecOn with
    | nil =>
      rw [digest_concat] at same
      refine absurd same (free.fresh (digest hash start messages, message) ?_)
      simp [queries_concat]
    | append_singleton others last _ =>
      rw [queries_concat, queries_concat] at free
      rw [digest_concat, digest_concat] at same
      have pair : (digest hash start messages, message) = (digest hash start others, last) :=
        free.injective (by simp) (by simp) same
      obtain ⟨digests, rfl⟩ := Prod.mk.inj pair
      have earlier : queries hash start messages ++ queries hash start others ⊆
          queries hash start messages ++ [(digest hash start messages, message)] ++
            (queries hash start others ++ [(digest hash start others, message)]) := by
        intro query member
        rcases List.mem_append.mp member with left | right
        · simp [left]
        · simp [right]
      rw [ih (free.mono earlier) digests]

end HashChain
