import McpGateway.Shared.GoMap

namespace McpGateway.Search

open Shared

variable {E State : Type}

structure EmbeddingCache (E : Type) where
  entries : GoMap String E
  order : List String
  maxSize : Nat

def EmbeddingCache.new (maxSize : Int) : EmbeddingCache E :=
  ⟨∅, [], if maxSize ≤ 0 then 0 else maxSize.toNat⟩

def EmbeddingCache.moveToEndLocked (cache : EmbeddingCache E) (key : String) : EmbeddingCache E :=
  if key ∈ cache.order then { cache with order := cache.order.erase key ++ [key] } else cache

def EmbeddingCache.evictLocked (cache : EmbeddingCache E) : EmbeddingCache E :=
  match cache.order with
  | [] => cache
  | oldest :: rest => { cache with entries := cache.entries.erase oldest, order := rest }

def EmbeddingCache.get (cache : EmbeddingCache E) (key : String) : Option E × EmbeddingCache E :=
  match cache.entries.lookup key with
  | none => (none, cache)
  | some embedding => (some embedding, cache.moveToEndLocked key)

def EmbeddingCache.set (cache : EmbeddingCache E) (key : String) (embedding : E) : EmbeddingCache E :=
  if (cache.entries.lookup key).isSome then
    { cache with entries := cache.entries.insert key embedding }.moveToEndLocked key
  else
    let room := if 0 < cache.maxSize ∧ cache.maxSize ≤ cache.entries.keys.length then cache.evictLocked else cache
    { room with entries := room.entries.insert key embedding, order := room.order ++ [key] }

inductive CacheOp (E : Type) where
  | get (key : String)
  | set (key : String) (embedding : E)

def EmbeddingCache.step (cache : EmbeddingCache E) : CacheOp E → Option E × EmbeddingCache E
  | .get key => cache.get key
  | .set key embedding => (none, cache.set key embedding)

def calls (step : State → CacheOp E → Option E × State) : State → List (CacheOp E) → List (Option E) × State
  | state, [] => ([], state)
  | state, op :: rest =>
    let later := calls step (step state op).2 rest
    ((step state op).1 :: later.1, later.2)

/-- The reference keeps every hit and store so far, the latest last. -/
structure Lru (E : Type) where
  held : String → Option E
  uses : List String

-- The held keys by their last use: dedup keeps the last occurrence of each.
def Lru.recency (lru : Lru E) : List String :=
  lru.uses.dedup.filter fun key => (lru.held key).isSome

def Lru.touch (lru : Lru E) (key : String) (value : E) : Lru E :=
  ⟨Function.update lru.held key (some value), lru.uses ++ [key]⟩

def Lru.evict (lru : Lru E) : Lru E :=
  match lru.recency with
  | [] => lru
  | oldest :: _ => { lru with held := Function.update lru.held oldest none }

def Lru.step (maxSize : Int) (lru : Lru E) : CacheOp E → Option E × Lru E
  | .get key => (lru.held key, (lru.held key).elim lru (lru.touch key))
  | .set key value =>
    if (lru.held key).isNone ∧ 0 < maxSize ∧ maxSize ≤ lru.recency.length then (none, lru.evict.touch key value)
    else (none, lru.touch key value)

theorem dedup_concat (uses : List String) (key : String) : (uses ++ [key]).dedup = uses.dedup.erase key ++ [key] := by
  induction uses with
  | nil => simp
  | cons use uses ih =>
    by_cases again : use ∈ uses
    · simp [List.dedup_cons_of_mem, again, ih]
    · by_cases same : use = key
      · simp [List.dedup_cons_of_mem, same, ih, List.erase_of_not_mem, same ▸ again]
      · simp [List.dedup_cons_of_notMem, again, same, ih]

theorem Lru.recency_touch (lru : Lru E) (key : String) (value : E) :
    (lru.touch key value).recency = lru.recency.erase key ++ [key] := by
  have distinct := List.nodup_dedup lru.uses
  simp only [recency, touch, dedup_concat, List.filter_append, distinct.erase_eq_filter,
    (distinct.filter _).erase_eq_filter, List.filter_filter]
  congr 1
  · refine List.filter_congr fun other _ => ?_
    by_cases same : other = key <;> simp [same, Bool.and_comm]
  · simp

theorem Lru.recency_evict {lru : Lru E} {oldest : String} {rest : List String} (order : lru.recency = oldest :: rest) :
    lru.evict.recency = rest := by
  have distinct : (oldest :: rest).Nodup := order ▸ (List.nodup_dedup lru.uses).filter _
  have kept : lru.evict.recency = lru.recency.filter (· != oldest) := by
    simp only [evict, order]
    rw [← order, recency, recency, List.filter_filter]
    refine List.filter_congr fun other _ => ?_
    by_cases same : other = oldest <;> simp [same]
  rw [kept, order, ← distinct.erase_eq_filter, List.erase_cons_head]

structure Mirrors (maxSize : Int) (cache : EmbeddingCache E) (lru : Lru E) : Prop where
  order : cache.order = lru.recency
  values : ∀ key, cache.entries.lookup key = lru.held key
  used : ∀ key, (lru.held key).isSome → key ∈ lru.uses
  capacity : cache.maxSize = maxSize.toNat
  bounded : 0 < maxSize → cache.order.length ≤ maxSize

section

variable {maxSize : Int} {cache next : EmbeddingCache E} {lru : Lru E} (mirrors : Mirrors maxSize cache lru)

include mirrors

theorem Mirrors.distinct : cache.order.Nodup :=
  mirrors.order ▸ (List.nodup_dedup lru.uses).filter _

theorem Mirrors.stored (key : String) : key ∈ cache.order ↔ (cache.entries.lookup key).isSome := by
  rw [mirrors.order, mirrors.values, Lru.recency, List.mem_filter, List.mem_dedup]
  exact and_iff_right_of_imp (mirrors.used key)

theorem Mirrors.perm : cache.order.Perm cache.entries.keys := by
  refine (List.perm_ext_iff_of_nodup mirrors.distinct cache.entries.keys_nodup).mpr fun key => ?_
  rw [mirrors.stored, AList.lookup_isSome, AList.mem_keys]

theorem Mirrors.touch {key : String} {value : E} (order : next.order = cache.order.erase key ++ [key])
    (written : ∀ other, next.entries.lookup other = if other = key then some value else cache.entries.lookup other)
    (size : next.maxSize = cache.maxSize) (room : 0 < maxSize → key ∈ cache.order ∨ cache.order.length < maxSize) :
    Mirrors maxSize next (lru.touch key value) where
  order := by rw [order, Lru.recency_touch, mirrors.order]
  values other := by by_cases same : other = key <;> simp [Lru.touch, written, same, mirrors.values]
  used other := by by_cases same : other = key <;> simp +contextual [Lru.touch, same, mirrors.used]
  capacity := size.trans mirrors.capacity
  bounded pos := by
    have before := mirrors.bounded pos
    have after := room pos
    rw [order, List.length_append, List.length_erase]
    grind

theorem Mirrors.evict {oldest : String} {rest : List String} (order : cache.order = oldest :: rest) :
    Mirrors maxSize { cache with entries := cache.entries.erase oldest, order := rest } lru.evict := by
  have recency := mirrors.order ▸ order
  have evicted := Lru.recency_evict recency
  have before := mirrors.bounded
  simp only [Lru.evict, order, recency, List.length_cons] at evicted before ⊢
  refine ⟨evicted.symm, fun key => ?_, fun key => ?_, mirrors.capacity, fun pos => ?_⟩
  · by_cases same : key = oldest <;> simp [GoMap.lookup_erase_eq, same, mirrors.values]
  · by_cases same : key = oldest <;> simp +contextual [same, mirrors.used]
  · exact Int.le_trans (Int.le_add_one (Int.le_refl _)) (before pos)

theorem Mirrors.set (key : String) (value : E) :
    Mirrors maxSize (cache.set key value) (lru.step maxSize (.set key value)).2 := by
  have full : 0 < cache.maxSize ∧ cache.maxSize ≤ cache.order.length ↔ 0 < maxSize ∧ maxSize ≤ cache.order.length := by
    rw [mirrors.capacity]
    omega
  have listed := mirrors.stored key
  simp only [EmbeddingCache.set, Lru.step, ← mirrors.values, ← mirrors.order, ← mirrors.perm.length_eq, full]
  cases found : cache.entries.lookup key with
  | some old =>
    have moved : key ∈ cache.order := by simp [listed, found]
    simp only [EmbeddingCache.moveToEndLocked, moved, Option.isSome_some, Option.isNone_some, Bool.false_eq_true,
      false_and, if_true, if_false]
    exact mirrors.touch rfl (GoMap.lookup_insert_eq _ _ · _) rfl fun _ => .inl moved
  | none =>
    have absent : key ∉ cache.order := by simp [listed, found]
    simp only [Option.isSome_none, Option.isNone_none, true_and, Bool.false_eq_true, if_false]
    split_ifs with evicts
    · obtain ⟨oldest, rest, order⟩ := List.exists_cons_of_length_pos (l := cache.order) (by omega)
      have before := mirrors.bounded evicts.1
      simp only [order, List.mem_cons, not_or, List.length_cons] at absent before
      simp only [EmbeddingCache.evictLocked, order]
      refine (mirrors.evict order).touch ?_ (GoMap.lookup_insert_eq _ _ · _) rfl fun _ => .inr ?_
      · rw [List.erase_of_not_mem absent.2]
      · exact_mod_cast before
    · refine mirrors.touch ?_ (GoMap.lookup_insert_eq _ _ · _) rfl fun pos => .inr (by omega)
      rw [List.erase_of_not_mem absent]

theorem Mirrors.step (op : CacheOp E) : (cache.step op).1 = (lru.step maxSize op).1 ∧
    Mirrors maxSize (cache.step op).2 (lru.step maxSize op).2 := by
  cases op with
  | get key =>
    have listed := mirrors.stored key
    simp only [EmbeddingCache.step, EmbeddingCache.get, Lru.step, ← mirrors.values]
    cases found : cache.entries.lookup key with
    | none => exact ⟨rfl, mirrors⟩
    | some value =>
      have moved : key ∈ cache.order := by simp [listed, found]
      simp only [EmbeddingCache.moveToEndLocked, moved, if_true]
      refine ⟨trivial, mirrors.touch rfl (fun other => ?_) rfl fun _ => .inl moved⟩
      split_ifs with same
      · rw [same, found]
      · rfl
  | set key value =>
    refine ⟨?_, mirrors.set key value⟩
    simp only [Lru.step]
    split_ifs <;> rfl

theorem Mirrors.calls (ops : List (CacheOp E)) :
    (calls EmbeddingCache.step cache ops).1 = (calls (Lru.step maxSize) lru ops).1 ∧
      Mirrors maxSize (calls EmbeddingCache.step cache ops).2 (calls (Lru.step maxSize) lru ops).2 := by
  induction ops generalizing cache lru with
  | nil => exact ⟨rfl, mirrors⟩
  | cons op rest ih =>
    obtain ⟨answer, next⟩ := mirrors.step op
    obtain ⟨answers, last⟩ := ih next
    exact ⟨by simp [Search.calls, answer, answers], last⟩

end

/-- After any calls the order lists the stored keys once each, the capacity is kept, and every answer was the
reference's. -/
theorem embedding_cache_lru (maxSize : Int) (ops : List (CacheOp E)) :
    let run := calls EmbeddingCache.step (.new maxSize) ops
    run.2.order.Nodup ∧ run.2.order.Perm run.2.entries.keys ∧ (0 < maxSize → run.2.entries.keys.length ≤ maxSize) ∧
      run.1 = (calls (Lru.step maxSize) ⟨fun _ => none, []⟩ ops).1 := by
  have start : Mirrors maxSize (.new maxSize : EmbeddingCache E) ⟨fun _ => none, []⟩ := by
    refine ⟨rfl, fun _ => rfl, by simp, ?_, fun pos => Int.le_of_lt pos⟩
    simp only [EmbeddingCache.new]
    split_ifs <;> omega
  obtain ⟨answers, last⟩ := start.calls ops
  exact ⟨last.distinct, last.perm, fun pos => last.perm.length_eq ▸ last.bounded pos, answers⟩

end McpGateway.Search
