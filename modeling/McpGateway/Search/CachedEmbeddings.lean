import McpGateway.Search.EmbeddingCache
import McpGateway.Shared.Digest
import McpGateway.Shared.Runs

namespace McpGateway.Search

open Shared

structure Document where
  key : String
  name : String
  title : String
  description : String
  tags : List String

def buildEmbedText (doc : Document) : String :=
  ". ".intercalate <|
    (if doc.name = "" then [] else [doc.name.map fun c => if c = '.' ∨ c = '_' then ' ' else c]) ++
    (if doc.title = "" then [] else [doc.title]) ++ (if doc.description = "" then [] else [doc.description]) ++
    if doc.tags = [] then [] else [" ".intercalate doc.tags]

def hashedBytes (doc : Document) : List Nat :=
  utf8Bytes doc.name ++ 0 :: utf8Bytes doc.description

def contentHash (doc : Document) : String :=
  hexEncode (Sha256.sum (hashedBytes doc))

variable {E : Type} (embed : String → E)

-- The embedder answers each text on its own, so a missing answer is filled in where it is missing.
def embedWithCache (cache : Option (EmbeddingCache E)) (docs : List Document) : List E × Option (EmbeddingCache E) :=
  match cache with
  | none => (docs.map fun doc => embed (buildEmbedText doc), none)
  | some cache =>
    let looked := calls EmbeddingCache.step cache (docs.map fun doc => .get (contentHash doc))
    let needEmbed := (docs.zip looked.1).filter fun entry => entry.2.isNone
    let stored := calls EmbeddingCache.step looked.2
      (needEmbed.map fun entry => .set (contentHash entry.1) (embed (buildEmbedText entry.1)))
    (docs.zipWith (fun doc hit => hit.getD (embed (buildEmbedText doc))) looked.1, some stored.2)

structure VectorEngine (E : Type) where
  partitions : GoMap String (List Document × List E)
  cache : Option (EmbeddingCache E)

inductive VectorOp where
  | addPartition (serverId : String) (docs : List Document)
  | evict

def VectorEngine.step (engine : VectorEngine E) : VectorOp → VectorEngine E
  | .addPartition serverId docs =>
    if docs = [] then { engine with partitions := engine.partitions.erase serverId }
    else
      let embedded := embedWithCache embed engine.cache docs
      ⟨engine.partitions.insert serverId (docs, embedded.1), embedded.2⟩
  | .evict => { engine with cache := engine.cache.map EmbeddingCache.evictLocked }

def VectorOp.docs : VectorOp → List Document
  | .addPartition _ docs => docs
  | .evict => []

section

variable {embed} {given docs : List Document} {cache : EmbeddingCache E} {ops : List (CacheOp E)}

theorem evictLocked_lookup {key : String} {value : E} (found : cache.evictLocked.entries.lookup key = some value) :
    cache.entries.lookup key = some value := by
  unfold EmbeddingCache.evictLocked at found
  grind [GoMap.lookup_erase_eq]

theorem step_lookup {op : CacheOp E} {key : String} {value : E}
    (found : (cache.step op).2.entries.lookup key = some value) :
    cache.entries.lookup key = some value ∨ op = .set key value := by
  have moved (cache : EmbeddingCache E) (key : String) : (cache.moveToEndLocked key).entries = cache.entries := by
    unfold EmbeddingCache.moveToEndLocked
    split_ifs <;> rfl
  cases op with
  | get key => grind [EmbeddingCache.step, EmbeddingCache.get]
  | set key value => grind [EmbeddingCache.step, EmbeddingCache.set, GoMap.lookup_insert_eq, evictLocked_lookup]

theorem step_get (cache : EmbeddingCache E) (key : String) : (cache.step (.get key)).1 = cache.entries.lookup key := by
  simp only [EmbeddingCache.step, EmbeddingCache.get]
  split <;> simp_all

def Right (embed : String → E) (given : List Document) (key : String) (value : E) : Prop :=
  ∃ doc ∈ given, key = contentHash doc ∧ value = embed (buildEmbedText doc)

def Sound (embed : String → E) (given : List Document) (cache : EmbeddingCache E) : Prop :=
  ∀ key value, cache.entries.lookup key = some value → Right embed given key value

variable (sound : Sound embed given cache)

include sound

theorem Sound.step {op : CacheOp E} (right : ∀ key value, op = .set key value → Right embed given key value) :
    Sound embed given (cache.step op).2 :=
  fun key value found => (step_lookup found).elim (sound key value) (right key value)

theorem Sound.calls (right : ∀ key value, .set key value ∈ ops → Right embed given key value) :
    Sound embed given (calls EmbeddingCache.step cache ops).2 := by
  induction ops generalizing cache with
  | nil => exact sound
  | cons op rest ih =>
    refine ih (sound.step fun key value same => right key value ?_) fun key value mem => right key value ?_
    · exact same ▸ List.mem_cons_self
    · exact List.mem_cons_of_mem _ mem

omit sound

def Twins (embed : String → E) (given : List Document) (engine plain : VectorEngine E) : Prop :=
  engine.partitions = plain.partitions ∧ plain.cache = none ∧ ∀ cache ∈ engine.cache, Sound embed given cache

variable (apart : ∀ doc ∈ given, ∀ other ∈ given, contentHash doc = contentHash other →
    hashedBytes doc = hashedBytes other)
  (determined : ∀ doc ∈ given, ∀ other ∈ given, hashedBytes doc = hashedBytes other →
    buildEmbedText doc = buildEmbedText other)

include apart determined

theorem Sound.hits (sound : Sound embed given cache) (all : ∀ doc ∈ docs, doc ∈ given) :
    docs.zipWith (fun doc hit => hit.getD (embed (buildEmbedText doc)))
        (Search.calls EmbeddingCache.step cache (docs.map fun doc => .get (contentHash doc))).1 =
      docs.map fun doc => embed (buildEmbedText doc) := by
  induction docs generalizing cache with
  | nil => rfl
  | cons doc docs ih =>
    obtain ⟨first, rest⟩ := List.forall_mem_cons.mp all
    have kept : Sound embed given (cache.step (.get (contentHash doc))).2 := sound.step (by simp)
    have later := ih kept rest
    simp only [List.map_cons, Search.calls, List.zipWith_cons_cons, later, step_get, List.cons.injEq, and_true]
    cases found : cache.entries.lookup (contentHash doc) with
    | none => rfl
    | some value =>
      obtain ⟨other, mem, same, rfl⟩ := sound _ _ found
      simp [determined doc first other mem (apart doc first other mem same)]

theorem Twins.step {engine plain : VectorEngine E} (twins : Twins embed given engine plain) (op : VectorOp)
    (all : ∀ doc ∈ op.docs, doc ∈ given) : Twins embed given (engine.step embed op) (plain.step embed op) := by
  obtain ⟨same, bare, sound⟩ := twins
  cases op with
  | evict =>
    refine ⟨same, by simp [VectorEngine.step, bare], fun next mem => ?_⟩
    obtain ⟨cache, held, rfl⟩ := Option.mem_map.mp mem
    exact fun key value found => sound cache held key value (evictLocked_lookup found)
  | addPartition serverId docs =>
    change ∀ doc ∈ docs, doc ∈ given at all
    simp only [VectorEngine.step]
    split_ifs
    · exact ⟨by rw [same], bare, sound⟩
    · cases held : engine.cache with
      | none => simp [Twins, embedWithCache, same, bare]
      | some cache =>
        have cached := sound cache held
        have hits := cached.hits apart determined all
        refine ⟨by simp only [embedWithCache, bare, same, hits], by simp [embedWithCache, bare], ?_⟩
        rintro next ⟨⟩
        refine Sound.calls (cached.calls (by simp)) fun key value mem => ?_
        obtain ⟨entry, listed, set⟩ := List.mem_map.mp mem
        cases set
        exact ⟨entry.1, all _ (List.of_mem_zip (List.mem_of_mem_filter listed)).1, rfl, rfl⟩

theorem Twins.run {engine plain : VectorEngine E} (twins : Twins embed given engine plain) (ops : List VectorOp)
    (all : ∀ op ∈ ops, ∀ doc ∈ op.docs, doc ∈ given) :
    (run (VectorEngine.step embed) engine ops).partitions = (run (VectorEngine.step embed) plain ops).partitions := by
  induction ops generalizing engine plain with
  | nil => exact twins.1
  | cons op rest ih =>
    obtain ⟨first, later⟩ := List.forall_mem_cons.mp all
    exact ih (twins.step apart determined op first) later

end

/-- With a cache or without one the same embeddings are stored, if the hashed texts of the documents do not collide and
determine the embedded ones. -/
theorem cache_transparent (maxSize : Int) (ops : List VectorOp) (given : List Document)
    (all : ∀ op ∈ ops, ∀ doc ∈ op.docs, doc ∈ given)
    (apart : ∀ doc ∈ given, ∀ other ∈ given, contentHash doc = contentHash other → hashedBytes doc = hashedBytes other)
    (determined : ∀ doc ∈ given, ∀ other ∈ given, hashedBytes doc = hashedBytes other →
      buildEmbedText doc = buildEmbedText other) :
    (run (VectorEngine.step embed) ⟨∅, some (.new maxSize)⟩ ops).partitions =
      (run (VectorEngine.step embed) ⟨∅, none⟩ ops).partitions := by
  have start : Twins embed given ⟨∅, some (.new maxSize)⟩ ⟨∅, none⟩ := by
    refine ⟨rfl, rfl, ?_⟩
    rintro cache ⟨⟩ key value found
    cases found
  exact start.run apart determined ops all

namespace Sample

def search (tag : String) : Document := ⟨"search", "search", "", "", [tag]⟩

def pages : List Document := [search "wiki", ⟨"list", "list", "Pages", "lists the pages", []⟩]

def again : List VectorOp := [.addPartition "wiki" pages, .addPartition "wiki" pages, .evict, .addPartition "copy" pages]

end Sample

open Sample

-- The second call finds both documents in the cache, the last one only the document that the eviction has left.
theorem repeated_pages_transparent :
    ((run (VectorEngine.step id) ⟨∅, some (.new 2)⟩ (again.take 1)).cache.map fun cache =>
        pages.map fun doc => cache.entries.lookup (contentHash doc)) =
      some [some "search. wiki", some "list. Pages. lists the pages"] ∧
    ((run (VectorEngine.step id) ⟨∅, some (.new 2)⟩ (again.take 3)).cache.map fun cache =>
        pages.map fun doc => cache.entries.lookup (contentHash doc)) =
      some [none, some "list. Pages. lists the pages"] ∧
    (run (VectorEngine.step id) ⟨∅, some (.new 2)⟩ again).partitions =
      (run (VectorEngine.step id) ⟨∅, none⟩ again).partitions :=
  ⟨by decide +kernel, by decide +kernel,
    cache_transparent id 2 again pages (by simp [again, VectorOp.docs]) (by decide +kernel) (by decide +kernel)⟩

theorem tags_not_hashed : ((run (VectorEngine.step id) ⟨∅, some (.new 8)⟩ [.addPartition "wiki" [search "wiki"],
      .addPartition "mail" [search "mail"]]).partitions.lookup "mail").map Prod.snd = some ["search. wiki"] ∧
    buildEmbedText (search "mail") = "search. mail" := by
  decide +kernel

end McpGateway.Search
