import McpGateway.Proxy.Resources
import McpGateway.Registration.IndexOperations

namespace McpGateway.Registration

open Shared

-- LookupResource when the resource map is ranged over in `order`, which Go leaves open.
def CapabilityIndex.lookupResourceIn (index : CapabilityIndex) (order : List String) (uri : String) :
    List ServerRecord :=
  if trimSpace uri = "" then []
  else
    match longestPrefix (trimSpace uri) order with
    | "" => []
    | found => index.resources.bucket found

theorem CapabilityIndex.lookupResourceIn_eq {index : CapabilityIndex} {order : List String}
    (range : order.Perm index.resources.keys) (uri : String) :
    index.lookupResourceIn order uri = index.lookupResource uri := by
  have same : longestPrefix (trimSpace uri) order = longestPrefix (trimSpace uri) index.resources.keys :=
    (longestPrefix_correct _ _).unique (longestPrefix_correct _ _) fun key => range.mem_iff
  have whole : index.lookupResourceIn index.resources.keys uri = index.lookupResource uri := rfl
  rw [← whole]
  unfold lookupResourceIn
  rw [same]

variable {uri found key : String}

theorem CapabilityIndex.lookupResource_of_longest {index : CapabilityIndex} (named : found ≠ "")
    (longest : LongestPrefix (trimSpace uri) index.resources.keys found) :
    index.lookupResource uri = index.resources.bucket found := by
  have present : trimSpace uri ≠ "" := by
    intro blank
    have matching := longest.matching
    obtain ⟨rest, split⟩ := (hasPrefix_iff _ _).mp matching
    rw [blank] at split
    exact named (String.append_eq_empty_iff.mp split.symm).1
  have same : longestPrefix (trimSpace uri) index.resources.keys = found :=
    (longestPrefix_correct _ _).unique longest fun _ => Iff.rfl
  unfold lookupResource
  rw [if_neg present, same]
  split
  next blank => exact absurd rfl named
  · rfl

theorem CapabilityIndex.lookupResource_of_unmatched {index : CapabilityIndex}
    (unmatched : ∀ key ∈ index.resources.keys, hasPrefix (trimSpace uri) key = false) :
    index.lookupResource uri = [] := by
  have none : longestPrefix (trimSpace uri) index.resources.keys = "" := by
    have longest := longestPrefix_correct (trimSpace uri) index.resources.keys
    refine longest.known.resolve_right fun mem => ?_
    have matching := longest.matching
    rw [unmatched _ mem] at matching
    cases matching
  unfold lookupResource
  split_ifs
  · rfl
  · rw [none]
    rfl

structure LongestRegistered (ops : List IndexOp) (uri found : String) : Prop where
  present : registered ops found ≠ []
  matching : hasPrefix (trimSpace uri) found = true
  longest : ∀ other, registered ops other ≠ [] → hasPrefix (trimSpace uri) other = true →
    other.toList.length ≤ found.toList.length

variable {ops : List IndexOp}

theorem registered_trimmed (present : registered ops key ≠ []) : trimSpace key = key ∧ key ≠ "" := by
  rw [registered_iff_key, Postings.mem_keys] at present
  obtain ⟨record, mem⟩ := List.exists_mem_of_ne_nil _ present
  obtain ⟨trimmed, named, -⟩ := (indexAfter_filed ops).resources key record mem
  exact ⟨trimmed, named⟩

theorem LongestRegistered.longestPrefix (longest : LongestRegistered ops uri found) :
    LongestPrefix (trimSpace uri) (indexAfter ops).resources.keys found where
  known := .inr ((registered_iff_key ops found).mp longest.present)
  matching := longest.matching
  longest := fun key mem => longest.longest key ((registered_iff_key ops key).mpr mem)

theorem LongestRegistered.lookup (longest : LongestRegistered ops uri found) :
    Standing ServerRecord.id (registered ops found) ((indexAfter ops).lookupResource uri) := by
  rw [CapabilityIndex.lookupResource_of_longest (registered_trimmed longest.present).2 longest.longestPrefix,
    bucket_indexAfter]
  exact standing_collapse _

theorem existsUnique_longestRegistered (some : ∃ key, registered ops key ≠ [] ∧ hasPrefix (trimSpace uri) key = true) :
    ∃! found, LongestRegistered ops uri found := by
  obtain ⟨key, present, matching⟩ := some
  have longest := longestPrefix_correct (trimSpace uri) (indexAfter ops).resources.keys
  have named : longestPrefix (trimSpace uri) (indexAfter ops).resources.keys ≠ "" := by
    intro blank
    have bound := longest.longest key ((registered_iff_key ops key).mp present) matching
    rw [blank] at bound
    have empty : key = "" := by
      rw [← String.toList_inj]
      exact List.eq_nil_of_length_eq_zero (by simpa using bound)
    exact (registered_trimmed present).2 empty
  refine ⟨_, ⟨?_, longest.matching, ?_⟩, ?_⟩
  · exact (registered_iff_key ops _).mpr (longest.known.resolve_left named)
  · intro other registered
    exact longest.longest other ((registered_iff_key ops other).mp registered)
  · intro other otherLongest
    exact otherLongest.longestPrefix.unique longest fun _ => Iff.rfl

theorem lookupResource_registered (present : registered ops key ≠ []) :
    (indexAfter ops).lookupResource key = (indexAfter ops).resources.bucket key := by
  obtain ⟨trimmed, named⟩ := registered_trimmed present
  apply CapabilityIndex.lookupResource_of_longest named
  rw [trimmed]
  refine ⟨.inr ((registered_iff_key ops key).mp present), (hasPrefix_iff key key).mpr ⟨"", by simp⟩, ?_⟩
  intro other _ matching
  obtain ⟨rest, split⟩ := (hasPrefix_iff _ _).mp matching
  rw [split]
  simp

end McpGateway.Registration

namespace McpGateway.Proxy

open Shared Registration

-- deduplicateServers over ListResources, with an order of the resource map for each time it is ranged over.
def serversToAsk (index : CapabilityIndex) (order : List String) (orders : String → List String) :
    GoMap String ServerRecord :=
  GoMap.addMissing ∅ (((sortStrings order).flatMap fun registered =>
    index.lookupResourceIn (orders registered) registered).map fun server => (server.id, server))

def askedServers (index : CapabilityIndex) (order : List String) (orders : String → List String) : List ServerRecord :=
  (sortStrings (serversToAsk index order orders).keys).filterMap (serversToAsk index order orders).lookup

section

variable {index : CapabilityIndex} {order : List String} {orders : String → List String}

theorem serversToAsk_eq (range : order.Perm index.resources.keys)
    (ranges : ∀ registered, (orders registered).Perm index.resources.keys) :
    serversToAsk index order orders = deduplicateServers index index.listResources := by
  have lookups : (fun registered => index.lookupResourceIn (orders registered) registered) = index.lookupResource :=
    funext fun registered => CapabilityIndex.lookupResourceIn_eq (ranges registered) registered
  unfold serversToAsk deduplicateServers CapabilityIndex.listResources
  rw [lookups, sortStrings_perm range]

theorem handleListResources_eq (range : order.Perm index.resources.keys)
    (ranges : ∀ registered, (orders registered).Perm index.resources.keys) (listing : ResourceListing) :
    handleListResources index listing =
      (sortStrings (collectResources listing (askedServers index order orders)).keys).filterMap
        (collectResources listing (askedServers index order orders)).lookup := by
  unfold askedServers
  rw [serversToAsk_eq range ranges]
  rfl

theorem map_id_sorted_lookup {entries : GoMap String ServerRecord}
    (own : ∀ id server, entries.lookup id = some server → server.id = id) {ids : List String}
    (known : ∀ id ∈ ids, id ∈ entries) : (ids.filterMap entries.lookup).map ServerRecord.id = ids := by
  induction ids with
  | nil => rfl
  | cons id rest ih =>
    obtain ⟨server, found⟩ := Option.isSome_iff_exists.mp (AList.lookup_isSome.mpr (known id (by simp)))
    rw [List.filterMap_cons, found]
    dsimp only
    rw [List.map_cons, own id server found, ih fun other mem => known other (List.mem_cons_of_mem _ mem)]

theorem map_id_askedServers (range : order.Perm index.resources.keys)
    (ranges : ∀ registered, (orders registered).Perm index.resources.keys) :
    (askedServers index order orders).map ServerRecord.id =
      sortStrings (deduplicateServers index index.listResources).keys := by
  unfold askedServers
  rw [serversToAsk_eq range ranges]
  apply map_id_sorted_lookup
  · intro id server found
    exact (lookup_deduplicateServers found).1
  · intro id mem
    exact AList.mem_keys.mpr (mem_sortStrings.mp mem)

theorem mem_deduplicateServers (index : CapabilityIndex) (id : String) :
    id ∈ deduplicateServers index index.listResources ↔
      ∃ registered ∈ index.resources.keys, ∃ server ∈ index.lookupResource registered, server.id = id := by
  unfold deduplicateServers
  rw [GoMap.mem_addMissing]
  simp only [AList.notMem_empty, false_or, List.map_map, List.mem_map, List.mem_flatMap, CapabilityIndex.listResources,
    mem_sortStrings, Function.comp]
  constructor
  · rintro ⟨server, ⟨registered, key, found⟩, named⟩
    exact ⟨registered, key, server, found, named⟩
  · rintro ⟨registered, key, server, found, named⟩
    exact ⟨server, ⟨registered, key, found⟩, named⟩

end

theorem resource_lookup_longest (ops : List IndexOp) :
    (∀ order : List String, order.Perm (indexAfter ops).resources.keys → ∀ uri,
      (∀ found, LongestRegistered ops uri found →
        Standing ServerRecord.id (registered ops found) ((indexAfter ops).lookupResourceIn order uri)) ∧
      ((∃ key, registered ops key ≠ [] ∧ hasPrefix (trimSpace uri) key = true) →
        ∃! found, LongestRegistered ops uri found) ∧
      ((∀ key, registered ops key ≠ [] → hasPrefix (trimSpace uri) key = false) →
        (indexAfter ops).lookupResourceIn order uri = [])) ∧
    (∀ (order : List String) (orders : String → List String), order.Perm (indexAfter ops).resources.keys →
      (∀ key, (orders key).Perm (indexAfter ops).resources.keys) →
      (∀ listing, handleListResources (indexAfter ops) listing =
        (sortStrings (collectResources listing (askedServers (indexAfter ops) order orders)).keys).filterMap
          (collectResources listing (askedServers (indexAfter ops) order orders)).lookup) ∧
      ((askedServers (indexAfter ops) order orders).map ServerRecord.id).Nodup ∧
      ∀ id, id ∈ (askedServers (indexAfter ops) order orders).map ServerRecord.id ↔
        ∃ key, id ∈ (registered ops key).map ServerRecord.id) := by
  constructor
  · intro order range uri
    rw [CapabilityIndex.lookupResourceIn_eq range]
    refine ⟨fun found longest => longest.lookup, existsUnique_longestRegistered, fun unmatched => ?_⟩
    apply CapabilityIndex.lookupResource_of_unmatched
    intro key mem
    exact unmatched key ((registered_iff_key ops key).mpr mem)
  · intro order orders range ranges
    refine ⟨handleListResources_eq range ranges, ?_, ?_⟩
    · rw [map_id_askedServers range ranges]
      exact (List.perm_insertionSort _ _).nodup_iff.mpr (AList.keys_nodup _)
    · intro id
      have standing (key : String) : Standing ServerRecord.id (registered ops key) _ :=
        standing_collapse (registered ops key)
      rw [map_id_askedServers range ranges, mem_sortStrings, ← AList.mem_keys, mem_deduplicateServers]
      constructor
      · rintro ⟨key, mem, server, found, rfl⟩
        rw [lookupResource_registered ((registered_iff_key ops key).mpr mem), bucket_indexAfter] at found
        exact ⟨key, ((standing key).mem_ids _).mp (List.mem_map_of_mem found)⟩
      · rintro ⟨key, mem⟩
        have present : registered ops key ≠ [] := by
          intro none
          rw [none] at mem
          cases mem
        obtain ⟨server, found, rfl⟩ := List.mem_map.mp (((standing key).mem_ids id).mpr mem)
        refine ⟨key, (registered_iff_key ops key).mp present, server, ?_, rfl⟩
        rw [lookupResource_registered present, bucket_indexAfter]
        exact found

end McpGateway.Proxy
