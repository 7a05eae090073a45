import McpGateway.Registration.Index

namespace McpGateway.Registration

open Shared

structure ServerStats where
  record : ServerRecord
  toolCount : Nat
  resourceCount : Nat

def ServerStats.tally (count : ServerStats → ServerStats) (seen : GoMap String ServerStats) (server : ServerRecord) :
    GoMap String ServerStats :=
  seen.insert server.id (count ((seen.lookup server.id).getD ⟨server, 0, 0⟩))

def ServerStats.countTool (stats : ServerStats) : ServerStats :=
  { stats with toolCount := stats.toolCount + 1 }

def ServerStats.countResource (stats : ServerStats) : ServerStats :=
  { stats with resourceCount := stats.resourceCount + 1 }

namespace CapabilityIndex

def rangeTools (index : CapabilityIndex) (order : List String) : List ServerRecord :=
  order.flatMap index.tools.bucket

def rangeResources (index : CapabilityIndex) (order : List String) : List ServerRecord :=
  order.flatMap index.resources.bucket

open ServerStats (tally countTool countResource)

def serverStats (index : CapabilityIndex) (toolOrder resourceOrder : List String) : GoMap String ServerStats :=
  let tooled := (index.rangeTools toolOrder).foldl (tally countTool) ∅
  (index.rangeResources resourceOrder).foldl (tally countResource) tooled

-- Go leaves open in which order the two maps are ranged over, and how servers of one name are sorted.
def listServers (index : CapabilityIndex) (toolOrder resourceOrder : List String) : List ServerStats :=
  ((index.serverStats toolOrder resourceOrder).entries.map Sigma.snd).insertionSort
    fun left right => left.record.name.toList ≤ right.record.name.toList

def serverIds (index : CapabilityIndex) : List String :=
  ((index.rangeTools index.tools.keys ++ index.rangeResources index.resources.keys).map ServerRecord.id).dedup

def MetFirst (records : List ServerRecord) (server : ServerRecord) : Prop :=
  records.find? (fun met => met.id = server.id) = some server

instance (records : List ServerRecord) (server : ServerRecord) : Decidable (MetFirst records server) :=
  inferInstanceAs (Decidable (_ = _))

section

variable {records : List ServerRecord} {server : ServerRecord}

theorem MetFirst.mem (first : MetFirst records server) : server ∈ records :=
  List.mem_of_find?_eq_some first

theorem exists_metFirst (mem : server ∈ records) : ∃ first, MetFirst records first ∧ first.id = server.id := by
  cases found : records.find? (fun met => met.id = server.id) with
  | none => simpa using List.find?_eq_none.mp found server mem
  | some first =>
    have same : first.id = server.id := by simpa using List.find?_some found
    exact ⟨first, by rw [MetFirst, same, found], same⟩

theorem metFirst_append_iff (prior : List ServerRecord) : MetFirst (prior ++ records) server ↔
      MetFirst prior server ∨ ((∀ met ∈ prior, met.id ≠ server.id) ∧ MetFirst records server) := by
  unfold MetFirst
  rw [List.find?_append]
  cases found : prior.find? (fun met => met.id = server.id) with
  | none =>
    have fresh : ∀ met ∈ prior, met.id ≠ server.id := by simpa using List.find?_eq_none.mp found
    simp only [Option.none_or, reduceCtorEq, false_or]
    exact ⟨fun first => ⟨fresh, first⟩, fun later => later.2⟩
  | some first =>
    have mem := List.mem_of_find?_eq_some found
    have same : first.id = server.id := by simpa using List.find?_some found
    have stale : ¬ ∀ met ∈ prior, met.id ≠ server.id := fun fresh => fresh first mem same
    simp [stale]

end

section

variable {count : ServerStats → ServerStats}

theorem record_tally (keeps : ∀ stats, (count stats).record = stats.record) (seen : GoMap String ServerStats)
    (server : ServerRecord) (id : String) : ((tally count seen server).lookup id).map ServerStats.record =
      ((seen.lookup id).map ServerStats.record).or (if server.id = id then some server else none) := by
  rw [tally, GoMap.lookup_insert_eq]
  by_cases same : id = server.id
  · subst same
    cases found : seen.lookup server.id with
    | none => simp [keeps]
    | some stats => simp [keeps]
  · simp [same, Ne.symm same]

theorem record_foldl_tally (keeps : ∀ stats, (count stats).record = stats.record) (seen : GoMap String ServerStats)
    (records : List ServerRecord) (id : String) :
    ((records.foldl (tally count) seen).lookup id).map ServerStats.record =
      ((seen.lookup id).map ServerStats.record).or (records.find? fun met => met.id = id) := by
  induction records generalizing seen with
  | nil => simp
  | cons server rest ih =>
    rw [List.foldl_cons, ih, record_tally keeps, Option.or_assoc, List.find?_cons]
    by_cases same : server.id = id
    · simp [same]
    · simp [same]

end

variable {index : CapabilityIndex} {toolOrder resourceOrder : List String}

theorem record_serverStats (index : CapabilityIndex) (toolOrder resourceOrder : List String) (id : String) :
    ((index.serverStats toolOrder resourceOrder).lookup id).map ServerStats.record =
      (index.rangeTools toolOrder ++ index.rangeResources resourceOrder).find? fun met => met.id = id := by
  have tools : ∀ stats, (countTool stats).record = stats.record := fun _ => rfl
  have resources : ∀ stats, (countResource stats).record = stats.record := fun _ => rfl
  rw [serverStats, record_foldl_tally resources, record_foldl_tally tools, List.find?_append]
  simp

theorem mem_listServers (index : CapabilityIndex) (toolOrder resourceOrder : List String) (server : ServerRecord) :
    server ∈ (index.listServers toolOrder resourceOrder).map ServerStats.record ↔
      MetFirst (index.rangeTools toolOrder ++ index.rangeResources resourceOrder) server := by
  have listed (id : String) := record_serverStats index toolOrder resourceOrder id
  simp only [listServers, List.mem_map, List.mem_insertionSort]
  constructor
  · rintro ⟨_, ⟨⟨id, stats⟩, mem, rfl⟩, rfl⟩
    have found := AList.mem_lookup_iff.mpr mem
    have first := listed id
    rw [Option.mem_def.mp found, Option.map_some] at first
    have same : stats.record.id = id := by simpa using List.find?_some first.symm
    rw [MetFirst, same, ← first]
  · intro first
    have shown := listed server.id
    rw [first, Option.map_eq_some_iff] at shown
    obtain ⟨stats, found, rfl⟩ := shown
    exact ⟨stats, ⟨⟨_, stats⟩, AList.mem_lookup_iff.mp found, rfl⟩, rfl⟩

theorem listServers_ids (index : CapabilityIndex) (toolOrder resourceOrder : List String) :
    ((index.listServers toolOrder resourceOrder).map fun stats => stats.record.id).Perm
      (index.serverStats toolOrder resourceOrder).keys := by
  have perm := List.perm_insertionSort (fun left right : ServerStats => left.record.name.toList ≤ right.record.name.toList)
    ((index.serverStats toolOrder resourceOrder).entries.map Sigma.snd)
  refine (perm.map fun stats => stats.record.id).trans ?_
  rw [AList.keys, List.keys, List.map_map]
  refine .of_eq (List.map_congr_left fun entry mem => ?_)
  have found := AList.mem_lookup_iff.mpr mem
  have first := record_serverStats index toolOrder resourceOrder entry.1
  rw [Option.mem_def.mp found, Option.map_some] at first
  simpa using List.find?_some first.symm

theorem listServers_ids_nodup (index : CapabilityIndex) (toolOrder resourceOrder : List String) :
    ((index.listServers toolOrder resourceOrder).map fun stats => stats.record.id).Nodup :=
  (listServers_ids index toolOrder resourceOrder).nodup_iff.mpr (AList.keys_nodup _)

theorem mem_rangeTools (ranged : toolOrder.Perm index.tools.keys) (server : ServerRecord) :
    server ∈ index.rangeTools toolOrder ↔ index.tools.Posted server :=
  Postings.mem_ranged ranged server

theorem mem_rangeResources (ranged : resourceOrder.Perm index.resources.keys) (server : ServerRecord) :
    server ∈ index.rangeResources resourceOrder ↔ index.resources.Posted server :=
  Postings.mem_ranged ranged server

theorem length_listServers (tools : toolOrder.Perm index.tools.keys)
    (resources : resourceOrder.Perm index.resources.keys) :
    (index.listServers toolOrder resourceOrder).length = index.serverIds.length := by
  have perm : ((index.listServers toolOrder resourceOrder).map fun stats => stats.record.id).Perm index.serverIds := by
    refine (List.perm_ext_iff_of_nodup (listServers_ids_nodup _ _ _) (List.nodup_dedup _)).mpr fun id => ?_
    have every (server : ServerRecord) :
        server ∈ index.rangeTools toolOrder ++ index.rangeResources resourceOrder ↔
          server ∈ index.rangeTools index.tools.keys ++ index.rangeResources index.resources.keys := by
      simp only [List.mem_append, mem_rangeTools tools, mem_rangeResources resources, mem_rangeTools (.refl _),
        mem_rangeResources (.refl _)]
    simp only [List.mem_dedup, List.mem_map]
    constructor
    · rintro ⟨stats, listed, rfl⟩
      have first := (mem_listServers index toolOrder resourceOrder stats.record).mp (List.mem_map_of_mem listed)
      exact ⟨stats.record, (every _).mp first.mem, rfl⟩
    · rintro ⟨server, mem, rfl⟩
      obtain ⟨first, met, same⟩ := exists_metFirst ((every server).mpr mem)
      obtain ⟨stats, listed, rfl⟩ := List.mem_map.mp ((mem_listServers index toolOrder resourceOrder first).mpr met)
      exact ⟨stats, listed, same⟩
  simpa using perm.length_eq

theorem scanServers_some {target : String} {seen : List String} {records : List ServerRecord} {server : ServerRecord}
    (found : scanServers target seen records = some server) :
    server.id ∉ seen ∧ equalFold (trimSpace server.name) target = true ∧ MetFirst records server := by
  induction records generalizing seen with
  | nil => cases found
  | cons head rest ih =>
    simp only [scanServers, List.contains_iff_mem] at found
    split_ifs at found with known match_
    · obtain ⟨fresh, named, first⟩ := ih found
      have other : head.id ≠ server.id := fun same => fresh (same ▸ known)
      exact ⟨fresh, named, by simpa [MetFirst, other] using first⟩
    · cases found
      exact ⟨known, match_, by simp [MetFirst]⟩
    · obtain ⟨fresh, named, first⟩ := ih found
      simp only [List.mem_cons, not_or] at fresh
      exact ⟨fresh.2, named, by simpa [MetFirst, Ne.symm fresh.1] using first⟩

theorem scanServers_ne_none {target : String} {seen : List String} {records : List ServerRecord} {server : ServerRecord}
    (fresh : server.id ∉ seen) (named : equalFold (trimSpace server.name) target = true)
    (first : MetFirst records server) : scanServers target seen records ≠ none := by
  induction records generalizing seen with
  | nil => cases first
  | cons head rest ih =>
    simp only [scanServers, List.contains_iff_mem]
    by_cases same : head.id = server.id
    · have here : head = server := by simpa [MetFirst, same] using first
      simp [here, fresh, named]
    · have later : MetFirst rest server := by simpa [MetFirst, same] using first
      split_ifs
      · exact ih fresh later
      · simp
      · exact ih (by simp [fresh, Ne.symm same]) later

end CapabilityIndex

end McpGateway.Registration
