import McpGateway.Registration.Index
import McpGateway.Shared.Registrations
import McpGateway.Shared.Runs

namespace McpGateway.Registration

open Shared

abbrev ServerReader := String → Except String (Option ServerRecord)

def CapabilityIndex.refreshServer (index : CapabilityIndex) (serverId : String) (serverStore : Option ServerReader) :
    Except String CapabilityIndex :=
  match serverStore with
  | none => .error "refresh server: invalid arguments"
  | some get =>
    if trimSpace serverId = "" then .error "refresh server: invalid arguments"
    else
      match get serverId with
      | .error cause => .error ("refresh server: " ++ cause)
      | .ok none => .ok (index.removeLocked serverId)
      | .ok (some record) => .ok ((index.removeLocked serverId).add record)

inductive IndexOp where
  | rebuild (servers : List ServerRecord)
  | add (server : ServerRecord)
  | remove (serverId : String)
  | refreshServer (serverId : String) (serverStore : Option ServerReader)

def CapabilityIndex.apply (index : CapabilityIndex) : IndexOp → CapabilityIndex
  | .rebuild servers => .rebuild servers
  | .add server => index.add server
  | .remove serverId => index.remove serverId
  | .refreshServer serverId serverStore => (index.refreshServer serverId serverStore).toOption.getD index

def indexAfter (ops : List IndexOp) : CapabilityIndex :=
  run CapabilityIndex.apply .new ops

variable (ops : List IndexOp)

theorem indexAfter_append (op : IndexOp) : indexAfter (ops ++ [op]) = (indexAfter ops).apply op := by
  simp [indexAfter, run]

namespace CapabilityIndex

variable {index : CapabilityIndex}

-- What one operation does to the index: it starts anew, takes a server out, adds one, or does nothing.
theorem apply_cases (index : CapabilityIndex) (op : IndexOp) :
    (∃ servers, op = .rebuild servers ∧ index.apply op = rebuild servers) ∨
      (∃ server, index.apply op = index.add server) ∨ (∃ serverId, index.apply op = index.removeLocked serverId) ∨
      (∃ serverId record, index.apply op = (index.removeLocked serverId).add record) ∨ index.apply op = index := by
  cases op with
  | rebuild servers => exact .inl ⟨servers, rfl, rfl⟩
  | add server => exact .inr (.inl ⟨server, rfl⟩)
  | remove serverId =>
    simp only [apply, remove]
    split_ifs
    · simp
    · exact .inr (.inr (.inl ⟨serverId, rfl⟩))
  | refreshServer serverId serverStore =>
    simp only [apply, refreshServer]
    repeat' split
    · simp [Except.toOption]
    · simp [Except.toOption]
    · simp [Except.toOption]
    · exact .inr (.inr (.inl ⟨serverId, rfl⟩))
    next record _ => exact .inr (.inr (.inr (.inl ⟨serverId, record, rfl⟩)))

end CapabilityIndex

def WellFiled (postings : ServerPostings) : Prop :=
  ∀ key records, postings.entries.lookup key = some records →
    trimSpace key = key ∧ key ≠ "" ∧ records ≠ [] ∧ (records.map ServerRecord.id).Nodup ∧
      ∀ record ∈ records, record.status = .active

def FiledBy (postings : ServerPostings) : Prop :=
  ∀ key record, record ∈ postings.bucket key → trimSpace key = key ∧ key ≠ "" ∧ record.status = .active

theorem FiledBy.wellFiled {postings : ServerPostings} (filed : FiledBy postings) : WellFiled postings := by
  intro key records found
  have bucket : postings.bucket key = records := by simp [Postings.bucket, found]
  have populated := postings.populated key records found
  obtain ⟨record, mem⟩ := List.exists_mem_of_ne_nil records populated
  obtain ⟨trimmed, named, -⟩ := filed key record (bucket ▸ mem)
  refine ⟨trimmed, named, populated, postings.distinct key records found, ?_⟩
  intro record mem
  exact (filed key record (bucket ▸ mem)).2.2

theorem mem_capabilityKeys {names : List String} {key : String} (mem : key ∈ capabilityKeys names) :
    trimSpace key = key ∧ key ≠ "" := by
  simp only [capabilityKeys, List.mem_filter, List.mem_map, decide_eq_true_eq] at mem
  obtain ⟨⟨name, -, rfl⟩, named⟩ := mem
  exact ⟨trimSpace_trimSpace name, named⟩

theorem FiledBy.postAll {postings : ServerPostings} (filed : FiledBy postings) {server : ServerRecord}
    (routable : server.isRoutable = true) (names : List String) :
    FiledBy (postings.postAll (capabilityKeys names) server) := by
  intro key record mem
  rcases (Postings.mem_bucket_postAll _ _ _ _ _).mp mem with ⟨listed, rfl⟩ | ⟨kept, -⟩
  · obtain ⟨trimmed, named⟩ := mem_capabilityKeys listed
    exact ⟨trimmed, named, record.isRoutable_iff.mp routable⟩
  · exact filed key record kept

theorem FiledBy.withdraw {postings : ServerPostings} (filed : FiledBy postings) (serverId : String) :
    FiledBy (postings.withdraw serverId) := by
  intro key record mem
  exact filed key record ((Postings.mem_bucket_withdraw _ _ _ _).mp mem).1

structure CapabilityIndex.Filed (index : CapabilityIndex) : Prop where
  tools : FiledBy index.tools
  resources : FiledBy index.resources

namespace CapabilityIndex.Filed

variable {index : CapabilityIndex}

theorem new : CapabilityIndex.new.Filed :=
  ⟨fun _ _ mem => by simp [CapabilityIndex.new] at mem, fun _ _ mem => by simp [CapabilityIndex.new] at mem⟩

theorem add (filed : index.Filed) (server : ServerRecord) : (index.add server).Filed := by
  unfold CapabilityIndex.add
  split_ifs with routable
  · exact ⟨filed.tools.postAll routable _, filed.resources.postAll routable _⟩
  · exact filed

theorem removeLocked (filed : index.Filed) (serverId : String) : (index.removeLocked serverId).Filed :=
  ⟨filed.tools.withdraw serverId, filed.resources.withdraw serverId⟩

theorem rebuild (servers : List ServerRecord) : (CapabilityIndex.rebuild servers).Filed := by
  unfold CapabilityIndex.rebuild
  induction servers using List.reverseRecOn with
  | nil => exact new
  | append_singleton servers last ih =>
    rw [List.foldl_append]
    exact ih.add last

theorem apply (filed : index.Filed) (op : IndexOp) : (index.apply op).Filed := by
  rcases index.apply_cases op with ⟨servers, -, same⟩ | ⟨server, same⟩ | ⟨serverId, same⟩ |
    ⟨serverId, record, same⟩ | same <;> rw [same]
  · exact rebuild servers
  · exact filed.add server
  · exact filed.removeLocked serverId
  · exact (filed.removeLocked serverId).add record
  · exact filed

end CapabilityIndex.Filed

theorem indexAfter_filed : (indexAfter ops).Filed := by
  induction ops using List.reverseRecOn with
  | nil => exact CapabilityIndex.Filed.new
  | append_singleton ops op ih =>
    rw [indexAfter_append]
    exact ih.apply op

theorem CapabilityIndex.remove_eq (index : CapabilityIndex) {serverId : String} (named : trimSpace serverId ≠ "") :
    index.remove serverId = index.removeLocked serverId :=
  if_neg named

theorem index_structure_and_frame (ops : List IndexOp) :
    (WellFiled (indexAfter ops).tools ∧ WellFiled (indexAfter ops).resources) ∧
    (∀ serverId, trimSpace serverId ≠ "" → ∀ key, ((indexAfter ops).remove serverId).tools.bucket key =
          ((indexAfter ops).tools.bucket key).filter (fun record => record.id ≠ serverId) ∧
        ((indexAfter ops).remove serverId).resources.bucket key =
          ((indexAfter ops).resources.bucket key).filter (fun record => record.id ≠ serverId)) ∧
    (∀ serverId get record, trimSpace serverId ≠ "" → get serverId = .ok (some record) →
      (indexAfter ops).refreshServer serverId (some get) = .ok (((indexAfter ops).remove serverId).add record)) := by
  refine ⟨⟨(indexAfter_filed ops).tools.wellFiled, (indexAfter_filed ops).resources.wellFiled⟩, ?_, ?_⟩
  · intro serverId named key
    rw [CapabilityIndex.remove_eq _ named]
    exact ⟨Postings.bucket_withdraw _ _ _, Postings.bucket_withdraw _ _ _⟩
  · intro serverId get record named read
    rw [CapabilityIndex.remove_eq _ named]
    simp [CapabilityIndex.refreshServer, named, read]

namespace Sample

def unnamed : ServerRecord where
  id := ""
  name := "mcp-wiki"
  spiffeId := "spiffe://cluster.local/ns/tools/sa/wiki"
  version := "3.2.0"
  host := "10.0.5.9"
  port := 8443
  protocol := "https"
  capabilities := ⟨["search"], [], []⟩
  status := .active
  policyProfile := "default"
  lastHeartbeat := none
  leaseEpoch := 1
  capabilityHash := ""
  syncState := .acked
  lastPlatformAckVersion := "1"
  lastPlatformAckAt := none
  rateLimit := none
  rateBurst := none
  routingStrategy := ""
  createdAt := 100
  updatedAt := 600

end Sample

theorem remove_keeps_blank_id :
    ((indexAfter [.add Sample.unnamed]).remove "").tools.bucket "search" = [Sample.unnamed] ∧
      ((indexAfter [.add Sample.unnamed]).tools.bucket "search").filter (fun record => record.id ≠ "") = [] := by
  decide +kernel

def enlist (key : String) (rows : List ServerRecord) (server : ServerRecord) : List ServerRecord :=
  if server.isRoutable ∧ key ∈ server.resourceKeys then rows ++ [server] else rows

def IndexOp.register (key : String) (rows : List ServerRecord) : IndexOp → List ServerRecord
  | .rebuild servers => servers.foldl (enlist key) []
  | .add server => enlist key rows server
  | .remove serverId =>
    if trimSpace serverId = "" then rows else discard ServerRecord.id rows serverId
  | .refreshServer serverId serverStore =>
    match serverStore with
    | none => rows
    | some get =>
      if trimSpace serverId = "" then rows
      else
        match get serverId with
        | .error _ => rows
        | .ok none => discard ServerRecord.id rows serverId
        | .ok (some record) => enlist key (discard ServerRecord.id rows serverId) record

def registered (ops : List IndexOp) (key : String) : List ServerRecord :=
  run (IndexOp.register key) [] ops

namespace CapabilityIndex

variable {index : CapabilityIndex} {key : String} {rows : List ServerRecord}

section

variable (collapsed : index.resources.bucket key = collapse ServerRecord.id rows)

include collapsed

theorem bucket_add (server : ServerRecord) :
    (index.add server).resources.bucket key = collapse ServerRecord.id (enlist key rows server) := by
  unfold add enlist
  by_cases routable : server.isRoutable = true
  · rw [if_pos routable, addLocked, Postings.bucket_postAll, collapsed]
    by_cases listed : key ∈ server.resourceKeys
    · rw [if_pos listed, if_pos ⟨routable, listed⟩, collapse_append]
    · rw [if_neg listed, if_neg fun both => listed both.2]
  · rw [if_neg routable, if_neg fun both => routable both.1, collapsed]

theorem bucket_removeLocked (serverId : String) : (index.removeLocked serverId).resources.bucket key =
      collapse ServerRecord.id (discard ServerRecord.id rows serverId) := by
  rw [removeLocked, Postings.bucket_withdraw, collapsed, discard_collapse]

omit collapsed in
theorem bucket_rebuild (servers : List ServerRecord) (key : String) :
    (rebuild servers).resources.bucket key = collapse ServerRecord.id (servers.foldl (enlist key) []) := by
  unfold rebuild
  induction servers using List.reverseRecOn with
  | nil => simp [new, collapse]
  | append_singleton servers last ih =>
    rw [List.foldl_append, List.foldl_append]
    exact bucket_add ih last

theorem bucket_apply (op : IndexOp) :
    (index.apply op).resources.bucket key = collapse ServerRecord.id (op.register key rows) := by
  cases op with
  | rebuild servers => exact bucket_rebuild servers key
  | add server => exact bucket_add collapsed server
  | remove serverId =>
    simp only [apply, remove, IndexOp.register]
    split_ifs
    · exact collapsed
    · exact bucket_removeLocked collapsed serverId
  | refreshServer serverId serverStore =>
    simp only [apply, refreshServer, IndexOp.register]
    cases serverStore with
    | none => exact collapsed
    | some get =>
      dsimp only
      split_ifs
      · exact collapsed
      · cases get serverId with
        | error cause => exact collapsed
        | ok read =>
          cases read with
          | none => exact bucket_removeLocked collapsed serverId
          | some record => exact bucket_add (bucket_removeLocked collapsed serverId) record

end

end CapabilityIndex

theorem bucket_indexAfter (key : String) :
    (indexAfter ops).resources.bucket key = collapse ServerRecord.id (registered ops key) := by
  induction ops using List.reverseRecOn with
  | nil => simp [indexAfter, registered, run, CapabilityIndex.new, collapse]
  | append_singleton ops op ih =>
    rw [indexAfter_append, CapabilityIndex.bucket_apply ih]
    simp [registered, run]

theorem registered_iff_key (key : String) : registered ops key ≠ [] ↔ key ∈ (indexAfter ops).resources.keys := by
  have standing : Standing ServerRecord.id (registered ops key) _ := standing_collapse (registered ops key)
  rw [Postings.mem_keys, bucket_indexAfter, not_iff_not]
  constructor
  · intro none
    rw [none]
    rfl
  · intro none
    have ids := standing.mem_ids
    rw [none] at ids
    rw [List.eq_nil_iff_forall_not_mem]
    intro server mem
    simpa using (ids server.id).mpr (List.mem_map_of_mem mem)

end McpGateway.Registration
