import McpGateway.Registration.Handshake
import McpGateway.Shared.Runs

namespace McpGateway.Registration

open Shared Store

def syncServer (registry : Registry) (id : String) : Registry :=
  if trimSpace id = "" then registry
  else
    match registry.table.get id with
    | .ok record => { registry with index := registry.index.add record }
    | .error _ => registry

@[simp] theorem syncServer_table (registry : Registry) (id : String) :
    (syncServer registry id).table = registry.table := by
  unfold syncServer
  split_ifs
  · rfl
  · split <;> rfl

def Service.indexedRegister (service : Service) (registry : Registry) (caller : Option Identity)
    (request : RegistrationRequest) (context : RegisterContext) :
    Except ServiceError RegistrationResponse × Registry :=
  match service.register registry caller request context with
  | (.error error, registry) => (.error error, registry)
  | (.ok reply, registry) =>
    (.ok reply, if reply.status.isRoutable then syncServer registry reply.instanceId else registry)

def Service.indexedHeartbeat (service : Service) (registry : Registry) (caller : Option Identity) (id : String)
    (request : HeartbeatRequest) (context : HeartbeatContext) : Except ServiceError HeartbeatResponse × Registry :=
  match service.heartbeat registry caller id request context with
  | (.error error, registry) => (.error error, registry)
  | (.ok reply, registry) =>
    (.ok reply,
      if reply.serverStatus.isRoutable then syncServer registry id
      else { registry with index := registry.index.remove id })

def Service.indexedDeregister (service : Service) (registry : Registry) (caller : Option Identity) (id : String) :
    Except ServiceError Unit × Registry :=
  match service.deregister registry caller id with
  | (.error error, registry) => (.error error, registry)
  | (.ok _, registry) => (.ok (), { registry with index := registry.index.remove id })

inductive Call where
  | register (caller : Option Identity) (request : RegistrationRequest) (context : RegisterContext)
  | heartbeat (caller : Option Identity) (id : String) (request : HeartbeatRequest) (context : HeartbeatContext)
  | deregister (caller : Option Identity) (id : String)

def Service.call (service : Service) (registry : Registry) : Call → Registry
  | .register caller request context => (service.indexedRegister registry caller request context).2
  | .heartbeat caller id request context => (service.indexedHeartbeat registry caller id request context).2
  | .deregister caller id => (service.indexedDeregister registry caller id).2

def ServerTable.routable (table : ServerTable) (server : ServerRecord) : Prop :=
  server ∈ table.rows ∧ server.isRoutable = true

def Registry.Mirrors (registry : Registry) : Prop :=
  registry.index.Reflects (ServerTable.routable registry.table)

theorem Registry.Mirrors.add {registry : Registry} (mirrors : registry.Mirrors) {row : ServerRecord}
    (held : row ∈ registry.table.rows) : (registry.index.add row).Reflects (ServerTable.routable registry.table) := by
  cases routable : row.isRoutable with
  | false => rwa [CapabilityIndex.add, if_neg (by simp [routable])]
  | true =>
    have same : ∀ old, ServerTable.routable registry.table old → old.id = row.id → old = row :=
      fun old listed clash => registry.table.row_unique listed.1 held clash
    have covered : CapabilityIndex.Covered (ServerTable.routable registry.table) row :=
      ⟨fun old listed clash => by rw [same old listed clash]; exact List.Subset.refl _,
        fun old listed clash => by rw [same old listed clash]; exact List.Subset.refl _⟩
    refine (CapabilityIndex.Reflects.add mirrors routable covered).congr fun server => ?_
    constructor
    · rintro (rfl | ⟨listed, _⟩)
      · exact ⟨held, routable⟩
      · exact listed
    · intro listed
      by_cases clash : server.id = row.id
      · exact .inl (same server listed clash)
      · exact .inr ⟨listed, clash⟩

theorem syncServer_mirrors {registry : Registry} (mirrors : registry.Mirrors) (id : String) :
    (syncServer registry id).Mirrors := by
  unfold syncServer
  split_ifs
  · exact mirrors
  split
  next record got => exact mirrors.add ((registry.table.get_eq_ok_iff id record).mp got).1
  next => exact mirrors

section

variable {table : ServerTable} {registry : Registry} {record stored : ServerRecord} {id : String}

theorem routable_rewritten {next : ServerTable} (held : record ∈ table.rows)
    (rows : next.rows = ServerTable.modifyRow table.rows record.id fun _ => stored) (server : ServerRecord) :
    ServerTable.routable next server ↔
      (server = stored ∧ stored.isRoutable = true) ∨ (ServerTable.routable table server ∧ server.id ≠ record.id) := by
  unfold ServerTable.routable
  rw [rows, ServerTable.mem_modifyRow]
  constructor
  · rintro ⟨⟨mem, ne⟩ | ⟨_, _, _, rfl⟩, routable⟩
    · exact .inr ⟨⟨mem, routable⟩, ne⟩
    · exact .inl ⟨rfl, routable⟩
  · rintro (⟨rfl, routable⟩ | ⟨⟨mem, routable⟩, ne⟩)
    · exact ⟨.inr ⟨record, held, rfl, rfl⟩, routable⟩
    · exact ⟨.inl ⟨mem, ne⟩, routable⟩

theorem syncServer_rewritten (reflects : registry.index.Reflects (ServerTable.routable table))
    (held : record ∈ table.rows) (sameId : stored.id = record.id)
    (rows : registry.table.rows = ServerTable.modifyRow table.rows record.id fun _ => stored)
    (spelled : parseUuid id = some record.id) (active : stored.isRoutable = true)
    (tools : record.isRoutable = true → record.toolKeys ⊆ stored.toolKeys)
    (resources : record.isRoutable = true → record.resourceKeys ⊆ stored.resourceKeys) :
    (syncServer registry id).Mirrors := by
  have only : ∀ old, ServerTable.routable table old → old.id = stored.id → old = record :=
    fun old listed clash => table.row_unique listed.1 held (clash.trans sameId)
  have covered : CapabilityIndex.Covered (ServerTable.routable table) stored := by
    constructor
    · intro old listed clash
      obtain rfl := only old listed clash
      exact tools listed.2
    · intro old listed clash
      obtain rfl := only old listed clash
      exact resources listed.2
  have written : stored ∈ registry.table.rows := by
    rw [rows]
    exact ServerTable.mem_modifyRow_self held stored
  have got : registry.table.get id = .ok stored :=
    (registry.table.get_eq_ok_iff id stored).mpr ⟨written, by rw [sameId, spelled]⟩
  rw [syncServer, if_neg (trimSpace_ne_empty_of_uuid spelled), got]
  refine (reflects.add active covered).congr fun server => ?_
  rw [routable_rewritten held rows, sameId, and_iff_left active]

end

def Call.Keeps (registry : Registry) : Call → Prop
  | .register caller request context => ∀ identity, caller = some identity →
    (∀ row ∈ registry.table.rows, row.spiffeId = identity.id → row.status = .active →
      row.toolKeys ⊆ capabilityKeys request.capabilities.tools ∧
        row.resourceKeys ⊆ capabilityKeys request.capabilities.resources) ∧
    ((∀ row ∈ registry.table.rows, row.spiffeId ≠ identity.id) → context.generated = context.assigned ∨
      (capabilityKeys request.capabilities.tools = [] ∧ capabilityKeys request.capabilities.resources = []))
  | .heartbeat _ _ _ _ => True
  | .deregister _ id => ∀ key, parseUuid id = some key → key = id

variable {service : Service} {registry : Registry}

theorem routable_created {table next : ServerTable} {stored : ServerRecord} (active : stored.isRoutable = true)
    (rows : next.rows = table.rows ++ [stored]) (server : ServerRecord) :
    ServerTable.routable next server ↔ server = stored ∨ ServerTable.routable table server := by
  unfold ServerTable.routable
  rw [rows, List.mem_append, List.mem_singleton]
  constructor
  · rintro ⟨mem | rfl, routable⟩
    · exact .inr ⟨mem, routable⟩
    · exact .inl rfl
  · rintro (rfl | ⟨mem, routable⟩)
    · exact ⟨.inr rfl, active⟩
    · exact ⟨.inl mem, routable⟩

theorem syncServer_created {table : ServerTable} {stored : ServerRecord}
    (reflects : registry.index.Reflects (ServerTable.routable table)) (active : stored.isRoutable = true)
    (rows : registry.table.rows = table.rows ++ [stored]) : (syncServer registry stored.id).Mirrors := by
  have written : stored ∈ registry.table.rows := by simp [rows]
  have fresh : ∀ old, ServerTable.routable table old → old.id ≠ stored.id :=
    fun old listed => ServerTable.id_ne_appended rows listed.1
  have covered : CapabilityIndex.Covered (ServerTable.routable table) stored :=
    ⟨fun old listed clash => absurd clash (fresh old listed), fun old listed clash => absurd clash (fresh old listed)⟩
  rw [syncServer, if_neg (trimSpace_ne_empty_of_uuid (registry.table.canonicalIds stored written)),
    registry.table.get_self written]
  refine (reflects.add active covered).congr fun server => ?_
  rw [routable_created active rows]
  constructor
  · exact Or.imp_right And.left
  · exact Or.imp_right fun listed => ⟨listed, fresh server listed⟩

section

variable (mirrors : registry.Mirrors)

include mirrors

theorem Service.indexedRegister_mirrors {caller : Option Identity} {request : RegistrationRequest}
    {context : RegisterContext} (keeps : (Call.register caller request context).Keeps registry) :
    (service.indexedRegister registry caller request context).2.Mirrors := by
  unfold Service.indexedRegister
  split
  next error after failed =>
    rw [service.register_error failed]
    exact mirrors
  next reply after registered =>
    obtain ⟨identity, record, table, admitted, routable, written, rfl, rfl⟩ := service.register_ok registered
    obtain ⟨rfl, _⟩ := service.admit_ok admitted
    obtain ⟨covers, fresh⟩ := keeps identity rfl
    have reflects : (service.postRegister { registry with table := table } record context.now).index.Reflects
        (ServerTable.routable registry.table) := by
      rw [Service.postRegister_index]
      exact mirrors
    have active : (service.registrationResponse record).status.isRoutable = true :=
      record.isRoutable_iff.mpr routable
    dsimp only
    rw [if_pos active]
    cases written with
    | updated existing stored row held own sameId returnedId epoch rows =>
      have kept : existing.isRoutable = true → existing.toolKeys ⊆ stored.toolKeys ∧
          existing.resourceKeys ⊆ stored.resourceKeys := by
        intro listed
        rw [row.keys.1, row.keys.2]
        exact covers existing held own (existing.isRoutable_iff.mp listed)
      have spelled : parseUuid record.id = some existing.id := by
        rw [returnedId]
        exact registry.table.canonicalIds existing held
      exact syncServer_rewritten reflects held sameId (by simpa using rows) spelled
        (stored.isRoutable_iff.mpr row.active) (fun listed => (kept listed).1) (fun listed => (kept listed).2)
    | created stored row absent assignedId returnedId epoch rows =>
      have listed := stored.isRoutable_iff.mpr row.active
      rcases fresh absent with drawn | ⟨tools, resources⟩
      · have sync := syncServer_created reflects listed (by simpa using rows)
        rw [assignedId, ← drawn, ← returnedId] at sync
        exact sync
      · apply syncServer_mirrors
        rw [← row.keys.1] at tools
        rw [← row.keys.2] at resources
        refine (reflects.unfiled tools resources).congr fun server => ?_
        rw [Service.postRegister_table, routable_created listed rows]

theorem remove_idle_mirrors {record : ServerRecord} {id : String} (held : record ∈ registry.table.rows)
    (spelled : parseUuid id = some record.id) (idle : ¬ record.isRoutable = true) :
    { registry with index := registry.index.remove id }.Mirrors := by
  unfold Registry.Mirrors
  rw [CapabilityIndex.remove, if_neg (trimSpace_ne_empty_of_uuid spelled)]
  refine (CapabilityIndex.Reflects.removeLocked mirrors id).congr fun server => ?_
  constructor
  · exact And.left
  · intro listed
    refine ⟨listed, ?_⟩
    rintro rfl
    have same := registry.table.canonicalIds server listed.1
    rw [spelled] at same
    obtain rfl := registry.table.row_unique listed.1 held (Option.some.inj same).symm
    exact idle listed.2

theorem Service.indexedHeartbeat_mirrors (caller : Option Identity) (id : String) (request : HeartbeatRequest)
    (context : HeartbeatContext) :
    (service.indexedHeartbeat registry caller id request context).2.Mirrors := by
  unfold Service.indexedHeartbeat
  split
  next error after failed =>
    rcases Service.heartbeat_cases failed with ⟨_, same⟩ | ⟨_, ok, _⟩
    · rw [same]
      exact mirrors
    · cases ok
  next reply after answered =>
    rcases Service.heartbeat_cases answered with ⟨⟨_, failed⟩, _⟩ | ⟨_, ok, beaten⟩
    · cases failed
    cases ok
    dsimp only
    cases beaten with
    | reRegister record held spelled status _ same =>
      rw [status, same]
      split_ifs with routable
      · exact syncServer_mirrors mirrors id
      · exact remove_idle_mirrors mirrors held spelled routable
    | recorded record held spelled _ status _ _ rows announces index =>
      have active : ServerStatus.active.isRoutable = true := by decide
      rw [status, if_pos active]
      cases refreshed : service.refreshedTools request context record with
      | none =>
        have reflects : after.index.Reflects (ServerTable.routable registry.table) := by
          rw [index, refreshed]
          exact mirrors
        rw [Service.beatenRow_none refreshed] at rows
        have sameId : (heartbeatRow (statusRow record .active context.now) context.now).id = record.id := rfl
        exact syncServer_rewritten reflects held sameId rows spelled active
          (fun _ => List.Subset.refl _) (fun _ => List.Subset.refl _)
      | some toolNames =>
        apply syncServer_mirrors
        have replaced := CapabilityIndex.Reflects.replaceServer mirrors (service.beatenRow request context record)
        rw [Registry.Mirrors, index, refreshed]
        rw [Service.beatenRow_id] at replaced
        exact replaced.congr fun server => (routable_rewritten held rows server).symm

theorem Service.indexedDeregister_mirrors {caller : Option Identity} {id : String}
    (keeps : (Call.deregister caller id).Keeps registry) :
    (service.indexedDeregister registry caller id).2.Mirrors := by
  unfold Service.indexedDeregister
  split
  next error after failed =>
    rcases Service.deregister_cases failed with ⟨_, same⟩ | ⟨ok, _⟩
    · rw [same]
      exact mirrors
    · cases ok
  next after done =>
    rcases Service.deregister_cases done with ⟨⟨_, failed⟩, _⟩ | ⟨_, index, _, record, held, spelled, rows, _⟩
    · cases failed
    have same := keeps record.id spelled
    dsimp only
    rw [index, CapabilityIndex.remove, if_neg (trimSpace_ne_empty_of_uuid spelled)]
    refine (CapabilityIndex.Reflects.removeLocked mirrors id).congr fun server => ?_
    unfold ServerTable.routable
    rw [rows, same, List.mem_filter, decide_eq_true_eq, and_right_comm]

theorem Service.call_mirrors (call : Call) (keeps : call.Keeps registry) :
    (service.call registry call).Mirrors := by
  cases call with
  | register caller request context => exact Service.indexedRegister_mirrors mirrors keeps
  | heartbeat caller id request context => exact Service.indexedHeartbeat_mirrors mirrors caller id request context
  | deregister caller id => exact Service.indexedDeregister_mirrors mirrors keeps

end

/-- The index shows, under every tool name and resource key, exactly the active rows that list it,
and so agrees with a fresh Rebuild of the table up to the order of servers. -/
structure Registry.IndexEqualsStore (registry : Registry) : Prop where
  tools : ∀ name id, id ∈ (registry.index.lookupTool name).map ServerRecord.id ↔
    ∃ row ∈ registry.table.rows, row.id = id ∧ row.status = .active ∧ trimSpace name ∈ row.toolKeys
  resources : ∀ key id, id ∈ (registry.index.resources.bucket key).map ServerRecord.id ↔
    ∃ row ∈ registry.table.rows, row.id = id ∧ row.status = .active ∧ key ∈ row.resourceKeys
  rebuiltTools : ∀ name,
    (registry.index.lookupTool name).Perm ((CapabilityIndex.rebuild registry.table.rows).lookupTool name)
  rebuiltResources : ∀ uri,
    (registry.index.lookupResource uri).Perm ((CapabilityIndex.rebuild registry.table.rows).lookupResource uri)

theorem Registry.Mirrors.indexEqualsStore (mirrors : registry.Mirrors) : registry.IndexEqualsStore := by
  have rebuilt : (CapabilityIndex.rebuild registry.table.rows).Reflects (ServerTable.routable registry.table) :=
    CapabilityIndex.rebuild_reflects _ registry.table.primaryKey
  refine ⟨?_, ?_, CapabilityIndex.Reflects.lookupTool_perm mirrors rebuilt,
    CapabilityIndex.Reflects.lookupResource_perm mirrors rebuilt⟩
  · intro name id
    simp only [List.mem_map, CapabilityIndex.Reflects.mem_lookupTool mirrors, ServerTable.routable,
      ServerRecord.isRoutable_iff]
    constructor
    · rintro ⟨row, ⟨⟨mem, active⟩, listed⟩, same⟩
      exact ⟨row, mem, same, active, listed⟩
    · rintro ⟨row, mem, same, active, listed⟩
      exact ⟨row, ⟨⟨mem, active⟩, listed⟩, same⟩
  · intro key id
    simp only [List.mem_map, mirrors.resources key, ServerTable.routable, ServerRecord.isRoutable_iff]
    constructor
    · rintro ⟨row, ⟨⟨mem, active⟩, listed⟩, same⟩
      exact ⟨row, mem, same, active, listed⟩
    · rintro ⟨row, mem, same, active, listed⟩
      exact ⟨row, ⟨⟨mem, active⟩, listed⟩, same⟩

/-- Starting from a rebuilt index, every run of calls that each keep the index current leaves it equal
to the store after every call. -/
theorem indexed_calls_equal_store (service : Service) (start : Registry) (calls : List Call)
    (rebuilt : start.index = CapabilityIndex.rebuild start.table.rows)
    (keeps : Along service.call (fun registry call => call.Keeps registry) start calls) :
    Along service.call (fun registry call => (service.call registry call).IndexEqualsStore) start calls := by
  have initial : start.Mirrors := by
    rw [Registry.Mirrors, rebuilt]
    exact CapabilityIndex.rebuild_reflects _ start.table.primaryKey
  have step : ∀ registry call, registry.Mirrors → call.Keeps registry → (service.call registry call).Mirrors :=
    fun registry call mirrors kept => Service.call_mirrors mirrors call kept
  refine (keeps.invariant initial step).mono fun registry call held => ?_
  exact (step registry call held.1 held.2).indexEqualsStore

namespace Sample

def rebuilt : Registry := { registered with index := .rebuild registered.table.rows }

def again (tools : List String) : Call := .register (some caller) (request tools) context

end Sample

theorem growing_backend_equal_store :
    Along Sample.service.call (fun registry call => (Sample.service.call registry call).IndexEqualsStore) Sample.rebuilt
      [Sample.again ["list_pods", "get_pod"], .heartbeat (some Sample.caller) Sample.rowId ⟨Sample.rowId, 2, ""⟩ ⟨0, none⟩,
        .deregister (some Sample.caller) Sample.rowId] := by
  apply indexed_calls_equal_store
  · rfl
  · refine ⟨?_, trivial, ?_, trivial⟩
    · intro identity same
      cases same
      obtain ⟨covers, present⟩ : (∀ row ∈ Sample.rebuilt.table.rows, row.spiffeId = Sample.caller.id →
          row.status = .active → row.toolKeys ⊆ capabilityKeys ["list_pods", "get_pod"] ∧
            row.resourceKeys ⊆ capabilityKeys []) ∧
          ∃ row ∈ Sample.rebuilt.table.rows, row.spiffeId = Sample.caller.id := by decide +kernel
      refine ⟨covers, fun absent => ?_⟩
      obtain ⟨row, mem, own⟩ := present
      exact absurd own (absent row mem)
    · intro key parsed
      have canonical : parseUuid Sample.rowId = some Sample.rowId := by decide +kernel
      exact Option.some.inj (parsed.symm.trans canonical)

theorem indexed_register_diverges : (Sample.registry.index = CapabilityIndex.rebuild Sample.registry.table.rows ∧
      ¬ (Sample.service.call Sample.registry (Sample.again ["list_pods"])).IndexEqualsStore) ∧
    (Sample.rebuilt.index = CapabilityIndex.rebuild Sample.rebuilt.table.rows ∧
      ¬ (Sample.service.call Sample.rebuilt (Sample.again ["get_pod"])).IndexEqualsStore) := by
  refine ⟨⟨rfl, ?_⟩, rfl, ?_⟩
  · intro equal
    obtain ⟨unfiled, stored⟩ : Sample.rowId ∉ ((Sample.service.call Sample.registry
          (Sample.again ["list_pods"])).index.lookupTool "list_pods").map ServerRecord.id ∧
        ∃ row ∈ (Sample.service.call Sample.registry (Sample.again ["list_pods"])).table.rows,
          row.id = Sample.rowId ∧ row.status = .active ∧ trimSpace "list_pods" ∈ row.toolKeys := by decide +kernel
    exact unfiled ((equal.tools "list_pods" Sample.rowId).mpr stored)
  · intro equal
    obtain ⟨filed, dropped⟩ : Sample.rowId ∈ ((Sample.service.call Sample.rebuilt
          (Sample.again ["get_pod"])).index.lookupTool "list_pods").map ServerRecord.id ∧
        ¬ ∃ row ∈ (Sample.service.call Sample.rebuilt (Sample.again ["get_pod"])).table.rows,
          row.id = Sample.rowId ∧ row.status = .active ∧ trimSpace "list_pods" ∈ row.toolKeys := by decide +kernel
    exact dropped ((equal.tools "list_pods" Sample.rowId).mp filed)

end McpGateway.Registration
