import McpGateway.Registration.IndexedService

namespace McpGateway.Registration

open Shared Store

-- Service.RefreshCapabilities, which the push refresh endpoint calls: the stored hash is handed on as the new one.
def Service.pushRefresh (service : Service) (registry : Registry) (serverId : String) (context : HeartbeatContext) :
    Option Registry :=
  match registry.table.get serverId with
  | .error _ => none
  | .ok record => service.refreshCapabilities registry record record.capabilityHash context

structure Acknowledgement where
  registrationId : String
  leaseEpoch : Int
  capabilityHash : String
  ackVersion : String
  ackedAt : Option Time

def acknowledgeServerRegistration (registry : Registry) (acknowledgement : Acknowledgement) (now : Time) :
    Except ServiceError Unit × Registry :=
  if trimSpace acknowledgement.registrationId = "" then (.error (.invalidRequest "missing registration id"), registry)
  else if acknowledgement.leaseEpoch ≤ 0 then (.error (.invalidRequest "invalid lease epoch"), registry)
  else
    match registry.table.acknowledgeRegistration acknowledgement.registrationId acknowledgement.leaseEpoch
      acknowledgement.capabilityHash acknowledgement.ackVersion (acknowledgement.ackedAt.getD now) now with
    | .error .noRows => (.error .notFound, registry)
    | .error cause => (.error (.store "ack registration" cause), registry)
    | .ok table => (.ok (), { registry with table := table })

inductive Operation where
  | register (caller : Option Identity) (request : RegistrationRequest) (generated assigned : String)
  | heartbeat (caller : Option Identity) (id : String) (request : HeartbeatRequest) (toolNames : Option (List String))
  | refreshCapabilities (id : String) (toolNames : Option (List String))
  | acknowledge (acknowledgement : Acknowledgement)
  | deregister (caller : Option Identity) (id : String)
  | sweep

inductive Report where
  | silent
  | alive (spiffeId : String)
  | acknowledged (acknowledgement : Acknowledgement)

def callerId (caller : Option Identity) : String :=
  (caller.map Identity.id).getD ""

def Service.perform (service : Service) (registry : Registry) (now : Time) : Operation → Registry × Report
  | .register caller request generated assigned =>
    match service.indexedRegister registry caller request ⟨now, generated, assigned⟩ with
    | (.ok _, registry) => (registry, .alive (callerId caller))
    | (.error _, registry) => (registry, .silent)
  | .heartbeat caller id request toolNames =>
    match service.indexedHeartbeat registry caller id request ⟨now, toolNames⟩ with
    | (.ok reply, registry) =>
      (registry, if reply.action = .reRegister then .silent else .alive (callerId caller))
    | (.error _, registry) => (registry, .silent)
  | .refreshCapabilities id toolNames => ((service.pushRefresh registry id ⟨now, toolNames⟩).getD registry, .silent)
  | .acknowledge acknowledgement =>
    match acknowledgeServerRegistration registry acknowledgement now with
    | (.ok _, registry) => (registry, .acknowledged acknowledgement)
    | (.error _, registry) => (registry, .silent)
  | .deregister caller id => ((service.indexedDeregister registry caller id).2, .silent)
  | .sweep =>
    let swept := sweep service.config registry.table registry.index now
    ({ registry with table := swept.table, index := swept.index }, .silent)

structure Pod where
  registry : Registry
  clock : Time

structure Timed where
  elapsed : Nat
  operation : Operation

def Timed.now (timed : Timed) (pod : Pod) : Time :=
  pod.clock + timed.elapsed

theorem Timed.clock_le (timed : Timed) (pod : Pod) : pod.clock ≤ timed.now pod :=
  Int.le_add_of_nonneg_right (Int.natCast_nonneg timed.elapsed)

def Service.report (service : Service) (pod : Pod) (timed : Timed) : Report :=
  (service.perform pod.registry (timed.now pod) timed.operation).2

def Service.operate (service : Service) (pod : Pod) (timed : Timed) : Pod :=
  ⟨(service.perform pod.registry (timed.now pod) timed.operation).1, timed.now pod⟩

open ServerTable (modifyRow acknowledgeable mem_modifyRow mem_modifyRow_self)

inductive Effect (service : Service) (table : ServerTable) (now : Time) :
    Operation → Report → ServerTable → Prop where
  | unchanged (operation : Operation) : Effect service table now operation .silent table
  | registered (caller : Identity) (request : RegistrationRequest) (generated assigned : String)
      (record : ServerRecord) (next : ServerTable)
      (written : Written table caller.id request ⟨now, generated, assigned⟩ record next)
      (hash : record.capabilityHash = service.hashCapabilities request.capabilities) :
      Effect service table now (.register (some caller) request generated assigned) (.alive caller.id) next
  | beaten (caller : Identity) (id : String) (request : HeartbeatRequest) (toolNames : Option (List String))
      (record : ServerRecord) (next : ServerTable) (held : record ∈ table.rows)
      (spelled : parseUuid id = some record.id) (own : record.spiffeId = caller.id)
      (moved : transition record.status .heartbeat = some .active)
      (rows : next.rows = modifyRow table.rows record.id fun _ =>
        service.beatenRow request ⟨now, toolNames⟩ record) :
      Effect service table now (.heartbeat (some caller) id request toolNames) (.alive caller.id) next
  | refreshed (id : String) (toolNames : Option (List String)) (listed : List String) (record : ServerRecord)
      (next : ServerTable) (held : record ∈ table.rows) (spelled : parseUuid id = some record.id)
      (tools : service.listedTools ⟨now, toolNames⟩ = some listed)
      (rows : next.rows = modifyRow table.rows record.id fun _ =>
        updatedRow record (refreshedRecord record record.capabilityHash listed) now) :
      Effect service table now (.refreshCapabilities id toolNames) .silent next
  | acknowledged (acknowledgement : Acknowledgement) (record : ServerRecord) (next : ServerTable)
      (held : record ∈ table.rows) (spelled : parseUuid (trimSpace acknowledgement.registrationId) = some record.id)
      (matching : acknowledgeable acknowledgement.leaseEpoch (trimSpace acknowledgement.capabilityHash) record = true)
      (rows : next.rows = modifyRow table.rows record.id fun _ =>
        acknowledgedRow record acknowledgement.ackVersion (acknowledgement.ackedAt.getD now) now) :
      Effect service table now (.acknowledge acknowledgement) (.acknowledged acknowledgement) next
  | deregistered (caller : Option Identity) (id : String) (record : ServerRecord) (next : ServerTable)
      (held : record ∈ table.rows) (spelled : parseUuid id = some record.id)
      (rows : next.rows = table.rows.filter fun row => row.id ≠ record.id) :
      Effect service table now (.deregister caller id) .silent next
  | swept (next : ServerTable) (rows : next.rows = table.rows.map (sweptRow (sweepInterval service.config) now)) :
      Effect service table now .sweep .silent next

inductive RowEffect (service : Service) (table : ServerTable) (now : Time) :
    Operation → Report → ServerRecord → Prop where
  | kept (operation : Operation) (report : Report) (row : ServerRecord) (held : row ∈ table.rows) :
      RowEffect service table now operation report row
  | registered (caller : Identity) (request : RegistrationRequest) (generated assigned : String)
      (record stored : ServerRecord) (written : StoredRow caller.id request record stored)
      (hash : record.capabilityHash = service.hashCapabilities request.capabilities) :
      RowEffect service table now (.register (some caller) request generated assigned) (.alive caller.id) stored
  | beaten (caller : Identity) (id : String) (request : HeartbeatRequest) (toolNames : Option (List String))
      (record : ServerRecord) (held : record ∈ table.rows) (spelled : parseUuid id = some record.id)
      (own : record.spiffeId = caller.id) :
      RowEffect service table now (.heartbeat (some caller) id request toolNames) (.alive caller.id)
        (service.beatenRow request ⟨now, toolNames⟩ record)
  | refreshed (id : String) (toolNames : Option (List String)) (listed : List String) (record : ServerRecord)
      (held : record ∈ table.rows) (spelled : parseUuid id = some record.id)
      (tools : service.listedTools ⟨now, toolNames⟩ = some listed) :
      RowEffect service table now (.refreshCapabilities id toolNames) .silent
        (updatedRow record (refreshedRecord record record.capabilityHash listed) now)
  | acknowledged (acknowledgement : Acknowledgement) (record : ServerRecord) (held : record ∈ table.rows)
      (spelled : parseUuid (trimSpace acknowledgement.registrationId) = some record.id)
      (matching : acknowledgeable acknowledgement.leaseEpoch (trimSpace acknowledgement.capabilityHash) record = true) :
      RowEffect service table now (.acknowledge acknowledgement) (.acknowledged acknowledgement)
        (acknowledgedRow record acknowledgement.ackVersion (acknowledgement.ackedAt.getD now) now)
  | swept (row : ServerRecord) (held : row ∈ table.rows) :
      RowEffect service table now .sweep .silent (sweptRow (sweepInterval service.config) now row)

variable {next : ServerTable}

theorem Effect.row {service : Service} {table : ServerTable} {now : Time} {operation : Operation} {report : Report}
    (effect : Effect service table now operation report next) {row : ServerRecord} (mem : row ∈ next.rows) :
    RowEffect service table now operation report row := by
  cases effect with
  | unchanged => exact .kept _ _ row mem
  | registered caller request generated assigned record _ written hash =>
    cases written with
    | updated existing stored renewed held _ _ _ _ rows =>
      rw [rows, mem_modifyRow] at mem
      rcases mem with ⟨present, _⟩ | ⟨_, _, _, rfl⟩
      · exact .kept _ _ row present
      · exact .registered caller request generated assigned record row renewed hash
    | created stored inserted _ _ _ _ rows =>
      rw [rows, List.mem_append, List.mem_singleton] at mem
      rcases mem with present | rfl
      · exact .kept _ _ row present
      · exact .registered caller request generated assigned record row inserted hash
  | beaten caller id request toolNames record _ held spelled own _ rows =>
    rw [rows, mem_modifyRow] at mem
    rcases mem with ⟨present, _⟩ | ⟨_, _, _, rfl⟩
    · exact .kept _ _ row present
    · exact .beaten caller id request toolNames record held spelled own
  | refreshed id toolNames listed record _ held spelled tools rows =>
    rw [rows, mem_modifyRow] at mem
    rcases mem with ⟨present, _⟩ | ⟨_, _, _, rfl⟩
    · exact .kept _ _ row present
    · exact .refreshed id toolNames listed record held spelled tools
  | acknowledged acknowledgement record _ held spelled matching rows =>
    rw [rows, mem_modifyRow] at mem
    rcases mem with ⟨present, _⟩ | ⟨_, _, _, rfl⟩
    · exact .kept _ _ row present
    · exact .acknowledged acknowledgement record held spelled matching
  | deregistered caller id record _ _ _ rows =>
    rw [rows] at mem
    exact .kept _ _ row (List.mem_of_mem_filter mem)
  | swept _ rows =>
    rw [rows, List.mem_map] at mem
    obtain ⟨old, held, rfl⟩ := mem
    exact .swept old held

section

variable (service : Service) (registry : Registry)

variable {record : ServerRecord} {before : CapabilityIndex} {after : Registry}

open Service (perform indexedRegister indexedHeartbeat pushRefresh)

theorem Service.perform_registered {now : Time} {caller : Option Identity} {request : RegistrationRequest}
    {generated assigned : String} {identity : Identity} (admitted : service.admit caller request = .ok identity)
    (written : service.writeRegistration registry.table identity.id request ⟨now, generated, assigned⟩ = .ok (record, next)) :
    (service.perform registry now (.register caller request generated assigned)).1.table = next := by
  simp only [perform, indexedRegister, Service.register, admitted, written]
  split_ifs <;> simp

theorem Service.perform_heartbeat_table (now : Time) (caller : Option Identity) (id : String)
    (request : HeartbeatRequest) (toolNames : Option (List String)) :
    (service.perform registry now (.heartbeat caller id request toolNames)).1.table =
      (service.heartbeat registry caller id request ⟨now, toolNames⟩).2.table := by
  rw [perform, indexedHeartbeat]
  cases service.heartbeat registry caller id request ⟨now, toolNames⟩ with
  | mk result next =>
    cases result with
    | error error => rfl
    | ok reply =>
      dsimp only
      split_ifs <;> simp

theorem Service.register_effect (now : Time) (caller : Option Identity) (request : RegistrationRequest)
    (generated assigned : String) : Effect service registry.table now (.register caller request generated assigned)
      (service.perform registry now (.register caller request generated assigned)).2
      (service.perform registry now (.register caller request generated assigned)).1.table := by
  unfold perform indexedRegister
  dsimp only
  cases called : service.register registry caller request ⟨now, generated, assigned⟩ with
  | mk result next =>
    cases result with
    | error error =>
      rw [service.register_error called]
      exact .unchanged _
    | ok reply =>
      obtain ⟨identity, record, table, admitted, _, written, same, rfl⟩ := service.register_ok called
      obtain ⟨rfl, _⟩ := service.admit_ok admitted
      have hash := service.register_hash called
      rw [same] at hash
      have kept : (if reply.status.isRoutable then
          syncServer (service.postRegister { registry with table := table } record now) reply.instanceId
        else service.postRegister { registry with table := table } record now).table = table := by
        split_ifs <;> simp
      dsimp only
      rw [kept]
      exact .registered identity request generated assigned record table written hash

theorem Service.heartbeat_effect (now : Time) (caller : Option Identity) (id : String) (request : HeartbeatRequest)
    (toolNames : Option (List String)) : Effect service registry.table now (.heartbeat caller id request toolNames)
      (service.perform registry now (.heartbeat caller id request toolNames)).2
      (service.perform registry now (.heartbeat caller id request toolNames)).1.table := by
  rw [Service.perform_heartbeat_table, perform, indexedHeartbeat]
  cases called : service.heartbeat registry caller id request ⟨now, toolNames⟩ with
  | mk result next =>
    rcases Service.heartbeat_cases called with ⟨⟨error, rfl⟩, rfl⟩ | ⟨reply, rfl, beaten⟩
    · exact .unchanged _
    dsimp only
    cases beaten with
    | reRegister record held spelled status action same =>
      rw [if_pos action, same]
      exact .unchanged _
    | recorded record held spelled moved status action hash rows announces index =>
      have acts : reply.action ≠ .reRegister := by
        rw [action]
        exact correctiveAction_ne request record
      obtain ⟨identity, rfl, own⟩ := Service.heartbeat_owner called held spelled
      rw [if_neg acts]
      exact .beaten identity id request toolNames record next.table held spelled own moved rows

theorem Service.pushRefresh_effect (now : Time) (id : String) (toolNames : Option (List String)) :
    Effect service registry.table now (.refreshCapabilities id toolNames) .silent
      ((service.pushRefresh registry id ⟨now, toolNames⟩).getD registry).table := by
  unfold pushRefresh
  cases got : registry.table.get id with
  | error cause => exact .unchanged _
  | ok record =>
    obtain ⟨held, spelled⟩ := (registry.table.get_eq_ok_iff id record).mp got
    dsimp only
    cases tools : service.listedTools ⟨now, toolNames⟩ with
    | none =>
      rw [Service.refreshCapabilities_none tools]
      exact .unchanged _
    | some listed =>
      obtain ⟨next, ran, _, rows, _⟩ := Service.refreshCapabilities_some record.capabilityHash tools held rfl rfl
        (registry.table.bigintEpochs record held)
      rw [ran]
      exact .refreshed id toolNames listed record next.table held spelled tools rows

theorem acknowledge_effect (now : Time) (acknowledgement : Acknowledgement) :
    Effect service registry.table now (.acknowledge acknowledgement)
      (service.perform registry now (.acknowledge acknowledgement)).2
      (service.perform registry now (.acknowledge acknowledgement)).1.table := by
  unfold perform acknowledgeServerRegistration
  dsimp only
  split_ifs
  · exact .unchanged _
  · exact .unchanged _
  cases ran : registry.table.acknowledgeRegistration acknowledgement.registrationId acknowledgement.leaseEpoch
    acknowledgement.capabilityHash acknowledgement.ackVersion (acknowledgement.ackedAt.getD now) now with
  | error cause => cases cause <;> exact .unchanged _
  | ok next =>
    obtain ⟨record, held, spelled, matching, rows⟩ := ServerTable.acknowledgeRegistration_ok ran
    exact .acknowledged acknowledgement record next held spelled matching rows

theorem Service.deregister_effect (now : Time) (caller : Option Identity) (id : String) :
    Effect service registry.table now (.deregister caller id) .silent
      (service.indexedDeregister registry caller id).2.table := by
  unfold Service.indexedDeregister
  cases called : service.deregister registry caller id with
  | mk result next =>
    rcases Service.deregister_cases called with ⟨⟨error, rfl⟩, rfl⟩ | ⟨rfl, _, _, record, held, spelled, rows, _⟩
    · exact .unchanged _
    · exact .deregistered caller id record next.table held spelled rows

theorem Service.perform_effect (now : Time) (operation : Operation) :
    Effect service registry.table now operation (service.perform registry now operation).2
      (service.perform registry now operation).1.table := by
  cases operation with
  | register caller request generated assigned => exact service.register_effect registry now caller request generated assigned
  | heartbeat caller id request toolNames => exact service.heartbeat_effect registry now caller id request toolNames
  | refreshCapabilities id toolNames => exact service.pushRefresh_effect registry now id toolNames
  | acknowledge acknowledgement => exact acknowledge_effect service registry now acknowledgement
  | deregister caller id => exact service.deregister_effect registry now caller id
  | sweep => exact .swept _ (sweep_rows _ _ _ _)

def Files (before : CapabilityIndex) (after : Registry) : Prop :=
  ∀ server, after.index.Holds server →
    before.Holds server ∨ (server ∈ after.table.rows ∧ server.isRoutable = true)

variable {registry}

theorem Files.of_index (same : after.index = before) : Files before after := by
  intro server held
  rw [same] at held
  exact .inl held

theorem Files.replaced {id : String} (index : after.index = before.replaceServer id record)
    (stored : record ∈ after.table.rows) : Files before after := by
  intro server held
  rw [index] at held
  rcases CapabilityIndex.holds_replaceServer held with ⟨rfl, routable⟩ | kept
  · exact .inr ⟨stored, routable⟩
  · exact .inl kept

theorem Files.sync (files : Files before registry) (id : String) : Files before (syncServer registry id) := by
  intro server held
  rw [syncServer_table]
  unfold syncServer at held
  split_ifs at held
  · exact files server held
  split at held
  next record got =>
    rcases CapabilityIndex.holds_add held with ⟨rfl, routable⟩ | kept
    · exact .inr ⟨((registry.table.get_eq_ok_iff id server).mp got).1, routable⟩
    · exact files server kept
  next => exact files server held

theorem Files.remove (files : Files before registry) (id : String) :
    Files before { registry with index := registry.index.remove id } :=
  fun server held => files server ((CapabilityIndex.holds_remove_iff _ _ _).mp held).1

variable (registry)

variable (caller : Option Identity)

theorem Service.register_files (request : RegistrationRequest) (context : RegisterContext) :
    Files registry.index (service.indexedRegister registry caller request context).2 := by
  unfold indexedRegister
  split
  next error after failed =>
    rw [service.register_error failed]
    exact .of_index rfl
  next reply after registered =>
    obtain ⟨_, record, table, _, _, _, _, rfl⟩ := service.register_ok registered
    have files : Files registry.index (service.postRegister { registry with table := table } record context.now) :=
      .of_index (by simp)
    dsimp only
    split_ifs
    · exact files.sync _
    · exact files

theorem Service.heartbeat_files (id : String) (request : HeartbeatRequest) (context : HeartbeatContext) :
    Files registry.index (service.indexedHeartbeat registry caller id request context).2 := by
  unfold indexedHeartbeat
  cases called : service.heartbeat registry caller id request context with
  | mk result after =>
    rcases Service.heartbeat_cases called with ⟨⟨error, rfl⟩, rfl⟩ | ⟨reply, rfl, beaten⟩
    · exact .of_index rfl
    have files : Files registry.index after := by
      cases beaten with
      | reRegister _ _ _ _ _ same => exact .of_index (by rw [same])
      | recorded record held _ _ _ _ _ rows _ index =>
        cases refreshed : service.refreshedTools request context record with
        | none => exact .of_index (by rw [index, refreshed])
        | some listed =>
          rw [refreshed] at index
          exact .replaced index (by rw [rows]; exact mem_modifyRow_self held _)
    dsimp only
    split_ifs
    · exact files.sync id
    · exact files.remove id

theorem Service.pushRefresh_files (id : String) (context : HeartbeatContext) :
    Files registry.index ((service.pushRefresh registry id context).getD registry) := by
  unfold pushRefresh
  cases got : registry.table.get id with
  | error cause => exact .of_index rfl
  | ok record =>
    obtain ⟨held, _⟩ := (registry.table.get_eq_ok_iff id record).mp got
    dsimp only
    cases tools : service.listedTools context with
    | none =>
      rw [Service.refreshCapabilities_none tools]
      exact .of_index rfl
    | some listed =>
      obtain ⟨next, ran, _, rows, index⟩ := Service.refreshCapabilities_some record.capabilityHash tools held rfl rfl
        (registry.table.bigintEpochs record held)
      rw [ran]
      exact .replaced index (by rw [Option.getD_some, rows]; exact mem_modifyRow_self held _)

theorem Service.deregister_files (id : String) :
    Files registry.index (service.indexedDeregister registry caller id).2 := by
  unfold Service.indexedDeregister
  cases called : service.deregister registry caller id with
  | mk result next =>
    rcases Service.deregister_cases called with ⟨⟨error, rfl⟩, rfl⟩ | ⟨rfl, index, _⟩
    · exact .of_index rfl
    · exact (Files.of_index index).remove id

theorem acknowledge_index (acknowledgement : Acknowledgement) (now : Time) :
    (acknowledgeServerRegistration registry acknowledgement now).2.index = registry.index := by
  unfold acknowledgeServerRegistration
  split_ifs
  · rfl
  · rfl
  · split <;> rfl

theorem Service.perform_files (now : Time) (operation : Operation) :
    Files registry.index (service.perform registry now operation).1 := by
  cases operation with
  | register caller request generated assigned =>
    have files := service.register_files registry caller request ⟨now, generated, assigned⟩
    rw [perform]
    split <;> simp_all
  | heartbeat caller id request toolNames =>
    have files := service.heartbeat_files registry caller id request ⟨now, toolNames⟩
    rw [perform]
    split <;> simp_all
  | refreshCapabilities id toolNames => exact service.pushRefresh_files registry id ⟨now, toolNames⟩
  | acknowledge acknowledgement =>
    have same := acknowledge_index registry acknowledgement now
    refine .of_index ?_
    rw [perform]
    split <;> simp_all
  | deregister caller id => exact service.deregister_files registry caller id
  | sweep => exact fun server held => .inl (sweep_holds held).1

theorem Service.operate_effect (pod : Pod) (timed : Timed) :
    Effect service pod.registry.table (timed.now pod) timed.operation (service.report pod timed)
      (service.operate pod timed).registry.table :=
  service.perform_effect pod.registry (timed.now pod) timed.operation

end

namespace Sample

def registers : Timed := ⟨10 ^ 10, .register (some caller) (request ["list_pods"]) gatewayId rowId⟩

def beats : Timed := ⟨30 * 10 ^ 9, .heartbeat (some caller) rowId ⟨rowId, 1, ""⟩ none⟩

def sweeps : Timed := ⟨70 * 10 ^ 9, .sweep⟩

def leaves : Timed := ⟨10 ^ 9, .deregister (some caller) rowId⟩

def reports (hash : String) (tools : List String) : Timed :=
  ⟨10 ^ 9, .heartbeat (some caller) rowId ⟨rowId, 1, hash⟩ (some tools)⟩

def refreshes (tools : List String) : Timed := ⟨10 ^ 9, .refreshCapabilities rowId (some tools)⟩

end Sample

end McpGateway.Registration
