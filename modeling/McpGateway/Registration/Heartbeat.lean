import McpGateway.Registration.Service

namespace McpGateway.Registration

open Shared Store

inductive HeartbeatAction where
  | none | reRegister | resendCapabilities
  deriving DecidableEq

structure HeartbeatRequest where
  registrationId : String
  leaseEpoch : Int
  capabilityHash : String

structure HeartbeatResponse where
  serverStatus : ServerStatus
  nextDeadline : Time
  leaseEpoch : Int
  syncState : RegistrationSyncState
  action : HeartbeatAction
  capabilityHash : String
  configVersion : Int
  effectiveSettings : Object

structure HeartbeatContext where
  now : Time
  toolNames : Option (List String)

def lookupHeartbeatRecord (table : ServerTable) (caller : Identity) (id : String) : Except ServiceError ServerRecord :=
  match table.get id with
  | .error .noRows => .error .notFound
  | .error cause => .error (.store "get registration" cause)
  | .ok record => if caller.id ≠ record.spiffeId then .error (.forbidden "") else .ok record

def resolveHeartbeatAction (request : HeartbeatRequest) (record : ServerRecord) : HeartbeatAction :=
  let requested := trimSpace request.registrationId
  if requested ≠ "" ∧ requested ≠ record.id then .reRegister
  else if 0 < request.leaseEpoch ∧ request.leaseEpoch ≠ record.leaseEpoch then .reRegister
  else .none

def Service.applyHeartbeatTransition (service : Service) (registry : Registry) (id : String) (record : ServerRecord)
    (now : Time) : Except ServiceError ServerStatus × Registry :=
  match transition record.status .heartbeat with
  | none =>
    (.error (.invalidRequest ("invalid transition: status=" ++ record.status.text ++ " event=heartbeat")), registry)
  | some next =>
    if next = record.status then (.ok next, registry)
    else
      match registry.table.updateStatus id next now with
      | .error cause => (.error (.store "update status" cause), registry)
      | .ok table =>
        (.ok next, service.publish { registry with table := table } (.registryUpdated .statusChanged record.id))

-- RefreshServer: the read goes first, and a failed read leaves the index alone.
def refreshServer (index : CapabilityIndex) (table : ServerTable) (serverId : String) : CapabilityIndex :=
  if trimSpace serverId = "" then index
  else
    match table.get serverId with
    | .ok record => index.replaceServer serverId record
    | .error _ => index

def refreshedRecord (server : ServerRecord) (newHash : String) (toolNames : List String) : ServerRecord :=
  { server with
    capabilityHash := newHash
    capabilities := { server.capabilities with tools := toolNames } }

section

variable (server : ServerRecord) (newHash : String) (toolNames : List String)

@[simp] theorem refreshedRecord_spiffeId : (refreshedRecord server newHash toolNames).spiffeId = server.spiffeId := rfl

@[simp] theorem refreshedRecord_status : (refreshedRecord server newHash toolNames).status = server.status := rfl

@[simp] theorem refreshedRecord_lastHeartbeat :
    (refreshedRecord server newHash toolNames).lastHeartbeat = server.lastHeartbeat := rfl

@[simp] theorem refreshedRecord_leaseEpoch :
    (refreshedRecord server newHash toolNames).leaseEpoch = server.leaseEpoch := rfl

@[simp] theorem refreshedRecord_capabilityHash :
    (refreshedRecord server newHash toolNames).capabilityHash = newHash := rfl

@[simp] theorem refreshedRecord_syncState : (refreshedRecord server newHash toolNames).syncState = server.syncState := rfl

end

def Service.refreshCapabilities (service : Service) (registry : Registry) (server : ServerRecord) (newHash : String)
    (context : HeartbeatContext) : Option Registry :=
  if !service.indexed || !service.toolListing then none
  else
    match context.toolNames with
    | none => none
    | some toolNames =>
      match registry.table.update (refreshedRecord server newHash toolNames) context.now with
      | .error _ => none
      | .ok table =>
        some (service.publish { registry with
            table := table
            index := refreshServer registry.index table (trimSpace server.id) }
          (.capabilitiesChanged (trimSpace server.id) newHash toolNames.length))

def hashChanged (request : HeartbeatRequest) (record : ServerRecord) : Bool :=
  trimSpace request.capabilityHash ≠ "" && trimSpace request.capabilityHash ≠ trimSpace record.capabilityHash

def Service.refreshEnabled (service : Service) : Bool :=
  service.toolListing && service.config.any (·.capabilityRefreshEnabled)

def Service.heartbeatResponse (service : Service) (record : ServerRecord) (status : ServerStatus)
    (action : HeartbeatAction) (capabilityHash : String) (now : Time) : HeartbeatResponse where
  serverStatus := status
  nextDeadline := now + heartbeatIntervalSeconds service.config * second
  leaseEpoch := record.leaseEpoch
  syncState := record.syncState
  action := action
  capabilityHash := capabilityHash
  configVersion := (service.effectiveSettingsForServer record.name).1
  effectiveSettings := (service.effectiveSettingsForServer record.name).2

@[simp] theorem Service.heartbeatResponse_action (service : Service) (record : ServerRecord) (status : ServerStatus)
    (action : HeartbeatAction) (capabilityHash : String) (now : Time) :
    (service.heartbeatResponse record status action capabilityHash now).action = action := rfl

@[simp] theorem Service.heartbeatResponse_serverStatus (service : Service) (record : ServerRecord)
    (status : ServerStatus) (action : HeartbeatAction) (capabilityHash : String) (now : Time) :
    (service.heartbeatResponse record status action capabilityHash now).serverStatus = status := rfl

def correctiveAction (request : HeartbeatRequest) (record : ServerRecord) : HeartbeatAction :=
  if hashChanged request record then .resendCapabilities else .none

def Service.attemptRefresh (service : Service) (registry : Registry) (record : ServerRecord)
    (request : HeartbeatRequest) (context : HeartbeatContext) : Option Registry :=
  if hashChanged request record && service.refreshEnabled then
    service.refreshCapabilities registry record (trimSpace request.capabilityHash) context
  else none

-- A refresh that fails is logged; the heartbeat answers as if it had not been tried.
def Service.finishHeartbeat (service : Service) (registry : Registry) (record : ServerRecord) (status : ServerStatus)
    (request : HeartbeatRequest) (context : HeartbeatContext) : HeartbeatResponse × Registry :=
  match service.attemptRefresh registry record request context with
  | some registry =>
    (service.heartbeatResponse record status (correctiveAction request record) (trimSpace request.capabilityHash)
      context.now, registry)
  | none =>
    (service.heartbeatResponse record status (correctiveAction request record) record.capabilityHash context.now,
      registry)

def Service.recordHeartbeat (service : Service) (registry : Registry) (id : String) (record : ServerRecord)
    (request : HeartbeatRequest) (context : HeartbeatContext) : Except ServiceError HeartbeatResponse × Registry :=
  match service.applyHeartbeatTransition registry id record context.now with
  | (.error error, registry) => (.error error, registry)
  | (.ok status, registry) =>
    match registry.table.updateHeartbeat id context.now with
    | .error cause => (.error (.store "update heartbeat" cause), registry)
    | .ok table =>
      match service.finishHeartbeat { registry with table := table } record status request context with
      | (response, registry) => (.ok response, registry)

def heartbeatRecord (table : ServerTable) (caller : Option Identity) (id : String) : Except ServiceError ServerRecord :=
  if trimSpace id = "" then .error (.invalidRequest "missing id")
  else
    match caller with
    | none => .error .unauthorized
    | some caller => if caller.type ≠ .mtls then .error .unauthorized else lookupHeartbeatRecord table caller id

def Service.heartbeat (service : Service) (registry : Registry) (caller : Option Identity) (id : String)
    (request : HeartbeatRequest) (context : HeartbeatContext) : Except ServiceError HeartbeatResponse × Registry :=
  match heartbeatRecord registry.table caller id with
  | .error error => (.error error, registry)
  | .ok record =>
    if resolveHeartbeatAction request record = .reRegister then
      (.ok (service.heartbeatResponse record record.status .reRegister record.capabilityHash context.now), registry)
    else service.recordHeartbeat registry id record request context

def Service.deregister (service : Service) (registry : Registry) (caller : Option Identity) (id : String) :
    Except ServiceError Unit × Registry :=
  if trimSpace id = "" then (.error (.invalidRequest "missing id"), registry)
  else
    match caller with
    | none => (.error .unauthorized, registry)
    | some caller =>
      match registry.table.get id with
      | .error .noRows => (.error .notFound, registry)
      | .error cause => (.error (.store "get registration" cause), registry)
      | .ok record =>
        if !caller.hasScope scopeAdmin && !(caller.type == .mtls && caller.id == record.spiffeId) then
          (.error (.forbidden ""), registry)
        else
          match registry.table.delete id with
          | .error cause => (.error (.store "delete registration" cause), registry)
          | .ok table =>
            (.ok (), service.publish { registry with table := table } (.registryUpdated .deregistered record.id))

variable {table : ServerTable} {caller : Option Identity}

theorem lookupHeartbeatRecord_ok {caller : Identity} {id : String} {record : ServerRecord}
    (found : lookupHeartbeatRecord table caller id = .ok record) :
    record ∈ table.rows ∧ parseUuid id = some record.id ∧ caller.id = record.spiffeId := by
  unfold lookupHeartbeatRecord at found
  split at found
  · cases found
  · cases found
  next row got =>
    split_ifs at found with own
    cases found
    obtain ⟨held, spelled⟩ := (table.get_eq_ok_iff id record).mp got
    exact ⟨held, spelled, by simpa using own⟩

theorem heartbeatRecord_ok {id : String} {record : ServerRecord}
    (found : heartbeatRecord table caller id = .ok record) : record ∈ table.rows ∧ parseUuid id = some record.id := by
  unfold heartbeatRecord at found
  split_ifs at found
  split at found
  · cases found
  · split_ifs at found
    obtain ⟨held, spelled, _⟩ := lookupHeartbeatRecord_ok found
    exact ⟨held, spelled⟩

theorem heartbeatRecord_own {id : String} {record : ServerRecord}
    (found : heartbeatRecord table caller id = .ok record) :
    ∃ identity, caller = some identity ∧ record.spiffeId = identity.id := by
  unfold heartbeatRecord at found
  split_ifs at found
  split at found
  · cases found
  next identity =>
    split_ifs at found
    obtain ⟨_, _, own⟩ := lookupHeartbeatRecord_ok found
    exact ⟨identity, rfl, own.symm⟩

theorem refreshServer_eq (index : CapabilityIndex) (table : ServerTable) {record : ServerRecord}
    (held : record ∈ table.rows) : refreshServer index table record.id = index.replaceServer record.id record := by
  have canonical := table.canonicalIds record held
  rw [refreshServer, trimSpace_uuid canonical, if_neg (uuid_ne_empty canonical), table.get_self held]

section

variable {service : Service} {registry next : Registry} {record : ServerRecord} {id : String}

structure Announces (service : Service) (registry next : Registry) (record : ServerRecord) : Prop where
  kept : registry.published ⊆ next.published
  moved : service.broadcasting = true → record.status ≠ .active →
    .registryUpdated .statusChanged record.id ∈ next.published

theorem Service.applyHeartbeatTransition_cases {result : Except ServiceError ServerStatus} {now : Time}
    (held : record ∈ registry.table.rows) (spelled : parseUuid id = some record.id)
    (applied : service.applyHeartbeatTransition registry id record now = (result, next)) :
    (transition record.status .heartbeat = none ∧ (∃ error, result = .error error) ∧ next = registry) ∨
      (transition record.status .heartbeat = some .active ∧ result = .ok .active ∧ next.index = registry.index ∧
        Announces service registry next record ∧ ∃ touched, next.table.rows =
          ServerTable.modifyRow registry.table.rows record.id fun _ => statusRow record .active touched) := by
  unfold Service.applyHeartbeatTransition at applied
  split at applied
  next stuck =>
    cases applied
    exact .inl ⟨stuck, ⟨_, rfl⟩, rfl⟩
  next status moved =>
    have active := transition_heartbeat moved
    subst active
    refine .inr ⟨moved, ?_⟩
    split_ifs at applied with same
    · cases applied
      refine ⟨rfl, rfl, ⟨List.Subset.refl _, fun _ moved => absurd same.symm moved⟩, record.updatedAt, ?_⟩
      have unmoved : statusRow record .active record.updatedAt = record := by
        rw [same]
        rfl
      rw [unmoved, registry.table.modifyRow_self held]
    · obtain ⟨table, updated, rows⟩ := registry.table.modify_total spelled
        (fun row => statusRow row .active now) (fun _ => rfl) (fun _ _ _ => rfl) registry.table.bigintEpochs
      rw [ServerTable.updateStatus, updated] at applied
      cases applied
      have announces : Announces service registry (service.publish { registry with table := table }
          (.registryUpdated .statusChanged record.id)) record :=
        ⟨service.publish_kept { registry with table := table } _, fun broadcasting _ => service.publish_sent broadcasting _ _⟩
      refine ⟨rfl, by simp, announces, now, ?_⟩
      rw [Service.publish_table, rows, registry.table.modifyRow_const held]

def Service.listedTools (service : Service) (context : HeartbeatContext) : Option (List String) :=
  if service.indexed && service.toolListing then context.toolNames else none

theorem Service.refreshCapabilities_none {hash : String} {context : HeartbeatContext} {server : ServerRecord}
    (unlisted : service.listedTools context = none) : service.refreshCapabilities registry server hash context = none := by
  unfold Service.listedTools at unlisted
  unfold Service.refreshCapabilities
  cases indexed : service.indexed <;> cases listing : service.toolListing <;> simp_all

theorem maxInt64_bigint {epoch : Int} (bigint : -2 ^ 63 ≤ epoch ∧ epoch < 2 ^ 63) :
    -2 ^ 63 ≤ maxInt64 epoch 1 ∧ maxInt64 epoch 1 < 2 ^ 63 := by
  unfold maxInt64
  split_ifs <;> omega

theorem Service.refreshCapabilities_some (hash : String) {context : HeartbeatContext} {server stored : ServerRecord}
    {toolNames : List String} (listed : service.listedTools context = some toolNames)
    (held : stored ∈ registry.table.rows) (same : server.id = stored.id) (own : server.spiffeId = stored.spiffeId)
    (bigint : -2 ^ 63 ≤ server.leaseEpoch ∧ server.leaseEpoch < 2 ^ 63) :
    ∃ next, service.refreshCapabilities registry server hash context = some next ∧ registry.published ⊆ next.published ∧
      next.table.rows = ServerTable.modifyRow registry.table.rows stored.id
        (fun _ => updatedRow stored (refreshedRecord server hash toolNames) context.now) ∧
      next.index = registry.index.replaceServer stored.id
        (updatedRow stored (refreshedRecord server hash toolNames) context.now) := by
  have spelled := registry.table.canonicalIds stored held
  have parsed : parseUuid (refreshedRecord server hash toolNames).id = some stored.id := by
    change parseUuid server.id = some stored.id
    rw [same, spelled]
  obtain ⟨table, updated, rows⟩ := registry.table.modify_total parsed
    (fun row => updatedRow row (refreshedRecord server hash toolNames) context.now) (fun _ => rfl)
    (fun row mem clash => by rw [registry.table.row_unique mem held clash]; exact own)
    (fun _ _ => maxInt64_bigint bigint)
  rw [registry.table.modifyRow_const held] at rows
  unfold Service.listedTools at listed
  split_ifs at listed with reachable
  obtain ⟨indexed, listing⟩ : service.indexed = true ∧ service.toolListing = true := by simpa using reachable
  refine ⟨service.publish { registry with
    table := table
    index := refreshServer registry.index table (trimSpace server.id) }
      (.capabilitiesChanged (trimSpace server.id) hash toolNames.length), ?_,
    service.publish_kept { registry with table := table, index := _ } _, ?_, ?_⟩
  · unfold Service.refreshCapabilities ServerTable.update
    simp only [indexed, listing, Bool.not_true, Bool.or_self, Bool.false_eq_true, if_false, listed, updated]
  · rw [Service.publish_table, rows]
  · have written : updatedRow stored (refreshedRecord server hash toolNames) context.now ∈ table.rows := by
      rw [rows]
      exact ServerTable.mem_modifyRow_self held _
    have read := refreshServer_eq registry.index table written
    rw [updatedRow_id] at read
    rw [Service.publish_index, same, trimSpace_uuid spelled, read]

structure Service.Refreshes (service : Service) (request : HeartbeatRequest) (context : HeartbeatContext)
    (record : ServerRecord) : Prop where
  changed : hashChanged request record = true
  enabled : service.refreshEnabled = true
  fetched : context.toolNames ≠ none

def Service.refreshedTools (service : Service) (request : HeartbeatRequest) (context : HeartbeatContext)
    (record : ServerRecord) : Option (List String) :=
  if hashChanged request record && service.refreshEnabled then service.listedTools context else none

theorem Service.refreshes_of_tools {request : HeartbeatRequest} {context : HeartbeatContext} {toolNames : List String}
    (refreshed : service.refreshedTools request context record = some toolNames) :
    service.Refreshes request context record := by
  unfold Service.refreshedTools at refreshed
  split_ifs at refreshed with attempted
  rw [Bool.and_eq_true] at attempted
  refine ⟨attempted.1, attempted.2, ?_⟩
  unfold Service.listedTools at refreshed
  split_ifs at refreshed
  simp [refreshed]

-- The last write of a refresh is of the record as the heartbeat first read it.
def Service.beatenRow (service : Service) (request : HeartbeatRequest) (context : HeartbeatContext)
    (record : ServerRecord) : ServerRecord :=
  match service.refreshedTools request context record with
  | none => heartbeatRow (statusRow record .active context.now) context.now
  | some toolNames =>
    updatedRow record (refreshedRecord record (trimSpace request.capabilityHash) toolNames) context.now

@[simp] theorem Service.beatenRow_id (service : Service) (request : HeartbeatRequest) (context : HeartbeatContext)
    (record : ServerRecord) : (service.beatenRow request context record).id = record.id := by
  unfold Service.beatenRow
  split <;> simp only [updatedRow, heartbeatRow, statusRow]

theorem Service.beatenRow_none {request : HeartbeatRequest} {context : HeartbeatContext}
    (kept : service.refreshedTools request context record = none) :
    service.beatenRow request context record = heartbeatRow (statusRow record .active context.now) context.now := by
  rw [Service.beatenRow, kept]

theorem Service.beatenRow_some {request : HeartbeatRequest} {context : HeartbeatContext} {toolNames : List String}
    (refreshed : service.refreshedTools request context record = some toolNames) :
    service.beatenRow request context record =
      updatedRow record (refreshedRecord record (trimSpace request.capabilityHash) toolNames) context.now := by
  rw [Service.beatenRow, refreshed]

-- What a successful heartbeat did: nothing, for a caller told to register again; otherwise it rewrote the
-- caller's row, and the index moved only together with a refresh of the tools.
inductive Beaten (service : Service) (registry next : Registry) (id : String) (request : HeartbeatRequest)
    (context : HeartbeatContext) (response : HeartbeatResponse) : Prop where
  | reRegister (record : ServerRecord) (held : record ∈ registry.table.rows) (spelled : parseUuid id = some record.id)
      (status : response.serverStatus = record.status) (action : response.action = .reRegister)
      (same : next = registry)
  | recorded (record : ServerRecord) (held : record ∈ registry.table.rows) (spelled : parseUuid id = some record.id)
      (moved : transition record.status .heartbeat = some .active) (status : response.serverStatus = .active)
      (action : response.action = correctiveAction request record)
      (hash : response.capabilityHash = (service.beatenRow request context record).capabilityHash)
      (rows : next.table.rows = ServerTable.modifyRow registry.table.rows record.id fun _ =>
        service.beatenRow request context record)
      (announces : Announces service registry next record)
      (index : next.index = match service.refreshedTools request context record with
        | none => registry.index
        | some _ => registry.index.replaceServer record.id (service.beatenRow request context record))

theorem correctiveAction_ne (request : HeartbeatRequest) (record : ServerRecord) :
    correctiveAction request record ≠ .reRegister := by
  unfold correctiveAction
  split_ifs <;> simp

theorem Service.finishHeartbeat_cases {status : ServerStatus} {request : HeartbeatRequest} {context : HeartbeatContext}
    {response : HeartbeatResponse} {touched : Time} (bigint : -2 ^ 63 ≤ record.leaseEpoch ∧ record.leaseEpoch < 2 ^ 63)
    (held : heartbeatRow (statusRow record .active touched) context.now ∈ registry.table.rows)
    (finished : service.finishHeartbeat registry record status request context = (response, next)) :
    response.serverStatus = status ∧ response.action = correctiveAction request record ∧
      response.capabilityHash = (service.beatenRow request context record).capabilityHash ∧
      registry.published ⊆ next.published ∧ next.table.rows = ServerTable.modifyRow registry.table.rows record.id
        (fun _ => service.beatenRow request context record) ∧
      next.index = match service.refreshedTools request context record with
        | none => registry.index
        | some _ => registry.index.replaceServer record.id (service.beatenRow request context record) := by
  unfold Service.beatenRow
  cases refreshed : service.refreshedTools request context record with
  | none =>
    have failed : service.attemptRefresh registry record request context = none := by
      unfold Service.attemptRefresh
      split_ifs with attempted
      · rw [Service.refreshedTools, if_pos attempted] at refreshed
        exact Service.refreshCapabilities_none refreshed
      · rfl
    rw [Service.finishHeartbeat, failed] at finished
    cases finished
    simp only [Service.heartbeatResponse, true_and]
    refine ⟨rfl, List.Subset.refl _, ?_, trivial⟩
    exact (registry.table.modifyRow_self held).symm
  | some toolNames =>
    have changes := Service.refreshes_of_tools refreshed
    have attempted : (hashChanged request record && service.refreshEnabled) = true := by
      simp [changes.changed, changes.enabled]
    rw [Service.refreshedTools, if_pos attempted] at refreshed
    have same : record.id = (heartbeatRow (statusRow record .active touched) context.now).id := rfl
    obtain ⟨after, ran, kept, rows, index⟩ := Service.refreshCapabilities_some _ refreshed held same rfl bigint
    rw [Service.finishHeartbeat, Service.attemptRefresh, if_pos attempted, ran] at finished
    cases finished
    simp only [Service.heartbeatResponse, true_and]
    refine ⟨?_, kept, rows, index⟩
    exact (trimSpace_trimSpace _).symm

theorem Service.recordHeartbeat_cases {request : HeartbeatRequest} {context : HeartbeatContext}
    {result : Except ServiceError HeartbeatResponse} (held : record ∈ registry.table.rows)
    (spelled : parseUuid id = some record.id)
    (recorded : service.recordHeartbeat registry id record request context = (result, next)) :
    (transition record.status .heartbeat = none ∧ (∃ error, result = .error error) ∧ next = registry) ∨
      ∃ response, result = .ok response ∧ response.action ≠ .reRegister ∧
        Beaten service registry next id request context response := by
  unfold Service.recordHeartbeat at recorded
  split at recorded
  next error after applied =>
    cases recorded
    rcases Service.applyHeartbeatTransition_cases held spelled applied with ⟨stuck, _, same⟩ | ⟨_, moved, _⟩
    · exact .inl ⟨stuck, ⟨error, rfl⟩, same⟩
    · cases moved
  next status after applied =>
    rcases Service.applyHeartbeatTransition_cases held spelled applied with
      ⟨_, ⟨_, failed⟩, _⟩ | ⟨allowed, moved, index, announces, touched, rows⟩
    · cases failed
    cases moved
    obtain ⟨table, updated, beaten⟩ := after.table.modify_total spelled
      (fun row => heartbeatRow row context.now) (fun _ => rfl) (fun _ _ _ => rfl) after.table.bigintEpochs
    rw [ServerTable.updateHeartbeat, updated] at recorded
    dsimp only at recorded
    have written : table.rows = ServerTable.modifyRow registry.table.rows record.id fun _ =>
        heartbeatRow (statusRow record .active touched) context.now := by
      rw [beaten, rows, ServerTable.modifyRow_const_comp _ (statusRow_id _ _ _)]
    have stored : heartbeatRow (statusRow record .active touched) context.now ∈ table.rows := by
      rw [written]
      exact ServerTable.mem_modifyRow_self held _
    cases finished : service.finishHeartbeat { after with table := table } record .active request context with
    | mk response final =>
      rw [finished] at recorded
      cases recorded
      obtain ⟨status, action, hash, kept, again, refiled⟩ := Service.finishHeartbeat_cases
        (registry.table.bigintEpochs record held) stored finished
      have announced : Announces service registry final record :=
        ⟨List.Subset.trans announces.kept kept, fun broadcasting moved => kept (announces.moved broadcasting moved)⟩
      have acts : response.action ≠ .reRegister := by
        rw [action]
        exact correctiveAction_ne request record
      refine .inr ⟨response, rfl, acts, .recorded record held spelled allowed status action hash ?_ announced ?_⟩
      · rw [again, written]
        exact ServerTable.modifyRow_const_comp _ (by simp) _
      · rw [refiled, ← index]

theorem Service.heartbeat_cases {request : HeartbeatRequest} {context : HeartbeatContext}
    {result : Except ServiceError HeartbeatResponse}
    (called : service.heartbeat registry caller id request context = (result, next)) :
    ((∃ error, result = .error error) ∧ next = registry) ∨
      ∃ response, result = .ok response ∧ Beaten service registry next id request context response := by
  unfold Service.heartbeat at called
  split at called
  next error refused =>
    cases called
    exact .inl ⟨⟨error, rfl⟩, rfl⟩
  next record found =>
    obtain ⟨held, spelled⟩ := heartbeatRecord_ok found
    split_ifs at called
    · cases called
      exact .inr ⟨_, rfl, .reRegister record held spelled (by simp) (by simp) rfl⟩
    · rcases Service.recordHeartbeat_cases held spelled called with failed | ⟨response, same, _, beaten⟩
      · exact .inl failed.2
      · exact .inr ⟨response, same, beaten⟩

theorem Service.heartbeat_owner {request : HeartbeatRequest} {context : HeartbeatContext} {response : HeartbeatResponse}
    (called : service.heartbeat registry caller id request context = (.ok response, next))
    (held : record ∈ registry.table.rows) (spelled : parseUuid id = some record.id) :
    ∃ identity, caller = some identity ∧ record.spiffeId = identity.id := by
  unfold Service.heartbeat at called
  split at called
  · cases called
  next found =>
    obtain ⟨present, named⟩ := heartbeatRecord_ok found
    rw [spelled] at named
    rw [registry.table.row_unique held present (Option.some.inj named)]
    exact heartbeatRecord_own found

theorem Service.deregister_cases {result : Except ServiceError Unit}
    (called : service.deregister registry caller id = (result, next)) :
    ((∃ error, result = .error error) ∧ next = registry) ∨
      (result = .ok () ∧ next.index = registry.index ∧ registry.published ⊆ next.published ∧
        ∃ record ∈ registry.table.rows, parseUuid id = some record.id ∧
          next.table.rows = registry.table.rows.filter (fun row => row.id ≠ record.id) ∧
          (service.broadcasting = true → .registryUpdated .deregistered record.id ∈ next.published)) := by
  unfold Service.deregister at called
  split_ifs at called
  · cases called
    exact .inl ⟨⟨_, rfl⟩, rfl⟩
  split at called
  · cases called
    exact .inl ⟨⟨_, rfl⟩, rfl⟩
  split at called
  · cases called
    exact .inl ⟨⟨_, rfl⟩, rfl⟩
  · cases called
    exact .inl ⟨⟨_, rfl⟩, rfl⟩
  next record got =>
    obtain ⟨held, spelled⟩ := (registry.table.get_eq_ok_iff id record).mp got
    split_ifs at called
    · cases called
      exact .inl ⟨⟨_, rfl⟩, rfl⟩
    split at called
    · cases called
      exact .inl ⟨⟨_, rfl⟩, rfl⟩
    next table deleted =>
      obtain ⟨key, parsed, rows⟩ := ServerTable.delete_ok deleted
      rw [spelled] at parsed
      cases parsed
      cases called
      exact .inr ⟨rfl, by simp, service.publish_kept { registry with table := table } _, record, held, spelled,
        by rw [Service.publish_table, rows], fun broadcasting => service.publish_sent broadcasting _ _⟩

end

end McpGateway.Registration
