import McpGateway.Policy.Classification
import McpGateway.Registration.Index
import McpGateway.Shared.Digest
import McpGateway.Shared.GoJson
import McpGateway.Store.ServerStore

namespace McpGateway.Registration

open Shared Store Policy

inductive Event where
  | heartbeat | heartbeatMissed | expired | approved | deregistered
  deriving DecidableEq

def transition : ServerStatus → Event → Option ServerStatus
  | .pending, .approved => some .approved
  | .pending, .heartbeat => some .active
  | .pending, .expired => some .expired
  | .approved, .heartbeat => some .active
  | .approved, .expired => some .expired
  | .active, .heartbeat => some .active
  | .active, .heartbeatMissed => some .stale
  | .active, .expired => some .expired
  | .stale, .heartbeat => some .active
  | .stale, .heartbeatMissed => some .expired
  | .stale, .expired => some .expired
  | .pending, .deregistered => some .expired
  | .approved, .deregistered => some .expired
  | .active, .deregistered => some .expired
  | .stale, .deregistered => some .expired
  | .expired, .deregistered => some .expired
  | .expired, .heartbeatMissed => some .expired
  | .expired, .expired => some .expired
  | _, _ => none

theorem transition_heartbeat {status next : ServerStatus} (moved : transition status .heartbeat = some next) :
    next = .active := by
  cases status <;> simp_all [transition]

structure ListenConfig where
  host : String
  port : Int
  protocol : String

structure RegistrationRequest where
  serviceName : String
  version : String
  listen : ListenConfig
  capabilities : Capability

inductive ServiceError where
  | invalidRequest (detail : String)
  | unauthorized
  | forbidden (detail : String)
  | notFound
  | store (operation : String) (cause : StoreError)
  deriving DecidableEq

def isAlphanumeric (c : Char) : Bool :=
  ('a' ≤ c && c ≤ 'z') || ('A' ≤ c && c ≤ 'Z') || ('0' ≤ c && c ≤ '9')

def matchesServiceName (name : String) : Bool :=
  match name.toList with
  | [] => false
  | head :: tail =>
    isAlphanumeric head && tail.length ≤ 62 && tail.all fun c => isAlphanumeric c || c == '_' || c == '.' || c == '-'

structure Admission where
  hostError : String → Option String
  spiffeIdError : String → Option String

def validateCapabilityNames (kind : String) (names : List String) : Except String Unit :=
  if names.any (fun name => trimSpace name = "") then
    .error ("capabilities." ++ kind ++ " cannot contain empty names")
  else .ok ()

def RegistrationRequest.validate (admission : Admission) (request : RegistrationRequest) : Except String Unit := do
  if !matchesServiceName (trimSpace request.serviceName) then throw "invalid service_name format"
  let host := trimSpace request.listen.host
  if host = "" then throw "listen.host is required"
  if let some detail := admission.hostError host then throw ("listen.host: " ++ detail)
  if request.listen.port < 1 ∨ 65535 < request.listen.port then throw "listen.port must be between 1 and 65535"
  let protocol := trimSpace (toLower request.listen.protocol)
  if protocol ≠ "" ∧ protocol ≠ "http" ∧ protocol ≠ "https" then
    throw "listen.protocol must be http or https when provided"
  if request.capabilities.tools = [] ∧ request.capabilities.resources = [] ∧ request.capabilities.prompts = [] then
    throw "at least one capability must be provided"
  validateCapabilityNames "tools" request.capabilities.tools
  validateCapabilityNames "resources" request.capabilities.resources
  validateCapabilityNames "prompts" request.capabilities.prompts

def validateSPIFFEID (admission : Admission) (id : String) (allowedPrefixes : List String) : Except String Unit :=
  match admission.spiffeIdError id with
  | some detail => .error ("validate spiffe id: " ++ detail)
  | none =>
    if allowedPrefixes = [] then .ok ()
    else if allowedPrefixes.any (fun allowed => trimSpace allowed ≠ "" && hasPrefix id (trimSpace allowed)) then .ok ()
    else .error ("validate spiffe id: " ++ quote id ++ " does not match allowed prefixes")

structure Config where
  heartbeatTTL : Int
  rateDefault : Int
  rateBurst : Int
  capabilityRefreshEnabled : Bool
  -- The sweeper's product of it is a time.Duration.
  heartbeatTTL_lt : 3 * heartbeatTTL < 2 ^ 63

inductive RegistrationEventType where
  | registered | statusChanged | deregistered
  deriving DecidableEq

inductive Broadcast where
  | registryUpdated (eventType : RegistrationEventType) (serverId : String)
  | classificationUpdated (toolName : String) (riskLevel : RiskLevel) (updatedBy : String)
  | capabilitiesChanged (serverId hash : String) (toolCount : Nat)
  deriving DecidableEq

def marshalCapability (capability : Capability) : String :=
  "\x7b\"tools\":" ++ marshalStrings capability.tools ++ ",\"resources\":" ++ marshalStrings capability.resources ++
    ",\"prompts\":" ++ marshalStrings capability.prompts ++ "\x7d"

def hashCapabilities (capability : Capability) : String :=
  hexEncode (Sha256.sum (utf8Bytes (marshalCapability
    ⟨sortStrings capability.tools, sortStrings capability.resources, sortStrings capability.prompts⟩)))

structure Service where
  config : Option Config
  admission : Admission
  spiffeAllowList : List String
  settingsVersion : Int
  effectiveSettings : GoMap String Object
  broadcasting : Bool
  toolListing : Bool
  indexed : Bool
  hashCapabilities : Capability → String

structure Registry where
  table : ServerTable
  classifications : Option ClassificationTable
  index : CapabilityIndex
  published : List Broadcast

def defaultPolicyProfile (config : Option Config) : PolicyProfile where
  name := "default"
  rateLimit := match config with
    | some config => if 0 < config.rateDefault then config.rateDefault else 10
    | none => 10
  rateBurst := match config with
    | some config => if 0 < config.rateBurst then config.rateBurst else 20
    | none => 20
  toolAllowlist := []
  toolDenylist := []
  enforcementMode := .enforce

def heartbeatIntervalSeconds (config : Option Config) : Int :=
  match config with
  | none => 30
  | some config =>
    if config.heartbeatTTL ≤ 0 then 30
    else if config.heartbeatTTL / second ≤ 0 then 1
    else config.heartbeatTTL / second

-- Go ranges over the settings in any order; the entry list is one such order.
mutual

def cloneSettings (cloned : Object) : Object → Object
  | [] => cloned
  | (key, value) :: rest =>
    if trimSpace key = "" then cloneSettings cloned rest
    else cloneSettings (assign cloned (trimSpace key) (cloneSetting value)) rest

def cloneSetting : Value → Value
  | .object entries => .object (cloneSettings [] entries)
  | .array items => .array (cloneItems items)
  | .null => .null
  | .bool value => .bool value
  | .number value => .number value
  | .string value => .string value

def cloneItems : List Value → List Value
  | [] => []
  | .object entries :: rest => .object (cloneSettings [] entries) :: cloneItems rest
  | item :: rest => item :: cloneItems rest

end

def Service.effectiveSettingsForServer (service : Service) (serverName : String) : Int × Object :=
  match service.effectiveSettings.lookup (trimSpace serverName) with
  | some settings => (service.settingsVersion, cloneSettings [] settings)
  | none => (service.settingsVersion, [])

def nextLeaseEpoch (current : Int) : Int :=
  if current ≤ 0 then 1 else Int.bmod (current + 1) (2 ^ 64)

def normalizedListenProtocol (raw : String) : String :=
  let protocol := toLower (trimSpace raw)
  if protocol = "http" ∨ protocol = "https" then protocol else "https"

def Service.publish (service : Service) (registry : Registry) (message : Broadcast) : Registry :=
  if service.broadcasting then { registry with published := registry.published ++ [message] } else registry

def autoClassification (name callerId : String) (now : Time) : ToolClassification :=
  let (riskLevel, reason) := autoClassify name ""
  { toolName := name, riskLevel := riskLevel, reason := reason, autoClassified := true,
    updatedBy := callerId, updatedAt := now }

def Service.classifyTool (service : Service) (callerId : String) (now : Time) (registry : Registry) (toolName : String) :
    Registry :=
  match registry.classifications with
  | none => registry
  | some table =>
    if trimSpace toolName = "" then registry
    else if (table.get (trimSpace toolName)).any fun old => !old.autoClassified then registry
    else
      let classification := autoClassification (trimSpace toolName) callerId now
      service.publish { registry with classifications := some (table.upsert classification) }
        (.classificationUpdated (trimSpace toolName) classification.riskLevel callerId)

def Service.classifyNewTools (service : Service) (registry : Registry) (capabilities : Capability) (callerId : String)
    (now : Time) : Registry :=
  capabilities.tools.foldl (service.classifyTool callerId now) registry

structure RegistrationResponse where
  instanceId : String
  registrationId : String
  leaseEpoch : Int
  capabilityHash : String
  syncState : RegistrationSyncState
  lastPlatformAckVersion : String
  policySnapshot : PolicyProfile
  heartbeatInterval : Int
  heartbeatIntervalSeconds : Int
  configVersion : Int
  effectiveSettings : Object
  status : ServerStatus

structure RegisterContext where
  now : Time
  generated : String
  assigned : String

def Service.newRecord (service : Service) (callerId : String) (request : RegistrationRequest)
    (context : RegisterContext) : ServerRecord where
  id := context.generated
  name := trimSpace request.serviceName
  spiffeId := callerId
  version := trimSpace request.version
  host := trimSpace request.listen.host
  port := request.listen.port
  protocol := normalizedListenProtocol request.listen.protocol
  capabilities := request.capabilities
  status := .active
  policyProfile := (defaultPolicyProfile service.config).name
  lastHeartbeat := none
  leaseEpoch := 1
  capabilityHash := service.hashCapabilities request.capabilities
  syncState := .unacked
  lastPlatformAckVersion := ""
  lastPlatformAckAt := none
  rateLimit := none
  rateBurst := none
  routingStrategy := ""
  createdAt := context.now
  updatedAt := context.now

def Service.postRegister (service : Service) (registry : Registry) (record : ServerRecord) (now : Time) : Registry :=
  service.classifyNewTools (service.publish registry (.registryUpdated .registered record.id)) record.capabilities
    record.spiffeId now

def Service.registrationResponse (service : Service) (record : ServerRecord) : RegistrationResponse where
  instanceId := record.id
  registrationId := record.id
  leaseEpoch := record.leaseEpoch
  capabilityHash := record.capabilityHash
  syncState := record.syncState
  lastPlatformAckVersion := record.lastPlatformAckVersion
  policySnapshot := defaultPolicyProfile service.config
  heartbeatInterval := heartbeatIntervalSeconds service.config
  heartbeatIntervalSeconds := heartbeatIntervalSeconds service.config
  configVersion := (service.effectiveSettingsForServer record.name).1
  effectiveSettings := (service.effectiveSettingsForServer record.name).2
  status := record.status

def renewedRecord (record old : ServerRecord) : ServerRecord :=
  { record with
    id := old.id
    createdAt := old.createdAt
    leaseEpoch := nextLeaseEpoch old.leaseEpoch }

def Service.writeRegistration (service : Service) (table : ServerTable) (callerId : String)
    (request : RegistrationRequest) (context : RegisterContext) : Except ServiceError (ServerRecord × ServerTable) :=
  match table.getBySPIFFEID callerId with
  | .ok old =>
    match table.update (renewedRecord (service.newRecord callerId request context) old) context.now with
    | .ok table => .ok (renewedRecord (service.newRecord callerId request context) old, table)
    | .error cause => .error (.store "update existing registration" cause)
  | .error .noRows =>
    match table.create (service.newRecord callerId request context) context.assigned context.now with
    | .ok table => .ok (service.newRecord callerId request context, table)
    | .error cause => .error (.store "create registration" cause)
  | .error cause => .error (.store "lookup by spiffe id" cause)

def Service.admit (service : Service) (caller : Option Identity) (request : RegistrationRequest) :
    Except ServiceError Identity :=
  match caller with
  | none => .error .unauthorized
  | some caller =>
    if caller.type ≠ .mtls then .error .unauthorized
    else
      match request.validate service.admission with
      | .error detail => .error (.invalidRequest detail)
      | .ok _ =>
        match validateSPIFFEID service.admission caller.id service.spiffeAllowList with
        | .error detail => .error (.forbidden detail)
        | .ok _ => .ok caller

def Service.register (service : Service) (registry : Registry) (caller : Option Identity)
    (request : RegistrationRequest) (context : RegisterContext) :
    Except ServiceError RegistrationResponse × Registry :=
  match service.admit caller request with
  | .error error => (.error error, registry)
  | .ok caller =>
    match service.writeRegistration registry.table caller.id request context with
    | .error error => (.error error, registry)
    | .ok (record, table) =>
      (.ok (service.registrationResponse record),
        service.postRegister { registry with table := table } record context.now)

section

variable (service : Service)

variable (registry : Registry) (message : Broadcast)

@[simp] theorem Service.publish_table : (service.publish registry message).table = registry.table := by
  unfold Service.publish
  split_ifs <;> rfl

@[simp] theorem Service.publish_index : (service.publish registry message).index = registry.index := by
  unfold Service.publish
  split_ifs <;> rfl

theorem Service.publish_kept : registry.published ⊆ (service.publish registry message).published := by
  unfold Service.publish
  split_ifs
  · exact List.subset_append_left _ _
  · exact List.Subset.refl _

theorem Service.publish_sent (broadcasting : service.broadcasting = true) (registry : Registry) (message : Broadcast) :
    message ∈ (service.publish registry message).published := by
  rw [Service.publish, if_pos broadcasting]
  simp

theorem Service.classifyTool_frame (callerId : String) (now : Time) (registry : Registry) (toolName : String) :
    (service.classifyTool callerId now registry toolName).table = registry.table ∧
      (service.classifyTool callerId now registry toolName).index = registry.index ∧
      registry.published ⊆ (service.classifyTool callerId now registry toolName).published := by
  unfold Service.classifyTool
  split
  · exact ⟨rfl, rfl, List.Subset.refl _⟩
  next table _ =>
    split_ifs
    · exact ⟨rfl, rfl, List.Subset.refl _⟩
    · exact ⟨rfl, rfl, List.Subset.refl _⟩
    · refine ⟨Service.publish_table _ _ _, Service.publish_index _ _ _, ?_⟩
      exact service.publish_kept { registry with classifications := some (table.upsert _) } _

theorem Service.classifyNewTools_frame (capabilities : Capability) (callerId : String) (now : Time) :
    (service.classifyNewTools registry capabilities callerId now).table = registry.table ∧
      (service.classifyNewTools registry capabilities callerId now).index = registry.index ∧
      registry.published ⊆ (service.classifyNewTools registry capabilities callerId now).published := by
  unfold Service.classifyNewTools
  induction capabilities.tools generalizing registry with
  | nil => exact ⟨rfl, rfl, List.Subset.refl _⟩
  | cons toolName rest ih =>
    obtain ⟨table, index, kept⟩ := service.classifyTool_frame callerId now registry toolName
    obtain ⟨laterTable, laterIndex, laterKept⟩ := ih (service.classifyTool callerId now registry toolName)
    exact ⟨laterTable.trans table, laterIndex.trans index, List.Subset.trans kept laterKept⟩

@[simp] theorem Service.postRegister_table (record : ServerRecord) (now : Time) :
    (service.postRegister registry record now).table = registry.table := by
  rw [Service.postRegister, (service.classifyNewTools_frame _ _ _ _).1, Service.publish_table]

@[simp] theorem Service.postRegister_index (record : ServerRecord) (now : Time) :
    (service.postRegister registry record now).index = registry.index := by
  rw [Service.postRegister, (service.classifyNewTools_frame _ _ _ _).2.1, Service.publish_index]

theorem Service.postRegister_kept (record : ServerRecord) (now : Time) :
    registry.published ⊆ (service.postRegister registry record now).published :=
  List.Subset.trans (service.publish_kept registry _) (service.classifyNewTools_frame _ _ _ _).2.2

theorem Service.postRegister_sent (broadcasting : service.broadcasting = true) (registry : Registry)
    (record : ServerRecord) (now : Time) :
    .registryUpdated .registered record.id ∈ (service.postRegister registry record now).published :=
  (service.classifyNewTools_frame _ _ _ _).2.2 (service.publish_sent broadcasting registry _)

variable {caller : Option Identity} {identity : Identity} {callerId : String} {record : ServerRecord}
  {table : ServerTable}

theorem Service.admit_ok_iff {request : RegistrationRequest} : service.admit caller request = .ok identity ↔
      caller = some identity ∧ identity.type = .mtls ∧ request.validate service.admission = .ok () ∧
        validateSPIFFEID service.admission identity.id service.spiffeAllowList = .ok () := by
  unfold Service.admit
  cases caller with
  | none => simp
  | some caller =>
    by_cases mtls : caller.type = .mtls
    · cases checked : request.validate service.admission with
      | error detail => simp [mtls]
      | ok =>
        cases allowed : validateSPIFFEID service.admission caller.id service.spiffeAllowList with
        | error detail =>
          simp only [mtls, allowed, ne_eq, not_true, if_false, reduceCtorEq, false_iff]
          rintro ⟨same, _, _, valid⟩
          cases same
          simp [allowed] at valid
        | ok =>
          simp only [mtls, allowed, ne_eq, not_true, if_false, Except.ok.injEq, Option.some.injEq]
          exact ⟨fun same => ⟨same, same ▸ mtls, trivial, same ▸ allowed⟩, And.left⟩
    · simp only [ne_eq, mtls, not_false_eq_true, if_true, reduceCtorEq, false_iff]
      rintro ⟨same, typed, _⟩
      cases same
      exact mtls typed

theorem Service.admit_ok {request : RegistrationRequest} (admitted : service.admit caller request = .ok identity) :
    caller = some identity ∧ identity.type = .mtls :=
  (service.admit_ok_iff.mp admitted).imp_right And.left

structure StoredRow (callerId : String) (request : RegistrationRequest) (record stored : ServerRecord) : Prop where
  named : stored.name = trimSpace request.serviceName
  own : stored.spiffeId = callerId
  active : stored.status = .active
  capabilities : stored.capabilities = request.capabilities
  epoch : stored.leaseEpoch = maxInt64 record.leaseEpoch 1
  hash : stored.capabilityHash = trimSpace record.capabilityHash
  unbeaten : stored.lastHeartbeat = none
  unacked : stored.syncState = .unacked

theorem StoredRow.keys {request : RegistrationRequest} {stored : ServerRecord}
    (row : StoredRow callerId request record stored) : stored.toolKeys = capabilityKeys request.capabilities.tools ∧
      stored.resourceKeys = capabilityKeys request.capabilities.resources := by
  rw [ServerRecord.toolKeys, ServerRecord.resourceKeys, row.capabilities]
  exact ⟨rfl, rfl⟩

inductive Written (table : ServerTable) (callerId : String) (request : RegistrationRequest)
    (context : RegisterContext) (record : ServerRecord) (next : ServerTable) : Prop where
  | updated (old stored : ServerRecord) (row : StoredRow callerId request record stored)
      (held : old ∈ table.rows) (own : old.spiffeId = callerId) (sameId : stored.id = old.id)
      (returnedId : record.id = old.id) (epoch : record.leaseEpoch = nextLeaseEpoch old.leaseEpoch)
      (rows : next.rows = ServerTable.modifyRow table.rows old.id fun _ => stored)
  | created (stored : ServerRecord) (row : StoredRow callerId request record stored)
      (absent : ∀ row ∈ table.rows, row.spiffeId ≠ callerId) (assignedId : stored.id = context.assigned)
      (returnedId : record.id = context.generated) (epoch : record.leaseEpoch = 1)
      (rows : next.rows = table.rows ++ [stored])

theorem Service.updatedRow_stored (old : ServerRecord) (callerId : String) (request : RegistrationRequest)
    (context : RegisterContext) :
    StoredRow callerId request (renewedRecord (service.newRecord callerId request context) old)
      (updatedRow old (renewedRecord (service.newRecord callerId request context) old) context.now) :=
  ⟨rfl, rfl, rfl, rfl, rfl, rfl, rfl, rfl⟩

theorem Service.insertedRow_stored (callerId : String) (request : RegistrationRequest) (context : RegisterContext) :
    StoredRow callerId request (service.newRecord callerId request context)
      (insertedRow (service.newRecord callerId request context) context.assigned context.now) :=
  ⟨rfl, rfl, rfl, rfl, rfl, rfl, rfl, rfl⟩

theorem Service.writeRegistration_cases {next : ServerTable} {request : RegistrationRequest} {context : RegisterContext}
    (written : service.writeRegistration table callerId request context = .ok (record, next)) :
    record.status = .active ∧ Written table callerId request context record next := by
  unfold Service.writeRegistration at written
  split at written
  next old found =>
    obtain ⟨held, own⟩ := (table.getBySPIFFEID_eq_ok_iff callerId old).mp found
    split at written
    next table updated =>
      cases written
      obtain ⟨key, parsed, rows⟩ := ServerTable.modify_ok updated
      have same : some old.id = some key := (ServerTable.canonicalIds _ old held).symm.trans parsed
      cases same
      rw [ServerTable.modifyRow_const _ held] at rows
      exact ⟨rfl, .updated old _ (service.updatedRow_stored old callerId request context) held own
        (updatedRow_id _ _ _) rfl rfl rows⟩
    next => cases written
  next missing =>
    split at written
    next table created =>
      cases written
      exact ⟨rfl, .created _ (service.insertedRow_stored callerId request context)
        (ServerTable.getBySPIFFEID_error _ missing).2 (insertedRow_id _ _ _) rfl rfl (ServerTable.create_ok created)⟩
    next => cases written
  next => cases written

theorem nextLeaseEpoch_bigint (current : Int) :
    -2 ^ 63 ≤ maxInt64 (nextLeaseEpoch current) 1 ∧ maxInt64 (nextLeaseEpoch current) 1 < 2 ^ 63 := by
  have low := Int.le_bmod (x := current + 1) (m := 2 ^ 64) (by decide)
  have high := Int.bmod_lt (x := current + 1) (m := 2 ^ 64) (by decide)
  unfold maxInt64 nextLeaseEpoch
  split_ifs <;> omega

theorem Service.writeRegistration_renews {old : ServerRecord}
    (found : table.getBySPIFFEID callerId = .ok old) (request : RegistrationRequest) (context : RegisterContext) :
    ∃ record next, service.writeRegistration table callerId request context = .ok (record, next) := by
  obtain ⟨held, own⟩ := (table.getBySPIFFEID_eq_ok_iff callerId old).mp found
  obtain ⟨next, updated, _⟩ := table.modify_total (table.canonicalIds old held)
    (fun row => updatedRow row (renewedRecord (service.newRecord callerId request context) old) context.now)
    (fun _ => rfl) (fun row mem same => by rw [table.row_unique mem held same]; exact own.symm)
    (fun _ _ => nextLeaseEpoch_bigint old.leaseEpoch)
  have ran : table.update (renewedRecord (service.newRecord callerId request context) old) context.now = .ok next :=
    updated
  refine ⟨renewedRecord (service.newRecord callerId request context) old, next, ?_⟩
  simp only [Service.writeRegistration, found, ran]

theorem Service.register_ok {registry next : Registry} {request : RegistrationRequest} {context : RegisterContext}
    {reply : RegistrationResponse}
    (registered : service.register registry caller request context = (.ok reply, next)) :
    ∃ identity record table, service.admit caller request = .ok identity ∧ record.status = .active ∧
      Written registry.table identity.id request context record table ∧ reply = service.registrationResponse record ∧
      next = service.postRegister { registry with table := table } record context.now := by
  unfold Service.register at registered
  split at registered
  · cases registered
  next identity admitted =>
    split at registered
    · cases registered
    next record table written =>
      cases registered
      obtain ⟨active, outcome⟩ := service.writeRegistration_cases written
      exact ⟨identity, record, table, admitted, active, outcome, rfl, rfl⟩

theorem Service.writeRegistration_ok {next : ServerTable} {request : RegistrationRequest} {context : RegisterContext}
    (written : service.writeRegistration table callerId request context = .ok (record, next)) :
    record.name = trimSpace request.serviceName ∧
      record.capabilityHash = service.hashCapabilities request.capabilities := by
  unfold Service.writeRegistration at written
  split at written
  all_goals
    first
    | split at written <;> cases written <;> exact ⟨rfl, rfl⟩
    | cases written

theorem Service.register_hash {registry next : Registry} {request : RegistrationRequest} {context : RegisterContext}
    {reply : RegistrationResponse}
    (registered : service.register registry caller request context = (.ok reply, next)) :
    reply.capabilityHash = service.hashCapabilities request.capabilities := by
  unfold Service.register at registered
  split at registered
  · cases registered
  · split at registered
    · cases registered
    next written =>
      cases registered
      exact (service.writeRegistration_ok written).2

theorem Service.register_error {registry next : Registry} {request : RegistrationRequest} {context : RegisterContext}
    {error : ServiceError} (failed : service.register registry caller request context = (.error error, next)) :
    next = registry := by
  unfold Service.register at failed
  split at failed
  · cases failed
    rfl
  · split at failed
    · cases failed
      rfl
    · cases failed

end

end McpGateway.Registration
