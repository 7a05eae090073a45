import McpGateway.Registration.Sweeper

namespace McpGateway.Registration

open Shared Store

/-- What a backend may rely on after registering: the id and epoch it was given are those of its row,
and a heartbeat that names them is recorded. -/
structure Usable (service : Service) (registry : Registry) (caller : Identity) (instanceId : String)
    (leaseEpoch : Int) : Prop where
  stored : ∃ row ∈ registry.table.rows, row.spiffeId = caller.id ∧ row.id = instanceId ∧ row.leaseEpoch = leaseEpoch
  accepted : ∀ hash context, ∃ reply,
    (service.heartbeat registry (some caller) instanceId ⟨instanceId, leaseEpoch, hash⟩ context).1 = .ok reply ∧
      reply.action ≠ .reRegister

section

variable {service : Service} {registry next : Registry} {caller : Identity}

theorem resolveHeartbeatAction_own (record : ServerRecord) (spelled : parseUuid record.id = some record.id)
    (hash : String) : resolveHeartbeatAction ⟨record.id, record.leaseEpoch, hash⟩ record = .none := by
  simp [resolveHeartbeatAction, trimSpace_uuid spelled]

theorem Service.heartbeat_own {record : ServerRecord} (held : record ∈ registry.table.rows)
    (own : record.spiffeId = caller.id) (mtls : caller.type = .mtls) (active : record.status = .active)
    (hash : String) (context : HeartbeatContext) :
    ∃ reply, (service.heartbeat registry (some caller) record.id ⟨record.id, record.leaseEpoch, hash⟩ context).1 =
      .ok reply ∧ reply.action ≠ .reRegister := by
  have spelled := registry.table.canonicalIds record held
  have found : heartbeatRecord registry.table (some caller) record.id = .ok record := by
    have named : trimSpace record.id ≠ "" := by
      rw [trimSpace_uuid spelled]
      exact uuid_ne_empty spelled
    simp [heartbeatRecord, lookupHeartbeatRecord, named, mtls, registry.table.get_self held, own]
  have kept : resolveHeartbeatAction ⟨record.id, record.leaseEpoch, hash⟩ record ≠ .reRegister := by
    rw [resolveHeartbeatAction_own record spelled]
    simp
  cases recorded : service.recordHeartbeat registry record.id record ⟨record.id, record.leaseEpoch, hash⟩ context with
  | mk result after =>
    have called : service.heartbeat registry (some caller) record.id ⟨record.id, record.leaseEpoch, hash⟩ context =
        (result, after) := by
      rw [Service.heartbeat, found]
      simp only [kept, if_false, recorded]
    rw [called]
    rcases Service.recordHeartbeat_cases held spelled recorded with ⟨stuck, _⟩ | ⟨reply, same, action, _⟩
    · rw [active] at stuck
      cases stuck
    · exact ⟨reply, same, action⟩

theorem maxInt64_eq_iff (epoch : Int) : maxInt64 epoch 1 = epoch ↔ 1 ≤ epoch := by
  unfold maxInt64
  split_ifs <;> omega

theorem nextLeaseEpoch_positive_iff {current : Int} (bigint : -2 ^ 63 ≤ current ∧ current < 2 ^ 63) :
    1 ≤ nextLeaseEpoch current ↔ current ≠ 2 ^ 63 - 1 := by
  unfold nextLeaseEpoch
  split_ifs with low
  · constructor <;> intro _ <;> omega
  · by_cases top : current = 2 ^ 63 - 1
    · subst top
      decide
    · have fits : Int.bmod (current + 1) (2 ^ 64) = current + 1 := by
        apply Int.bmod_eq_of_le <;> omega
      rw [fits]
      constructor <;> intro _ <;> omega

theorem usable_iff {row : ServerRecord} (held : row ∈ next.table.rows) (own : row.spiffeId = caller.id)
    (mtls : caller.type = .mtls) (active : row.status = .active) (instanceId : String) (leaseEpoch : Int) :
    Usable service next caller instanceId leaseEpoch ↔ row.id = instanceId ∧ row.leaseEpoch = leaseEpoch := by
  constructor
  · intro usable
    obtain ⟨other, present, same, id, epoch⟩ := usable.stored
    obtain rfl := next.table.spiffeId_unique present held (same.trans own.symm)
    exact ⟨id, epoch⟩
  · rintro ⟨rfl, rfl⟩
    exact ⟨⟨row, held, own, rfl, rfl⟩, Service.heartbeat_own held own mtls active⟩

end

/-- A registration hands out a usable id and epoch exactly if it renews a row whose epoch can still be
counted up, or creates one for which the database happens to draw the gateway's own uuid. -/
theorem register_usable_iff (service : Service) (registry next : Registry) (caller : Identity)
    (request : RegistrationRequest) (context : RegisterContext) (reply : RegistrationResponse)
    (registered : service.register registry (some caller) request context = (.ok reply, next)) :
    Usable service next caller reply.instanceId reply.leaseEpoch ↔
      (∃ row ∈ registry.table.rows, row.spiffeId = caller.id ∧ row.leaseEpoch ≠ 2 ^ 63 - 1) ∨
        ((∀ row ∈ registry.table.rows, row.spiffeId ≠ caller.id) ∧ context.generated = context.assigned) := by
  obtain ⟨identity, record, table, admitted, _, written, rfl, rfl⟩ := service.register_ok registered
  obtain ⟨same, mtls⟩ := service.admit_ok admitted
  cases same
  cases written with
  | updated old stored row held own sameId returnedId epoch rows =>
    have written : stored ∈ table.rows := by
      rw [rows]
      exact ServerTable.mem_modifyRow_self held stored
    have pos := nextLeaseEpoch_positive_iff (registry.table.bigintEpochs old held)
    calc Usable service _ caller record.id record.leaseEpoch
        ↔ stored.id = record.id ∧ stored.leaseEpoch = record.leaseEpoch :=
          usable_iff (by simpa using written) row.own mtls row.active _ _
      _ ↔ old.leaseEpoch ≠ 2 ^ 63 - 1 := by
          rw [row.epoch, maxInt64_eq_iff, epoch, pos, and_iff_right (sameId.trans returnedId.symm)]
      _ ↔ _ := by
          constructor
          · exact fun counts => .inl ⟨old, held, own, counts⟩
          · rintro (⟨row, mem, same, counts⟩ | ⟨absent, _⟩)
            · obtain rfl := registry.table.spiffeId_unique mem held (same.trans own.symm)
              exact counts
            · exact absurd own (absent old held)
  | created stored row absent assignedId returnedId epoch rows =>
    have written : stored ∈ table.rows := by simp [rows]
    calc Usable service _ caller record.id record.leaseEpoch
        ↔ stored.id = record.id ∧ stored.leaseEpoch = record.leaseEpoch :=
          usable_iff (by simpa using written) row.own mtls row.active _ _
      _ ↔ context.generated = context.assigned := by
          rw [row.epoch, maxInt64_eq_iff, epoch, and_iff_left le_rfl, assignedId, returnedId, eq_comm]
      _ ↔ _ := by
          constructor
          · exact fun drawn => .inr ⟨absent, drawn⟩
          · rintro (⟨row, mem, same, _⟩ | ⟨_, drawn⟩)
            · exact absurd same (absent row mem)
            · exact drawn

namespace Sample

def service : Service where
  config := some ⟨30 * second, 10, 20, false, by decide⟩
  admission :=
    { hostError := fun host => if toLower host = "localhost" then some "localhost not allowed" else none
      spiffeIdError := fun id => if hasPrefix id "spiffe://" then none else some "parse spiffe id: invalid scheme" }
  spiffeAllowList := ["spiffe://cluster.local/"]
  settingsVersion := 0
  effectiveSettings := ∅
  broadcasting := true
  toolListing := false
  indexed := false
  hashCapabilities := hashCapabilities

def caller : Identity := ⟨.mtls, "spiffe://cluster.local/ns/tools/sa/k8s", [], ∅⟩

def request (tools : List String) : RegistrationRequest :=
  ⟨"mcp-k8s", "1.4.0", ⟨"10.0.3.7", 8443, "https"⟩, ⟨tools, [], []⟩⟩

def gatewayId : String := "7f1c2a34-5b6d-4e8f-9a0b-1c2d3e4f5061"

def rowId : String := "0d9b6a52-3c41-4f7e-8b2d-5e6f70819203"

def context : RegisterContext := ⟨100 * second, gatewayId, rowId⟩

def registry : Registry := ⟨.empty, some ∅, .new, []⟩

def registered : Registry := (service.register registry (some caller) (request ["list_pods"]) context).2

end Sample

open Sample

theorem register_again_usable : ∃ reply next,
      service.register Sample.registered (some caller) (request ["list_pods"]) context = (.ok reply, next) ∧
      Usable service next caller reply.instanceId reply.leaseEpoch := by
  have run : (match (service.register Sample.registered (some caller) (request ["list_pods"])
      context).1 with
    | .ok _ => true
    | .error _ => false) = true := by decide +kernel
  have held : ∃ row ∈ Sample.registered.table.rows, row.spiffeId = caller.id ∧ row.leaseEpoch ≠ 2 ^ 63 - 1 := by
    decide +kernel
  cases called : service.register Sample.registered (some caller) (request ["list_pods"])
    context with
  | mk result next =>
    rw [called] at run
    cases result with
    | error error => cases run
    | ok reply =>
      exact ⟨reply, next, rfl, (register_usable_iff _ _ _ _ _ _ _ called).mpr (.inl held)⟩

theorem first_registration_unusable : ∃ reply next,
      service.register registry (some caller) (request ["list_pods"]) context = (.ok reply, next) ∧
      (service.heartbeat next (some caller) reply.instanceId
        ⟨reply.instanceId, reply.leaseEpoch, ""⟩ ⟨130 * second, none⟩).1 = .error .notFound ∧
      ¬ Usable service next caller reply.instanceId reply.leaseEpoch := by
  have run : (match service.register registry (some caller) (request ["list_pods"])
      context with
    | (.ok reply, next) =>
      match (service.heartbeat next (some caller) reply.instanceId
          ⟨reply.instanceId, reply.leaseEpoch, ""⟩ ⟨130 * second, none⟩).1 with
      | .error error => error == .notFound
      | .ok _ => false
    | _ => false) = true := by decide +kernel
  split at run
  next reply next registered =>
    split at run
    next error refused =>
      have missing := eq_of_beq run
      subst missing
      refine ⟨reply, next, registered, refused, ?_⟩
      intro usable
      obtain ⟨beat, accepted, _⟩ := usable.accepted "" ⟨130 * second, none⟩
      rw [refused] at accepted
      cases accepted
    next => cases run
  next => cases run

def HeartbeatStored (next : Registry) (id : String) (reply : HeartbeatResponse) (now : Time) : Prop :=
  ∃ row ∈ next.table.rows, parseUuid id = some row.id ∧ row.status = reply.serverStatus ∧
    row.lastHeartbeat = some now ∧ row.capabilityHash = reply.capabilityHash

theorem Service.refreshedTools_ne_none_iff (service : Service) (request : HeartbeatRequest) (context : HeartbeatContext)
    (record : ServerRecord) : service.refreshedTools request context record ≠ none ↔
      service.Refreshes request context record ∧ service.indexed = true := by
  constructor
  · intro refreshed
    obtain ⟨toolNames, found⟩ := Option.ne_none_iff_exists'.mp refreshed
    refine ⟨Service.refreshes_of_tools found, ?_⟩
    unfold Service.refreshedTools Service.listedTools at found
    split_ifs at found with _ reachable
    simp_all
  · rintro ⟨refreshes, indexed⟩
    have enabled := refreshes.enabled
    rw [Service.refreshEnabled, Bool.and_eq_true] at enabled
    simp [Service.refreshedTools, Service.listedTools, refreshes.changed, refreshes.enabled, indexed, enabled.1,
      refreshes.fetched]

/-- A recorded heartbeat leaves the row its answer describes exactly if it does not refresh the tools, or
refreshes them over a row that was active and had its last heartbeat at the same time. -/
theorem heartbeat_stored_iff (service : Service) (registry next : Registry) (caller : Option Identity) (id : String)
    (request : HeartbeatRequest) (context : HeartbeatContext) (reply : HeartbeatResponse)
    (called : service.heartbeat registry caller id request context = (.ok reply, next))
    (recorded : reply.action ≠ .reRegister) : HeartbeatStored next id reply context.now ↔
      ∀ record ∈ registry.table.rows, parseUuid id = some record.id → service.Refreshes request context record →
        service.indexed = true → record.status = .active ∧ record.lastHeartbeat = some context.now := by
  rcases Service.heartbeat_cases called with ⟨⟨_, failed⟩, _⟩ | ⟨_, same, beaten⟩
  · cases failed
  cases same
  cases beaten with
  | reRegister _ _ _ _ action _ => exact absurd action recorded
  | recorded record held spelled _ status _ hash rows _ _ =>
    have only : ∀ other ∈ registry.table.rows, parseUuid id = some other.id → other = record := fun other mem named =>
      registry.table.row_unique mem held (Option.some.inj (named.symm.trans spelled))
    have stored : HeartbeatStored next id reply context.now ↔
        (service.beatenRow request context record).status = .active ∧
          (service.beatenRow request context record).lastHeartbeat = some context.now := by
      unfold HeartbeatStored
      rw [rows, status, hash]
      constructor
      · rintro ⟨row, mem, named, active, beat, _⟩
        rcases (ServerTable.mem_modifyRow _ _ _ _).mp mem with ⟨_, other⟩ | ⟨_, _, _, rfl⟩
        · exact absurd (Option.some.inj (named.symm.trans spelled)) other
        · exact ⟨active, beat⟩
      · rintro ⟨active, beat⟩
        exact ⟨_, ServerTable.mem_modifyRow_self held _, by rwa [Service.beatenRow_id], active, beat, rfl⟩
    rw [stored]
    cases refreshed : service.refreshedTools request context record with
    | none =>
      rw [Service.beatenRow_none refreshed]
      refine iff_of_true ⟨rfl, rfl⟩ fun other mem named refreshes indexed => ?_
      obtain rfl := only other mem named
      exact absurd refreshed ((service.refreshedTools_ne_none_iff request context other).mpr ⟨refreshes, indexed⟩)
    | some toolNames =>
      obtain ⟨refreshes, indexed⟩ := (service.refreshedTools_ne_none_iff request context record).mp (by simp [refreshed])
      rw [Service.beatenRow_some refreshed, updatedRow_status, updatedRow_lastHeartbeat, refreshedRecord]
      constructor
      · intro kept other mem named _ _
        obtain rfl := only other mem named
        exact kept
      · intro kept
        exact kept record held spelled refreshes indexed

namespace Sample

def refreshing : Service :=
  { service with config := some ⟨30 * second, 10, 20, true, by decide⟩, toolListing := true, indexed := true }

def grown : Capability := ⟨["list_pods", "get_pod"], [], []⟩

def beaten : Registry :=
  (refreshing.heartbeat registered (some caller) rowId ⟨rowId, 1, ""⟩ ⟨130 * second, none⟩).2

def stale : Registry :=
  { beaten with table := (sweep refreshing.config beaten.table beaten.index (200 * second)).table }

end Sample

theorem resumed_heartbeat_stored : ∃ reply next, refreshing.heartbeat stale (some caller) rowId ⟨rowId, 1, ""⟩
        ⟨210 * second, some ["list_pods"]⟩ = (.ok reply, next) ∧
      reply.action ≠ .reRegister ∧ HeartbeatStored next rowId reply (210 * second) := by
  have answered : (match (refreshing.heartbeat stale (some caller) rowId
      ⟨rowId, 1, ""⟩ ⟨210 * second, some ["list_pods"]⟩).1 with
    | .ok reply => reply.action != .reRegister
    | .error _ => false) = true := by decide +kernel
  cases called : refreshing.heartbeat stale (some caller) rowId ⟨rowId, 1, ""⟩
    ⟨210 * second, some ["list_pods"]⟩ with
  | mk result next =>
    rw [called] at answered
    cases result with
    | error error => cases answered
    | ok reply =>
      have recorded : reply.action ≠ .reRegister := by simpa using answered
      refine ⟨reply, next, rfl, recorded, ?_⟩
      refine (heartbeat_stored_iff _ _ _ _ _ _ _ _ called recorded).mpr fun record _ _ refreshes => ?_
      have unchanged : hashChanged ⟨rowId, 1, ""⟩ record = false := by simp [hashChanged]
      exact absurd refreshes.changed (by simp [unchanged])

theorem refreshing_heartbeat_unstored : ∃ reply next,
      refreshing.heartbeat stale (some caller) rowId ⟨rowId, 1, hashCapabilities grown⟩
        ⟨210 * second, some grown.tools⟩ = (.ok reply, next) ∧
      reply.action ≠ .reRegister ∧ reply.serverStatus = .active ∧
      (∃ row ∈ next.table.rows, row.id = rowId ∧ row.status = .stale ∧ row.lastHeartbeat = some (130 * second)) ∧
      ¬ HeartbeatStored next rowId reply (210 * second) := by
  have answered : (match refreshing.heartbeat stale (some caller) rowId
      ⟨rowId, 1, hashCapabilities grown⟩ ⟨210 * second, some grown.tools⟩ with
    | (.ok reply, next) => reply.action != .reRegister && reply.serverStatus == .active &&
      next.table.rows.all (fun row =>
        row.id == rowId && row.status == .stale && row.lastHeartbeat == some (130 * second)) &&
      next.table.rows.any fun row => row.id == rowId
    | _ => false) = true := by decide +kernel
  split at answered
  next reply next called =>
    simp only [Bool.and_eq_true, List.all_eq_true, List.any_eq_true, beq_iff_eq, bne_iff_ne] at answered
    obtain ⟨⟨⟨recorded, active⟩, rows⟩, row, mem, named⟩ := answered
    obtain ⟨⟨_, stale⟩, beat⟩ := rows row mem
    refine ⟨reply, next, called, recorded, active, ⟨row, mem, named, stale, beat⟩, ?_⟩
    rintro ⟨other, kept, _, same, _⟩
    rw [active, (rows other kept).1.2] at same
    cases same
  next => cases answered

end McpGateway.Registration
