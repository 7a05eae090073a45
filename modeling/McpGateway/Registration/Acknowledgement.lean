import McpGateway.Registration.Operations

namespace McpGateway.Registration

open Shared Store

namespace Acknowledgement

def serverId (ack : Acknowledgement) : Option String :=
  parseUuid (trimSpace ack.registrationId)

def stands (before after : ServerTable) (ack : Acknowledgement) : Bool :=
  match ack.serverId with
  | none => false
  | some id => (before.entry id).map ServerRecord.capabilities == (after.entry id).map ServerRecord.capabilities

structure Names (ack : Acknowledgement) (row : ServerRecord) : Prop where
  id : ack.serverId = some row.id
  epoch : ack.leaseEpoch = row.leaseEpoch
  hash : trimSpace ack.capabilityHash = "" ∨ trimSpace ack.capabilityHash = row.capabilityHash

instance (ack : Acknowledgement) (row : ServerRecord) : Decidable (ack.Names row) :=
  decidable_of_iff (ack.serverId = some row.id ∧ ack.leaseEpoch = row.leaseEpoch ∧
      (trimSpace ack.capabilityHash = "" ∨ trimSpace ack.capabilityHash = row.capabilityHash))
    ⟨fun named => ⟨named.1, named.2.1, named.2.2⟩, fun named => ⟨named.id, named.epoch, named.hash⟩⟩

end Acknowledgement

structure AttestedPod where
  pod : Pod
  standing : List Acknowledgement

def Report.acknowledgements : Report → List Acknowledgement
  | .acknowledged ack => [ack]
  | .silent => []
  | .alive _ => []

def Service.attest (service : Service) (attested : AttestedPod) (timed : Timed) : AttestedPod :=
  ⟨service.operate attested.pod timed,
    (attested.standing ++ (service.report attested.pod timed).acknowledgements).filter
      (Acknowledgement.stands attested.pod.registry.table (service.operate attested.pod timed).registry.table)⟩

def AttestedPod.Acknowledged (attested : AttestedPod) : Prop :=
  ∀ row ∈ attested.pod.registry.table.rows, row.syncState = .acked → ∃ ack ∈ attested.standing,
    ack.Names row

instance (attested : AttestedPod) : Decidable attested.Acknowledged :=
  inferInstanceAs (Decidable (∀ row ∈ attested.pod.registry.table.rows, _))

/-- A refresh of a record marked as acknowledged brings the tools it already has, and a hash that a standing
acknowledgement covers. -/
def Service.Reaffirms (service : Service) (attested : AttestedPod) (now : Time) : Operation → Prop
  | .heartbeat _ id request toolNames => ∀ record ∈ attested.pod.registry.table.rows, parseUuid id = some record.id →
    record.syncState = .acked → ∀ listed ∈ service.refreshedTools request ⟨now, toolNames⟩ record,
      listed = record.capabilities.tools ∧ ∃ ack ∈ attested.standing,
        ack.Names { record with capabilityHash := trimSpace request.capabilityHash }
  | .refreshCapabilities id toolNames => ∀ record ∈ attested.pod.registry.table.rows, parseUuid id = some record.id →
    record.syncState = .acked → ∀ listed ∈ service.listedTools ⟨now, toolNames⟩, listed = record.capabilities.tools
  | _ => True

instance Service.Reaffirms.decidable (service : Service) (attested : AttestedPod) (now : Time) (operation : Operation) :
    Decidable (service.Reaffirms attested now operation) := by
  unfold Service.Reaffirms
  split <;> infer_instance

variable {record : ServerRecord} {service : Service} {now : Time} {operation : Operation} {report : Report}

section

variable {table next : ServerTable} {old row : ServerRecord} {ack : Acknowledgement}

theorem Acknowledgement.Names.stands (names : ack.Names row) (held : old ∈ table.rows)
    (mem : row ∈ next.rows) (sameId : row.id = old.id) (same : row.capabilities = old.capabilities) :
    ack.stands table next = true := by
  have before : table.entry row.id = some old := sameId ▸ ServerTable.entry_of_mem held
  simp [Acknowledgement.stands, names.id, before, ServerTable.entry_of_mem mem, same]

theorem Acknowledgement.Names.congr (names : ack.Names old) (sameId : row.id = old.id)
    (epoch : row.leaseEpoch = old.leaseEpoch) (hash : row.capabilityHash = old.capabilityHash) : ack.Names row :=
  ⟨by rw [names.id, sameId], by rw [names.epoch, epoch], by rw [hash]; exact names.hash⟩

theorem Acknowledgement.Names.rewritten (names : ack.Names record) (pos : 1 ≤ record.leaseEpoch)
    (sameId : row.id = record.id) (epoch : row.leaseEpoch = maxInt64 record.leaseEpoch 1)
    (hash : row.capabilityHash = trimSpace record.capabilityHash) : ack.Names row := by
  refine ⟨by rw [names.id, sameId], by rw [names.epoch, epoch, (maxInt64_eq_iff _).mpr pos], ?_⟩
  rcases names.hash with blank | named
  · exact .inl blank
  · right
    rw [hash, ← named, trimSpace_trimSpace]

end

theorem maxInt64_positive (epoch : Int) : 1 ≤ maxInt64 epoch 1 := by
  unfold maxInt64
  split_ifs <;> omega

theorem RowEffect.epoch_positive {table : ServerTable} {row : ServerRecord}
    (effect : RowEffect service table now operation report row) (pos : ∀ old ∈ table.rows, 1 ≤ old.leaseEpoch) :
    1 ≤ row.leaseEpoch := by
  cases effect with
  | kept _ _ _ held => exact pos row held
  | registered _ _ _ _ record _ written =>
    rw [written.epoch]
    exact maxInt64_positive record.leaseEpoch
  | beaten caller id request toolNames record held =>
    cases refreshed : service.refreshedTools request ⟨now, toolNames⟩ record with
    | none =>
      rw [Service.beatenRow_none refreshed]
      exact pos record held
    | some listed =>
      rw [Service.beatenRow_some refreshed, updatedRow_leaseEpoch]
      exact maxInt64_positive _
  | refreshed =>
    rw [updatedRow_leaseEpoch]
    exact maxInt64_positive _
  | acknowledged _ record held => exact pos record held
  | swept old held =>
    obtain ⟨_, _, touched⟩ := sweptRow_touches (sweepInterval service.config) now old
    rw [touched]
    exact pos old held

structure AttestedPod.Valid (attested : AttestedPod) : Prop where
  acknowledged : attested.Acknowledged
  epochs : ∀ row ∈ attested.pod.registry.table.rows, 1 ≤ row.leaseEpoch

theorem refreshedRecord_same_capabilities {listed : List String} (same : listed = record.capabilities.tools)
    (hash : String) : (refreshedRecord record hash listed).capabilities = record.capabilities := by
  rw [refreshedRecord, same]

theorem acknowledgeable_names {ack : Acknowledgement} (spelled : ack.serverId = some record.id)
    (matching : ServerTable.acknowledgeable ack.leaseEpoch (trimSpace ack.capabilityHash) record = true) :
    ack.Names record := by
  simp only [ServerTable.acknowledgeable, Bool.and_eq_true, Bool.or_eq_true, beq_iff_eq] at matching
  exact ⟨spelled, matching.1.symm, matching.2.imp_right Eq.symm⟩

theorem RowEffect.names {attested : AttestedPod} {row : ServerRecord}
    (effect : RowEffect service attested.pod.registry.table now operation report row) (valid : attested.Valid)
    (reaffirms : service.Reaffirms attested now operation) (acked : row.syncState = .acked) :
    ∃ ack ∈ attested.standing ++ report.acknowledgements, ack.Names row ∧
      ∃ old ∈ attested.pod.registry.table.rows, row.id = old.id ∧ row.capabilities = old.capabilities := by
  cases effect with
  | kept _ _ _ held =>
    obtain ⟨ack, standing, names⟩ := valid.acknowledged row held acked
    exact ⟨ack, List.mem_append_left _ standing, names, row, held, rfl, rfl⟩
  | registered _ _ _ _ _ _ written =>
    rw [written.unacked] at acked
    cases acked
  | beaten caller id request toolNames record held spelled =>
    cases refreshed : service.refreshedTools request ⟨now, toolNames⟩ record with
    | none =>
      rw [Service.beatenRow_none refreshed] at acked ⊢
      obtain ⟨ack, standing, names⟩ := valid.acknowledged record held acked
      exact ⟨ack, List.mem_append_left _ standing, names.congr rfl rfl rfl, record, held, rfl, rfl⟩
    | some listed =>
      rw [Service.beatenRow_some refreshed] at acked ⊢
      rw [updatedRow_syncState, refreshedRecord_syncState] at acked
      obtain ⟨same, ack, standing, names⟩ := reaffirms record held spelled acked listed refreshed
      refine ⟨ack, List.mem_append_left _ standing, ?_, record, held, updatedRow_id _ _ _, ?_⟩
      · exact names.rewritten (valid.epochs record held) (updatedRow_id _ _ _) (by simp) (by simp)
      · rw [updatedRow_capabilities, refreshedRecord_same_capabilities same]
  | refreshed id toolNames listed record held spelled tools =>
    rw [updatedRow_syncState, refreshedRecord_syncState] at acked
    obtain ⟨ack, standing, names⟩ := valid.acknowledged record held acked
    refine ⟨ack, List.mem_append_left _ standing, ?_, record, held, updatedRow_id _ _ _, ?_⟩
    · exact names.rewritten (valid.epochs record held) (updatedRow_id _ _ _) (by simp) (by simp)
    · rw [updatedRow_capabilities, refreshedRecord_same_capabilities (reaffirms record held spelled acked listed tools)]
  | acknowledged ack record held spelled matching =>
    refine ⟨ack, by simp [Report.acknowledgements], ?_, record, held, rfl, rfl⟩
    exact (acknowledgeable_names spelled matching).congr rfl rfl rfl
  | swept old held =>
    obtain ⟨_, _, touched⟩ := sweptRow_touches (sweepInterval service.config) now old
    rw [touched] at acked ⊢
    obtain ⟨ack, standing, names⟩ := valid.acknowledged old held acked
    exact ⟨ack, List.mem_append_left _ standing, names.congr rfl rfl rfl, old, held, rfl, rfl⟩

theorem Service.attest_valid {attested : AttestedPod} {timed : Timed} (valid : attested.Valid)
    (reaffirms : service.Reaffirms attested (timed.now attested.pod) timed.operation) :
    (service.attest attested timed).Valid := by
  have effect := service.operate_effect attested.pod timed
  constructor
  · intro row mem acked
    obtain ⟨ack, known, names, old, held, sameId, same⟩ := (effect.row mem).names valid reaffirms acked
    exact ⟨ack, List.mem_filter.mpr ⟨known, names.stands held mem sameId same⟩, names⟩
  · exact fun row mem => (effect.row mem).epoch_positive valid.epochs

/-- From an empty store, every run whose refreshes of acknowledged records bring nothing new keeps every record that
is marked as acknowledged the one that was acknowledged. -/
theorem acknowledged_run (service : Service) (start : AttestedPod) (operations : List Timed)
    (stored : start.pod.registry.table.rows = []) (reaffirms : Along service.attest (fun attested timed =>
      service.Reaffirms attested (timed.now attested.pod) timed.operation) start operations) :
    Along service.attest (fun attested timed => (service.attest attested timed).Acknowledged) start operations := by
  have initial : start.Valid := by
    constructor <;> intro row mem <;> rw [stored] at mem <;> cases mem
  refine (reaffirms.invariant initial fun attested timed => Service.attest_valid).mono fun attested timed held => ?_
  exact (Service.attest_valid held.1 held.2).acknowledged

namespace Sample

def unattested : AttestedPod := ⟨⟨registry, 100 * second⟩, []⟩

def podList : Capability := ⟨["list_pods"], [], []⟩

def documented : Capability := { podList with resources := ["k8s://pods"] }

def acknowledges (hash : String) : Timed := ⟨10 ^ 9, .acknowledge ⟨rowId, 1, hash, "v1", none⟩⟩

end Sample

open Sample

theorem covered_refreshes_acknowledged :
    Along refreshing.attest (fun attested timed => (refreshing.attest attested timed).Acknowledged) unattested
      [registers, acknowledges "", reports (hashCapabilities documented) ["list_pods"], refreshes ["list_pods"], sweeps] :=
  acknowledged_run _ _ _ rfl (by decide +kernel)

theorem refresh_keeps_acknowledged :
    Along refreshing.attest (fun attested timed => (refreshing.attest attested timed).Acknowledged)
      unattested [registers, acknowledges (hashCapabilities podList)] ∧
    ¬ Along refreshing.attest (fun attested timed => (refreshing.attest attested timed).Acknowledged) unattested
      [registers, acknowledges (hashCapabilities podList), reports (hashCapabilities grown) grown.tools] ∧
    ¬ Along refreshing.attest (fun attested timed => (refreshing.attest attested timed).Acknowledged) unattested
      [registers, acknowledges (hashCapabilities podList), refreshes grown.tools] := by
  decide +kernel

end McpGateway.Registration
