import McpGateway.Registration.Processes

namespace McpGateway.Registration

open Shared Store

def Process.snapshot : Process → Option ServerRecord
  | .heartbeat _ (.updateStatus record _ _ _) => some record
  | .heartbeat _ (.updateHeartbeat record _ _) => some record
  | .heartbeat _ (.update record _ _ _) => some record
  | .register _ (.update _ old) => some old
  | .refresh _ (.update record _) => some record
  | _ => none

def Process.Owns : Process → Prop
  | .register call (.update _ old) => old.spiffeId = callerId call.caller
  | _ => True

structure Anchored (table : ServerTable) (record : ServerRecord) : Prop where
  row : ∃ row ∈ table.rows, row.id = record.id ∧ row.spiffeId = record.spiffeId
  bigint : -2 ^ 63 ≤ record.leaseEpoch ∧ record.leaseEpoch < 2 ^ 63

structure Process.Anchored (table : ServerTable) (proc : Process) : Prop where
  snapshot : ∀ record ∈ proc.snapshot, Registration.Anchored table record
  owns : proc.Owns

theorem anchored_of_mem {table : ServerTable} {record : ServerRecord} (held : record ∈ table.rows) :
    Anchored table record :=
  ⟨⟨record, held, rfl, rfl⟩, table.bigintEpochs record held⟩

theorem Process.anchored_of_starting {proc : Process} (starts : proc.starting = true) (table : ServerTable) :
    proc.Anchored table := by
  unfold Process.starting at starts
  split at starts
  case h_5 => cases starts
  all_goals exact ⟨by simp [Process.snapshot], trivial⟩

section

variable {service : Service} {table next : ServerTable} {now : Time} {proc : Process}

variable {row written : ServerRecord} {call : HeartbeatCall} {stage : HeartbeatStage} {id : String}

theorem Anchored.owner {record : ServerRecord} (anchored : Anchored table record) (held : row ∈ table.rows)
    (named : parseUuid record.id = some row.id) : row.id = record.id ∧ row.spiffeId = record.spiffeId := by
  obtain ⟨other, present, same, owner⟩ := anchored.row
  have canonical := table.canonicalIds other present
  rw [same, named, Option.some.injEq] at canonical
  rw [table.row_unique held present (canonical.trans same.symm)]
  exact ⟨same, owner⟩

theorem Rewrites.spiffeId (rewrites : Rewrites service now proc row written) (anchored : proc.Anchored table)
    (held : row ∈ table.rows) : written.spiffeId = row.spiffeId := by
  cases rewrites with
  | resumed => rfl
  | beaten => rfl
  | refreshed _ record _ _ _ _ named => exact ((anchored.snapshot record rfl).owner held named).2.symm
  | pushed _ record _ _ named => exact ((anchored.snapshot record rfl).owner held named).2.symm
  | renewed call context old _ named =>
    have own : old.spiffeId = callerId call.caller := anchored.owns
    exact (((anchored.snapshot old rfl).owner held named).2.trans own).symm
  | staled => rfl
  | expired => rfl

theorem Anchored.stored {record : ServerRecord} (record_anchored : Anchored table record)
    (stores : Stores service table now proc next) (anchored : proc.Anchored table) : Anchored next record := by
  obtain ⟨row, held, same, owner⟩ := record_anchored.row
  obtain ⟨later, present, became⟩ := stores.survives held
  refine ⟨⟨later, present, ?_⟩, record_anchored.bigint⟩
  rcases became with rfl | rewrites
  · exact ⟨same, owner⟩
  · exact ⟨rewrites.id.trans same, (rewrites.spiffeId anchored held).trans owner⟩

theorem Begun.snapshot {record kept : ServerRecord} (begun : Begun record now stage)
    (mem : kept ∈ (Process.heartbeat call stage).snapshot) : kept = record := by
  cases begun with
  | answered => cases mem
  | refused => cases mem
  | settled => exact (Option.some.inj mem).symm
  | moving => exact (Option.some.inj mem).symm

section

variable {around : Surroundings} {record : ServerRecord}

open Service (advanceHeartbeat advanceRegister advanceRefresh advanceProcess advance_heartbeat)

theorem Service.advanceHeartbeat_snapshot
    (mem : record ∈ (Process.heartbeat call (service.advanceHeartbeat call around table now stage).2).snapshot) :
    record ∈ (Process.heartbeat call stage).snapshot ∨ record ∈ table.rows := by
  cases stage with
  | get =>
    simp only [advanceHeartbeat] at mem
    split at mem
    · cases mem
    next read found =>
      have begun := service.begun call read now
      dsimp only at mem
      generalize service.beginHeartbeat call read now = stage at begun mem
      have same : record = read := begun.snapshot mem
      subst same
      exact .inr (heartbeatRecord_ok found).1
  | updateStatus kept =>
    simp only [advanceHeartbeat] at mem
    split at mem
    · cases mem
    · exact .inl mem
  | updateHeartbeat kept =>
    simp only [advanceHeartbeat] at mem
    split at mem
    · cases mem
    · split at mem
      · exact .inl mem
      · cases mem
  | update =>
    simp only [advanceHeartbeat] at mem
    split at mem <;> cases mem
  | refreshServer => cases mem
  | finished => cases mem

theorem Service.advanceRegister_snapshot {call : RegisterCall} {stage : RegisterStage}
    (mem : record ∈ (Process.register call (service.advanceRegister call around table now stage).2).snapshot) :
    record ∈ table.rows := by
  cases stage with
  | getBySPIFFEID =>
    simp only [advanceRegister] at mem
    split at mem
    · cases mem
    · split at mem
      next found =>
        cases mem
        exact ((table.getBySPIFFEID_eq_ok_iff _ _).mp found).1
      · cases mem
      · cases mem
  | update =>
    simp only [advanceRegister] at mem
    split at mem <;> cases mem
  | create =>
    simp only [advanceRegister] at mem
    split at mem <;> cases mem
  | finished => cases mem

theorem Service.advanceRefresh_snapshot {serverId : String} {stage : RefreshStage} (mem : record ∈
      (Process.refresh serverId (service.advanceRefresh serverId around table now stage).2).snapshot) :
    record ∈ table.rows := by
  cases stage with
  | get =>
    simp only [advanceRefresh] at mem
    split at mem
    · cases mem
    next found =>
      split at mem
      · cases mem
      · cases mem
        exact ((table.get_eq_ok_iff _ _).mp found).1
  | update =>
    simp only [advanceRefresh] at mem
    split at mem <;> cases mem
  | refreshServer => cases mem
  | finished => cases mem

theorem Service.advanceProcess_snapshot (proc : Process)
    (mem : record ∈ (service.advanceProcess around table now proc).2.snapshot) :
    record ∈ proc.snapshot ∨ record ∈ table.rows := by
  cases proc with
  | heartbeat call stage => exact Service.advanceHeartbeat_snapshot mem
  | register call stage => exact .inr (Service.advanceRegister_snapshot mem)
  | refresh serverId stage => exact .inr (Service.advanceRefresh_snapshot mem)
  | sweep => cases mem

end

theorem Service.advanceProcess_owns (around : Surroundings) (proc : Process) :
    (service.advanceProcess around table now proc).2.Owns := by
  cases proc with
  | register call stage =>
    cases stage with
    | getBySPIFFEID =>
      simp only [advanceProcess, advanceRegister]
      split
      · trivial
      next caller admitted =>
        split
        next found =>
          rw [Process.Owns, callerId, (service.admit_ok admitted).1]
          exact ((table.getBySPIFFEID_eq_ok_iff _ _).mp found).2
        · trivial
        · trivial
    | update =>
      simp only [advanceProcess, advanceRegister]
      split <;> trivial
    | create =>
      simp only [advanceProcess, advanceRegister]
      split <;> trivial
    | finished => trivial
  | heartbeat => trivial
  | refresh => trivial
  | sweep => trivial

theorem Service.advance_anchored (around : Surroundings) (shared : Clocked) (proc : Process)
    (anchored : proc.Anchored shared.table) :
    (service.advance around shared proc).2.Anchored (service.advance around shared proc).1.table := by
  have stores := service.advance_stores around shared proc
  refine ⟨fun record mem => ?_, Service.advanceProcess_owns around proc⟩
  rcases Service.advanceProcess_snapshot proc mem with kept | read
  · exact (anchored.snapshot record kept).stored stores anchored
  · exact (anchored_of_mem read).stored stores anchored

def Anchors (pool : Pool Clocked Process) : Prop :=
  ∀ proc ∈ pool.processes, proc.Anchored pool.memory.table

theorem anchors_of_starting {pool : Pool Clocked Process}
    (starts : ∀ proc ∈ pool.processes, proc.starting = true) : Anchors pool :=
  fun proc mem => Process.anchored_of_starting (starts proc mem) pool.memory.table

theorem Service.turn_anchors (service : Service) {pool : Pool Clocked Process} (anchored : Anchors pool)
    (turn : Turn Surroundings) : Anchors (pool.turn service.advance turn) := by
  refine Pool.turn_asserted (fun (shared : Clocked) (proc : Process) => proc.Anchored shared.table) anchored
    (fun proc _ current => Service.advance_anchored turn.input pool.memory proc current) ?_
  intro proc _ current other _ held
  have stores := service.advance_stores turn.input pool.memory proc
  exact ⟨fun record mem => (held.snapshot record mem).stored stores current, held.owns⟩

theorem modify_writes {change : ServerRecord → ServerRecord} (held : row ∈ table.rows)
    (named : parseUuid id = some row.id) (sameId : ∀ other, (change other).id = other.id)
    (owner : (change row).spiffeId = row.spiffeId)
    (bigint : ∀ other ∈ table.rows, -2 ^ 63 ≤ (change other).leaseEpoch ∧ (change other).leaseEpoch < 2 ^ 63) :
    ∃ next, table.modify id change = .ok next ∧ change row ∈ next.rows := by
  obtain ⟨next, modified, rows⟩ := table.modify_total named change sameId
    (fun other present same => by rw [table.row_unique present held same]; exact owner) bigint
  refine ⟨next, modified, ?_⟩
  rw [rows, ServerTable.mem_modifyRow]
  exact .inr ⟨row, held, rfl, rfl⟩

theorem updateStatus_writes (status : ServerStatus) (now : Time) (held : row ∈ table.rows)
    (named : parseUuid id = some row.id) :
    ∃ next, table.updateStatus id status now = .ok next ∧ statusRow row status now ∈ next.rows :=
  modify_writes held named (fun _ => rfl) rfl table.bigintEpochs

theorem updateHeartbeat_writes (now : Time) (held : row ∈ table.rows) (named : parseUuid id = some row.id) :
    ∃ next, table.updateHeartbeat id now = .ok next ∧ heartbeatRow row now ∈ next.rows :=
  modify_writes held named (fun _ => rfl) rfl table.bigintEpochs

theorem update_writes (record : ServerRecord) (now : Time) (held : row ∈ table.rows)
    (named : parseUuid record.id = some row.id) (owner : record.spiffeId = row.spiffeId)
    (bigint : -2 ^ 63 ≤ maxInt64 record.leaseEpoch 1 ∧ maxInt64 record.leaseEpoch 1 < 2 ^ 63) :
    ∃ next, table.update record now = .ok next ∧ updatedRow row record now ∈ next.rows :=
  modify_writes held named (fun _ => rfl) owner fun _ _ => bigint

theorem refresh_writes {record : ServerRecord} (hash : String) (toolNames : List String) (now : Time)
    (anchored : Anchored table record) (held : row ∈ table.rows) (named : parseUuid record.id = some row.id) :
    ∃ next, table.update (refreshedRecord record hash toolNames) now = .ok next ∧
      updatedRow row (refreshedRecord record hash toolNames) now ∈ next.rows :=
  update_writes _ now held named (anchored.owner held named).2.symm (maxInt64_bigint anchored.bigint)

theorem transitionServer_writes {server : ServerRecord} {event : Event} {target : ServerStatus} (now : Time)
    (moved : transition server.status event = some target) (held : row ∈ table.rows)
    (named : parseUuid server.id = some row.id) :
    statusRow row target now ∈ ((transitionServer table server event now).getD table).rows := by
  obtain ⟨next, updated, written⟩ := updateStatus_writes target now held named
  simpa [transitionServer, moved, updated, Except.toOption] using written

theorem Service.advance_writes {around : Surroundings} {shared : Clocked}
    (anchored : proc.Anchored shared.table) (held : row ∈ shared.table.rows)
    (rewrites : Rewrites service (around.now shared) proc row written) :
    written ∈ (service.advance around shared proc).1.table.rows := by
  cases rewrites with
  | resumed call record next moved asked _ named =>
    obtain ⟨after, updated, written⟩ := updateStatus_writes next (around.now shared) held named
    simpa only [advance_heartbeat, advanceHeartbeat, updated] using written
  | beaten call record status asked _ named =>
    obtain ⟨after, updated, written⟩ := updateHeartbeat_writes (around.now shared) held named
    simp only [advance_heartbeat, advanceHeartbeat, updated]
    split <;> exact written
  | refreshed call record status toolNames asked _ named =>
    obtain ⟨after, updated, written⟩ := refresh_writes (trimSpace call.request.capabilityHash) toolNames
      (around.now shared) (anchored.snapshot record rfl) held named
    simpa only [advance_heartbeat, advanceHeartbeat, updated] using written
  | pushed serverId record toolNames _ named =>
    obtain ⟨after, updated, written⟩ := refresh_writes record.capabilityHash toolNames
      (around.now shared) (anchored.snapshot record rfl) held named
    simpa only [Service.advance, advanceProcess, advanceRefresh, updated] using written
  | renewed call context old _ named =>
    have own : old.spiffeId = callerId call.caller := anchored.owns
    have owner := ((anchored.snapshot old rfl).owner held named).2.trans own
    obtain ⟨after, updated, written⟩ := update_writes
      (renewedRecord (service.newRecord (callerId call.caller) call.request context) old)
      (around.now shared) held named owner.symm (nextLeaseEpoch_bigint old.leaseEpoch)
    simpa only [Service.advance_register, advanceRegister, updated] using written
  | staled server rest listed _ named =>
    exact transitionServer_writes (around.now shared) (by rw [listed server (by simp)]; rfl) held named
  | expired server rest _ named =>
    exact transitionServer_writes (around.now shared) (by cases server.status <;> rfl) held named

end

end McpGateway.Registration
