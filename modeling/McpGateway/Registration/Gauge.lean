import McpGateway.Registration.Operations
import McpGateway.Shared.Tally

namespace McpGateway.Registration

open Shared Store

abbrev Gauge := Tally ServerStatus

def statuses (table : ServerTable) : List ServerStatus :=
  table.rows.map ServerRecord.status

def Service.registerGauge (service : Service) (registry : Registry) (caller : Option Identity)
    (request : RegistrationRequest) (context : RegisterContext) (gauge : Gauge) : Gauge :=
  match service.admit caller request with
  | .error _ => gauge
  | .ok caller =>
    match registry.table.getBySPIFFEID caller.id with
    | .ok _ => gauge
    | .error _ =>
      match service.writeRegistration registry.table caller.id request context with
      | .error _ => gauge
      | .ok (record, _) => gauge.add record.status 1

-- applyHeartbeatTransition adjusts the gauge by the record it was given, once the status is written.
def heartbeatGauge (table : ServerTable) (caller : Option Identity) (id : String) (request : HeartbeatRequest)
    (now : Time) (gauge : Gauge) : Gauge :=
  match heartbeatRecord table caller id with
  | .error _ => gauge
  | .ok record =>
    if resolveHeartbeatAction request record = .reRegister then gauge
    else
      match transition record.status .heartbeat with
      | none => gauge
      | some next =>
        if next = record.status then gauge
        else
          match table.updateStatus id next now with
          | .error _ => gauge
          | .ok _ => gauge.move record.status next

def Service.deregisterGauge (service : Service) (registry : Registry) (caller : Option Identity) (id : String)
    (gauge : Gauge) : Gauge :=
  match registry.table.get id with
  | .error _ => gauge
  | .ok record =>
    match (service.deregister registry caller id).1 with
    | .error _ => gauge
    | .ok _ => gauge.add record.status (-1)

def transitionGauge (table : ServerTable) (server : ServerRecord) (event : Event) (now : Time) (gauge : Gauge) :
    Gauge :=
  match transition server.status event with
  | none => gauge
  | some next =>
    match table.updateStatus server.id next now with
    | .error _ => gauge
    | .ok _ => gauge.move server.status next

structure MeteredSweep where
  swept : Swept
  gauge : Gauge

def MeteredSweep.mark (mark : Swept → ServerRecord → Swept) (event : Event) (now : Time) (metered : MeteredSweep)
    (server : ServerRecord) : MeteredSweep :=
  ⟨mark metered.swept server, transitionGauge metered.swept.table server event now metered.gauge⟩

def sweepStaleGauge (table : ServerTable) (index : CapabilityIndex) (threshold : Int) (now : Time) (gauge : Gauge) :
    Gauge :=
  match table.listStale threshold now with
  | .error _ => gauge
  | .ok servers =>
    (servers.foldl (MeteredSweep.mark (Swept.markStale now) .heartbeatMissed now) ⟨⟨table, index, 0⟩, gauge⟩).gauge

def sweepExpiredGauge (table : ServerTable) (index : CapabilityIndex) (threshold : Int) (now : Time) (gauge : Gauge) :
    Gauge :=
  match table.listExpired threshold now with
  | .error _ => gauge
  | .ok servers =>
    (servers.foldl (MeteredSweep.mark (Swept.markExpired now) .expired now) ⟨⟨table, index, 0⟩, gauge⟩).gauge

def sweepGauge (config : Option Config) (table : ServerTable) (index : CapabilityIndex) (now : Time) (gauge : Gauge) :
    Gauge :=
  let stale := sweepStale table index (sweepInterval config) now
  sweepExpiredGauge stale.table stale.index (expiredThreshold config) now
    (sweepStaleGauge table index (sweepInterval config) now gauge)

def Service.gauge (service : Service) (registry : Registry) (now : Time) (gauge : Gauge) : Operation → Gauge
  | .register caller request generated assigned =>
    service.registerGauge registry caller request ⟨now, generated, assigned⟩ gauge
  | .heartbeat caller id request _ => heartbeatGauge registry.table caller id request now gauge
  | .refreshCapabilities _ _ => gauge
  | .acknowledge _ => gauge
  | .deregister caller id => service.deregisterGauge registry caller id gauge
  | .sweep => sweepGauge service.config registry.table registry.index now gauge

structure MeteredPod where
  pod : Pod
  gauge : Gauge

def Service.meter (service : Service) (metered : MeteredPod) (timed : Timed) : MeteredPod :=
  ⟨service.operate metered.pod timed,
    service.gauge metered.pod.registry (timed.now metered.pod) metered.gauge timed.operation⟩

def MeteredPod.Exact (metered : MeteredPod) : Prop :=
  ∀ status, metered.gauge status = (statuses metered.pod.registry.table).count status ∧ 0 ≤ metered.gauge status

theorem MeteredPod.exact_iff (metered : MeteredPod) :
    metered.Exact ↔ metered.gauge.Counts (statuses metered.pod.registry.table) := by
  constructor
  · exact fun exact status => (exact status).1
  · exact fun counts status => ⟨counts status, counts.nonneg status⟩

section

variable {table next : ServerTable} {record stored : ServerRecord} {gauge : Gauge}

section

variable (counts : gauge.Counts (statuses table))

include counts

theorem rewritten_counts_iff (held : record ∈ table.rows)
    (rows : next.rows = ServerTable.modifyRow table.rows record.id fun _ => stored) (target : ServerStatus) :
    (gauge.move record.status target).Counts (statuses next) ↔ stored.status = target := by
  obtain ⟨before, after, split, rewritten, _⟩ := table.split_of_mem held
  rw [statuses, split, List.map_append, List.map_cons] at counts
  rw [statuses, rows, rewritten, List.map_append, List.map_cons]
  exact counts.replace_iff stored.status

theorem rewritten_kept_counts_iff (held : record ∈ table.rows)
    (rows : next.rows = ServerTable.modifyRow table.rows record.id fun _ => stored) :
    gauge.Counts (statuses next) ↔ stored.status = record.status := by
  rw [← rewritten_counts_iff counts held rows record.status, Tally.move_self]

theorem deleted_counts (held : record ∈ table.rows)
    (rows : next.rows = table.rows.filter fun row => row.id ≠ record.id) :
    (gauge.add record.status (-1)).Counts (statuses next) := by
  obtain ⟨before, after, split, _, remaining⟩ := table.split_of_mem held
  rw [statuses, split, List.map_append, List.map_cons] at counts
  rw [statuses, rows, remaining, List.map_append]
  exact counts.drop

end

end

section

variable {gauge : Gauge} {server : ServerRecord} (event : Event) (now : Time)

theorem transitionGauge_counts {table : ServerTable} (counts : gauge.Counts (statuses table))
    (held : server ∈ table.rows) : (transitionGauge table server event now gauge).Counts
        (statuses ((transitionServer table server event now).getD table)) ∧ ∀ other ∈ table.rows, other.id ≠ server.id →
        other ∈ ((transitionServer table server event now).getD table).rows := by
  cases moved : transition server.status event with
  | none =>
    rw [transitionGauge, transitionServer, moved]
    exact ⟨counts, fun other present _ => present⟩
  | some target =>
    obtain ⟨next, updated, rows⟩ := table.modify_total (table.canonicalIds server held)
      (fun row => statusRow row target now) (fun _ => rfl) (fun _ _ _ => rfl) table.bigintEpochs
    have ran : table.updateStatus server.id target now = .ok next := updated
    simp only [transitionGauge, transitionServer, moved, ran, Except.toOption, Option.getD_some]
    constructor
    · rw [table.modifyRow_const held] at rows
      exact (rewritten_counts_iff counts held rows target).mpr rfl
    · intro other present apart
      rw [rows, ServerTable.mem_modifyRow]
      exact .inl ⟨present, apart⟩

theorem MeteredSweep.foldl_counts {mark : Swept → ServerRecord → Swept} (marks : ∀ swept server,
      (mark swept server).table = (transitionServer swept.table server event now).getD swept.table)
    (servers : List ServerRecord) (metered : MeteredSweep) (distinct : (servers.map ServerRecord.id).Nodup)
    (held : ∀ server ∈ servers, server ∈ metered.swept.table.rows)
    (counts : metered.gauge.Counts (statuses metered.swept.table)) :
    (servers.foldl (MeteredSweep.mark mark event now) metered).gauge.Counts
      (statuses (servers.foldl mark metered.swept).table) := by
  induction servers generalizing metered with
  | nil => exact counts
  | cons server rest ih =>
    rw [List.map_cons, List.nodup_cons] at distinct
    have first := transitionGauge_counts event now counts (held server (by simp))
    rw [← marks] at first
    refine ih (MeteredSweep.mark mark event now metered server) distinct.2 ?_ first.1
    intro other mem
    refine first.2 other (held other (List.mem_cons_of_mem _ mem)) fun clash => distinct.1 ?_
    rw [← clash]
    exact List.mem_map_of_mem mem

theorem sweepStaleGauge_counts {table : ServerTable} (index : CapabilityIndex) (threshold : Int)
    (counts : gauge.Counts (statuses table)) :
    (sweepStaleGauge table index threshold now gauge).Counts (statuses (sweepStale table index threshold now).table) := by
  unfold sweepStaleGauge sweepStale ServerTable.listStale
  split_ifs
  · exact counts
  · exact MeteredSweep.foldl_counts .heartbeatMissed now (Swept.markStale_table now) _ ⟨⟨table, index, 0⟩, gauge⟩
      (table.listing_distinct (List.perm_insertionSort _ _))
      (fun _ mem => List.mem_of_mem_filter ((List.mem_insertionSort _).mp mem)) counts

theorem sweepExpiredGauge_counts {table : ServerTable} (index : CapabilityIndex) (threshold : Int)
    (counts : gauge.Counts (statuses table)) : (sweepExpiredGauge table index threshold now gauge).Counts
      (statuses (sweepExpired table index threshold now).table) := by
  unfold sweepExpiredGauge sweepExpired ServerTable.listExpired
  split_ifs
  · exact counts
  · exact MeteredSweep.foldl_counts .expired now (Swept.markExpired_table now) _ ⟨⟨table, index, 0⟩, gauge⟩
      (table.listing_distinct (List.perm_insertionSort _ _))
      (fun _ mem => List.mem_of_mem_filter ((List.mem_insertionSort _).mp mem)) counts

end

def Service.Meters (service : Service) (registry : Registry) (now : Time) : Operation → Prop
  | .register caller request _ _ => ∀ identity, service.admit caller request = .ok identity →
    ∀ row ∈ registry.table.rows, row.spiffeId = identity.id → row.status = .active
  | .heartbeat caller id request toolNames => ∀ record, heartbeatRecord registry.table caller id = .ok record →
    resolveHeartbeatAction request record ≠ .reRegister → transition record.status .heartbeat ≠ none →
    service.Refreshes request ⟨now, toolNames⟩ record → service.indexed = true → record.status = .active
  | _ => True

section

variable {service : Service} {registry : Registry} {gauge : Gauge} {now : Time}

section

variable (counts : gauge.Counts (statuses registry.table))

include counts

theorem Service.register_counts_iff (caller : Option Identity) (request : RegistrationRequest)
    (generated assigned : String) :
    (service.gauge registry now gauge (.register caller request generated assigned)).Counts
        (statuses (service.perform registry now (.register caller request generated assigned)).1.table) ↔
      service.Meters registry now (.register caller request generated assigned) := by
  unfold Service.gauge Service.registerGauge Service.Meters
  dsimp only
  cases admitted : service.admit caller request with
  | error error =>
    have same : (service.perform registry now (.register caller request generated assigned)).1 = registry := by
      simp only [Service.perform, Service.indexedRegister, Service.register, admitted]
    simp [same, counts]
  | ok identity =>
    simp only [Except.ok.injEq, forall_eq']
    cases found : registry.table.getBySPIFFEID identity.id with
    | ok old =>
      obtain ⟨held, own⟩ := (registry.table.getBySPIFFEID_eq_ok_iff _ old).mp found
      obtain ⟨record, next, written⟩ := service.writeRegistration_renews found request ⟨now, generated, assigned⟩
      rw [service.perform_registered registry admitted written]
      cases (service.writeRegistration_cases written).2 with
      | created _ _ absent => exact absurd own (absent old held)
      | updated other stored row present owned _ _ _ rows =>
        obtain rfl := registry.table.spiffeId_unique present held (owned.trans own.symm)
        rw [rewritten_kept_counts_iff counts present rows, row.active]
        constructor
        · intro active row mem same
          rw [registry.table.spiffeId_unique mem held (same.trans own.symm), ← active]
        · intro active
          exact (active other held own).symm
    | error cause =>
      have absent := (registry.table.getBySPIFFEID_error found).2
      refine iff_of_true ?_ fun row mem own => absurd own (absent row mem)
      dsimp only
      cases written : service.writeRegistration registry.table identity.id request ⟨now, generated, assigned⟩ with
      | error error =>
        have same : (service.perform registry now (.register caller request generated assigned)).1 = registry := by
          simp only [Service.perform, Service.indexedRegister, Service.register, admitted, written]
        rw [same]
        exact counts
      | ok outcome =>
        obtain ⟨record, next⟩ := outcome
        rw [service.perform_registered registry admitted written]
        obtain ⟨active, outcome⟩ := service.writeRegistration_cases written
        cases outcome with
        | updated old _ _ held own => exact absurd own (absent old held)
        | created stored row _ _ _ _ rows =>
          dsimp only
          rw [statuses, rows, List.map_append, List.map_singleton, row.active, active]
          exact counts.append .active

omit counts in
theorem heartbeatGauge_recorded {caller : Option Identity} {id : String} {request : HeartbeatRequest}
    {record : ServerRecord} (found : heartbeatRecord registry.table caller id = .ok record)
    (kept : resolveHeartbeatAction request record ≠ .reRegister)
    (moved : transition record.status .heartbeat = some .active) :
    heartbeatGauge registry.table caller id request now gauge = gauge.move record.status .active := by
  obtain ⟨_, spelled⟩ := heartbeatRecord_ok found
  obtain ⟨next, updated, _⟩ := registry.table.modify_total spelled (fun row => statusRow row .active now)
    (fun _ => rfl) (fun _ _ _ => rfl) registry.table.bigintEpochs
  have ran : registry.table.updateStatus id .active now = .ok next := updated
  simp only [heartbeatGauge, found, kept, if_false, moved, ran]
  split_ifs with same
  · rw [← same, Tally.move_self]
  · rfl

omit counts in
theorem Service.beatenRow_active_iff (service : Service) (request : HeartbeatRequest) (context : HeartbeatContext)
    (record : ServerRecord) : (service.beatenRow request context record).status = .active ↔
      (service.Refreshes request context record → service.indexed = true → record.status = .active) := by
  have refreshes := service.refreshedTools_ne_none_iff request context record
  cases refreshed : service.refreshedTools request context record with
  | none =>
    rw [Service.beatenRow_none refreshed]
    refine iff_of_true rfl fun changes indexed => ?_
    exact absurd refreshed (refreshes.mpr ⟨changes, indexed⟩)
  | some toolNames =>
    obtain ⟨changes, indexed⟩ := refreshes.mp (by simp [refreshed])
    rw [Service.beatenRow_some refreshed, updatedRow_status, refreshedRecord]
    simp [changes, indexed]

theorem Service.heartbeat_counts_iff (caller : Option Identity) (id : String) (request : HeartbeatRequest)
    (toolNames : Option (List String)) :
    (service.gauge registry now gauge (.heartbeat caller id request toolNames)).Counts
        (statuses (service.perform registry now (.heartbeat caller id request toolNames)).1.table) ↔
      service.Meters registry now (.heartbeat caller id request toolNames) := by
  rw [Service.perform_heartbeat_table, Service.heartbeat, Service.gauge, Service.Meters]
  cases found : heartbeatRecord registry.table caller id with
  | error error => simp [heartbeatGauge, found, counts]
  | ok record =>
    simp only [Except.ok.injEq, forall_eq']
    obtain ⟨held, spelled⟩ := heartbeatRecord_ok found
    by_cases kept : resolveHeartbeatAction request record = .reRegister
    · simp [heartbeatGauge, found, kept, counts]
    cases recorded : service.recordHeartbeat registry id record request ⟨now, toolNames⟩ with
    | mk result next =>
      simp only [kept, if_false, ne_eq, not_false_eq_true, true_implies]
      rcases Service.recordHeartbeat_cases held spelled recorded with ⟨stuck, _, same⟩ | ⟨reply, _, acts, beaten⟩
      · simp [heartbeatGauge, found, kept, stuck, same, counts]
      · cases beaten with
        | reRegister _ _ _ _ action _ => exact absurd action acts
        | recorded other present named moved _ _ _ rows =>
          obtain rfl := registry.table.row_unique present held (Option.some.inj (named.symm.trans spelled))
          rw [heartbeatGauge_recorded found kept moved, rewritten_counts_iff counts present rows,
            Service.beatenRow_active_iff]
          simp [moved]

theorem Service.deregister_counts (caller : Option Identity) (id : String) :
    (service.deregisterGauge registry caller id gauge).Counts
      (statuses (service.indexedDeregister registry caller id).2.table) := by
  unfold Service.deregisterGauge Service.indexedDeregister
  cases called : service.deregister registry caller id with
  | mk result next =>
    rcases Service.deregister_cases called with ⟨⟨error, rfl⟩, rfl⟩ | ⟨rfl, _, _, record, held, spelled, rows, _⟩
    · cases next.table.get id <;> exact counts
    · rw [(registry.table.get_eq_ok_iff id record).mpr ⟨held, spelled⟩]
      exact deleted_counts counts held rows

omit counts in
theorem refreshed_counts {table next : ServerTable} {report : Report} {id : String} {toolNames : Option (List String)}
    (counts : gauge.Counts (statuses table))
    (effect : Effect service table now (.refreshCapabilities id toolNames) report next) :
    gauge.Counts (statuses next) := by
  cases effect with
  | unchanged => exact counts
  | refreshed _ _ listed record _ held _ _ rows =>
    rw [rewritten_kept_counts_iff counts held rows, updatedRow_status, refreshedRecord]

omit counts in
theorem acknowledged_counts {table next : ServerTable} {report : Report} {ack : Acknowledgement}
    (counts : gauge.Counts (statuses table))
    (effect : Effect service table now (.acknowledge ack) report next) : gauge.Counts (statuses next) := by
  cases effect with
  | unchanged => exact counts
  | acknowledged _ record _ held _ _ rows =>
    rw [rewritten_kept_counts_iff counts held rows, acknowledgedRow]

theorem Service.gauge_counts_iff (operation : Operation) :
    (service.gauge registry now gauge operation).Counts
        (statuses (service.perform registry now operation).1.table) ↔ service.Meters registry now operation := by
  cases operation with
  | register caller request generated assigned =>
    exact Service.register_counts_iff counts caller request generated assigned
  | heartbeat caller id request toolNames => exact Service.heartbeat_counts_iff counts caller id request toolNames
  | refreshCapabilities id toolNames =>
    exact iff_of_true (refreshed_counts counts (service.perform_effect registry now _)) trivial
  | acknowledge ack =>
    exact iff_of_true (acknowledged_counts counts (service.perform_effect registry now _)) trivial
  | deregister caller id =>
    have counted : (service.deregisterGauge registry caller id gauge).Counts
        (statuses (service.indexedDeregister registry caller id).2.table) :=
      Service.deregister_counts counts caller id
    simp only [Service.gauge, Service.perform]
    exact iff_of_true counted trivial
  | sweep =>
    refine iff_of_true ?_ trivial
    exact sweepExpiredGauge_counts now _ _ (sweepStaleGauge_counts now _ _ counts)

end

end

/-- From an empty store and a gauge at zero, the gauge is exact after every operation of a run exactly if every
operation writes over active records only. -/
theorem gauge_exact_iff (service : Service) (start : MeteredPod) (operations : List Timed)
    (stored : start.pod.registry.table.rows = []) (zero : start.gauge = .zero ServerStatus) :
    Along service.meter (fun metered timed => (service.meter metered timed).Exact) start operations ↔
      Along service.meter (fun metered timed =>
        service.Meters metered.pod.registry (timed.now metered.pod) timed.operation) start operations := by
  have initial : start.gauge.Counts (statuses start.pod.registry.table) := by
    rw [zero, statuses, stored]
    exact Tally.Counts.zero_nil
  have step (metered : MeteredPod) (timed : Timed)
      (counts : metered.gauge.Counts (statuses metered.pod.registry.table)) :
      (service.meter metered timed).Exact ↔
        service.Meters metered.pod.registry (timed.now metered.pod) timed.operation :=
    (MeteredPod.exact_iff _).trans (Service.gauge_counts_iff counts timed.operation)
  refine Along.congr_of_invariant initial (fun metered timed counts meters => ?_) step
  exact (MeteredPod.exact_iff _).mp ((step metered timed counts).mpr meters)

namespace Sample

def unmetered : MeteredPod := ⟨⟨registry, 100 * second⟩, .zero ServerStatus⟩

end Sample

open Sample

theorem resumed_backend_gauge_exact :
    Along service.meter (fun metered timed => (service.meter metered timed).Exact) unmetered
      [registers, beats, sweeps, beats, registers, leaves] := by
  have active : ∀ row ∈ (run service.meter unmetered
      [registers, beats, sweeps, beats]).pod.registry.table.rows, row.status = .active := by
    decide +kernel
  refine (gauge_exact_iff _ _ _ rfl rfl).mpr ⟨?_, ?_, trivial, ?_, ?_, trivial, trivial⟩
  · intro _ _ row mem
    cases mem
  · intro _ _ _ _ _ indexed
    cases indexed
  · intro _ _ _ _ _ indexed
    cases indexed
  · intro _ _ row mem _
    simp only [run, List.foldl_cons, List.foldl_nil] at active
    exact active row mem

theorem stale_register_gauge_negative : (run service.meter unmetered
      [registers, beats, sweeps, registers, leaves]).gauge .active = -1 ∧
    ¬ Along service.meter (fun metered timed => (service.meter metered timed).Exact) unmetered
      [registers, beats, sweeps, registers, leaves] := by
  have negative : (run service.meter unmetered [registers, beats, sweeps, registers, leaves]).gauge .active = -1 := by
    decide +kernel
  refine ⟨negative, ?_⟩
  rintro ⟨_, _, _, _, exact, _⟩
  have below := (exact .active).2
  simp only [run, List.foldl_cons, List.foldl_nil] at negative
  rw [negative] at below
  exact absurd below (by decide)

end McpGateway.Registration
