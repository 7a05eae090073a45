import McpGateway.Registration.Snapshots
import Mathlib.Data.Fintype.Basic

namespace McpGateway.Registration

open Shared Store

section Undisturbed

def recent (interval now : Int) (row : ServerRecord) : Bool :=
  match row.lastHeartbeat with
  | some beat => now - beat < interval
  | none => false

variable {clock : Int} {call : HeartbeatCall}

theorem recent_earlier {interval now : Int} {row : ServerRecord} (passed : clock ≤ now)
    (late : recent interval now row = true) : recent interval clock row = true := by
  unfold recent at late ⊢
  split at late
  next beat stored =>
    rw [decide_eq_true_eq] at late ⊢
    omega
  · cases late

def Guarded (interval now : Int) (row : ServerRecord) : Prop :=
  recent interval now row = true → row.status = .active

theorem Guarded.later {interval now : Int} {row : ServerRecord} (guarded : Guarded interval clock row)
    (passed : clock ≤ now) : Guarded interval now row :=
  fun late => guarded (recent_earlier passed late)

theorem Guarded.congr {interval now : Int} {row other : ServerRecord} (guarded : Guarded interval now row)
    (beat : other.lastHeartbeat = row.lastHeartbeat) (status : other.status = row.status) :
    Guarded interval now other := by
  simpa [Guarded, recent, beat, status] using guarded

theorem guarded_of_late {interval now : Int} {row : ServerRecord} (late : recent interval now row = false) :
    Guarded interval now row := by
  simp [Guarded, late]

instance (interval now : Int) (row : ServerRecord) : Decidable (Guarded interval now row) :=
  inferInstanceAs (Decidable (_ → _))

/-- The next write of a process takes no recent row out of service: it puts a heartbeat only into an active row, it
writes back only a record that is guarded, and it marks only a row that is no longer recent. -/
def Process.Heeds (interval now : Int) (row : ServerRecord) : Process → Prop
  | .heartbeat call (.updateHeartbeat _ _ _) => parseUuid call.id = some row.id → row.status = .active
  | .heartbeat _ (.update record _ _ _) => parseUuid record.id = some row.id → Guarded interval now record
  | .refresh _ (.update record _) => parseUuid record.id = some row.id → Guarded interval now record
  | .sweep (.markStale (server :: _) _) => parseUuid server.id = some row.id → recent interval now row = false
  | .sweep (.markExpired (server :: _)) => parseUuid server.id = some row.id → recent interval now row = false
  | _ => True

instance (interval now : Int) (row : ServerRecord) (proc : Process) : Decidable (proc.Heeds interval now row) := by
  unfold Process.Heeds
  split <;> infer_instance

def Service.Heeds (service : Service) (pool : Pool Clocked Process) (turn : Turn Surroundings) : Prop :=
  ∀ proc ∈ pool.processes[turn.position]?, ∀ row ∈ pool.memory.table.rows,
    proc.Heeds (sweepInterval service.config) (turn.input.now pool.memory) row

instance (service : Service) : (pool : Pool Clocked Process) → (turn : Turn Surroundings) →
    Decidable (service.Heeds pool turn) :=
  fun _ _ => inferInstanceAs (Decidable (∀ proc ∈ (_ : Option Process), _))

section

variable {service : Service} {table : ServerTable} {interval now : Int} {proc : Process} {row written : ServerRecord}

theorem Rewrites.guarded (rewrites : Rewrites service now proc row written)
    (heeds : proc.Heeds interval now row) : Guarded interval now written := by
  cases rewrites with
  | resumed _ _ _ moved => exact fun _ => transition_heartbeat moved
  | beaten _ _ _ _ _ named => exact fun _ => heeds named
  | refreshed _ _ _ _ _ _ named => exact Guarded.congr (heeds named) (by simp) (by simp)
  | pushed _ _ _ _ named => exact Guarded.congr (heeds named) (by simp) (by simp)
  | renewed => exact fun _ => rfl
  | staled _ _ _ _ named => exact guarded_of_late (heeds named)
  | expired _ _ _ named => exact guarded_of_late (heeds named)

end

def Attended (interval : Int) (shared : Clocked) (id : String) : Prop :=
  ∀ row ∈ shared.table.rows, parseUuid id = some row.id → Guarded interval shared.clock row

section

variable {service : Service} {around : Surroundings} {shared : Clocked} {proc : Process} {interval : Int}

theorem Surroundings.clock_le (around : Surroundings) (shared : Clocked) :
    shared.clock ≤ around.now shared :=
  Int.le_add_of_nonneg_right (Int.natCast_nonneg around.elapsed)

theorem Service.advance_attended
    (heeds : ∀ row ∈ shared.table.rows, proc.Heeds interval (around.now shared) row) {id : String}
    (attended : Attended interval shared id) :
    Attended interval (service.advance around shared proc).1 id := by
  intro later mem named
  rcases (service.advance_stores around shared proc).origin mem with
    ⟨row, held, same, rfl | rewrites⟩ | ⟨call, context, _, _, rfl⟩
  · exact (attended later held named).later (around.clock_le shared)
  · exact rewrites.guarded (heeds row held)
  · exact fun _ => rfl

def Process.Guards (interval : Int) (shared : Clocked) : Process → Prop
  | .heartbeat call (.update _ _ _ _) => Attended interval shared call.id
  | .heartbeat call (.refreshServer _) => Attended interval shared call.id
  | .heartbeat call (.finished (.ok response)) =>
    response.serverStatus = .active → Attended interval shared call.id
  | _ => True

theorem Process.guards_mono {prior : Clocked} (guards : proc.Guards interval prior)
    (attends : ∀ id, Attended interval prior id → Attended interval shared id) : proc.Guards interval shared := by
  unfold Process.Guards at guards ⊢
  split
  · exact attends _ guards
  · exact attends _ guards
  · exact fun active => attends _ (guards active)
  · trivial

variable {record : ServerRecord}

theorem Begun.guards {table : ServerTable} {now : Time} {stage : HeartbeatStage} (begun : Begun record now stage)
    (found : heartbeatRecord table call.caller call.id = .ok record) :
    (Process.heartbeat call stage).Guards interval ⟨table, now⟩ := by
  cases begun with
  | answered response status =>
    intro active row held named
    obtain ⟨present, spelled⟩ := heartbeatRecord_ok found
    rw [spelled, Option.some.injEq] at named
    rw [table.row_unique held present named.symm]
    exact fun _ => status.symm.trans active
  | refused => trivial
  | settled => trivial
  | moving => trivial

theorem Service.updateHeartbeat_attended {status : ServerStatus} {asked : Time}
    (active : ∀ row ∈ shared.table.rows, parseUuid call.id = some row.id → row.status = .active) : Attended interval
      (service.advance around shared (.heartbeat call (.updateHeartbeat record status asked))).1 call.id := by
  intro later mem named _
  rcases (service.advance_stores around shared _).origin mem with
    ⟨row, held, same, rfl | rewrites⟩ | ⟨_, _, register, _⟩
  · exact active later held named
  · cases rewrites
    exact active row held named
  · cases register

theorem Process.guards_of_attended (attended : Attended interval shared call.id) (stage : HeartbeatStage) :
    (Process.heartbeat call stage).Guards interval shared := by
  cases stage with
  | update => exact attended
  | refreshServer => exact attended
  | finished result =>
    cases result with
    | ok => exact fun _ => attended
    | error => trivial
  | _ => trivial

theorem Service.advance_guards (heeds : ∀ row ∈ shared.table.rows, proc.Heeds interval (around.now shared) row)
    (guards : proc.Guards interval shared) :
    (service.advance around shared proc).2.Guards interval (service.advance around shared proc).1 := by
  cases proc with
  | heartbeat call stage =>
    cases stage with
    | get =>
      rw [Service.advance_heartbeat, Service.advanceHeartbeat]
      cases found : heartbeatRecord shared.table call.caller call.id with
      | error => trivial
      | ok record =>
        have begun := service.begun call record (around.now shared)
        dsimp only
        generalize service.beginHeartbeat call record (around.now shared) = stage at begun
        exact begun.guards found
    | updateStatus _ status =>
      rw [Service.advance_heartbeat, Service.advanceHeartbeat]
      cases shared.table.updateStatus call.id status (around.now shared) <;> trivial
    | updateHeartbeat => exact Process.guards_of_attended (Service.updateHeartbeat_attended heeds) _
    | update => exact Process.guards_of_attended (Service.advance_attended heeds guards) _
    | refreshServer => exact Process.guards_of_attended (Service.advance_attended heeds guards) _
    | finished result =>
      cases result with
      | ok => exact fun active => Service.advance_attended heeds (guards active)
      | error => trivial
  | register => trivial
  | refresh => trivial
  | sweep => trivial

theorem Service.turn_guards {pool : Pool Clocked Process} {turn : Turn Surroundings} (heeds : service.Heeds pool turn)
    (guards : ∀ proc ∈ pool.processes, proc.Guards (sweepInterval service.config) pool.memory) :
    ∀ proc ∈ (pool.turn service.advance turn).processes,
      proc.Guards (sweepInterval service.config) (pool.turn service.advance turn).memory := by
  refine Pool.turn_asserted (fun shared proc => proc.Guards (sweepInterval service.config) shared) guards
    (fun proc moves own => Service.advance_guards (heeds proc moves) own) ?_
  intro proc moves _ other _ held
  exact Process.guards_mono held fun id => Service.advance_attended (heeds proc moves)

/-- A heartbeat that answered `active` is not undone, however its store calls and those of other operations take
turns: as long as each write heeds the others, its server is active while the last heartbeat is less than an
interval old. -/
theorem heartbeat_undisturbed (service : Service) (pool : Pool Clocked Process) (turns : List (Turn Surroundings))
    (starts : ∀ proc ∈ pool.processes, proc.starting = true)
    (heeded : Along (Pool.turn service.advance) service.Heeds pool turns) : ∀ call response,
      Process.heartbeat call (.finished (.ok response)) ∈ (run (Pool.turn service.advance) pool turns).processes →
      response.serverStatus = .active →
      ∀ row ∈ (run (Pool.turn service.advance) pool turns).memory.table.rows, parseUuid call.id = some row.id →
        recent (sweepInterval service.config) (run (Pool.turn service.advance) pool turns).memory.clock row = true →
        row.status = .active := by
  have initial : ∀ proc ∈ pool.processes, proc.Guards (sweepInterval service.config) pool.memory := by
    intro proc mem
    have start := starts proc mem
    unfold Process.starting at start
    split at start <;> trivial
  have guards := heeded.run_invariant initial fun pool turn held heeds => Service.turn_guards heeds held
  intro call response mem active row held named
  exact guards _ mem active row held named

end

namespace Sample

def backendRow (status : ServerStatus) : ServerRecord where
  id := rowId
  name := "mcp-k8s"
  spiffeId := caller.id
  version := "1.4.0"
  host := "10.0.3.7"
  port := 8443
  protocol := "https"
  capabilities := ⟨["list_pods"], [], []⟩
  status := status
  policyProfile := "default"
  lastHeartbeat := some (130 * second)
  leaseEpoch := 1
  capabilityHash := "list_pods"
  syncState := .unacked
  lastPlatformAckVersion := ""
  lastPlatformAckAt := none
  rateLimit := none
  rateBurst := none
  routingStrategy := "round_robin"
  createdAt := 110 * second
  updatedAt := 130 * second

theorem rowId_canonical : parseUuid rowId = some rowId := by decide +kernel

def backendTable (status : ServerStatus) : ServerTable :=
  ⟨[backendRow status], by simp, by simp, by simpa [backendRow] using rowId_canonical, by simp [backendRow]⟩

def turn (position : Nat) : Turn Surroundings := ⟨position, ⟨0, none, gatewayId, rowId⟩⟩

def sweeping : Process := .sweep .listStale

def beating : Process := .heartbeat ⟨some caller, rowId, ⟨rowId, 1, ""⟩⟩ .get

def contended (status : ServerStatus) (clock : Time) : Pool Clocked Process :=
  ⟨⟨backendTable status, clock⟩, [sweeping, beating]⟩

def answer : Process → Option (HeartbeatCall × HeartbeatResponse)
  | .heartbeat call (.finished result) => result.toOption.map fun response => (call, response)
  | _ => none

theorem answer_eq_some {proc : Process} {response : HeartbeatResponse}
    (answered : answer proc = some (call, response)) : proc = .heartbeat call (.finished (.ok response)) := by
  unfold answer at answered
  split at answered
  next other result =>
    cases result with
    | error error => cases answered
    | ok reply =>
      cases answered
      rfl
  next => cases answered

def sweptOut : Process → Bool
  | .sweep .finished => true
  | _ => false

theorem sweptOut_iff (proc : Process) : sweptOut proc = true ↔ proc = .sweep .finished := by
  unfold sweptOut
  split <;> simp_all

end Sample

theorem resumed_heartbeat_undisturbed :
    let final := run (Pool.turn Sample.service.advance) (Sample.contended .stale (210 * second))
      ([0, 1, 1, 0, 1, 0, 0].map Sample.turn)
    ∃ call response, Process.heartbeat call (.finished (.ok response)) ∈ final.processes ∧
      response.serverStatus = .active ∧
      ∃ row ∈ final.memory.table.rows, parseUuid call.id = some row.id ∧
        recent (sweepInterval Sample.service.config) final.memory.clock row = true ∧ row.status = .active := by
  intro final
  have heeded : Along (Pool.turn Sample.service.advance) Sample.service.Heeds
      (Sample.contended .stale (210 * second)) ([0, 1, 1, 0, 1, 0, 0].map Sample.turn) := by decide +kernel
  obtain ⟨proc, mem, ⟨call, response⟩, answered, active, row, held, named, beaten⟩ :
      ∃ proc ∈ final.processes, ∃ reply ∈ Sample.answer proc, reply.2.serverStatus = .active ∧
        ∃ row ∈ final.memory.table.rows, parseUuid reply.1.id = some row.id ∧
          recent (sweepInterval Sample.service.config) final.memory.clock row = true := by decide +kernel
  obtain rfl := Sample.answer_eq_some answered
  refine ⟨call, response, mem, active, row, held, named, beaten, ?_⟩
  exact heartbeat_undisturbed Sample.service _ _ (by decide) heeded call response mem active row held named beaten

theorem heartbeat_undone :
    let final := run (Pool.turn Sample.service.advance) (Sample.contended .active (200 * second))
      ([0, 1, 1, 0, 0, 0, 0].map Sample.turn)
    ∃ call response, final.processes = [.sweep .finished, .heartbeat call (.finished (.ok response))] ∧
      response.serverStatus = .active ∧
      ∃ row ∈ final.memory.table.rows, parseUuid call.id = some row.id ∧
        recent (sweepInterval Sample.service.config) final.memory.clock row = true ∧ row.status = .stale := by
  intro final
  obtain ⟨two, ⟨first, before, swept⟩, second, after, ⟨call, response⟩, answered, active, row, held, facts⟩ :
      final.processes.length = 2 ∧ (∃ proc ∈ final.processes[0]?, Sample.sweptOut proc = true) ∧
        ∃ proc ∈ final.processes[1]?, ∃ reply ∈ Sample.answer proc, reply.2.serverStatus = .active ∧
          ∃ row ∈ final.memory.table.rows, parseUuid reply.1.id = some row.id ∧
            recent (sweepInterval Sample.service.config) final.memory.clock row = true ∧ row.status = .stale := by
    decide +kernel
  obtain rfl := (Sample.sweptOut_iff first).mp swept
  obtain rfl := Sample.answer_eq_some answered
  refine ⟨call, response, ?_, active, row, held, facts⟩
  obtain ⟨sweep, beat, found⟩ := List.length_eq_two.mp two
  rw [found] at before after ⊢
  cases before
  cases after
  rfl

end Undisturbed

section Lawful

instance : Fintype Event where
  elems := {.heartbeat, .heartbeatMissed, .expired, .approved, .deregistered}
  complete := by intro event; cases event <;> decide

def Edge (status next : ServerStatus) : Prop :=
  ∃ event, transition status event = some next

instance (status next : ServerStatus) : Decidable (Edge status next) :=
  inferInstanceAs (Decidable (∃ _ : Event, _))

/-- The status that a process is about to write follows from the one that is stored: a heartbeat finds no expired row,
the first list of a sweep only active and stale ones, and a refresh a status that leads to the one it read. -/
def Process.Follows (row : ServerRecord) : Process → Prop
  | .heartbeat call (.updateStatus _ _ _ _) => parseUuid call.id = some row.id → row.status ≠ .expired
  | .heartbeat _ (.update record _ _ _) =>
    parseUuid record.id = some row.id → record.status = row.status ∨ Edge row.status record.status
  | .refresh _ (.update record _) =>
    parseUuid record.id = some row.id → record.status = row.status ∨ Edge row.status record.status
  | .sweep (.markStale (server :: _) _) =>
    parseUuid server.id = some row.id → row.status = .active ∨ row.status = .stale
  | _ => True

instance (row : ServerRecord) (proc : Process) : Decidable (proc.Follows row) := by
  unfold Process.Follows
  split <;> infer_instance

def Follows (pool : Pool Clocked Process) (turn : Turn Surroundings) : Prop :=
  ∀ proc ∈ pool.processes[turn.position]?, ∀ row ∈ pool.memory.table.rows, proc.Follows row

instance : (pool : Pool Clocked Process) → (turn : Turn Surroundings) → Decidable (Follows pool turn) :=
  fun _ _ => inferInstanceAs (Decidable (∀ proc ∈ (_ : Option Process), _))

def Process.registers : Process → Bool
  | .register _ _ => true
  | _ => false

/-- A turn that changes the status of a row is one of a registration, or the table leads from the status that was
stored to the one that is; and only a registration makes an expired row active. -/
structure Service.Lawful (service : Service) (pool : Pool Clocked Process) (turn : Turn Surroundings) : Prop where
  edge : ∀ row ∈ pool.memory.table.rows, ∀ later ∈ (pool.turn service.advance turn).memory.table.rows,
    row.id = later.id → later.status ≠ row.status →
    (∃ proc ∈ pool.processes[turn.position]?, proc.registers = true) ∨ Edge row.status later.status
  revived : ∀ row ∈ pool.memory.table.rows, ∀ later ∈ (pool.turn service.advance turn).memory.table.rows,
    row.id = later.id → row.status = .expired → later.status = .active →
    ∃ proc ∈ pool.processes[turn.position]?, proc.registers = true

theorem edge_active_iff (status : ServerStatus) : .active = status ∨ Edge status .active ↔ status ≠ .expired := by
  cases status <;> decide

theorem edge_stale_iff (status : ServerStatus) :
    .stale = status ∨ Edge status .stale ↔ status = .active ∨ status = .stale := by
  cases status <;> decide

theorem edge_expired (status : ServerStatus) : Edge status .expired :=
  ⟨.expired, by cases status <;> rfl⟩

section

variable {service : Service} {now : Time} {proc : Process} {row written : ServerRecord}

theorem Rewrites.follows_iff (rewrites : Rewrites service now proc row written) : proc.Follows row ↔
      proc.registers = true ∨ written.status = row.status ∨ Edge row.status written.status := by
  cases rewrites with
  | resumed call record next moved asked _ named =>
    have active := transition_heartbeat moved
    subst active
    simp [Process.Follows, Process.registers, named, edge_active_iff]
  | beaten => simp [Process.Follows, Process.registers, heartbeatRow]
  | refreshed _ _ _ _ _ _ named => simp [Process.Follows, Process.registers, named]
  | pushed _ _ _ _ named => simp [Process.Follows, Process.registers, named]
  | renewed => simp [Process.Follows, Process.registers]
  | staled _ _ _ _ named => simp [Process.Follows, Process.registers, named, edge_stale_iff]
  | expired => simp [Process.Follows, Process.registers, edge_expired]

theorem Process.follows_or_rewrites (service : Service) (now : Time) (proc : Process) (row : ServerRecord) :
    proc.Follows row ∨ ∃ written, Rewrites service now proc row written := by
  cases proc with
  | heartbeat call stage =>
    cases stage with
    | updateStatus record next moved asked =>
      by_cases named : parseUuid call.id = some row.id
      · exact .inr ⟨_, .resumed call record next moved asked row named⟩
      · exact .inl fun spelled => absurd spelled named
    | update record status toolNames asked =>
      by_cases named : parseUuid record.id = some row.id
      · exact .inr ⟨_, .refreshed call record status toolNames asked row named⟩
      · exact .inl fun spelled => absurd spelled named
    | _ => exact .inl trivial
  | register => exact .inl trivial
  | refresh serverId stage =>
    cases stage with
    | update record toolNames =>
      by_cases named : parseUuid record.id = some row.id
      · exact .inr ⟨_, .pushed serverId record toolNames row named⟩
      · exact .inl fun spelled => absurd spelled named
    | _ => exact .inl trivial
  | sweep stage =>
    cases stage with
    | markStale servers listed =>
      cases servers with
      | nil => exact .inl trivial
      | cons server rest =>
        by_cases named : parseUuid server.id = some row.id
        · exact .inr ⟨_, .staled server rest listed row named⟩
        · exact .inl fun spelled => absurd spelled named
    | _ => exact .inl trivial

theorem Service.lawful_iff {pool : Pool Clocked Process} {turn : Turn Surroundings}
    (anchored : Anchors pool) : service.Lawful pool turn ↔ Follows pool turn := by
  cases moving : pool.processes[turn.position]? with
  | none =>
    have unmoved : pool.turn service.advance turn = pool := Pool.turn_none moving
    refine iff_of_true ⟨?_, ?_⟩ (by simp [Follows, moving])
    · intro row held later present same changed
      rw [unmoved] at present
      rw [pool.memory.table.row_unique held present same] at changed
      exact absurd rfl changed
    · intro row held later present same expired active
      rw [unmoved] at present
      rw [pool.memory.table.row_unique held present same, active] at expired
      cases expired
  | some proc =>
    have moved : pool.turn service.advance turn = _ := Pool.turn_some moving
    have stores := service.advance_stores turn.input pool.memory proc
    constructor
    · intro lawful other mem row held
      rw [moving, Option.mem_some_iff] at mem
      subst mem
      rcases proc.follows_or_rewrites service (turn.input.now pool.memory) row with follows | ⟨written, rewrites⟩
      · exact follows
      rw [rewrites.follows_iff]
      by_cases same : written.status = row.status
      · exact .inr (.inl same)
      · have present : written ∈ (pool.turn service.advance turn).memory.table.rows := by
          rw [moved]
          exact Service.advance_writes (anchored proc (List.mem_of_getElem? moving)) held rewrites
        rcases lawful.edge row held written present rewrites.id.symm same with ⟨_, mem, registers⟩ | edge
        · rw [moving, Option.mem_some_iff] at mem
          subst mem
          exact .inl registers
        · exact .inr (.inr edge)
    · intro follows
      have edge : ∀ row ∈ pool.memory.table.rows, ∀ later ∈ (pool.turn service.advance turn).memory.table.rows,
          row.id = later.id → later.status ≠ row.status →
          (∃ proc ∈ pool.processes[turn.position]?, proc.registers = true) ∨ Edge row.status later.status := by
        intro row held later present same changed
        rw [moved] at present
        rcases stores.same_id held present same with rfl | rewrites
        · exact absurd rfl changed
        · rcases rewrites.follows_iff.mp (follows proc moving row held) with registers | unchanged | edge
          · exact .inl ⟨proc, moving, registers⟩
          · exact absurd unchanged changed
          · exact .inr edge
      refine ⟨edge, ?_⟩
      intro row held later present same expired active
      rcases edge row held later present same (by simp [expired, active]) with registers | leads
      · exact registers
      · rw [expired, active] at leads
        exact absurd leads (by decide)

end

/-- However the store calls of heartbeats, sweeps, registrations and refreshes take turns, the status of a record moves
along the transition table or by a registration exactly if each other status write follows from the stored status. -/
theorem status_lawful_iff (service : Service) (pool : Pool Clocked Process) (turns : List (Turn Surroundings))
    (starts : ∀ proc ∈ pool.processes, proc.starting = true) :
    Along (Pool.turn service.advance) service.Lawful pool turns ↔
      Along (Pool.turn service.advance) Follows pool turns := by
  have initial : Anchors pool := anchors_of_starting starts
  exact Along.congr_of_invariant initial (fun pool turn anchored _ => service.turn_anchors anchored turn)
    fun pool turn anchored => Service.lawful_iff anchored

theorem resumed_status_lawful :
    Along (Pool.turn Sample.service.advance) Sample.service.Lawful (Sample.contended .stale (210 * second))
      ([0, 1, 1, 0, 1, 0, 0].map Sample.turn) :=
  (status_lawful_iff Sample.service _ _ (by decide)).mpr (by decide +kernel)

theorem expired_row_revived :
    let before := run (Pool.turn Sample.service.advance) (Sample.contended .stale (410 * second))
      ([1, 0, 0, 0, 0].map Sample.turn)
    (∃ row ∈ before.memory.table.rows, ∃ later ∈ (before.turn Sample.service.advance (Sample.turn 1)).memory.table.rows,
        row.id = later.id ∧ row.status = .expired ∧ later.status = .active) ∧
    ¬ Along (Pool.turn Sample.service.advance) Sample.service.Lawful (Sample.contended .stale (410 * second))
      ([1, 0, 0, 0, 0].map Sample.turn ++ [Sample.turn 1]) := by
  intro before
  have moved : ∃ row ∈ before.memory.table.rows,
      ∃ later ∈ (before.turn Sample.service.advance (Sample.turn 1)).memory.table.rows,
        row.id = later.id ∧ row.status = .expired ∧ later.status = .active := by decide +kernel
  have beats : ¬ ∃ proc ∈ before.processes[(Sample.turn 1).position]?, proc.registers = true := by
    decide +kernel
  refine ⟨moved, ?_⟩
  intro along
  have lawful : Sample.service.Lawful before (Sample.turn 1) := along.last
  obtain ⟨row, held, later, present, same, expired, active⟩ := moved
  exact beats (lawful.revived row held later present same expired active)

end Lawful

end McpGateway.Registration
