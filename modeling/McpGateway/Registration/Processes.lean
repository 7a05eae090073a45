import McpGateway.Registration.Operations
import McpGateway.Shared.Interleaving

namespace McpGateway.Registration

open Shared Store

structure HeartbeatCall where
  caller : Option Identity
  id : String
  request : HeartbeatRequest

-- The store call a heartbeat makes next. `record` is the row as the first call read it, at the time `asked`.
inductive HeartbeatStage where
  | get
  | updateStatus (record : ServerRecord) (next : ServerStatus)
      (moved : transition record.status .heartbeat = some next) (asked : Time)
  | updateHeartbeat (record : ServerRecord) (status : ServerStatus) (asked : Time)
  | update (record : ServerRecord) (status : ServerStatus) (toolNames : List String) (asked : Time)
  | refreshServer (reply : HeartbeatResponse)
  | finished (result : Except ServiceError HeartbeatResponse)

structure RegisterCall where
  caller : Option Identity
  request : RegistrationRequest

inductive RegisterStage where
  | getBySPIFFEID
  | update (context : RegisterContext) (old : ServerRecord)
  | create (context : RegisterContext)
  | finished (result : Except ServiceError RegistrationResponse)

inductive RefreshStage where
  | get
  | update (record : ServerRecord) (toolNames : List String)
  | refreshServer
  | finished (refreshed : Bool)

inductive SweepStage where
  | listStale
  | markStale (servers : List ServerRecord) (listed : ∀ server ∈ servers, server.status = .active)
  | listExpired
  | markExpired (servers : List ServerRecord)
  | finished

inductive Process where
  | heartbeat (call : HeartbeatCall) (stage : HeartbeatStage)
  | register (call : RegisterCall) (stage : RegisterStage)
  | refresh (serverId : String) (stage : RefreshStage)
  | sweep (stage : SweepStage)

def Process.starting : Process → Bool
  | .heartbeat _ .get => true
  | .register _ .getBySPIFFEID => true
  | .refresh _ .get => true
  | .sweep .listStale => true
  | _ => false

structure Clocked where
  table : ServerTable
  clock : Time

structure Surroundings where
  elapsed : Nat
  toolNames : Option (List String)
  generated : String
  assigned : String

def Service.beginHeartbeat (service : Service) (call : HeartbeatCall) (record : ServerRecord) (now : Time) :
    HeartbeatStage :=
  if resolveHeartbeatAction call.request record = .reRegister then
    .finished (.ok (service.heartbeatResponse record record.status .reRegister record.capabilityHash now))
  else
    match moved : transition record.status .heartbeat with
    | none =>
      .finished (.error (.invalidRequest ("invalid transition: status=" ++ record.status.text ++ " event=heartbeat")))
    | some next =>
      if next = record.status then .updateHeartbeat record next now else .updateStatus record next moved now

def Service.advanceHeartbeat (service : Service) (call : HeartbeatCall) (around : Surroundings)
    (table : ServerTable) (now : Time) : HeartbeatStage → ServerTable × HeartbeatStage
  | .get =>
    match heartbeatRecord table call.caller call.id with
    | .error error => (table, .finished (.error error))
    | .ok record => (table, service.beginHeartbeat call record now)
  | .updateStatus record next _ asked =>
    match table.updateStatus call.id next now with
    | .error cause => (table, .finished (.error (.store "update status" cause)))
    | .ok table => (table, .updateHeartbeat record next asked)
  | .updateHeartbeat record status asked =>
    match table.updateHeartbeat call.id now with
    | .error cause => (table, .finished (.error (.store "update heartbeat" cause)))
    | .ok table =>
      match service.refreshedTools call.request ⟨now, around.toolNames⟩ record with
      | some toolNames => (table, .update record status toolNames asked)
      | none =>
        (table, .finished (.ok (service.heartbeatResponse record status (correctiveAction call.request record)
          record.capabilityHash asked)))
  | .update record status toolNames asked =>
    match table.update (refreshedRecord record (trimSpace call.request.capabilityHash) toolNames) now with
    | .error _ =>
      (table, .finished (.ok (service.heartbeatResponse record status (correctiveAction call.request record)
        record.capabilityHash asked)))
    | .ok table =>
      (table, .refreshServer (service.heartbeatResponse record status (correctiveAction call.request record)
        (trimSpace call.request.capabilityHash) asked))
  | .refreshServer reply => (table, .finished (.ok reply))
  | .finished result => (table, .finished result)

def Service.advanceRegister (service : Service) (call : RegisterCall) (around : Surroundings)
    (table : ServerTable) (now : Time) : RegisterStage → ServerTable × RegisterStage
  | .getBySPIFFEID =>
    match service.admit call.caller call.request with
    | .error error => (table, .finished (.error error))
    | .ok caller =>
      match table.getBySPIFFEID caller.id with
      | .ok old => (table, .update ⟨now, around.generated, around.assigned⟩ old)
      | .error .noRows => (table, .create ⟨now, around.generated, around.assigned⟩)
      | .error cause => (table, .finished (.error (.store "lookup by spiffe id" cause)))
  | .update context old =>
    let record := renewedRecord (service.newRecord (callerId call.caller) call.request context) old
    match table.update record now with
    | .error cause => (table, .finished (.error (.store "update existing registration" cause)))
    | .ok table => (table, .finished (.ok (service.registrationResponse record)))
  | .create context =>
    let record := service.newRecord (callerId call.caller) call.request context
    match table.create record context.assigned now with
    | .error cause => (table, .finished (.error (.store "create registration" cause)))
    | .ok table => (table, .finished (.ok (service.registrationResponse record)))
  | .finished result => (table, .finished result)

def Service.advanceRefresh (service : Service) (serverId : String) (around : Surroundings) (table : ServerTable)
    (now : Time) : RefreshStage → ServerTable × RefreshStage
  | .get =>
    match table.get serverId with
    | .error _ => (table, .finished false)
    | .ok record =>
      match service.listedTools ⟨now, around.toolNames⟩ with
      | none => (table, .finished false)
      | some toolNames => (table, .update record toolNames)
  | .update record toolNames =>
    match table.update (refreshedRecord record record.capabilityHash toolNames) now with
    | .error _ => (table, .finished false)
    | .ok table => (table, .refreshServer)
  | .refreshServer => (table, .finished true)
  | .finished refreshed => (table, .finished refreshed)

theorem listStale_active {table : ServerTable} {threshold : Int} {now : Time} {servers : List ServerRecord}
    (listed : table.listStale threshold now = .ok servers) : ∀ server ∈ servers, server.status = .active := by
  unfold ServerTable.listStale at listed
  split_ifs at listed
  cases listed
  intro server mem
  have chosen := (List.mem_filter.mp ((List.mem_insertionSort _).mp mem)).2
  rw [Bool.and_eq_true, beq_iff_eq] at chosen
  exact chosen.2

def advanceSweep (config : Option Config) (table : ServerTable) (now : Time) : SweepStage → ServerTable × SweepStage
  | .listStale =>
    match listed : table.listStale (sweepInterval config) now with
    | .error _ => (table, .listExpired)
    | .ok servers => (table, .markStale servers (listStale_active listed))
  | .markStale [] _ => (table, .listExpired)
  | .markStale (server :: rest) listed =>
    ((transitionServer table server .heartbeatMissed now).getD table,
      .markStale rest fun other mem => listed other (List.mem_cons_of_mem server mem))
  | .listExpired =>
    match table.listExpired (expiredThreshold config) now with
    | .error _ => (table, .finished)
    | .ok servers => (table, .markExpired servers)
  | .markExpired [] => (table, .finished)
  | .markExpired (server :: rest) => ((transitionServer table server .expired now).getD table, .markExpired rest)
  | .finished => (table, .finished)

def Service.advanceProcess (service : Service) (around : Surroundings) (table : ServerTable) (now : Time) :
    Process → ServerTable × Process
  | .heartbeat call stage =>
    let (table, stage) := service.advanceHeartbeat call around table now stage
    (table, .heartbeat call stage)
  | .register call stage =>
    let (table, stage) := service.advanceRegister call around table now stage
    (table, .register call stage)
  | .refresh serverId stage =>
    let (table, stage) := service.advanceRefresh serverId around table now stage
    (table, .refresh serverId stage)
  | .sweep stage =>
    let (table, stage) := advanceSweep service.config table now stage
    (table, .sweep stage)

def Surroundings.now (around : Surroundings) (shared : Clocked) : Time :=
  shared.clock + around.elapsed

def Service.advance (service : Service) (around : Surroundings) (shared : Clocked) (proc : Process) :
    Clocked × Process :=
  let (table, proc) := service.advanceProcess around shared.table (around.now shared) proc
  (⟨table, around.now shared⟩, proc)

inductive Rewrites (service : Service) (now : Time) : Process → ServerRecord → ServerRecord → Prop where
  | resumed (call : HeartbeatCall) (record : ServerRecord) (next : ServerStatus)
      (moved : transition record.status .heartbeat = some next) (asked : Time) (row : ServerRecord)
      (named : parseUuid call.id = some row.id) :
      Rewrites service now (.heartbeat call (.updateStatus record next moved asked)) row (statusRow row next now)
  | beaten (call : HeartbeatCall) (record : ServerRecord) (status : ServerStatus) (asked : Time) (row : ServerRecord)
      (named : parseUuid call.id = some row.id) :
      Rewrites service now (.heartbeat call (.updateHeartbeat record status asked)) row (heartbeatRow row now)
  | refreshed (call : HeartbeatCall) (record : ServerRecord) (status : ServerStatus) (toolNames : List String)
      (asked : Time) (row : ServerRecord) (named : parseUuid record.id = some row.id) :
      Rewrites service now (.heartbeat call (.update record status toolNames asked)) row
        (updatedRow row (refreshedRecord record (trimSpace call.request.capabilityHash) toolNames) now)
  | pushed (serverId : String) (record : ServerRecord) (toolNames : List String) (row : ServerRecord)
      (named : parseUuid record.id = some row.id) :
      Rewrites service now (.refresh serverId (.update record toolNames)) row
        (updatedRow row (refreshedRecord record record.capabilityHash toolNames) now)
  | renewed (call : RegisterCall) (context : RegisterContext) (old row : ServerRecord)
      (named : parseUuid old.id = some row.id) :
      Rewrites service now (.register call (.update context old)) row (updatedRow row
        (renewedRecord (service.newRecord (callerId call.caller) call.request context) old) now)
  | staled (server : ServerRecord) (rest : List ServerRecord)
      (listed : ∀ other ∈ server :: rest, other.status = .active) (row : ServerRecord)
      (named : parseUuid server.id = some row.id) :
      Rewrites service now (.sweep (.markStale (server :: rest) listed)) row (statusRow row .stale now)
  | expired (server : ServerRecord) (rest : List ServerRecord) (row : ServerRecord)
      (named : parseUuid server.id = some row.id) :
      Rewrites service now (.sweep (.markExpired (server :: rest))) row (statusRow row .expired now)

inductive Stores (service : Service) (table : ServerTable) (now : Time) : Process → ServerTable → Prop where
  | unchanged (proc : Process) : Stores service table now proc table
  | rewritten (proc : Process) (next : ServerTable) (key : String) (change : ServerRecord → ServerRecord)
      (rows : next.rows = ServerTable.modifyRow table.rows key change)
      (rewrites : ∀ row, row.id = key → Rewrites service now proc row (change row)) :
      Stores service table now proc next
  | created (call : RegisterCall) (context : RegisterContext) (next : ServerTable)
      (rows : next.rows = table.rows ++
        [insertedRow (service.newRecord (callerId call.caller) call.request context) context.assigned now]) :
      Stores service table now (.register call (.create context)) next

section

variable {service : Service} {table next : ServerTable} {now : Time} {proc : Process}

theorem Rewrites.id {row written : ServerRecord} (rewrites : Rewrites service now proc row written) :
    written.id = row.id := by
  cases rewrites <;> rfl

theorem Stores.of_modify {id : String} {change : ServerRecord → ServerRecord}
    (modified : table.modify id change = .ok next)
    (rewrites : ∀ row, parseUuid id = some row.id → Rewrites service now proc row (change row)) :
    Stores service table now proc next := by
  obtain ⟨key, parsed, rows⟩ := ServerTable.modify_ok modified
  exact .rewritten proc next key change rows fun row named => rewrites row (named ▸ parsed)

theorem Stores.of_transition {server : ServerRecord} {event : Event} {target : ServerStatus}
    (moves : ∀ moved, transition server.status event = some moved → moved = target)
    (rewrites : ∀ row, parseUuid server.id = some row.id → Rewrites service now proc row (statusRow row target now)) :
    Stores service table now proc ((transitionServer table server event now).getD table) := by
  unfold transitionServer
  split
  · exact .unchanged proc
  next moved allowed =>
    have same := moves moved allowed
    subst same
    cases updated : table.updateStatus server.id moved now with
    | error cause => exact .unchanged proc
    | ok after => exact .of_modify updated rewrites

inductive Begun (record : ServerRecord) (now : Time) : HeartbeatStage → Prop where
  | answered (reply : HeartbeatResponse) (status : reply.serverStatus = record.status) :
      Begun record now (.finished (.ok reply))
  | refused (error : ServiceError) : Begun record now (.finished (.error error))
  | settled (status : ServerStatus) : Begun record now (.updateHeartbeat record status now)
  | moving (next : ServerStatus) (moved : transition record.status .heartbeat = some next) :
      Begun record now (.updateStatus record next moved now)

theorem Service.begun (service : Service) (call : HeartbeatCall) (record : ServerRecord) (now : Time) :
    Begun record now (service.beginHeartbeat call record now) := by
  unfold Service.beginHeartbeat
  split_ifs
  · exact .answered _ (by simp)
  · split
    · exact .refused _
    next next moved =>
      split_ifs
      · exact .settled next
      · exact .moving next moved

theorem Service.advanceHeartbeat_stores (call : HeartbeatCall) (around : Surroundings) (stage : HeartbeatStage) :
    Stores service table now (.heartbeat call stage)
      (service.advanceHeartbeat call around table now stage).1 := by
  cases stage with
  | get =>
    rw [Service.advanceHeartbeat]
    split <;> exact .unchanged _
  | updateStatus record next moved asked =>
    rw [Service.advanceHeartbeat]
    split
    · exact .unchanged _
    next updated => exact .of_modify updated fun row named => .resumed call record next moved asked row named
  | updateHeartbeat record status asked =>
    rw [Service.advanceHeartbeat]
    split
    · exact .unchanged _
    next updated =>
      split <;> exact .of_modify updated fun row named => .beaten call record status asked row named
  | update record status toolNames asked =>
    rw [Service.advanceHeartbeat]
    split
    · exact .unchanged _
    next updated => exact .of_modify updated fun row named => .refreshed call record status toolNames asked row named
  | refreshServer reply => exact .unchanged _
  | finished result => exact .unchanged _

theorem Service.advanceRegister_stores (call : RegisterCall) (around : Surroundings) (stage : RegisterStage) :
    Stores service table now (.register call stage) (service.advanceRegister call around table now stage).1 := by
  cases stage with
  | getBySPIFFEID =>
    rw [Service.advanceRegister]
    split
    · exact .unchanged _
    · split <;> exact .unchanged _
  | update context old =>
    rw [Service.advanceRegister]
    split
    · exact .unchanged _
    next updated => exact .of_modify updated fun row named => .renewed call context old row named
  | create context =>
    rw [Service.advanceRegister]
    split
    · exact .unchanged _
    next created => exact .created call context _ (ServerTable.create_ok created)
  | finished result => exact .unchanged _

theorem Service.advanceRefresh_stores (serverId : String) (around : Surroundings) (stage : RefreshStage) :
    Stores service table now (.refresh serverId stage)
      (service.advanceRefresh serverId around table now stage).1 := by
  cases stage with
  | get =>
    rw [Service.advanceRefresh]
    split
    · exact .unchanged _
    · split <;> exact .unchanged _
  | update record toolNames =>
    rw [Service.advanceRefresh]
    split
    · exact .unchanged _
    next updated => exact .of_modify updated fun row named => .pushed serverId record toolNames row named
  | refreshServer => exact .unchanged _
  | finished refreshed => exact .unchanged _

theorem transition_expired {status moved : ServerStatus} (allowed : transition status .expired = some moved) :
    moved = .expired := by
  cases status <;> simp_all [transition]

theorem advanceSweep_stores (stage : SweepStage) :
    Stores service table now (.sweep stage) (advanceSweep service.config table now stage).1 := by
  cases stage with
  | listStale =>
    rw [advanceSweep]
    split <;> exact .unchanged _
  | markStale servers listed =>
    cases servers with
    | nil => exact .unchanged _
    | cons server rest =>
      refine .of_transition (fun moved allowed => ?_) fun row named => .staled server rest listed row named
      rw [listed server (by simp)] at allowed
      exact (Option.some.inj allowed).symm
  | listExpired =>
    rw [advanceSweep]
    split <;> exact .unchanged _
  | markExpired servers =>
    cases servers with
    | nil => exact .unchanged _
    | cons server rest =>
      exact .of_transition (fun _ => transition_expired) fun row named => .expired server rest row named
  | finished => exact .unchanged _

theorem Service.advance_heartbeat (service : Service) (around : Surroundings) (shared : Clocked)
    (call : HeartbeatCall) (stage : HeartbeatStage) : service.advance around shared (.heartbeat call stage) =
      (⟨(service.advanceHeartbeat call around shared.table (around.now shared) stage).1,
          around.now shared⟩,
        .heartbeat call (service.advanceHeartbeat call around shared.table (around.now shared) stage).2) :=
  rfl

theorem Service.advance_register (service : Service) (around : Surroundings) (shared : Clocked)
    (call : RegisterCall) (stage : RegisterStage) : service.advance around shared (.register call stage) =
      (⟨(service.advanceRegister call around shared.table (around.now shared) stage).1,
          around.now shared⟩,
        .register call (service.advanceRegister call around shared.table (around.now shared) stage).2) :=
  rfl

theorem Service.advance_stores (service : Service) (around : Surroundings) (shared : Clocked)
    (proc : Process) :
    Stores service shared.table (around.now shared) proc (service.advance around shared proc).1.table := by
  cases proc with
  | heartbeat call stage => exact Service.advanceHeartbeat_stores call around stage
  | register call stage => exact Service.advanceRegister_stores call around stage
  | refresh serverId stage => exact Service.advanceRefresh_stores serverId around stage
  | sweep stage => exact advanceSweep_stores stage

section

variable (stores : Stores service table now proc next)

include stores

theorem Stores.survives {row : ServerRecord} (held : row ∈ table.rows) :
    ∃ later ∈ next.rows, later = row ∨ Rewrites service now proc row later := by
  cases stores with
  | unchanged => exact ⟨row, held, .inl rfl⟩
  | rewritten _ _ key change rows rewrites =>
    by_cases named : row.id = key
    · refine ⟨change row, ?_, .inr (rewrites row named)⟩
      rw [rows, ServerTable.mem_modifyRow]
      exact .inr ⟨row, held, named, rfl⟩
    · refine ⟨row, ?_, .inl rfl⟩
      rw [rows, ServerTable.mem_modifyRow]
      exact .inl ⟨held, named⟩
  | created call context _ rows =>
    refine ⟨row, ?_, .inl rfl⟩
    rw [rows]
    exact List.mem_append_left _ held

theorem Stores.same_id {row later : ServerRecord} (held : row ∈ table.rows) (mem : later ∈ next.rows)
    (same : row.id = later.id) :
    later = row ∨ Rewrites service now proc row later := by
  obtain ⟨other, present, became⟩ := stores.survives held
  have named : other.id = later.id := by
    rcases became with rfl | rewrites
    · exact same
    · rw [rewrites.id, same]
  rwa [next.row_unique present mem named] at became

theorem Stores.origin {later : ServerRecord} (mem : later ∈ next.rows) :
    (∃ row ∈ table.rows, row.id = later.id ∧ (later = row ∨ Rewrites service now proc row later)) ∨
      ∃ call context, proc = .register call (.create context) ∧ next.rows = table.rows ++ [later] ∧
        later = insertedRow (service.newRecord (callerId call.caller) call.request context) context.assigned now := by
  cases stores with
  | unchanged => exact .inl ⟨later, mem, rfl, .inl rfl⟩
  | rewritten _ _ key change rows rewrites =>
    rw [rows, ServerTable.mem_modifyRow] at mem
    rcases mem with ⟨held, _⟩ | ⟨row, held, named, rfl⟩
    · exact .inl ⟨later, held, rfl, .inl rfl⟩
    · exact .inl ⟨row, held, (rewrites row named).id.symm, .inr (rewrites row named)⟩
  | created call context _ rows =>
    have appended := mem
    rw [rows, List.mem_append, List.mem_singleton] at appended
    rcases appended with held | rfl
    · exact .inl ⟨later, held, rfl, .inl rfl⟩
    · exact .inr ⟨call, context, rfl, rows, rfl⟩

end

end

end McpGateway.Registration
