import McpGateway.Registration.StatusRaces

namespace McpGateway.Registration

open Shared Store

def Process.caller : Process → Option String
  | .heartbeat call _ => some (callerId call.caller)
  | .register call _ => some (callerId call.caller)
  | .refresh _ _ => none
  | .sweep _ => none

def HeartbeatCall.Holds (call : HeartbeatCall) (record : ServerRecord) : Prop :=
  record.spiffeId = callerId call.caller ∧ parseUuid call.id = some record.id

def HeartbeatStage.Holds (call : HeartbeatCall) : HeartbeatStage → Prop
  | .updateStatus record _ _ _ => call.Holds record
  | .updateHeartbeat record _ _ => call.Holds record
  | .update record _ _ _ => call.Holds record
  | _ => True

def Process.Holds : Process → Prop
  | .heartbeat call stage => stage.Holds call
  | _ => True

variable {record : ServerRecord}

variable {call : HeartbeatCall}

section

variable {service : Service} {table next : ServerTable} {now : Time} {proc : Process}

theorem heartbeatRecord_holds (found : heartbeatRecord table call.caller call.id = .ok record) : call.Holds record := by
  obtain ⟨identity, caller, own⟩ := heartbeatRecord_own found
  refine ⟨?_, (heartbeatRecord_ok found).2⟩
  rw [callerId, caller]
  exact own

variable {stage : HeartbeatStage} {caller : String}

theorem Begun.holds (begun : Begun record now stage) (holds : call.Holds record) : stage.Holds call := by
  cases begun with
  | answered => trivial
  | refused => trivial
  | settled => exact holds
  | moving => exact holds

open Service (advanceHeartbeat)

theorem Service.advanceHeartbeat_holds (around : Surroundings) (holds : stage.Holds call) :
    (service.advanceHeartbeat call around table now stage).2.Holds call := by
  cases stage with
  | get =>
    rw [advanceHeartbeat]
    split
    · trivial
    next record found =>
      have begun := service.begun call record now
      generalize service.beginHeartbeat call record now = stage at begun
      exact begun.holds (heartbeatRecord_holds found)
  | updateStatus record next moved asked =>
    rw [advanceHeartbeat]
    split
    · trivial
    · exact holds
  | updateHeartbeat record status asked =>
    rw [advanceHeartbeat]
    split
    · trivial
    · split
      · exact holds
      · trivial
  | update record status toolNames asked =>
    rw [advanceHeartbeat]
    split <;> trivial
  | refreshServer reply => trivial
  | finished result => trivial

theorem Service.advance_holds (around : Surroundings) (shared : Clocked) (holds : proc.Holds) :
    (service.advance around shared proc).2.Holds := by
  cases proc with
  | heartbeat call stage => exact service.advanceHeartbeat_holds around holds
  | _ => trivial

variable {row : ServerRecord}

theorem HeartbeatCall.Holds.owner (holds : call.Holds record) (anchored : Registration.Anchored table record)
    (held : row ∈ table.rows) (named : parseUuid call.id = some row.id) : row.spiffeId = callerId call.caller := by
  obtain ⟨other, present, same, owner⟩ := anchored.row
  have both : row.id = record.id := Option.some.inj (named.symm.trans holds.2)
  rw [table.row_unique held present (both.trans same.symm), owner, holds.1]

theorem Rewrites.owner {written : ServerRecord} (rewrites : Rewrites service now proc row written)
    (anchored : proc.Anchored table) (holds : proc.Holds) (held : row ∈ table.rows)
    (own : proc.caller = some caller) : row.spiffeId = caller := by
  cases rewrites with
  | resumed call record next moved asked _ named =>
    cases own
    have holds : call.Holds record := holds
    exact holds.owner (anchored.snapshot record rfl) held named
  | beaten call record status asked _ named =>
    cases own
    have holds : call.Holds record := holds
    exact holds.owner (anchored.snapshot record rfl) held named
  | refreshed call record _ _ _ _ named =>
    cases own
    have holds : call.Holds record := holds
    exact ((anchored.snapshot record rfl).owner held named).2.trans holds.1
  | pushed => cases own
  | renewed call context old _ named =>
    cases own
    have mine : old.spiffeId = callerId call.caller := anchored.owns
    exact ((anchored.snapshot old rfl).owner held named).2.trans mine
  | staled => cases own
  | expired => cases own

theorem filter_modifyRow {rows : List ServerRecord} {key : String} {change : ServerRecord → ServerRecord}
    {keep : ServerRecord → Bool} (outside : ∀ row ∈ rows, row.id = key → keep row = false ∧ keep (change row) = false) :
    (ServerTable.modifyRow rows key change).filter keep = rows.filter keep := by
  induction rows with
  | nil => rfl
  | cons row rest ih =>
    have others := ih fun row mem => outside row (List.mem_cons_of_mem _ mem)
    simp only [ServerTable.modifyRow, List.map_cons, List.filter_cons] at others ⊢
    by_cases named : row.id = key
    · obtain ⟨before, after⟩ := outside row List.mem_cons_self named
      simp [named, before, after, others]
    · simp [named, others]

theorem Stores.others (stores : Stores service table now proc next) (anchored : proc.Anchored table)
    (holds : proc.Holds) (own : proc.caller = some caller) :
    next.rows.filter (·.spiffeId ≠ caller) = table.rows.filter (·.spiffeId ≠ caller) := by
  cases stores with
  | unchanged => rfl
  | rewritten _ _ key change rows rewrites =>
    rw [rows]
    refine filter_modifyRow ?_
    intro row held named
    have mine := (rewrites row named).owner anchored holds held own
    have kept := (rewrites row named).spiffeId anchored held
    simp [mine, kept]
  | created call context _ rows =>
    cases own
    rw [rows, List.filter_append]
    simp [insertedRow, Service.newRecord]

def refusal : Except ServiceError HeartbeatResponse → Bool
  | .error .unauthorized => true
  | .error (.forbidden _) => true
  | .error .notFound => true
  | .error (.invalidRequest _) => false
  | .error (.store _ _) => false
  | .ok reply => reply.action == .reRegister

def HeartbeatStage.Past : HeartbeatStage → Prop
  | .get => False
  | .updateStatus _ _ _ _ => True
  | .updateHeartbeat _ _ _ => True
  | .update _ _ _ _ => True
  | .refreshServer reply => refusal (.ok reply) = false
  | .finished result => refusal result = false

def Process.Past : Process → Prop
  | .heartbeat _ stage => stage.Past
  | _ => True

theorem refusal_corrective (record : ServerRecord) (status : ServerStatus) (request : HeartbeatRequest) (hash : String)
    (asked : Time) :
    refusal (.ok (service.heartbeatResponse record status (correctiveAction request record) hash asked)) = false := by
  unfold correctiveAction
  split_ifs <;> rfl

theorem Service.advanceHeartbeat_past (around : Surroundings) (past : stage.Past) :
    (service.advanceHeartbeat call around table now stage).2.Past := by
  cases stage with
  | get => cases past
  | updateStatus record next moved asked =>
    rw [advanceHeartbeat]
    split
    · rfl
    · trivial
  | updateHeartbeat record status asked =>
    rw [advanceHeartbeat]
    split
    · rfl
    · split
      · trivial
      · exact refusal_corrective record status call.request record.capabilityHash asked
  | update record status toolNames asked =>
    rw [advanceHeartbeat]
    split
    · exact refusal_corrective record status call.request record.capabilityHash asked
    · exact refusal_corrective record status call.request (trimSpace call.request.capabilityHash) asked
  | refreshServer reply => exact past
  | finished result => exact past

theorem Service.advance_past (around : Surroundings) (shared : Clocked) (past : proc.Past) :
    (service.advance around shared proc).2.Past := by
  cases proc with
  | heartbeat call stage => exact service.advanceHeartbeat_past around past
  | _ => trivial

theorem Service.advance_unchanged (around : Surroundings) (shared : Clocked) (checking : ¬ proc.Past) :
    (service.advance around shared proc).1.table = shared.table := by
  cases proc with
  | heartbeat call stage =>
    cases stage with
    | get =>
      rw [Service.advance_heartbeat, advanceHeartbeat]
      split <;> rfl
    | refreshServer reply => rfl
    | finished result => rfl
    | _ => exact absurd trivial checking
  | _ => exact absurd trivial checking

end

structure Isolated (pool : Pool Clocked Process) : Prop where
  anchors : Anchors pool
  holds : ∀ proc ∈ pool.processes, proc.Holds

theorem isolated_of_starting {pool : Pool Clocked Process}
    (starts : ∀ proc ∈ pool.processes, proc.starting = true) : Isolated pool := by
  refine ⟨anchors_of_starting starts, ?_⟩
  intro proc mem
  have start := starts proc mem
  unfold Process.starting at start
  split at start <;> trivial

section

variable {service : Service} {pool : Pool Clocked Process}

theorem Isolated.turn (isolated : Isolated pool) (turn : Turn Surroundings) :
    Isolated (pool.turn service.advance turn) := by
  refine ⟨service.turn_anchors isolated.anchors turn, ?_⟩
  refine Pool.turn_asserted (fun (_ : Clocked) (proc : Process) => proc.Holds) isolated.holds ?_ ?_
  · intro proc _ holds
    exact service.advance_holds turn.input pool.memory holds
  · intro proc _ _ other _ holds
    exact holds

theorem Isolated.run (isolated : Isolated pool) (turns : List (Turn Surroundings)) :
    Isolated (run (Pool.turn service.advance) pool turns) := by
  induction turns generalizing pool with
  | nil => exact isolated
  | cons turn rest ih => exact ih (isolated.turn turn)

def Service.Confined (service : Service) (pool : Pool Clocked Process) (turn : Turn Surroundings) : Prop :=
  ∀ proc ∈ pool.processes[turn.position]?, ∀ caller ∈ proc.caller,
    (pool.turn service.advance turn).memory.table.rows.filter (·.spiffeId ≠ caller) =
      pool.memory.table.rows.filter (·.spiffeId ≠ caller)

theorem Isolated.confined (isolated : Isolated pool) (turn : Turn Surroundings) : service.Confined pool turn := by
  intro proc moves caller own
  have mem := List.mem_of_getElem? moves
  rw [Pool.turn_some moves]
  exact (service.advance_stores turn.input pool.memory proc).others (isolated.anchors proc mem)
    (isolated.holds proc mem) own

theorem Isolated.along (isolated : Isolated pool) (turns : List (Turn Surroundings)) :
    Along (Pool.turn service.advance) service.Confined pool turns := by
  induction turns generalizing pool with
  | nil => trivial
  | cons turn rest ih => exact ⟨isolated.confined turn, ih (isolated.turn turn)⟩

theorem Isolated.turn_row (isolated : Isolated pool) (turn : Turn Surroundings)
    (anchored : Anchored pool.memory.table record) : Anchored (pool.turn service.advance turn).memory.table record := by
  cases moving : pool.processes[turn.position]? with
  | none => rwa [Pool.turn_none moving]
  | some proc =>
    rw [Pool.turn_some moving]
    exact anchored.stored (service.advance_stores turn.input pool.memory proc)
      (isolated.anchors proc (List.mem_of_getElem? moving))

theorem Isolated.run_row (isolated : Isolated pool) (turns : List (Turn Surroundings))
    (anchored : Anchored pool.memory.table record) :
    Anchored (Shared.run (Pool.turn service.advance) pool turns).memory.table record := by
  induction turns generalizing pool with
  | nil => exact anchored
  | cons turn rest ih => exact ih (isolated.turn turn) (isolated.turn_row turn anchored)

variable {position : Nat}

theorem turn_past (turn : Turn Surroundings) (past : ∀ proc ∈ pool.processes[position]?, proc.Past) :
    ∀ proc ∈ (pool.turn service.advance turn).processes[position]?, proc.Past := by
  cases moving : pool.processes[turn.position]? with
  | none => rwa [Pool.turn_none moving]
  | some proc =>
    rw [Pool.turn_some moving]
    intro other found
    simp only [List.getElem?_set, Option.mem_def] at found
    split_ifs at found with same inside
    · cases found
      subst same
      exact service.advance_past turn.input pool.memory (past proc moving)
    · exact past other found

theorem run_past (turns : List (Turn Surroundings)) (past : ∀ proc ∈ pool.processes[position]?, proc.Past) :
    ∀ proc ∈ (run (Pool.turn service.advance) pool turns).processes[position]?, proc.Past := by
  induction turns generalizing pool with
  | nil => exact past
  | cons turn rest ih => exact ih (turn_past turn past)

theorem turn_refused (turn : Turn Surroundings) (rest : List (Turn Surroundings))
    {result : Except ServiceError HeartbeatResponse}
    (ended : (run (Pool.turn service.advance) pool (turn :: rest)).processes[turn.position]? =
      some (.heartbeat call (.finished result)))
    (refused : refusal result = true) : (pool.turn service.advance turn).memory.table = pool.memory.table := by
  cases moving : pool.processes[turn.position]? with
  | none => rw [Pool.turn_none moving]
  | some proc =>
    have checking : ¬ proc.Past := by
      intro past
      have never : refusal result = false :=
        run_past (turn :: rest) (fun other found => by rwa [← Option.some.inj (moving.symm.trans found)]) _ ended
      rw [refused] at never
      cases never
    rw [Pool.turn_some moving]
    exact service.advance_unchanged turn.input pool.memory checking

end

/-- However the store calls of registrations and heartbeats take turns with one another and with refreshes
and sweeps, the ones made for a caller change that caller's row alone, no row changes its owner or gets
another beside it, and a refused heartbeat writes nothing. -/
theorem registrations_isolated (service : Service) (pool : Pool Clocked Process) (turns : List (Turn Surroundings))
    (starts : ∀ proc ∈ pool.processes, proc.starting = true) :
    Along (Pool.turn service.advance) service.Confined pool turns ∧ (∀ before after, turns = before ++ after →
        ∀ row ∈ (run (Pool.turn service.advance) pool before).memory.table.rows,
          ∀ later ∈ (run (Pool.turn service.advance) pool turns).memory.table.rows,
            row.id = later.id → later.spiffeId = row.spiffeId) ∧
      ((run (Pool.turn service.advance) pool turns).memory.table.rows.map ServerRecord.spiffeId).Nodup ∧
      ∀ before turn after, turns = before ++ turn :: after → ∀ call result,
        (run (Pool.turn service.advance) pool turns).processes[turn.position]? =
            some (.heartbeat call (.finished result)) → refusal result = true →
          (run (Pool.turn service.advance) pool (before ++ [turn])).memory.table =
            (run (Pool.turn service.advance) pool before).memory.table := by
  have isolated := isolated_of_starting starts
  refine ⟨isolated.along turns, ?_, ServerTable.uniqueSpiffeId _, ?_⟩
  · rintro before after rfl row held later present same
    rw [run, List.foldl_append] at present
    have kept : Anchored (run (Pool.turn service.advance) (run (Pool.turn service.advance) pool before)
        after).memory.table row := (isolated.run before).run_row after (anchored_of_mem held)
    obtain ⟨other, there, named, owner⟩ := kept.row
    rw [ServerTable.row_unique _ present there (same.symm.trans named.symm)]
    exact owner
  · rintro before turn after rfl call result ended refused
    rw [run, List.foldl_append] at ended ⊢
    exact turn_refused turn after ended refused

namespace Sample

def otherCaller : Identity := { caller with id := "spiffe://cluster.local/ns/tools/sa/vm" }

def trespassing : Pool Clocked Process :=
  ⟨⟨backendTable .stale, 200 * second⟩, [.heartbeat ⟨some otherCaller, rowId, ⟨rowId, 1, ""⟩⟩ .get,
      .register ⟨some caller, request ["list_pods"]⟩ .getBySPIFFEID, beating]⟩

def endsRefused : Option Process → Bool
  | some (.heartbeat _ (.finished result)) => refusal result
  | _ => false

theorem endsRefused_iff {proc : Option Process} (ends : endsRefused proc = true) :
    ∃ call result, proc = some (.heartbeat call (.finished result)) ∧ refusal result = true := by
  unfold endsRefused at ends
  split at ends
  next call result => exact ⟨call, result, rfl, ends⟩
  next => cases ends

end Sample

open Sample

theorem trespass_isolated : Along (Pool.turn service.advance) service.Confined trespassing
        ([2, 1, 0, 2, 1, 2].map turn) ∧
      (run (Pool.turn service.advance) trespassing ([2, 1, 0].map turn)).memory.table =
        (run (Pool.turn service.advance) trespassing ([2, 1].map turn)).memory.table := by
  obtain ⟨confined, -, -, unwritten⟩ := registrations_isolated service trespassing
    ([2, 1, 0, 2, 1, 2].map turn) (by decide)
  have ends : endsRefused (run (Pool.turn service.advance) trespassing
      ([2, 1, 0, 2, 1, 2].map turn)).processes[0]? = true := by decide +kernel
  obtain ⟨call, result, ended, refused⟩ := endsRefused_iff ends
  exact ⟨confined, unwritten ([2, 1].map turn) (turn 0) ([2, 1, 2].map turn) rfl call result ended refused⟩

end McpGateway.Registration
