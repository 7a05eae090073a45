import McpGateway.Registration.Handshake
import McpGateway.Shared.Interleaving

namespace McpGateway.Registration

open Shared Store Policy

structure ClassifiedServers where
  servers : ServerTable
  table : ClassificationTable

namespace ClassifiedServers

def Listed (state : ClassifiedServers) (name : String) : Prop :=
  ∃ server ∈ state.servers.rows, name ∈ server.capabilities.tools.map trimSpace

def Manual (state : ClassifiedServers) (name : String) (row : ToolClassification) : Prop :=
  state.table.lookup name = some row ∧ row.autoClassified = false

end ClassifiedServers

def activeToolNames (servers : ServerTable) : List String :=
  (((servers.rows.filter fun server => server.status = .active).flatMap fun server =>
    server.capabilities.tools.map trimSpace).filter (· ≠ "")).dedup

def adminClassification (name : String) (riskLevel : RiskLevel) (reason updatedBy : String) (now : Time) :
    ToolClassification :=
  { toolName := name, riskLevel := riskLevel, reason := reason, autoClassified := false,
    updatedBy := updatedBy, updatedAt := now }

-- What is left of a request. `classify` has the tools still to do with the caller for each;
-- it stands between the lookup and the upsert of the first of them once `chosen`.
inductive ClassificationJob where
  | classify (tools : List (String × String)) (chosen : Bool)
  | upsert (name : String) (riskLevel : RiskLevel) (reason updatedBy : String)
  | list
  | deleteNotIn (activeToolNames : List String)
  | done

def classifyNewToolsJob (capabilities : Capability) (callerId : String) : ClassificationJob :=
  .classify (capabilities.tools.map fun name => (name, callerId)) false

def syncClassificationsJob (servers : List ServerRecord) : ClassificationJob :=
  .classify (servers.flatMap fun server => server.capabilities.tools.map fun name => (name, server.spiffeId)) false

def ClassificationJob.Fresh : ClassificationJob → Prop
  | .classify _ chosen => chosen = false
  | .deleteNotIn _ => False
  | _ => True

structure StoreAnswer where
  answered : Bool
  now : Time

def ClassificationJob.advance (answer : StoreAnswer) (state : ClassifiedServers) (job : ClassificationJob) :
    ClassifiedServers × ClassificationJob :=
  match job with
  | .classify [] _ => (state, .done)
  | .classify ((name, callerId) :: rest) false =>
    if trimSpace name = "" ∨ answer.answered = false then (state, .classify rest false)
    else if (state.table.get (trimSpace name)).any fun old => !old.autoClassified then
      (state, .classify rest false)
    else (state, .classify ((name, callerId) :: rest) true)
  | .classify ((name, callerId) :: rest) true =>
    if answer.answered then
      ({ state with table := state.table.upsert (autoClassification (trimSpace name) callerId answer.now) },
        .classify rest false)
    else (state, .classify rest false)
  | .upsert name riskLevel reason updatedBy =>
    if answer.answered then
      ({ state with table := state.table.upsert (adminClassification name riskLevel reason updatedBy answer.now) },
        .done)
    else (state, .done)
  | .list => if answer.answered then (state, .deleteNotIn (activeToolNames state.servers)) else (state, .done)
  | .deleteNotIn names =>
    if answer.answered then ({ state with table := state.table.deleteNotIn names }, .done) else (state, .done)
  | .done => (state, .done)

def classifiedTable (callerId : String) (now : Time) (table : ClassificationTable) (name : String) :
    ClassificationTable :=
  if trimSpace name = "" then table
  else if (table.get (trimSpace name)).any fun old => !old.autoClassified then table
  else table.upsert (autoClassification (trimSpace name) callerId now)

inductive StoreStep where
  | job (turn : Turn StoreAnswer)
  | servers (next : ServerTable)

abbrev ClassificationJobs := Pool ClassifiedServers ClassificationJob

def ClassificationJobs.step (pool : ClassificationJobs) : StoreStep → ClassificationJobs
  | .job turn => Pool.turn ClassificationJob.advance pool turn
  | .servers next => { pool with memory := { pool.memory with servers := next } }

def ClassificationJob.Reclassifies (job : ClassificationJob) (tool : String) : Prop :=
  ∃ name riskLevel reason updatedBy, job = .upsert name riskLevel reason updatedBy ∧ trimSpace name = tool

def ClassificationJob.Chose (job : ClassificationJob) (tool : String) : Prop :=
  ∃ name callerId rest, job = .classify ((name, callerId) :: rest) true ∧ trimSpace name = tool

def ClassificationJob.Prunes (job : ClassificationJob) (tool : String) : Prop :=
  ∃ names, job = .deleteNotIn names ∧ tool ∉ names

/-- A step leaves the manual classification of a listed tool alone unless an admin classifies the tool again, or a prune
deletes it that found no active server with the tool. -/
def Survives (pool : ClassificationJobs) (step : StoreStep) : Prop :=
  ∀ tool row, pool.memory.Manual tool row → pool.memory.Listed tool →
    (pool.step step).memory.table.lookup tool = some row ∨
    ∃ turn job, step = .job turn ∧ pool.processes[turn.position]? = some job ∧
      (job.Reclassifies tool ∨ job.Prunes tool)

/-- No admin classifies a tool that an automatic classification has looked up and not yet written. -/
def Separate (pool : ClassificationJobs) : StoreStep → Prop
  | .job turn => ∀ job ∈ pool.processes[turn.position]?, ∀ tool, job.Reclassifies tool →
    ∀ other ∈ pool.processes, ¬ other.Chose tool
  | .servers _ => True

inductive StoreEffect (now : Time) (state : ClassifiedServers) : ClassificationJob → ClassifiedServers → Prop where
  | none (job : ClassificationJob) : StoreEffect now state job state
  | classified (name callerId : String) (rest : List (String × String)) :
    StoreEffect now state (.classify ((name, callerId) :: rest) true)
      { state with table := state.table.upsert (autoClassification (trimSpace name) callerId now) }
  | reclassified (name : String) (riskLevel : RiskLevel) (reason updatedBy : String) :
    StoreEffect now state (.upsert name riskLevel reason updatedBy)
      { state with table := state.table.upsert (adminClassification name riskLevel reason updatedBy now) }
  | pruned (names : List String) :
    StoreEffect now state (.deleteNotIn names) { state with table := state.table.deleteNotIn names }

-- What a request relies on: nothing it has looked up has been classified by hand since, and a prune keeps what
-- some listing of the servers has shown it.
structure ClassificationJob.Sound (state : ClassifiedServers) (job : ClassificationJob) : Prop where
  unclassified : ∀ tool, job.Chose tool → ∀ row, ¬ state.Manual tool row
  listed : ∀ names, job = .deleteNotIn names → ∃ servers, names = activeToolNames servers

section

variable {state next : ClassifiedServers} {job : ClassificationJob} {answer : StoreAnswer} {now : Time} {tool : String}
  {row : ToolClassification}

theorem advance_effect (answer : StoreAnswer) (state : ClassifiedServers) (job : ClassificationJob) :
    StoreEffect answer.now state job (job.advance answer state).1 := by
  fun_cases ClassificationJob.advance <;> constructor

theorem lookup_upsert (table : ClassificationTable) (classification : ToolClassification) :
    (table.upsert classification).lookup tool = if tool = trimSpace classification.toolName then
      some { classification with toolName := trimSpace classification.toolName } else table.lookup tool :=
  GoMap.lookup_insert_eq _ _ _ _

theorem activeToolNames_trimmed {servers : ServerTable} (kept : tool ∈ activeToolNames servers) :
    tool ≠ "" ∧ tool ∈ (activeToolNames servers).map trimSpace := by
  have listed := List.mem_dedup.mp kept
  refine ⟨by simpa using List.of_mem_filter listed, List.mem_map.mpr ⟨tool, kept, ?_⟩⟩
  obtain ⟨server, -, mem⟩ := List.mem_flatMap.mp (List.mem_of_mem_filter listed)
  obtain ⟨name, -, rfl⟩ := List.mem_map.mp mem
  exact trimSpace_trimSpace name

theorem StoreEffect.keeps (effect : StoreEffect now state job next) (sound : job.Sound state)
    (manual : state.Manual tool row) : next.table.lookup tool = some row ∨ job.Reclassifies tool ∨ job.Prunes tool := by
  cases effect with
  | none => exact .inl manual.1
  | classified name callerId rest =>
    -- the row of the tool to be written is not a manual one, so this is another's
    have other : tool ≠ trimSpace name := fun same =>
      sound.unclassified tool ⟨name, callerId, rest, rfl, same.symm⟩ row manual
    simp [lookup_upsert, autoClassification, other, manual.1]
  | reclassified name riskLevel reason updatedBy =>
    by_cases same : trimSpace name = tool
    · exact .inr (.inl ⟨name, riskLevel, reason, updatedBy, rfl, same⟩)
    · simp [lookup_upsert, adminClassification, Ne.symm same, manual.1]
  | pruned names =>
    by_cases kept : tool ∈ names
    · obtain ⟨servers, rfl⟩ := sound.listed names rfl
      rw [ClassificationTable.lookup_deleteNotIn, if_pos (activeToolNames_trimmed kept)]
      exact .inl manual.1
    · exact .inr (.inr ⟨names, rfl, kept⟩)

theorem StoreEffect.manual_before (effect : StoreEffect now state job next) (manual : next.Manual tool row) :
    state.Manual tool row ∨ job.Reclassifies tool := by
  obtain ⟨stored, byHand⟩ := manual
  cases effect with
  | none => exact .inl ⟨stored, byHand⟩
  | classified name callerId rest =>
    rw [lookup_upsert] at stored
    split_ifs at stored
    · rw [← Option.some.inj stored] at byHand
      simp [autoClassification] at byHand
    · exact .inl ⟨stored, byHand⟩
  | reclassified name riskLevel reason updatedBy =>
    by_cases same : trimSpace name = tool
    · exact .inr ⟨name, riskLevel, reason, updatedBy, rfl, same⟩
    · rw [lookup_upsert, adminClassification, if_neg (Ne.symm same)] at stored
      exact .inl ⟨stored, byHand⟩
  | pruned names =>
    rw [ClassificationTable.lookup_deleteNotIn] at stored
    split_ifs at stored
    exact .inl ⟨stored, byHand⟩

theorem done_sound : ClassificationJob.done.Sound state :=
  ⟨fun _ chose => by simp [ClassificationJob.Chose] at chose, by simp⟩

theorem unchosen_sound (tools : List (String × String)) : (ClassificationJob.classify tools false).Sound state :=
  ⟨fun _ chose => by simp [ClassificationJob.Chose] at chose, by simp⟩

theorem advance_own (answer : StoreAnswer) (state : ClassifiedServers) (job : ClassificationJob) :
    (job.advance answer state).2.Sound (job.advance answer state).1 := by
  fun_cases ClassificationJob.advance answer state job
  case case4 name callerId rest _ automatic =>
    refine ⟨fun tool chose row manual => automatic ?_, by simp⟩
    obtain ⟨_, _, _, same, rfl⟩ := chose
    cases same
    have found : state.table.get (trimSpace name) = some row := by
      rw [ClassificationTable.get, trimSpace_trimSpace]
      exact manual.1
    simp [found, manual.2]
  case case9 =>
    refine ⟨fun _ chose => by simp [ClassificationJob.Chose] at chose, fun names same => ?_⟩
    cases same
    exact ⟨state.servers, rfl⟩
  all_goals first | exact done_sound | exact unchosen_sound _

end

def ClassificationJobs.Sound (pool : ClassificationJobs) : Prop :=
  ∀ job ∈ pool.processes, job.Sound pool.memory

theorem step_classifications {pool : ClassificationJobs} {step : StoreStep} (sound : pool.Sound)
    (separate : Separate pool step) : (pool.step step).Sound := by
  cases step with
  | servers next => exact fun job mem => ⟨(sound job mem).unclassified, (sound job mem).listed⟩
  | job turn =>
    refine Pool.turn_asserted (fun state job => ClassificationJob.Sound state job) sound
      (fun job _ _ => advance_own turn.input pool.memory job) ?_
    intro job moves _ other mem kept
    refine ⟨fun tool chose row manual => ?_, kept.listed⟩
    cases (advance_effect turn.input pool.memory job).manual_before manual with
    | inl before => exact kept.unclassified tool chose row before
    | inr reclassifies => exact separate job moves tool reclassifies other mem chose

theorem survives_of_sound {pool : ClassificationJobs} (sound : pool.Sound) (step : StoreStep) : Survives pool step := by
  intro tool row manual _
  cases step with
  | servers next => exact .inl manual.1
  | job turn =>
    cases moving : pool.processes[turn.position]? with
    | none =>
      left
      rw [ClassificationJobs.step, Pool.turn_none moving]
      exact manual.1
    | some job =>
      have effect := advance_effect turn.input pool.memory job
      cases effect.keeps (sound job (List.mem_of_getElem? moving)) manual with
      | inl kept =>
        left
        rw [ClassificationJobs.step, Pool.turn_some moving]
        exact kept
      | inr exception => exact .inr ⟨turn, job, rfl, moving, exception⟩

namespace Sample

def byHand : ToolClassification := adminClassification "list_pods" .destructive "" "admin" 0

def classifiedByHand (servers : ServerTable) : ClassifiedServers := ⟨servers, ClassificationTable.upsert ∅ byHand⟩

def nextStep (position : Nat) : StoreStep := .job ⟨position, ⟨true, 0⟩⟩

end Sample

open Sample

end McpGateway.Registration
