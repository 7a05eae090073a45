import McpGateway.Orchestrator.Plan
import McpGateway.Shared.Runs

namespace McpGateway.Orchestrator

open Shared

inductive ToolReply where
  | answered (output : String) (isError : Bool)
  | failed (error : String)

def ToolReply.succeeds : ToolReply → Bool
  | .answered _ isError => !isError
  | .failed _ => false

structure ToolCall where
  toolName : String
  arguments : Object

def PlanStep.call (step : PlanStep) : ToolCall :=
  ⟨step.toolName, step.arguments⟩

-- json.Unmarshal into a plan: what it leaves there, also of a text it refuses, and why it refuses it.
abbrev Unmarshal := String → OrchestratePlan → OrchestratePlan × Option String

-- `first` and `second` are what the language model answers to the prompt and to the corrective one.
def generatePlan (unmarshal : Unmarshal) (first second : Except String String) : Except String OrchestratePlan :=
  match first with
  | .error error => .error ("llm chat: " ++ error)
  | .ok content =>
    match unmarshal content ⟨"", [], []⟩ with
    | (plan, none) => .ok plan
    | (remains, some _) =>
      match second with
      | .error error => .error ("llm retry chat: " ++ error)
      | .ok retried =>
        match unmarshal retried remains with
        | (plan, none) => .ok plan
        | (_, some _) => .error ("llm returned invalid JSON after retry: " ++ retried)

structure Progress where
  calls : List ToolCall
  stepResults : List (StepResult ToolReply)

def Progress.executeStep (execute : Nat → PlanStep → ToolReply) (progress : Progress) (step : PlanStep) : Progress :=
  if step.requiresApproval then { progress with stepResults := progress.stepResults ++ [⟨step, none⟩] }
  else
    ⟨progress.calls ++ [step.call], progress.stepResults ++ [⟨step, some (execute progress.stepResults.length step)⟩]⟩

def orchestrate (search : String → Except String (List CandidateTool)) (unmarshal : Unmarshal)
    (first second : Except String String) (execute : Nat → PlanStep → ToolReply) (arguments : Object) :
    Except String (OrchestrateResult ToolReply) × List ToolCall :=
  match parseRequest arguments with
  | .error error => (.error ("invalid orchestrate request: " ++ error), [])
  | .ok request =>
    match makePlan request (search request.intent) (generatePlan unmarshal first second) with
    | .error error => (.error ("orchestration failed: " ++ error), [])
    | .ok plan =>
      match request.mode with
      | .plan => (.ok ⟨plan, []⟩, [])
      | .execute =>
        let progress := run (Progress.executeStep execute) ⟨[], []⟩ plan.steps
        (.ok ⟨plan, progress.stepResults⟩, progress.calls)

def unattended (steps : List PlanStep) : List PlanStep :=
  steps.filter fun step => !step.requiresApproval

def knownSteps (candidates : List CandidateTool) (steps : List PlanStep) : List PlanStep :=
  steps.filter fun step => step.toolName ∈ candidates.map CandidateTool.name

def vettedSteps (generated : OrchestratePlan) (candidates : List CandidateTool) : List PlanStep :=
  (knownSteps candidates generated.steps).take maxPlanSteps

theorem validatePlan_steps (generated : OrchestratePlan) (candidates : List CandidateTool) :
    (validatePlan generated candidates).steps = vettedSteps generated candidates := by
  unfold validatePlan vettedSteps
  dsimp only
  split_ifs with long
  · rfl
  · exact (List.take_of_length_le (not_lt.mp long)).symm

section

variable (execute : Nat → PlanStep → ToolReply)

theorem run_executeStep (progress : Progress) (steps : List PlanStep) :
    run (Progress.executeStep execute) progress steps = ⟨progress.calls ++ (unattended steps).map PlanStep.call,
        progress.stepResults ++
          executeSteps (fun position => execute (progress.stepResults.length + position)) steps⟩ := by
  induction steps generalizing progress with
  | nil => simp [run, unattended, executeSteps]
  | cons step rest ih =>
    rw [run, List.foldl_cons, ← run, ih]
    cases approval : step.requiresApproval with
    | true => simp [Progress.executeStep, approval, unattended, executeSteps, Nat.add_assoc, Nat.add_comm 1]
    | false => simp [Progress.executeStep, approval, unattended, executeSteps, Nat.add_assoc, Nat.add_comm 1]

variable (steps : List PlanStep)

theorem executed_plan : run (Progress.executeStep execute) ⟨[], []⟩ steps =
      ⟨(unattended steps).map PlanStep.call, executeSteps execute steps⟩ := by
  simp [run_executeStep]

theorem executeSteps_steps : (executeSteps execute steps).map StepResult.step = steps := by
  simp [executeSteps, List.mapIdx_eq_zipIdx_map, Function.comp_def]

theorem executeSteps_getElem? (position : Nat) :
    (executeSteps execute steps)[position]? = steps[position]?.map fun step =>
      ⟨step, if step.requiresApproval then none else some (execute position step)⟩ := by
  simp [executeSteps]

end

variable {candidates : List CandidateTool} {generated : OrchestratePlan}

section

variable {search : String → Except String (List CandidateTool)} {unmarshal : Unmarshal}
  {first second : Except String String} {execute : Nat → PlanStep → ToolReply} {arguments : Object}

theorem orchestrate_eq_handle : (orchestrate search unmarshal first second execute arguments).1 =
      handle search (generatePlan unmarshal first second) execute arguments := by
  unfold orchestrate handle
  cases parseRequest arguments with
  | error error => rfl
  | ok request =>
    dsimp only
    cases makePlan request (search request.intent) (generatePlan unmarshal first second) with
    | error error => rfl
    | ok plan => cases request.mode <;> simp [executed_plan]

variable {request : OrchestrateRequest}

theorem makePlan_ok {found : Except String (List CandidateTool)} {generated : Except String OrchestratePlan}
    {plan : OrchestratePlan} (made : makePlan request found generated = .ok plan) :
    ∃ candidates source, found = .ok candidates ∧ generated = .ok source ∧
      plan = validatePlan source (request.eligible candidates) := by
  unfold makePlan at made
  split at made
  · cases made
  next candidates =>
    split_ifs at made
    split at made
    · cases made
    next source =>
      cases made
      exact ⟨candidates, source, rfl, rfl, rfl⟩

theorem orchestrate_ok {result : OrchestrateResult ToolReply}
    (answered : (orchestrate search unmarshal first second execute arguments).1 = .ok result) :
    ∃ request candidates generated, parseRequest arguments = .ok request ∧ search request.intent = .ok candidates ∧
      generatePlan unmarshal first second = .ok generated ∧
      result.plan.steps = vettedSteps generated (request.eligible candidates) ∧
      (request.mode = .plan ∧ result.stepResults = [] ∧
          (orchestrate search unmarshal first second execute arguments).2 = [] ∨
        request.mode = .execute ∧ result.stepResults = executeSteps execute result.plan.steps ∧
          (orchestrate search unmarshal first second execute arguments).2 =
            (unattended result.plan.steps).map PlanStep.call) := by
  unfold orchestrate at answered ⊢
  cases parsed : parseRequest arguments with
  | error error =>
    rw [parsed] at answered
    cases answered
  | ok request =>
    rw [parsed] at answered
    dsimp only at answered ⊢
    cases made : makePlan request (search request.intent) (generatePlan unmarshal first second) with
    | error error =>
      rw [made] at answered
      cases answered
    | ok plan =>
      rw [made] at answered
      obtain ⟨candidates, generated, found, source, rfl⟩ := makePlan_ok made
      refine ⟨request, candidates, generated, rfl, found, source, ?_⟩
      cases mode : request.mode with
      | plan =>
        rw [mode] at answered
        cases answered
        exact ⟨validatePlan_steps _ _, .inl ⟨rfl, rfl, rfl⟩⟩
      | execute =>
        rw [mode] at answered
        cases answered
        refine ⟨validatePlan_steps _ _, .inr ⟨rfl, ?_, ?_⟩⟩
        · simp [executed_plan]
        · simp [executed_plan]

theorem orchestrate_execute (parsed : parseRequest arguments = .ok request) (mode : request.mode = .execute)
    (found : search request.intent = .ok candidates) (planned : generatePlan unmarshal first second = .ok generated)
    (some_candidate : request.eligible candidates ≠ []) : orchestrate search unmarshal first second execute arguments =
      (.ok ⟨validatePlan generated (request.eligible candidates),
        executeSteps execute (vettedSteps generated (request.eligible candidates))⟩,
        (unattended (vettedSteps generated (request.eligible candidates))).map PlanStep.call) := by
  simp [orchestrate, parsed, makePlan, found, some_candidate, planned, mode, executed_plan, validatePlan_steps]

theorem orchestrate_error {error : String}
    (refused : (orchestrate search unmarshal first second execute arguments).1 = .error error) :
    (orchestrate search unmarshal first second execute arguments).2 = [] := by
  unfold orchestrate at refused ⊢
  cases parsed : parseRequest arguments with
  | error error => rfl
  | ok request =>
    rw [parsed] at refused
    dsimp only at refused ⊢
    cases made : makePlan request (search request.intent) (generatePlan unmarshal first second) with
    | error error => rfl
    | ok plan =>
      rw [made] at refused
      cases mode : request.mode with
      | plan => rfl
      | execute =>
        rw [mode] at refused
        cases refused

end

structure Vetted (request : OrchestrateRequest) (candidates : List CandidateTool) (result : OrchestrateResult ToolReply)
    (calls : List ToolCall) : Prop where
  vetted : ∀ call ∈ calls, ∃ step ∈ result.plan.steps, call = step.call ∧ step.requiresApproval = false ∧
    step.toolName ∈ (request.eligible candidates).map CandidateTool.name
  ordered : calls.Sublist (result.plan.steps.map PlanStep.call)
  few : calls.length ≤ 10
  planned : request.mode = .plan → calls = []
  recorded : request.mode = .execute → result.stepResults.map StepResult.step = result.plan.steps

theorem mem_vettedSteps {step : PlanStep} (mem : step ∈ vettedSteps generated candidates) :
    step.toolName ∈ candidates.map CandidateTool.name := by
  have kept := List.mem_of_mem_take mem
  simpa using (List.mem_filter.mp kept).2

theorem vettedSteps_length (generated : OrchestratePlan) (candidates : List CandidateTool) :
    (vettedSteps generated candidates).length ≤ 10 :=
  List.length_take_le _ _

/-- Whatever is asked, found and planned: the tools called are those of the plan's steps that are candidates and need no
approval, in the plan's order; a refused request calls none. -/
theorem only_vetted_steps_executed (search : String → Except String (List CandidateTool)) (unmarshal : Unmarshal)
    (first second : Except String String) (execute : Nat → PlanStep → ToolReply) (arguments : Object) :
    let handled := orchestrate search unmarshal first second execute arguments
    (∀ error, handled.1 = .error error → handled.2 = []) ∧
      ∀ result, handled.1 = .ok result → ∃ request candidates, parseRequest arguments = .ok request ∧
        search request.intent = .ok candidates ∧ Vetted request candidates result handled.2 := by
  intro handled
  refine ⟨fun error => orchestrate_error, fun result answered => ?_⟩
  obtain ⟨request, candidates, generated, parsed, found, -, kept, modes⟩ := orchestrate_ok answered
  refine ⟨request, candidates, parsed, found, ?_⟩
  cases modes with
  | inl plans =>
    obtain ⟨mode, -, calls⟩ := plans
    rw [show handled.2 = [] from calls]
    exact ⟨by simp, by simp, by simp, fun _ => rfl, by simp [mode]⟩
  | inr executes =>
    obtain ⟨mode, results, calls⟩ := executes
    rw [show handled.2 = _ from calls]
    have inside : (unattended result.plan.steps).Sublist result.plan.steps := List.filter_sublist
    refine ⟨?_, inside.map _, ?_, by simp [mode], fun _ => by rw [results, executeSteps_steps]⟩
    · intro call mem
      obtain ⟨step, runs, rfl⟩ := List.mem_map.mp mem
      obtain ⟨planned, free⟩ := List.mem_filter.mp runs
      have candidate := mem_vettedSteps (kept ▸ planned)
      exact ⟨step, planned, rfl, by simpa using free, candidate⟩
    · have most := vettedSteps_length generated (request.eligible candidates)
      rw [List.length_map]
      exact inside.length_le.trans (kept ▸ most)

/-- Whatever number a step depends on that was executed: the plan has steps of that number, and they all were executed
before it and succeeded. -/
def DependenciesRespected (generated : OrchestratePlan) (results : List (StepResult ToolReply)) : Prop :=
  ∀ (position : Nat) (step : PlanStep) (reply : ToolReply), results[position]? = some ⟨step, some reply⟩ →
    ∀ number ∈ step.dependsOn, (∃ named ∈ generated.steps, named.stepNumber = number) ∧
      ∀ named ∈ generated.steps, named.stepNumber = number →
        ∃ prior < position, ∃ result : ToolReply, results[prior]? = some ⟨named, some result⟩ ∧ result.succeeds = true

-- The language model's plan, read from its front: `before` are the steps ahead of `step`, and those of them with a
-- candidate's tool are what is kept ahead of it.
structure Runs (candidates : List CandidateTool) (before : List PlanStep) (step : PlanStep) : Prop where
  known : step.toolName ∈ candidates.map CandidateTool.name
  early : (knownSteps candidates before).length < maxPlanSteps
  free : step.requiresApproval = false

/-- What a step that runs depends on are numbers of the plan, and every step of such a number stands in front of it,
runs as well, and is answered without an error. -/
def DependenciesAnswered (execute : Nat → PlanStep → ToolReply) (generated : OrchestratePlan)
    (candidates : List CandidateTool) : Prop :=
  ∀ before step after, generated.steps = before ++ step :: after → Runs candidates before step →
    ∀ number ∈ step.dependsOn, (∃ named ∈ generated.steps, named.stepNumber = number) ∧
      ∀ named ∈ generated.steps, named.stepNumber = number →
        ∃ prior between, before = prior ++ named :: between ∧ Runs candidates prior named ∧
          (execute (knownSteps candidates prior).length named).succeeds = true

theorem getElem?_filter_iff {α : Type} {p : α → Bool} {xs : List α} {position : Nat} {x : α} :
    (xs.filter p)[position]? = some x ↔
      ∃ before after, xs = before ++ x :: after ∧ p x = true ∧ (before.filter p).length = position := by
  induction xs generalizing position with
  | nil => simp
  | cons y rest ih =>
    constructor
    · intro found
      cases passes : p y with
      | false =>
        rw [List.filter_cons_of_neg (by simp [passes])] at found
        obtain ⟨before, after, rfl, own, count⟩ := ih.mp found
        exact ⟨y :: before, after, rfl, own, by simpa [passes] using count⟩
      | true =>
        rw [List.filter_cons_of_pos passes] at found
        cases position with
        | zero =>
          cases found
          exact ⟨[], rest, rfl, passes, rfl⟩
        | succ position =>
          obtain ⟨before, after, rfl, own, count⟩ := ih.mp found
          exact ⟨y :: before, after, rfl, own, by simpa [passes] using count⟩
    · rintro ⟨before, after, split, own, rfl⟩
      rw [split, List.filter_append, List.filter_cons_of_pos own, List.getElem?_append_right le_rfl, Nat.sub_self]
      rfl

theorem vettedSteps_getElem? {step : PlanStep} {position : Nat} :
    (vettedSteps generated candidates)[position]? = some step ∧ step.requiresApproval = false ↔
      ∃ before after, generated.steps = before ++ step :: after ∧ Runs candidates before step ∧
        (knownSteps candidates before).length = position := by
  rw [vettedSteps, List.getElem?_take]
  constructor
  · rintro ⟨kept, free⟩
    split_ifs at kept with early
    obtain ⟨before, after, split, known, rfl⟩ := getElem?_filter_iff.mp kept
    exact ⟨before, after, split, ⟨by simpa using known, early, free⟩, rfl⟩
  · rintro ⟨before, after, split, runs, rfl⟩
    rw [if_pos runs.early]
    exact ⟨getElem?_filter_iff.mpr ⟨before, after, split, by simpa using runs.known, rfl⟩, runs.free⟩

theorem executeSteps_ran_iff {execute : Nat → PlanStep → ToolReply} {steps : List PlanStep} {position : Nat}
    {step : PlanStep} {reply : ToolReply} : (executeSteps execute steps)[position]? = some ⟨step, some reply⟩ ↔
      steps[position]? = some step ∧ step.requiresApproval = false ∧ reply = execute position step := by
  rw [executeSteps_getElem?, Option.map_eq_some_iff]
  constructor
  · intro ran
    obtain ⟨own, listed, same⟩ := ran
    rw [StepResult.mk.injEq] at same
    obtain ⟨rfl, outcome⟩ := same
    split_ifs at outcome with approval
    exact ⟨listed, by simpa using approval, (Option.some.inj outcome).symm⟩
  · intro ran
    obtain ⟨listed, free, rfl⟩ := ran
    exact ⟨step, listed, by simp [free]⟩

-- Of two steps of the plan the one with fewer kept steps ahead of it comes first.
theorem split_before {α : Type} {p : α → Bool} {first later before after : List α} {x y : α}
    (same : first ++ x :: later = before ++ y :: after) (fewer : (first.filter p).length < (before.filter p).length) :
    ∃ between, before = first ++ x :: between := by
  obtain ⟨rest, rfl, -⟩ | ⟨rest, rfl, tail⟩ := List.append_eq_append_iff.mp same
  · cases rest with
    | nil => simp at fewer
    | cons z rest => simp_all
  · simp only [List.filter_append, List.length_append] at fewer
    omega

theorem dependenciesRespected_iff (execute : Nat → PlanStep → ToolReply) (generated : OrchestratePlan)
    (candidates : List CandidateTool) :
    DependenciesRespected generated (executeSteps execute (vettedSteps generated candidates)) ↔
      DependenciesAnswered execute generated candidates := by
  simp only [DependenciesRespected, executeSteps_ran_iff]
  constructor
  · intro respected before step after split runs number depends
    obtain ⟨kept, free⟩ := vettedSteps_getElem?.mpr ⟨before, after, split, runs, rfl⟩
    obtain ⟨carried, ran⟩ := respected _ step _ ⟨kept, free, rfl⟩ number depends
    refine ⟨carried, fun named mem own => ?_⟩
    obtain ⟨position, earlier, result, ⟨there, unattended, rfl⟩, succeeds⟩ := ran named mem own
    obtain ⟨prior, later, apart, priorRuns, rfl⟩ := vettedSteps_getElem?.mp ⟨there, unattended⟩
    obtain ⟨between, rfl⟩ := split_before (apart.symm.trans split) earlier
    exact ⟨prior, between, rfl, priorRuns, succeeds⟩
  · intro answered position step reply ran number depends
    obtain ⟨kept, free, -⟩ := ran
    obtain ⟨before, after, split, runs, rfl⟩ := vettedSteps_getElem?.mp ⟨kept, free⟩
    obtain ⟨carried, met⟩ := answered before step after split runs number depends
    refine ⟨carried, fun named mem own => ?_⟩
    obtain ⟨prior, between, rfl, priorRuns, succeeds⟩ := met named mem own
    obtain ⟨there, unattended⟩ := vettedSteps_getElem?.mpr
      ⟨prior, between ++ step :: after, by simpa using split, priorRuns, rfl⟩
    refine ⟨_, ?_, _, ⟨there, unattended, rfl⟩, succeeds⟩
    have one : 0 < (knownSteps candidates (named :: between)).length :=
      List.length_pos_of_mem (List.mem_filter.mpr ⟨List.mem_cons_self, by simpa using priorRuns.known⟩)
    simp only [knownSteps, List.filter_append, List.length_append] at one ⊢
    omega

namespace Sample

def podTools : List CandidateTool := [⟨"k8s.list_pods", .readOnly⟩, ⟨"k8s.get_pod", .readOnly⟩]

def listPods : PlanStep := ⟨1, "k8s.list_pods", [], "list the pods", [], false⟩

def getPod : PlanStep := ⟨2, "k8s.get_pod", [], "show the first", [1], false⟩

def podPlan : OrchestratePlan := ⟨"show a pod", [listPods, getPod], []⟩

def showPod : Object := [("intent", .string "show a pod")]

def orchestratePods (execute : Nat → PlanStep → ToolReply) :
    Except String (OrchestrateResult ToolReply) × List ToolCall :=
  orchestrate (fun _ => .ok podTools) (fun _ _ => (podPlan, none)) (.ok "") (.ok "") execute showPod

def succeeding (_ : Nat) (_ : PlanStep) : ToolReply := .answered "pods" false

def failing (_ : Nat) (_ : PlanStep) : ToolReply := .failed "backend unavailable"

theorem parsed_showPod : parseRequest showPod = .ok ⟨"show a pod", .execute, .strict, ""⟩ := by decide +kernel

theorem eligible_podTools :
    OrchestrateRequest.eligible ⟨"show a pod", .execute, .strict, ""⟩ podTools = podTools := by decide +kernel

theorem vetted_podPlan : vettedSteps podPlan podTools = podPlan.steps := by
  simp [vettedSteps, knownSteps, podPlan, listPods, getPod, podTools, maxPlanSteps]

theorem orchestratePods_eq (execute : Nat → PlanStep → ToolReply) :
    orchestratePods execute = (.ok ⟨validatePlan podPlan podTools, executeSteps execute podPlan.steps⟩,
      podPlan.steps.map PlanStep.call) := by
  have planned : generatePlan (fun _ _ => (podPlan, none)) (.ok "") (.ok "") = .ok podPlan := rfl
  have some_candidate : OrchestrateRequest.eligible ⟨"show a pod", .execute, .strict, ""⟩ podTools ≠ [] := by
    rw [eligible_podTools]
    exact List.cons_ne_nil _ _
  rw [orchestratePods, orchestrate_execute parsed_showPod rfl rfl planned some_candidate, eligible_podTools,
    vetted_podPlan]
  rfl

end Sample

open Sample

end McpGateway.Orchestrator
