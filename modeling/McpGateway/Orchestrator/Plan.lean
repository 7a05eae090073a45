import McpGateway.Shared.GoJson
import McpGateway.Types

namespace McpGateway.Orchestrator

open Shared

inductive SafetyLevel where
  | strict | readOnly
  deriving DecidableEq

inductive Mode where
  | plan | execute
  deriving DecidableEq

structure OrchestrateRequest where
  intent : String
  mode : Mode
  safetyLevel : SafetyLevel
  domain : String
  deriving DecidableEq

structure CandidateTool where
  name : String
  riskLevel : RiskLevel
  deriving DecidableEq

structure PlanStep where
  stepNumber : Int
  toolName : String
  arguments : Object
  purpose : String
  dependsOn : List Int
  requiresApproval : Bool

structure OrchestratePlan where
  summary : String
  steps : List PlanStep
  warnings : List String

-- args[key].(string), with "" for anything else.
def stringArgument (arguments : Object) (key : String) : String :=
  match arguments.lookup key with
  | some (.string value) => value
  | _ => ""

def parseMode (arguments : Object) : Except String Mode :=
  match trimSpace (stringArgument arguments "mode") with
  | "" => .ok .execute
  | "plan" => .ok .plan
  | "execute" => .ok .execute
  | _ => .error "mode must be 'plan' or 'execute'"

def parseSafetyLevel (arguments : Object) : Except String SafetyLevel :=
  match trimSpace (stringArgument arguments "safety_level") with
  | "" => .ok .strict
  | "strict" => .ok .strict
  | "read_only" => .ok .readOnly
  | _ => .error "safety_level must be 'strict' or 'read_only'"

def parseRequest (arguments : Object) : Except String OrchestrateRequest :=
  if trimSpace (stringArgument arguments "intent") = "" then .error "intent is required"
  else
    match parseMode arguments with
    | .error error => .error error
    | .ok mode =>
      match parseSafetyLevel arguments with
      | .error error => .error error
      | .ok safetyLevel =>
        .ok ⟨stringArgument arguments "intent", mode, safetyLevel, stringArgument arguments "domain"⟩

def SafetyLevel.admits : SafetyLevel → RiskLevel → Bool
  | .strict, risk => risk = .readOnly || risk = .unknown
  | .readOnly, risk => risk ≠ .destructive

def filterBySafety (candidates : List CandidateTool) (level : SafetyLevel) : List CandidateTool :=
  candidates.filter fun candidate => level.admits candidate.riskLevel

def filterByDomain (candidates : List CandidateTool) (domain : String) : List CandidateTool :=
  if toLower (trimSpace domain) = "" then candidates
  else candidates.filter fun candidate => contains (toLower candidate.name) (toLower (trimSpace domain))

def maxPlanSteps : Nat := 10

def fabricatedWarning (step : PlanStep) : String :=
  "removed fabricated tool " ++ quote step.toolName ++ " from plan"

def validatePlan (plan : OrchestratePlan) (candidates : List CandidateTool) : OrchestratePlan :=
  let known := fun step : PlanStep => step.toolName ∈ candidates.map CandidateTool.name
  let kept := plan.steps.filter known
  let warnings := plan.warnings ++ (plan.steps.filter fun step => ¬ known step).map fabricatedWarning
  if maxPlanSteps < kept.length then
    { plan with steps := kept.take maxPlanSteps, warnings := warnings ++ ["plan truncated to 10 steps"] }
  else { plan with steps := kept, warnings := warnings }

def OrchestrateRequest.eligible (request : OrchestrateRequest) (candidates : List CandidateTool) : List CandidateTool :=
  filterBySafety (if request.domain = "" then candidates else filterByDomain candidates request.domain)
    request.safetyLevel

def makePlan (request : OrchestrateRequest) (found : Except String (List CandidateTool))
    (generated : Except String OrchestratePlan) : Except String OrchestratePlan :=
  match found with
  | .error error => .error ("search tools: " ++ error)
  | .ok candidates =>
    if request.eligible candidates = [] then .error "no tools match intent within safety constraints"
    else
      match generated with
      | .error error => .error error
      | .ok plan => .ok (validatePlan plan (request.eligible candidates))

structure StepResult (Outcome : Type) where
  step : PlanStep
  -- Missing when the step is skipped for approval.
  outcome : Option Outcome

def executeSteps {Outcome : Type} (execute : Nat → PlanStep → Outcome) (steps : List PlanStep) :
    List (StepResult Outcome) :=
  steps.mapIdx fun position step => ⟨step, if step.requiresApproval then none else some (execute position step)⟩

structure OrchestrateResult (Outcome : Type) where
  plan : OrchestratePlan
  stepResults : List (StepResult Outcome)

def handle {Outcome : Type} (search : String → Except String (List CandidateTool)) (generated : Except String OrchestratePlan)
    (execute : Nat → PlanStep → Outcome) (arguments : Object) : Except String (OrchestrateResult Outcome) :=
  match parseRequest arguments with
  | .error error => .error ("invalid orchestrate request: " ++ error)
  | .ok request =>
    match makePlan request (search request.intent) generated with
    | .error error => .error ("orchestration failed: " ++ error)
    | .ok plan =>
      match request.mode with
      | .plan => .ok ⟨plan, []⟩
      | .execute => .ok ⟨plan, executeSteps execute plan.steps⟩

theorem mem_eligible {request : OrchestrateRequest} {candidates : List CandidateTool} {candidate : CandidateTool}
    (mem : candidate ∈ request.eligible candidates) : candidate ∈ candidates ∧ candidate.riskLevel ≠ .destructive := by
  obtain ⟨chosen, safe⟩ := List.mem_filter.mp mem
  constructor
  · split_ifs at chosen
    · exact chosen
    · unfold filterByDomain at chosen
      split_ifs at chosen
      · exact chosen
      · exact (List.mem_filter.mp chosen).1
  · rintro destructive
    rw [destructive] at safe
    cases level : request.safetyLevel with
    | strict => simp [level, SafetyLevel.admits] at safe
    | readOnly => simp [level, SafetyLevel.admits] at safe

theorem mem_validatePlan {plan : OrchestratePlan} {candidates : List CandidateTool} {step : PlanStep}
    (mem : step ∈ (validatePlan plan candidates).steps) : ∃ candidate ∈ candidates, candidate.name = step.toolName := by
  have kept : step ∈ plan.steps.filter fun step => step.toolName ∈ candidates.map CandidateTool.name := by
    unfold validatePlan at mem
    dsimp only at mem
    split_ifs at mem
    · exact List.mem_of_mem_take mem
    · exact mem
  simpa using (List.mem_filter.mp kept).2

theorem makePlan_step {request : OrchestrateRequest} {found : Except String (List CandidateTool)}
    {generated : Except String OrchestratePlan} {plan : OrchestratePlan} {step : PlanStep}
    (made : makePlan request found generated = .ok plan) (mem : step ∈ plan.steps) :
    ∃ candidates, found = .ok candidates ∧ ∃ candidate ∈ candidates, candidate.name = step.toolName ∧
      candidate.riskLevel ≠ .destructive := by
  unfold makePlan at made
  split at made
  · cases made
  next candidates =>
    split_ifs at made
    split at made
    · cases made
    · cases made
      obtain ⟨candidate, chosen, named⟩ := mem_validatePlan mem
      obtain ⟨listed, safe⟩ := mem_eligible chosen
      exact ⟨candidates, rfl, candidate, listed, named, safe⟩

theorem handle_executed {Outcome : Type} {search : String → Except String (List CandidateTool)}
    {generated : Except String OrchestratePlan} {execute : Nat → PlanStep → Outcome} {arguments : Object}
    {result : OrchestrateResult Outcome} {step : StepResult Outcome} {outcome : Outcome}
    (handled : handle search generated execute arguments = .ok result) (mem : step ∈ result.stepResults)
    (ran : step.outcome = some outcome) :
    ∃ position intent candidates, outcome = execute position step.step ∧ search intent = .ok candidates ∧
      ∃ candidate ∈ candidates, candidate.name = step.step.toolName ∧ candidate.riskLevel ≠ .destructive := by
  unfold handle at handled
  split at handled
  · cases handled
  next request _ =>
    split at handled
    · cases handled
    next plan made =>
      split at handled
      · cases handled
        cases mem
      · cases handled
        obtain ⟨position, bound, rfl⟩ := List.mem_mapIdx.mp mem
        dsimp only at ran ⊢
        split_ifs at ran
        cases ran
        obtain ⟨candidates, found, chosen⟩ := makePlan_step made (List.getElem_mem bound)
        exact ⟨position, request.intent, candidates, rfl, found, chosen⟩

end McpGateway.Orchestrator
