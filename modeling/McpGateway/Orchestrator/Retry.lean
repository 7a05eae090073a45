import McpGateway.Orchestrator.Execution
import McpGateway.Shared.GoTime
import McpGateway.Shared.JsonTarget

namespace McpGateway.Orchestrator

open Shared

def intTarget : Target Int Int :=
  .scalar (fun | .number literal => atoi literal | _ => none) 0

def stringTarget : Target String String :=
  .scalar (fun | .string value => some value | _ => none) ""

def boolTarget : Target Bool Bool :=
  .scalar (fun | .bool value => some value | _ => none) false

abbrev StepMemory := Int × String × Object × String × Target.Slots Int × Bool

def stepTarget : Target StepMemory PlanStep :=
  ((intTarget.field "step_number").pair <| (stringTarget.field "tool_name").pair <|
    (Target.anyMap.field "arguments").pair <| (stringTarget.field "purpose").pair <|
    (intTarget.slice.field "depends_on").pair <| boolTarget.field "requires_approval").record
    (fun (stepNumber, toolName, arguments, purpose, dependsOn, requiresApproval) =>
      ⟨stepNumber, toolName, arguments, purpose, dependsOn, requiresApproval⟩)
    (fun left right same => by simpa [Prod.ext_iff] using same)

-- The plan as the decoder works on it: a slice has elements beyond its length, which a later, longer array comes upon.
abbrev PlanMemory := String × Target.Slots StepMemory × Target.Slots String

def planTarget : Target PlanMemory OrchestratePlan :=
  ((stringTarget.field "summary").pair <| (stepTarget.slice.field "steps").pair <|
    stringTarget.slice.field "warnings").record
    (fun (summary, steps, warnings) => ⟨summary, steps, warnings⟩)
    (fun left right same => by simpa [Prod.ext_iff] using same)

-- json.Unmarshal: nothing is decoded of a text that is no JSON; the flag is whether no error is returned.
def unmarshalPlan (text : String) (held : PlanMemory) : PlanMemory × Bool :=
  match Json.parse text with
  | none => (held, false)
  | some json => (planTarget.store json held, planTarget.accepts json)

-- Both responses are decoded into the same plan.
def generatePlanInto (first second : Except String String) : Except String OrchestratePlan :=
  match first with
  | .error error => .error ("llm chat: " ++ error)
  | .ok content =>
    let decoded := unmarshalPlan content planTarget.zero
    if decoded.2 then .ok (planTarget.view decoded.1)
    else
      match second with
      | .error error => .error ("llm retry chat: " ++ error)
      | .ok retried =>
        let decoded := unmarshalPlan retried decoded.1
        if decoded.2 then .ok (planTarget.view decoded.1)
        else .error ("llm returned invalid JSON after retry: " ++ retried)

theorem unmarshalPlan_accepts (text : String) (held other : PlanMemory) :
    (unmarshalPlan text held).2 = (unmarshalPlan text other).2 := by
  unfold unmarshalPlan
  cases Json.parse text <;> rfl

def unmarshalAfter (content : String) : Unmarshal := fun text _ =>
  let held := if text = content then planTarget.zero else (unmarshalPlan content planTarget.zero).1
  let decoded := unmarshalPlan text held
  (planTarget.view decoded.1, if decoded.2 then none else some "invalid plan")

theorem generatePlanInto_eq (content : String) (second : Except String String) :
    generatePlanInto (.ok content) second = generatePlan (unmarshalAfter content) (.ok content) second := by
  cases accepted : (unmarshalPlan content planTarget.zero).2 with
  | true => simp [generatePlanInto, generatePlan, unmarshalAfter, accepted]
  | false =>
    cases second with
    | error error => simp [generatePlanInto, generatePlan, unmarshalAfter, accepted]
    | ok retried =>
      -- The same text is refused again, whatever it is decoded into.
      by_cases same : retried = content
      · have again := unmarshalPlan_accepts content (unmarshalPlan content planTarget.zero).1 planTarget.zero
        simp [generatePlanInto, generatePlan, unmarshalAfter, accepted, same, again]
      · cases decoded : (unmarshalPlan retried (unmarshalPlan content planTarget.zero).1).2 <;>
          simp [generatePlanInto, generatePlan, unmarshalAfter, accepted, same, decoded]

/-- The plan is the second response's alone exactly if that response overwrites whatever the first one, if it was JSON at
all, left in the plan. -/
theorem plan_of_second_iff (content retried : String) (refused : (unmarshalPlan content planTarget.zero).2 = false)
    (accepted : (unmarshalPlan retried planTarget.zero).2 = true) : generatePlanInto (.ok content) (.ok retried) =
        .ok (planTarget.view (unmarshalPlan retried planTarget.zero).1) ↔
      ∀ first second, Json.parse content = some first → Json.parse retried = some second →
        planTarget.Overwrites [second] (planTarget.store first planTarget.zero) := by
  rw [unmarshalPlan_accepts retried _ (unmarshalPlan content planTarget.zero).1] at accepted
  have generated : generatePlanInto (.ok content) (.ok retried) =
      .ok (planTarget.view (unmarshalPlan retried (unmarshalPlan content planTarget.zero).1).1) := by
    simp [generatePlanInto, refused, accepted]
  rw [generated, Except.ok.injEq]
  clear generated refused
  unfold unmarshalPlan at accepted ⊢
  cases parsed : Json.parse retried with
  | none => simp [parsed] at accepted
  | some second =>
    cases Json.parse content with
    | none => simp
    | some first =>
      simpa [fill] using (planTarget.overwrites_iff [second] (planTarget.store first planTarget.zero)).symm

namespace Sample

def chatty : String := "Sure: \x7b\x7d"

def mistyped : String :=
  "\x7b\"summary\":1,\"steps\":[\x7b\"arguments\":\x7b\"force\":true\x7d,\"requires_approval\":true\x7d]\x7d"

def retried : String := "\x7b\"steps\":[\x7b\"tool_name\":\"a\",\"arguments\":\x7b\x7d\x7d]\x7d"

def shown (plan : OrchestratePlan) : List (String × List String × Bool) :=
  plan.steps.map fun step => (step.toolName, step.arguments.map Prod.fst, step.requiresApproval)

end Sample

open Sample

theorem plan_after_chatter : generatePlanInto (.ok chatty) (.ok retried) =
      .ok (planTarget.view (unmarshalPlan retried planTarget.zero).1) := by
  have refused : (unmarshalPlan chatty planTarget.zero).2 = false := by decide +kernel
  have accepted : (unmarshalPlan retried planTarget.zero).2 = true := by decide +kernel
  have unparsed : Json.parse chatty = none := by decide +kernel
  refine (plan_of_second_iff _ _ refused accepted).mpr fun first second parsed => ?_
  rw [unparsed] at parsed
  cases parsed

theorem rejected_arguments_survive : (unmarshalPlan mistyped planTarget.zero).2 = false ∧
      (unmarshalPlan retried planTarget.zero).2 = true ∧
      (generatePlanInto (.ok mistyped) (.ok retried)).toOption.map shown = some [("a", ["force"], true)] ∧
      shown (planTarget.view (unmarshalPlan retried planTarget.zero).1) = [("a", [], false)] := by
  decide +kernel

end McpGateway.Orchestrator
