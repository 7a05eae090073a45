import McpGateway.Orchestrator.Plan
import McpGateway.Proxy.Discovery
import McpGateway.Proxy.Endpoints
import McpGateway.Registration.IndexedService

namespace McpGateway.Orchestrator

open Shared Policy Registration Proxy

def candidateRisk (classifications : Option ClassificationTable) (failedLookups : List String) (name : String) :
    RiskLevel :=
  match classifications with
  | none => .unknown
  | some table =>
    if name ∈ failedLookups then .unknown
    else
      match table.get name with
      | none => .unknown
      | some classification => classification.riskLevel

def enrichCandidates (classifications : Option ClassificationTable) (failedLookups names : List String) :
    List CandidateTool :=
  names.map fun name => ⟨name, candidateRisk classifications failedLookups name⟩

structure Deployment where
  service : Service
  resolver : Option NamespaceResolver

structure GatewayState where
  registry : Registry
  toolCache : ToolCache
  -- Missing without progressive discovery.
  discovery : Option DiscoveryIndex
  lastSync : Option Time

def registrySyncDebounce : Int := ToolCache.defaultToolCacheTTL

def Deployment.syncMcpTools (deployment : Deployment) (state : GatewayState) (listing : BackendListing) (now : Time) :
    GatewayState :=
  if state.lastSync.any fun last => now - last < registrySyncDebounce then state
  else
    match ListingContext.handleListTools ⟨state.registry.index, deployment.resolver, listing, now⟩ state.toolCache with
    | (tools, cache) =>
      { state with toolCache := cache, discovery := state.discovery.map (·.rebuild tools), lastSync := some now }

structure Moment where
  gateway : Gateway
  caller : Caller

structure OrchestrateCall where
  arguments : Object
  permission : Moment
  moments : Nat → Moment
  order : List String
  failedLookups : List String
  generated : Except String OrchestratePlan

def Deployment.gatewayAt (deployment : Deployment) (state : GatewayState) (moment : Moment) : Gateway :=
  { moment.gateway with
    router := { moment.gateway.router with index := state.registry.index, resolver := deployment.resolver } }

def GatewayState.searchTools (state : GatewayState) (call : OrchestrateCall) (intent : String) :
    Except String (List CandidateTool) :=
  match state.discovery with
  | none => .error "discovery index not available"
  | some discovery =>
    .ok (enrichCandidates state.registry.classifications call.failedLookups
      (discovery.search call.order intent "" 0 20))

def Deployment.executeStep (deployment : Deployment) (state : GatewayState) (call : OrchestrateCall) (position : Nat)
    (step : PlanStep) : ToolOutcome :=
  (deployment.gatewayAt state (call.moments position)).executeToolCall (call.moments position).caller step.toolName

def Deployment.orchestrate (deployment : Deployment) (state : GatewayState) (call : OrchestrateCall) :
    Except String (OrchestrateResult ToolOutcome) :=
  match (deployment.gatewayAt state call.permission).denial call.permission.caller orchestrateToolName with
  | some message => .error message
  | none => handle (state.searchTools call) call.generated (deployment.executeStep state call) call.arguments

def Deployment.dispatches (deployment : Deployment) (state : GatewayState) (call : OrchestrateCall) : List Dispatch :=
  match deployment.orchestrate state call with
  | .error _ => []
  | .ok result => result.stepResults.filterMap fun step =>
    match step.outcome with
    | some (.dispatched dispatch) => some dispatch
    | _ => none

inductive Event where
  | registration (call : Registration.Call)
  | classify (classification : ToolClassification)
  | metadata (metadata : List ToolMetadata)
  | invalidate (serverId : Option String)
  | sync (listing : BackendListing) (now : Time)
  | orchestrate (call : OrchestrateCall)

def Deployment.step (deployment : Deployment) (state : GatewayState) : Event → GatewayState
  | .registration call => { state with registry := deployment.service.call state.registry call }
  | .classify classification =>
    { state with registry := { state.registry with
        classifications := state.registry.classifications.map (·.upsert classification) } }
  | .metadata metadata => { state with discovery := state.discovery.map (·.applyMetadata metadata) }
  | .invalidate serverId =>
    { state with
      toolCache := match serverId with
        | none => state.toolCache.invalidate
        | some id => state.toolCache.invalidateServer id
      lastSync := none }
  | .sync listing now => deployment.syncMcpTools state listing now
  | .orchestrate _ => state

def GatewayState.storedDestructive (state : GatewayState) (toolName : String) : Bool :=
  (state.registry.classifications.bind fun table => table.get toolName).any (·.riskLevel = .destructive)

def Deployment.SparesDestructive (deployment : Deployment) (state : GatewayState) : Event → Prop
  | .orchestrate call => ∀ dispatch ∈ deployment.dispatches state call, state.storedDestructive dispatch.toolName = false
  | _ => True

def Deployment.rawName (deployment : Deployment) (state : GatewayState) (name : String) : String :=
  (resolveFederatedName state.registry.index deployment.resolver (trimSpace name)).toolName

-- Every discovered name that leads to a destructive tool is itself stored as destructive and can be looked up.
def Deployment.Labelled (deployment : Deployment) (state : GatewayState) : Event → Prop
  | .orchestrate call => ∀ discovery ∈ state.discovery, ∀ name ∈ discovery.toolNames,
    state.storedDestructive (deployment.rawName state name) = true →
      state.storedDestructive name = true ∧ name ∉ call.failedLookups
  | _ => True

theorem candidateRisk_destructive {state : GatewayState} {name : String} {failedLookups : List String}
    (stored : state.storedDestructive name = true) (answered : name ∉ failedLookups) :
    candidateRisk state.registry.classifications failedLookups name = .destructive := by
  unfold GatewayState.storedDestructive at stored
  unfold candidateRisk
  cases held : state.registry.classifications with
  | none => simp [held] at stored
  | some table =>
    rw [held, Option.bind_some] at stored
    cases found : table.get name with
    | none => simp [found] at stored
    | some classification => simpa [answered, found] using stored

theorem dispatched_candidate {deployment : Deployment} {state : GatewayState} {call : OrchestrateCall}
    {dispatch : Dispatch} (mem : dispatch ∈ deployment.dispatches state call) :
    ∃ discovery ∈ state.discovery, ∃ name ∈ discovery.toolNames,
      candidateRisk state.registry.classifications call.failedLookups name ≠ .destructive ∧
      dispatch.toolName = deployment.rawName state name := by
  unfold Deployment.dispatches Deployment.orchestrate at mem
  split at mem
  · cases mem
  next result handled =>
    obtain ⟨step, ran, outcome⟩ := List.mem_filterMap.mp mem
    split at outcome
    next made produced =>
      cases outcome
      split at handled
      · cases handled
      obtain ⟨position, intent, candidates, executed, searched, candidate, listed, named, safe⟩ :=
        handle_executed handled ran produced
      unfold GatewayState.searchTools at searched
      split at searched
      · cases searched
      next discovery held =>
        cases searched
        obtain ⟨name, found, rfl⟩ := List.mem_map.mp listed
        have resolved := (Router.route_ok (Gateway.executeToolCall_routed executed.symm)).2.1
        rw [← named] at resolved
        exact ⟨discovery, held, name, DiscoveryIndex.mem_search found, safe, resolved⟩
    · cases outcome

/-- In every run of registrations, classifications, listings and orchestrate calls, no orchestrate call dispatches a
tool stored as destructive, as long as whatever it can discover is labelled. -/
theorem orchestrator_spares_destructive (deployment : Deployment) (start : GatewayState) (events : List Event)
    (labelled : Along deployment.step deployment.Labelled start events) :
    Along deployment.step deployment.SparesDestructive start events := by
  refine labelled.mono fun state event label => ?_
  cases event with
  | orchestrate call =>
    intro dispatch mem
    obtain ⟨discovery, held, name, listed, safe, resolved⟩ := dispatched_candidate mem
    rw [resolved, Bool.eq_false_iff]
    intro destructive
    obtain ⟨known, answered⟩ := label discovery held name listed destructive
    exact safe (candidateRisk_destructive known answered)
  | registration call => trivial
  | classify classification => trivial
  | metadata metadata => trivial
  | invalidate serverId => trivial
  | sync listing now => trivial

namespace Sample

def deployment : Deployment := ⟨Registration.Sample.service, none⟩

def start : GatewayState := ⟨Registration.Sample.rebuilt, .new 0, some .new, none⟩

def moment : Moment where
  gateway := { Proxy.Sample.gateway with users := none }
  caller := ⟨some ⟨.apikey, "client", ["read"], ∅⟩, [], false, false⟩

def definition (name description : String) : ToolDefinition := ⟨name, description, "", "\x7b\x7d", "", false, ""⟩

def listing : BackendListing := fun _ => some [definition "list_pods" "List pods", definition "delete_pod" "Delete a pod"]

def tidyUp : OrchestrateCall where
  arguments := [("intent", .string "pod")]
  permission := moment
  moments := fun _ => moment
  order := ["k8s.list_pods", "k8s.delete_pod"]
  failedLookups := []
  generated := .ok ⟨"tidy up", [⟨1, "k8s.delete_pod", [], "free the node", [], false⟩], []⟩

def growing : List Event :=
  [.registration (Registration.Sample.again ["list_pods", "delete_pod"]), .sync listing (200 * second)]

end Sample

open Sample

theorem labelled_tool_spared : Along deployment.step deployment.SparesDestructive start
      (.classify ⟨"k8s.delete_pod", .destructive, "reviewed", false, "admin", 0⟩ :: growing ++
        [.orchestrate tidyUp]) := by
  apply orchestrator_spares_destructive
  refine ⟨trivial, trivial, trivial, ?_, trivial⟩
  unfold Deployment.Labelled
  decide +kernel

theorem orchestrator_dispatches_destructive : ¬ Along deployment.step deployment.SparesDestructive start
      (growing ++ [.orchestrate tidyUp]) := by
  intro spared
  have dispatched : ∃ dispatch ∈ deployment.dispatches
      (run deployment.step start growing) tidyUp,
      (run deployment.step start growing).storedDestructive dispatch.toolName = true := by
    decide +kernel
  obtain ⟨dispatch, mem, destructive⟩ := dispatched
  have safe : (run deployment.step start growing).storedDestructive dispatch.toolName = false :=
    spared.2.2.1 dispatch mem
  rw [destructive] at safe
  cases safe

end McpGateway.Orchestrator
