import McpGateway.Proxy.Access

namespace McpGateway.Proxy

open Shared Registration Auth

def isLowerAlphanumeric (c : Char) : Bool :=
  ('a' ≤ c && c ≤ 'z') || ('0' ≤ c && c ≤ '9')

-- ^[a-z0-9][a-z0-9_-]{0,62}$
def serverNamePattern (name : String) : Bool :=
  match name.toList with
  | [] => false
  | first :: rest =>
    isLowerAlphanumeric first && rest.length ≤ 62 && rest.all fun c => isLowerAlphanumeric c || c == '_' || c == '-'

inductive ToolHandler where
  | backend
  | orchestrate
  | own
  deriving DecidableEq

def orchestrateToolName : String := "cruvero.orchestrate"

def requestAccessToolName : String := "gateway.request_access"

-- The tools of the last sync and those activated for the session; a later registration of a name replaces
-- an earlier one, and the session's tools come before the server's.
structure ToolRegistry where
  activated : List String
  backendTools : List String
  progressiveDiscovery : Bool
  orchestrator : Bool

def ToolRegistry.handler (registry : ToolRegistry) (toolName : String) : Option ToolHandler :=
  if toolName ∈ registry.activated then some .backend
  else if toolName = requestAccessToolName then some .own
  else if registry.orchestrator ∧ toolName = orchestrateToolName then some .orchestrate
  else if registry.progressiveDiscovery ∧ (toolName = "search_tools" ∨ toolName = "get_tool_schema") then some .own
  else if toolName ∈ registry.backendTools then some .backend
  else none

structure Gateway where
  router : Router
  serverOrder : List String
  users : Option UserStore
  scopeEnforced : Bool
  registry : ToolRegistry

inductive ToolOutcome where
  | denied (message : String)
  | failed (error : RouteError)
  | dispatched (dispatch : Dispatch)

def ToolOutcome.reached : ToolOutcome → List ServerRecord
  | .dispatched dispatch => [dispatch.server]
  | _ => []

def Gateway.denial (gateway : Gateway) (caller : Caller) (toolName : String) : Option String :=
  gateway.users.bind fun store => checkToolPermission store caller toolName

def Gateway.executeToolCall (gateway : Gateway) (caller : Caller) (toolName : String) : ToolOutcome :=
  match gateway.denial caller toolName with
  | some message => .denied message
  | none =>
    match gateway.router.route caller.scope toolName with
    | .error error => .failed error
    | .ok dispatch => .dispatched dispatch

-- `steps` are the tools the orchestrator comes to execute for this call.
def Gateway.handleOrchestrate (gateway : Gateway) (caller : Caller) (steps : List String) : List ToolOutcome :=
  match gateway.denial caller orchestrateToolName with
  | some message => [.denied message]
  | none => steps.map (gateway.executeToolCall caller)

def Gateway.callTool (gateway : Gateway) (caller : Caller) (toolName : String) (steps : List String) :
    List ToolOutcome :=
  match gateway.registry.handler toolName with
  | some .backend => [gateway.executeToolCall caller toolName]
  | some .orchestrate => gateway.handleOrchestrate caller steps
  | some .own => []
  | none => []

inductive ReadError where
  | missingUri
  | notFound (uri : String)

def handleReadResource (index : CapabilityIndex) (uri : String) : Except ReadError ServerRecord :=
  if trimSpace uri = "" then .error .missingUri
  else
    match index.lookupResource (trimSpace uri) with
    | [] => .error (.notFound (trimSpace uri))
    | server :: _ => .ok server

inductive VirtualServerError where
  | invalidName (name : String)
  | notFound (name : String)
  | notActive (name : String) (status : ServerStatus)
  deriving DecidableEq

def Gateway.virtualServer (gateway : Gateway) (serverName : String) : Except VirtualServerError ServerRecord :=
  if serverNamePattern (trimSpace serverName) then
    match gateway.router.index.lookupServer gateway.serverOrder (trimSpace serverName) with
    | none => .error (.notFound (trimSpace serverName))
    | some record =>
      if record.isRoutable then .ok record else .error (.notActive (trimSpace serverName) record.status)
  else .error (.invalidName (trimSpace serverName))

-- The requests that act on a backend. `called` is the tool of a tools/call on a per-server endpoint.
inductive McpRequest where
  | toolsCall (toolName : String) (steps : List String)
  | resourcesRead (uri : String)
  | perServer (serverName : String) (called : Option String)

structure Verdict where
  rateLimited : Bool
  policyDenied : Bool

def Verdict.stops (verdict : Verdict) : Bool :=
  verdict.rateLimited || verdict.policyDenied

def Gateway.handle (gateway : Gateway) (caller : Caller) : McpRequest → List ServerRecord
  | .toolsCall toolName steps => (gateway.callTool caller toolName steps).flatMap ToolOutcome.reached
  | .resourcesRead uri => (handleReadResource gateway.router.index uri).toOption.toList
  | .perServer serverName _ => (gateway.virtualServer serverName).toOption.toList

def McpRequest.urlServerName : McpRequest → String
  | .perServer serverName _ => serverName
  | _ => ""

def Gateway.stops (gateway : Gateway) (caller : Caller) (verdict : Verdict) (request : McpRequest) : Bool :=
  (gateway.scopeEnforced && !scopeAdmits caller.scope request.urlServerName) || verdict.stops

def Gateway.reached (gateway : Gateway) (caller : Caller) (verdict : Verdict) (request : McpRequest) :
    List ServerRecord :=
  if gateway.stops caller verdict request then [] else gateway.handle caller request

variable {caller : Caller} {toolName : String}

theorem Gateway.executeToolCall_reached {gateway : Gateway} {server : ServerRecord}
    (mem : server ∈ (gateway.executeToolCall caller toolName).reached) :
    gateway.denial caller toolName = none ∧ checkServerScope caller.scope server.name = true := by
  unfold Gateway.executeToolCall at mem
  split at mem
  · cases mem
  next permitted =>
    split at mem
    · cases mem
    next dispatch routed =>
      rw [ToolOutcome.reached, List.mem_singleton] at mem
      subst mem
      exact ⟨permitted, (Router.route_ok routed).2.2.2.1⟩

theorem Gateway.executeToolCall_routed {gateway : Gateway} {dispatch : Dispatch}
    (ran : gateway.executeToolCall caller toolName = .dispatched dispatch) :
    gateway.router.route caller.scope toolName = .ok dispatch := by
  unfold Gateway.executeToolCall at ran
  split at ran
  · cases ran
  · split at ran
    · cases ran
    next routed =>
      cases ran
      exact routed

theorem ToolRegistry.handler_orchestrate {registry : ToolRegistry}
    (handled : registry.handler toolName = some .orchestrate) : toolName = orchestrateToolName := by
  unfold ToolRegistry.handler at handled
  split_ifs at handled
  all_goals first
    | exact And.right ‹_›
    | cases handled

theorem Gateway.callTool_reached {gateway : Gateway} {steps : List String} {server : ServerRecord}
    (mem : server ∈ (gateway.callTool caller toolName steps).flatMap ToolOutcome.reached) :
    gateway.denial caller toolName = none ∧ checkServerScope caller.scope server.name = true := by
  obtain ⟨outcome, ran, reached⟩ := List.mem_flatMap.mp mem
  unfold Gateway.callTool at ran
  split at ran
  next =>
    rw [List.mem_singleton] at ran
    subst ran
    exact Gateway.executeToolCall_reached reached
  next handled =>
    rw [ToolRegistry.handler_orchestrate handled]
    unfold Gateway.handleOrchestrate at ran
    split at ran
    · rw [List.mem_singleton] at ran
      subst ran
      cases reached
    next permitted =>
      obtain ⟨step, _, rfl⟩ := List.mem_map.mp ran
      exact ⟨permitted, (Gateway.executeToolCall_reached reached).2⟩
  · cases ran
  · cases ran

-- Where the scope decides: nowhere for tools/call, which the router checks itself.
def Gateway.ScopeHolds (gateway : Gateway) (caller : Caller) : McpRequest → Prop
  | .toolsCall _ _ => True
  | .resourcesRead uri => ∀ server ∈ (gateway.router.index.lookupResource (trimSpace uri)).head?,
    serverInScope server.name caller.scope = true
  | .perServer serverName _ => serverNamePattern (trimSpace serverName) = true →
    ∀ server ∈ gateway.router.index.lookupServer gateway.serverOrder (trimSpace serverName),
      server.isRoutable = true → serverInScope server.name caller.scope = true

theorem mem_handleReadResource (index : CapabilityIndex) (uri : String) (server : ServerRecord) :
    server ∈ (handleReadResource index uri).toOption.toList ↔ server ∈ (index.lookupResource (trimSpace uri)).head? := by
  unfold handleReadResource
  split_ifs with blank
  · simp [CapabilityIndex.lookupResource, blank, Except.toOption]
  · split
    next empty => simp [empty, Except.toOption]
    next first rest found => simp [found, Except.toOption, eq_comm]

theorem Gateway.mem_virtualServer (gateway : Gateway) (serverName : String) (server : ServerRecord) :
    server ∈ (gateway.virtualServer serverName).toOption.toList ↔ serverNamePattern (trimSpace serverName) = true ∧
        server ∈ gateway.router.index.lookupServer gateway.serverOrder (trimSpace serverName) ∧
        server.isRoutable = true := by
  unfold Gateway.virtualServer
  split_ifs with valid
  · split
    next absent => simp [absent, Except.toOption]
    next record found =>
      split_ifs with routable
      · simp only [Except.toOption, Option.mem_toList, found, Option.mem_some_iff, valid, true_and]
        constructor
        · rintro ⟨⟩
          exact ⟨rfl, routable⟩
        · rintro ⟨rfl, _⟩
          rfl
      · simp only [Except.toOption, Option.mem_toList, found, Option.mem_some_iff, valid, true_and]
        constructor
        · intro none
          cases none
        · rintro ⟨rfl, active⟩
          exact absurd active routable
  · simp [valid, Except.toOption]

/-- A request of a caller with a server scope stays within it exactly when the middleware stops it or the
server it would end at is in scope; a tools/call always does. -/
theorem reached_in_scope_iff (gateway : Gateway) (caller : Caller) (verdict : Verdict) (request : McpRequest)
    (limited : caller.scope ≠ []) :
    (∀ server ∈ gateway.reached caller verdict request, serverInScope server.name caller.scope = true) ↔
      gateway.stops caller verdict request = true ∨ gateway.ScopeHolds caller request := by
  unfold Gateway.reached
  cases stopped : gateway.stops caller verdict request with
  | true => simp
  | false =>
    simp only [Bool.false_eq_true, if_false, false_or]
    cases request with
    | toolsCall toolName steps =>
      rw [Gateway.ScopeHolds, iff_true]
      intro server mem
      exact (checkServerScope_iff limited server.name).mp (Gateway.callTool_reached mem).2
    | resourcesRead uri => simp only [Gateway.handle, Gateway.ScopeHolds, mem_handleReadResource]
    | perServer serverName called =>
      simp only [Gateway.handle, Gateway.ScopeHolds, Gateway.mem_virtualServer]
      constructor
      · exact fun within valid server found active => within server ⟨valid, found, active⟩
      · exact fun within server reached => within reached.1 server reached.2.1 reached.2.2

namespace Sample

def server (name : String) (capabilities : Capability) : ServerRecord where
  id := name
  name := name
  spiffeId := "spiffe://cluster.local/ns/tools/sa/" ++ name
  version := "1.4.0"
  host := "10.0.3.7"
  port := 8443
  protocol := "https"
  capabilities := capabilities
  status := .active
  policyProfile := "default"
  lastHeartbeat := none
  leaseEpoch := 1
  capabilityHash := ""
  syncState := .unacked
  lastPlatformAckVersion := ""
  lastPlatformAckAt := none
  rateLimit := none
  rateBurst := none
  routingStrategy := "round_robin"
  createdAt := 0
  updatedAt := 0

def database : ServerRecord := server "mcp-db" ⟨["list_tables"], ["db://"], []⟩

def viewer : User := ⟨"u-1", "sub-1", .viewer⟩

def users : UserStore := ⟨(∅ : GoMap String User).insert "sub-1" viewer, []⟩

def gateway : Gateway where
  router := ⟨.rebuild [database], roundRobin 0, none, none⟩
  serverOrder := ["list_tables"]
  users := some users
  scopeEnforced := true
  registry := ⟨[], ["db.list_tables"], false, false⟩

def keyHolder : Caller := ⟨some ⟨.apikey, "client", ["read"], ∅⟩, ["k8s"], false, false⟩

def viewerCaller : Caller := ⟨some ⟨.oidc, "sub-1", [], ∅⟩, [], false, false⟩

def passed : Verdict := ⟨false, false⟩

end Sample

open Sample

theorem tools_call_in_scope :
    Sample.gateway.reached { keyHolder with scope := ["DB"] } passed (.toolsCall "db.list_tables" []) = [database] ∧
      ∀ server ∈ Sample.gateway.reached { keyHolder with scope := ["DB"] } passed
        (.toolsCall "db.list_tables" []), serverInScope server.name ["DB"] = true :=
  ⟨by decide +kernel, (reached_in_scope_iff _ _ _ _ (by simp)).mpr (.inr trivial)⟩

theorem resources_read_out_of_scope : keyHolder.scope ≠ [] ∧
      ∃ server ∈ Sample.gateway.reached keyHolder passed (.resourcesRead "db://orders"),
        serverInScope server.name keyHolder.scope = false := by
  decide +kernel

def McpRequest.tool : McpRequest → Option String
  | .toolsCall toolName _ => some toolName
  | .resourcesRead _ => none
  | .perServer _ called => called

def Gateway.RoleHolds (gateway : Gateway) : McpRequest → Prop
  | .perServer serverName _ => serverNamePattern (trimSpace serverName) = true →
    ∀ server ∈ gateway.router.index.lookupServer gateway.serverOrder (trimSpace serverName), server.isRoutable = false
  | .toolsCall _ _ => True
  | .resourcesRead _ => True

/-- A tools/call of a caller whose account does not allow the tool reaches no backend exactly when it is made
on the unified endpoint, or is stopped in front of the per-server endpoint, or names no routable server there. -/
theorem restricted_call_reaches_none_iff (gateway : Gateway) (store : UserStore) (caller : Caller) (verdict : Verdict)
    (request : McpRequest) (toolName : String) (wired : gateway.users = some store)
    (calls : request.tool = some toolName) (restricted : Restricted store caller toolName) :
    gateway.reached caller verdict request = [] ↔
      gateway.stops caller verdict request = true ∨ gateway.RoleHolds request := by
  unfold Gateway.reached
  cases stopped : gateway.stops caller verdict request with
  | true => simp
  | false =>
    simp only [Bool.false_eq_true, if_false, false_or, List.eq_nil_iff_forall_not_mem]
    cases request with
    | toolsCall name steps =>
      cases calls
      rw [Gateway.RoleHolds, iff_true]
      intro server mem
      apply restricted.denied
      have permitted := (Gateway.callTool_reached mem).1
      rwa [Gateway.denial, wired] at permitted
    | resourcesRead uri => cases calls
    | perServer serverName called =>
      simp only [Gateway.handle, Gateway.RoleHolds, Gateway.mem_virtualServer]
      constructor
      · intro none valid server found
        by_contra active
        exact none server ⟨valid, found, by simpa only [Bool.not_eq_false] using active⟩
      · intro idle server reached
        have inactive := idle reached.1 server reached.2.1
        rw [reached.2.2] at inactive
        cases inactive

theorem viewer_restricted (toolName : String) : Restricted users viewerCaller toolName :=
  ⟨_, viewer, rfl, rfl, by decide +kernel, .inr (.inl rfl)⟩

theorem viewer_call_reaches_none : Sample.gateway.reached viewerCaller passed (.toolsCall "db.list_tables" []) = [] :=
  (restricted_call_reaches_none_iff _ _ _ _ _ _ rfl rfl (viewer_restricted _)).mpr (.inr trivial)

theorem viewer_reaches_backend : Restricted users viewerCaller "list_tables" ∧
      Sample.gateway.reached viewerCaller passed (.perServer "mcp-db" (some "list_tables")) = [database] :=
  ⟨viewer_restricted _, by decide +kernel⟩

end McpGateway.Proxy
