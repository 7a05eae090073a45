import McpGateway.Auth.Scope
import McpGateway.Proxy.Naming

namespace McpGateway.Proxy

open Shared Registration Auth

abbrev RoutingStrategy := List ServerRecord → Except String (Option ServerRecord)

-- RoundRobinStrategy after `counter` earlier selections; the counter is a uint64.
def roundRobin (counter : Nat) : RoutingStrategy := fun candidates =>
  .ok candidates[counter % 2 ^ 64 % candidates.length]?

structure LimiterKey where
  clientId : String
  route : String
  deriving DecidableEq

inductive LimiterAnswer where
  | allowed
  | retryAfter (wait : Int)
  | failed (cause : String)
  deriving DecidableEq

abbrev LimiterBackend := LimiterKey → Int → Int → LimiterAnswer

structure Router where
  index : CapabilityIndex
  strategy : RoutingStrategy
  limiter : Option LimiterBackend
  resolver : Option NamespaceResolver

inductive RouteError where
  | missingToolName
  | toolNotFound (name : String)
  | strategy (cause : String)
  | scopeDenied (serverName : String)
  | rateLimited (serverId serverName : String) (retryAfter : Int)
  | limiter (cause : String)
  deriving DecidableEq

def Router.checkServerRateLimit (router : Router) (server : ServerRecord) : Except RouteError Unit :=
  match server.rateLimit, router.limiter with
  | some limit, limiter =>
    if limit ≤ 0 then .error (.rateLimited server.id server.name 0)
    else
      match limiter with
      | none => .ok ()
      | some allow =>
        match allow ⟨"server:" ++ server.id, "global"⟩ limit
          (if 0 < server.rateBurst.getD 0 then server.rateBurst.getD 0 else limit) with
        | .allowed => .ok ()
        | .retryAfter wait => .error (.rateLimited server.id server.name wait)
        | .failed cause => .error (.limiter cause)
  | none, _ => .ok ()

def Router.resolve (router : Router) (toolName : String) : Resolved :=
  resolveFederatedName router.index router.resolver (trimSpace toolName)

def Router.candidates (router : Router) (resolved : Resolved) : List ServerRecord :=
  if resolved.serverHint = "" then router.index.lookupTool resolved.toolName
  else filterCandidatesByServer (router.index.lookupTool resolved.toolName) resolved.serverHint

structure Dispatch where
  server : ServerRecord
  toolName : String
  deriving DecidableEq

def Router.select (router : Router) (name : String) (resolved : Resolved) : Except RouteError ServerRecord :=
  if router.candidates resolved = [] then .error (.toolNotFound name)
  else
    match router.strategy (router.candidates resolved) with
    | .error cause => .error (.strategy cause)
    | .ok none => .error (.toolNotFound name)
    | .ok (some selected) => .ok selected

def Router.admit (router : Router) (scope : List String) (selected : ServerRecord) : Except RouteError Unit :=
  if checkServerScope scope selected.name then router.checkServerRateLimit selected
  else .error (.scopeDenied selected.name)

def Router.route (router : Router) (scope : List String) (toolName : String) : Except RouteError Dispatch :=
  if trimSpace toolName = "" then .error .missingToolName
  else
    match router.select (trimSpace toolName) (router.resolve toolName) with
    | .error error => .error error
    | .ok selected =>
      match router.admit scope selected with
      | .error error => .error error
      | .ok _ => .ok ⟨selected, (router.resolve toolName).toolName⟩

variable {scope : List String} {toolName name : String} {resolved : Resolved} {server : ServerRecord}

theorem Router.route_ok {router : Router} {dispatch : Dispatch} (routed : router.route scope toolName = .ok dispatch) :
    trimSpace toolName ≠ "" ∧ dispatch.toolName = (router.resolve toolName).toolName ∧
      router.select (trimSpace toolName) (router.resolve toolName) = .ok dispatch.server ∧
      checkServerScope scope dispatch.server.name = true ∧ router.checkServerRateLimit dispatch.server = .ok () := by
  unfold Router.route at routed
  split_ifs at routed with blank
  split at routed
  · cases routed
  next selected chosen =>
    split at routed
    · cases routed
    next admitted =>
      cases routed
      dsimp only
      refine ⟨blank, rfl, chosen, ?_⟩
      unfold Router.admit at admitted
      split_ifs at admitted with inScope
      exact ⟨inScope, admitted⟩

def RoutingStrategy.Chooses (strategy : RoutingStrategy) : Prop :=
  ∀ candidates server, strategy candidates = .ok (some server) → server ∈ candidates

theorem roundRobin_chooses (counter : Nat) : RoutingStrategy.Chooses (roundRobin counter) := by
  intro candidates server chosen
  exact List.mem_of_getElem? (Except.ok.inj chosen)

theorem Router.mem_candidates (router : Router) (toolName hint : String) (server : ServerRecord) :
    server ∈ router.candidates ⟨toolName, hint⟩ ↔
      server ∈ router.index.lookupTool toolName ∧ (hint = "" ∨ Answers server hint) := by
  by_cases unhinted : hint = ""
  · simp [candidates, unhinted]
  · simp [candidates, unhinted, filterCandidatesByServer, Answers]

theorem Router.candidate_of_select {router : Router} (chooses : RoutingStrategy.Chooses router.strategy)
    (selected : router.select name resolved = .ok server) : server ∈ router.candidates resolved := by
  unfold Router.select at selected
  split_ifs at selected
  split at selected
  · cases selected
  · cases selected
  next chosen =>
    cases selected
    exact chooses _ _ chosen

theorem Router.indexed_of_select {router : Router} (chooses : RoutingStrategy.Chooses router.strategy)
    (selected : router.select name resolved = .ok server) : server ∈ router.index.lookupTool resolved.toolName ∧
      (resolved.serverHint = "" ∨ Answers server resolved.serverHint) :=
  (router.mem_candidates _ _ _).mp (Router.candidate_of_select chooses selected)

theorem Router.holds_of_select {router : Router} (chooses : RoutingStrategy.Chooses router.strategy)
    (selected : router.select name resolved = .ok server) : router.index.Holds server :=
  CapabilityIndex.holds_of_lookupTool (Router.indexed_of_select chooses selected).1

theorem Router.holds_of_route {router : Router} (chooses : RoutingStrategy.Chooses router.strategy)
    {dispatch : Dispatch} (routed : router.route scope toolName = .ok dispatch) : router.index.Holds dispatch.server :=
  Router.holds_of_select chooses (Router.route_ok routed).2.2.1

end McpGateway.Proxy
