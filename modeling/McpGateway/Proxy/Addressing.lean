import McpGateway.Policy.Middleware
import McpGateway.Proxy.Endpoints
import McpGateway.Proxy.Routing

namespace McpGateway.Proxy

open Shared Registration Auth Policy

def rewriteLegacyToolCallName (name serverHint : String) : Option String :=
  if trimSpace serverHint = "" ∨ equalFold (trimSpace serverHint) "federation" then none
  else if trimSpace name = "" then none
  else if hasPrefix (trimSpace name) (displayName (trimSpace serverHint) ++ ".") ∨ hasPrefix (trimSpace name) "mcp." then
    none
  else some (displayName (trimSpace serverHint) ++ "." ++ trimSpace name)

-- The ways to address a tool. The rewrite for the X-MCP-Server header comes after the policy check.
inductive Address where
  | federated (name : String)
  | hinted (name serverHint : String)
  | perServer (serverName name : String)

def Address.name : Address → String
  | .federated name => name
  | .hinted name _ => name
  | .perServer _ name => name

def Gateway.dispatch (gateway : Gateway) (caller : Caller) (toolName : String) : Option Dispatch :=
  if gateway.registry.handler toolName = some .backend then
    match gateway.executeToolCall caller toolName with
    | .dispatched dispatch => some dispatch
    | _ => none
  else none

-- Where a call ends that the policy allows. A per-server endpoint hands the body on as it is.
def Gateway.ends (gateway : Gateway) (caller : Caller) : Address → Option Dispatch
  | .federated name => gateway.dispatch caller name
  | .hinted name serverHint => gateway.dispatch caller ((rewriteLegacyToolCallName name serverHint).getD name)
  | .perServer serverName name =>
    if gateway.stops caller ⟨false, false⟩ (.perServer serverName (some name)) then none
    else (gateway.virtualServer serverName).toOption.map fun server => ⟨server, name⟩

-- The four ways in which the router takes a name for a tool of a server.
inductive Reads (index : CapabilityIndex) (resolver : Option NamespaceResolver) (name : String) (server : ServerRecord) :
    String → Prop where
  | direct (registered : server ∈ index.lookupTool name) : Reads index resolver name server name
  | namespaced {ns : NamespaceResolver} {hint tool : String} (unregistered : index.lookupTool name = [])
      (configured : resolver = some ns) (prefixing : ns.mode ≠ .reject)
      (split : cut name ns.separator = some (hint, tool)) (named : hint ≠ "")
      (registered : server ∈ index.lookupTool tool) (answers : Answers server hint) :
      Reads index resolver name server tool
  | compact {hint tool : String} (unregistered : index.lookupTool name = [])
      (unread : resolver.bind (·.resolve index name) = none) (split : cut name "." = some (hint, tool))
      (named : hint ≠ "") (registered : server ∈ index.lookupTool tool) (answers : Answers server hint) :
      Reads index resolver name server tool
  | legacy {rest hint tool : String} (unregistered : index.lookupTool name = [])
      (unread : resolver.bind (·.resolve index name) = none) (split : cut name "." = some ("mcp", rest))
      (free : index.lookupTool rest = []) (second : cut rest "." = some (hint, tool))
      (registered : server ∈ index.lookupTool tool) (answers : hint = "" ∨ Answers server hint) :
      Reads index resolver name server tool

section

variable {router : Router} {name tool : String} {server : ServerRecord}

theorem Reads.candidate (trimmed : trimSpace name = name) (reads : Reads router.index router.resolver name server tool) :
    (resolveFederatedName router.index router.resolver name).toolName = tool ∧
      server ∈ router.candidates (resolveFederatedName router.index router.resolver name) := by
  cases reads with
  | direct registered =>
    simpa [resolveFederatedName, List.ne_nil_of_mem registered, router.mem_candidates] using registered
  | @namespaced ns hint _ unregistered configured prefixing split named registered answers =>
    have read : ns.resolve router.index name = some ⟨tool, hint⟩ :=
      (ns.resolve_iff router.index trimmed _).mpr ⟨prefixing, split, named, List.ne_nil_of_mem registered⟩
    simp [resolveFederatedName, unregistered, configured, read, router.mem_candidates, registered, answers]
  | compact unregistered unread split named registered answers =>
    have read := byFirstSegment_of_cut router.index split
    rw [if_pos ⟨named, List.ne_nil_of_mem registered⟩] at read
    simp [resolveFederatedName, unregistered, unread, read, router.mem_candidates, registered, answers]
  | legacy unregistered unread split free second registered answers =>
    have missed := byFirstSegment_of_cut router.index split
    rw [if_neg (by simp [free])] at missed
    have read := byLegacyFormat_of_cut split
    simp [resolveFederatedName, unregistered, unread, missed, read, second, router.mem_candidates, registered, answers]

theorem reads_of_candidate (trimmed : trimSpace name = name)
    (candidate : server ∈ router.candidates (resolveFederatedName router.index router.resolver name)) :
    Reads router.index router.resolver name server (resolveFederatedName router.index router.resolver name).toolName := by
  unfold resolveFederatedName at candidate ⊢
  by_cases unregistered : router.index.lookupTool name = []
  · simp only [unregistered, List.length_nil, ne_eq, not_true_eq_false, if_false] at candidate ⊢
    cases unread : router.resolver.bind (·.resolve router.index name) with
    | some resolved =>
      obtain ⟨ns, configured, read⟩ := Option.bind_eq_some_iff.mp unread
      obtain ⟨prefixing, split, named, -⟩ := (ns.resolve_iff router.index trimmed resolved).mp read
      simp only [unread, Option.some_or, Option.getD_some, router.mem_candidates] at candidate ⊢
      exact .namespaced unregistered configured prefixing split named candidate.1 (candidate.2.resolve_left named)
    | none =>
      simp only [unread, Option.none_or] at candidate ⊢
      cases split : cut name "." with
      | none =>
        simp [byFirstSegment, byLegacyFormat, split, router.mem_candidates, unregistered] at candidate
      | some parts =>
        obtain ⟨hint, rest⟩ := parts
        rw [byFirstSegment_of_cut _ split, byLegacyFormat_of_cut split] at candidate ⊢
        by_cases read : hint ≠ "" ∧ router.index.lookupTool rest ≠ []
        · simp only [if_pos read, Option.some_or, Option.getD_some, router.mem_candidates] at candidate ⊢
          exact .compact unregistered unread split read.1 candidate.1 (candidate.2.resolve_left read.1)
        simp only [if_neg read, Option.none_or] at candidate ⊢
        by_cases legacy : hint = "mcp"
        · subst legacy
          have free : router.index.lookupTool rest = [] := by simpa using read
          cases second : cut rest "." with
          | none => simp [second, router.mem_candidates, unregistered] at candidate
          | some parts =>
            simp only [second, if_true, Option.map_some, Option.getD_some, router.mem_candidates] at candidate ⊢
            exact .legacy unregistered unread split free second candidate.1 candidate.2
        · simp [legacy, router.mem_candidates, unregistered] at candidate
  · simp only [List.length_eq_zero_iff, ne_eq, unregistered, not_false_eq_true, if_true,
      router.mem_candidates] at candidate ⊢
    exact .direct candidate.1

end

-- The names under which requests end at the tool of a server. A limit that is not positive closes the server to the
-- router.
inductive Spells (index : CapabilityIndex) (resolver : Option NamespaceResolver) (id tool : String) : String → Prop where
  | unified {name : String} {server : ServerRecord} (own : server.id = id) (visible : trimSpace name ≠ "")
      (reads : Reads index resolver (trimSpace name) server tool) (limit : ∀ limit ∈ server.rateLimit, 0 < limit) :
      Spells index resolver id tool (trimSpace name)
  | header {name serverHint rewritten : String} {server : ServerRecord} (own : server.id = id)
      (visible : trimSpace rewritten ≠ "") (rewrites : rewriteLegacyToolCallName name serverHint = some rewritten)
      (reads : Reads index resolver (trimSpace rewritten) server tool) (limit : ∀ limit ∈ server.rateLimit, 0 < limit) :
      Spells index resolver id tool (trimSpace name)
  | perServer {order : List String} {serverName : String} {server : ServerRecord} (own : server.id = id)
      (valid : serverNamePattern (trimSpace serverName) = true)
      (found : server ∈ index.lookupServer order (trimSpace serverName)) (active : server.isRoutable = true) :
      Spells index resolver id tool (trimSpace tool)

structure Gateway.Over (gateway : Gateway) (index : CapabilityIndex) (resolver : Option NamespaceResolver) : Prop where
  index : gateway.router.index = index
  resolver : gateway.router.resolver = resolver
  chooses : RoutingStrategy.Chooses gateway.router.strategy

section

variable {gateway : Gateway} {index : CapabilityIndex} {resolver : Option NamespaceResolver} {caller : Caller}
  {dispatch : Dispatch}

theorem Gateway.Over.reads (built : gateway.Over index resolver) {name : String}
    (dispatched : gateway.dispatch caller name = some dispatch) : trimSpace name ≠ "" ∧
      Reads index resolver (trimSpace name) dispatch.server dispatch.toolName ∧
      ∀ limit ∈ dispatch.server.rateLimit, 0 < limit := by
  obtain ⟨rfl, rfl, chooses⟩ := built
  unfold Gateway.dispatch at dispatched
  split_ifs at dispatched
  split at dispatched
  next ran =>
    cases dispatched
    obtain ⟨visible, tool, selected, -, limited⟩ := Router.route_ok (Gateway.executeToolCall_routed ran)
    have candidate := Router.candidate_of_select chooses selected
    exact ⟨visible, tool ▸ reads_of_candidate (trimSpace_trimSpace name) candidate,
      (Router.checkServerRateLimit_ok limited).1⟩
  · cases dispatched

theorem Gateway.Over.spells (built : gateway.Over index resolver) {address : Address}
    (ended : gateway.ends caller address = some dispatch) :
    Spells index resolver dispatch.server.id dispatch.toolName (trimSpace address.name) := by
  cases address with
  | federated name =>
    obtain ⟨visible, reads, limit⟩ := built.reads ended
    exact .unified rfl visible reads limit
  | hinted name serverHint =>
    rw [Gateway.ends] at ended
    obtain ⟨visible, reads, limit⟩ := built.reads ended
    cases rewrites : rewriteLegacyToolCallName name serverHint with
    | none =>
      rw [rewrites, Option.getD_none] at visible reads
      exact .unified rfl visible reads limit
    | some rewritten =>
      rw [rewrites, Option.getD_some] at visible reads
      exact .header rfl visible rewrites reads limit
  | perServer serverName name =>
    rw [Gateway.ends] at ended
    split_ifs at ended
    obtain ⟨server, reached, rfl⟩ := Option.map_eq_some_iff.mp ended
    obtain ⟨valid, found, active⟩ := (gateway.mem_virtualServer _ _).mp (Option.mem_toList.mpr reached)
    exact .perServer rfl valid (built.index ▸ found) active

end

-- A gateway that lets every caller call the tool registered as `name`, and picks `server` where it can.
def Gateway.reaching (index : CapabilityIndex) (resolver : Option NamespaceResolver) (order : List String)
    (server : ServerRecord) (name : String) : Gateway where
  router := ⟨index, fun candidates => .ok (if server ∈ candidates then some server else none), none, resolver⟩
  serverOrder := order
  users := none
  scopeEnforced := false
  registry := ⟨[name], [], false, false⟩

section

variable {index : CapabilityIndex} {resolver : Option NamespaceResolver} {server : ServerRecord} {name tool : String}

theorem Gateway.reaching_over (order : List String) :
    (Gateway.reaching index resolver order server name).Over index resolver := by
  refine ⟨rfl, rfl, fun candidates chosen picked => ?_⟩
  have found := Except.ok.inj picked
  split_ifs at found with mem
  exact Option.some.inj found ▸ mem

theorem Gateway.reaching_dispatch (order : List String) (identity : Option Identity) (visible : trimSpace name ≠ "")
    (reads : Reads index resolver (trimSpace name) server tool) (limit : ∀ limit ∈ server.rateLimit, 0 < limit) :
    (Gateway.reaching index resolver order server name).dispatch ⟨identity, [], false, false⟩ name =
      some ⟨server, tool⟩ := by
  let router := (Gateway.reaching index resolver order server name).router
  obtain ⟨named, candidate⟩ : (router.resolve name).toolName = tool ∧ server ∈ router.candidates (router.resolve name) :=
    Reads.candidate (trimSpace_trimSpace name) reads
  have picked : router.strategy (router.candidates (router.resolve name)) = .ok (some server) :=
    congrArg Except.ok (if_pos candidate)
  have selected : router.select (trimSpace name) (router.resolve name) = .ok server := by
    rw [Router.select, if_neg (List.ne_nil_of_mem candidate), picked]
  have admitted : router.admit [] server = .ok () := by
    unfold Router.admit Router.checkServerRateLimit
    cases limited : server.rateLimit with
    | none => rfl
    | some bound => exact if_neg (not_le.mpr (limit bound limited))
  have routed : router.route [] name = .ok ⟨server, tool⟩ := by
    rw [Router.route, if_neg visible, selected, named]
    dsimp only
    rw [admitted]
  have ran : (Gateway.reaching index resolver order server name).executeToolCall ⟨identity, [], false, false⟩ name =
      .dispatched ⟨server, tool⟩ := by
    unfold Gateway.executeToolCall
    exact routed ▸ rfl
  rw [Gateway.dispatch, if_pos (by simp [ToolRegistry.handler, Gateway.reaching]), ran]

theorem Spells.realized {id : String} (spells : Spells index resolver id tool name) (identity : Option Identity) :
    ∃ (gateway : Gateway) (address : Address) (server : ServerRecord), gateway.Over index resolver ∧
      gateway.ends ⟨identity, [], false, false⟩ address = some ⟨server, tool⟩ ∧ server.id = id ∧
      trimSpace address.name = name := by
  cases spells with
  | @unified name server own visible reads limit =>
    exact ⟨_, .federated name, server, Gateway.reaching_over [],
      Gateway.reaching_dispatch [] identity visible reads limit, own, rfl⟩
  | @header name serverHint rewritten server own visible rewrites reads limit =>
    refine ⟨.reaching index resolver [] server rewritten, .hinted name serverHint, server, Gateway.reaching_over [], ?_,
      own, rfl⟩
    rw [Gateway.ends, rewrites, Option.getD_some]
    exact Gateway.reaching_dispatch [] identity visible reads limit
  | @perServer order serverName server own valid found active =>
    refine ⟨.reaching index resolver order server "", .perServer serverName tool, server, Gateway.reaching_over order, ?_,
      own, rfl⟩
    have reached := ((Gateway.reaching index resolver order server "").mem_virtualServer serverName server).mpr
      ⟨valid, found, active⟩
    rw [Gateway.ends, if_neg (by simp [Gateway.stops, Gateway.reaching, Verdict.stops]), Option.mem_toList.mp reached]
    rfl

end

-- What a decision depends on besides the request's tool name, arguments and schema.
structure Policies where
  engine : Engine
  classifier : Option Classifier
  lookup : Lookup
  identity : Option Identity

namespace Policies

variable (policies : Policies)

def allowed (arguments : Object) (schema : Option Json) (address : Address) : Bool :=
  (policies.engine.evaluate policies.classifier (policyRequest policies.identity address.name arguments schema)
    policies.lookup).1.allowed

def profile : PolicyProfile :=
  policies.engine.resolveProfile (policyProfileName policies.identity)

def blocks (name : String) : Bool :=
  (policies.classifier.any fun classifier => classifier.deemsDestructive name policies.lookup) ||
    policies.profile.enforcementMode ≠ .audit && listsBar policies.profile name

def Marks (toolName : String) : Prop :=
  listContains policies.profile.toolDenylist toolName = true ∨
    ∃ classifier ∈ policies.classifier, classifier.table.isDestructive toolName

theorem allowed_iff (arguments : Object) (schema : Option Json) (address : Address) :
    policies.allowed arguments schema address = true ↔ policies.blocks (trimSpace address.name) = false ∧
      (policies.profile.enforcementMode = .audit ∨ checkDangerous arguments policies.engine.dangerousPatterns ++
        validateArguments arguments schema = []) := by
  unfold allowed
  rw [Engine.evaluate_allowed]
  simp only [policyRequest, trimSpace_trimSpace, blocks, Bool.or_eq_false_iff, Bool.and_eq_false_iff, and_assoc]
  refine and_congr_right fun _ => ?_
  show policies.profile.enforcementMode = .audit ∨ _ ∧ listsBar policies.profile _ = false ↔ _
  by_cases audits : policies.profile.enforcementMode = .audit <;> simp [audits, Engine.argumentViolations, and_comm]

theorem allowed_clean (address : Address) :
    policies.allowed [] none address = !policies.blocks (trimSpace address.name) := by
  have decided := policies.allowed_iff [] none address
  cases blocked : policies.blocks (trimSpace address.name) <;>
    simpa [blocked, checkDangerous, collectEntries, validateArguments] using decided

-- The decision is the same however a tool is addressed, and a denial for a tool that is denylisted or stored as
-- destructive.
def AddressBlind (index : CapabilityIndex) (resolver : Option NamespaceResolver) : Prop :=
  ∀ (gateway later : Gateway) (caller : Caller) (first second : Address) (one other : Dispatch),
    gateway.Over index resolver → later.Over index resolver → caller.identity = policies.identity →
      gateway.ends caller first = some one → later.ends caller second = some other →
      one.server.id = other.server.id → one.toolName = other.toolName → ∀ arguments schema,
        policies.allowed arguments schema first = policies.allowed arguments schema second ∧
          (policies.Marks one.toolName → policies.allowed arguments schema first = false)

end Policies

/-- The decisions are blind to the address exactly when, of the names under which the index lets one tool of one server
be called, all or none are blocked, and all are if the tool's own name is denylisted or stored as destructive. -/
theorem address_blind_iff (policies : Policies) (index : CapabilityIndex) (resolver : Option NamespaceResolver) :
    policies.AddressBlind index resolver ↔ ∀ id tool name other, Spells index resolver id tool name →
      Spells index resolver id tool other →
        policies.blocks name = policies.blocks other ∧ (policies.Marks tool → policies.blocks name = true) := by
  constructor
  · intro blind id tool name other spelled respelled
    obtain ⟨gateway, first, server, built, ended, own, rfl⟩ := spelled.realized policies.identity
    obtain ⟨later, second, again, laterBuilt, laterEnded, same, rfl⟩ := respelled.realized policies.identity
    have decided := blind _ _ _ _ _ _ _ built laterBuilt rfl ended laterEnded (own.trans same.symm) rfl [] none
    simpa only [policies.allowed_clean, Bool.not_inj_iff, Bool.not_eq_false'] using decided
  · intro uniform gateway later caller first second one other built laterBuilt identity ended laterEnded id tool
      arguments schema
    have spelled := built.spells ended
    have respelled := laterBuilt.spells laterEnded
    rw [← id, ← tool] at respelled
    obtain ⟨same, marked⟩ := uniform _ _ _ _ spelled respelled
    refine ⟨?_, fun marks => ?_⟩
    · rw [Bool.eq_iff_iff, policies.allowed_iff, policies.allowed_iff, same]
    · rw [← Bool.not_eq_true, policies.allowed_iff, marked marks]
      simp

namespace Sample

def tables : ServerRecord := server "mcp-db" ⟨["compact_table", "list_tables"], [], []⟩

def warehouse : Gateway where
  router := ⟨.rebuild [tables], roundRobin 0, none, none⟩
  serverOrder := ["compact_table", "list_tables"]
  users := none
  scopeEnforced := true
  registry := ⟨[], ["db.compact_table", "db.list_tables"], false, false⟩

def unlimited : Caller := ⟨some ⟨.apikey, "client", ["read"], ∅⟩, [], false, false⟩

def compacting : Policies where
  engine := ⟨∅, []⟩
  classifier := some
    ⟨ClassificationTable.upsert ∅ ⟨"compact_table", .destructive, "reviewed", false, "admin", 0⟩, .new 0⟩
  lookup := ⟨0, 0, false⟩
  identity := unlimited.identity

end Sample

open Sample

theorem federated_name_allows_destructive : ¬compacting.AddressBlind warehouse.router.index none ∧
      warehouse.ends unlimited (.federated "db.compact_table") = some ⟨tables, "compact_table"⟩ ∧
      warehouse.ends unlimited (.perServer "mcp-db" "compact_table") = some ⟨tables, "compact_table"⟩ ∧
      compacting.allowed [] none (.federated "db.compact_table") = true ∧
      compacting.allowed [] none (.perServer "mcp-db" "compact_table") = false := by
  have ended : warehouse.ends unlimited (.federated "db.compact_table") = some ⟨tables, "compact_table"⟩ := by
    decide +kernel
  have direct : warehouse.ends unlimited (.perServer "mcp-db" "compact_table") = some ⟨tables, "compact_table"⟩ := by
    decide +kernel
  have allowed : compacting.allowed [] none (.federated "db.compact_table") = true := by decide +kernel
  have denied : compacting.allowed [] none (.perServer "mcp-db" "compact_table") = false := by decide +kernel
  have built : warehouse.Over warehouse.router.index none := ⟨rfl, rfl, roundRobin_chooses 0⟩
  refine ⟨fun blind => ?_, ended, direct, allowed, denied⟩
  have same := (blind _ _ _ _ _ _ _ built built rfl ended direct rfl rfl [] none).1
  rw [allowed, denied] at same
  cases same

end McpGateway.Proxy
