import McpGateway.Proxy.Aggregation
import McpGateway.Admin.UserTools
import McpGateway.Registration.ManualClassifications

namespace McpGateway.Proxy

open Shared Registration Policy Admin

def metaToolNames : List String :=
  ["search_tools", "get_tool_schema", orchestrateToolName, requestAccessToolName]

def ToolRegistry.toolNames (registry : ToolRegistry) : List String :=
  (registry.activated ++ registry.backendTools ++
    (if registry.progressiveDiscovery then ["search_tools", "get_tool_schema"] else []) ++
    (if registry.orchestrator then [orchestrateToolName] else []) ++ [requestAccessToolName]).dedup

def withoutRequestAccessTool (tools : List String) : List String :=
  tools.filter (· ≠ requestAccessToolName)

def onlyRequestAccessTool (tools : List String) : List String :=
  if requestAccessToolName ∈ tools then [requestAccessToolName] else []

variable {name : String} {definition : ToolDefinition} {caller : Caller} {identity : Identity} {user : User}

theorem mem_onlyRequestAccessTool {tools : List String} :
    name ∈ onlyRequestAccessTool tools ↔ name ∈ tools ∧ name = requestAccessToolName := by
  unfold onlyRequestAccessTool
  split_ifs with offered
  · simp only [List.mem_singleton, iff_and_self]
    rintro rfl
    exact offered
  · simp only [List.not_mem_nil, false_iff]
    rintro ⟨member, rfl⟩
    exact offered member

def onlyMetaTools (tools : List String) : List String :=
  tools.filter (· ∈ metaToolNames)

def UserStore.permittedTools (store : UserStore) (caller : Caller) (user : User) (tools : List String) : List String :=
  if caller.permissionQueryFails ∨ store.getToolPermissions user.id = [] then onlyRequestAccessTool tools
  else tools.filter fun tool => tool ≠ requestAccessToolName ∧ tool ∈ store.getToolPermissions user.id

-- The filters read nothing of a tool but its name.
def applyRoleFilter (store : Option UserStore) (caller : Caller) (tools : List String) : List String :=
  match store, caller.identity with
  | some store, some identity =>
    if identity.type ≠ .oidc then withoutRequestAccessTool tools
    else if caller.userQueryFails then onlyRequestAccessTool tools
    else
      match store.getByOIDCSub identity.id with
      | none => onlyRequestAccessTool tools
      | some user =>
        match user.role with
        | .admin => withoutRequestAccessTool tools
        | .user => store.permittedTools caller user tools
        | .viewer => store.permittedTools caller user tools
        | _ => onlyRequestAccessTool tools
  | _, _ => withoutRequestAccessTool tools

def ToolRegistry.toolFilterFunc (registry : ToolRegistry) (store : Option UserStore) (caller : Caller) : List String :=
  if registry.progressiveDiscovery then onlyMetaTools (applyRoleFilter store caller registry.toolNames)
  else applyRoleFilter store caller registry.toolNames

inductive FilledByRegistration : ClassificationTable → Prop where
  | empty : FilledByRegistration ∅
  | classified {table : ClassificationTable} (prior : FilledByRegistration table) (callerId : String) (now : Time)
    (name : String) : FilledByRegistration (classifiedTable callerId now table name)

theorem FilledByRegistration.trimmed {table : ClassificationTable} (filled : FilledByRegistration table)
    (stored : table.lookup name ≠ none) : trimSpace name = name := by
  induction filled with
  | empty => simp at stored
  | classified prior callerId now tool ih =>
    unfold classifiedTable at stored
    split_ifs at stored
    · exact ih stored
    · exact ih stored
    · rw [lookup_upsert] at stored
      split_ifs at stored with same
      · rw [same, trimSpace_trimSpace]
      · exact ih stored

def ToolRegistry.synced (registry : ToolRegistry) (context : ListingContext) (cache : ToolCache) : ToolRegistry :=
  { registry with backendTools := (context.handleListTools cache).1.map ToolDefinition.name }

def UsableTool (registry : ToolRegistry) (context : ListingContext) (cache : ToolCache) (store : UserStore)
    (caller : Caller) (toolName : String) : Prop :=
  ∃ offer definition, offer.toolName = toolName ∧ context.Lists cache offer definition ∧
    (registry.synced context cache).handler definition.name = some .backend ∧
    definition.name ∈ (registry.synced context cache).toolFilterFunc (some store) caller ∧
    checkToolPermission store caller definition.name = none

def ListedAsGranted (registry : ToolRegistry) (context : ListingContext) (cache : ToolCache) (store : UserStore)
    (user : User) (toolName : String) : Prop :=
  ∃ offer definition, offer.toolName = toolName ∧ context.Lists cache offer definition ∧
    (registry.synced context cache).handler definition.name = some .backend ∧
    (registry.progressiveDiscovery = false ∨ definition.name ∈ metaToolNames) ∧
    definition.name ≠ requestAccessToolName ∧
    (definition.name = toolName ∨ (trimSpace user.id, definition.name) ∈ store.permissions)

theorem ListingContext.foldl_result (context : ListingContext) (offers : List Offer) {agg : ToolAggregator}
    (listed : definition ∈ agg.result) : definition ∈ (offers.foldl context.aggregate agg).result := by
  induction offers generalizing agg with
  | nil => exact listed
  | cons offer rest ih => exact ih ((context.aggregate_cases agg offer).result_kept listed)

theorem ListingContext.Lists.mem {context : ListingContext} {cache : ToolCache} {offer : Offer}
    (lists : context.Lists cache offer definition) : definition ∈ (context.handleListTools cache).1 := by
  obtain ⟨before, after, split, added⟩ := lists
  rw [context.handleListTools_eq]
  simp only [ListingContext.aggregated, split, List.foldl_append, List.foldl_cons]
  refine context.foldl_result after ?_
  rw [ListingContext.aggregated] at added
  simp [added]

theorem applyRoleFilter_user {store : UserStore} (identified : caller.identity = some identity)
    (oidc : identity.type = .oidc) (known : store.getByOIDCSub identity.id = some user) (role : user.role = .user)
    (tools : List String) : applyRoleFilter (some store) caller tools =
      if caller.userQueryFails then onlyRequestAccessTool tools else store.permittedTools caller user tools := by
  simp [applyRoleFilter, identified, oidc, known, role]

theorem checkToolPermission_user {store : UserStore} (identified : caller.identity = some identity)
    (oidc : identity.type = .oidc) (known : store.getByOIDCSub identity.id = some user) (role : user.role = .user)
    (toolName : String) : checkToolPermission store caller toolName = none ↔ caller.userQueryFails = false ∧
      caller.permissionQueryFails = false ∧ store.hasToolPermission user.id toolName = true := by
  simp only [checkToolPermission, identified, oidc, known, UserStore.denial, role]
  cases caller.userQueryFails <;> cases caller.permissionQueryFails <;>
    cases store.hasToolPermission user.id toolName <;> simp

theorem mem_toolNames {registry : ToolRegistry} (listed : name ∈ registry.backendTools) :
    name ∈ registry.toolNames := by
  simp [ToolRegistry.toolNames, listed]

theorem mem_toolFilterFunc {registry : ToolRegistry} {store : UserStore}
    (identified : caller.identity = some identity) (oidc : identity.type = .oidc)
    (known : store.getByOIDCSub identity.id = some user) (role : user.role = .user)
    (answered : caller.userQueryFails = false) (read : caller.permissionQueryFails = false)
    (some_permission : store.getToolPermissions user.id ≠ []) (name : String) :
    name ∈ registry.toolFilterFunc (some store) caller ↔ name ∈ registry.toolNames ∧
      (registry.progressiveDiscovery = false ∨ name ∈ metaToolNames) ∧ name ≠ requestAccessToolName ∧
      (trimSpace user.id, name) ∈ store.permissions := by
  have permitted : applyRoleFilter (some store) caller registry.toolNames = registry.toolNames.filter fun tool =>
      tool ≠ requestAccessToolName ∧ tool ∈ store.getToolPermissions user.id := by
    simp [applyRoleFilter_user identified oidc known role, answered, UserStore.permittedTools, read, some_permission]
  unfold ToolRegistry.toolFilterFunc
  rw [permitted, ← UserStore.mem_getToolPermissions]
  cases registry.progressiveDiscovery
  · simp
  · simp [onlyMetaTools]

open ToolsRequest (write edited merged names)

theorem mem_granted_iff {store next : UserStore} (written : store.Written) {userId toolName : String}
    (trimmed : trimSpace toolName = toolName)
    (granted : write ⟨.add, userId, [toolName]⟩ (ToolsRequest.read ⟨.add, userId, [toolName]⟩ store) store =
      some next) (name : String) : (trimSpace userId, name) ∈ next.permissions ↔
      name = toolName ∨ (trimSpace userId, name) ∈ store.permissions := by
  rw [mem_written_iff written granted]
  simp [edited, merged, names, ToolsRequest.read, trimmed, UserStore.mem_getToolPermissions, or_comm]

/-- A granted tool can be used exactly if the gateway lists it under the name that was granted, which is the name the
backend gives it, or under another the user already had. -/
theorem granted_tool_usable_iff {registry : ToolRegistry} {context : ListingContext} {cache : ToolCache}
    {store next : UserStore} {caller : Caller} {identity : Identity} {user : User} {table : ClassificationTable}
    {toolName : String} (written : store.Written) (filled : FilledByRegistration table)
    (offered : table.lookup toolName ≠ none) (identified : caller.identity = some identity)
    (oidc : identity.type = .oidc) (known : store.getByOIDCSub identity.id = some user) (role : user.role = .user)
    (granted : write ⟨.add, user.id, [toolName]⟩
      (ToolsRequest.read ⟨.add, user.id, [toolName]⟩ store) store = some next) :
    UsableTool registry context cache next caller toolName ↔ caller.userQueryFails = false ∧
      caller.permissionQueryFails = false ∧ ListedAsGranted registry context cache store user toolName := by
  have rows := mem_granted_iff written (filled.trimmed offered) granted
  have account : next.getByOIDCSub identity.id = some user := by
    rw [UserStore.getByOIDCSub, UserStore.setToolPermissions_users granted]
    exact known
  have proper : next.Written := .set written granted
  have some_permission : next.getToolPermissions user.id ≠ [] :=
    List.ne_nil_of_mem (UserStore.mem_getToolPermissions.mpr ((rows toolName).mpr (.inl rfl)))
  have checked := checkToolPermission_user identified oidc account role
  constructor
  · intro usable
    obtain ⟨offer, definition, tool, lists, backend, shown, passes⟩ := usable
    obtain ⟨answered, read, -⟩ := (checked definition.name).mp passes
    obtain ⟨-, visible, genuine, permitted⟩ :=
      (mem_toolFilterFunc identified oidc account role answered read some_permission definition.name).mp shown
    exact ⟨answered, read, offer, definition, tool, lists, backend, visible, genuine, (rows _).mp permitted⟩
  · intro holds
    obtain ⟨answered, read, offer, definition, tool, lists, backend, visible, genuine, permitted⟩ := holds
    have stored := (rows definition.name).mpr permitted
    have trimmed : trimSpace definition.name = definition.name := (proper.proper stored).2.2
    have served : definition.name ∈ (registry.synced context cache).toolNames :=
      mem_toolNames (List.mem_map_of_mem lists.mem)
    have shown := (mem_toolFilterFunc identified oidc account role answered read some_permission definition.name).mpr
      ⟨served, visible, genuine, stored⟩
    refine ⟨offer, definition, tool, lists, backend, shown, (checked definition.name).mpr ⟨answered, read, ?_⟩⟩
    simpa [UserStore.hasToolPermission, trimmed] using stored

namespace Sample

def oneTool (toolName : String) : ListingContext where
  index := .rebuild [server "mcp-k8s" ⟨[toolName], [], []⟩]
  resolver := none
  listing _ := some [⟨toolName, "", "", "", "", false, ""⟩]
  now := 0

def plainRegistry : ToolRegistry := ⟨[], [], false, false⟩

def member : User := ⟨"u-1", "sub-1", .user⟩

def memberStore (permissions : List String) : UserStore :=
  ⟨(∅ : GoMap String User).insert "sub-1" member, permissions.map fun toolName => ("u-1", toolName)⟩

def memberCaller : Caller := ⟨some ⟨.oidc, "sub-1", [], ∅⟩, [], false, false⟩

def classifiedTool (toolName : String) : ClassificationTable := classifiedTable "" 0 ∅ toolName

theorem memberStore_granted (toolName : String) (trimmed : trimSpace toolName = toolName) :
    write ⟨.add, "u-1", [toolName]⟩ (ToolsRequest.read ⟨.add, "u-1", [toolName]⟩ (memberStore [])) (memberStore []) =
        some (memberStore [toolName]) := by
  have named : trimSpace "u-1" = "u-1" := by decide +kernel
  have known : UserStore.hasUser ⟨AList.singleton "sub-1" member, []⟩ "u-1" = true := by decide +kernel
  simp [write, ToolsRequest.read, edited, merged, names, known,
    UserStore.setToolPermissions, UserStore.getToolPermissions, memberStore, sortStrings, named, trimmed]

end Sample

open Sample

theorem prefixed_tool_usable :
    UsableTool plainRegistry (oneTool "k8s.list_pods") (.new 0) (memberStore ["k8s.list_pods"])
      memberCaller "k8s.list_pods" := by
  have filled : FilledByRegistration (classifiedTool "k8s.list_pods") := .classified .empty _ _ _
  have written : (memberStore []).Written := .none _
  have identified : memberCaller.identity = some ⟨.oidc, "sub-1", [], ∅⟩ := rfl
  have known : (memberStore []).getByOIDCSub "sub-1" = some member := by decide +kernel
  have granted := memberStore_granted "k8s.list_pods" (by decide +kernel)
  refine (granted_tool_usable_iff written filled (by decide +kernel) identified rfl known rfl granted).mpr
    ⟨rfl, rfl, ?_⟩
  refine ⟨⟨server "mcp-k8s" ⟨["k8s.list_pods"], [], []⟩, "k8s.list_pods"⟩,
    ⟨"k8s.list_pods", "", "", "", "", false, ""⟩, rfl, ⟨[], [], by decide +kernel, by decide +kernel⟩, ?_⟩
  decide +kernel

theorem granted_tool_hidden : FilledByRegistration (classifiedTool "list_pods") ∧
      (classifiedTool "list_pods").lookup "list_pods" ≠ none ∧
      (∃ server ∈ (oneTool "list_pods").index.lookupTool "list_pods", server.status = .active) ∧
      write ⟨.add, "u-1", ["list_pods"]⟩
        (ToolsRequest.read ⟨.add, "u-1", ["list_pods"]⟩ (memberStore [])) (memberStore []) =
          some (memberStore ["list_pods"]) ∧
      ¬ UsableTool plainRegistry (oneTool "list_pods") (.new 0) (memberStore ["list_pods"])
        memberCaller "list_pods" := by
  have nothing : (plainRegistry.synced (oneTool "list_pods") (.new 0)).toolFilterFunc
      (some (memberStore ["list_pods"])) memberCaller = [] := by decide +kernel
  refine ⟨.classified .empty _ _ _, by decide +kernel, by decide +kernel,
    memberStore_granted "list_pods" (by decide +kernel), fun usable => ?_⟩
  obtain ⟨_, _, _, _, _, shown, _⟩ := usable
  rw [nothing] at shown
  cases shown

end McpGateway.Proxy
