import McpGateway.Orchestrator.Plan
import McpGateway.Proxy.Catalog
import McpGateway.Proxy.Discovery

namespace McpGateway.Proxy

open Shared Registration Orchestrator

namespace DiscoveryIndex

def ranked (index : DiscoveryIndex) (order : List String) (query category : String) : List (DiscoveryEntry × Rat) :=
  (index.scored order (toLower (trimSpace query)) (toLower (trimSpace category))).insertionSort ranksBefore

def strip (entry : DiscoveryEntry) : ToolDefinition :=
  ⟨entry.definition.name, entry.summary, "", "\x7b\x7d", "", true, ""⟩

def searchPage (index : DiscoveryIndex) (order : List String) (query category : String) (offset limit : Int) :
    List ToolDefinition × Nat :=
  if trimSpace query = "" then ([], 0)
  else
    ((((index.ranked order query category).drop offset.toNat).take (clampLimit limit)).map fun found => strip found.1,
      (index.ranked order query category).length)

def maxGetToolsNames : Nat := 20

def getTools (index : DiscoveryIndex) (names : List String) : List ToolDefinition :=
  (names.take maxGetToolsNames).filterMap fun name =>
    (index.entries.lookup (trimSpace name)).map DiscoveryEntry.definition

end DiscoveryIndex

inductive MetaAnswer where
  | failed (message : String)
  | searchResult (tools : List ToolDefinition) (totalMatches showing : Nat)
  | definitions (tools : List ToolDefinition)
  deriving DecidableEq

def defaultSearchLimit : Int := 10

def searchLimit (arguments : Object) : Int :=
  match arguments.lookup "limit" with
  | some (.number value) => if 0 < value then value.floor else defaultSearchLimit
  | _ => defaultSearchLimit

-- `requireString` is the request's RequireString in mcp-go.
def handleSearchTools (requireString : Object → String → Except String String) (index : DiscoveryIndex)
    (order : List String) (arguments : Object) : MetaAnswer :=
  match requireString arguments "query" with
  | .error error => .failed ("query parameter is required: " ++ error)
  | .ok query =>
    let (results, totalMatches) :=
      index.searchPage order query (stringArgument arguments "category") 0 (searchLimit arguments)
    .searchResult results totalMatches results.length

def stringItem : Value → Option String
  | .string value => some value
  | _ => none

def parseToolNames (arguments : Object) : Except String (List String) :=
  match arguments.lookup "names" with
  | none => .error "names parameter is required"
  | some (.array items) =>
    match items.mapM stringItem with
    | none => .error "names must be an array of strings"
    | some [] => .error "names must contain at least one string"
    | some names => .ok names
  | some _ => .error "names must be an array of strings"

def handleGetToolSchema (index : DiscoveryIndex) (arguments : Object) : MetaAnswer :=
  match parseToolNames arguments with
  | .error error => .failed error
  | .ok names => .definitions (index.getTools names)

inductive MetaCall where
  | searchTools (arguments : Object)
  | getToolSchema (arguments : Object)

structure BackendTools where
  tools : List ToolDefinition
  trimmed : ∀ tool ∈ tools, trimSpace tool.name = tool.name

def BackendTools.definition (backends : BackendTools) (name : String) : Option ToolDefinition :=
  backends.tools.reverse.find? fun tool => tool.name = name

structure MetaTools where
  progressiveDiscovery : Bool
  orchestrator : Bool
  users : Option UserStore
  metadata : List ToolMetadata
  engine : Option ((String → Option DiscoveryEntry) → SearchEngine)
  requireString : Object → String → Except String String

namespace MetaTools

def registry (gateway : MetaTools) (backends : BackendTools) : ToolRegistry :=
  ⟨[], backends.tools.map ToolDefinition.name, gateway.progressiveDiscovery, gateway.orchestrator⟩

def ownTools (gateway : MetaTools) : List String :=
  (if gateway.progressiveDiscovery then ["search_tools", "get_tool_schema"] else []) ++
    (if gateway.orchestrator then [orchestrateToolName] else []) ++ [requestAccessToolName]

-- A tool of the gateway takes the place of a backend's under the same name.
def shown (gateway : MetaTools) (backends : BackendTools) (name : String) : String × Option ToolDefinition :=
  (name, if name ∈ gateway.ownTools then none else backends.definition name)

def roleFiltered (gateway : MetaTools) (caller : Caller) (backends : BackendTools) :
    List (String × Option ToolDefinition) :=
  (applyRoleFilter gateway.users caller (gateway.registry backends).toolNames).map (gateway.shown backends)

def index (gateway : MetaTools) (backends : BackendTools) : DiscoveryIndex :=
  let index := DiscoveryIndex.rebuild ⟨∅, gateway.metadata, none⟩ backends.tools
  { index with engine := gateway.engine.map fun fill => fill fun key => index.entries.lookup key }

def answer (gateway : MetaTools) (backends : BackendTools) (order : List String) (call : MetaCall) :
    Option MetaAnswer :=
  if gateway.progressiveDiscovery then
    match call with
    | .searchTools arguments => some (handleSearchTools gateway.requireString (gateway.index backends) order arguments)
    | .getToolSchema arguments => some (handleGetToolSchema (gateway.index backends) arguments)
  else none

def Answers (gateway : MetaTools) (backends : BackendTools) (call : MetaCall) (answer : Option MetaAnswer) : Prop :=
  ∃ order, order.Perm (gateway.index backends).entries.keys ∧ gateway.answer backends order call = answer

/-- Backends that the caller cannot tell apart by the tool list cannot be told apart by the meta-tools. -/
def RevealsNothing (gateway : MetaTools) (caller : Caller) (left right : BackendTools) : Prop :=
  (∀ tool, tool ∈ gateway.roleFiltered caller left ↔ tool ∈ gateway.roleFiltered caller right) →
    ∀ call answer, gateway.Answers left call answer ↔ gateway.Answers right call answer

def Visible (gateway : MetaTools) (caller : Caller) (name : String) : Prop :=
  name ∉ gateway.ownTools ∧ name ∈ applyRoleFilter gateway.users caller [name]

end MetaTools

section

variable {store : Option UserStore} {caller : Caller} {name : String} {tools : List String}

theorem mem_permittedTools {users : UserStore} {user : User} :
    name ∈ users.permittedTools caller user tools ↔ name ∈ tools ∧ name ∈ users.permittedTools caller user [name] := by
  unfold UserStore.permittedTools
  split_ifs
  · simp [mem_onlyRequestAccessTool]
  · simp

theorem mem_applyRoleFilter :
    name ∈ applyRoleFilter store caller tools ↔ name ∈ tools ∧ name ∈ applyRoleFilter store caller [name] := by
  unfold applyRoleFilter
  cases store with
  | none => simp [withoutRequestAccessTool]
  | some users =>
    cases caller.identity with
    | none => simp [withoutRequestAccessTool]
    | some identity =>
      dsimp only
      split_ifs
      · simp [withoutRequestAccessTool]
      · simp [mem_onlyRequestAccessTool]
      · cases users.getByOIDCSub identity.id with
        | none => simp [mem_onlyRequestAccessTool]
        | some user =>
          dsimp only
          cases user.role with
          | admin => simp [withoutRequestAccessTool]
          | user => exact mem_permittedTools
          | viewer => exact mem_permittedTools
          | _ => simp [mem_onlyRequestAccessTool]

end

namespace BackendTools

variable {backends : BackendTools} {name : String} {tool : ToolDefinition}

theorem definition_mem (found : backends.definition name = some tool) : tool ∈ backends.tools ∧ tool.name = name := by
  have named := List.find?_some found
  exact ⟨List.mem_reverse.mp (List.mem_of_find?_eq_some found), by simpa using named⟩

theorem definition_trimmed (found : backends.definition name = some tool) : trimSpace name = name := by
  obtain ⟨mem, rfl⟩ := definition_mem found
  exact backends.trimmed tool mem

theorem definition_isSome :
    (backends.definition name).isSome = true ↔ name ∈ backends.tools.map ToolDefinition.name := by
  simp [definition, List.find?_isSome]

end BackendTools

namespace MetaTools

variable {gateway : MetaTools} {caller : Caller} {left right : BackendTools} {name : String}

theorem mem_registry_toolNames {backends : BackendTools} : name ∈ (gateway.registry backends).toolNames ↔
      (backends.definition name).isSome = true ∨ name ∈ gateway.ownTools := by
  have names : (gateway.registry backends).toolNames =
      (backends.tools.map ToolDefinition.name ++ gateway.ownTools).dedup := by
    simp only [ToolRegistry.toolNames, registry, ownTools, List.nil_append, List.append_assoc]
    rfl
  rw [names, List.mem_dedup, List.mem_append, BackendTools.definition_isSome]

theorem mem_roleFiltered {backends : BackendTools} {tool : String × Option ToolDefinition} :
    tool ∈ gateway.roleFiltered caller backends ↔
      ((backends.definition tool.1).isSome = true ∨ tool.1 ∈ gateway.ownTools) ∧
        tool.1 ∈ applyRoleFilter gateway.users caller [tool.1] ∧ tool = gateway.shown backends tool.1 := by
  unfold roleFiltered
  rw [List.mem_map]
  constructor
  · rintro ⟨name, passed, rfl⟩
    rw [mem_applyRoleFilter, mem_registry_toolNames] at passed
    exact ⟨passed.1, passed.2, rfl⟩
  · rintro ⟨offered, passed, same⟩
    refine ⟨tool.1, ?_, same.symm⟩
    rw [mem_applyRoleFilter, mem_registry_toolNames]
    exact ⟨offered, passed⟩

theorem roleFiltered_subset (agree : ∀ name, gateway.Visible caller name → left.definition name = right.definition name)
    {tool : String × Option ToolDefinition} (listed : tool ∈ gateway.roleFiltered caller left) :
    tool ∈ gateway.roleFiltered caller right := by
  rw [mem_roleFiltered] at listed ⊢
  obtain ⟨offered, passed, same⟩ := listed
  by_cases own : tool.1 ∈ gateway.ownTools
  · refine ⟨.inr own, passed, same.trans ?_⟩
    simp [shown, own]
  · have equal := agree tool.1 ⟨own, passed⟩
    refine ⟨equal ▸ offered, passed, same.trans ?_⟩
    simp [shown, equal]

theorem definition_of_subset
    (subset : ∀ tool, tool ∈ gateway.roleFiltered caller left → tool ∈ gateway.roleFiltered caller right)
    (visible : gateway.Visible caller name) {tool : ToolDefinition} (found : left.definition name = some tool) :
    right.definition name = some tool := by
  have listed : (name, some tool) ∈ gateway.roleFiltered caller left :=
    mem_roleFiltered.mpr ⟨.inl (by simp [found]), visible.2, by simp [shown, visible.1, found]⟩
  have also := (mem_roleFiltered.mp (subset _ listed)).2.2
  simp only [shown, visible.1, if_false, Prod.mk.injEq, true_and] at also
  exact also.symm

theorem same_roleFiltered_iff :
    (∀ tool, tool ∈ gateway.roleFiltered caller left ↔ tool ∈ gateway.roleFiltered caller right) ↔
      ∀ name, gateway.Visible caller name → left.definition name = right.definition name := by
  constructor
  · intro same name visible
    refine Option.ext fun tool => ⟨?_, ?_⟩
    · exact definition_of_subset (fun tool => (same tool).mp) visible
    · exact definition_of_subset (fun tool => (same tool).mpr) visible
  · intro agree tool
    exact ⟨roleFiltered_subset agree, roleFiltered_subset fun name visible => (agree name visible).symm⟩

end MetaTools

namespace DiscoveryIndex

theorem lookup_inserted (tools : List ToolDefinition) (entries : GoMap String DiscoveryEntry) (name : String) :
    (tools.foldl (fun entries tool => entries.insert tool.name (.new tool)) entries).lookup name =
      ((tools.reverse.find? fun tool => tool.name = name).map DiscoveryEntry.new).or (entries.lookup name) := by
  induction tools generalizing entries with
  | nil => simp
  | cons tool rest ih =>
    rw [List.foldl_cons, ih, List.reverse_cons, List.find?_append, GoMap.lookup_insert_eq]
    cases later : rest.reverse.find? fun tool => tool.name = name with
    | some found => simp
    | none =>
      by_cases same : tool.name = name
      · simp [same]
      · simp [same, Ne.symm same]

def enrichAll (metadata : List ToolMetadata) (name : String) (entry : DiscoveryEntry) : DiscoveryEntry :=
  metadata.foldl (fun entry metadata => if metadata.toolName = name then entry.enrich metadata else entry) entry

theorem lookup_applied (metadata : List ToolMetadata) (entries : GoMap String DiscoveryEntry) (name : String) :
    (metadata.foldl applyOne entries).lookup name = (entries.lookup name).map (enrichAll metadata name) := by
  induction metadata generalizing entries with
  | nil => cases held : entries.lookup name <;> simp [held, enrichAll]
  | cons first rest ih =>
    rw [List.foldl_cons, ih]
    unfold applyOne
    by_cases same : first.toolName = name
    · subst same
      cases held : entries.lookup first.toolName <;> simp [held, enrichAll]
    · have kept (entry : DiscoveryEntry) : enrichAll (first :: rest) name entry = enrichAll rest name entry := by
        simp [enrichAll, same]
      cases entries.lookup first.toolName <;> simp [Ne.symm same, funext kept]

theorem enrichAll_definition (metadata : List ToolMetadata) (name : String) (entry : DiscoveryEntry) :
    (enrichAll metadata name entry).definition = entry.definition := by
  induction metadata generalizing entry with
  | nil => rfl
  | cons first rest ih =>
    rw [enrichAll, List.foldl_cons, ← enrichAll, ih]
    split_ifs <;> rfl

section

variable {left right : DiscoveryIndex}

theorem scored_congr (same : ∀ key, left.entries.lookup key = right.entries.lookup key)
    (engine : left.engine = right.engine) (order : List String) (query category : String) :
    left.scored order query category = right.scored order query category := by
  have substring : left.scoredSubstring order query category = right.scoredSubstring order query category := by
    simp only [scoredSubstring, same]
  simp only [scored, engine, substring, scoredEngine, same]

end

end DiscoveryIndex

namespace MetaTools

variable {gateway : MetaTools} {caller : Caller} {left right : BackendTools} {name : String}

theorem lookup_index (backends : BackendTools) (name : String) : (gateway.index backends).entries.lookup name =
      (backends.definition name).map fun tool =>
        DiscoveryIndex.enrichAll gateway.metadata name (.new tool) := by
  simp only [index, DiscoveryIndex.rebuild, DiscoveryIndex.lookup_applied, DiscoveryIndex.lookup_inserted,
    BackendTools.definition]
  cases backends.tools.reverse.find? fun tool => tool.name = name <;> simp

theorem index_engine (backends : BackendTools) : (gateway.index backends).engine =
      gateway.engine.map fun fill => fill fun key => (gateway.index backends).entries.lookup key := rfl

section

variable (equal : ∀ name, left.definition name = right.definition name)

include equal

theorem index_entries_congr (name : String) :
    (gateway.index left).entries.lookup name = (gateway.index right).entries.lookup name := by
  rw [lookup_index, lookup_index, equal]

theorem answer_congr (order : List String) (call : MetaCall) :
    gateway.answer left order call = gateway.answer right order call := by
  have entries : ∀ name, (gateway.index left).entries.lookup name = (gateway.index right).entries.lookup name :=
    index_entries_congr equal
  have engine : (gateway.index left).engine = (gateway.index right).engine := by
    rw [index_engine, index_engine]
    simp only [entries]
  cases call with
  | searchTools arguments =>
    simp only [answer, handleSearchTools, DiscoveryIndex.searchPage, DiscoveryIndex.ranked,
      DiscoveryIndex.scored_congr entries engine]
  | getToolSchema arguments =>
    simp only [answer, handleGetToolSchema, DiscoveryIndex.getTools, entries]

theorem answers_subset {call : MetaCall} {answer : Option MetaAnswer} (possible : gateway.Answers left call answer) :
    gateway.Answers right call answer := by
  obtain ⟨order, whole, answered⟩ := possible
  refine ⟨order, whole.trans ?_, (answer_congr equal order call).symm.trans answered⟩
  refine (List.perm_ext_iff_of_nodup (AList.keys_nodup _) (AList.keys_nodup _)).mpr fun key => ?_
  rw [← AList.mem_keys, ← AList.mem_keys, ← AList.lookup_isSome, ← AList.lookup_isSome, index_entries_congr equal]

end

theorem getTools_singleton (backends : BackendTools) {name : String} (trimmed : trimSpace name = name) :
    (gateway.index backends).getTools [name] = (backends.definition name).toList := by
  rw [DiscoveryIndex.getTools, DiscoveryIndex.maxGetToolsNames]
  simp only [List.take_succ_cons, List.take_nil, List.filterMap_cons, List.filterMap_nil, trimmed, lookup_index]
  cases backends.definition name <;> simp [DiscoveryIndex.enrichAll_definition, DiscoveryEntry.new]

def schemaCall (name : String) : MetaCall :=
  .getToolSchema [("names", .array [.string name])]

theorem answers_schemaCall (backends : BackendTools) {name : String} (progressive : gateway.progressiveDiscovery = true)
    (trimmed : trimSpace name = name) (answer : Option MetaAnswer) : gateway.Answers backends (schemaCall name) answer ↔
      some (.definitions (backends.definition name).toList) = answer := by
  have answered (order : List String) : gateway.answer backends order (schemaCall name) =
      some (.definitions (backends.definition name).toList) := by
    have parsed : parseToolNames [("names", .array [.string name])] = .ok [name] := rfl
    simp only [MetaTools.answer, progressive, if_true, schemaCall, handleGetToolSchema, parsed,
      getTools_singleton backends trimmed]
  constructor
  · rintro ⟨order, -, same⟩
    exact (answered order).symm.trans same
  · intro same
    exact ⟨_, .refl _, (answered _).trans same⟩

theorem definition_of_answers (progressive : gateway.progressiveDiscovery = true)
    (same : ∀ call answer, gateway.Answers left call answer ↔ gateway.Answers right call answer) (name : String) :
    left.definition name = right.definition name := by
  by_cases trimmed : trimSpace name = name
  · have answered := (same (schemaCall name) _).mp ((answers_schemaCall left progressive trimmed _).mpr rfl)
    rw [answers_schemaCall right progressive trimmed, Option.some.injEq, MetaAnswer.definitions.injEq] at answered
    simpa using congrArg List.head? answered.symm
  · have missing (backends : BackendTools) : backends.definition name = none :=
      Option.eq_none_iff_forall_ne_some.mpr fun tool found => trimmed (BackendTools.definition_trimmed found)
    rw [missing, missing]

theorem answers_off (off : gateway.progressiveDiscovery = false) (backends : BackendTools) (call : MetaCall)
    (answer : Option MetaAnswer) : gateway.Answers backends call answer ↔ none = answer := by
  constructor
  · rintro ⟨order, -, same⟩
    simpa [MetaTools.answer, off] using same
  · intro same
    exact ⟨_, .refl _, by simpa [MetaTools.answer, off] using same⟩

/-- The meta-tools reveal nothing beyond the list exactly if they are not offered, or the backends have the same tools,
or they differ in a tool that the caller may see. -/
theorem metaTools_reveal_nothing_iff (gateway : MetaTools) (caller : Caller) (left right : BackendTools) :
    gateway.RevealsNothing caller left right ↔
      gateway.progressiveDiscovery = false ∨ (∀ name, left.definition name = right.definition name) ∨
        ∃ name, gateway.Visible caller name ∧ left.definition name ≠ right.definition name := by
  unfold RevealsNothing
  rw [same_roleFiltered_iff]
  constructor
  · intro reveals
    by_cases progressive : gateway.progressiveDiscovery = true
    · refine .inr (or_iff_not_imp_right.mpr fun hidden => definition_of_answers progressive (reveals ?_))
      simpa using hidden
    · exact .inl (by simpa using progressive)
  · intro condition agree call answer
    rcases condition with off | equal | ⟨name, visible, differ⟩
    · rw [answers_off off, answers_off off]
    · exact ⟨answers_subset equal, answers_subset fun name => (equal name).symm⟩
    · exact absurd (agree name visible) differ

end MetaTools

namespace Sample

def discovery (role : UserRole) : MetaTools where
  progressiveDiscovery := true
  orchestrator := false
  users := some ⟨(∅ : GoMap String User).insert "sub-1" ⟨"u-1", "sub-1", role⟩, []⟩
  metadata := []
  engine := none
  requireString arguments key :=
    match arguments.lookup key with
    | some (.string value) => .ok value
    | _ => .error ("required argument " ++ quote key ++ " not found")

def secretTool : ToolDefinition := ⟨"vault.read_key", "Read a key.", "", "\x7b\x7d", "", false, ""⟩

def noTools : BackendTools := ⟨[], by simp⟩

def vault : BackendTools := ⟨[secretTool], by decide +kernel⟩

end Sample

open Sample

theorem blocked_user_gets_schema : (∀ tool, tool ∈ (discovery .blocked).roleFiltered memberCaller noTools ↔
        tool ∈ (discovery .blocked).roleFiltered memberCaller vault) ∧
      (discovery .blocked).Answers vault (MetaTools.schemaCall "vault.read_key") (some (.definitions [secretTool])) ∧
      ¬ (discovery .blocked).Answers noTools (MetaTools.schemaCall "vault.read_key")
        (some (.definitions [secretTool])) := by
  have trimmed : trimSpace "vault.read_key" = "vault.read_key" := by decide +kernel
  have listed : (discovery .blocked).roleFiltered memberCaller noTools =
      (discovery .blocked).roleFiltered memberCaller vault := by decide +kernel
  rw [MetaTools.answers_schemaCall _ rfl trimmed, MetaTools.answers_schemaCall _ rfl trimmed]
  exact ⟨fun tool => by rw [listed], by decide +kernel, by decide +kernel⟩

end McpGateway.Proxy
