import McpGateway.Proxy.RoleFilter
import McpGateway.Proxy.RoundTrip

namespace McpGateway.Proxy

open Shared Registration ListingContext

structure CatalogEntry extends ToolDefinition where
  serverId : String
  serverName : String
  deriving DecidableEq

def canonicalCatalogName (federatedName : String) : String :=
  if trimSpace federatedName = "" ∨ hasPrefix (trimSpace federatedName) "mcp." then trimSpace federatedName
  else "mcp." ++ trimSpace federatedName

def canonicalCatalogServerName (serverName : String) : String :=
  trimPrefix (trimSpace serverName) "mcp-"

def ToolCache.getWithMeta (cache : ToolCache) (name : String) (now : Time) :
    Option (ToolDefinition × String × String) × ToolCache :=
  if trimSpace name = "" then (none, cache)
  else
    match cache.tools.lookup (trimSpace name) with
    | none => (none, cache)
    | some entry =>
      if cache.ttl < now - entry.fetchedAt then (none, { cache with tools := cache.tools.erase (trimSpace name) })
      else (some (entry.definition, entry.serverId, entry.serverName), cache)

def catalogEntry (definition : ToolDefinition) (serverId serverName : String) : CatalogEntry where
  toToolDefinition := { definition with name := canonicalCatalogName definition.name }
  serverId := serverId
  serverName := canonicalCatalogServerName serverName

def catalogTool (looked : Time) (state : List CatalogEntry × ToolCache) (tool : ToolDefinition) :
    List CatalogEntry × ToolCache :=
  if tool.name ∈ metaToolNames then state
  else
    let found := state.2.getWithMeta tool.name looked
    let shown := found.1.getD (tool, "", "")
    let entry := catalogEntry shown.1 shown.2.1 shown.2.2
    if entry.name = "" then (state.1, found.2) else (state.1 ++ [entry], found.2)

def ListingContext.listCatalogTools (context : ListingContext) (cache : ToolCache) (looked : Time) :
    List CatalogEntry × ToolCache :=
  let (tools, cache) := context.handleListTools cache
  tools.foldl (catalogTool looked) ([], cache)

def Router.CallsBack (router : Router) (entry : CatalogEntry) (toolName : String) : Prop :=
  (router.resolve entry.name).toolName = toolName ∧
    ∃ server ∈ router.candidates (router.resolve entry.name), trimSpace server.id = entry.serverId

instance (router : Router) (entry : CatalogEntry) (toolName : String) : Decidable (router.CallsBack entry toolName) :=
  inferInstanceAs (Decidable (_ ∧ _))

def ListingContext.remembered (past : ListingContext) (ttl : Int) (looked : Time) (text : String) : String :=
  if ttl < looked - past.now then "" else trimSpace text

def ListingContext.Behind (past : ListingContext) (ttl : Int) (looked : Time) (offer : Offer) (entry : CatalogEntry) :
    Prop :=
  offer ∈ past.offers ∧ ∃ definition, past.defined offer = some definition ∧
    entry = catalogEntry (past.entry offer definition) (past.remembered ttl looked offer.server.id)
      (past.remembered ttl looked offer.server.name)

section

variable {state : List CatalogEntry × ToolCache} {looked : Time} {entry : CatalogEntry}

theorem ToolCache.getWithMeta_snd (cache : ToolCache) (name : String) (now : Time) :
    (cache.getWithMeta name now).2 = (cache.get name now).2 := by
  simp only [getWithMeta, get]
  split_ifs
  · rfl
  · cases cache.tools.lookup (trimSpace name) with
    | none => rfl
    | some cached => by_cases late : cache.ttl < now - cached.fetchedAt <;> simp [late]

theorem ToolCache.getWithMeta_fst (cache : ToolCache) (name : String) (now : Time) : (cache.getWithMeta name now).1 =
      (cache.fresh now name).map fun cached => (cached.definition, cached.serverId, cached.serverName) := by
  simp only [getWithMeta, fresh]
  split_ifs
  · rfl
  · cases cache.tools.lookup (trimSpace name) with
    | none => rfl
    | some cached =>
      by_cases late : cache.ttl < now - cached.fetchedAt
      · simp only [late, if_true, Option.filter_some, not_true_eq_false, decide_false]
        rfl
      · simp only [late, if_false, Option.filter_some, not_false_eq_true, decide_true, if_true, Option.map_some]

def catalogued (tool : ToolDefinition) : Option CachedTool → CatalogEntry
  | some cached => catalogEntry cached.definition cached.serverId cached.serverName
  | none => catalogEntry tool "" ""

theorem catalogTool_mem {tool : ToolDefinition} (mem : entry ∈ (catalogTool looked state tool).1) :
    entry ∈ state.1 ∨ (entry = catalogued tool (state.2.fresh looked tool.name) ∧ entry.name ≠ "") := by
  simp only [catalogTool, ToolCache.getWithMeta_fst] at mem
  split_ifs at mem with own blank
  · exact .inl mem
  · exact .inl mem
  · simp only [List.mem_append, List.mem_singleton] at mem
    cases mem with
    | inl before => exact .inl before
    | inr added =>
      refine .inr ⟨?_, added ▸ blank⟩
      rw [added]
      cases state.2.fresh looked tool.name <;> rfl

theorem catalogTool_fresh (tool : ToolDefinition) (name : String) :
    (catalogTool looked state tool).2.fresh looked name = state.2.fresh looked name := by
  simp only [catalogTool]
  split_ifs
  · rfl
  all_goals
    rw [ToolCache.getWithMeta_snd]
    exact (state.2.get_kept tool.name looked).2.2 name

theorem foldl_catalogTool_mem {tools : List ToolDefinition} (mem : entry ∈ (tools.foldl (catalogTool looked) state).1) :
    entry ∈ state.1 ∨ ∃ tool ∈ tools, entry = catalogued tool (state.2.fresh looked tool.name) ∧ entry.name ≠ "" := by
  induction tools generalizing state with
  | nil => exact .inl mem
  | cons tool rest ih =>
    cases ih mem with
    | inl before =>
      cases catalogTool_mem before with
      | inl prior => exact .inl prior
      | inr added => exact .inr ⟨tool, by simp, added⟩
    | inr later =>
      obtain ⟨other, inside, same, named⟩ := later
      rw [catalogTool_fresh] at same
      exact .inr ⟨other, by simp [inside], same, named⟩

end

variable {name : String} {ttl : Int}

namespace ListingContext

variable {context : ListingContext} {prior : List ListingContext}

theorem exists_behind {looked : Time} {entry : CatalogEntry}
    (listed : entry ∈ (context.listCatalogTools (.after ttl prior) looked).1) : entry.name ≠ "" ∧
      ∃ past ∈ prior ++ [context], ∃ offer, past.Behind (ToolCache.new ttl).ttl looked offer entry := by
  have progress := listing_progress ttl prior context context.offers fun _ => id
  simp only [listCatalogTools, handleListTools_eq] at listed
  cases foldl_catalogTool_mem listed with
  | inl none => cases none
  | inr added =>
    obtain ⟨tool, mem, same, named⟩ := added
    obtain ⟨cached, fresh, rfl⟩ := progress.listed tool mem
    have lookup := ToolCache.lookup_of_fresh fresh
    obtain ⟨past, inside, offer, registered, definition, returned, _, rfl⟩ := progress.sourced _ _ lookup
    refine ⟨named, past, inside, offer, registered, definition, returned, ?_⟩
    have ttl' : (context.aggregated (.after ttl prior) context.offers).cache.ttl = (ToolCache.new ttl).ttl := by
      rw [aggregated_ttl, ToolCache.after_ttl]
    have visible : trimSpace (past.entry offer definition).name ≠ "" := by
      intro blank
      simp [ToolCache.fresh, blank] at fresh
    simp only [remembered]
    rw [same, ToolCache.fresh, if_neg visible, lookup, ttl', Option.filter_some]
    split_ifs with kept late late
    · simp [late] at kept
    · rfl
    · rfl
    · simp [late] at kept

end ListingContext

def Router.Carries (router : Router) (toolName hint id : String) : Prop :=
  ∃ server ∈ router.index.lookupTool toolName, trimSpace server.id = id ∧ (hint = "" ∨ Answers server hint)

theorem Router.callsBack_iff {router : Router} {entry : CatalogEntry} {resolved : Resolved}
    (reads : router.resolve entry.name = resolved) (toolName : String) : router.CallsBack entry toolName ↔
      resolved.toolName = toolName ∧ router.Carries toolName resolved.serverHint entry.serverId := by
  obtain ⟨tool, hint⟩ := resolved
  simp only [CallsBack, reads, mem_candidates, Carries]
  constructor
  · rintro ⟨rfl, server, ⟨mem, answers⟩, same⟩
    exact ⟨rfl, server, mem, same, answers⟩
  · rintro ⟨rfl, server, mem, same, answers⟩
    exact ⟨rfl, server, ⟨mem, answers⟩, same⟩

theorem cut_mcp (rest : String) : cut ("mcp." ++ rest) "." = some ("mcp", rest) := by
  have split : "mcp." ++ rest = "mcp" ++ "." ++ rest := by rw [show "mcp" ++ "." = "mcp." from by decide]
  rw [split]
  exact cut_dot rest (by decide)

theorem trimSpace_canonicalCatalogName (visible : trimSpace name ≠ "") :
    trimSpace (canonicalCatalogName name) = canonicalCatalogName name := by
  simp only [canonicalCatalogName]
  split_ifs
  · exact trimSpace_trimSpace name
  · refine trimSpace_append ?_ (trimSpace_trimSpace name) visible
    intro c first
    have head : ("mcp." ++ trimSpace name).toList.head? = some 'm' := by simp
    rw [head] at first
    cases first
    decide

theorem ListingContext.Behind.shape {past : ListingContext} {looked : Time} {offer : Offer} {entry : CatalogEntry}
    (behind : past.Behind ttl looked offer entry) : entry.name = canonicalCatalogName (past.nameOf offer) ∧
      entry.serverId = past.remembered ttl looked offer.server.id := by
  obtain ⟨_, definition, _, rfl⟩ := behind
  simp only [catalogEntry, ListingContext.entry, and_self]

def ListingContext.router (context : ListingContext) (strategy : RoutingStrategy) (limiter : Option LimiterBackend) :
    Router :=
  ⟨context.index, strategy, limiter, context.resolver⟩

-- Names as Register admits them, without dots, told apart, and no server goes by mcp.
structure PlainNames (index : CapabilityIndex) : Prop where
  valid : ∀ server, index.Holds server → matchesServiceName server.name = true
  undotted : ∀ server, index.Holds server → '.' ∉ server.name.toList
  apart : ∀ left right, index.Holds left → index.Holds right → left.id ≠ right.id →
    equalFold (displayName (trimSpace left.name)) (displayName (trimSpace right.name)) = false
  reserved : ∀ server, index.Holds server → ¬ Answers server "mcp"

section

variable {router : Router} {toolName shown : String} {entry : CatalogEntry}

theorem Router.not_callsBack (plain : router.resolver = none) (names : PlainNames router.index)
    (trimmed : trimSpace ("mcp." ++ toolName) = "mcp." ++ toolName) (name : entry.name = "mcp." ++ toolName) :
    ¬ router.CallsBack entry toolName := by
  intro calls
  have longer : "mcp." ++ toolName ≠ toolName := append_ne_self (by decide)
  by_cases registered : router.index.lookupTool ("mcp." ++ toolName) = []
  · have resolved := resolve_default plain trimmed registered (cut_mcp toolName)
    by_cases present : router.index.lookupTool toolName = []
    · obtain ⟨same, server, member, -⟩ := calls
      rw [show router.resolve entry.name = ⟨toolName, (router.resolve entry.name).serverHint⟩ from by rw [← same]]
        at member
      exact absurd present (List.ne_nil_of_mem ((router.mem_candidates _ _ _).mp member).1)
    · rw [if_pos ⟨by decide, present⟩, ← name] at resolved
      obtain ⟨-, server, member, -, answers⟩ := (callsBack_iff resolved _).mp calls
      exact names.reserved server (CapabilityIndex.holds_of_lookupTool member) (answers.resolve_left (by simp))
  · have resolved : router.resolve entry.name = ⟨"mcp." ++ toolName, ""⟩ := by
      simp [resolve, name, trimmed, resolveFederatedName, registered]
    exact longer ((callsBack_iff resolved _).mp calls).1

theorem Router.callsBack_legacy_iff (plain : router.resolver = none) (undotted : '.' ∉ shown.toList)
    (trimmed : trimSpace ("mcp." ++ (shown ++ "." ++ toolName)) = "mcp." ++ (shown ++ "." ++ toolName))
    (name : entry.name = "mcp." ++ (shown ++ "." ++ toolName)) : router.CallsBack entry toolName ↔
      router.index.lookupTool (shown ++ "." ++ toolName) = [] ∧
        router.index.lookupTool ("mcp." ++ (shown ++ "." ++ toolName)) = [] ∧
        router.Carries toolName shown entry.serverId := by
  have longer : "mcp." ++ (shown ++ "." ++ toolName) ≠ toolName := by
    simpa [String.append_assoc] using longer_name ("mcp." ++ shown) toolName
  by_cases registered : router.index.lookupTool ("mcp." ++ (shown ++ "." ++ toolName)) = []
  · have resolved := resolve_default plain trimmed registered (cut_mcp _)
    rw [← name] at resolved
    by_cases free : router.index.lookupTool (shown ++ "." ++ toolName) = []
    · rw [if_neg (by simp [free]), if_pos rfl, cut_dot toolName undotted] at resolved
      rw [callsBack_iff resolved]
      simp [registered, free]
    · rw [if_pos ⟨by decide, free⟩] at resolved
      rw [callsBack_iff resolved]
      simp [free]
  · have resolved : router.resolve entry.name = ⟨"mcp." ++ (shown ++ "." ++ toolName), ""⟩ := by
      simp [resolve, name, trimmed, resolveFederatedName, registered]
    rw [callsBack_iff resolved]
    simp [registered, longer]

end

theorem hasPrefix_mcp {shown : String} (undotted : '.' ∉ shown.toList) (reserved : shown ≠ "mcp") (toolName : String) :
    hasPrefix (shown ++ "." ++ toolName) "mcp." = false := by
  rw [Bool.eq_false_iff, ne_eq, hasPrefix_iff]
  rintro ⟨rest, same⟩
  have cutting := cut_dot toolName undotted
  rw [same, cut_mcp] at cutting
  cases cutting
  exact reserved rfl

theorem canonicalCatalogName_joined {shown toolName : String} (undotted : '.' ∉ shown.toList)
    (reserved : shown ≠ "mcp") (trimmed : trimSpace (shown ++ "." ++ toolName) = shown ++ "." ++ toolName) :
    canonicalCatalogName (shown ++ "." ++ toolName) = "mcp." ++ (shown ++ "." ++ toolName) := by
  simp [canonicalCatalogName, trimmed, hasPrefix_mcp undotted reserved]

namespace Sample

def selfPrefixed (toolName : String) : ListingContext where
  index := .rebuild [server "mcp-k8s" ⟨[toolName], [], []⟩]
  resolver := none
  listing _ := some [⟨toolName, "", "", "", "", false, ""⟩]
  now := 0

def registeredAs (toolName : String) : Offer := ⟨server "mcp-k8s" ⟨[toolName], [], []⟩, toolName⟩

def catalog (toolName : String) : List CatalogEntry :=
  ((selfPrefixed toolName).listCatalogTools (.after 0 []) 0).1

def shownAs (name : String) : CatalogEntry := ⟨⟨name, "", "", "", "", false, ""⟩, "mcp-k8s", "k8s"⟩

theorem plainNames (toolName : String) : PlainNames (selfPrefixed toolName).index := by
  have only (record : ServerRecord) (held : (selfPrefixed toolName).index.Holds record) :
      record = server "mcp-k8s" ⟨[toolName], [], []⟩ := by
    have reflects := CapabilityIndex.rebuild_reflects [server "mcp-k8s" ⟨[toolName], [], []⟩] (by simp)
    simpa using (reflects.of_holds held).1
  constructor
  case valid =>
    intro record held
    rw [only record held]
    exact (by decide +kernel : matchesServiceName "mcp-k8s" = true)
  case undotted =>
    intro record held
    rw [only record held]
    exact (by decide +kernel : '.' ∉ "mcp-k8s".toList)
  case apart =>
    intro left right held also different
    rw [only left held, only right also] at different
    exact absurd rfl different
  case reserved =>
    intro record held
    rw [only record held]
    have other : ¬ matchesServerHint "mcp-k8s" "mcp" = true := by decide +kernel
    exact fun answers => answers.elim other other

end Sample

open Sample

end McpGateway.Proxy
