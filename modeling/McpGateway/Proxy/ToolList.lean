import McpGateway.Proxy.Naming

namespace McpGateway.Proxy

open Shared Registration

-- `title` is that of the annotations; the schemas and the rest of the annotations, icons, execution and meta are kept
-- as the JSON they came in.
structure ToolDefinition where
  name : String
  description : String
  title : String
  inputSchema : String
  outputSchema : String
  deferLoading : Bool
  attributes : String
  deriving DecidableEq

structure CachedTool where
  definition : ToolDefinition
  fetchedAt : Time
  serverId : String
  serverName : String
  deriving DecidableEq

structure ToolCache where
  tools : GoMap String CachedTool
  ttl : Int

namespace ToolCache

def defaultToolCacheTTL : Int := 30 * second

def new (ttl : Int) : ToolCache :=
  ⟨∅, if ttl ≤ 0 then defaultToolCacheTTL else ttl⟩

def get (cache : ToolCache) (name : String) (now : Time) : Option ToolDefinition × ToolCache :=
  if trimSpace name = "" then (none, cache)
  else
    match cache.tools.lookup (trimSpace name) with
    | none => (none, cache)
    | some entry =>
      if cache.ttl < now - entry.fetchedAt then (none, { cache with tools := cache.tools.erase (trimSpace name) })
      else (some entry.definition, cache)

def set (cache : ToolCache) (name : String) (definition : ToolDefinition) (serverId serverName : String) (now : Time) :
    ToolCache :=
  if trimSpace name = "" then cache
  else { cache with
    tools := cache.tools.insert (trimSpace name) ⟨definition, now, trimSpace serverId, trimSpace serverName⟩ }

def invalidate (cache : ToolCache) : ToolCache :=
  { cache with tools := ∅ }

def invalidateServer (cache : ToolCache) (serverId : String) : ToolCache :=
  if trimSpace serverId = "" then cache
  else { cache with
    tools := cache.tools.filterMapValues fun entry => if entry.serverId = trimSpace serverId then none else some entry }

end ToolCache

abbrev BackendListing := String → Option (List ToolDefinition)

def BackendListing.definition (listing : BackendListing) (server : ServerRecord) (toolName : String) :
    Option ToolDefinition :=
  -- A later definition of a name replaces an earlier one.
  (((listing server.id).getD []).filter fun definition =>
    trimSpace definition.name ≠ "" ∧ trimSpace definition.name = toolName).getLast?

def listedName (index : CapabilityIndex) (resolver : Option NamespaceResolver) (server : ServerRecord)
    (toolName : String) : String :=
  match resolver with
  | some resolver =>
    if resolver.mode = .reject then federatedToolName server toolName
    else resolver.applyNamespace index toolName (serverLabel server)
  | none => federatedToolName server toolName

structure ToolAggregator where
  cache : ToolCache
  result : List ToolDefinition
  seen : List String

structure ListingContext where
  index : CapabilityIndex
  resolver : Option NamespaceResolver
  listing : BackendListing
  now : Time

def ListingContext.resolveFromBackend (context : ListingContext) (agg : ToolAggregator) (server : ServerRecord)
    (toolName federatedName : String) : ToolAggregator :=
  match context.listing.definition server toolName with
  | none => agg
  | some definition =>
    { cache := agg.cache.set federatedName { definition with name := federatedName } server.id server.name
        context.now
      result := agg.result ++ [{ definition with name := federatedName }]
      seen := federatedName :: agg.seen }

def ListingContext.aggregateCandidate (context : ListingContext) (toolName : String) (agg : ToolAggregator)
    (server : ServerRecord) : ToolAggregator :=
  let federatedName := listedName context.index context.resolver server toolName
  if federatedName = "" ∨ federatedName ∈ agg.seen then agg
  else
    match agg.cache.get federatedName context.now with
    | (some cached, cache) => ⟨cache, agg.result ++ [cached], federatedName :: agg.seen⟩
    | (none, cache) =>
      context.resolveFromBackend { agg with cache := cache } server toolName federatedName

def ListingContext.aggregateTool (context : ListingContext) (agg : ToolAggregator) (toolName : String) :
    ToolAggregator :=
  if trimSpace toolName = "" then agg
  else (context.index.lookupTool (trimSpace toolName)).foldl (context.aggregateCandidate (trimSpace toolName)) agg

def ListingContext.handleListTools (context : ListingContext) (cache : ToolCache) : List ToolDefinition × ToolCache :=
  let agg := context.index.listTools.foldl context.aggregateTool ⟨cache, [], []⟩
  (agg.result, agg.cache)

end McpGateway.Proxy
