import McpGateway.Proxy.ToolList
import McpGateway.Shared.Float64

namespace McpGateway.Proxy

open Shared

structure ToolMetadata where
  toolName : String
  category : String
  summary : String
  tags : List String
  priority : Int
  deriving DecidableEq

structure DiscoveryEntry where
  definition : ToolDefinition
  nameLower : String
  descLower : String
  titleLower : String
  category : String
  summary : String
  tagsLower : List String
  priority : Int

abbrev SearchEngine := String → Option (List (String × Rat))

structure DiscoveryIndex where
  entries : GoMap String DiscoveryEntry
  metadata : List ToolMetadata
  engine : Option SearchEngine

-- mcp.<server>.<tool> or <displayName>.<tool>.
def categoryFromFederatedName (name : String) : String :=
  match cut (trimPrefix name "mcp.") "." with
  | some (category, _) => category
  | none => ""

def maxSummaryLen : Nat := 100

-- The first `size` bytes; each byte that a cut leaves of a rune is sent as U+FFFD.
def cutBytes : Nat → List Char → List Char
  | _, [] => []
  | size, c :: rest =>
    if c.utf8Size ≤ size then c :: cutBytes (size - c.utf8Size) rest else List.replicate size '\uFFFD'

def shortenSummary (description : String) : String :=
  if description.utf8ByteSize ≤ maxSummaryLen then description
  else String.ofList (cutBytes (maxSummaryLen - 3) description.toList) ++ "..."

def extractSummary (description : String) : String :=
  match cut description ". " with
  | some (sentence, _) =>
    if (sentence ++ ".").utf8ByteSize ≤ maxSummaryLen then sentence ++ "." else shortenSummary description
  | none => shortenSummary description

def DiscoveryEntry.new (tool : ToolDefinition) : DiscoveryEntry where
  definition := tool
  nameLower := toLower tool.name
  descLower := toLower tool.description
  titleLower := toLower tool.title
  category := categoryFromFederatedName tool.name
  summary := extractSummary tool.description
  tagsLower := []
  priority := 0

def DiscoveryEntry.enrich (entry : DiscoveryEntry) (metadata : ToolMetadata) : DiscoveryEntry :=
  { entry with
    category := if metadata.category = "" then entry.category else metadata.category
    summary := if metadata.summary = "" then entry.summary else metadata.summary
    descLower := if metadata.summary = "" then entry.descLower else toLower metadata.summary
    tagsLower := if metadata.tags = [] then entry.tagsLower else metadata.tags.map toLower
    priority := if metadata.priority = 0 then entry.priority else metadata.priority }

def DiscoveryEntry.score (entry : DiscoveryEntry) (query : String) : Int :=
  (if entry.nameLower = query then 10 else if contains entry.nameLower query then 5 else 0) +
    (if contains entry.titleLower query then 3 else 0) +
    (if contains entry.descLower query then 1 else 0) +
    2 * (entry.tagsLower.filter (contains · query)).length

def clampLimit (limit : Int) : Nat :=
  if limit ≤ 0 then 10 else if 50 < limit then 50 else limit.toNat

namespace DiscoveryIndex

def new : DiscoveryIndex := ⟨∅, [], none⟩

def applyOne (entries : GoMap String DiscoveryEntry) (metadata : ToolMetadata) : GoMap String DiscoveryEntry :=
  match entries.lookup metadata.toolName with
  | none => entries
  | some entry => entries.insert metadata.toolName (entry.enrich metadata)

def rebuild (index : DiscoveryIndex) (tools : List ToolDefinition) : DiscoveryIndex :=
  { index with
    entries := index.metadata.foldl applyOne (tools.foldl (fun entries tool => entries.insert tool.name (.new tool)) ∅) }

def applyMetadata (index : DiscoveryIndex) (metadata : List ToolMetadata) : DiscoveryIndex :=
  { index with metadata := metadata, entries := metadata.foldl applyOne index.entries }

def toolNames (index : DiscoveryIndex) : List String :=
  index.entries.entries.map fun entry => entry.2.definition.name

def inCategory (category : String) (entry : DiscoveryEntry) : Bool :=
  category = "" || toLower entry.category = category

-- `order` is the order in which the entry map is ranged over, which Go leaves open.
def scoredSubstring (index : DiscoveryIndex) (order : List String) (query category : String) :
    List (DiscoveryEntry × Rat) :=
  (order.filterMap fun key => index.entries.lookup key).filterMap fun entry =>
    if inCategory category entry ∧ 0 < entry.score query then
      some (entry, roundFloat64 (entry.score query + roundFloat64 entry.priority))
    else none

def scoredEngine (index : DiscoveryIndex) (results : List (String × Rat)) (category : String) :
    List (DiscoveryEntry × Rat) :=
  results.filterMap fun (key, score) =>
    (index.entries.lookup key).bind fun entry =>
      if inCategory category entry then some (entry, roundFloat64 (score + roundFloat64 entry.priority)) else none

def scored (index : DiscoveryIndex) (order : List String) (query category : String) : List (DiscoveryEntry × Rat) :=
  match index.engine with
  | none => index.scoredSubstring order query category
  | some engine =>
    match engine query with
    | none => index.scoredSubstring order query category
    | some results => index.scoredEngine results category

def ranksBefore (left right : DiscoveryEntry × Rat) : Prop :=
  right.2 < left.2 ∨ (left.2 = right.2 ∧ left.1.nameLower.toList ≤ right.1.nameLower.toList)

instance : DecidableRel ranksBefore := fun _ _ => inferInstanceAs (Decidable (_ ∨ _))

def search (index : DiscoveryIndex) (order : List String) (query category : String) (offset limit : Int) : List String :=
  if trimSpace query = "" then []
  else
    let ranked :=
      (index.scored order (toLower (trimSpace query)) (toLower (trimSpace category))).insertionSort ranksBefore
    ((ranked.drop offset.toNat).take (clampLimit limit)).map fun found => found.1.definition.name

variable {index : DiscoveryIndex} {order : List String} {query category name : String}

theorem mem_scored {found : DiscoveryEntry × Rat} (mem : found ∈ index.scored order query category) :
    ∃ key, index.entries.lookup key = some found.1 := by
  have substring (hit : found ∈ index.scoredSubstring order query category) :
      ∃ key, index.entries.lookup key = some found.1 := by
    obtain ⟨entry, listed, picked⟩ := List.mem_filterMap.mp hit
    obtain ⟨key, _, held⟩ := List.mem_filterMap.mp listed
    split_ifs at picked
    cases picked
    exact ⟨key, held⟩
  unfold scored at mem
  split at mem
  · exact substring mem
  · split at mem
    · exact substring mem
    · obtain ⟨result, _, picked⟩ := List.mem_filterMap.mp mem
      obtain ⟨entry, held, kept⟩ := Option.bind_eq_some_iff.mp picked
      split_ifs at kept
      cases kept
      exact ⟨_, held⟩

theorem mem_search {offset limit : Int} (found : name ∈ index.search order query category offset limit) :
    name ∈ index.toolNames := by
  unfold search at found
  split_ifs at found
  · cases found
  · obtain ⟨hit, page, rfl⟩ := List.mem_map.mp found
    have ranked := List.mem_of_mem_drop (List.mem_of_mem_take page)
    obtain ⟨key, held⟩ := mem_scored ((List.mem_insertionSort _).mp ranked)
    exact List.mem_map.mpr ⟨⟨key, hit.1⟩, AList.mem_lookup_iff.mp held, rfl⟩

end DiscoveryIndex

end McpGateway.Proxy
