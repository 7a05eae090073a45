import McpGateway.Proxy.Endpoints
import McpGateway.Proxy.ToolList

namespace McpGateway.Proxy

open Shared Registration

structure Offer where
  server : ServerRecord
  toolName : String
  deriving DecidableEq

variable {definition : ToolDefinition} {cached : CachedTool} {listings : List ListingContext}

namespace ToolCache

def fresh (cache : ToolCache) (now : Time) (name : String) : Option CachedTool :=
  if trimSpace name = "" then none
  else (cache.tools.lookup (trimSpace name)).filter fun cached => ¬ cache.ttl < now - cached.fetchedAt

def All (cache : ToolCache) (holds : String → CachedTool → Prop) : Prop :=
  ∀ key cached, cache.tools.lookup key = some cached → holds key cached

variable {cache : ToolCache} {now : Time} {name : String} {holds : String → CachedTool → Prop}

theorem get_fst (cache : ToolCache) (name : String) (now : Time) :
    (cache.get name now).1 = (cache.fresh now name).map CachedTool.definition := by
  by_cases blank : trimSpace name = ""
  · simp [get, fresh, blank]
  · cases found : cache.tools.lookup (trimSpace name) with
    | none => simp [get, fresh, blank, found]
    | some cached =>
      by_cases late : cache.ttl < now - cached.fetchedAt
      · simp only [get, fresh, blank, found, late, if_true, if_false, not_true_eq_false, decide_false,
          Option.filter_some]
        rfl
      · simp only [get, fresh, blank, found, late, if_true, if_false, not_false_eq_true, decide_true, Option.map_some,
          Option.filter_some]

theorem get_eq {found : Option CachedTool} (cache : ToolCache) (fresh : cache.fresh now name = found) :
    cache.get name now = (found.map CachedTool.definition, (cache.get name now).2) := by
  rw [← fresh, ← cache.get_fst name now]

theorem get_kept (cache : ToolCache) (name : String) (now : Time) : (cache.get name now).2.ttl = cache.ttl ∧
      (∀ key cached, (cache.get name now).2.tools.lookup key = some cached → cache.tools.lookup key = some cached) ∧
      ∀ other, (cache.get name now).2.fresh now other = cache.fresh now other := by
  by_cases blank : trimSpace name = ""
  · simp [get, blank]
  · cases found : cache.tools.lookup (trimSpace name) with
    | none => simp [get, blank, found]
    | some cached =>
      by_cases late : cache.ttl < now - cached.fetchedAt
      · have dropped : (cache.get name now).2 = { cache with tools := cache.tools.erase (trimSpace name) } := by
          simp [get, blank, found, late]
        rw [dropped]
        constructor
        · rfl
        constructor
        · intro key other present
          simp only [GoMap.lookup_erase_eq] at present
          split_ifs at present
          exact present
        · intro other
          simp only [fresh, GoMap.lookup_erase_eq]
          by_cases same : trimSpace other = trimSpace name
          · rw [same, found, Option.filter_some]
            simp only [late, not_true_eq_false, decide_false, if_true, Option.filter_none]
            rfl
          · simp [same]
      · simp [get, blank, found, late]

theorem All.get (all : cache.All holds) (name : String) (now : Time) : (cache.get name now).2.All holds :=
  fun key cached found => all key cached ((cache.get_kept name now).2.1 key cached found)

theorem All.set (all : cache.All holds) {serverId serverName : String}
    (added : trimSpace name ≠ "" → holds (trimSpace name) ⟨definition, now, trimSpace serverId, trimSpace serverName⟩) :
    (cache.set name definition serverId serverName now).All holds := by
  by_cases blank : trimSpace name = ""
  · simpa [ToolCache.set, blank] using all
  · intro key cached found
    simp only [ToolCache.set, blank, if_false, GoMap.lookup_insert_eq] at found
    split_ifs at found with same
    · cases found
      simpa [same] using added blank
    · exact all key cached found

theorem set_ttl (cache : ToolCache) (name : String) (definition : ToolDefinition) (serverId serverName : String)
    (now : Time) : (cache.set name definition serverId serverName now).ttl = cache.ttl := by
  simp only [ToolCache.set]
  split_ifs <;> rfl

theorem fresh_set (cache : ToolCache) (lasting : 0 ≤ cache.ttl) (visible : trimSpace name ≠ "")
    (definition : ToolDefinition) (serverId serverName : String) (other : String) :
    (cache.set name definition serverId serverName now).fresh now other =
      if trimSpace other = trimSpace name then some ⟨definition, now, trimSpace serverId, trimSpace serverName⟩
      else cache.fresh now other := by
  by_cases same : trimSpace other = trimSpace name
  · simp only [ToolCache.set, fresh, visible, if_false, GoMap.lookup_insert_eq, same, if_true]
    simp [lasting]
  · simp [ToolCache.set, fresh, visible, same]

theorem lookup_of_fresh {cache : ToolCache} {name : String} {now : Time} (fresh : cache.fresh now name = some cached) :
    cache.tools.lookup (trimSpace name) = some cached := by
  simp only [ToolCache.fresh] at fresh
  split_ifs at fresh
  exact (Option.filter_eq_some_iff.mp fresh).1

theorem fresh_congr (cache : ToolCache) (now : Time) {name other : String} (same : trimSpace name = trimSpace other) :
    cache.fresh now name = cache.fresh now other := by
  rw [ToolCache.fresh, ToolCache.fresh, same]

end ToolCache

theorem NamespaceResolver.applyNamespace_cases (resolver : NamespaceResolver) (index : CapabilityIndex)
    (toolName serverName : String) : resolver.applyNamespace index toolName serverName = trimSpace toolName ∨
      resolver.applyNamespace index toolName serverName =
        displayName (trimSpace serverName) ++ resolver.separator ++ trimSpace toolName := by
  simp only [applyNamespace]
  by_cases blank : trimSpace toolName = "" ∨ trimSpace serverName = ""
  · simp [blank]
  · cases resolver.mode with
    | always => simp [blank]
    | reject => simp [blank]
    | onConflict => by_cases conflict : isConflict index (trimSpace toolName) <;> simp [blank, conflict]

namespace ListingContext

def offers (context : ListingContext) : List Offer :=
  ((context.index.listTools.map trimSpace).filter (· ≠ "")).flatMap fun toolName =>
    (context.index.lookupTool toolName).map fun server => ⟨server, toolName⟩

def nameOf (context : ListingContext) (offer : Offer) : String :=
  listedName context.index context.resolver offer.server offer.toolName

def defined (context : ListingContext) (offer : Offer) : Option ToolDefinition :=
  context.listing.definition offer.server offer.toolName

def entry (context : ListingContext) (offer : Offer) (definition : ToolDefinition) : ToolDefinition :=
  { definition with name := context.nameOf offer }

def aggregate (context : ListingContext) (agg : ToolAggregator) (offer : Offer) : ToolAggregator :=
  context.aggregateCandidate offer.toolName agg offer.server

def aggregated (context : ListingContext) (cache : ToolCache) (offers : List Offer) : ToolAggregator :=
  offers.foldl context.aggregate ⟨cache, [], []⟩

def Lists (context : ListingContext) (cache : ToolCache) (offer : Offer) (definition : ToolDefinition) : Prop :=
  ∃ before after, context.offers = before ++ offer :: after ∧
    (context.aggregate (context.aggregated cache before) offer).result =
      (context.aggregated cache before).result ++ [definition]

theorem mem_offers (context : ListingContext) (offer : Offer) : offer ∈ context.offers ↔
      trimSpace offer.toolName = offer.toolName ∧ offer.server ∈ context.index.lookupTool offer.toolName := by
  obtain ⟨server, toolName⟩ := offer
  simp only [offers, List.mem_flatMap, List.mem_map, List.mem_filter, decide_eq_true_eq, Offer.mk.injEq]
  constructor
  · intro listed
    obtain ⟨key, ⟨⟨raw, _, rfl⟩, _⟩, _, found, rfl, rfl⟩ := listed
    exact ⟨trimSpace_trimSpace raw, found⟩
  · intro registered
    obtain ⟨trimmed, found⟩ := registered
    have visible : toolName ≠ "" := by
      intro blank
      simp [CapabilityIndex.lookupTool, blank] at found
    have key : toolName ∈ context.index.listTools := by
      simp only [CapabilityIndex.listTools, List.mem_insertionSort, Postings.mem_keys]
      intro empty
      simp [CapabilityIndex.lookupTool, trimmed, visible, empty] at found
    exact ⟨toolName, ⟨⟨toolName, key, trimmed⟩, visible⟩, server, found, rfl, rfl⟩

theorem foldl_aggregateTool (context : ListingContext) (toolNames : List String) (agg : ToolAggregator) :
    toolNames.foldl context.aggregateTool agg =
      (((toolNames.map trimSpace).filter (· ≠ "")).flatMap fun toolName =>
        (context.index.lookupTool toolName).map fun server => (⟨server, toolName⟩ : Offer)).foldl
          context.aggregate agg := by
  induction toolNames generalizing agg with
  | nil => rfl
  | cons toolName rest ih =>
    by_cases blank : trimSpace toolName = ""
    · simp [aggregateTool, blank, ih]
    · simp [aggregateTool, blank, ih, List.foldl_map, aggregate]

theorem handleListTools_eq (context : ListingContext) (cache : ToolCache) : context.handleListTools cache =
      ((context.aggregated cache context.offers).result, (context.aggregated cache context.offers).cache) := by
  simp [handleListTools, foldl_aggregateTool, aggregated, offers]

variable {context : ListingContext} {agg : ToolAggregator} {offer : Offer}

-- An offer adds at most one entry: what the cache still has under its name, or else what its server returned.
inductive Aggregated (context : ListingContext) (agg : ToolAggregator) (offer : Offer) :
    ToolAggregator → Prop where
  | skipped (reason : context.nameOf offer = "" ∨ context.nameOf offer ∈ agg.seen) :
      Aggregated context agg offer agg
  | cached (found : CachedTool) (named : context.nameOf offer ≠ "")
      (fresh : agg.cache.fresh context.now (context.nameOf offer) = some found) :
      Aggregated context agg offer ⟨(agg.cache.get (context.nameOf offer) context.now).2,
        agg.result ++ [found.definition], context.nameOf offer :: agg.seen⟩
  | unresolved (fresh : agg.cache.fresh context.now (context.nameOf offer) = none)
      (undefined : context.defined offer = none) :
      Aggregated context agg offer
        { agg with cache := (agg.cache.get (context.nameOf offer) context.now).2 }
  | fetched (definition : ToolDefinition) (named : context.nameOf offer ≠ "")
      (fresh : agg.cache.fresh context.now (context.nameOf offer) = none)
      (returned : context.defined offer = some definition) :
      Aggregated context agg offer
        ⟨(agg.cache.get (context.nameOf offer) context.now).2.set (context.nameOf offer)
            (context.entry offer definition) offer.server.id offer.server.name context.now,
          agg.result ++ [context.entry offer definition], context.nameOf offer :: agg.seen⟩

theorem aggregate_cases (context : ListingContext) (agg : ToolAggregator) (offer : Offer) :
    Aggregated context agg offer (context.aggregate agg offer) := by
  by_cases skip : context.nameOf offer = "" ∨ context.nameOf offer ∈ agg.seen
  · have same : context.aggregate agg offer = agg := by
      simp only [nameOf] at skip
      simp only [aggregate, aggregateCandidate, skip, if_true]
    rw [same]
    exact .skipped skip
  have named : context.nameOf offer ≠ "" := fun blank => skip (.inl blank)
  cases found : agg.cache.fresh context.now (context.nameOf offer) with
  | some cached =>
    have got := agg.cache.get_eq found
    have shape : context.aggregate agg offer =
        ⟨(agg.cache.get (context.nameOf offer) context.now).2, agg.result ++ [cached.definition],
          context.nameOf offer :: agg.seen⟩ := by
      simp only [nameOf] at skip got ⊢
      rw [aggregate, aggregateCandidate, if_neg skip, got]
      rfl
    rw [shape]
    exact .cached cached named found
  | none =>
    have got := agg.cache.get_eq found
    have shape : context.aggregate agg offer =
        context.resolveFromBackend
          { agg with cache := (agg.cache.get (context.nameOf offer) context.now).2 } offer.server
          offer.toolName (context.nameOf offer) := by
      simp only [nameOf] at skip got ⊢
      rw [aggregate, aggregateCandidate, if_neg skip, got]
      rfl
    rw [shape, resolveFromBackend]
    cases returned : context.listing.definition offer.server offer.toolName with
    | none => exact .unresolved found returned
    | some definition => exact .fetched definition named found returned

theorem nameOf_visible (registered : offer ∈ context.offers) (named : context.nameOf offer ≠ "") :
    trimSpace (context.nameOf offer) ≠ "" := by
  obtain ⟨trimmed, found⟩ := (context.mem_offers offer).mp registered
  have visible : trimSpace offer.toolName ≠ "" := by
    intro blank
    simp [CapabilityIndex.lookupTool, blank] at found
  have ends : ∃ start, context.nameOf offer = start ++ trimSpace offer.toolName := by
    have whole : ∃ start, trimSpace offer.toolName = start ++ trimSpace offer.toolName := ⟨"", by simp⟩
    have federated (unnamed : federatedToolName offer.server offer.toolName ≠ "") :
        ∃ start, federatedToolName offer.server offer.toolName = start ++ trimSpace offer.toolName := by
      simp only [federatedToolName] at unnamed ⊢
      split_ifs at unnamed ⊢
      · exact absurd rfl unnamed
      · exact whole
      · exact ⟨_, rfl⟩
    simp only [nameOf, listedName] at named ⊢
    cases resolver : context.resolver with
    | none => simpa [resolver] using federated (by simpa [resolver] using named)
    | some resolver' =>
      simp only [resolver] at named ⊢
      split_ifs at named ⊢ with rejecting
      · exact federated named
      · cases resolver'.applyNamespace_cases context.index offer.toolName (serverLabel offer.server) with
        | inl plain => exact ⟨"", by simp [plain]⟩
        | inr joined => exact ⟨_, joined⟩
  obtain ⟨start, same⟩ := ends
  intro blank
  rw [same, trimSpace_eq_empty_iff] at blank
  have within : trimSpace (trimSpace offer.toolName) = "" := by
    rw [trimSpace_eq_empty_iff]
    intro c member
    exact blank c (by simp [member])
  exact visible (by simpa using within)

def Shown (context : ListingContext) (agg : ToolAggregator) (name : String) : Prop :=
  ∃ cached, agg.cache.fresh context.now name = some cached ∧ cached.definition ∈ agg.result

def Sourced (listings : List ListingContext) (key : String) (cached : CachedTool) : Prop :=
  ∃ past ∈ listings, ∃ offer ∈ past.offers, ∃ definition, past.defined offer = some definition ∧
    trimSpace (past.nameOf offer) = key ∧
    cached = ⟨past.entry offer definition, past.now, trimSpace offer.server.id, trimSpace offer.server.name⟩

structure Progress (listings : List ListingContext) (context : ListingContext) (done : List Offer)
    (agg : ToolAggregator) : Prop where
  lasting : 0 ≤ agg.cache.ttl
  sourced : agg.cache.All (Sourced listings)
  listed : ∀ tool ∈ agg.result, ∃ cached, agg.cache.fresh context.now tool.name = some cached ∧ cached.definition = tool
  seen : ∀ name ∈ agg.seen, context.Shown agg name
  complete : ∀ offer ∈ done, context.nameOf offer ≠ "" → context.defined offer ≠ none →
    context.Shown agg (context.nameOf offer)

namespace Aggregated

variable {next : ToolAggregator}

theorem ttl (step : Aggregated context agg offer next) : next.cache.ttl = agg.cache.ttl := by
  have kept := (agg.cache.get_kept (context.nameOf offer) context.now).1
  cases step with
  | skipped => rfl
  | cached => simpa only using kept
  | unresolved => simpa only using kept
  | fetched => simp only [ToolCache.set_ttl, kept]

section

variable (step : Aggregated context agg offer next)

include step

theorem mem_seen {name : String} (seen : name ∈ next.seen) :
    name = context.nameOf offer ∨ name ∈ agg.seen := by
  cases step with
  | skipped => exact .inr seen
  | unresolved => exact .inr seen
  | cached => simpa using seen
  | fetched => simpa using seen

theorem fresh_kept (lasting : 0 ≤ agg.cache.ttl) (registered : offer ∈ context.offers) {name : String}
    (fresh : agg.cache.fresh context.now name = some cached) :
    next.cache.fresh context.now name = some cached := by
  obtain ⟨ttl, _, kept⟩ := agg.cache.get_kept (context.nameOf offer) context.now
  cases step with
  | skipped => exact fresh
  | cached => simp only [kept, fresh]
  | unresolved => simp only [kept, fresh]
  | fetched definition named missing =>
    have other : trimSpace name ≠ trimSpace (context.nameOf offer) := by
      intro same
      simp only [ToolCache.fresh] at fresh missing
      rw [same, missing] at fresh
      cases fresh
    rw [ToolCache.fresh_set _ (by omega) (nameOf_visible registered named), if_neg other, kept, fresh]

theorem result_kept (listed : definition ∈ agg.result) :
    definition ∈ next.result := by
  cases step with
  | skipped => exact listed
  | unresolved => exact listed
  | cached => simp [listed]
  | fetched => simp [listed]

theorem keeps (lasting : 0 ≤ agg.cache.ttl) (registered : offer ∈ context.offers) {name : String}
    (shown : context.Shown agg name) :
    context.Shown next name := by
  obtain ⟨cached, fresh, member⟩ := shown
  exact ⟨cached, step.fresh_kept lasting registered fresh, step.result_kept member⟩

omit step in
theorem all {holds : String → CachedTool → Prop} (step : Aggregated context agg offer next)
    (all : agg.cache.All holds)
    (added : ∀ definition, context.defined offer = some definition → holds (trimSpace (context.nameOf offer))
      ⟨context.entry offer definition, context.now, trimSpace offer.server.id, trimSpace offer.server.name⟩) :
    next.cache.All holds := by
  have kept := all.get (context.nameOf offer) context.now
  cases step with
  | skipped => exact all
  | cached => simpa only using kept
  | unresolved => simpa only using kept
  | fetched definition _ _ returned =>
    simp only
    exact kept.set fun _ => added definition returned

theorem shows (lasting : 0 ≤ agg.cache.ttl) (registered : offer ∈ context.offers)
    (seen : ∀ name ∈ agg.seen, context.Shown agg name)
    (added : context.nameOf offer ∈ next.seen ∨ context.nameOf offer ≠ "" ∧ context.defined offer ≠ none) :
    context.Shown next (context.nameOf offer) := by
  have before (prior : context.nameOf offer ∈ agg.seen) :=
    step.keeps lasting registered (seen _ prior)
  obtain ⟨ttl, _, kept⟩ := agg.cache.get_kept (context.nameOf offer) context.now
  cases step with
  | skipped reason =>
    cases reason with
    | inl unnamed => exact before (added.elim id fun ⟨named, _⟩ => absurd unnamed named)
    | inr prior => exact before prior
  | cached found _ fresh => exact ⟨found, by rw [kept, fresh], by simp⟩
  | unresolved _ undefined => exact before (added.elim id fun ⟨_, defined⟩ => absurd undefined defined)
  | fetched definition named =>
    refine ⟨⟨context.entry offer definition, context.now, trimSpace offer.server.id, trimSpace offer.server.name⟩,
      ?_, by simp⟩
    rw [ToolCache.fresh_set _ (by omega) (nameOf_visible registered named), if_pos rfl]

end

theorem lists (step : Aggregated context agg offer next) (lasting : 0 ≤ agg.cache.ttl) (registered : offer ∈ context.offers)
    (sourced : agg.cache.All (Sourced listings))
    (listed : ∀ tool ∈ agg.result, ∃ cached, agg.cache.fresh context.now tool.name = some cached ∧ cached.definition = tool)
    {tool : ToolDefinition} (inside : tool ∈ next.result) :
    ∃ cached, next.cache.fresh context.now tool.name = some cached ∧ cached.definition = tool := by
  have before (prior : tool ∈ agg.result) :
      ∃ cached, next.cache.fresh context.now tool.name = some cached ∧ cached.definition = tool := by
    obtain ⟨cached, fresh, same⟩ := listed tool prior
    exact ⟨cached, step.fresh_kept lasting registered fresh, same⟩
  obtain ⟨ttl, _, kept⟩ := agg.cache.get_kept (context.nameOf offer) context.now
  cases step with
  | skipped => exact before inside
  | unresolved => exact before inside
  | cached found named fresh =>
    obtain prior | rfl : tool ∈ agg.result ∨ tool = found.definition := by simpa using inside
    · exact before prior
    · -- what the cache has under a key is named by it
      obtain ⟨past, _, origin, _, definition, _, key, same⟩ := sourced _ _ (ToolCache.lookup_of_fresh fresh)
      have name : trimSpace found.definition.name = trimSpace (context.nameOf offer) := by
        rw [same, ← key]
        rfl
      exact ⟨found, by rw [ToolCache.fresh_congr _ _ name, kept, fresh], rfl⟩
  | fetched definition named =>
    obtain prior | rfl : tool ∈ agg.result ∨ tool = context.entry offer definition := by simpa using inside
    · exact before prior
    · refine ⟨⟨context.entry offer definition, context.now, trimSpace offer.server.id, trimSpace offer.server.name⟩,
        ?_, rfl⟩
      have name : (context.entry offer definition).name = context.nameOf offer := rfl
      rw [name, ToolCache.fresh_set _ (by omega) (nameOf_visible registered named), if_pos rfl]

theorem progress {done : List Offer} (step : Aggregated context agg offer next) (listed : context ∈ listings)
    (registered : offer ∈ context.offers) (progress : Progress listings context done agg) :
    Progress listings context (done ++ [offer]) next where
  lasting := by
    rw [step.ttl]
    exact progress.lasting
  sourced := step.all progress.sourced fun definition returned =>
    ⟨context, listed, offer, registered, definition, returned, rfl, rfl⟩
  listed _ := step.lists progress.lasting registered progress.sourced progress.listed
  seen name member := by
    cases step.mem_seen member with
    | inl same =>
      subst same
      exact step.shows progress.lasting registered progress.seen (.inl member)
    | inr before => exact step.keeps progress.lasting registered (progress.seen name before)
  complete other member named defined := by
    simp only [List.mem_append, List.mem_singleton] at member
    cases member with
    | inl before => exact step.keeps progress.lasting registered (progress.complete other before named defined)
    | inr same =>
      subst same
      exact step.shows progress.lasting registered progress.seen (.inr ⟨named, defined⟩)

end Aggregated

theorem aggregated_append (context : ListingContext) (cache : ToolCache) (done : List Offer) (offer : Offer) :
    context.aggregated cache (done ++ [offer]) = context.aggregate (context.aggregated cache done) offer := by
  simp only [aggregated, List.foldl_append, List.foldl_cons, List.foldl_nil]

theorem aggregated_progress (listed : context ∈ listings) {cache : ToolCache} (lasting : 0 ≤ cache.ttl)
    (sourced : cache.All (Sourced listings)) (offers : List Offer)
    (registered : ∀ offer ∈ offers, offer ∈ context.offers) :
    Progress listings context offers (context.aggregated cache offers) := by
  induction offers using List.reverseRecOn with
  | nil => exact ⟨lasting, sourced, by simp [aggregated], by simp [aggregated], by simp⟩
  | append_singleton done offer ih =>
    have progress := ih fun prior member => registered prior (by simp [member])
    rw [aggregated_append]
    exact (context.aggregate_cases _ offer).progress listed (registered offer (by simp)) progress

theorem aggregated_ttl (context : ListingContext) (cache : ToolCache) (offers : List Offer) :
    (context.aggregated cache offers).cache.ttl = cache.ttl := by
  induction offers using List.reverseRecOn with
  | nil => rfl
  | append_singleton done offer ih =>
    rw [aggregated_append]
    exact (context.aggregate_cases _ offer).ttl.trans ih

end ListingContext

open ListingContext

def ToolCache.after (ttl : Int) (listings : List ListingContext) : ToolCache :=
  listings.foldl (fun cache context => (context.handleListTools cache).2) (.new ttl)

theorem ToolCache.after_append (ttl : Int) (prior : List ListingContext) (context : ListingContext) :
    ToolCache.after ttl (prior ++ [context]) = (context.handleListTools (ToolCache.after ttl prior)).2 := by
  simp [ToolCache.after]

theorem ToolCache.after_ttl (ttl : Int) (listings : List ListingContext) :
    (ToolCache.after ttl listings).ttl = (ToolCache.new ttl).ttl := by
  induction listings using List.reverseRecOn with
  | nil => rfl
  | append_singleton prior context ih =>
    rw [after_append, handleListTools_eq, aggregated_ttl, ih]

theorem ToolCache.new_lasting (ttl : Int) : 0 ≤ (ToolCache.new ttl).ttl := by
  simp only [ToolCache.new, ToolCache.defaultToolCacheTTL]
  split_ifs
  · decide
  · omega

theorem ListingContext.Sourced.mono {prior : List ListingContext} (within : ∀ context ∈ prior, context ∈ listings)
    {key : String} (sourced : Sourced prior key cached) : Sourced listings key cached := by
  obtain ⟨past, member, rest⟩ := sourced
  exact ⟨past, within past member, rest⟩

theorem ToolCache.after_sourced (ttl : Int) (listings : List ListingContext) :
    (ToolCache.after ttl listings).All (Sourced listings) := by
  induction listings using List.reverseRecOn with
  | nil =>
    intro key cached found
    simp [ToolCache.after, ToolCache.new] at found
  | append_singleton prior context ih =>
    rw [after_append, handleListTools_eq]
    have sourced : (ToolCache.after ttl prior).All (Sourced (prior ++ [context])) :=
      fun key cached found => ListingContext.Sourced.mono (by simp +contextual) (ih key cached found)
    have lasting : 0 ≤ (ToolCache.after ttl prior).ttl := by
      rw [after_ttl]
      exact new_lasting ttl
    exact (aggregated_progress (by simp) lasting sourced context.offers fun _ => id).sourced

namespace ListingContext

variable {context : ListingContext} {offer : Offer}

def Recent (context : ListingContext) (ttl : Int) (past : ListingContext) : Prop :=
  context.now - past.now ≤ (ToolCache.new ttl).ttl

/-- A tool its server both registered and defines, under a name that no other tool had in any recent listing. -/
structure Unshared (ttl : Int) (listings : List ListingContext) (context : ListingContext) (offer : Offer) : Prop where
  registered : offer ∈ context.offers
  named : context.nameOf offer ≠ ""
  defined : context.defined offer ≠ none
  alone : ∀ past ∈ listings, context.Recent ttl past → ∀ other ∈ past.offers,
    trimSpace (past.nameOf other) = trimSpace (context.nameOf offer) →
      other.server.id = offer.server.id ∧ other.toolName = offer.toolName

/-- The entry is what the server returned for the tool, in a recent listing, under another name. -/
def Returned (ttl : Int) (listings : List ListingContext) (context : ListingContext) (offer : Offer)
    (entry : ToolDefinition) : Prop :=
  ∃ past ∈ listings, context.Recent ttl past ∧ ∃ definition, past.defined offer = some definition ∧
    entry = { definition with name := entry.name }

theorem unique_offer {first second : Offer} (registered : first ∈ context.offers) (other : second ∈ context.offers)
    (servers : first.server.id = second.server.id) (tools : first.toolName = second.toolName) : first = second := by
  obtain ⟨server, toolName⟩ := first
  obtain ⟨server', toolName'⟩ := second
  simp only at servers tools
  subst tools
  have here := ((context.mem_offers _).mp registered).2
  have there := ((context.mem_offers _).mp other).2
  have same := List.inj_on_of_nodup_map (context.index.lookupTool_nodup toolName) here there servers
  simpa using same

theorem returned_of_fresh {ttl : Int} (unshared : Unshared ttl listings context offer) {cache : ToolCache}
    (lasts : cache.ttl = (ToolCache.new ttl).ttl) (sourced : cache.All (Sourced listings))
    (fresh : cache.fresh context.now (context.nameOf offer) = some cached) :
    trimSpace cached.definition.name = trimSpace (context.nameOf offer) ∧
      Returned ttl listings context offer cached.definition := by
  simp only [ToolCache.fresh, nameOf_visible unshared.registered unshared.named, if_false, Option.filter_eq_some_iff,
    decide_eq_true_eq] at fresh
  obtain ⟨stored, recent⟩ := fresh
  obtain ⟨past, listed, other, registered, definition, returned, key, rfl⟩ := sourced _ _ stored
  have within : context.Recent ttl past := by
    simp only [Recent, ← lasts]
    exact not_lt.mp recent
  obtain ⟨server, tool⟩ := unshared.alone past listed within other registered key
  have same : past.defined offer = some definition := by
    simpa [defined, BackendListing.definition, server, tool] using returned
  exact ⟨key, past, listed, within, definition, same, rfl⟩

end ListingContext

theorem listing_progress (ttl : Int) (prior : List ListingContext) (context : ListingContext) (offers : List Offer)
    (registered : ∀ offer ∈ offers, offer ∈ context.offers) :
    Progress (prior ++ [context]) context offers (context.aggregated (.after ttl prior) offers) := by
  have lasting : 0 ≤ (ToolCache.after ttl prior).ttl := by
    rw [ToolCache.after_ttl]
    exact ToolCache.new_lasting ttl
  have sourced : (ToolCache.after ttl prior).All (Sourced (prior ++ [context])) :=
    fun key cached found => Sourced.mono (by simp +contextual) (ToolCache.after_sourced ttl prior key cached found)
  exact aggregated_progress (by simp) lasting sourced offers registered

theorem unshared_tools_kept (ttl : Int) (prior : List ListingContext) (context : ListingContext) :
    ∃ entryOf : Offer → ToolDefinition, (∀ offer, Unshared ttl (prior ++ [context]) context offer →
        entryOf offer ∈ (context.handleListTools (.after ttl prior)).1 ∧
          trimSpace (entryOf offer).name = trimSpace (context.nameOf offer) ∧
          Returned ttl (prior ++ [context]) context offer (entryOf offer)) ∧
      ∀ first second, Unshared ttl (prior ++ [context]) context first →
        Unshared ttl (prior ++ [context]) context second → entryOf first = entryOf second → first = second := by
  have progress := listing_progress ttl prior context context.offers fun _ => id
  have shown : ∀ offer, ∃ entry, Unshared ttl (prior ++ [context]) context offer →
      entry ∈ (context.handleListTools (.after ttl prior)).1 ∧
        trimSpace entry.name = trimSpace (context.nameOf offer) ∧
        Returned ttl (prior ++ [context]) context offer entry := by
    intro offer
    by_cases unshared : Unshared ttl (prior ++ [context]) context offer
    · obtain ⟨cached, fresh, listed⟩ := progress.complete offer unshared.registered unshared.named unshared.defined
      obtain ⟨name, returned⟩ := returned_of_fresh unshared (by rw [aggregated_ttl, ToolCache.after_ttl])
        progress.sourced fresh
      exact ⟨cached.definition, fun _ => ⟨by rw [handleListTools_eq]; exact listed, name, returned⟩⟩
    · exact ⟨⟨"", "", "", "", "", false, ""⟩, fun holds => absurd holds unshared⟩
  choose entryOf kept using shown
  refine ⟨entryOf, kept, ?_⟩
  intro first second unshared unshared' same
  have names : trimSpace (context.nameOf second) = trimSpace (context.nameOf first) := by
    rw [← (kept first unshared).2.1, ← (kept second unshared').2.1, same]
  have here : context.Recent ttl context := by simpa [Recent] using ToolCache.new_lasting ttl
  obtain ⟨server, tool⟩ := unshared.alone context (by simp) here second unshared'.registered names
  exact (unique_offer unshared'.registered unshared.registered server tool).symm

namespace Sample

def clusters (names : List String) (revision : String) (now : Time) : ListingContext where
  index := .rebuild (names.map fun name => server name ⟨["list_pods"], [], []⟩)
  resolver := none
  listing id := some [⟨"list_pods", id ++ revision, "", "", "", false, ""⟩]
  now := now

def pair : ListingContext := clusters ["k8s", "vm"] " v1" 0

def listed (prior : List ListingContext) (context : ListingContext) : List String :=
  (context.handleListTools (.after 0 prior)).1.map ToolDefinition.description

end Sample

open Sample

theorem two_clusters_kept : pair.offers.length = 2 ∧ ∃ entryOf : Offer → ToolDefinition,
      (∀ offer ∈ pair.offers, entryOf offer ∈ (pair.handleListTools (.after 0 [])).1) ∧
      ∀ first ∈ pair.offers, ∀ second ∈ pair.offers, entryOf first = entryOf second → first = second := by
  have alone : ∀ offer ∈ pair.offers, pair.nameOf offer ≠ "" ∧ pair.defined offer ≠ none ∧ ∀ other ∈ pair.offers,
      trimSpace (pair.nameOf other) = trimSpace (pair.nameOf offer) →
        other.server.id = offer.server.id ∧ other.toolName = offer.toolName := by
    decide +kernel
  have unshared : ∀ offer ∈ pair.offers, Unshared 0 [pair] pair offer := by
    intro offer offered
    obtain ⟨named, defined, apart⟩ := alone offer offered
    refine ⟨offered, named, defined, fun past listed _ => ?_⟩
    rw [List.mem_singleton.mp listed]
    exact apart
  obtain ⟨entryOf, kept, distinct⟩ := unshared_tools_kept 0 [] pair
  exact ⟨by decide +kernel, entryOf, fun offer offered => (kept offer (unshared offer offered)).1,
    fun first offered second others => distinct first second (unshared first offered) (unshared second others)⟩

theorem aggregation_loses_tools : ((clusters ["k8s", "mcp-k8s"] " v1" 0).offers.length = 2 ∧
        listed [] (clusters ["k8s", "mcp-k8s"] " v1" 0) = ["k8s v1"]) ∧
      ((clusters [""] " v1" 0).offers.length = 1 ∧ listed [] (clusters [""] " v1" 0) = []) ∧
      listed [clusters ["k8s"] " v1" 0] (clusters ["k8s"] " v2" (10 * second)) = ["k8s v1"] ∧
      listed [clusters ["mcp-k8s"] " v1" 0] (clusters ["k8s"] " v1" (10 * second)) = ["mcp-k8s v1"] := by
  decide +kernel

end McpGateway.Proxy
