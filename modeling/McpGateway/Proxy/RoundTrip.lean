import McpGateway.Proxy.Aggregation
import McpGateway.Registration.Service

namespace McpGateway.Proxy

open Shared Registration

def Router.Finds (router : Router) (name : String) (offer : Offer) : Prop :=
  (router.resolve name).toolName = offer.toolName ∧ router.candidates (router.resolve name) = [offer.server]

instance (router : Router) (name : String) (offer : Offer) : Decidable (router.Finds name offer) :=
  inferInstanceAs (Decidable (_ ∧ _))

section

variable {α : Type} {xs : List α} {x : α}

theorem filter_eq_singleton (p : α → Bool) (distinct : xs.Nodup) (member : x ∈ xs) :
    xs.filter p = [x] ↔ p x = true ∧ ∀ y ∈ xs, p y = true → y = x := by
  have kept (y : α) : y ∈ xs.filter p ↔ y ∈ xs ∧ p y = true := List.mem_filter
  constructor
  · intro only
    simp only [only, List.mem_singleton] at kept
    exact ⟨((kept x).mp rfl).2, fun y inside passes => (kept y).mpr ⟨inside, passes⟩⟩
  · intro chosen
    have same : (xs.filter p).Perm [x] := by
      rw [List.perm_ext_iff_of_nodup (distinct.filter p) (List.nodup_singleton x)]
      intro y
      rw [kept, List.mem_singleton]
      constructor
      · intro inside
        exact chosen.2 y inside.1 inside.2
      · intro same
        simpa [same, member] using chosen.1
    exact List.perm_singleton.mp same

end

theorem lookupTool_distinct (index : CapabilityIndex) (name : String) : (index.lookupTool name).Nodup :=
  .of_map _ (index.lookupTool_nodup name)

variable {hint : String} {definition : ToolDefinition}

namespace Router

variable {router : Router} (offer : Offer)

theorem candidates_unhinted (registered : offer.server ∈ router.index.lookupTool offer.toolName) :
    router.candidates ⟨offer.toolName, ""⟩ = [offer.server] ↔
      ∀ other ∈ router.index.lookupTool offer.toolName, other = offer.server := by
  have all := filter_eq_singleton (fun _ => true) (lookupTool_distinct router.index offer.toolName) registered
  simpa [candidates] using all

theorem candidates_hinted (registered : offer.server ∈ router.index.lookupTool offer.toolName) (named : hint ≠ "") :
    router.candidates ⟨offer.toolName, hint⟩ = [offer.server] ↔ Answers offer.server hint ∧
        ∀ other ∈ router.index.lookupTool offer.toolName, Answers other hint → other = offer.server := by
  have all := filter_eq_singleton
    (fun server => matchesServerHint server.name hint || matchesServerHint server.id hint)
    (lookupTool_distinct router.index offer.toolName) registered
  simpa [candidates, named, filterCandidatesByServer, Answers] using all

end Router

theorem answers_displayName {server : ServerRecord} (own : displayName (trimSpace server.name) = hint) :
    Answers server hint := by
  simp [Answers, matchesServerHint, own]

def hintNames (server : ServerRecord) : List String :=
  [trimSpace server.name, displayName (trimSpace server.name), trimSpace server.id, displayName (trimSpace server.id)]

theorem answers_iff (server : ServerRecord) (hint : String) :
    Answers server hint ↔ ∃ name ∈ hintNames server, equalFold name hint = true := by
  simp [Answers, matchesServerHint, hintNames, or_assoc]

structure Separable (index : CapabilityIndex) (separator : String) : Prop where
  nonempty : separator ≠ ""
  shown : ∀ toolName, ∀ server ∈ index.lookupTool toolName, displayName (trimSpace server.name) ≠ ""
  visible : ∀ toolName, ∀ server ∈ index.lookupTool toolName,
    ∀ c ∈ (displayName (trimSpace server.name)).toList.head?, isSpace c = false
  apart : ∀ toolName otherName, ∀ server ∈ index.lookupTool toolName, ∀ other ∈ index.lookupTool otherName,
    other ≠ server → ∀ name ∈ hintNames other, equalFold (displayName (trimSpace server.name)) name = false
  ends : ∀ toolName, ∀ server ∈ index.lookupTool toolName,
    CutsAt (displayName (trimSpace server.name)).toList separator.toList
  unregistered : ∀ toolName, ∀ server ∈ index.lookupTool toolName,
    index.lookupTool (displayName (trimSpace server.name) ++ separator ++ trimSpace toolName) = []

theorem lookupTool_trimSpace (index : CapabilityIndex) (toolName : String) :
    index.lookupTool (trimSpace toolName) = index.lookupTool toolName := by
  simp [CapabilityIndex.lookupTool]

theorem visible_of_lookupTool {index : CapabilityIndex} {toolName : String} {server : ServerRecord}
    (registered : server ∈ index.lookupTool toolName) : trimSpace toolName ≠ "" := by
  intro blank
  simp [CapabilityIndex.lookupTool, blank] at registered

theorem serverLabel_of_named {server : ServerRecord} (named : trimSpace server.name ≠ "") :
    serverLabel server = trimSpace server.name := by
  simp [serverLabel, named]

theorem finds_raw {router : Router} (offer : Offer) (trimmed : trimSpace offer.toolName = offer.toolName)
    (registered : offer.server ∈ router.index.lookupTool offer.toolName) :
    router.Finds offer.toolName offer ↔ ∀ other ∈ router.index.lookupTool offer.toolName, other = offer.server := by
  have direct : router.resolve offer.toolName = ⟨offer.toolName, ""⟩ := by
    have found : router.index.lookupTool offer.toolName ≠ [] := List.ne_nil_of_mem registered
    simp [Router.resolve, resolveFederatedName, trimmed, found]
  simp only [Router.Finds, direct, true_and]
  exact Router.candidates_unhinted offer registered

section

variable {router : Router} {resolver : NamespaceResolver} {toolName : String} {server : ServerRecord}

theorem resolve_namespaced (configured : router.resolver = some resolver) (prefixing : resolver.mode ≠ .reject)
    (nonempty : resolver.separator ≠ "") (shown : hint ≠ "") (visible : ∀ c ∈ hint.toList.head?, isSpace c = false)
    (ends : CutsAt hint.toList resolver.separator.toList) (trimmed : trimSpace toolName = toolName)
    (registered : server ∈ router.index.lookupTool toolName)
    (unregistered : router.index.lookupTool (hint ++ resolver.separator ++ toolName) = []) :
    router.resolve (hint ++ resolver.separator ++ toolName) = ⟨toolName, hint⟩ := by
  have bare : toolName ≠ "" := by
    rw [← trimmed]
    exact visible_of_lookupTool registered
  have runes : hint.toList ≠ [] := by simpa using shown
  have head : ∀ c ∈ (hint ++ resolver.separator ++ toolName).toList.head?, isSpace c = false := by
    intro c first
    rw [String.toList_append, String.toList_append, List.append_assoc, List.head?_append_of_ne_nil _ runes] at first
    exact visible c first
  have whole := trimSpace_append head trimmed bare
  have present : router.index.lookupTool toolName ≠ [] := List.ne_nil_of_mem registered
  have split : resolver.resolve router.index (hint ++ resolver.separator ++ toolName) = some ⟨toolName, hint⟩ := by
    simp [NamespaceResolver.resolve, prefixing, NamespaceResolver.resolveNamespace, whole,
      cut_append toolName nonempty ends, shown, bare, present]
  simp [Router.resolve, whole, resolveFederatedName, unregistered, configured, split]

theorem Separable.finds_namespaced (separable : Separable router.index resolver.separator)
    (configured : router.resolver = some resolver) (prefixing : resolver.mode ≠ .reject)
    (registered : server ∈ router.index.lookupTool toolName) :
    router.Finds (displayName (trimSpace server.name) ++ resolver.separator ++ trimSpace toolName)
      ⟨server, trimSpace toolName⟩ := by
  have shown := separable.shown toolName server registered
  have filed : server ∈ router.index.lookupTool (trimSpace toolName) := by rwa [lookupTool_trimSpace]
  have resolved := resolve_namespaced configured prefixing separable.nonempty shown
    (separable.visible toolName server registered) (separable.ends toolName server registered)
    (trimSpace_trimSpace toolName) filed (separable.unregistered toolName server registered)
  have alone : ∀ other ∈ router.index.lookupTool (trimSpace toolName),
      Answers other (displayName (trimSpace server.name)) → other = server := by
    intro other alike answers
    by_contra different
    obtain ⟨name, meant, same⟩ := (answers_iff _ _).mp answers
    have apart := separable.apart toolName (trimSpace toolName) server registered other alike different name meant
    rw [equalFold_comm, same] at apart
    cases apart
  have candidates := Router.candidates_hinted ⟨server, trimSpace toolName⟩ filed shown
  simp only [Router.Finds, resolved, true_and, candidates]
  exact ⟨answers_displayName rfl, alone⟩

theorem namespaced_tool_routes_back (configured : router.resolver = some resolver)
    (mode : resolver.mode = .always ∨ resolver.mode = .onConflict)
    (separable : Separable router.index resolver.separator) (registered : server ∈ router.index.lookupTool toolName) :
    router.Finds (resolver.applyNamespace router.index toolName (serverLabel server)) ⟨server, trimSpace toolName⟩ := by
  have bare := visible_of_lookupTool registered
  have named : trimSpace server.name ≠ "" := by
    intro blank
    exact separable.shown toolName server registered (by rw [blank]; rfl)
  have joined := separable.finds_namespaced configured (by cases mode <;> simp [*]) registered
  cases mode with
  | inl always => simpa [NamespaceResolver.applyNamespace, bare, named, always, serverLabel_of_named named] using joined
  | inr onConflict =>
    by_cases conflict : isConflict router.index (trimSpace toolName)
    · simpa [NamespaceResolver.applyNamespace, bare, named, onConflict, serverLabel_of_named named, conflict] using joined
    · have alone : ∀ other ∈ router.index.lookupTool toolName, other = server := by
        intro other alike
        simp only [isConflict, trimSpace_trimSpace, lookupTool_trimSpace, decide_eq_true_eq, not_lt] at conflict
        obtain ⟨only, single⟩ := List.length_eq_one_iff.mp (le_antisymm conflict (List.length_pos_of_mem registered))
        simp only [single, List.mem_singleton] at alike registered
        rw [alike, registered]
      have filed : server ∈ router.index.lookupTool (trimSpace toolName) := by rwa [lookupTool_trimSpace]
      have raw := (finds_raw ⟨server, trimSpace toolName⟩ (trimSpace_trimSpace toolName) filed).mpr
        (by simpa [lookupTool_trimSpace] using alone)
      simpa [NamespaceResolver.applyNamespace, bare, named, onConflict, serverLabel_of_named named, conflict] using raw

end

namespace Sample

def routing (context : ListingContext) : Router := ⟨context.index, roundRobin 0, none, context.resolver⟩

def namespaced (names : List String) (resolver : NamespaceResolver) : Router :=
  ⟨(clusters names "" 0).index, roundRobin 0, none, some resolver⟩

def pods (name : String) : Offer := ⟨server name ⟨["list_pods"], [], []⟩, "list_pods"⟩

theorem clusters_server {names : List String} {revision : String} {now : Time} (distinct : names.Nodup)
    {toolName : String} {server : ServerRecord}
    (found : server ∈ (clusters names revision now).index.lookupTool toolName) :
    trimSpace toolName = "list_pods" ∧ ∃ name ∈ names, server = (pods name).server := by
  have ids : ((names.map fun name => (pods name).server).map ServerRecord.id).Nodup := by
    simpa [pods, Sample.server, Function.comp_def] using distinct
  obtain ⟨⟨listed, _⟩, key⟩ := ((CapabilityIndex.rebuild_reflects _ ids).mem_lookupTool toolName server).mp found
  obtain ⟨name, member, rfl⟩ := List.mem_map.mp listed
  have keys : (pods name).server.toolKeys = ["list_pods"] := by
    change capabilityKeys ["list_pods"] = ["list_pods"]
    decide +kernel
  exact ⟨by simpa [keys] using key, name, member, rfl⟩

end Sample

theorem cluster_separator_routes_back :
    (Sample.namespaced ["mcp-k8s", "db"] ⟨.onConflict, "__"⟩).Finds "k8s__list_pods" (Sample.pods "mcp-k8s") := by
  have separable : Separable (Sample.clusters ["mcp-k8s", "db"] "" 0).index "__" := by
    have fine : ∀ name ∈ ["mcp-k8s", "db"], displayName (trimSpace (Sample.pods name).server.name) ≠ "" ∧
        (displayName (trimSpace (Sample.pods name).server.name)).toList.head?.all (fun c => !isSpace c) = true ∧
        CutsAt (displayName (trimSpace (Sample.pods name).server.name)).toList "__".toList ∧
        (Sample.clusters ["mcp-k8s", "db"] "" 0).index.lookupTool
          (displayName (trimSpace (Sample.pods name).server.name) ++ "__" ++ "list_pods") = [] ∧
        ∀ other ∈ ["mcp-k8s", "db"], other ≠ name → ∀ known ∈ hintNames (Sample.pods other).server,
          equalFold (displayName (trimSpace (Sample.pods name).server.name)) known = false := by
      decide +kernel
    constructor
    · decide
    · intro toolName server found
      obtain ⟨_, name, member, rfl⟩ := Sample.clusters_server (by decide) found
      exact (fine name member).1
    · intro toolName server found c first
      obtain ⟨_, name, member, rfl⟩ := Sample.clusters_server (by decide) found
      have visible := (fine name member).2.1
      rw [Option.mem_def.mp first] at visible
      simpa using visible
    · intro toolName otherName server found other alike different known meant
      obtain ⟨_, name, member, rfl⟩ := Sample.clusters_server (by decide) found
      obtain ⟨_, name', member', rfl⟩ := Sample.clusters_server (by decide) alike
      have names : name' ≠ name := by
        intro same
        exact different (by rw [same])
      exact (fine name member).2.2.2.2 name' member' names known meant
    · intro toolName server found
      obtain ⟨_, name, member, rfl⟩ := Sample.clusters_server (by decide) found
      exact (fine name member).2.2.1
    · intro toolName server found
      obtain ⟨tool, name, member, rfl⟩ := Sample.clusters_server (by decide) found
      rw [tool]
      exact (fine name member).2.2.2.1
  have routed : (Sample.namespaced ["mcp-k8s", "db"] ⟨.onConflict, "__"⟩).Finds
      (NamespaceResolver.applyNamespace ⟨.onConflict, "__"⟩ (Sample.clusters ["mcp-k8s", "db"] "" 0).index "list_pods"
        (serverLabel (Sample.pods "mcp-k8s").server))
      ⟨(Sample.pods "mcp-k8s").server, trimSpace "list_pods"⟩ :=
    namespaced_tool_routes_back rfl (.inr rfl) separable (by decide +kernel)
  have name : NamespaceResolver.applyNamespace ⟨.onConflict, "__"⟩ (Sample.clusters ["mcp-k8s", "db"] "" 0).index
      "list_pods" (serverLabel (Sample.pods "mcp-k8s").server) = "k8s__list_pods" := by decide +kernel
  have tool : trimSpace "list_pods" = "list_pods" := by decide
  rwa [name, tool] at routed

theorem namespaced_tool_misroutes : (displayName "mcp- k8s" = " k8s" ∧ CutsAt " k8s".toList ".".toList ∧
        (Sample.clusters ["mcp- k8s"] "" 0).index.lookupTool " k8s.list_pods" = [] ∧
        ¬ (Sample.namespaced ["mcp- k8s"] ⟨.always, "."⟩).Finds
          (NamespaceResolver.applyNamespace ⟨.always, "."⟩ (Sample.clusters ["mcp- k8s"] "" 0).index "list_pods" "mcp- k8s")
          (Sample.pods "mcp- k8s")) ∧ (∀ known ∈ ["k8s ", displayName "k8s "], equalFold "k8s" known = false) ∧
        ¬ (Sample.namespaced ["k8s", "k8s "] ⟨.always, "."⟩).Finds
          (NamespaceResolver.applyNamespace ⟨.always, "."⟩ (Sample.clusters ["k8s", "k8s "] "" 0).index "list_pods" "k8s")
          (Sample.pods "k8s") := by
  decide +kernel

variable {context : ListingContext}

theorem ListingContext.Aggregated.adds_name {agg next : ToolAggregator} {offer : Offer}
    (step : Aggregated context agg offer next) {listings : List ListingContext}
    (sourced : agg.cache.All (Sourced listings)) (added : next.result = agg.result ++ [definition]) :
    trimSpace definition.name = trimSpace (context.nameOf offer) := by
  cases step with
  | skipped => simp at added
  | unresolved => simp at added
  | cached found named fresh =>
    simp only [List.append_cancel_left_eq, List.cons.injEq, and_true] at added
    obtain ⟨_, _, _, _, _, _, key, rfl⟩ := sourced _ _ (ToolCache.lookup_of_fresh fresh)
    rw [← added]
    exact key
  | fetched =>
    simp only [List.append_cancel_left_eq, List.cons.injEq, and_true] at added
    rw [← added]
    rfl

theorem ListingContext.Lists.name {ttl : Int} {prior : List ListingContext} {offer : Offer}
    (lists : context.Lists (.after ttl prior) offer definition) :
    offer ∈ context.offers ∧ trimSpace definition.name = trimSpace (context.nameOf offer) := by
  obtain ⟨before, after, split, added⟩ := lists
  have progress := listing_progress ttl prior context before (by simp +contextual [split])
  exact ⟨by simp [split], (context.aggregate_cases _ offer).adds_name progress.sourced added⟩

def RoutesBack (index : CapabilityIndex) (shown : String) (offer : Offer) : Prop :=
  if hasPrefix offer.toolName (shown ++ ".") then ∀ other ∈ index.lookupTool offer.toolName, other = offer.server
  else
    index.lookupTool (shown ++ "." ++ offer.toolName) = [] ∧
      ((shown ≠ "" ∧ '.' ∉ shown.toList ∧
          ∀ other ∈ index.lookupTool offer.toolName, Answers other shown → other = offer.server) ∨
        -- read as mcp.<server>.<tool>
        ∃ rest, shown = "mcp." ++ rest ∧ '.' ∉ rest.toList ∧ index.lookupTool (rest ++ "." ++ offer.toolName) = [] ∧
          (rest ≠ "" → Answers offer.server rest) ∧
          ∀ other ∈ index.lookupTool offer.toolName, (rest = "" ∨ Answers other rest) → other = offer.server)

theorem cut_dot {before : String} (after : String) (absent : '.' ∉ before.toList) :
    cut (before ++ "." ++ after) "." = some (before, after) :=
  cut_append after (by decide) (cutsAt_singleton absent)

theorem exists_first_dot {s : String} (dotted : '.' ∈ s.toList) :
    ∃ before after, s = before ++ "." ++ after ∧ '.' ∉ before.toList := by
  obtain ⟨before, after, same, absent⟩ := List.eq_append_cons_of_mem dotted
  refine ⟨String.ofList before, String.ofList after, ?_, by simpa using absent⟩
  rw [← String.toList_inj]
  simp [same]

theorem append_ne_self {start finish : String} (nonempty : start ≠ "") : start ++ finish ≠ finish := by
  intro same
  have lengths := congrArg (fun s : String => s.toList.length) same
  have pos : 0 < start.toList.length := List.length_pos_of_ne_nil (by simpa using nonempty)
  simp only [String.toList_append, List.length_append] at lengths
  omega

section

variable {router : Router} {offer : Offer}

variable {first rest shown : String}

variable {name : String}

theorem resolve_default (plain : router.resolver = none) (trimmed : trimSpace name = name)
    (unregistered : router.index.lookupTool name = []) (cutting : cut name "." = some (first, rest)) :
    router.resolve name =
      if first ≠ "" ∧ router.index.lookupTool rest ≠ [] then ⟨rest, first⟩
      else if first = "mcp" then ((cut rest ".").map fun (server, tool) => (⟨tool, server⟩ : Resolved)).getD ⟨name, ""⟩
      else ⟨name, ""⟩ := by
  have resolved : router.resolve name = ((byFirstSegment router.index name).or (byLegacyFormat name)).getD ⟨name, ""⟩ := by
    simp [Router.resolve, trimmed, resolveFederatedName, unregistered, plain]
  rw [resolved, byFirstSegment_of_cut _ cutting, byLegacyFormat_of_cut cutting]
  split_ifs <;> rfl

theorem longer_name (start toolName : String) : start ++ "." ++ toolName ≠ toolName :=
  append_ne_self (by simp)

theorem finds_undotted (plain : router.resolver = none)
    (registered : offer.server ∈ router.index.lookupTool offer.toolName)
    (trimmed : trimSpace (shown ++ "." ++ offer.toolName) = shown ++ "." ++ offer.toolName)
    (unregistered : router.index.lookupTool (shown ++ "." ++ offer.toolName) = []) (undotted : '.' ∉ shown.toList)
    (own : Answers offer.server shown) : router.Finds (shown ++ "." ++ offer.toolName) offer ↔
      shown ≠ "" ∧ ∀ other ∈ router.index.lookupTool offer.toolName, Answers other shown → other = offer.server := by
  have present : router.index.lookupTool offer.toolName ≠ [] := List.ne_nil_of_mem registered
  have resolved := resolve_default plain trimmed unregistered (cut_dot offer.toolName undotted)
  by_cases named : shown = ""
  · have unread : ¬ (shown = "mcp") := by simp [named]
    rw [if_neg (by simp [named]), if_neg unread] at resolved
    constructor
    · intro found
      rw [Router.Finds, resolved] at found
      exact absurd found.1 (longer_name shown _)
    · intro nonempty
      exact absurd named nonempty.1
  · rw [if_pos ⟨named, present⟩] at resolved
    rw [Router.Finds, resolved, Router.candidates_hinted offer registered named]
    simp [own, named]

theorem finds_dotted (plain : router.resolver = none)
    (registered : offer.server ∈ router.index.lookupTool offer.toolName)
    (trimmed : trimSpace (first ++ "." ++ (rest ++ "." ++ offer.toolName)) = first ++ "." ++ (rest ++ "." ++ offer.toolName))
    (unregistered : router.index.lookupTool (first ++ "." ++ (rest ++ "." ++ offer.toolName)) = [])
    (undotted : '.' ∉ first.toList) : router.Finds (first ++ "." ++ (rest ++ "." ++ offer.toolName)) offer ↔
      first = "mcp" ∧ '.' ∉ rest.toList ∧ router.index.lookupTool (rest ++ "." ++ offer.toolName) = [] ∧
        (rest ≠ "" → Answers offer.server rest) ∧
        ∀ other ∈ router.index.lookupTool offer.toolName, (rest = "" ∨ Answers other rest) → other = offer.server := by
  have resolved := resolve_default plain trimmed unregistered (cut_dot (rest ++ "." ++ offer.toolName) undotted)
  have whole : first ++ "." ++ (rest ++ "." ++ offer.toolName) ≠ offer.toolName := by
    simpa [String.append_assoc] using longer_name (first ++ "." ++ rest) offer.toolName
  have misses (toolName hint : String) (other : toolName ≠ offer.toolName)
      (leads : router.resolve (first ++ "." ++ (rest ++ "." ++ offer.toolName)) = ⟨toolName, hint⟩) :
      ¬ router.Finds (first ++ "." ++ (rest ++ "." ++ offer.toolName)) offer := by
    intro found
    rw [Router.Finds, leads] at found
    exact other found.1
  by_cases taken : first ≠ "" ∧ router.index.lookupTool (rest ++ "." ++ offer.toolName) ≠ []
  · rw [if_pos taken] at resolved
    simp [misses _ _ (longer_name rest _) resolved, taken.2]
  rw [if_neg taken] at resolved
  by_cases legacy : first = "mcp"
  · rw [if_pos legacy] at resolved
    have free : router.index.lookupTool (rest ++ "." ++ offer.toolName) = [] := by
      by_contra used
      exact taken ⟨by simp [legacy], used⟩
    by_cases dotted : '.' ∈ rest.toList
    · obtain ⟨server, tool, same, absent⟩ := exists_first_dot dotted
      have inner : cut (rest ++ "." ++ offer.toolName) "." = some (server, tool ++ "." ++ offer.toolName) := by
        have cutting := cut_dot (tool ++ "." ++ offer.toolName) absent
        simpa [same, String.append_assoc] using cutting
      rw [inner] at resolved
      simp [misses _ _ (longer_name tool _) resolved, dotted]
    · rw [cut_dot offer.toolName dotted] at resolved
      have leads : router.resolve (first ++ "." ++ (rest ++ "." ++ offer.toolName)) = ⟨offer.toolName, rest⟩ := resolved
      rw [Router.Finds, leads]
      by_cases hinted : rest = ""
      · subst hinted
        rw [Router.candidates_unhinted offer registered]
        simp only [legacy, dotted, free, not_false_eq_true, true_and, ne_eq, not_true_eq_false, false_implies, true_or,
          true_implies]
      · rw [Router.candidates_hinted offer registered hinted]
        simp [legacy, dotted, free, hinted]
  · rw [if_neg legacy] at resolved
    simp [misses _ _ whole resolved, legacy]

theorem finds_congr {second : String} (same : trimSpace first = trimSpace second) :
    router.Finds first offer ↔ router.Finds second offer := by
  simp only [Router.Finds, Router.resolve, same]

section

variable (valid : matchesServiceName name = true)

include valid

theorem runes_of_matchesServiceName :
    ∀ c ∈ name.toList, (isAlphanumeric c || c == '_' || c == '.' || c == '-') = true := by
  intro c member
  simp only [matchesServiceName] at valid
  cases runes : name.toList with
  | nil => simp [runes] at valid
  | cons head tail =>
    simp only [runes, Bool.and_eq_true, decide_eq_true_eq, List.all_eq_true] at valid
    simp only [runes, List.mem_cons] at member
    cases member with
    | inl first => simp [first, valid.1.1]
    | inr later => exact valid.2 c later

omit valid in
theorem char_le_iff (left right : Char) : left ≤ right ↔ left.toNat ≤ right.toNat := by
  rw [Char.le_def, UInt32.le_iff_toNat_le]
  rfl

theorem visible_of_matchesServiceName :
    ∀ c ∈ name.toList, isSpace c = false := by
  intro c member
  have allowed := runes_of_matchesServiceName valid c member
  have range : 0x2D ≤ c.toNat ∧ c.toNat ≤ 0x7A := by
    simp only [isAlphanumeric, Bool.or_eq_true, Bool.and_eq_true, decide_eq_true_eq, beq_iff_eq, char_le_iff,
      Char.reduceToNat] at allowed
    obtain (((letter | rfl) | rfl) | rfl) := allowed
    · omega
    all_goals decide
  simp [isSpace]
  omega

omit valid in
theorem visible_displayName (visible : ∀ c ∈ name.toList, isSpace c = false) :
    ∀ c ∈ (displayName name).toList, isSpace c = false := by
  intro c member
  exact visible c ((trimPrefix_suffix _ _).subset member)

theorem trimSpace_of_matchesServiceName : trimSpace name = name :=
  trimSpace_eq_self name (visible_of_matchesServiceName valid)

theorem ne_empty_of_matchesServiceName : name ≠ "" := by
  intro blank
  simp [blank, matchesServiceName] at valid

omit valid in
theorem federatedToolName_eq (trimmed : trimSpace offer.toolName = offer.toolName) (bare : offer.toolName ≠ "")
    (valid : matchesServiceName offer.server.name = true) : federatedToolName offer.server offer.toolName =
      if hasPrefix offer.toolName (displayName offer.server.name ++ ".") then offer.toolName
      else displayName offer.server.name ++ "." ++ offer.toolName := by
  have named := ne_empty_of_matchesServiceName valid
  simp [federatedToolName, serverLabel, trimSpace_of_matchesServiceName valid, named, trimmed, bare]

theorem trimSpace_joinedBy {separator toolName : String} (visible : ∀ c ∈ separator.toList.head?, isSpace c = false)
    (separated : separator ≠ "") (trimmed : trimSpace toolName = toolName) (bare : toolName ≠ "") :
    trimSpace (displayName name ++ separator ++ toolName) = displayName name ++ separator ++ toolName := by
  refine trimSpace_append ?_ trimmed bare
  intro c first
  have shown := visible_displayName (visible_of_matchesServiceName valid)
  cases runes : (displayName name).toList with
  | nil =>
    have some_rune : separator.toList ≠ [] := by simpa using separated
    simp only [String.toList_append, runes, List.nil_append] at first
    rw [List.head?_append_of_ne_nil _ some_rune] at first
    exact visible c first
  | cons head tail =>
    simp only [String.toList_append, runes, List.cons_append, List.head?_cons, Option.mem_some_iff] at first
    exact shown c (by simp [runes, first])

theorem trimSpace_joined {toolName : String} (trimmed : trimSpace toolName = toolName) (bare : toolName ≠ "") :
    trimSpace (displayName name ++ "." ++ toolName) = displayName name ++ "." ++ toolName := by
  have visible : isSpace '.' = false := by decide
  exact trimSpace_joinedBy valid (by simpa using visible) (by simp) trimmed bare

end

theorem legacy_iff (same : shown = first ++ "." ++ rest) (absent : '.' ∉ first.toList) (other : String) :
    shown = "mcp." ++ other ↔ first = "mcp" ∧ rest = other := by
  constructor
  · intro read
    have cutting := cut_dot rest absent
    rw [← same, read] at cutting
    have again := cut_dot other (by decide : '.' ∉ "mcp".toList)
    simp only [String.reduceAppend] at again
    rw [again] at cutting
    simpa [eq_comm] using cutting
  · intro read
    rw [same, read.1, read.2]
    rfl

theorem finds_federated (plain : router.resolver = none) (trimmed : trimSpace offer.toolName = offer.toolName)
    (registered : offer.server ∈ router.index.lookupTool offer.toolName)
    (valid : matchesServiceName offer.server.name = true) :
    router.Finds (federatedToolName offer.server offer.toolName) offer ↔
      RoutesBack router.index (displayName offer.server.name) offer := by
  have bare : offer.toolName ≠ "" := by
    rw [← trimmed]
    exact visible_of_lookupTool registered
  have answers : Answers offer.server (displayName offer.server.name) :=
    answers_displayName (by rw [trimSpace_of_matchesServiceName valid])
  have federated := federatedToolName_eq trimmed bare valid
  have whole := trimSpace_joined valid trimmed bare
  generalize displayName offer.server.name = shown at *
  rw [federated, RoutesBack]
  split_ifs
  · exact finds_raw offer trimmed registered
  by_cases unregistered : router.index.lookupTool (shown ++ "." ++ offer.toolName) = []
  · by_cases dotted : '.' ∈ shown.toList
    · obtain ⟨first, rest, same, absent⟩ := exists_first_dot dotted
      have joined : shown ++ "." ++ offer.toolName = first ++ "." ++ (rest ++ "." ++ offer.toolName) := by
        simp [same, String.append_assoc]
      rw [joined] at whole unregistered ⊢
      rw [finds_dotted plain registered whole unregistered absent]
      simp [unregistered, dotted, legacy_iff same absent]
    · rw [finds_undotted plain registered whole unregistered dotted answers]
      have unread (rest : String) : shown ≠ "mcp." ++ rest := by
        intro read
        simp [read] at dotted
      simp [unregistered, dotted, unread]
  · have direct : router.resolve (shown ++ "." ++ offer.toolName) = ⟨shown ++ "." ++ offer.toolName, ""⟩ := by
      simp [Router.resolve, resolveFederatedName, whole, unregistered]
    have longer := longer_name shown offer.toolName
    simp [Router.Finds, direct, longer, unregistered]

def NamesValid (index : CapabilityIndex) : Prop :=
  ∀ toolName, ∀ server ∈ index.lookupTool toolName, matchesServiceName server.name = true

theorem listed_name_routes_back_iff {context : ListingContext} (default : context.resolver = none)
    (indexed : router.index = context.index) (plain : router.resolver = none) (valid : NamesValid context.index)
    {ttl : Int} {prior : List ListingContext} {definition : ToolDefinition}
    (lists : context.Lists (.after ttl prior) offer definition) :
    router.Finds definition.name offer ↔ RoutesBack context.index (displayName offer.server.name) offer := by
  obtain ⟨registered, name⟩ := lists.name
  obtain ⟨trimmed, found⟩ := (context.mem_offers offer).mp registered
  have federated : context.nameOf offer = federatedToolName offer.server offer.toolName := by
    simp [ListingContext.nameOf, listedName, default]
  rw [finds_congr name, federated, ← indexed]
  exact finds_federated plain trimmed (by rwa [indexed]) (valid _ _ found)

end

theorem cluster_name_routes_back :
    (Sample.routing (Sample.clusters ["mcp-k8s", "db"] "" 0)).Finds "k8s.list_pods" (Sample.pods "mcp-k8s") := by
  have valid : NamesValid (Sample.clusters ["mcp-k8s", "db"] "" 0).index := by
    intro toolName server found
    obtain ⟨_, name, member, rfl⟩ := Sample.clusters_server (by decide) found
    have all : ∀ name ∈ ["mcp-k8s", "db"], matchesServiceName (Sample.pods name).server.name = true := by decide +kernel
    exact all name member
  have lists : (Sample.clusters ["mcp-k8s", "db"] "" 0).Lists (.after 0 []) (Sample.pods "mcp-k8s")
      ⟨"k8s.list_pods", "mcp-k8s", "", "", "", false, ""⟩ :=
    ⟨[], [Sample.pods "db"], by decide +kernel⟩
  refine (listed_name_routes_back_iff rfl rfl rfl valid lists).mpr ?_
  rw [RoutesBack, if_neg (by decide +kernel)]
  exact ⟨by decide +kernel, .inl (by decide +kernel)⟩

theorem listed_name_misroutes : (Sample.clusters ["k8s.prod"] "" 0).Lists (.after 0 []) (Sample.pods "k8s.prod")
        ⟨"k8s.prod.list_pods", "k8s.prod", "", "", "", false, ""⟩ ∧ matchesServiceName "k8s.prod" = true ∧
      ¬ (Sample.routing (Sample.clusters ["k8s.prod"] "" 0)).Finds "k8s.prod.list_pods" (Sample.pods "k8s.prod") ∧
      (Sample.clusters ["k8s", "mcp-k8s"] "" 0).Lists (.after 0 []) (Sample.pods "k8s")
        ⟨"k8s.list_pods", "k8s", "", "", "", false, ""⟩ ∧
      matchesServiceName "k8s" = true ∧ matchesServiceName "mcp-k8s" = true ∧ equalFold "k8s" "mcp-k8s" = false ∧
      ¬ (Sample.routing (Sample.clusters ["k8s", "mcp-k8s"] "" 0)).Finds "k8s.list_pods" (Sample.pods "k8s") :=
  ⟨⟨[], [], by decide +kernel⟩, by decide +kernel, by decide +kernel, ⟨[], [Sample.pods "mcp-k8s"], by decide +kernel⟩,
    by decide +kernel⟩

end McpGateway.Proxy
