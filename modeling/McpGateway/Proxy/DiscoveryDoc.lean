import McpGateway.Proxy.RoundTrip
import McpGateway.Registration.Host
import McpGateway.Registration.ServerListing

namespace McpGateway.Proxy

open Shared Registration

structure DiscoveryServerEntry where
  url : String
  name : String
  version : String
  status : String
  deriving DecidableEq, Repr, Inhabited

def serverKey (name : String) : String :=
  let key := trimPrefix (trimPrefix (trimSpace name) "mcp-") "mcp_"
  if key = "" then name else key

def discoveryServerEntry (baseUrl : String) (server : ServerRecord) : DiscoveryServerEntry where
  url := baseUrl ++ "/mcp/servers/" ++ serverKey server.name ++ "/"
  name := server.name
  version := server.version
  status := server.status.text

def discoveryAssignments (baseUrl : String) (servers : List ServerStats) : List (String × DiscoveryServerEntry) :=
  servers.map fun stats => (serverKey stats.record.name, discoveryServerEntry baseUrl stats.record)

-- The document before it is marshalled. The second loop copies the map in the order of its sorted keys.
def generate (baseUrl : String) (servers : List ServerStats) : GoMap String DiscoveryServerEntry :=
  let doc := (∅ : GoMap String DiscoveryServerEntry).insertAll (discoveryAssignments baseUrl servers)
  let keys := sortStrings (servers.map fun stats => serverKey stats.record.name)
  (∅ : GoMap String DiscoveryServerEntry).insertAll (keys.map fun key => (key, (doc.lookup key).getD default))

def lastSegment (url : String) : String :=
  String.ofList (((url.toList.reverse.dropWhile (· == '/')).takeWhile (· != '/')).reverse)

structure AdvertisedUrlsWork (index : CapabilityIndex) : Prop where
  one_each : ∀ (baseUrl : String) (toolOrder resourceOrder : List String), toolOrder.Perm index.tools.keys →
    resourceOrder.Perm index.resources.keys →
    (generate baseUrl (index.listServers toolOrder resourceOrder)).keys.length = index.serverIds.length
  resolves : ∀ (baseUrl : String) (toolOrder resourceOrder : List String), toolOrder.Perm index.tools.keys →
    resourceOrder.Perm index.resources.keys →
    ∀ gateway : Gateway, gateway.router.index = index → gateway.serverOrder.Perm index.tools.keys →
    ∀ key entry, (generate baseUrl (index.listServers toolOrder resourceOrder)).lookup key = some entry →
      ∃ server, gateway.virtualServer (lastSegment entry.url) = .ok server ∧ server.name = entry.name

def Accepted (admission : Admission) (record : ServerRecord) : Prop :=
  ∃ request : RegistrationRequest, request.validate admission = .ok () ∧
    record.name = trimSpace request.serviceName ∧ record.capabilities = request.capabilities

inductive Built (admission : Admission) : CapabilityIndex → Prop where
  | new : Built admission .new
  | add {index : CapabilityIndex} {record : ServerRecord} (built : Built admission index)
      (accepted : Accepted admission record) : Built admission (index.add record)
  | remove {index : CapabilityIndex} (built : Built admission index) (id : String) : Built admission (index.remove id)
  | replaceServer {index : CapabilityIndex} {record : ServerRecord} (built : Built admission index) (id : String)
      (accepted : Accepted admission record) : Built admission (index.replaceServer id record)

/-- Every server has a tool, its name is its own key and fits the endpoint, and in whatever order the tools are
ranged over, no two servers are met under one name and the same names are met. -/
structure Addressable (index : CapabilityIndex) : Prop where
  named : ∀ server, index.tools.Posted server →
    serverNamePattern server.name = true ∧ serverKey server.name = server.name
  tooled : ∀ server, index.resources.Posted server → ∃ other, index.tools.Posted other ∧ other.id = server.id
  distinct : ∀ order : List String, order.Perm index.tools.keys → ∀ left right,
    CapabilityIndex.MetFirst (index.rangeTools order) left → CapabilityIndex.MetFirst (index.rangeTools order) right →
    left.name = right.name → left.id = right.id
  steady : ∀ order other : List String, order.Perm index.tools.keys → other.Perm index.tools.keys → ∀ server,
    CapabilityIndex.MetFirst (index.rangeTools order) server →
    ∃ same, CapabilityIndex.MetFirst (index.rangeTools other) same ∧ same.name = server.name

theorem matchesServiceName_of_validate {admission : Admission} {request : RegistrationRequest}
    (valid : request.validate admission = .ok ()) : matchesServiceName (trimSpace request.serviceName) = true := by
  cases named : matchesServiceName (trimSpace request.serviceName) with
  | true => rfl
  | false =>
    simp [RegistrationRequest.validate, named, throw, throwThe, MonadExceptOf.throw, bind, Except.bind] at valid

theorem Accepted.matchesServiceName {admission : Admission} {record : ServerRecord}
    (accepted : Accepted admission record) : matchesServiceName record.name = true := by
  obtain ⟨request, valid, named, _⟩ := accepted
  rw [named]
  exact matchesServiceName_of_validate valid

theorem Built.held {admission : Admission} {index : CapabilityIndex} (built : Built admission index) :
    ∀ server, index.Holds server → server.isRoutable = true ∧ matchesServiceName server.name = true := by
  induction built with
  | new =>
    intro server held
    simp [CapabilityIndex.Holds, CapabilityIndex.new, Postings.Posted] at held
  | add built accepted ih =>
    intro server held
    cases CapabilityIndex.holds_add held with
    | inl added => exact added.1 ▸ ⟨added.2, accepted.matchesServiceName⟩
    | inr before => exact ih server before
  | remove built id ih =>
    intro server held
    exact ih server ((CapabilityIndex.holds_remove_iff _ id server).mp held).1
  | replaceServer built id accepted ih =>
    intro server held
    cases CapabilityIndex.holds_replaceServer held with
    | inl added => exact added.1 ▸ ⟨added.2, accepted.matchesServiceName⟩
    | inr before => exact ih server before

section

variable {name : String}

theorem serverKey_suffix (trimmed : trimSpace name = name) : (serverKey name).toList <:+ name.toList := by
  simp only [serverKey, trimmed]
  split_ifs
  · exact List.suffix_refl _
  · exact (trimPrefix_suffix _ _).trans (trimPrefix_suffix _ _)

theorem serverKey_ne_empty (named : name ≠ "") : serverKey name ≠ "" := by
  simp only [serverKey]
  split_ifs with blank
  · exact named
  · exact blank

theorem lastSegment_url (baseUrl : String) {key : String} (nonempty : key ≠ "") (plain : '/' ∉ key.toList) :
    lastSegment (baseUrl ++ "/mcp/servers/" ++ key ++ "/") = key := by
  have reversed : (baseUrl ++ "/mcp/servers/" ++ key ++ "/").toList.reverse =
      '/' :: (key.toList.reverse ++ '/' :: (baseUrl ++ "/mcp/servers").toList.reverse) := by
    simp [String.toList_append]
  have drop : ('/' :: (key.toList.reverse ++ '/' :: (baseUrl ++ "/mcp/servers").toList.reverse)).dropWhile (· == '/') =
      key.toList.reverse ++ '/' :: (baseUrl ++ "/mcp/servers").toList.reverse := by
    cases runes : key.toList.reverse with
    | nil => simp_all
    | cons first rest =>
      have other : first ≠ '/' := by
        rintro rfl
        exact plain (List.mem_reverse.mp (by simp [runes]))
      simp [other]
  have take : (key.toList.reverse ++ '/' :: (baseUrl ++ "/mcp/servers").toList.reverse).takeWhile (· != '/') =
      key.toList.reverse := by
    rw [List.takeWhile_append_of_pos]
    · simp
    · intro c mem
      have other : c ≠ '/' := by
        rintro rfl
        exact plain (List.mem_reverse.mp mem)
      simp [other]
  rw [lastSegment, reversed, drop, take]
  simp

theorem slash_of_matchesServiceName (valid : matchesServiceName name = true) : '/' ∉ name.toList := by
  intro mem
  have allowed := runes_of_matchesServiceName valid '/' mem
  simp [isAlphanumeric] at allowed

theorem lastSegment_entry (baseUrl : String) {server : ServerRecord} (valid : matchesServiceName server.name = true) :
    lastSegment (discoveryServerEntry baseUrl server).url = serverKey server.name := by
  have trimmed := trimSpace_of_matchesServiceName valid
  refine lastSegment_url baseUrl (serverKey_ne_empty (ne_empty_of_matchesServiceName valid)) fun mem => ?_
  exact slash_of_matchesServiceName valid ((serverKey_suffix trimmed).subset mem)

theorem length_of_equalFold {left right : String} (same : equalFold left right = true) :
    left.toList.length = right.toList.length := by
  have lengths := congrArg List.length (beq_iff_eq.mp same)
  simpa using lengths

theorem serverKey_eq_self (valid : matchesServiceName name = true) (same : equalFold name (serverKey name) = true) :
    serverKey name = name := by
  have suffix := serverKey_suffix (trimSpace_of_matchesServiceName valid)
  exact String.toList_inj.mp (suffix.eq_of_length (length_of_equalFold same).symm)

theorem runes_of_serverNamePattern (valid : serverNamePattern name = true) :
    ∀ c ∈ name.toList, (isLowerAlphanumeric c || c == '_' || c == '-') = true := by
  intro c mem
  simp only [serverNamePattern] at valid
  cases runes : name.toList with
  | nil => simp [runes] at valid
  | cons first rest =>
    simp only [runes, Bool.and_eq_true, decide_eq_true_eq, List.all_eq_true] at valid
    simp only [runes, List.mem_cons] at mem
    cases mem with
    | inl here => simp [here, valid.1.1]
    | inr later => exact valid.2 c later

theorem foldRune_of_serverNamePattern (valid : serverNamePattern name = true) : ∀ c ∈ name.toList, foldRune c = c := by
  intro c mem
  have allowed := runes_of_serverNamePattern valid c mem
  have range : c.toNat < 0x80 ∧ ¬ (0x41 ≤ c.toNat ∧ c.toNat ≤ 0x5A) := by
    simp only [isLowerAlphanumeric, Bool.or_eq_true, Bool.and_eq_true, decide_eq_true_eq, beq_iff_eq, char_le_iff,
      Char.reduceToNat] at allowed
    obtain ((letter | rfl) | rfl) := allowed
    · omega
    all_goals decide
  simp [foldRune, lowerRune, range.1]
  omega

theorem eq_of_equalFold {left right : String} (valid : serverNamePattern left = true)
    (also : serverNamePattern right = true) (same : equalFold left right = true) : left = right := by
  have folded (s : String) (valid : serverNamePattern s = true) : s.toList.map foldRune = s.toList :=
    (List.map_congr_left (foldRune_of_serverNamePattern valid)).trans (List.map_id' _)
  have runes := beq_iff_eq.mp same
  rw [folded left valid, folded right also] at runes
  exact String.toList_inj.mp runes

end

theorem Gateway.virtualServer_eq_ok (gateway : Gateway) (serverName : String) (server : ServerRecord) :
    gateway.virtualServer serverName = .ok server ↔ serverNamePattern (trimSpace serverName) = true ∧
        gateway.router.index.lookupServer gateway.serverOrder (trimSpace serverName) = some server ∧
        server.isRoutable = true := by
  rw [← Option.mem_def (a := server), ← gateway.mem_virtualServer serverName server]
  cases gateway.virtualServer serverName with
  | error cause => simp [Except.toOption]
  | ok found => simp [Except.toOption, eq_comm]

section

variable (baseUrl : String) (servers : List ServerStats)

theorem generate_lookup (key : String) : (generate baseUrl servers).lookup key =
      ((∅ : GoMap String DiscoveryServerEntry).insertAll (discoveryAssignments baseUrl servers)).lookup key := by
  have sorted : ∀ name, name ∈ sortStrings (servers.map fun stats => serverKey stats.record.name) ↔
      name ∈ (discoveryAssignments baseUrl servers).map Prod.fst := by
    simp [sortStrings, discoveryAssignments]
  ext entry
  constructor
  · intro copied
    have mem := GoMap.mem_of_lookup_insertAll copied
    simp only [List.mem_map, Prod.mk.injEq] at mem
    obtain ⟨name, listed, rfl, rfl⟩ := mem
    obtain ⟨entry, found⟩ := GoMap.exists_lookup_insertAll ((sorted name).mp listed)
    simp [found]
  · intro found
    have listed : key ∈ (discoveryAssignments baseUrl servers).map Prod.fst :=
      List.mem_map_of_mem (GoMap.mem_of_lookup_insertAll found)
    obtain ⟨copied, lookup⟩ : ∃ copied, (generate baseUrl servers).lookup key = some copied := by
      apply GoMap.exists_lookup_insertAll
      simpa using (sorted key).mpr listed
    have mem := GoMap.mem_of_lookup_insertAll lookup
    simp only [List.mem_map, Prod.mk.injEq] at mem
    obtain ⟨name, _, rfl, rfl⟩ := mem
    rw [lookup, found]
    rfl

theorem generate_length_iff : (generate baseUrl servers).keys.length = servers.length ↔
      (servers.map fun stats => serverKey stats.record.name).Nodup := by
  have perm : (generate baseUrl servers).keys.Perm
      ((∅ : GoMap String DiscoveryServerEntry).insertAll (discoveryAssignments baseUrl servers)).keys := by
    refine (List.perm_ext_iff_of_nodup (AList.keys_nodup _) (AList.keys_nodup _)).mpr fun key => ?_
    rw [← AList.mem_keys, ← AList.mem_keys, ← AList.lookup_isSome, ← AList.lookup_isSome, generate_lookup]
  have assigned : (discoveryAssignments baseUrl servers).length = servers.length := List.length_map _
  rw [perm.length_eq, ← assigned, GoMap.length_keys_insertAll_iff]
  simp [discoveryAssignments, List.map_map, Function.comp_def]

end

section

variable {admission : Admission} {index : CapabilityIndex} {toolOrder resourceOrder serverOrder : List String}
  {server : ServerRecord}

open CapabilityIndex (MetFirst)

theorem lookupServer_some {target : String} (found : index.lookupServer serverOrder target = some server) :
    equalFold (trimSpace server.name) (trimSpace target) = true ∧ MetFirst (index.rangeTools serverOrder) server := by
  unfold CapabilityIndex.lookupServer at found
  split_ifs at found
  exact (CapabilityIndex.scanServers_some found).2

theorem exists_lookupServer {target : String} (named : trimSpace target ≠ "")
    (same : equalFold (trimSpace server.name) (trimSpace target) = true)
    (first : MetFirst (index.rangeTools serverOrder) server) :
    ∃ found, index.lookupServer serverOrder target = some found := by
  unfold CapabilityIndex.lookupServer
  rw [if_neg named]
  exact Option.ne_none_iff_exists'.mp (CapabilityIndex.scanServers_ne_none (by simp) same first)

theorem Built.held_of_metFirst (built : Built admission index) (tools : toolOrder.Perm index.tools.keys)
    (resources : resourceOrder.Perm index.resources.keys)
    (first : MetFirst (index.rangeTools toolOrder ++ index.rangeResources resourceOrder) server) :
    server.isRoutable = true ∧ matchesServiceName server.name = true := by
  apply built.held server
  cases List.mem_append.mp first.mem with
  | inl mem => exact .inl ((CapabilityIndex.mem_rangeTools tools server).mp mem)
  | inr mem => exact .inr ((CapabilityIndex.mem_rangeResources resources server).mp mem)

theorem metFirst_tools (resourceOrder : List String) (first : MetFirst (index.rangeTools toolOrder) server) :
    MetFirst (index.rangeTools toolOrder ++ index.rangeResources resourceOrder) server :=
  (CapabilityIndex.metFirst_append_iff _).mpr (.inl first)

def servingGateway (index : CapabilityIndex) (serverOrder : List String) : Gateway where
  router := ⟨index, roundRobin 0, none, none⟩
  serverOrder := serverOrder
  users := none
  scopeEnforced := false
  registry := ⟨[], [], false, false⟩

namespace AdvertisedUrlsWork

theorem keys_nodup (work : AdvertisedUrlsWork index) (tools : toolOrder.Perm index.tools.keys)
    (resources : resourceOrder.Perm index.resources.keys) :
    ((index.listServers toolOrder resourceOrder).map fun stats => serverKey stats.record.name).Nodup := by
  rw [← generate_length_iff "", work.one_each "" toolOrder resourceOrder tools resources]
  exact (CapabilityIndex.length_listServers tools resources).symm

theorem id_eq (work : AdvertisedUrlsWork index) (tools : toolOrder.Perm index.tools.keys)
    (resources : resourceOrder.Perm index.resources.keys) {other : ServerRecord}
    (first : MetFirst (index.rangeTools toolOrder ++ index.rangeResources resourceOrder) server)
    (also : MetFirst (index.rangeTools toolOrder ++ index.rangeResources resourceOrder) other)
    (same : server.name = other.name) : server.id = other.id := by
  obtain ⟨stats, listed, rfl⟩ := List.mem_map.mp ((CapabilityIndex.mem_listServers _ _ _ _).mpr first)
  obtain ⟨others, shown, rfl⟩ := List.mem_map.mp ((CapabilityIndex.mem_listServers _ _ _ _).mpr also)
  have equal := List.inj_on_of_nodup_map (work.keys_nodup tools resources) listed shown (by rw [same])
  rw [equal]

theorem listed (work : AdvertisedUrlsWork index) (built : Built admission index)
    (tools : toolOrder.Perm index.tools.keys) (resources : resourceOrder.Perm index.resources.keys)
    (searched : serverOrder.Perm index.tools.keys)
    (first : MetFirst (index.rangeTools toolOrder ++ index.rangeResources resourceOrder) server) :
    (serverNamePattern server.name = true ∧ serverKey server.name = server.name) ∧
      ∃ found, MetFirst (index.rangeTools serverOrder) found ∧ found.name = server.name := by
  have valid := (built.held_of_metFirst tools resources first).2
  have trimmed := trimSpace_of_matchesServiceName valid
  obtain ⟨stats, listed, rfl⟩ := List.mem_map.mp ((CapabilityIndex.mem_listServers _ _ _ _).mpr first)
  -- no other server has the same key, so the document still has this server's entry
  have entry : (generate "" (index.listServers toolOrder resourceOrder)).lookup (serverKey stats.record.name) =
      some (discoveryServerEntry "" stats.record) := by
    rw [generate_lookup]
    apply GoMap.lookup_insertAll_of_nodup
    · simpa [discoveryAssignments, List.map_map, Function.comp_def] using work.keys_nodup tools resources
    · exact List.mem_map.mpr ⟨stats, listed, rfl⟩
  obtain ⟨found, served, named⟩ := work.resolves "" toolOrder resourceOrder tools resources
    (servingGateway index serverOrder) rfl searched _ _ entry
  rw [lastSegment_entry "" valid, Gateway.virtualServer_eq_ok] at served
  obtain ⟨pattern, lookup, _⟩ := served
  have visible : ∀ c ∈ (serverKey stats.record.name).toList, isSpace c = false := fun c mem =>
    visible_of_matchesServiceName valid c ((serverKey_suffix trimmed).subset mem)
  have key : trimSpace (serverKey stats.record.name) = serverKey stats.record.name := trimSpace_eq_self _ visible
  obtain ⟨folded, met⟩ := lookupServer_some lookup
  have name : found.name = stats.record.name := named
  rw [trimSpace_trimSpace, key, name, trimmed] at folded
  have whole := serverKey_eq_self valid folded
  rw [key, whole] at pattern
  exact ⟨⟨pattern, whole⟩, found, met, name⟩

theorem addressable (work : AdvertisedUrlsWork index) (built : Built admission index) : Addressable index where
  named := by
    intro server posted
    obtain ⟨order, ranged, first⟩ := posted.met_first
    exact (work.listed built ranged (.refl _) (.refl _) (metFirst_tools index.resources.keys first)).1
  tooled := by
    intro server posted
    obtain ⟨order, ranged, first⟩ := posted.met_first
    by_contra unheld
    push Not at unheld
    have fresh : ∀ met ∈ index.rangeTools index.tools.keys, met.id ≠ server.id := fun met mem =>
      unheld met ((CapabilityIndex.mem_rangeTools (.refl _) met).mp mem)
    have met : MetFirst (index.rangeTools index.tools.keys ++ index.rangeResources order) server :=
      (CapabilityIndex.metFirst_append_iff _).mpr (.inr ⟨fresh, first⟩)
    -- the search ends at a server with tools, which has an entry of its own under the same name
    obtain ⟨_, found, tooled, named⟩ := work.listed built (.refl _) ranged (.refl _) met
    exact fresh found tooled.mem (work.id_eq (.refl _) ranged (metFirst_tools order tooled) met named)
  distinct := by
    intro order ranged left right first also same
    exact work.id_eq ranged (.refl _) (metFirst_tools index.resources.keys first) (metFirst_tools _ also) same
  steady := by
    intro order other ranged searched server first
    exact (work.listed built ranged (.refl _) searched (metFirst_tools index.resources.keys first)).2

end AdvertisedUrlsWork

namespace Addressable

theorem metFirst (addressable : Addressable index) (tools : toolOrder.Perm index.tools.keys)
    (resources : resourceOrder.Perm index.resources.keys)
    (first : MetFirst (index.rangeTools toolOrder ++ index.rangeResources resourceOrder) server) :
    MetFirst (index.rangeTools toolOrder) server := by
  cases (CapabilityIndex.metFirst_append_iff _).mp first with
  | inl tooled => exact tooled
  | inr later =>
    have posted := (CapabilityIndex.mem_rangeResources resources server).mp later.2.mem
    obtain ⟨other, filed, same⟩ := addressable.tooled server posted
    exact absurd same (later.1 other ((CapabilityIndex.mem_rangeTools tools other).mpr filed))

theorem of_metFirst (addressable : Addressable index) (tools : toolOrder.Perm index.tools.keys)
    (first : MetFirst (index.rangeTools toolOrder) server) :
    serverNamePattern server.name = true ∧ serverKey server.name = server.name :=
  addressable.named server ((CapabilityIndex.mem_rangeTools tools server).mp first.mem)

theorem keys_nodup (addressable : Addressable index) (tools : toolOrder.Perm index.tools.keys)
    (resources : resourceOrder.Perm index.resources.keys) :
    ((index.listServers toolOrder resourceOrder).map fun stats => serverKey stats.record.name).Nodup := by
  have ids := CapabilityIndex.listServers_ids_nodup index toolOrder resourceOrder
  have met (stats : ServerStats) (listed : stats ∈ index.listServers toolOrder resourceOrder) :
      MetFirst (index.rangeTools toolOrder) stats.record :=
    addressable.metFirst tools resources ((CapabilityIndex.mem_listServers _ _ _ _).mp (List.mem_map_of_mem listed))
  refine List.Nodup.map_on ?_ (List.Nodup.of_map _ ids)
  intro left listed right shown same
  have first := met left listed
  have also := met right shown
  rw [(addressable.of_metFirst tools first).2, (addressable.of_metFirst tools also).2] at same
  exact List.inj_on_of_nodup_map ids listed shown (addressable.distinct toolOrder tools _ _ first also same)

theorem found (addressable : Addressable index) (built : Built admission index)
    (tools : toolOrder.Perm index.tools.keys) {gateway : Gateway} (indexed : gateway.router.index = index)
    (searched : gateway.serverOrder.Perm index.tools.keys) (first : MetFirst (index.rangeTools toolOrder) server) :
    ∃ found, gateway.virtualServer server.name = .ok found ∧ found.name = server.name := by
  subst indexed
  have pattern := (addressable.of_metFirst tools first).1
  have accepted {order : List String} (ranged : order.Perm gateway.router.index.tools.keys) {met : ServerRecord}
      (first : MetFirst (gateway.router.index.rangeTools order) met) :=
    built.held_of_metFirst ranged (.refl _) (metFirst_tools gateway.router.index.resources.keys first)
  have valid := (accepted tools first).2
  have trimmed := trimSpace_of_matchesServiceName valid
  obtain ⟨same, met, named⟩ := addressable.steady toolOrder gateway.serverOrder tools searched server first
  have asked : trimSpace (trimSpace server.name) ≠ "" := by
    simpa [trimmed] using ne_empty_of_matchesServiceName valid
  obtain ⟨found, lookup⟩ := exists_lookupServer asked (by simp [named, trimmed]) met
  obtain ⟨folded, reached⟩ := lookupServer_some lookup
  have routable := accepted searched reached
  have plain := (addressable.of_metFirst searched reached).1
  rw [trimSpace_trimSpace, trimmed, trimSpace_of_matchesServiceName routable.2] at folded
  refine ⟨found, (gateway.virtualServer_eq_ok _ _).mpr ⟨?_, lookup, routable.1⟩, eq_of_equalFold plain pattern folded⟩
  rw [trimmed]
  exact pattern

theorem urlsWork (addressable : Addressable index) (built : Built admission index) : AdvertisedUrlsWork index where
  one_each := by
    intro baseUrl toolOrder resourceOrder tools resources
    rw [← CapabilityIndex.length_listServers tools resources, generate_length_iff]
    exact addressable.keys_nodup tools resources
  resolves := by
    intro baseUrl toolOrder resourceOrder tools resources gateway indexed searched key entry shown
    rw [generate_lookup] at shown
    have mem := GoMap.mem_of_lookup_insertAll shown
    simp only [discoveryAssignments, List.mem_map, Prod.mk.injEq] at mem
    obtain ⟨stats, listed, rfl, rfl⟩ := mem
    have first := (CapabilityIndex.mem_listServers _ _ _ _).mp (List.mem_map_of_mem listed)
    have valid := (built.held_of_metFirst tools resources first).2
    have tooled := addressable.metFirst tools resources first
    rw [lastSegment_entry baseUrl valid, (addressable.of_metFirst tools tooled).2]
    exact addressable.found built tools indexed searched tooled

end Addressable

theorem advertised_urls_work_iff (built : Built admission index) : AdvertisedUrlsWork index ↔ Addressable index :=
  ⟨fun work => work.addressable built, fun addressable => addressable.urlsWork built⟩

end

namespace Sample

def registering (name : String) : RegistrationRequest :=
  ⟨name, "1.4.0", ⟨"10.0.3.7", 8443, "https"⟩, ⟨["list_pods"], [], []⟩⟩

def advertised (name : String) : CapabilityIndex := CapabilityIndex.new.add (pods name).server

theorem advertised_built {name : String} (trimmed : trimSpace name = name)
    (valid : (registering name).validate admission = .ok ()) : Built admission (advertised name) :=
  .add .new ⟨registering name, valid, trimmed.symm, rfl⟩

end Sample

theorem short_name_advertised : Built admission (Sample.advertised "k8s") ∧ Addressable (Sample.advertised "k8s") ∧
      AdvertisedUrlsWork (Sample.advertised "k8s") := by
  have built : Built admission (Sample.advertised "k8s") := Sample.advertised_built (by decide) (by decide +kernel)
  have keys : (Sample.advertised "k8s").tools.keys = ["list_pods"] := by decide +kernel
  have ranged : (Sample.advertised "k8s").rangeTools ["list_pods"] = [(Sample.pods "k8s").server] := by decide +kernel
  have only {order : List String} (perm : order.Perm (Sample.advertised "k8s").tools.keys) {server : ServerRecord}
      (mem : server ∈ (Sample.advertised "k8s").rangeTools order) : server = (Sample.pods "k8s").server := by
    rw [keys, List.perm_singleton] at perm
    simpa [perm, ranged] using mem
  have addressable : Addressable (Sample.advertised "k8s") := by
    constructor
    · intro server posted
      rw [only (.refl _) ((CapabilityIndex.mem_rangeTools (.refl _) server).mpr posted)]
      decide +kernel
    · intro server posted
      have none : (Sample.advertised "k8s").rangeResources (Sample.advertised "k8s").resources.keys = [] := by
        decide +kernel
      have mem := (CapabilityIndex.mem_rangeResources (.refl _) server).mpr posted
      simp [none] at mem
    · intro order perm left right first also _
      rw [only perm first.mem, only perm also.mem]
    · intro order other perm also server first
      rw [only perm first.mem]
      refine ⟨(Sample.pods "k8s").server, ?_, rfl⟩
      rw [keys, List.perm_singleton] at also
      rw [also]
      decide +kernel
  exact ⟨built, addressable, (advertised_urls_work_iff built).mpr addressable⟩

theorem advertised_url_not_found : Built admission (Sample.advertised "mcp-k8s") ∧
      (generate "https://gw" ((Sample.advertised "mcp-k8s").listServers ["list_pods"] [])).lookup "k8s" =
        some ⟨"https://gw/mcp/servers/k8s/", "mcp-k8s", "1.4.0", "active"⟩ ∧
      (servingGateway (Sample.advertised "mcp-k8s") ["list_pods"]).virtualServer
        (lastSegment "https://gw/mcp/servers/k8s/") = .error (.notFound "k8s") ∧
      ¬ AdvertisedUrlsWork (Sample.advertised "mcp-k8s") := by
  have keys : (Sample.advertised "mcp-k8s").tools.keys = ["list_pods"] ∧
      (Sample.advertised "mcp-k8s").resources.keys = [] := by decide +kernel
  have shown : (generate "https://gw" ((Sample.advertised "mcp-k8s").listServers ["list_pods"] [])).lookup "k8s" =
      some ⟨"https://gw/mcp/servers/k8s/", "mcp-k8s", "1.4.0", "active"⟩ := by decide +kernel
  have missed : (servingGateway (Sample.advertised "mcp-k8s") ["list_pods"]).virtualServer
      (lastSegment "https://gw/mcp/servers/k8s/") = .error (.notFound "k8s") := by decide +kernel
  refine ⟨Sample.advertised_built (by decide) (by decide +kernel), shown, missed, ?_⟩
  intro work
  obtain ⟨server, served, _⟩ := work.resolves "https://gw" ["list_pods"] [] (by rw [keys.1]) (by rw [keys.2])
    (servingGateway (Sample.advertised "mcp-k8s") ["list_pods"]) rfl (by rw [keys.1]; rfl) "k8s" _ shown
  rw [missed] at served
  cases served

end McpGateway.Proxy
