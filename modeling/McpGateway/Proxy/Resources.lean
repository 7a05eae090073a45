import McpGateway.Proxy.Endpoints

namespace McpGateway.Registration

open Shared

def CapabilityIndex.listResources (index : CapabilityIndex) : List String :=
  sortStrings index.resources.keys

end McpGateway.Registration

namespace McpGateway.Proxy

open Shared Registration

structure ResourceDefinition where
  uri : String
  name : String
  description : String
  mimeType : String

abbrev ResourceListing := String → Option (List ResourceDefinition)

def deduplicateServers (index : CapabilityIndex) (registered : List String) : GoMap String ServerRecord :=
  GoMap.addMissing ∅ ((registered.flatMap index.lookupResource).map fun server => (server.id, server))

def collectResources (listing : ResourceListing) (servers : List ServerRecord) : GoMap String ResourceDefinition :=
  servers.foldl (fun resources server => resources.addMissing
    (((listing server.id).getD []).map fun resource => (resource.uri, resource))) ∅

def handleListResources (index : CapabilityIndex) (listing : ResourceListing) : List ResourceDefinition :=
  let serverById := deduplicateServers index index.listResources
  let resourcesByUri := collectResources listing ((sortStrings serverById.keys).filterMap serverById.lookup)
  (sortStrings resourcesByUri.keys).filterMap resourcesByUri.lookup

theorem mem_sortStrings {name : String} {names : List String} : name ∈ sortStrings names ↔ name ∈ names :=
  List.mem_insertionSort _

theorem mem_sorted_lookup {V : Type} {entries : GoMap String V} {value : V} :
    value ∈ (sortStrings entries.keys).filterMap entries.lookup ↔ ∃ key, entries.lookup key = some value := by
  rw [List.mem_filterMap]
  constructor
  · intro listed
    obtain ⟨key, -, found⟩ := listed
    exact ⟨key, found⟩
  · intro held
    obtain ⟨key, found⟩ := held
    refine ⟨key, mem_sortStrings.mpr ?_, found⟩
    exact AList.lookup_isSome.mp (Option.isSome_iff_exists.mpr ⟨value, found⟩)

variable {uri : String}

section

variable {index : CapabilityIndex} {listing : ResourceListing}

variable {registered : List String} {server : ServerRecord} {servers : List ServerRecord}

theorem lookup_deduplicateServers {id : String}
    (found : (deduplicateServers index registered).lookup id = some server) :
    server.id = id ∧ server ∈ registered.flatMap index.lookupResource := by
  cases GoMap.lookup_addMissing found with
  | inl assigned =>
    obtain ⟨own, mem, same⟩ := List.mem_map.mp assigned
    cases same
    exact ⟨rfl, mem⟩
  | inr before => simp at before

theorem exists_deduplicateServers (mem : server ∈ registered.flatMap index.lookupResource) :
    ∃ first, (deduplicateServers index registered).lookup server.id = some first := by
  refine Option.isSome_iff_exists.mp (AList.lookup_isSome.mpr ?_)
  refine (GoMap.mem_addMissing _ _ _).mpr (.inr ?_)
  exact List.mem_map.mpr ⟨(server.id, server), List.mem_map_of_mem mem, rfl⟩

theorem collectResources_append (servers : List ServerRecord) (server : ServerRecord) :
    collectResources listing (servers ++ [server]) = (collectResources listing servers).addMissing
      (((listing server.id).getD []).map fun resource => (resource.uri, resource)) := by
  simp [collectResources]

theorem lookup_collectResources {resource : ResourceDefinition}
    (found : (collectResources listing servers).lookup uri = some resource) :
    resource.uri = uri ∧ ∃ server ∈ servers, resource ∈ (listing server.id).getD [] := by
  induction servers using List.reverseRecOn with
  | nil => simp [collectResources] at found
  | append_singleton servers server ih =>
    rw [collectResources_append] at found
    cases GoMap.lookup_addMissing found with
    | inl assigned =>
      obtain ⟨own, mem, same⟩ := List.mem_map.mp assigned
      cases same
      exact ⟨rfl, server, by simp, mem⟩
    | inr before =>
      obtain ⟨named, other, mem, own⟩ := ih before
      exact ⟨named, other, List.mem_append_left _ mem, own⟩

theorem mem_collectResources_iff : uri ∈ collectResources listing servers ↔
      ∃ server ∈ servers, ∃ resource ∈ (listing server.id).getD [], resource.uri = uri := by
  induction servers using List.reverseRecOn with
  | nil => simp [collectResources]
  | append_singleton servers server ih =>
    rw [collectResources_append, GoMap.mem_addMissing, ih]
    constructor
    · intro listed
      cases listed with
      | inl prior =>
        obtain ⟨other, mem, own⟩ := prior
        exact ⟨other, List.mem_append_left _ mem, own⟩
      | inr last =>
        obtain ⟨_, assigned, rfl⟩ := List.mem_map.mp last
        obtain ⟨resource, own, rfl⟩ := List.mem_map.mp assigned
        exact ⟨server, by simp, resource, own, rfl⟩
    · intro listed
      obtain ⟨other, mem, resource, own, rfl⟩ := listed
      cases List.mem_append.mp mem with
      | inl prior => exact .inl ⟨other, prior, resource, own, rfl⟩
      | inr last =>
        cases List.mem_singleton.mp last
        exact .inr (List.mem_map.mpr ⟨_, List.mem_map_of_mem own, rfl⟩)

theorem listed_uri_iff (index : CapabilityIndex) (listing : ResourceListing) (uri : String) :
    (∃ resource ∈ handleListResources index listing, resource.uri = uri) ↔
      ∃ registered ∈ index.resources.keys, ∃ server ∈ index.lookupResource registered,
        ∃ resource ∈ (listing server.id).getD [], resource.uri = uri := by
  have servers (server : ServerRecord) : server ∈ index.listResources.flatMap index.lookupResource ↔
      ∃ registered ∈ index.resources.keys, server ∈ index.lookupResource registered := by
    simp [CapabilityIndex.listResources, mem_sortStrings]
  constructor
  · intro listed
    obtain ⟨resource, mem, rfl⟩ := listed
    obtain ⟨uri, held⟩ := mem_sorted_lookup.mp mem
    obtain ⟨-, server, known, own⟩ := lookup_collectResources held
    obtain ⟨id, found⟩ := mem_sorted_lookup.mp known
    obtain ⟨registered, key, filed⟩ := (servers server).mp (lookup_deduplicateServers found).2
    exact ⟨registered, key, server, filed, resource, own, rfl⟩
  · intro offered
    obtain ⟨registered, key, server, filed, resource, own, rfl⟩ := offered
    obtain ⟨first, found⟩ := exists_deduplicateServers ((servers server).mpr ⟨registered, key, filed⟩)
    have same := (lookup_deduplicateServers found).1
    have collected := mem_collectResources_iff.mpr
      ⟨first, mem_sorted_lookup.mpr ⟨server.id, found⟩, resource, same ▸ own, rfl⟩
    obtain ⟨held, lookup⟩ := Option.isSome_iff_exists.mp (AList.lookup_isSome.mpr collected)
    exact ⟨held, mem_sorted_lookup.mpr ⟨_, lookup⟩, (lookup_collectResources lookup).1⟩

end

def FiledLongest (index : CapabilityIndex) (uri : String) (server : ServerRecord) : Prop :=
  ∃ registered ∈ index.resources.keys, registered ≠ "" ∧ hasPrefix (trimSpace uri) registered = true ∧
    (∀ other ∈ index.resources.keys, hasPrefix (trimSpace uri) other = true →
      other.toList.length ≤ registered.toList.length) ∧
    (index.resources.bucket registered).head? = some server

theorem lookupResource_eq (index : CapabilityIndex) (present : trimSpace uri ≠ "") :
    index.lookupResource (trimSpace uri) =
      if longestPrefix (trimSpace uri) index.resources.keys = "" then []
      else index.resources.bucket (longestPrefix (trimSpace uri) index.resources.keys) := by
  unfold CapabilityIndex.lookupResource
  rw [trimSpace_trimSpace, if_neg present]
  split
  next missing => rw [if_pos missing]
  next found => rw [if_neg found]

theorem handleReadResource_ok_iff (index : CapabilityIndex) (uri : String) (server : ServerRecord) :
    handleReadResource index uri = .ok server ↔ FiledLongest index uri server := by
  have longest := longestPrefix_correct (trimSpace uri) index.resources.keys
  constructor
  · intro read
    unfold handleReadResource at read
    split_ifs at read with blank
    rw [lookupResource_eq index blank] at read
    split at read
    · cases read
    next first rest bucket =>
      cases read
      split_ifs at bucket with missing
      refine ⟨_, longest.known.resolve_left missing, missing, longest.matching, longest.longest, ?_⟩
      rw [bucket, List.head?_cons]
  · intro filed
    obtain ⟨registered, key, named, matching, most, first⟩ := filed
    have same : longestPrefix (trimSpace uri) index.resources.keys = registered :=
      longest.unique ⟨.inr key, matching, most⟩ fun _ => Iff.rfl
    have present : trimSpace uri ≠ "" := by
      intro blank
      obtain ⟨rest, split⟩ := (hasPrefix_iff _ _).mp matching
      rw [blank] at split
      exact named (String.append_eq_empty_iff.mp split.symm).1
    have filed : index.lookupResource (trimSpace uri) = index.resources.bucket registered := by
      rw [lookupResource_eq index present, same, if_neg named]
    unfold handleReadResource
    rw [if_neg present, filed]
    cases bucket : index.resources.bucket registered with
    | nil => simp [bucket] at first
    | cons head tail =>
      rw [bucket] at first
      cases first
      rfl

def Offers (catalogs : String → List ResourceDefinition) (server : ServerRecord) (uri : String) : Prop :=
  uri ∈ (catalogs server.id).map ResourceDefinition.uri

instance (catalogs : String → List ResourceDefinition) (server : ServerRecord) (uri : String) :
    Decidable (Offers catalogs server uri) :=
  inferInstanceAs (Decidable (_ ∈ _))

/-- Every resource that is listed is read from a server that has it exactly if, for every URI in a catalog that is
listed, the server filed first under the longest registered prefix has it too. -/
theorem listed_resources_readable_iff (index : CapabilityIndex) (catalogs : String → List ResourceDefinition) :
    (∀ resource ∈ handleListResources index fun id => some (catalogs id),
        ∃ server, handleReadResource index resource.uri = .ok server ∧ Offers catalogs server resource.uri) ↔
      ∀ registered ∈ index.resources.keys, ∀ server ∈ index.lookupResource registered,
        ∀ uri, Offers catalogs server uri → ∃ owner, FiledLongest index uri owner ∧ Offers catalogs owner uri := by
  have listed := listed_uri_iff index fun id => some (catalogs id)
  simp only [handleReadResource_ok_iff]
  constructor
  · intro readable registered key server filed uri offered
    obtain ⟨own, mem, same⟩ := List.mem_map.mp offered
    obtain ⟨resource, shown, rfl⟩ := (listed uri).mpr ⟨registered, key, server, filed, own, mem, same⟩
    exact readable resource shown
  · intro owned resource shown
    obtain ⟨registered, key, server, filed, own, mem, same⟩ := (listed resource.uri).mp ⟨resource, shown, rfl⟩
    exact owned registered key server filed resource.uri (List.mem_map.mpr ⟨own, mem, same⟩)

namespace Sample

def fileServers : CapabilityIndex :=
  .rebuild [server "mcp-files" ⟨[], ["file:///"], []⟩, server "mcp-data" ⟨[], ["file:///data/"], []⟩]

def fileCatalogs (id : String) : List ResourceDefinition :=
  if id = "mcp-files" then [⟨"file:///data/report.txt", "report", "", "text/plain"⟩] else []

end Sample

theorem listed_resource_misrouted :
    ((handleListResources Sample.fileServers fun id => some (Sample.fileCatalogs id)).map ResourceDefinition.uri) =
        ["file:///data/report.txt"] ∧
      ((handleReadResource Sample.fileServers "file:///data/report.txt").toOption.map ServerRecord.id) =
        some "mcp-data" ∧ Sample.fileCatalogs "mcp-data" = [] := by
  decide +kernel

end McpGateway.Proxy
