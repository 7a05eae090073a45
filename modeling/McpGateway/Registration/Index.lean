import McpGateway.Shared.Postings
import McpGateway.Types

namespace McpGateway

open Shared

def ServerRecord.isRoutable (server : ServerRecord) : Bool :=
  server.status.isRoutable

theorem ServerRecord.isRoutable_iff (server : ServerRecord) : server.isRoutable = true ↔ server.status = .active := by
  simp [ServerRecord.isRoutable, ServerStatus.isRoutable]

def capabilityKeys (names : List String) : List String :=
  (names.map trimSpace).filter (· ≠ "")

def ServerRecord.toolKeys (server : ServerRecord) : List String :=
  capabilityKeys server.capabilities.tools

def ServerRecord.resourceKeys (server : ServerRecord) : List String :=
  capabilityKeys server.capabilities.resources

def ServerRecord.unlisted (server : ServerRecord) : Prop :=
  server.toolKeys = [] ∧ server.resourceKeys = []

instance (server : ServerRecord) : Decidable server.unlisted := inferInstanceAs (Decidable (_ ∧ _))

namespace Registration

abbrev ServerPostings := Postings String ServerRecord ServerRecord.id

structure CapabilityIndex where
  tools : ServerPostings
  resources : ServerPostings

namespace CapabilityIndex

def new : CapabilityIndex := ⟨.empty, .empty⟩

def addLocked (index : CapabilityIndex) (server : ServerRecord) : CapabilityIndex where
  tools := index.tools.postAll server.toolKeys server
  resources := index.resources.postAll server.resourceKeys server

def add (index : CapabilityIndex) (server : ServerRecord) : CapabilityIndex :=
  if server.isRoutable then index.addLocked server else index

def removeLocked (index : CapabilityIndex) (serverId : String) : CapabilityIndex where
  tools := index.tools.withdraw serverId
  resources := index.resources.withdraw serverId

def remove (index : CapabilityIndex) (serverId : String) : CapabilityIndex :=
  if trimSpace serverId = "" then index else index.removeLocked serverId

def rebuild (servers : List ServerRecord) : CapabilityIndex :=
  servers.foldl (fun index server => index.add server) new

def replaceServer (index : CapabilityIndex) (serverId : String) (record : ServerRecord) : CapabilityIndex :=
  (index.removeLocked serverId).add record

def lookupTool (index : CapabilityIndex) (name : String) : List ServerRecord :=
  if trimSpace name = "" then [] else index.tools.bucket (trimSpace name)

def lookupResource (index : CapabilityIndex) (uri : String) : List ServerRecord :=
  if trimSpace uri = "" then []
  else
    match longestPrefix (trimSpace uri) index.resources.keys with
    | "" => []
    | found => index.resources.bucket found

def listTools (index : CapabilityIndex) : List String :=
  index.tools.keys.insertionSort fun left right => left.toList ≤ right.toList

def scanServers (target : String) : List String → List ServerRecord → Option ServerRecord
  | _, [] => none
  | seen, server :: rest =>
    if seen.contains server.id then scanServers target seen rest
    else if equalFold (trimSpace server.name) target then some server
    else scanServers target (server.id :: seen) rest

-- `order` is the order in which the tool map is ranged over, which Go leaves open.
def lookupServer (index : CapabilityIndex) (order : List String) (name : String) : Option ServerRecord :=
  if trimSpace name = "" then none
  else scanServers (trimSpace name) [] (order.flatMap index.tools.bucket)

structure Reflects (index : CapabilityIndex) (listed : ServerRecord → Prop) : Prop where
  tools : index.tools.Files ServerRecord.toolKeys listed
  resources : index.resources.Files ServerRecord.resourceKeys listed

variable {index other : CapabilityIndex} {listed : ServerRecord → Prop}

theorem new_reflects : new.Reflects fun _ => False :=
  ⟨Postings.files_empty _, Postings.files_empty _⟩

theorem Reflects.congr (reflects : index.Reflects listed) {same : ServerRecord → Prop}
    (iff : ∀ server, listed server ↔ same server) : index.Reflects same :=
  ⟨reflects.tools.congr iff, reflects.resources.congr iff⟩

theorem Reflects.congr_listed (reflects : index.Reflects listed) {same : ServerRecord → Prop}
    (iff : ∀ server, ¬ server.unlisted → (listed server ↔ same server)) : index.Reflects same := by
  constructor
  · intro key server
    rw [reflects.tools key server]
    refine and_congr_left fun mem => iff server fun quiet => ?_
    rw [quiet.1] at mem
    cases mem
  · intro key server
    rw [reflects.resources key server]
    refine and_congr_left fun mem => iff server fun quiet => ?_
    rw [quiet.2] at mem
    cases mem

theorem Reflects.removeLocked (reflects : index.Reflects listed) (serverId : String) :
    (index.removeLocked serverId).Reflects fun server => listed server ∧ server.id ≠ serverId :=
  ⟨reflects.tools.withdraw serverId, reflects.resources.withdraw serverId⟩

-- What the gateway has filed for a server is replaced only where the new record repeats it.
structure Covered (listed : ServerRecord → Prop) (server : ServerRecord) : Prop where
  tools : ∀ old, listed old → old.id = server.id → old.toolKeys ⊆ server.toolKeys
  resources : ∀ old, listed old → old.id = server.id → old.resourceKeys ⊆ server.resourceKeys

theorem Reflects.addLocked (reflects : index.Reflects listed) {server : ServerRecord} (covered : Covered listed server) :
    (index.addLocked server).Reflects fun other => other = server ∨ (listed other ∧ other.id ≠ server.id) :=
  ⟨reflects.tools.postAll server covered.tools, reflects.resources.postAll server covered.resources⟩

theorem Reflects.unfiled (reflects : index.Reflects listed) {server : ServerRecord} (tools : server.toolKeys = [])
    (resources : server.resourceKeys = []) : index.Reflects fun other => other = server ∨ listed other :=
  ⟨reflects.tools.unfiled tools, reflects.resources.unfiled resources⟩

theorem Reflects.add (reflects : index.Reflects listed) {server : ServerRecord} (routable : server.isRoutable = true)
    (covered : Covered listed server) :
    (index.add server).Reflects fun other => other = server ∨ (listed other ∧ other.id ≠ server.id) := by
  rw [CapabilityIndex.add, if_pos routable]
  exact reflects.addLocked covered

theorem Reflects.replaceServer (reflects : index.Reflects listed) (record : ServerRecord) :
    (index.replaceServer record.id record).Reflects fun server =>
      (server = record ∧ record.isRoutable = true) ∨ (listed server ∧ server.id ≠ record.id) := by
  have removed := reflects.removeLocked record.id
  have covered : Covered (fun server => listed server ∧ server.id ≠ record.id) record :=
    ⟨fun old kept clash => absurd clash kept.2, fun old kept clash => absurd clash kept.2⟩
  unfold CapabilityIndex.replaceServer
  cases routable : record.isRoutable with
  | true =>
    refine (removed.add routable covered).congr fun server => ?_
    simp
  | false =>
    rw [CapabilityIndex.add, if_neg (by simp [routable])]
    refine removed.congr fun server => ?_
    simp

theorem rebuild_reflects (servers : List ServerRecord) (distinct : (servers.map ServerRecord.id).Nodup) :
    (rebuild servers).Reflects fun server => server ∈ servers ∧ server.isRoutable = true := by
  unfold rebuild
  induction servers using List.reverseRecOn with
  | nil => exact new_reflects.congr (by simp)
  | append_singleton servers last ih =>
    rw [List.map_append, List.nodup_append] at distinct
    obtain ⟨distinct, _, apart⟩ := distinct
    have fresh : ∀ server ∈ servers, server.id ≠ last.id := by
      intro server mem
      exact apart _ (List.mem_map_of_mem mem) _ (by simp)
    rw [List.foldl_append, List.foldl_cons, List.foldl_nil]
    cases routable : last.isRoutable with
    | true =>
      have covered : Covered (fun server => server ∈ servers ∧ server.isRoutable = true) last :=
        ⟨fun old kept clash => absurd clash (fresh old kept.1), fun old kept clash => absurd clash (fresh old kept.1)⟩
      refine ((ih distinct).add routable covered).congr fun server => ?_
      rw [List.mem_append, List.mem_singleton]
      constructor
      · rintro (rfl | ⟨kept, _⟩)
        · exact ⟨.inr rfl, routable⟩
        · exact ⟨.inl kept.1, kept.2⟩
      · rintro ⟨mem | rfl, active⟩
        · exact .inr ⟨⟨mem, active⟩, fresh server mem⟩
        · exact .inl rfl
    | false =>
      rw [add, if_neg (by simp [routable])]
      refine (ih distinct).congr fun server => ?_
      rw [List.mem_append, List.mem_singleton]
      constructor
      · exact fun kept => ⟨.inl kept.1, kept.2⟩
      · rintro ⟨mem | rfl, active⟩
        · exact ⟨mem, active⟩
        · simp [routable] at active

structure Faithful (look : ServerRecord → ServerRecord) : Prop where
  id : ∀ server, (look server).id = server.id
  capabilities : ∀ server, (look server).capabilities = server.capabilities

section

variable {look : ServerRecord → ServerRecord} {same : ServerRecord → Prop}

theorem Reflects.lookupTool_view (reflects : index.Reflects listed) (others : other.Reflects same)
    (faithful : Faithful look)
    (iff : ∀ seen, (∃ server, listed server ∧ look server = seen) ↔ ∃ server, same server ∧ look server = seen)
    (name : String) : ((index.lookupTool name).map look).Perm ((other.lookupTool name).map look) := by
  have sameKeys : ∀ server, (look server).toolKeys = server.toolKeys := fun server =>
    congrArg (fun capabilities : Capability => capabilityKeys capabilities.tools) (faithful.capabilities server)
  unfold lookupTool
  split_ifs
  · exact .refl _
  · exact reflects.tools.view_perm others.tools faithful.id sameKeys iff _

theorem Reflects.lookupResource_view (reflects : index.Reflects listed) (others : other.Reflects same)
    (faithful : Faithful look)
    (iff : ∀ seen, (∃ server, listed server ∧ look server = seen) ↔ ∃ server, same server ∧ look server = seen)
    (uri : String) : ((index.lookupResource uri).map look).Perm ((other.lookupResource uri).map look) := by
  have sameKeys : ∀ server, (look server).resourceKeys = server.resourceKeys := fun server =>
    congrArg (fun capabilities : Capability => capabilityKeys capabilities.resources) (faithful.capabilities server)
  have perm := reflects.resources.view_perm others.resources faithful.id sameKeys iff
  have found : longestPrefix (trimSpace uri) index.resources.keys = longestPrefix (trimSpace uri) other.resources.keys :=
    (longestPrefix_correct _ _).unique (longestPrefix_correct _ _) fun key => Postings.mem_keys_iff_of_view (perm key)
  unfold lookupResource
  rw [found]
  split_ifs
  · exact .refl _
  · split
    · exact .refl _
    · exact perm _

end

theorem Reflects.lookupTool_perm (reflects : index.Reflects listed) (same : other.Reflects listed) (name : String) :
    (index.lookupTool name).Perm (other.lookupTool name) := by
  have whole : Faithful fun server => server := ⟨fun _ => rfl, fun _ => rfl⟩
  have perm := reflects.lookupTool_view same whole (fun _ => Iff.rfl) name
  simpa using perm

theorem Reflects.lookupResource_perm (reflects : index.Reflects listed) (same : other.Reflects listed) (uri : String) :
    (index.lookupResource uri).Perm (other.lookupResource uri) := by
  have whole : Faithful fun server => server := ⟨fun _ => rfl, fun _ => rfl⟩
  have perm := reflects.lookupResource_view same whole (fun _ => Iff.rfl) uri
  simpa using perm

theorem lookupTool_nodup (index : CapabilityIndex) (name : String) :
    ((index.lookupTool name).map ServerRecord.id).Nodup := by
  simp only [lookupTool]
  split_ifs
  · exact List.nodup_nil
  · exact index.tools.bucket_nodup _

theorem Reflects.mem_lookupTool (reflects : index.Reflects listed) (name : String) (server : ServerRecord) :
    server ∈ index.lookupTool name ↔ listed server ∧ trimSpace name ∈ server.toolKeys := by
  unfold lookupTool
  split_ifs with blank
  · simp [ServerRecord.toolKeys, capabilityKeys, blank]
  · exact reflects.tools _ server

def Holds (index : CapabilityIndex) (server : ServerRecord) : Prop :=
  index.tools.Posted server ∨ index.resources.Posted server

variable {server record : ServerRecord} {id : String}

theorem Reflects.of_holds (reflects : index.Reflects listed) (held : index.Holds server) : listed server := by
  rcases held with posted | posted
  · exact reflects.tools.of_posted posted
  · exact reflects.resources.of_posted posted

theorem holds_add (held : (index.add record).Holds server) :
    (server = record ∧ record.isRoutable = true) ∨ index.Holds server := by
  unfold add at held
  split_ifs at held with routable
  · rcases held with posted | posted
    · exact (Postings.posted_postAll posted).imp (fun same => ⟨same, routable⟩) .inl
    · exact (Postings.posted_postAll posted).imp (fun same => ⟨same, routable⟩) .inr
  · exact .inr held

theorem holds_removeLocked_iff (index : CapabilityIndex) (id : String) (server : ServerRecord) :
    (index.removeLocked id).Holds server ↔ index.Holds server ∧ server.id ≠ id := by
  simp only [Holds, removeLocked, Postings.posted_withdraw_iff, or_and_right]

theorem holds_remove_iff (index : CapabilityIndex) (id : String) (server : ServerRecord) :
    (index.remove id).Holds server ↔ index.Holds server ∧ (trimSpace id ≠ "" → server.id ≠ id) := by
  unfold remove
  split_ifs with blank
  · simp [blank]
  · simp [blank, holds_removeLocked_iff]

theorem holds_replaceServer (held : (index.replaceServer id record).Holds server) :
    (server = record ∧ record.isRoutable = true) ∨ index.Holds server :=
  (holds_add held).imp_right fun kept => ((holds_removeLocked_iff index id server).mp kept).1

theorem holds_of_lookupTool {name : String} (found : server ∈ index.lookupTool name) : index.Holds server := by
  unfold lookupTool at found
  split_ifs at found
  · cases found
  · exact .inl ⟨_, found⟩

theorem holds_of_lookupResource {uri : String} (found : server ∈ index.lookupResource uri) : index.Holds server := by
  unfold lookupResource at found
  split_ifs at found
  · cases found
  · split at found
    · cases found
    · exact .inr ⟨_, found⟩

theorem mem_of_scanServers {target : String} {seen : List String} {servers : List ServerRecord}
    (found : scanServers target seen servers = some server) : server ∈ servers := by
  induction servers generalizing seen with
  | nil => cases found
  | cons head rest ih =>
    unfold scanServers at found
    split_ifs at found
    · exact List.mem_cons_of_mem _ (ih found)
    · cases found
      exact List.mem_cons_self
    · exact List.mem_cons_of_mem _ (ih found)

theorem holds_of_lookupServer {order : List String} {name : String}
    (found : index.lookupServer order name = some server) : index.Holds server := by
  unfold lookupServer at found
  split_ifs at found
  obtain ⟨key, _, mem⟩ := List.mem_flatMap.mp (mem_of_scanServers found)
  exact .inl ⟨key, mem⟩

end CapabilityIndex

end Registration

end McpGateway
