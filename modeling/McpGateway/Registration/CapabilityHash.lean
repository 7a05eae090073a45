import McpGateway.Registration.Operations

namespace McpGateway.Registration

open Shared Store

structure SameCapabilities (left right : Capability) : Prop where
  tools : left.tools.Perm right.tools
  resources : left.resources.Perm right.resources
  prompts : left.prompts.Perm right.prompts

theorem hashCapabilities_same {left right : Capability} (same : SameCapabilities left right) :
    hashCapabilities left = hashCapabilities right := by
  rw [hashCapabilities, sortStrings_perm same.tools, sortStrings_perm same.resources, sortStrings_perm same.prompts,
    hashCapabilities]

@[simp] theorem trimSpace_hashCapabilities (capability : Capability) :
    trimSpace (hashCapabilities capability) = hashCapabilities capability :=
  trimSpace_hexEncode _

def Described (table : ServerTable) : Prop :=
  ∀ row ∈ table.rows, row.capabilityHash = hashCapabilities row.capabilities

instance (table : ServerTable) : Decidable (Described table) :=
  inferInstanceAs (Decidable (∀ row ∈ table.rows, _))

/-- What an operation has to say about the backend: a heartbeat reports the hash of a listing, whose tools a refresh
is given; the resources and prompts of a refreshed record are those of the listing; and a push refresh, which brings
no hash, lists the tools that are stored. -/
def Service.Describes (service : Service) (table : ServerTable) (now : Time) : Operation → Prop
  | .heartbeat _ id request toolNames => ∃ listing : Capability,
    request.capabilityHash = Registration.hashCapabilities listing ∧ (∀ names ∈ toolNames, names = listing.tools) ∧
    ∀ record ∈ table.rows, parseUuid id = some record.id →
      service.Refreshes request ⟨now, toolNames⟩ record → service.indexed = true →
        listing.resources.Perm record.capabilities.resources ∧ listing.prompts.Perm record.capabilities.prompts
  | .refreshCapabilities id toolNames => ∀ record ∈ table.rows, parseUuid id = some record.id →
    ∀ listed ∈ service.listedTools ⟨now, toolNames⟩, listed.Perm record.capabilities.tools
  | _ => True

section

variable {service : Service} {registry : Registry} {now : Time}

theorem Service.refreshedTools_listed {request : HeartbeatRequest} {toolNames : Option (List String)}
    {record : ServerRecord} {listed : List String}
    (refreshed : service.refreshedTools request ⟨now, toolNames⟩ record = some listed) :
    listed ∈ toolNames ∧ service.Refreshes request ⟨now, toolNames⟩ record ∧ service.indexed = true := by
  refine ⟨?_, (service.refreshedTools_ne_none_iff request ⟨now, toolNames⟩ record).mp (by simp [refreshed])⟩
  unfold Service.refreshedTools Service.listedTools at refreshed
  split_ifs at refreshed
  exact refreshed

theorem RowEffect.described {table : ServerTable} {operation : Operation} {report : Report} {row : ServerRecord}
    (effect : RowEffect service table now operation report row)
    (fixed : service.hashCapabilities = hashCapabilities) (described : Described table)
    (describes : service.Describes table now operation) : row.capabilityHash = hashCapabilities row.capabilities := by
  cases effect with
  | kept _ _ _ held => exact described row held
  | registered caller request _ _ record _ written hash =>
    rw [written.hash, hash, fixed, written.capabilities, trimSpace_hashCapabilities]
  | beaten caller id request toolNames record held spelled =>
    cases refreshed : service.refreshedTools request ⟨now, toolNames⟩ record with
    | none =>
      rw [Service.beatenRow_none refreshed]
      exact described record held
    | some listed =>
      obtain ⟨listing, reported, tools, others⟩ := describes
      obtain ⟨fetched, refreshes, indexed⟩ := Service.refreshedTools_listed refreshed
      obtain ⟨resources, prompts⟩ := others record held spelled refreshes indexed
      have same : SameCapabilities listing (refreshedRecord record (trimSpace request.capabilityHash) listed).capabilities :=
        ⟨by rw [refreshedRecord, tools listed fetched], resources, prompts⟩
      rw [Service.beatenRow_some refreshed, updatedRow_capabilityHash, updatedRow_capabilities,
        refreshedRecord_capabilityHash, trimSpace_trimSpace, ← hashCapabilities_same same, reported,
        trimSpace_hashCapabilities]
  | refreshed id toolNames listed record held spelled tools =>
    have same : SameCapabilities record.capabilities (refreshedRecord record record.capabilityHash listed).capabilities :=
      ⟨(describes record held spelled listed tools).symm, .refl _, .refl _⟩
    rw [updatedRow_capabilityHash, updatedRow_capabilities, refreshedRecord_capabilityHash, ← hashCapabilities_same same,
      described record held, trimSpace_hashCapabilities]
  | acknowledged _ record held => exact described record held
  | swept old held =>
    obtain ⟨_, _, touched⟩ := sweptRow_touches (sweepInterval service.config) now old
    rw [touched]
    exact described old held

def Service.Settled (service : Service) (registry : Registry) : Prop :=
  ∀ record ∈ registry.table.rows, ∀ caller id request context reply next,
    service.heartbeat registry caller id request context = (.ok reply, next) → parseUuid id = some record.id →
    resolveHeartbeatAction request record = .none →
    request.capabilityHash = Registration.hashCapabilities record.capabilities → reply.action = .none

theorem Described.settled (described : Described registry.table) : service.Settled registry := by
  intro record held caller id request context reply next called spelled kept reported
  have unchanged : hashChanged request record = false := by simp [hashChanged, reported, described record held]
  rw [Service.heartbeat] at called
  cases found : heartbeatRecord registry.table caller id with
  | error error =>
    rw [found] at called
    cases called
  | ok other =>
    obtain ⟨present, named⟩ := heartbeatRecord_ok found
    obtain rfl := registry.table.row_unique held present (Option.some.inj (spelled.symm.trans named))
    simp only [found, kept, reduceCtorEq, if_false] at called
    rcases Service.recordHeartbeat_cases held spelled called with ⟨_, ⟨_, failed⟩, _⟩ | ⟨answer, same, acts, beaten⟩
    · cases failed
    cases same
    cases beaten with
    | reRegister _ _ _ _ action => exact absurd action acts
    | recorded answered present named _ _ action =>
      obtain rfl := registry.table.row_unique held present (Option.some.inj (spelled.symm.trans named))
      rw [action, correctiveAction, unchanged]
      rfl

end

/-- From an empty store, every run whose operations describe the backend as it is stored keeps the stored hashes those
of the stored capabilities, so that a heartbeat reporting them needs no action. -/
theorem described_run (service : Service) (start : Pod) (operations : List Timed)
    (fixed : service.hashCapabilities = hashCapabilities) (stored : start.registry.table.rows = [])
    (describes : Along service.operate (fun pod timed =>
      service.Describes pod.registry.table (timed.now pod) timed.operation) start operations) :
    Along service.operate (fun pod timed => Described (service.operate pod timed).registry.table ∧
      service.Settled (service.operate pod timed).registry) start operations := by
  have initial : Described start.registry.table := by
    intro row mem
    rw [stored] at mem
    cases mem
  have step (pod : Pod) (timed : Timed) (described : Described pod.registry.table)
      (allowed : service.Describes pod.registry.table (timed.now pod) timed.operation) :
      Described (service.operate pod timed).registry.table := fun row mem =>
    ((service.operate_effect pod timed).row mem).described fixed described allowed
  refine (describes.invariant initial step).mono fun pod timed held => ?_
  have described := step pod timed held.1 held.2
  exact ⟨described, described.settled⟩

namespace Sample

def pod : Pod := ⟨registry, 100 * second⟩

end Sample

open Sample

theorem growing_backend_described :
    Along refreshing.operate (fun pod timed => Described (refreshing.operate pod timed).registry.table ∧
      refreshing.Settled (refreshing.operate pod timed).registry) pod
      [registers, reports (hashCapabilities grown) grown.tools, refreshes ["list_pods", "get_pod"]] := by
  have plain : ∀ record ∈ (refreshing.operate pod registers).registry.table.rows,
      grown.resources.Perm record.capabilities.resources ∧
        grown.prompts.Perm record.capabilities.prompts := by decide +kernel
  have listed : ∀ record ∈ (refreshing.operate (refreshing.operate pod registers)
      (reports (hashCapabilities grown) grown.tools)).registry.table.rows,
      ["list_pods", "get_pod"].Perm record.capabilities.tools := by decide +kernel
  refine described_run _ _ _ rfl rfl ⟨trivial, ⟨grown, rfl, ?_, fun record held _ _ _ => plain record held⟩,
    fun record held _ names fetched => ?_, trivial⟩
  · simp
  · cases fetched
    exact listed record held

theorem refresh_undescribed : ¬ Described (run refreshing.operate pod
      [registers, refreshes ["list_pods", "get_pod"]]).registry.table ∧ ¬ Described (run refreshing.operate pod [registers,
        reports (hashCapabilities ⟨["list_pods"], ["k8s://pods"], []⟩) ["list_pods"]]).registry.table := by
  decide +kernel

end McpGateway.Registration
