import McpGateway.Proxy.Routing
import McpGateway.Registration.IndexedService

namespace McpGateway

open Shared Store Registration

namespace Registration

structure Enrolment where
  caller : Option Identity
  request : RegistrationRequest
  context : RegisterContext

def Service.enrol (service : Service) (registry : Registry) (enrolment : Enrolment) : Registry :=
  (service.indexedRegister registry enrolment.caller enrolment.request enrolment.context).2

def Registry.offering (registry : Registry) (tool : String) : List ServerRecord :=
  registry.index.lookupTool tool ++ registry.table.rows.filter fun row => trimSpace tool ∈ row.toolKeys

-- The check that the reject mode announces: nobody of another name, the caller's own row apart, has the tool.
def Enrolment.Unrivalled (registry : Registry) (enrolment : Enrolment) : Prop :=
  ∀ identity ∈ enrolment.caller, ∀ tool ∈ enrolment.request.capabilities.tools, ∀ server ∈ registry.offering tool,
    (∃ own ∈ registry.table.rows, own.spiffeId = identity.id ∧ own.id = server.id) ∨
      equalFold server.name (trimSpace enrolment.request.serviceName) = true

instance (registry : Registry) (enrolment : Enrolment) : Decidable (enrolment.Unrivalled registry) :=
  inferInstanceAs (Decidable (∀ _ ∈ _, _))

def Registry.Unambiguous (registry : Registry) : Prop :=
  ∀ tool, ∀ first ∈ registry.offering tool, ∀ second ∈ registry.offering tool, equalFold first.name second.name = true

section

variable {service : Service} {registry : Registry}

variable {tool id caller : String} {server stored : ServerRecord}

theorem Registry.mem_offering : server ∈ registry.offering tool ↔
      server ∈ registry.index.lookupTool tool ∨ (server ∈ registry.table.rows ∧ trimSpace tool ∈ server.toolKeys) := by
  simp [Registry.offering]

theorem mem_lookupTool_add {index : CapabilityIndex} {record : ServerRecord}
    (found : server ∈ (index.add record).lookupTool tool) : (server = record ∧ trimSpace tool ∈ record.toolKeys) ∨
      (server ∈ index.lookupTool tool ∧ (record.isRoutable = true → trimSpace tool ∈ record.toolKeys →
        server.id ≠ record.id)) := by
  unfold CapabilityIndex.add at found
  split_ifs at found with routable
  · unfold CapabilityIndex.lookupTool CapabilityIndex.addLocked at found
    split_ifs at found with blank
    · cases found
    · rw [Postings.mem_bucket_postAll] at found
      rw [CapabilityIndex.lookupTool, if_neg blank]
      cases found with
      | inl posted => exact .inl ⟨posted.2, posted.1⟩
      | inr kept => exact .inr ⟨kept.1, fun _ listed same => kept.2 ⟨listed, same⟩⟩
  · exact .inr ⟨found, fun active => absurd active routable⟩

theorem mem_lookupTool_syncServer (found : server ∈ (syncServer registry id).index.lookupTool tool) :
    server ∈ registry.index.lookupTool tool ∨ (server ∈ registry.table.rows ∧ trimSpace tool ∈ server.toolKeys) := by
  unfold syncServer at found
  split_ifs at found
  · exact .inl found
  · cases got : registry.table.get id with
    | error error => simpa [got] using Or.inl found
    | ok record =>
      rw [got] at found
      cases mem_lookupTool_add found with
      | inl added =>
        obtain ⟨rfl, listed⟩ := added
        exact .inr ⟨((registry.table.get_eq_ok_iff id server).mp got).1, listed⟩
      | inr kept => exact .inl kept.1

theorem Registry.offering_congr {first second : String} (same : trimSpace first = trimSpace second) :
    registry.offering first = registry.offering second := by
  simp [Registry.offering, CapabilityIndex.lookupTool, same]

structure Enrols (registry next : Registry) (enrolment : Enrolment) (identity : Identity) (stored : ServerRecord) :
    Prop where
  caller : enrolment.caller = some identity
  named : stored.name = trimSpace enrolment.request.serviceName
  tools : stored.toolKeys = capabilityKeys enrolment.request.capabilities.tools
  offering : ∀ tool, ∀ server ∈ next.offering tool,
    (server = stored ∧ trimSpace tool ∈ stored.toolKeys) ∨
      (server ∈ registry.offering tool ∧ (trimSpace tool ∈ stored.toolKeys →
        ∀ own ∈ registry.table.rows, own.spiffeId = identity.id → own.id ≠ server.id))

theorem offering_renewed {after : Registry} {old : ServerRecord} (index : after.index = registry.index)
    (rows : after.table.rows = ServerTable.modifyRow registry.table.rows old.id fun _ => stored)
    (held : old ∈ registry.table.rows) (own : old.spiffeId = caller) (sameId : stored.id = old.id)
    (active : stored.isRoutable = true) (tool : String) (server : ServerRecord)
    (offered : server ∈ (syncServer after old.id).offering tool) :
    (server = stored ∧ trimSpace tool ∈ stored.toolKeys) ∨
      (server ∈ registry.offering tool ∧ (trimSpace tool ∈ stored.toolKeys →
        ∀ row ∈ registry.table.rows, row.spiffeId = caller → row.id ≠ server.id)) := by
  have got : after.table.get old.id = .ok stored := by
    rw [← sameId]
    refine after.table.get_self ?_
    rw [rows]
    exact ServerTable.mem_modifyRow_self held stored
  have rowId : trimSpace old.id ≠ "" := trimSpace_ne_empty_of_uuid (registry.table.canonicalIds old held)
  have only : server.id ≠ old.id → ∀ row ∈ registry.table.rows, row.spiffeId = caller → row.id ≠ server.id := by
    intro other row listed mine same
    rw [registry.table.spiffeId_unique listed held (mine.trans own.symm)] at same
    exact other same.symm
  rw [Registry.mem_offering] at offered ⊢
  cases offered with
  | inl indexed =>
    rw [syncServer, if_neg rowId] at indexed
    simp only [got, index] at indexed
    cases mem_lookupTool_add indexed with
    | inl added => exact .inl added
    | inr kept =>
      refine .inr ⟨.inl kept.1, fun listed => only ?_⟩
      rw [← sameId]
      exact kept.2 active listed
  | inr stands =>
    rw [syncServer_table, rows, ServerTable.mem_modifyRow] at stands
    obtain ⟨⟨mem, other⟩ | ⟨_, _, _, rfl⟩, listed⟩ := stands
    · exact .inr ⟨.inr ⟨mem, listed⟩, fun _ => only other⟩
    · exact .inl ⟨rfl, listed⟩

theorem offering_created {after : Registry} (index : after.index = registry.index)
    (rows : after.table.rows = registry.table.rows ++ [stored])
    (absent : ∀ row ∈ registry.table.rows, row.spiffeId ≠ caller) (tool : String) (server : ServerRecord)
    (offered : server ∈ (syncServer after id).offering tool) : (server = stored ∧ trimSpace tool ∈ stored.toolKeys) ∨
      (server ∈ registry.offering tool ∧ (trimSpace tool ∈ stored.toolKeys →
        ∀ row ∈ registry.table.rows, row.spiffeId = caller → row.id ≠ server.id)) := by
  have foreign : ∀ row ∈ registry.table.rows, row.spiffeId = caller → row.id ≠ server.id :=
    fun row mem same => absurd same (absent row mem)
  have either : server ∈ registry.index.lookupTool tool ∨
      (server ∈ after.table.rows ∧ trimSpace tool ∈ server.toolKeys) := by
    rw [Registry.mem_offering, syncServer_table] at offered
    rw [← index]
    exact offered.elim mem_lookupTool_syncServer .inr
  rw [Registry.mem_offering]
  rcases either with indexed | ⟨mem, listed⟩
  · exact .inr ⟨.inl indexed, fun _ => foreign⟩
  · rw [rows, List.mem_append, List.mem_singleton] at mem
    rcases mem with mem | rfl
    · exact .inr ⟨.inr ⟨mem, listed⟩, fun _ => foreign⟩
    · exact .inl ⟨rfl, listed⟩

theorem Service.enrol_cases (service : Service) (registry : Registry) (enrolment : Enrolment) :
    service.enrol registry enrolment = registry ∨
      ∃ identity stored, Enrols registry (service.enrol registry enrolment) enrolment identity stored := by
  unfold Service.enrol Service.indexedRegister
  split
  next error after failed => exact .inl (service.register_error failed)
  next reply after registered =>
    obtain ⟨identity, record, table, admitted, routable, written, rfl, rfl⟩ := service.register_ok registered
    have active : (service.registrationResponse record).status.isRoutable = true := record.isRoutable_iff.mpr routable
    have caller := (service.admit_ok admitted).1
    refine .inr ⟨identity, ?_⟩
    dsimp only
    rw [if_pos active]
    cases written with
    | updated old stored row held own sameId returnedId epoch rows =>
      have answeredId : (service.registrationResponse record).instanceId = old.id := returnedId
      rw [answeredId]
      refine ⟨stored, caller, row.named, row.keys.1, ?_⟩
      exact offering_renewed (by simp) (by simpa using rows) held own sameId (stored.isRoutable_iff.mpr row.active)
    | created stored row absent assignedId returnedId epoch rows =>
      refine ⟨stored, caller, row.named, row.keys.1, ?_⟩
      exact offering_created (by simp) (by simpa using rows) absent

theorem Service.enrol_unambiguous {enrolment : Enrolment} (unambiguous : registry.Unambiguous)
    (unrivalled : enrolment.Unrivalled registry) : (service.enrol registry enrolment).Unambiguous := by
  cases service.enrol_cases registry enrolment with
  | inl same => rwa [same]
  | inr enrolled =>
    obtain ⟨identity, stored, enrols⟩ := enrolled
    have alike : ∀ tool, trimSpace tool ∈ stored.toolKeys → ∀ server ∈ registry.offering tool,
        (∀ own ∈ registry.table.rows, own.spiffeId = identity.id → own.id ≠ server.id) →
        equalFold server.name stored.name = true := by
      intro tool listed server offered foreign
      obtain ⟨requested, mem, same⟩ : ∃ requested ∈ enrolment.request.capabilities.tools,
          trimSpace requested = trimSpace tool := by
        rw [enrols.tools, capabilityKeys, List.mem_filter, List.mem_map] at listed
        exact listed.1
      rw [enrols.named]
      rw [← Registry.offering_congr same] at offered
      rcases unrivalled identity enrols.caller requested mem server offered with ⟨own, held, caller, clash⟩ | alike
      · exact absurd clash (foreign own held caller)
      · exact alike
    intro tool first offeredFirst second offeredSecond
    rcases enrols.offering tool first offeredFirst with ⟨rfl, listed⟩ | ⟨known, foreign⟩
    · rcases enrols.offering tool second offeredSecond with ⟨rfl, _⟩ | ⟨known, foreign⟩
      · exact equalFold_refl _
      · rw [equalFold_comm]
        exact alike tool listed second known (foreign listed)
    · rcases enrols.offering tool second offeredSecond with ⟨rfl, listed⟩ | ⟨others, _⟩
      · exact alike tool listed first known (foreign listed)
      · exact unambiguous tool first known second others

end

end Registration

namespace Proxy

theorem candidates_of_one_name {service : Service} {start : Registry} {enrolments : List Enrolment}
    (unused : start.table.rows = [] ∧ start.index = .new)
    (unrivalled : Along service.enrol (fun registry enrolment => enrolment.Unrivalled registry) start enrolments)
    {router : Router} (current : router.index = (run service.enrol start enrolments).index) (resolved : Resolved) :
    ∀ first ∈ router.candidates resolved, ∀ second ∈ router.candidates resolved,
      equalFold first.name second.name = true := by
  have initial : start.Unambiguous := by
    intro tool first offered
    simp [Registry.offering, unused.1, unused.2, CapabilityIndex.lookupTool, CapabilityIndex.new] at offered
  have unambiguous := unrivalled.run_invariant initial
    fun registry enrolment held rule => service.enrol_unambiguous held rule
  have offered : ∀ server ∈ router.candidates resolved,
      server ∈ (run service.enrol start enrolments).offering resolved.toolName := by
    intro server candidate
    rw [Registry.mem_offering, ← current]
    exact .inl ((router.mem_candidates _ _ _).mp candidate).1
  intro first candidateFirst second candidateSecond
  exact unambiguous _ first (offered first candidateFirst) second (offered second candidateSecond)

/-- Where every registration brings tools that nobody of another name has, a call is sent only when all servers left
by the resolution of its name have one name. -/
theorem ambiguity_never_dispatched (service : Service) (start : Registry) (enrolments : List Enrolment)
    (unused : start.table.rows = [] ∧ start.index = .new)
    (unrivalled : Along service.enrol (fun registry enrolment => enrolment.Unrivalled registry) start enrolments)
    (router : Router) (current : router.index = (run service.enrol start enrolments).index)
    {Result : Type} (callTool : Dispatch → Except String Result) (scope : List String) (toolName : String)
    (dispatch : Dispatch) (_sent : .called dispatch ∈ (router.perform callTool scope toolName).2) :
    ∀ first ∈ router.candidates (router.resolve toolName), ∀ second ∈ router.candidates (router.resolve toolName),
      equalFold first.name second.name = true :=
  candidates_of_one_name unused unrivalled current (router.resolve toolName)

namespace Sample

def trusting : Service :=
  { Registration.Sample.service with admission := ⟨fun _ => none, fun _ => none⟩, spiffeAllowList := [] }

def enrolling (name tool generated assigned : String) : Enrolment where
  caller := some ⟨.mtls, "spiffe://" ++ name, [], ∅⟩
  request := ⟨name, "", ⟨"10.0.3.7", 8443, ""⟩, ⟨[tool], [], []⟩⟩
  context := ⟨0, generated, assigned⟩

def cluster : Enrolment :=
  enrolling "k8s" "list" Registration.Sample.gatewayId Registration.Sample.rowId

def machines (tool : String) : Enrolment :=
  enrolling "vm" tool "7f1c2a34-5b6d-4e8f-9a0b-1c2d3e4f5062" "0d9b6a52-3c41-4f7e-8b2d-5e6f70819204"

def unused : Registry := ⟨.empty, none, .new, []⟩

def federated (mode : NamespaceMode) (enrolments : List Enrolment) : Router :=
  ⟨(run trusting.enrol unused enrolments).index, roundRobin 0, none, some ⟨mode, "."⟩⟩

theorem federated_index (mode : NamespaceMode) (enrolments : List Enrolment) :
    (federated mode enrolments).index = (run trusting.enrol unused enrolments).index := rfl

def sentTo (router : Router) (toolName : String) : List Dispatch :=
  (router.perform (fun _ => .ok ()) [] toolName : Except RouteFailure Unit × List RouteEffect).2.filterMap fun
    | .called dispatch => some dispatch
    | .asked _ _ _ _ => none

theorem called_of_sentTo {router : Router} {toolName : String} {dispatch : Dispatch}
    (sent : dispatch ∈ sentTo router toolName) :
    .called dispatch ∈ (router.perform (fun _ => .ok ()) [] toolName : Except RouteFailure Unit × _).2 := by
  obtain ⟨effect, mem, same⟩ := List.mem_filterMap.mp sent
  cases effect <;> simp_all

def rivals : List Enrolment := [cluster, machines "list", cluster, machines "list"]

abbrev Misdirects (router : Router) (toolName : String) : Prop :=
  sentTo router toolName ≠ [] ∧
    ∃ first ∈ router.candidates (router.resolve toolName), ∃ second ∈ router.candidates (router.resolve toolName),
      equalFold first.name second.name = false

end Sample

open Sample

theorem separate_tools_never_ambiguous :
    let router := federated .reject [cluster, machines "start", cluster]
    sentTo router "list" ≠ [] ∧
      ∀ first ∈ router.candidates (router.resolve "list"), ∀ second ∈ router.candidates (router.resolve "list"),
        equalFold first.name second.name = true := by
  have unrivalled : Along trusting.enrol (fun registry enrolment => enrolment.Unrivalled registry) unused
        [cluster, machines "start", cluster] ∧
      sentTo (federated .reject [cluster, machines "start", cluster])
        "list" ≠ [] := by
    decide +kernel
  have index := federated_index .reject [cluster, machines "start", cluster]
  generalize federated .reject [cluster, machines "start", cluster] = router
    at unrivalled index
  obtain ⟨dispatch, sent⟩ := List.exists_mem_of_ne_nil _ unrivalled.2
  exact ⟨unrivalled.2, ambiguity_never_dispatched trusting unused _ ⟨rfl, rfl⟩ unrivalled.1 router index
    (fun _ => .ok ()) [] "list" dispatch (called_of_sentTo sent)⟩

theorem ambiguous_tool_dispatched : Sample.Misdirects (federated .reject rivals) "list" ∧
      Sample.Misdirects (federated .always rivals) "list" ∧
      Sample.Misdirects (federated .onConflict rivals) "list" := by
  decide +kernel

end Proxy

end McpGateway
