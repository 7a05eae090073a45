import McpGateway.Registration.Host
import McpGateway.Registration.Operations

namespace McpGateway.Auth

open Shared Registration

structure UriName where
  scheme : String
  text : String

structure Certificate where
  uris : List (Option UriName)

def extractSPIFFEID : List Certificate → Except String String
  | [] => .error "extract spiffe id: no certificates provided"
  | leaf :: _ =>
    match leaf.uris.reduceOption.find? fun uri => equalFold uri.scheme "spiffe" with
    | none => .error "extract spiffe id: no spiffe URI SAN found"
    | some uri =>
      match spiffeIdError uri.text with
      | some detail => .error ("extract spiffe id: " ++ detail)
      | none => .ok uri.text

structure AuthError where
  statusCode : Nat
  message : String

-- MTLSMiddleware on the verified chains of a connection, none without TLS: the caller handed on, or the answer.
def mtlsMiddleware (allowedPrefixes : List String) (verifiedChains : Option (List (List Certificate))) :
    Except AuthError Identity :=
  match verifiedChains with
  | some ((leaf :: issuers) :: _) =>
    match extractSPIFFEID (leaf :: issuers) with
    | .error _ => .error ⟨401, "invalid mTLS client certificate identity"⟩
    | .ok spiffeId =>
      match validateSPIFFEID admission spiffeId allowedPrefixes with
      | .error _ => .error ⟨403, "spiffe identity is not allowed"⟩
      | .ok _ => .ok ⟨.mtls, spiffeId, [scopeAdmin], (∅ : GoMap String String).insert "auth_method" "mtls"⟩
  | _ => .error ⟨401, "missing or invalid mTLS client certificate"⟩

theorem mtlsMiddleware_admin {allowedPrefixes : List String} {verifiedChains : Option (List (List Certificate))}
    {caller : Identity} (passed : mtlsMiddleware allowedPrefixes verifiedChains = .ok caller) :
    caller.hasScope scopeAdmin = true := by
  unfold mtlsMiddleware at passed
  split at passed
  · split at passed
    · cases passed
    · split at passed
      · cases passed
      · cases passed
        rfl
  · cases passed

end McpGateway.Auth

namespace McpGateway.Registration

open Shared Auth Store

inductive RegistrationCall where
  | register (request : RegistrationRequest) (generated assigned : String)
  | heartbeat (id : String) (request : HeartbeatRequest) (toolNames : Option (List String))
  | deregister (id : String)

def RegistrationCall.operation (caller : Identity) : RegistrationCall → Operation
  | .register request generated assigned => .register (some caller) request generated assigned
  | .heartbeat id request toolNames => .heartbeat (some caller) id request toolNames
  | .deregister id => .deregister (some caller) id

inductive Arrival where
  | call (elapsed : Nat) (verifiedChains : Option (List (List Certificate))) (call : RegistrationCall)
  | other (timed : Timed)

section

variable (service : Service) (allowedPrefixes : List String)

def Service.receive (pod : Pod) : Arrival → Pod
  | .call elapsed verifiedChains call =>
    match mtlsMiddleware allowedPrefixes verifiedChains with
    | .error _ => ⟨pod.registry, pod.clock + elapsed⟩
    | .ok caller => service.operate pod ⟨elapsed, call.operation caller⟩
  | .other timed => service.operate pod timed

structure RemovesOwn (registry : Registry) (caller : Identity) (id : String) : Prop where
  owner : (service.indexedDeregister registry (some caller) id).1 = .ok () →
    ∃ record ∈ registry.table.rows, parseUuid id = some record.id ∧ record.spiffeId = caller.id
  removed : ∀ row ∈ registry.table.rows,
    row ∉ (service.indexedDeregister registry (some caller) id).2.table.rows → row.spiffeId = caller.id

def Arrival.RemovesOwn (pod : Pod) : Arrival → Prop
  | .call _ verifiedChains (.deregister id) =>
    ∀ caller, mtlsMiddleware allowedPrefixes verifiedChains = .ok caller →
      Registration.RemovesOwn service pod.registry caller id
  | _ => True

-- The certificate of a deregistration carries the identity of the record that is named, if one is.
def Arrival.NamesOwn (pod : Pod) : Arrival → Prop
  | .call _ verifiedChains (.deregister id) =>
    ∀ caller, mtlsMiddleware allowedPrefixes verifiedChains = .ok caller →
      ∀ record ∈ pod.registry.table.rows, parseUuid id = some record.id → record.spiffeId = caller.id
  | _ => True

end

section

variable {service : Service} {registry : Registry} {caller : Identity} {id : String}

theorem Service.deregister_admin (admin : caller.hasScope scopeAdmin = true) {record : ServerRecord}
    (held : record ∈ registry.table.rows) (spelled : parseUuid id = some record.id) :
    (service.deregister registry (some caller) id).1 = .ok () := by
  have got := (registry.table.get_eq_ok_iff id record).mpr ⟨held, spelled⟩
  have deleted : ∃ table, registry.table.delete id = .ok table := by
    simp [ServerTable.delete, spelled]
  obtain ⟨table, deleted⟩ := deleted
  unfold Service.deregister
  simp [trimSpace_ne_empty_of_uuid spelled, got, admin, deleted]

theorem removesOwn_iff (admin : caller.hasScope scopeAdmin = true) : RemovesOwn service registry caller id ↔
      ∀ record ∈ registry.table.rows, parseUuid id = some record.id → record.spiffeId = caller.id := by
  cases called : service.deregister registry (some caller) id with
  | mk result next =>
    constructor
    · intro own record held spelled
      have done : result = .ok () := by simpa [called] using service.deregister_admin admin held spelled
      obtain ⟨named, present, same, owned⟩ := own.owner (by simp [Service.indexedDeregister, called, done])
      rw [spelled] at same
      rw [registry.table.row_unique held present (Option.some.inj same)]
      exact owned
    · intro names
      obtain ⟨⟨error, failed⟩, same⟩ | ⟨done, _, _, record, held, spelled, rows, _⟩ := Service.deregister_cases called
      · have unchanged : service.indexedDeregister registry (some caller) id = (.error error, registry) := by
          simp [Service.indexedDeregister, called, failed, same]
        exact ⟨by simp [unchanged], fun row held gone => absurd held (by simpa [unchanged] using gone)⟩
      · refine ⟨fun _ => ⟨record, held, spelled, names record held spelled⟩, fun row present gone => ?_⟩
        simp only [Service.indexedDeregister, called, done, rows, List.mem_filter, present, true_and] at gone
        have same : row.id = record.id := by simpa using gone
        rw [registry.table.row_unique present held same]
        exact names record held spelled

theorem Arrival.removesOwn_iff (allowedPrefixes : List String) (pod : Pod) (arrival : Arrival) :
    arrival.RemovesOwn service allowedPrefixes pod ↔ arrival.NamesOwn allowedPrefixes pod := by
  cases arrival with
  | other timed => rfl
  | call elapsed verifiedChains call =>
    cases call with
    | register request generated assigned => rfl
    | heartbeat id request toolNames => rfl
    | deregister id =>
      exact forall_congr' fun caller => forall_congr' fun passed =>
        Registration.removesOwn_iff (mtlsMiddleware_admin passed)

end

/-- Over mTLS nobody removes the registration of another identity as long as nobody asks for it: in every run the
deregistrations remove what belongs to their callers exactly if each names a record of its caller or none. -/
theorem removes_own_along_iff (service : Service) (allowedPrefixes : List String) (start : Pod)
    (arrivals : List Arrival) :
    Along (service.receive allowedPrefixes) (fun pod arrival => arrival.RemovesOwn service allowedPrefixes pod) start
        arrivals ↔
      Along (service.receive allowedPrefixes) (fun pod arrival => arrival.NamesOwn allowedPrefixes pod) start
        arrivals :=
  ⟨fun along => along.mono fun pod arrival => (arrival.removesOwn_iff allowedPrefixes pod).mp,
    fun along => along.mono fun pod arrival => (arrival.removesOwn_iff allowedPrefixes pod).mpr⟩

namespace Sample

def certificate (spiffeId : String) : Certificate := ⟨[none, some ⟨"spiffe", spiffeId⟩]⟩

def neighbour : String := "spiffe://cluster.local/ns/tools/sa/search"

def holding : Pod := ⟨registered, 100 * second⟩

def removal : Arrival := .call 1 (some [[certificate neighbour]]) (.deregister rowId)

end Sample

open Sample

theorem neighbour_removes_registration :
    (mtlsMiddleware ["spiffe://cluster.local/"] (some [[certificate neighbour]])).toOption.map Identity.id =
        some neighbour ∧ holding.registry.table.rows.map (fun row => (row.id, row.spiffeId)) = [(rowId, caller.id)] ∧
      caller.id ≠ neighbour ∧
      (service.receive ["spiffe://cluster.local/"] holding removal).registry.table.rows = [] := by
  refine ⟨?_, ?_, ?_, ?_⟩ <;> decide +kernel

end McpGateway.Registration
