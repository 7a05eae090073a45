import McpGateway.Registration.Handshake
import McpGateway.Registration.Host

namespace McpGateway.Registration

open Shared

def copyStringSlice (values : List String) : List String :=
  (values.map trimSpace).filter (· ≠ "")

def Service.withAllowList (service : Service) (configured : List String) : Service :=
  { service with spiffeAllowList := copyStringSlice configured }

def Service.updateSPIFFEAllowList (service : Service) (prefixes : List String) : Service :=
  { service with spiffeAllowList := copyStringSlice prefixes }

-- ServerConfigHandler.Handle on a decoded message. The update stands even when saving the message fails.
def Service.handleServerConfig (service : Service) (spiffeAllowList : List String) (saveError : Option String) :
    Except String Unit × Service :=
  match (copyStringSlice spiffeAllowList).find? fun trimmed => !hasPrefix trimmed "spiffe://" with
  | some trimmed => (.error ("handle server config: invalid SPIFFE prefix " ++ quote trimmed), service)
  | none =>
    match saveError with
    | some cause =>
      (.error ("handle server config: persist config: " ++ cause),
        service.updateSPIFFEAllowList (copyStringSlice spiffeAllowList))
    | none => (.ok (), service.updateSPIFFEAllowList (copyStringSlice spiffeAllowList))

theorem trimSpace_of_mem_copyStringSlice {values : List String} {value : String}
    (mem : value ∈ copyStringSlice values) : trimSpace value = value ∧ value ≠ "" := by
  simp only [copyStringSlice, List.mem_filter, List.mem_map, decide_eq_true_eq] at mem
  obtain ⟨⟨raw, _, rfl⟩, filled⟩ := mem
  exact ⟨trimSpace_trimSpace raw, filled⟩

theorem copyStringSlice_idempotent (values : List String) :
    copyStringSlice (copyStringSlice values) = copyStringSlice values := by
  have trimmed : (copyStringSlice values).map trimSpace = copyStringSlice values :=
    (List.map_congr_left fun value mem => (trimSpace_of_mem_copyStringSlice mem).1).trans (List.map_id _)
  rw [copyStringSlice, trimmed, List.filter_eq_self]
  intro value mem
  simpa using (trimSpace_of_mem_copyStringSlice mem).2

section

variable (service : Service) (initial : List String) (updates : List (List String))

def Service.configured : Service := updates.foldl Service.updateSPIFFEAllowList (service.withAllowList initial)

def current : List String := updates.getLast?.getD initial

theorem Service.configured_eq :
    service.configured initial updates = service.withAllowList (current initial updates) := by
  unfold Service.configured current
  induction updates using List.reverseRecOn with
  | nil => rfl
  | append_singleton prior last ih =>
    rw [List.foldl_append, ih]
    simp [Service.withAllowList, Service.updateSPIFFEAllowList]

end

theorem validateSPIFFEID_copied (admission : Admission) (id : String) (values : List String) :
    validateSPIFFEID admission id (copyStringSlice values) = .ok () ↔ admission.spiffeIdError id = none ∧
        (copyStringSlice values = [] ∨ ∃ allowed ∈ copyStringSlice values, hasPrefix id allowed = true) := by
  have same : ∀ allowed ∈ copyStringSlice values,
      (trimSpace allowed ≠ "" && hasPrefix id (trimSpace allowed)) = hasPrefix id allowed := by
    intro allowed mem
    obtain ⟨trimmed, filled⟩ := trimSpace_of_mem_copyStringSlice mem
    simp [trimmed, filled]
  unfold validateSPIFFEID
  cases admission.spiffeIdError id with
  | some detail => simp
  | none =>
    by_cases empty : copyStringSlice values = []
    · simp [empty]
    · have matched : (copyStringSlice values).any
          (fun allowed => trimSpace allowed ≠ "" && hasPrefix id (trimSpace allowed)) =
            (copyStringSlice values).any (hasPrefix id) := by
        rw [Bool.eq_iff_iff, List.any_eq_true, List.any_eq_true]
        exact exists_congr fun allowed => and_congr_right fun mem => by rw [same allowed mem]
      simp only [matched, empty, false_or, true_and, if_false, ← List.any_eq_true]
      cases (copyStringSlice values).any (hasPrefix id) <;> simp

theorem validateSPIFFEID_shrinks {admission : Admission} {id : String} {previous next : List String}
    (subset : copyStringSlice next ⊆ copyStringSlice previous)
    (restricted : copyStringSlice next = [] → copyStringSlice previous = [])
    (valid : validateSPIFFEID admission id (copyStringSlice next) = .ok ()) :
    validateSPIFFEID admission id (copyStringSlice previous) = .ok () := by
  rw [validateSPIFFEID_copied] at valid ⊢
  obtain ⟨parsed, empty | ⟨allowed, mem, starts⟩⟩ := valid
  · exact ⟨parsed, .inl (restricted empty)⟩
  · exact ⟨parsed, .inr ⟨allowed, subset mem, starts⟩⟩

section

variable {service : Service} {previous next : List String} {caller : Option Identity} {request : RegistrationRequest}

theorem Service.admit_shrinks {identity : Identity} (subset : copyStringSlice next ⊆ copyStringSlice previous)
    (restricted : copyStringSlice next = [] → copyStringSlice previous = [])
    (admitted : Service.admit (service.withAllowList next) caller request = .ok identity) :
    Service.admit (service.withAllowList previous) caller request = .ok identity := by
  rw [Service.admit_ok_iff] at admitted ⊢
  obtain ⟨same, typed, checked, valid⟩ := admitted
  exact ⟨same, typed, checked, validateSPIFFEID_shrinks subset restricted valid⟩

end

/-- As long as a shrunken list still restricts somebody, a registration it lets through ends as it would have
ended under the list before. -/
theorem shrinking_admits_no_one_new (service : Service) (initial : List String) (updates : List (List String))
    (next : List String) (subset : copyStringSlice next ⊆ copyStringSlice (current initial updates))
    (restricted : copyStringSlice next = [] → copyStringSlice (current initial updates) = []) (registry : Registry)
    (caller : Option Identity) (request : RegistrationRequest) (context : RegisterContext)
    (response : RegistrationResponse) (accepted :
      ((service.configured initial (updates ++ [next])).register registry caller request context).1 = .ok response) :
    ((service.configured initial updates).register registry caller request context).1 = .ok response := by
  have last : current initial (updates ++ [next]) = next := by simp [current]
  rw [Service.configured_eq, last] at accepted
  rw [Service.configured_eq]
  generalize current initial updates = previous at subset restricted ⊢
  unfold Service.register at accepted ⊢
  cases admitted : Service.admit (service.withAllowList next) caller request with
  | error error => simp [admitted] at accepted
  | ok identity =>
    simp only [admitted] at accepted
    simp only [Service.admit_shrinks subset restricted admitted]
    exact accepted

namespace Sample

def gateway : Service := { service with admission := admission }

def stranger : Identity := ⟨.mtls, "spiffe://edge.local/ns/tools/sa/k8s", [], ∅⟩

def trusted : List String := ["spiffe://cluster.local/", " spiffe://partner.local/ "]

def accepts (updates : List (List String)) (caller : Identity) : Bool :=
  ((gateway.configured [] updates).register registry (some caller) (request ["list_pods"]) context).1.isOk

end Sample

open Sample

theorem dropped_prefix_admits_no_one_new : ∃ response,
      ((gateway.configured [] [trusted, ["spiffe://cluster.local/"]]).register registry
          (some caller) (request ["list_pods"]) context).1 = .ok response ∧
        ((gateway.configured [] [trusted]).register registry
          (some caller) (request ["list_pods"]) context).1 = .ok response := by
  have run : accepts [trusted, ["spiffe://cluster.local/"]] caller = true := by decide +kernel
  unfold accepts at run
  cases accepted : ((gateway.configured [] [trusted, ["spiffe://cluster.local/"]]).register
      registry (some caller) (request ["list_pods"]) context).1 with
  | error error =>
    rw [accepted] at run
    cases run
  | ok response =>
    exact ⟨response, rfl, shrinking_admits_no_one_new gateway [] [trusted] ["spiffe://cluster.local/"]
      (by decide +kernel) (by decide +kernel) _ _ _ _ response accepted⟩

theorem emptied_list_admits_stranger : ([] : List String) ⊆ trusted ∧ accepts [trusted] stranger = false ∧
      accepts [trusted, []] stranger = true := by
  refine ⟨List.nil_subset _, ?_, ?_⟩ <;> decide +kernel

end McpGateway.Registration
