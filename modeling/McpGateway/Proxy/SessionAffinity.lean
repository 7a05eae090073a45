import McpGateway.Proxy.Router
import McpGateway.Shared.Argmax
import McpGateway.Shared.Digest

namespace McpGateway.Proxy

open Shared

structure RoutingRequest where
  sessionId : String
  toolName : String

structure SessionAffinityStrategy where
  fallback : Option RoutingRequest → RoutingStrategy

def fnvWrite (sum : UInt64) (bytes : List Nat) : UInt64 :=
  bytes.foldl (fun sum byte => (sum ^^^ UInt64.ofNat byte) * 1099511628211) sum

def hrwScore (sessionId candidateId : String) : UInt64 :=
  fnvWrite (fnvWrite 14695981039346656037 (utf8Bytes sessionId)) (utf8Bytes candidateId)

def keepHigher (score : ServerRecord → UInt64) (best : Option (ServerRecord × UInt64)) (candidate : ServerRecord) :
    Option (ServerRecord × UInt64) :=
  match best with
  | none => some (candidate, score candidate)
  | some (_, bestScore) => if bestScore < score candidate then some (candidate, score candidate) else best

-- Select with `score` in the place of hrwScore.
def SessionAffinityStrategy.selectBy (score : String → String → UInt64) (strategy : SessionAffinityStrategy)
    (request : Option RoutingRequest) : RoutingStrategy := fun candidates =>
  if candidates = [] then .ok none
  else
    match request with
    | none => strategy.fallback none candidates
    | some request =>
      if request.sessionId = "" then strategy.fallback (some request) candidates
      else
        .ok ((candidates.foldl (keepHigher fun candidate => score request.sessionId candidate.id) none).map Prod.fst)

def SessionAffinityStrategy.select : SessionAffinityStrategy → Option RoutingRequest → RoutingStrategy :=
  SessionAffinityStrategy.selectBy hrwScore

theorem foldl_keepHigher (score : ServerRecord → UInt64) (candidates : List ServerRecord) (best : Option ServerRecord) :
    candidates.foldl (keepHigher score) (best.map fun server => (server, score server)) =
      (candidates.foldl (List.argAux fun b c => (score c).toNat < (score b).toNat) best).map fun server =>
        (server, score server) := by
  induction candidates generalizing best with
  | nil => rfl
  | cons candidate rest ih =>
    rw [List.foldl_cons, List.foldl_cons, ← ih]
    congr 1
    cases best with
    | none => rfl
    | some server =>
      simp only [Option.map_some, keepHigher, List.argAux, UInt64.lt_iff_toNat_lt]
      split_ifs <;> rfl

theorem SessionAffinityStrategy.selectBy_eq (score : String → String → UInt64) (strategy : SessionAffinityStrategy)
    {request : RoutingRequest} (inSession : request.sessionId ≠ "") {candidates : List ServerRecord}
    (nonempty : candidates ≠ []) : strategy.selectBy score (some request) candidates =
      .ok (candidates.argmax fun candidate => (score request.sessionId candidate.id).toNat) := by
  have loop := foldl_keepHigher (fun candidate => score request.sessionId candidate.id) candidates none
  rw [Option.map_none] at loop
  simp only [selectBy, nonempty, inSession, if_false, loop, List.argmax, Option.map_map]
  exact congrArg Except.ok (congrFun Option.map_id _)

theorem SessionAffinityStrategy.selectBy_stable (score : String → String → UInt64)
    (strategy : SessionAffinityStrategy) (request : RoutingRequest) (inSession : request.sessionId ≠ "")
    (candidates : List ServerRecord) (nonempty : candidates ≠ []) :
    ∃ before selected after, candidates = before ++ selected :: after ∧ selected ∉ before ∧
      strategy.selectBy score (some request) candidates = .ok (some selected) ∧
      (∀ kept keptAfter : List ServerRecord, kept.Sublist before → keptAfter.Sublist after →
        strategy.selectBy score (some request) (kept ++ selected :: keptAfter) = .ok (some selected)) ∧
      (∀ added : List ServerRecord, strategy.selectBy score (some request) (candidates ++ added) = .ok (some selected) ∨
          ∃ other ∈ added, strategy.selectBy score (some request) (candidates ++ added) = .ok (some other)) ∧
      ((candidates.map fun candidate => score request.sessionId candidate.id).Nodup →
        ∀ reordered : List ServerRecord, reordered.Perm candidates →
          strategy.selectBy score (some request) reordered = .ok (some selected)) := by
  obtain ⟨selected, highest⟩ : ∃ selected,
      candidates.argmax (fun candidate => (score request.sessionId candidate.id).toNat) = some selected :=
    Option.ne_none_iff_exists'.mp (by rwa [ne_eq, List.argmax_eq_none])
  obtain ⟨before, after, split, below, bounded⟩ := argmax_split highest
  have first : selected ∉ before := fun mem => lt_irrefl _ (below selected mem)
  refine ⟨before, selected, after, split, first, ?_, ?_, ?_, ?_⟩
  · rw [selectBy_eq score strategy inSession nonempty, highest]
  · intro kept keptAfter sublist sublistAfter
    rw [split] at highest
    rw [selectBy_eq score strategy inSession (by simp), argmax_sublists highest first sublist sublistAfter]
  · intro added
    rw [selectBy_eq score strategy inSession (by simp [nonempty])]
    rcases argmax_append highest added with unchanged | ⟨other, mem, moved⟩
    · exact .inl (by rw [unchanged])
    · exact .inr ⟨other, mem, by rw [moved]⟩
  · intro distinct reordered perm
    have distinctNat : (candidates.map fun candidate => (score request.sessionId candidate.id).toNat).Nodup := by
      have := distinct.map (f := UInt64.toNat) fun _ _ => UInt64.toNat_inj.mp
      rwa [List.map_map] at this
    have nonempty' : reordered ≠ [] := fun empty => nonempty (by rw [empty] at perm; exact perm.nil_eq.symm)
    rw [selectBy_eq score strategy inSession nonempty', argmax_perm distinctNat perm, highest]

namespace Sample

def searchReplica (id : String) : ServerRecord where
  id := id
  name := "mcp-search"
  spiffeId := "spiffe://cluster.local/ns/tools/sa/search"
  version := "2.0.1"
  host := "10.0.4.2"
  port := 8443
  protocol := "https"
  capabilities := ⟨["search"], [], []⟩
  status := .active
  policyProfile := "default"
  lastHeartbeat := some 600
  leaseEpoch := 1
  capabilityHash := ""
  syncState := .acked
  lastPlatformAckVersion := "1"
  lastPlatformAckAt := some 500
  rateLimit := none
  rateBurst := none
  routingStrategy := ""
  createdAt := 100
  updatedAt := 600

def searchReplicas : List ServerRecord :=
  [searchReplica "a", searchReplica "b", searchReplica "c"]

def affinity : SessionAffinityStrategy :=
  ⟨fun _ => roundRobin 0⟩

end Sample

theorem searchReplicas_stable : ∃ selected ∈ Sample.searchReplicas,
      Sample.affinity.select (some ⟨"session-1", "search"⟩) Sample.searchReplicas = .ok (some selected) ∧
        Sample.affinity.select (some ⟨"session-1", "search"⟩) Sample.searchReplicas.reverse = .ok (some selected) := by
  obtain ⟨before, selected, after, split, -, chosen, -, -, reorders⟩ :=
    SessionAffinityStrategy.selectBy_stable hrwScore Sample.affinity ⟨"session-1", "search"⟩ (by decide)
      Sample.searchReplicas (by decide)
  refine ⟨selected, by simp [split], chosen, ?_⟩
  exact reorders (by decide +kernel) _ (List.reverse_perm _)

end McpGateway.Proxy
