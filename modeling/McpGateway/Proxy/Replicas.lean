import McpGateway.Proxy.Router
import McpGateway.Shared.CyclicTurns

namespace McpGateway.Proxy

open Shared Registration Auth

def Router.replicas (router : Router) (toolName : String) : List ServerRecord :=
  router.candidates (router.resolve toolName)

def Router.onTurn (router : Router) (counter : Nat) : Router :=
  { router with strategy := roundRobin counter }

theorem resolveFederatedName_blank (index : CapabilityIndex) (resolver : Option NamespaceResolver) :
    resolveFederatedName index resolver "" = ⟨"", ""⟩ := by
  have unlisted : index.lookupTool "" = [] := by simp [CapabilityIndex.lookupTool]
  have unsplit (sep : String) : cut "" sep = none ∨ cut "" sep = some ("", "") := by
    cases runes : sep.toList with
    | nil => exact .inr (by simp [cut, runes, cutRunes])
    | cons head tail => exact .inl (by simp [cut, runes, cutRunes])
  have unresolved (resolver : NamespaceResolver) : resolver.resolve index "" = none := by
    have blank : (resolver.resolveNamespace "").1 = "" := by
      rcases unsplit resolver.separator with split | split <;>
        simp [NamespaceResolver.resolveNamespace, split]
    simp [NamespaceResolver.resolve, blank]
  have uncut : cut "" "." = none := by decide
  cases resolver with
  | none => simp [resolveFederatedName, unlisted, byFirstSegment, byLegacyFormat, uncut]
  | some resolver => simp [resolveFederatedName, unlisted, unresolved, byFirstSegment, byLegacyFormat, uncut]

variable {toolName : String} {router : Router} {scope : List String} {counter : Nat}

theorem Router.replicas_blank (router : Router) (blank : trimSpace toolName = "") : router.replicas toolName = [] := by
  simp [replicas, candidates, resolve, blank, resolveFederatedName_blank, CapabilityIndex.lookupTool]

theorem Router.checkServerRateLimit_ne_scopeDenied (router : Router) (server : ServerRecord) (serverName : String) :
    router.checkServerRateLimit server ≠ .error (.scopeDenied serverName) := by
  unfold Router.checkServerRateLimit
  repeat' split
  all_goals simp

theorem Router.admit_scopeDenied_iff (router : Router) (scope : List String) (selected : ServerRecord) :
    (∃ serverName, router.admit scope selected = .error (.scopeDenied serverName)) ↔
      checkServerScope scope selected.name = false := by
  unfold Router.admit
  split_ifs with inScope
  · simp [inScope, Router.checkServerRateLimit_ne_scopeDenied]
  · simpa using inScope

theorem Router.select_ne_scopeDenied (router : Router) (name : String) (resolved : Resolved) (serverName : String) :
    router.select name resolved ≠ .error (.scopeDenied serverName) := by
  unfold Router.select
  split_ifs
  · simp
  · split <;> simp

theorem Router.route_scopeDenied_iff (router : Router) (scope : List String) (toolName : String) :
    (∃ serverName, router.route scope toolName = .error (.scopeDenied serverName)) ↔
      trimSpace toolName ≠ "" ∧ ∃ selected,
        router.select (trimSpace toolName) (router.resolve toolName) = .ok selected ∧
          checkServerScope scope selected.name = false := by
  unfold Router.route
  split_ifs with blank
  · simp [blank]
  cases chosen : router.select (trimSpace toolName) (router.resolve toolName) with
  | error error =>
    have := router.select_ne_scopeDenied (trimSpace toolName) (router.resolve toolName)
    simp_all
  | ok selected =>
    simp only [ne_eq, blank, not_false_eq_true, true_and, Except.ok.injEq, exists_eq_left',
      ← router.admit_scopeDenied_iff scope selected]
    cases router.admit scope selected <;> simp

theorem Router.select_onTurn_iff (router : Router) (counter : Nat) (name : String) (resolved : Resolved)
    (selected : ServerRecord) : (router.onTurn counter).select name resolved = .ok selected ↔
      (router.candidates resolved)[counter % 2 ^ 64 % (router.candidates resolved).length]? = some selected := by
  have same : (router.onTurn counter).candidates resolved = router.candidates resolved := rfl
  unfold Router.select
  rw [same]
  split_ifs with none
  · simp [none]
  · simp only [Router.onTurn, roundRobin]
    split <;> simp_all

def Router.HidesNoReplica (router : Router) (scope : List String) (toolName : String) : Prop :=
  (∃ replica ∈ router.replicas toolName, checkServerScope scope replica.name = true) →
    ∀ serverName, router.route scope toolName ≠ .error (.scopeDenied serverName)

def Router.Uniform (router : Router) (scope : List String) (toolName : String) : Prop :=
  ∀ replica ∈ router.replicas toolName, ∀ other ∈ router.replicas toolName,
    checkServerScope scope replica.name = checkServerScope scope other.name

theorem Router.hidesNoReplica_iff (router : Router) (scope : List String) (toolName : String) :
    router.HidesNoReplica scope toolName ↔
      ((∃ replica ∈ router.replicas toolName, checkServerScope scope replica.name = true) →
        ∀ selected, router.select (trimSpace toolName) (router.resolve toolName) = .ok selected →
          checkServerScope scope selected.name = true) := by
  refine imp_congr_right fun ⟨replica, mem, _⟩ => ?_
  have named : trimSpace toolName ≠ "" := by
    intro blank
    rw [router.replicas_blank blank] at mem
    cases mem
  rw [← not_exists, router.route_scopeDenied_iff]
  simp [named]

theorem Router.hidesNoReplica_of_uniform (chooses : RoutingStrategy.Chooses router.strategy)
    (uniform : router.Uniform scope toolName) : router.HidesNoReplica scope toolName := by
  rw [router.hidesNoReplica_iff]
  rintro ⟨replica, mem, inScope⟩ selected chosen
  rw [uniform selected (Router.candidate_of_select chooses chosen) replica mem]
  exact inScope

theorem Router.onTurn_hidesNoReplica_iff (router : Router) (counter : Nat) (scope : List String) (toolName : String) :
    (router.onTurn counter).HidesNoReplica scope toolName ↔
      ((∃ replica ∈ router.replicas toolName, checkServerScope scope replica.name = true) →
        ∀ next, (router.replicas toolName)[counter % 2 ^ 64 % (router.replicas toolName).length]? = some next →
          checkServerScope scope next.name = true) := by
  rw [Router.hidesNoReplica_iff]
  refine imp_congr_right fun _ => forall_congr' fun selected => imp_congr_left ?_
  exact router.select_onTurn_iff counter _ _ selected

theorem Router.uniform_of_every_turn (addressable : (router.replicas toolName).length ≤ 2 ^ 64)
    (always : ∀ counter, (router.onTurn counter).HidesNoReplica scope toolName) : router.Uniform scope toolName := by
  have reachable : (∃ replica ∈ router.replicas toolName, checkServerScope scope replica.name = true) →
      ∀ other ∈ router.replicas toolName, checkServerScope scope other.name = true := by
    intro offered other mem
    obtain ⟨position, within, rfl⟩ := List.mem_iff_getElem.mp mem
    -- The counter that equals the position points there.
    have turn := (router.onTurn_hidesNoReplica_iff position scope toolName).mp (always position) offered
    apply turn
    rw [Nat.mod_eq_of_lt (within.trans_le addressable), Nat.mod_eq_of_lt within, List.getElem?_eq_getElem within]
  intro replica mem other otherMember
  cases here : checkServerScope scope replica.name with
  | true => exact (reachable ⟨replica, mem, here⟩ other otherMember).symm
  | false =>
    cases there : checkServerScope scope other.name with
    | false => rfl
    | true => exact here.symm.trans (reachable ⟨other, otherMember, there⟩ replica mem)

theorem scope_hides_no_replica_iff (router : Router) (scope : List String) (toolName : String)
    (addressable : (router.replicas toolName).length ≤ 2 ^ 64) :
    (∀ counter, (router.onTurn counter).HidesNoReplica scope toolName ↔
      ((∃ replica ∈ router.replicas toolName, checkServerScope scope replica.name = true) →
        ∀ next, (router.replicas toolName)[counter % 2 ^ 64 % (router.replicas toolName).length]? = some next →
          checkServerScope scope next.name = true)) ∧
    ((∀ counter, (router.onTurn counter).HidesNoReplica scope toolName) ↔ router.Uniform scope toolName) ∧
    (RoutingStrategy.Chooses router.strategy → router.Uniform scope toolName →
      router.HidesNoReplica scope toolName) := by
  refine ⟨fun counter => router.onTurn_hidesNoReplica_iff counter scope toolName, ⟨?_, ?_⟩, ?_⟩
  · exact Router.uniform_of_every_turn addressable
  · intro uniform counter
    have chooses : RoutingStrategy.Chooses (router.onTurn counter).strategy := roundRobin_chooses counter
    exact Router.hidesNoReplica_of_uniform chooses uniform
  · intro chooses uniform
    exact Router.hidesNoReplica_of_uniform chooses uniform

namespace Sample

def wikiReplica (id name : String) : ServerRecord where
  id := id
  name := name
  spiffeId := "spiffe://cluster.local/ns/tools/sa/wiki"
  version := "3.2.0"
  host := "10.0.5.9"
  port := 8443
  protocol := "https"
  capabilities := ⟨["search", "read"], [], []⟩
  status := .active
  policyProfile := "default"
  lastHeartbeat := some 600
  leaseEpoch := 1
  capabilityHash := ""
  syncState := .acked
  lastPlatformAckVersion := "1"
  lastPlatformAckAt := some 500
  rateLimit := none
  rateBurst := none
  routingStrategy := ""
  createdAt := 100
  updatedAt := 600

def wikiRouter : Router where
  index := .rebuild [wikiReplica "a" "mcp-wiki-eu", wikiReplica "b" "mcp-wiki-us"]
  strategy := roundRobin 0
  limiter := none
  resolver := none

end Sample

open Sample

theorem wiki_scope_hides_no_replica_iff : (wikiRouter.replicas "search").length ≤ 2 ^ 64 ∧
      ((∀ counter, (wikiRouter.onTurn counter).HidesNoReplica ["wiki-eu", "wiki-us"] "search") ↔
        wikiRouter.Uniform ["wiki-eu", "wiki-us"] "search") := by
  have addressable : (wikiRouter.replicas "search").length ≤ 2 ^ 64 := by decide +kernel
  exact ⟨addressable, (scope_hides_no_replica_iff wikiRouter ["wiki-eu", "wiki-us"] "search" addressable).2.1⟩

theorem second_wiki_call_hides_replica :
    (wikiRouter.onTurn 1).route ["wiki-eu"] "search" = .error (.scopeDenied "mcp-wiki-us") ∧
      (∃ replica ∈ (wikiRouter.onTurn 1).replicas "search", checkServerScope ["wiki-eu"] replica.name = true) ∧
      ¬ (wikiRouter.onTurn 1).HidesNoReplica ["wiki-eu"] "search" := by
  have denied : (wikiRouter.onTurn 1).route ["wiki-eu"] "search" = .error (.scopeDenied "mcp-wiki-us") := by
    decide +kernel
  have offered : ∃ replica ∈ (wikiRouter.onTurn 1).replicas "search",
      checkServerScope ["wiki-eu"] replica.name = true := by
    decide +kernel
  exact ⟨denied, offered, fun hides => hides offered _ denied⟩

structure RouteCall where
  scope : List String
  toolName : String
  -- What the limiter answers at the time of the call.
  limiter : Option LimiterBackend

def Router.answer (router : Router) (counter : Nat) (call : RouteCall) : Except RouteError Dispatch :=
  ({ router with limiter := call.limiter }.onTurn counter).route call.scope call.toolName

-- Select is reached and moves the counter, also for a call that is refused afterwards.
def Router.advance (router : Router) (counter : Nat) (call : RouteCall) : Nat :=
  if trimSpace call.toolName = "" ∨ router.replicas call.toolName = [] then counter else counter + 1

def Router.sent (router : Router) (resolved : Resolved) (server : ServerRecord) : Nat → List RouteCall → Nat
  | _, [] => 0
  | counter, call :: rest =>
    (if router.resolve call.toolName = resolved ∧
        (router.answer counter call).toOption.map Dispatch.server = some server then 1 else 0) +
      router.sent resolved server (router.advance counter call) rest

def Router.turns (router : Router) (resolved : Resolved) : Nat → List RouteCall → List Nat
  | _, [] => []
  | counter, call :: rest =>
    if router.resolve call.toolName = resolved ∧ (router.answer counter call).toOption.isSome then
      counter % 2 ^ 64 :: router.turns resolved (router.advance counter call) rest
    else router.turns resolved (router.advance counter call) rest

theorem Router.answer_ok {call : RouteCall} {dispatch : Dispatch}
    (answered : router.answer counter call = .ok dispatch) :
    (router.replicas call.toolName)[counter % 2 ^ 64 % (router.replicas call.toolName).length]? =
      some dispatch.server := by
  obtain ⟨-, -, chosen, -⟩ := Router.route_ok answered
  exact (Router.select_onTurn_iff { router with limiter := call.limiter } counter _ _ _).mp chosen

theorem Router.sent_eq (router : Router) (resolved : Resolved) (server : ServerRecord) (counter : Nat)
    (calls : List RouteCall) : router.sent resolved server counter calls =
      (router.turns resolved counter calls).countP fun turn =>
        (router.candidates resolved)[turn % (router.candidates resolved).length]? = some server := by
  induction calls generalizing counter with
  | nil => rfl
  | cons call rest ih =>
    rw [Router.sent, Router.turns, ih]
    by_cases addressed : router.resolve call.toolName = resolved
    · cases answered : router.answer counter call with
      | error error => simp [Except.toOption]
      | ok dispatch =>
        have turn := Router.answer_ok answered
        rw [Router.replicas, addressed] at turn
        simp only [addressed, Except.toOption, Option.isSome_some, and_self, if_true, true_and, Option.map_some,
          List.countP_cons, turn, decide_eq_true_eq]
        omega
    · simp [addressed]

theorem Router.candidates_nodup (router : Router) (resolved : Resolved) : (router.candidates resolved).Nodup := by
  have listed : (router.index.lookupTool resolved.toolName).Nodup := by
    unfold CapabilityIndex.lookupTool
    split_ifs
    · exact List.nodup_nil
    · exact List.Nodup.of_map _ (Postings.bucket_nodup _ _)
  unfold Router.candidates
  split_ifs
  · exact listed
  · exact listed.filter _

theorem Router.sent_eq_count {resolved : Resolved} {calls : List RouteCall} {place : Nat}
    (within : place < (router.candidates resolved).length) :
    router.sent resolved (router.candidates resolved)[place] counter calls =
      ((router.turns resolved counter calls).map (· % (router.candidates resolved).length)).count place := by
  rw [router.sent_eq, List.count, List.countP_map]
  apply List.countP_congr
  intro turn _
  have below : turn % (router.candidates resolved).length < (router.candidates resolved).length :=
    Nat.mod_lt _ (by omega)
  rw [List.getElem?_eq_getElem below]
  simp [(router.candidates_nodup resolved).getElem_inj_iff]

/-- A tool's calls are shared out evenly if in between the counter goes through whole rounds of its candidates. -/
theorem round_robin_fair (router : Router) (resolved : Resolved) (counter : Nat) (calls : List RouteCall)
    (spaced : Cyclic (router.candidates resolved).length (router.turns resolved counter calls))
    (server other : ServerRecord) (candidate : server ∈ router.candidates resolved)
    (otherCandidate : other ∈ router.candidates resolved) :
    router.sent resolved server counter calls ≤ router.sent resolved other counter calls + 1 := by
  obtain ⟨place, within, rfl⟩ := List.mem_iff_getElem.mp candidate
  obtain ⟨otherPlace, otherWithin, rfl⟩ := List.mem_iff_getElem.mp otherCandidate
  rw [Router.sent_eq_count within, Router.sent_eq_count otherWithin]
  exact spaced.count_le within otherWithin

namespace Sample

def wikiCall (toolName : String) : RouteCall :=
  ⟨[], toolName, none⟩

def euReplica : ServerRecord := wikiReplica "a" "mcp-wiki-eu"

def usReplica : ServerRecord := wikiReplica "b" "mcp-wiki-us"

end Sample

theorem wiki_searches_fair : Cyclic 2 (wikiRouter.turns ⟨"search", ""⟩ 0 (List.replicate 3 (wikiCall "search"))) ∧
      wikiRouter.sent ⟨"search", ""⟩ euReplica 0 (List.replicate 3 (wikiCall "search")) ≤
        wikiRouter.sent ⟨"search", ""⟩ usReplica 0 (List.replicate 3 (wikiCall "search")) + 1 := by
  have spaced : Cyclic 2 (wikiRouter.turns ⟨"search", ""⟩ 0 (List.replicate 3 (wikiCall "search"))) := by
    decide +kernel
  refine ⟨spaced, round_robin_fair wikiRouter ⟨"search", ""⟩ 0 _ spaced _ _ ?_ ?_⟩ <;> decide +kernel

theorem alternating_wiki_calls_unfair : euReplica ∈ wikiRouter.candidates ⟨"search", ""⟩ ∧
      usReplica ∈ wikiRouter.candidates ⟨"search", ""⟩ ∧ wikiRouter.sent ⟨"search", ""⟩ euReplica 0
        [wikiCall "search", wikiCall "read", wikiCall "search", wikiCall "read"] = 2 ∧
      wikiRouter.sent ⟨"search", ""⟩ usReplica 0
        [wikiCall "search", wikiCall "read", wikiCall "search", wikiCall "read"] = 0 := by
  decide +kernel

end McpGateway.Proxy
