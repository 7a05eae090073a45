import McpGateway.Proxy.Router

namespace McpGateway.Proxy

open Shared Registration Auth

inductive RouteEffect where
  | asked (key : LimiterKey) (limit burst : Int) (answer : LimiterAnswer)
  | called (dispatch : Dispatch)
  deriving DecidableEq

inductive RouteFailure where
  | refused (error : RouteError)
  | backend (serverId cause : String)

def limiterKey (server : ServerRecord) : LimiterKey :=
  ⟨"server:" ++ server.id, "global"⟩

namespace Router

def asks (router : Router) (server : ServerRecord) : List RouteEffect :=
  match server.rateLimit, router.limiter with
  | some limit, some allow =>
    if limit ≤ 0 then []
    else
      let burst := if 0 < server.rateBurst.getD 0 then server.rateBurst.getD 0 else limit
      [.asked (limiterKey server) limit burst (allow (limiterKey server) limit burst)]
  | _, _ => []

/-- Route from the name to the result, with everything it does on the way; `callTool` is what the clients of the
backends answer. -/
def perform {Result : Type} (router : Router) (callTool : Dispatch → Except String Result) (scope : List String)
    (toolName : String) : Except RouteFailure Result × List RouteEffect :=
  if trimSpace toolName = "" then (.error (.refused .missingToolName), [])
  else
    match router.select (trimSpace toolName) (router.resolve toolName) with
    | .error error => (.error (.refused error), [])
    | .ok selected =>
      if checkServerScope scope selected.name then
        match router.checkServerRateLimit selected with
        | .error error => (.error (.refused error), router.asks selected)
        | .ok _ =>
          let dispatch : Dispatch := ⟨selected, (router.resolve toolName).toolName⟩
          ((callTool dispatch).mapError (.backend selected.id), router.asks selected ++ [.called dispatch])
      else (.error (.refused (.scopeDenied selected.name)), [])

def Separates (router : Router) (separator : String) : Prop :=
  separator = "." ∨ ∃ resolver ∈ router.resolver, separator = resolver.separator

structure Guarded (router : Router) (scope : List String) (toolName : String) (effects : List RouteEffect)
    (dispatch : Dispatch) : Prop where
  indexed : dispatch.server ∈ router.index.lookupTool dispatch.toolName
  inScope : checkServerScope scope dispatch.server.name = true
  unblocked : ∀ limit ∈ dispatch.server.rateLimit, 0 < limit
  admitted : dispatch.server.rateLimit ≠ none → router.limiter ≠ none →
    ∃ limit burst, effects = [.asked (limiterKey dispatch.server) limit burst .allowed, .called dispatch]
  named : dispatch.toolName = trimSpace toolName ∨
    ∃ start separator, router.Separates separator ∧ trimSpace toolName = start ++ separator ++ dispatch.toolName
  hinted : (router.resolve toolName).serverHint = "" ∨ Answers dispatch.server (router.resolve toolName).serverHint

variable {Result : Type} {router : Router} {callTool : Dispatch → Except String Result} {scope : List String}
  {toolName : String}

/-- Without its effects this is Route itself. -/
theorem perform_answer : (router.perform callTool scope toolName).1 =
    ((router.route scope toolName).mapError .refused).bind
      fun dispatch => (callTool dispatch).mapError (.backend dispatch.server.id) := by
  unfold perform route Router.admit
  by_cases unnamed : trimSpace toolName = ""
  · simp [unnamed, Except.mapError, Except.bind]
  · simp only [if_neg unnamed]
    cases router.select (trimSpace toolName) (router.resolve toolName) with
    | error error => rfl
    | ok selected =>
      by_cases inScope : checkServerScope scope selected.name = true
      · simp only [inScope, if_true]
        cases router.checkServerRateLimit selected <;> rfl
      · simp only [if_neg inScope]
        rfl

theorem resolve_separated (router : Router) (toolName : String) :
    (router.resolve toolName).toolName = trimSpace toolName ∨ ∃ start separator, router.Separates separator ∧
        trimSpace toolName = start ++ separator ++ (router.resolve toolName).toolName := by
  unfold resolve resolveFederatedName
  split_ifs
  · exact .inl rfl
  · cases namespaced : router.resolver.bind (·.resolve router.index (trimSpace toolName)) with
    | some resolved =>
      obtain ⟨resolver, configured, found⟩ := Option.bind_eq_some_iff.mp namespaced
      obtain ⟨-, split, -⟩ := (resolver.resolve_iff router.index (trimSpace_trimSpace toolName) resolved).mp found
      exact .inr ⟨_, resolver.separator, .inr ⟨resolver, configured, rfl⟩, cut_some split⟩
    | none =>
      cases split : cut (trimSpace toolName) "." with
      | none => simp [byFirstSegment, byLegacyFormat, split]
      | some parts =>
        obtain ⟨first, rest⟩ := parts
        have whole := cut_some split
        rw [byFirstSegment_of_cut _ split, byLegacyFormat_of_cut split]
        by_cases registered : first ≠ "" ∧ router.index.lookupTool rest ≠ []
        · exact .inr ⟨first, ".", .inl rfl, by simpa [registered] using whole⟩
        · rw [if_neg registered]
          by_cases legacy : first = "mcp"
          · cases later : cut rest "." with
            | none => simp [legacy]
            | some parts =>
              refine .inr ⟨first ++ "." ++ parts.1, ".", .inl rfl, ?_⟩
              rw [whole, cut_some later]
              simp [legacy, String.append_assoc]
          · simp [legacy]

theorem checkServerRateLimit_ok {server : ServerRecord} (passed : router.checkServerRateLimit server = .ok ()) :
    (∀ limit ∈ server.rateLimit, 0 < limit) ∧ (server.rateLimit ≠ none → router.limiter ≠ none →
        ∃ limit burst, router.asks server = [.asked (limiterKey server) limit burst .allowed]) := by
  unfold checkServerRateLimit at passed
  unfold asks limiterKey
  cases limited : server.rateLimit with
  | none => simp
  | some limit =>
    by_cases blocked : limit ≤ 0
    · simp [limited, blocked] at passed
    · refine ⟨by simpa using blocked, fun _ configured => ?_⟩
      cases limiting : router.limiter with
      | none => exact absurd limiting configured
      | some allow =>
        simp only [limited, limiting, if_neg blocked] at passed ⊢
        generalize (if 0 < server.rateBurst.getD 0 then server.rateBurst.getD 0 else limit) = burst at passed ⊢
        cases answer : allow ⟨"server:" ++ server.id, "global"⟩ limit burst with
        | allowed => exact ⟨limit, burst, rfl⟩
        | retryAfter wait => simp [answer] at passed
        | failed cause => simp [answer] at passed

theorem asks_calls_nothing (server : ServerRecord) (dispatch : Dispatch) : .called dispatch ∉ router.asks server := by
  unfold asks
  split
  · split_ifs <;> simp
  · simp

/-- Everything Route can come to: it refuses and calls no backend, or it calls the backend it has chosen, all guards
passed. -/
theorem perform_cases : (∃ error, (router.perform callTool scope toolName).1 = .error (.refused error) ∧
        ∀ dispatch, .called dispatch ∉ (router.perform callTool scope toolName).2) ∨
      ∃ selected, router.select (trimSpace toolName) (router.resolve toolName) = .ok selected ∧
        checkServerScope scope selected.name = true ∧ router.checkServerRateLimit selected = .ok () ∧
        (router.perform callTool scope toolName).2 =
          router.asks selected ++ [.called ⟨selected, (router.resolve toolName).toolName⟩] := by
  unfold perform
  split_ifs
  · exact .inl ⟨_, rfl, by simp⟩
  · cases chosen : router.select (trimSpace toolName) (router.resolve toolName) with
    | error error => exact .inl ⟨error, rfl, by simp⟩
    | ok selected =>
      dsimp only
      split_ifs with inScope
      · cases limited : router.checkServerRateLimit selected with
        | error error => exact .inl ⟨error, rfl, asks_calls_nothing selected⟩
        | ok admitted => exact .inr ⟨selected, rfl, inScope, limited, rfl⟩
      · exact .inl ⟨_, rfl, by simp⟩

theorem guarded_of_admitted (chooses : RoutingStrategy.Chooses router.strategy) {selected : ServerRecord}
    {resolved : Resolved} (resolution : router.resolve toolName = resolved)
    (chosen : router.select (trimSpace toolName) resolved = .ok selected)
    (inScope : checkServerScope scope selected.name = true) (limited : router.checkServerRateLimit selected = .ok ()) :
    router.Guarded scope toolName (router.asks selected ++ [.called ⟨selected, resolved.toolName⟩])
      ⟨selected, resolved.toolName⟩ := by
  obtain ⟨indexed, hinted⟩ := indexed_of_select chooses chosen
  obtain ⟨unblocked, admitted⟩ := checkServerRateLimit_ok limited
  have named := router.resolve_separated toolName
  rw [resolution] at named
  constructor
  case indexed => exact indexed
  case inScope => exact inScope
  case unblocked => exact unblocked
  case hinted => rwa [resolution]
  case named => exact named
  case admitted =>
    intro limits configured
    obtain ⟨limit, burst, asked⟩ := admitted limits configured
    exact ⟨limit, burst, by rw [asked]; rfl⟩

end Router

/-- A backend is called only with every guard passed, at most once, and not at all where Route refuses; without a call
there is no result. -/
theorem routing_sound {Result : Type} (router : Router) (chooses : RoutingStrategy.Chooses router.strategy)
    (callTool : Dispatch → Except String Result) (scope : List String) (toolName : String) :
    let outcome := router.perform callTool scope toolName
    (∀ dispatch, .called dispatch ∈ outcome.2 → router.Guarded scope toolName outcome.2 dispatch) ∧
      (∀ first second, .called first ∈ outcome.2 → .called second ∈ outcome.2 → first = second) ∧
      ((∀ dispatch, .called dispatch ∉ outcome.2) → ∃ error, outcome.1 = .error error) := by
  have cases := @Router.perform_cases Result router callTool scope toolName
  generalize router.perform callTool scope toolName = outcome at cases
  obtain ⟨answer, effects⟩ := outcome
  dsimp only at cases ⊢
  cases cases with
  | inl refused =>
    obtain ⟨error, answer, silent⟩ := refused
    exact ⟨fun dispatch called => absurd called (silent dispatch), fun first _ called => absurd called (silent first),
      fun _ => ⟨_, answer⟩⟩
  | inr dispatched =>
    obtain ⟨selected, chosen, inScope, limited, rfl⟩ := dispatched
    have guarded := Router.guarded_of_admitted chooses rfl chosen inScope limited
    generalize (⟨selected, (router.resolve toolName).toolName⟩ : Dispatch) = target at guarded ⊢
    have only : ∀ dispatch, .called dispatch ∈ router.asks selected ++ [.called target] → dispatch = target := by
      intro dispatch called
      simpa [Router.asks_calls_nothing] using called
    refine ⟨?_, ?_, ?_⟩
    · intro dispatch called
      rwa [only dispatch called]
    · intro first second calledFirst calledSecond
      rw [only first calledFirst, only second calledSecond]
    · intro silent
      exact absurd (by simp) (silent target)

namespace Sample

def limited : ServerRecord where
  id := "1f"
  name := "mcp-k8s"
  spiffeId := "spiffe://cluster.local/ns/tools/sa/k8s"
  version := "1.4.0"
  host := "10.0.3.7"
  port := 8443
  protocol := "https"
  capabilities := ⟨["list_pods"], [], []⟩
  status := .active
  policyProfile := "default"
  lastHeartbeat := none
  leaseEpoch := 1
  capabilityHash := ""
  syncState := .unacked
  lastPlatformAckVersion := ""
  lastPlatformAckAt := none
  rateLimit := some 10
  rateBurst := none
  routingStrategy := "round_robin"
  createdAt := 0
  updatedAt := 0

def limiting : Router :=
  ⟨.rebuild [limited], roundRobin 0, some fun _ _ _ => .allowed, some ⟨.always, "__"⟩⟩

def limitedPods : Except RouteFailure Unit × List RouteEffect :=
  limiting.perform (fun _ => .ok ()) ["k8s"] "K8S__list_pods"

end Sample

open Sample

theorem limited_pods_routing_sound :
    limitedPods.2 = [.asked ⟨"server:1f", "global"⟩ 10 10 .allowed, .called ⟨limited, "list_pods"⟩] ∧
      limiting.Guarded ["k8s"] "K8S__list_pods" limitedPods.2 ⟨limited, "list_pods"⟩ := by
  have effects : limitedPods.2 =
      [.asked ⟨"server:1f", "global"⟩ 10 10 .allowed, .called ⟨limited, "list_pods"⟩] := by decide +kernel
  have sound := routing_sound limiting (roundRobin_chooses 0) (fun _ => .ok ()) ["k8s"] "K8S__list_pods"
  exact ⟨effects, sound.1 _ (effects ▸ by simp)⟩

end McpGateway.Proxy
