import McpGateway.Policy.Middleware
import McpGateway.RateLimit.MemoryBackend
import McpGateway.Shared.JsonPrint

namespace McpGateway.RateLimit

open Shared Policy

structure HttpRequest where
  method : String
  contentType : String
  body : Option HttpBody
  routePattern : Option String
  path : String
  identity : Option Identity

structure RateProfile where
  rateLimit : Int
  rateBurst : Int

abbrev ProfileResolver := Option Identity → Option RateProfile

def resolveClientId (identity : Option Identity) : String :=
  match identity with
  | some identity => if trimSpace identity.id = "" then "anonymous" else trimSpace identity.id
  | none => "anonymous"

def resolveProfile (resolver : Option ProfileResolver) (request : HttpRequest) : Rat × Int :=
  match resolver.bind fun resolve => resolve request.identity with
  | none => (0, 0)
  | some profile =>
    (if 0 < profile.rateLimit then profile.rateLimit else 0, if 0 < profile.rateBurst then profile.rateBurst else 0)

def decodeMethod (content : String) : Option String := do
  let json ← Json.parse content
  let members ← structMembers [json]
  decodeStrings (fieldMembers "method" members)

def sendsJson (request : HttpRequest) : Bool :=
  contains (toLower request.contentType) "application/json" && request.method = "POST"

def readMCPMethod (request : HttpRequest) : String :=
  match request.body with
  | none => ""
  | some body =>
    if !sendsJson request then ""
    else if body.readFailed ∨ body.content = "" then ""
    else (decodeMethod body.content).elim "" trimSpace

def resolveRouteKey (request : HttpRequest) : String :=
  if readMCPMethod request ≠ "" then "mcp/" ++ readMCPMethod request
  else if trimSpace (request.routePattern.getD "") ≠ "" then trimSpace (request.routePattern.getD "")
  else if trimSpace request.path ≠ "" then trimSpace request.path
  else "unknown"

def limiterKey (request : HttpRequest) : LimiterKey := ⟨resolveClientId request.identity, resolveRouteKey request⟩

structure Arrival where
  request : HttpRequest
  now : Time
  checkedAt : Time
  countedAt : Time
  missedAt : Time
  headersAt : Time

def Arrival.call (arrival : Arrival) (resolver : Option ProfileResolver) : LimiterCall where
  key := limiterKey arrival.request
  limit := (resolveProfile resolver arrival.request).1
  burst := (resolveProfile resolver arrival.request).2
  context := .live
  now := arrival.now
  checkedAt := arrival.checkedAt
  countedAt := arrival.countedAt
  missedAt := arrival.missedAt
  serverNow := arrival.now

structure LimitHeaders where
  limit : Rat
  remaining : Int
  reset : Int

def backendHeaders (limit : Rat) (remaining : Int) (now : Time) : LimitHeaders :=
  let limitPerSecond := if limit ≤ 0 then defaultRateLimit else limit
  let resetAt := if max remaining 0 < 1 then now + truncateInt64 (roundFloat64 (second / limitPerSecond)) else now
  ⟨limitPerSecond, max remaining 0, resetAt / second⟩

inductive Served where
  | passed (headers : LimitHeaders)
  | limited (headers : LimitHeaders) (retryAfterSecs : Int)

variable {lib : RateLibrary}

def MemoryBackend.serve (resolver : Option ProfileResolver) (backend : MemoryBackend lib) (arrival : Arrival) :
    MemoryBackend lib × Served :=
  let (backend, answer) := backend.allow (arrival.call resolver)
  let headers := backendHeaders (arrival.call resolver).limit answer.remaining arrival.headersAt
  if answer.allowed then (backend, .passed headers)
  else
    let secs := (durationSeconds answer.retryAfter).ceil
    (backend, .limited headers (if secs ≤ 0 then 1 else secs))

def MemoryBackend.after (resolver : Option ProfileResolver) (backend : MemoryBackend lib) (arrivals : List Arrival) :
    MemoryBackend lib :=
  run (fun backend arrival => (backend.serve resolver arrival).1) backend arrivals

def MemoryBackend.created (resolver : Option ProfileResolver) (backend : MemoryBackend lib) (arrivals : List Arrival) :
    List String :=
  (backend.after resolver arrivals).limiters.keys.filter fun key => key ∉ backend.limiters.keys

section Keys

variable {resolver : Option ProfileResolver} {backend : MemoryBackend lib} {arrival : Arrival} {arrivals : List Arrival}

theorem serve_backend : (backend.serve resolver arrival).1 = (backend.allow (arrival.call resolver)).1 := by
  unfold MemoryBackend.serve
  dsimp only
  split_ifs <;> rfl

theorem mem_keys_serve {key : String} : key ∈ (backend.serve resolver arrival).1.limiters.keys ↔
      key = (arrival.call resolver).mapKey ∨ key ∈ backend.limiters.keys := by
  rw [serve_backend, ← AList.mem_keys, ← AList.mem_keys]
  exact AList.mem_insert _

theorem mem_keys_after {key : String} : key ∈ (backend.after resolver arrivals).limiters.keys ↔
      (∃ arrival ∈ arrivals, key = (arrival.call resolver).mapKey) ∨ key ∈ backend.limiters.keys := by
  induction arrivals generalizing backend with
  | nil => simp [MemoryBackend.after, run]
  | cons arrival arrivals ih =>
    have step : backend.after resolver (arrival :: arrivals) =
        (backend.serve resolver arrival).1.after resolver arrivals := rfl
    rw [step, ih, mem_keys_serve, List.exists_mem_cons_iff, or_left_comm, or_assoc]

theorem mem_created {key : String} : key ∈ backend.created resolver arrivals ↔
      (∃ arrival ∈ arrivals, key = (arrival.call resolver).mapKey) ∧ key ∉ backend.limiters.keys := by
  rw [MemoryBackend.created, List.mem_filter, mem_keys_after, decide_eq_true_eq]
  constructor
  · rintro ⟨listed, fresh⟩
    exact ⟨listed.resolve_right fresh, fresh⟩
  · rintro ⟨listed, fresh⟩
    exact ⟨.inl listed, fresh⟩

theorem nodup_created : (backend.created resolver arrivals).Nodup :=
  (AList.keys_nodup _).filter _

end Keys

def Mounted (patterns : List String) (request : HttpRequest) : Prop :=
  ∃ pattern ∈ patterns, request.routePattern = some pattern ∧ trimSpace pattern ≠ ""

def NamesKnownMethod (methods : List String) (request : HttpRequest) : Prop :=
  sendsJson request = true → ∀ body ∈ request.body, ∀ method ∈ decodeMethod body.content,
    trimSpace method = "" ∨ trimSpace method ∈ methods

theorem readMCPMethod_known {methods : List String} {request : HttpRequest} (known : NamesKnownMethod methods request) :
    readMCPMethod request = "" ∨ readMCPMethod request ∈ methods := by
  unfold readMCPMethod
  cases given : request.body with
  | none => exact .inl rfl
  | some body =>
    dsimp only
    split_ifs with other unread
    · exact .inl rfl
    · exact .inl rfl
    · cases decoded : decodeMethod body.content with
      | none => exact .inl rfl
      | some method => exact known (by simpa using other) body given method decoded

theorem resolveRouteKey_listed {methods patterns : List String} {request : HttpRequest}
    (known : NamesKnownMethod methods request) (mounted : Mounted patterns request) :
    resolveRouteKey request ∈ methods.map ("mcp/" ++ ·) ++ patterns.map trimSpace := by
  obtain ⟨pattern, listed, matched, visible⟩ := mounted
  unfold resolveRouteKey
  split_ifs with named
  · exact List.mem_append_left _ (List.mem_map_of_mem ((readMCPMethod_known known).resolve_left named))
  · rw [matched]
    exact List.mem_append_right _ (List.mem_map_of_mem listed)
  all_goals
    rename_i blank _
    rw [matched] at blank
    exact absurd visible blank

/-- One client whose JSON bodies name known methods gets no more keys than there are methods and mounted routes. -/
theorem limiter_keys_bounded (resolver : Option ProfileResolver) (backend : MemoryBackend lib)
    (methods patterns : List String) (identity : Option Identity) (arrivals : List Arrival)
    (client : ∀ arrival ∈ arrivals, arrival.request.identity = identity)
    (mounted : ∀ arrival ∈ arrivals, Mounted patterns arrival.request)
    (known : ∀ arrival ∈ arrivals, NamesKnownMethod methods arrival.request) :
    (backend.created resolver arrivals).length ≤ methods.length + patterns.length := by
  have within : backend.created resolver arrivals ⊆ (methods.map ("mcp/" ++ ·) ++ patterns.map trimSpace).map
      fun route => (normalizeKey ⟨resolveClientId identity, route⟩).text := by
    intro key new
    obtain ⟨⟨arrival, listed, rfl⟩, -⟩ := mem_created.mp new
    refine List.mem_map.mpr ⟨_, resolveRouteKey_listed (known arrival listed) (mounted arrival listed), ?_⟩
    rw [← client arrival listed]
    rfl
  calc (backend.created resolver arrivals).length
      ≤ _ := (List.subperm_of_subset nodup_created within).length_le
    _ = methods.length + patterns.length := by simp

namespace Sample

def clientMethods : List String :=
  ["initialize", "ping", "tools/list", "tools/call", "resources/list", "resources/templates/list", "resources/read",
    "resources/subscribe", "resources/unsubscribe", "prompts/list", "prompts/get", "logging/setLevel",
    "completion/complete", "notifications/initialized", "notifications/cancelled", "notifications/progress",
    "notifications/roots/list_changed"]

def mcpRoutes : List String :=
  ["/mcp", "/mcp/*", "/mcp/servers/\x7bserverName\x7d", "/mcp/servers/\x7bserverName\x7d/*"]

def client : Identity := ⟨.apikey, "client", [], ∅⟩

def asks (method : String) : Arrival where
  request :=
    { method := "POST"
      contentType := "application/json"
      body := some ⟨String.ofList (Json.object [("method", .string method)]).print, false⟩
      routePattern := some "/mcp/*"
      path := "/mcp/"
      identity := some client }
  now := 0
  checkedAt := 0
  countedAt := 0
  missedAt := 0
  headersAt := 0

def madeUp (n : Nat) : String := String.ofList ('m' :: Nat.toDigits 10 n)

end Sample

variable (method : String)

theorem decodeMethod_asks :
    decodeMethod (String.ofList (Json.object [("method", .string method)]).print) = some method := by
  have printable : (Json.object [("method", .string method)]).Printable := ⟨trivial, trivial⟩
  have nested : (Json.object [("method", .string method)]).nesting ≤ Json.maxNestingDepth := by
    simp [Json.nesting, Json.nestingMembers, Json.maxNestingDepth]
  rw [decodeMethod, Json.parse_print printable nested]
  rfl

open Sample

theorem mounted_asks : Mounted mcpRoutes (asks method).request :=
  ⟨"/mcp/*", by decide, rfl, by decide⟩

theorem readMCPMethod_asks : readMCPMethod (asks method).request = trimSpace method := by
  have json : sendsJson (asks method).request = true := by
    have header : contains (toLower "application/json") "application/json" = true := by decide +kernel
    simp [sendsJson, asks, header]
  have nonempty : String.ofList (Json.object [("method", .string method)]).print ≠ "" := by
    simp [Json.print]
  unfold readMCPMethod
  rw [json]
  simp [asks, nonempty, decodeMethod_asks]

theorem visible_madeUp (n : Nat) : ∀ c ∈ ("mcp/" ++ madeUp n).toList, isSpace c = false := by
  intro c mem
  simp only [madeUp, String.toList_append, String.toList_ofList, List.mem_append, List.mem_cons] at mem
  rcases mem with fixed | start | digit
  · have all : "mcp/".toList.all (fun c => !isSpace c) = true := by decide
    simpa using List.all_eq_true.mp all c fixed
  · rw [start]
    decide
  · exact isSpace_toDigits n c digit

theorem mapKey_madeUp (n : Nat) : ((asks (madeUp n)).call none).mapKey = "client" ++ ":" ++ ("mcp/" ++ madeUp n) := by
  have visible := visible_madeUp n
  have whole : trimSpace ("mcp/" ++ madeUp n) = "mcp/" ++ madeUp n := trimSpace_eq_self _ visible
  have own : trimSpace (madeUp n) = madeUp n :=
    trimSpace_eq_self _ fun c mem => visible c (by rw [String.toList_append]; exact List.mem_append_right _ mem)
  have named : madeUp n ≠ "" := by simp [madeUp]
  have route : resolveRouteKey (asks (madeUp n)).request = "mcp/" ++ madeUp n := by
    rw [resolveRouteKey, readMCPMethod_asks, own, if_pos named]
  have present : trimSpace ("mcp/" ++ madeUp n) ≠ "" := by
    rw [whole]
    simp
  have key : normalizeKey ((asks (madeUp n)).call none).key = ⟨"client", "mcp/" ++ madeUp n⟩ := by
    have clientId : resolveClientId (some client) = "client" := by decide
    have trimmed : trimSpace "client" = "client" := by decide
    show normalizeKey ⟨resolveClientId (some client), _⟩ = _
    simp only [normalizeKey, route, clientId, trimmed, whole]
    simp
  rw [LimiterCall.mapKey, key, LimiterKey.text]

theorem mapKey_injective {left right : Nat} (same : ((asks (madeUp left)).call none).mapKey =
    ((asks (madeUp right)).call none).mapKey) : left = right := by
  rw [mapKey_madeUp, mapKey_madeUp] at same
  have runes := congrArg String.toList same
  simp only [String.toList_append, madeUp, String.toList_ofList, List.append_cancel_left_eq, List.cons.injEq,
    true_and] at runes
  have read (n : Nat) : Nat.ofDigitChars 10 (Nat.toDigits 10 n) 0 = n :=
    Nat.ofDigitChars_toDigits (by decide) (by decide)
  rw [← read left, runes, read right]

theorem created_madeUp (count : Nat) :
    (memory.created none ((List.range count).map fun n => asks (madeUp n))).length = count := by
  have distinct : ((List.range count).map fun n => ((asks (madeUp n)).call none).mapKey).Nodup :=
    List.nodup_range.map fun _ _ => mapKey_injective
  have same : (memory.created none ((List.range count).map fun n => asks (madeUp n))).Perm
        ((List.range count).map fun n => ((asks (madeUp n)).call none).mapKey) := by
    refine (List.perm_ext_iff_of_nodup nodup_created distinct).mpr fun key => ?_
    have empty : key ∉ memory.limiters.keys := List.not_mem_nil
    rw [mem_created, List.mem_map]
    constructor
    · rintro ⟨⟨arrival, listed, rfl⟩, -⟩
      obtain ⟨n, below, rfl⟩ := List.mem_map.mp listed
      exact ⟨n, below, rfl⟩
    · rintro ⟨n, below, rfl⟩
      exact ⟨⟨_, List.mem_map_of_mem below, rfl⟩, empty⟩
  rw [same.length_eq, List.length_map, List.length_range]

theorem two_methods_bounded :
    (memory.created none [asks "tools/call", asks "tools/list"]).length ≤ 17 + 4 := by
  have known (method : String) (trimmed : trimSpace method = method) (listed : method ∈ clientMethods) :
      NamesKnownMethod clientMethods (asks method).request := by
    rintro - body ⟨⟩ read decoded
    rw [decodeMethod_asks] at decoded
    cases decoded
    rw [trimmed]
    exact .inr listed
  refine limiter_keys_bounded none memory clientMethods mcpRoutes (some client) _ ?_ ?_ ?_
  · simp [asks]
  · simp [mounted_asks]
  · simp only [List.forall_mem_cons, List.not_mem_nil, false_implies, implies_true, and_true]
    exact ⟨known "tools/call" (by decide) (by decide), known "tools/list" (by decide) (by decide)⟩

theorem made_up_methods_exceed : clientMethods.length + mcpRoutes.length = 21 ∧
      (∀ n ∈ List.range 22, (asks (madeUp n)).request.identity = some client ∧
        Mounted mcpRoutes (asks (madeUp n)).request) ∧
      (memory.created none ((List.range 22).map fun n => asks (madeUp n))).length = 22 :=
  ⟨by decide, fun _ _ => ⟨rfl, mounted_asks _⟩, created_madeUp 22⟩

end McpGateway.RateLimit
