import McpGateway.Auth.TokenCache
import McpGateway.Shared.Json
import McpGateway.Shared.Lines

namespace McpGateway.Cmd

open Shared Auth

structure Renewal where
  now : Time
  refresh : Except String TokenResponse
  refreshedAt : Time
  login : Except String TokenResponse
  loggedInAt : Time

structure Reply where
  status : Int
  contentType : String
  sessionId : String
  body : Except String String

/-- What one attempt meets: whether the context is done by then, the reply or the error of the transport, and what a
renewal of the tokens would meet. -/
structure Attempt where
  cancelled : Bool
  answer : Except String Reply
  renewal : Renewal

inductive Post where
  | mcp (endpoint : String) (bearer : CachedTokens) (sessionId body : String)
  | token (url refreshToken : String)

structure World where
  tokenFile : TokenFile
  posts : List Post
  stdout : String
  stderr : String

namespace World

def send (world : World) (post : Post) : World :=
  { world with posts := world.posts ++ [post] }

def save (world : World) (tokens : CachedTokens) : World :=
  { world with tokenFile := .ok tokens }

def write (world : World) (text : String) : World :=
  { world with stdout := world.stdout ++ text }

def warn (world : World) (text : String) : World :=
  { world with stderr := world.stderr ++ text }

end World

def loadAndRefreshToken (world : World) (renewal : Renewal) : Except String CachedTokens × World :=
  match world.tokenFile with
  | .error error => (.error ("load tokens: " ++ error), world)
  | .ok tokens =>
    if !tokens.needsRefresh renewal.now then (.ok tokens, world)
    else if trimSpace tokens.refreshToken = "" then
      (.error "access token expired and no refresh token available", world)
    else
      let asked := world.send (.token (tokens.gatewayURL ++ "/device/token") tokens.refreshToken)
      match refreshAccessToken tokens renewal.refresh renewal.refreshedAt with
      | .error error => (.error ("token refresh failed: " ++ error), asked)
      | .ok refreshed => (.ok refreshed, asked.save refreshed)

-- The tokens of a login are loaded from where performLogin has just saved them.
def ensureValidToken (baseURL : String) (world : World) (renewal : Renewal) : Except String CachedTokens × World :=
  match loadAndRefreshToken world renewal with
  | (.ok tokens, loaded) => (.ok tokens, loaded)
  | (.error error, loaded) =>
    let warned := loaded.warn ("mcp-proxy: " ++ error ++ " — starting login...\n")
    match renewal.login with
    | .error error => (.error ("auto-login failed: " ++ error), warned)
    | .ok response =>
      let tokens := response.tokens response.refreshToken baseURL renewal.loggedInAt
      (.ok tokens, warned.save tokens)

def maxTokenSize : Nat := 1024 * 1024

def dropCR (line : String) : String :=
  if line.toList.getLast? = some '\r' then String.ofList line.toList.dropLast else line

-- A scanner ends at a line that does not fit its buffer.
def scanLines (text : String) : List String :=
  ((lines text).takeWhile fun line => line.utf8ByteSize < maxTokenSize).map dropCR

def sseData (line : String) : Option String :=
  if hasPrefix line "data:" ∧ trimSpace (trimPrefix line "data:") ≠ "" then some (trimSpace (trimPrefix line "data:"))
  else none

def extractSSEData (body : String) : String :=
  joinLines ((scanLines body).filterMap sseData)

def Reply.isEventStream (reply : Reply) : Bool :=
  contains reply.contentType "text/event-stream"

def Reply.content (reply : Reply) (body : String) : String :=
  if reply.isEventStream then extractSSEData body else body

inductive Verdict where
  | result (body : String)
  | retry (error : String) (renewed : Option CachedTokens)
  | fatal (error : String)

def handleMCPResponse (baseURL : String) (world : World) (reply : Reply) (renewal : Renewal) : Verdict × World :=
  match reply.body with
  | .error error => (.retry error none, world)
  | .ok body =>
    if reply.status = 200 then (.result (reply.content body), world)
    else if reply.status = 202 then (.result "", world)
    else if reply.status = 401 then
      match ensureValidToken baseURL world renewal with
      | (.error error, renewed) => (.fatal ("auth failed and refresh failed: " ++ error), renewed)
      | (.ok tokens, renewed) => (.retry "unauthorized" (some tokens), renewed)
    else if reply.status = 429 then (.retry "rate limited (status 429)" none, world)
    else (.fatal ("unexpected status " ++ toString reply.status ++ ": " ++ body), world)

structure Bridge where
  baseURL : String
  buildError : Option String

structure Call where
  world : World
  bearer : CachedTokens
  sessionId : String
  lastErr : Option String

namespace Call

def post (call : Call) (bridge : Bridge) (body : String) : World :=
  call.world.send (.mcp (bridge.baseURL ++ "/mcp") call.bearer call.sessionId body)

def attempt (bridge : Bridge) (body : String) (attempt : Attempt) (call : Call) : Verdict × Call :=
  match bridge.buildError with
  | some error => (.fatal ("build request: " ++ error), call)
  | none =>
    match attempt.answer with
    | .error error => (.retry error none, { call with world := call.post bridge body })
    | .ok reply =>
      let (verdict, world) := handleMCPResponse bridge.baseURL (call.post bridge body) reply attempt.renewal
      (verdict, { call with
        world := world
        sessionId := if reply.sessionId = "" then call.sessionId else reply.sessionId })

def again (call : Call) (error : String) (renewed : Option CachedTokens) : Call :=
  { call with
    lastErr := some error
    bearer := (renewed.filter fun tokens => tokens.accessToken ≠ "").getD call.bearer }

def exhausted (call : Call) : String :=
  match call.lastErr with
  | some error => "after retries: " ++ error
  | none => "request failed after retries"

end Call

def sendAttempts (bridge : Bridge) (body : String) (attempts : Nat → Attempt) :
    Nat → Nat → Call → Except String String × Call
  | 0, _, call => (.error call.exhausted, call)
  | left + 1, number, call =>
    if 0 < number ∧ (attempts number).cancelled then (.error "context canceled", call)
    else
      match call.attempt bridge body (attempts number) with
      | (.fatal error, tried) => (.error error, tried)
      | (.retry error renewed, tried) => sendAttempts bridge body attempts left (number + 1) (tried.again error renewed)
      | (.result result, tried) => (.ok result, tried)

def maxAttempts : Nat := 3

def sendMCPRequest (bridge : Bridge) (call : Call) (body : String) (attempts : Nat → Attempt) :
    Except String String × Call :=
  sendAttempts bridge body attempts maxAttempts 0 call

structure Session where
  world : World
  sessionId : String

structure Circumstances where
  cancelled : Bool
  renewal : Renewal
  attempts : Nat → Attempt

structure Exchange where
  line : String
  attempts : Nat → Attempt
  call : Call

def Exchange.finish (bridge : Bridge) (exchange : Exchange) : Session :=
  match sendMCPRequest bridge exchange.call exchange.line exchange.attempts with
  | (.error error, call) =>
    ⟨call.world.warn ("mcp-proxy: request error: " ++ error ++ "\n"), exchange.call.sessionId⟩
  | (.ok body, call) =>
    ⟨if body = "" then call.world else call.world.write (body ++ "\n"),
      if call.sessionId = "" then exchange.call.sessionId else call.sessionId⟩

def Session.exchange (session : Session) (world : World) (tokens : CachedTokens) (line : String)
    (facts : Circumstances) : Exchange :=
  ⟨dropCR line, facts.attempts, ⟨world, tokens, session.sessionId, none⟩⟩

def runProxy (bridge : Bridge) : List (String × Circumstances) → Session → Session × Except String Unit
  | [], session => (session, .ok ())
  | (line, facts) :: rest, session =>
    if maxTokenSize ≤ line.utf8ByteSize then (session, .error "bufio.Scanner: token too long")
    else if facts.cancelled then (session, .ok ())
    else if trimSpace (dropCR line) = "" then runProxy bridge rest session
    else
      match ensureValidToken bridge.baseURL session.world facts.renewal with
      | (.error error, world) => ({ session with world := world }, .error ("mcp-proxy: " ++ error))
      | (.ok tokens, world) => runProxy bridge rest ((session.exchange world tokens line facts).finish bridge)

def Session.start (tokenFile : TokenFile) : Session :=
  ⟨⟨tokenFile, [], "", ""⟩, ""⟩

def exchanges (bridge : Bridge) : List (String × Circumstances) → Session → List Exchange
  | [], _ => []
  | (line, facts) :: rest, session =>
    if maxTokenSize ≤ line.utf8ByteSize then []
    else if facts.cancelled then []
    else if trimSpace (dropCR line) = "" then exchanges bridge rest session
    else
      match ensureValidToken bridge.baseURL session.world facts.renewal with
      | (.error _, _) => []
      | (.ok tokens, world) =>
        session.exchange world tokens line facts ::
          exchanges bridge rest ((session.exchange world tokens line facts).finish bridge)

namespace Sample

def gateway : Bridge := ⟨"https://gw", none⟩

def tokens (gatewayURL : String) : CachedTokens := ⟨"secret", "", "", "Bearer", 3600 * second, gatewayURL⟩

def noRenewal : Renewal := ⟨0, .error "refused", 0, .error "refused", 0⟩

def replying (status : Int) (contentType body : String) : Attempt :=
  ⟨false, .ok ⟨status, contentType, "", .ok body⟩, noRenewal⟩

def ping : String := "\x7b\"id\":1\x7d"

def meeting (line : String) (attempt : Attempt) : String × Circumstances :=
  (line, ⟨false, noRenewal, fun _ => attempt⟩)

end Sample

def usable (tokens : CachedTokens) (renewal : Renewal) : Bool :=
  !tokens.needsRefresh renewal.now || (trimSpace tokens.refreshToken ≠ "" && renewal.refresh.isOk)

structure Continues (world later : World) : Prop where
  stdout : later.stdout = world.stdout
  posts : world.posts <+: later.posts

theorem Continues.refl (world : World) : Continues world world :=
  ⟨rfl, List.prefix_refl _⟩

theorem Continues.trans {world later last : World} (first : Continues world later) (second : Continues later last) :
    Continues world last :=
  ⟨second.stdout.trans first.stdout, first.posts.trans second.posts⟩

theorem Continues.send (world : World) (post : Post) : Continues world (world.send post) :=
  ⟨rfl, List.prefix_append _ _⟩

structure Unloaded (world later : World) : Prop extends Continues world later where
  tokenFile : later.tokenFile = world.tokenFile
  others : ∀ post ∈ later.posts, post ∈ world.posts ∨ ∃ url refreshToken, post = .token url refreshToken

inductive Ensured (baseURL : String) (world : World) (renewal : Renewal) : Except String CachedTokens → World → Prop
  | cached (tokens : CachedTokens) (found : world.tokenFile = .ok tokens)
      (lasting : tokens.needsRefresh renewal.now = false) : Ensured baseURL world renewal (.ok tokens) world
  | refreshed (tokens fresh : CachedTokens) (url refreshToken : String) (found : world.tokenFile = .ok tokens)
      (renewed : usable tokens renewal = true) (same : fresh.gatewayURL = tokens.gatewayURL) :
      Ensured baseURL world renewal (.ok fresh) ((world.send (.token url refreshToken)).save fresh)
  | loggedIn (unusable : ∀ tokens, world.tokenFile = .ok tokens → usable tokens renewal = false) {loaded : World}
      (unloaded : Unloaded world loaded) (tokens : CachedTokens) (own : tokens.gatewayURL = baseURL) :
      Ensured baseURL world renewal (.ok tokens) (loaded.save tokens)
  | failed (unusable : ∀ tokens, world.tokenFile = .ok tokens → usable tokens renewal = false) {loaded : World}
      (unloaded : Unloaded world loaded) (error : String) :
      Ensured baseURL world renewal (.error error) loaded

section

variable {baseURL : String} {world : World} {renewal : Renewal}

theorem refreshAccessToken_ok {tokens fresh : CachedTokens} {answer : Except String TokenResponse} {now : Time}
    (granted : refreshAccessToken tokens answer now = .ok fresh) :
    fresh.gatewayURL = tokens.gatewayURL ∧ answer.isOk = true := by
  unfold refreshAccessToken at granted
  split_ifs at granted
  cases answer with
  | error error => cases granted
  | ok response =>
    cases granted
    exact ⟨rfl, rfl⟩

theorem refreshAccessToken_error {tokens : CachedTokens} {answer : Except String TokenResponse} {now : Time}
    {error : String} (some_token : trimSpace tokens.refreshToken ≠ "")
    (refused : refreshAccessToken tokens answer now = .error error) : answer.isOk = false := by
  simp only [refreshAccessToken, some_token, if_false] at refused
  cases answer with
  | error error => rfl
  | ok response => cases refused

theorem login_cases {loaded : World} (unusable : ∀ tokens, world.tokenFile = .ok tokens → usable tokens renewal = false)
    (unloaded : Unloaded world loaded) (error : String)
    (failed : loadAndRefreshToken world renewal = (.error error, loaded)) :
    Ensured baseURL world renewal (ensureValidToken baseURL world renewal).1
      (ensureValidToken baseURL world renewal).2 := by
  have warned (text : String) : Unloaded world (loaded.warn text) :=
    ⟨⟨unloaded.stdout, unloaded.posts⟩, unloaded.tokenFile, unloaded.others⟩
  unfold ensureValidToken
  rw [failed]
  cases renewal.login with
  | error error => exact .failed unusable (warned _) _
  | ok response => exact .loggedIn unusable (warned _) _ rfl

theorem ensureValidToken_cases (baseURL : String) (world : World) (renewal : Renewal) :
    Ensured baseURL world renewal (ensureValidToken baseURL world renewal).1
      (ensureValidToken baseURL world renewal).2 := by
  have nothing : Unloaded world world := ⟨.refl world, rfl, fun post mem => .inl mem⟩
  have asked (url refreshToken : String) : Unloaded world (world.send (.token url refreshToken)) := by
    refine ⟨.send world _, rfl, fun post mem => ?_⟩
    simp only [World.send, List.mem_append, List.mem_singleton] at mem
    exact mem.imp_right fun same => ⟨_, _, same⟩
  cases found : world.tokenFile with
  | error error =>
    refine login_cases (by simp [found]) nothing ("load tokens: " ++ error) ?_
    simp [loadAndRefreshToken, found]
  | ok tokens =>
    by_cases stale : tokens.needsRefresh renewal.now = true
    · by_cases blank : trimSpace tokens.refreshToken = ""
      · refine login_cases (by simp [found, usable, stale, blank]) nothing
          "access token expired and no refresh token available" ?_
        simp [loadAndRefreshToken, found, stale, blank]
      · cases answered : refreshAccessToken tokens renewal.refresh renewal.refreshedAt with
        | error error =>
          have refused := refreshAccessToken_error blank answered
          refine login_cases (by simp [found, usable, stale, refused])
            (asked (tokens.gatewayURL ++ "/device/token") tokens.refreshToken) ("token refresh failed: " ++ error) ?_
          simp [loadAndRefreshToken, found, stale, blank, answered]
        | ok fresh =>
          obtain ⟨same, granted⟩ := refreshAccessToken_ok answered
          have renewed : usable tokens renewal = true := by simp [usable, blank, granted]
          simpa [ensureValidToken, loadAndRefreshToken, found, stale, blank, answered] using
            Ensured.refreshed tokens fresh _ _ found renewed same
    · have lasting : tokens.needsRefresh renewal.now = false := by simpa using stale
      simpa [ensureValidToken, loadAndRefreshToken, found, lasting] using Ensured.cached tokens found lasting

theorem Ensured.continues {outcome : Except String CachedTokens} {later : World}
    (ensured : Ensured baseURL world renewal outcome later) : Continues world later := by
  cases ensured with
  | cached => exact .refl world
  | refreshed tokens fresh url refreshToken =>
    have sent := Continues.send world (.token url refreshToken)
    exact ⟨sent.stdout, sent.posts⟩
  | loggedIn unusable unloaded => exact ⟨unloaded.stdout, unloaded.posts⟩
  | failed unusable unloaded => exact unloaded.toContinues

end

inductive Handled (baseURL : String) (world : World) (reply : Reply) (renewal : Renewal) : Verdict → World → Prop
  | unread (error : String) : Handled baseURL world reply renewal (.retry error none) world
  | success (body : String) (read : reply.body = .ok body) (ok : reply.status = 200) :
      Handled baseURL world reply renewal (.result (reply.content body)) world
  | accepted (status : reply.status = 202) : Handled baseURL world reply renewal (.result "") world
  | renewed {tokens : CachedTokens} {later : World} (ensured : Ensured baseURL world renewal (.ok tokens) later) :
      Handled baseURL world reply renewal (.retry "unauthorized" (some tokens)) later
  | refused {error : String} {later : World} (ensured : Ensured baseURL world renewal (.error error) later) :
      Handled baseURL world reply renewal (.fatal ("auth failed and refresh failed: " ++ error)) later
  | limited : Handled baseURL world reply renewal (.retry "rate limited (status 429)" none) world
  | unexpected (error : String) : Handled baseURL world reply renewal (.fatal error) world

inductive Tried (bridge : Bridge) (body : String) (attempt : Attempt) (call : Call) : Verdict → Call → Prop
  | unbuilt (error : String) : Tried bridge body attempt call (.fatal error) call
  | lost (error : String) (built : bridge.buildError = none) :
      Tried bridge body attempt call (.retry error none) { call with world := call.post bridge body }
  | replied {reply : Reply} {verdict : Verdict} {world : World} (sessionId : String) (built : bridge.buildError = none)
      (answered : attempt.answer = .ok reply)
      (handled : Handled bridge.baseURL (call.post bridge body) reply attempt.renewal verdict world) :
      Tried bridge body attempt call verdict { call with world := world, sessionId := sessionId }

section

variable {baseURL : String} {world : World} {renewal : Renewal} {reply : Reply} {bridge : Bridge} {body : String}
  {attempt : Attempt} {call : Call} {verdict : Verdict}

theorem handleMCPResponse_cases (baseURL : String) (world : World) (reply : Reply) (renewal : Renewal) :
    Handled baseURL world reply renewal (handleMCPResponse baseURL world reply renewal).1
      (handleMCPResponse baseURL world reply renewal).2 := by
  unfold handleMCPResponse
  cases read : reply.body with
  | error error => exact .unread error
  | ok text =>
    dsimp only
    split_ifs with ok accepted unauthorized limited
    · exact .success text read ok
    · exact .accepted accepted
    · have ensured := ensureValidToken_cases baseURL world renewal
      cases outcome : ensureValidToken baseURL world renewal with
      | mk result later =>
        rw [outcome] at ensured
        cases result with
        | error error => exact .refused ensured
        | ok tokens => exact .renewed ensured
    · exact .limited
    · exact .unexpected _

theorem Handled.continues {later : World} (handled : Handled baseURL world reply renewal verdict later) :
    Continues world later := by
  cases handled with
  | renewed ensured => exact ensured.continues
  | refused ensured => exact ensured.continues
  | _ => exact .refl world

theorem attempt_cases (bridge : Bridge) (body : String) (attempt : Attempt) (call : Call) :
    Tried bridge body attempt call (call.attempt bridge body attempt).1 (call.attempt bridge body attempt).2 := by
  unfold Call.attempt
  cases built : bridge.buildError with
  | some error => exact .unbuilt _
  | none =>
    cases answered : attempt.answer with
    | error error => exact .lost error built
    | ok reply => exact .replied _ built answered (handleMCPResponse_cases _ _ _ _)

theorem Tried.continues {tried : Call} (step : Tried bridge body attempt call verdict tried) :
    Continues call.world tried.world := by
  cases step with
  | unbuilt => exact .refl _
  | lost => exact .send _ _
  | replied sessionId built answered handled => exact (Continues.send _ _).trans handled.continues

theorem sendAttempts_invariant {Holds : Call → Prop} (attempts : Nat → Attempt)
    (step : ∀ attempt call verdict tried, Tried bridge body attempt call verdict tried → Holds call →
      Holds tried ∧ ∀ error renewed, verdict = .retry error renewed → Holds (tried.again error renewed))
    (left number : Nat) (start : Holds call) : Holds (sendAttempts bridge body attempts left number call).2 := by
  induction left generalizing number call with
  | zero => exact start
  | succ left ih =>
    have tried := step _ _ _ _ (attempt_cases bridge body (attempts number) call) start
    unfold sendAttempts
    split_ifs
    · exact start
    · cases outcome : call.attempt bridge body (attempts number) with
      | mk verdict next =>
        rw [outcome] at tried
        cases verdict with
        | result result => exact tried.1
        | fatal error => exact tried.1
        | retry error renewed => exact ih (number + 1) (tried.2 error renewed rfl)

theorem sendAttempts_continues (attempts : Nat → Attempt) (left number : Nat) (call : Call) :
    Continues call.world (sendAttempts bridge body attempts left number call).2.world := by
  refine @sendAttempts_invariant bridge body call (fun next => Continues call.world next.world) attempts
    (fun attempt prior verdict tried step before => ?_) left number (.refl _)
  have further := before.trans step.continues
  exact ⟨further, fun error renewed retried => further⟩

end

end McpGateway.Cmd
