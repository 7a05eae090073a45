import McpGateway.Cmd.Proxy

namespace McpGateway.Cmd

open Shared Auth

def Post.Stays : Post → Prop
  | .mcp endpoint bearer _ _ => endpoint = bearer.gatewayURL ++ "/mcp"
  | .token _ _ => True

instance (post : Post) : Decidable post.Stays := by
  cases post <;> unfold Post.Stays <;> infer_instance

def firstRequest : List (String × Circumstances) → Option Circumstances
  | [] => none
  | (line, facts) :: rest =>
    if maxTokenSize ≤ line.utf8ByteSize then none
    else if facts.cancelled then none
    else if trimSpace (dropCR line) = "" then firstRequest rest
    else some facts

structure Kept (baseURL : String) (world : World) : Prop where
  recorded : ∀ tokens, world.tokenFile = .ok tokens → tokens.gatewayURL = baseURL
  stays : ∀ post ∈ world.posts, post.Stays

section

variable {baseURL : String} {world later : World} {renewal : Renewal} {outcome : Except String CachedTokens}

theorem stays_send (stays : ∀ post ∈ world.posts, post.Stays) (sent : Post) (also : sent.Stays) :
    ∀ post ∈ (world.send sent).posts, post.Stays := by
  intro post mem
  rcases List.mem_append.mp mem with prior | last
  · exact stays post prior
  · exact List.mem_singleton.mp last ▸ also

theorem Unloaded.stays (unloaded : Unloaded world later) (stays : ∀ post ∈ world.posts, post.Stays) :
    ∀ post ∈ later.posts, post.Stays := by
  intro post mem
  rcases unloaded.others post mem with prior | ⟨url, refreshToken, rfl⟩
  · exact stays post prior
  · trivial

theorem Ensured.stays (ensured : Ensured baseURL world renewal outcome later)
    (stays : ∀ post ∈ world.posts, post.Stays) : ∀ post ∈ later.posts, post.Stays := by
  cases ensured with
  | cached => exact stays
  | refreshed tokens fresh url refreshToken => exact stays_send stays (.token url refreshToken) trivial
  | loggedIn unusable unloaded => exact unloaded.stays stays
  | failed unusable unloaded => exact unloaded.stays stays

theorem Ensured.own {tokens : CachedTokens} (ensured : Ensured baseURL world renewal (.ok tokens) later)
    (matching : ∀ tokens, world.tokenFile = .ok tokens → usable tokens renewal = true → tokens.gatewayURL = baseURL) :
    tokens.gatewayURL = baseURL ∧ later.tokenFile = .ok tokens := by
  cases ensured with
  | cached _ found lasting => exact ⟨matching tokens found (by simp [usable, lasting]), found⟩
  | refreshed before _ _ _ found renewed same => exact ⟨same.trans (matching before found renewed), rfl⟩
  | loggedIn _ _ _ own => exact ⟨own, rfl⟩

theorem Ensured.kept_of_own {tokens : CachedTokens} (ensured : Ensured baseURL world renewal (.ok tokens) later)
    (matching : ∀ tokens, world.tokenFile = .ok tokens → usable tokens renewal = true → tokens.gatewayURL = baseURL)
    (stays : ∀ post ∈ world.posts, post.Stays) : tokens.gatewayURL = baseURL ∧ Kept baseURL later := by
  obtain ⟨own, saved⟩ := ensured.own matching
  refine ⟨own, fun others found => ?_, ensured.stays stays⟩
  rw [saved] at found
  cases found
  exact own

theorem Ensured.kept (ensured : Ensured baseURL world renewal outcome later) (kept : Kept baseURL world) :
    Kept baseURL later ∧ ∀ tokens, outcome = .ok tokens → tokens.gatewayURL = baseURL := by
  cases outcome with
  | ok tokens =>
    obtain ⟨own, keeps⟩ := ensured.kept_of_own (fun tokens found _ => kept.recorded tokens found) kept.stays
    exact ⟨keeps, by simp [own]⟩
  | error error =>
    refine ⟨⟨?_, ensured.stays kept.stays⟩, by simp⟩
    cases ensured with
    | failed _ unloaded =>
      rw [unloaded.tokenFile]
      exact kept.recorded

theorem Ensured.recorded {tokens : CachedTokens} (ensured : Ensured baseURL world renewal outcome later)
    (found : world.tokenFile = .ok tokens) (saving : usable tokens renewal = true) :
    ∃ bearer, outcome = .ok bearer ∧ bearer.gatewayURL = tokens.gatewayURL := by
  cases ensured with
  | cached held held_found =>
    cases found.symm.trans held_found
    exact ⟨tokens, rfl, rfl⟩
  | refreshed held fresh _ _ held_found _ same =>
    cases found.symm.trans held_found
    exact ⟨fresh, rfl, same⟩
  | loggedIn unusable => simp [unusable tokens found] at saving
  | failed unusable => simp [unusable tokens found] at saving

end

section

variable {bridge : Bridge} {body : String} {attempt : Attempt} {call tried : Call} {verdict : Verdict}
  {world later : World} {reply : Reply} {renewal : Renewal}

theorem Kept.send (kept : Kept bridge.baseURL world) {bearer : CachedTokens} (own : bearer.gatewayURL = bridge.baseURL)
    (sessionId : String) : Kept bridge.baseURL (world.send (.mcp (bridge.baseURL ++ "/mcp") bearer sessionId body)) :=
  ⟨kept.recorded, stays_send kept.stays _ (by rw [Post.Stays, own])⟩

theorem Handled.kept {baseURL : String} (handled : Handled baseURL world reply renewal verdict later)
    (kept : Kept baseURL world) :
    Kept baseURL later ∧ ∀ error tokens, verdict = .retry error (some tokens) → tokens.gatewayURL = baseURL := by
  cases handled with
  | renewed ensured =>
    obtain ⟨keeps, own⟩ := ensured.kept kept
    exact ⟨keeps, fun error fresh same => own fresh (by injection same with _ same; rw [Option.some.inj same])⟩
  | refused ensured => exact ⟨(ensured.kept kept).1, by simp⟩
  | _ => exact ⟨kept, by simp⟩

theorem Tried.kept (step : Tried bridge body attempt call verdict tried) (kept : Kept bridge.baseURL call.world)
    (own : call.bearer.gatewayURL = bridge.baseURL) : Kept bridge.baseURL tried.world ∧ tried.bearer = call.bearer ∧
      ∀ error tokens, verdict = .retry error (some tokens) → tokens.gatewayURL = bridge.baseURL := by
  have sent : Kept bridge.baseURL (call.post bridge body) := kept.send own call.sessionId
  cases step with
  | unbuilt => exact ⟨kept, rfl, by simp⟩
  | lost => exact ⟨sent, rfl, by simp⟩
  | replied sessionId built answered handled =>
    obtain ⟨keeps, renewed⟩ := handled.kept sent
    exact ⟨keeps, rfl, renewed⟩

theorem again_own {renewed : Option CachedTokens} {error gatewayURL : String}
    (own : call.bearer.gatewayURL = gatewayURL)
    (others : ∀ tokens, renewed = some tokens → tokens.gatewayURL = gatewayURL) :
    (call.again error renewed).bearer.gatewayURL = gatewayURL := by
  cases renewed with
  | none => exact own
  | some tokens =>
    by_cases empty : tokens.accessToken = ""
    · simpa [Call.again, Option.filter_some, empty] using own
    · simpa [Call.again, Option.filter_some, empty] using others tokens rfl

theorem sendAttempts_kept (attempts : Nat → Attempt) (left number : Nat) (kept : Kept bridge.baseURL call.world)
    (own : call.bearer.gatewayURL = bridge.baseURL) :
    Kept bridge.baseURL (sendAttempts bridge body attempts left number call).2.world := by
  refine (@sendAttempts_invariant bridge body call
    (fun next => Kept bridge.baseURL next.world ∧ next.bearer.gatewayURL = bridge.baseURL) attempts
    (fun attempt prior verdict tried step holds => ?_) left number ⟨kept, own⟩).1
  obtain ⟨keeps, bearer, renewed⟩ := step.kept holds.1 holds.2
  have same : tried.bearer.gatewayURL = bridge.baseURL := by rw [bearer, holds.2]
  refine ⟨⟨keeps, same⟩, fun error tokens retried => ⟨keeps, again_own same fun fresh found => ?_⟩⟩
  exact renewed error fresh (by rw [retried, found])

theorem finish_kept {exchange : Exchange} (kept : Kept bridge.baseURL exchange.call.world)
    (own : exchange.call.bearer.gatewayURL = bridge.baseURL) : Kept bridge.baseURL (exchange.finish bridge).world := by
  have sent : Kept bridge.baseURL (sendMCPRequest bridge exchange.call exchange.line exchange.attempts).2.world :=
    sendAttempts_kept _ _ _ kept own
  unfold Exchange.finish
  cases outcome : sendMCPRequest bridge exchange.call exchange.line exchange.attempts with
  | mk result call =>
    rw [outcome] at sent
    cases result with
    | error error => exact ⟨sent.recorded, sent.stays⟩
    | ok text =>
      dsimp only at sent ⊢
      split_ifs
      · exact sent
      · exact ⟨sent.recorded, sent.stays⟩

theorem sendAttempts_unbuilt {error : String} (unbuilt : bridge.buildError = some error) (attempts : Nat → Attempt)
    (left number : Nat) : (sendAttempts bridge body attempts left number call).2.world = call.world := by
  cases left with
  | zero => rfl
  | succ left =>
    unfold sendAttempts
    split_ifs
    · rfl
    · simp [Call.attempt, unbuilt]

theorem finish_posts (bridge : Bridge) (exchange : Exchange) : (exchange.finish bridge).world.posts =
      (sendMCPRequest bridge exchange.call exchange.line exchange.attempts).2.world.posts := by
  unfold Exchange.finish
  cases sendMCPRequest bridge exchange.call exchange.line exchange.attempts with
  | mk result call =>
    cases result with
    | error error => rfl
    | ok text =>
      dsimp only
      split_ifs <;> rfl

theorem finish_continues (bridge : Bridge) (exchange : Exchange) :
    exchange.call.world.posts <+: (exchange.finish bridge).world.posts := by
  rw [finish_posts]
  exact (sendAttempts_continues _ _ _ _).posts

theorem attempt_posts (built : bridge.buildError = none) (body : String) (attempt : Attempt) (call : Call) :
    .mcp (bridge.baseURL ++ "/mcp") call.bearer call.sessionId body ∈
      (call.attempt bridge body attempt).2.world.posts := by
  have posted : .mcp (bridge.baseURL ++ "/mcp") call.bearer call.sessionId body ∈ (call.post bridge body).posts := by
    simp [Call.post, World.send]
  unfold Call.attempt
  rw [built]
  cases attempt.answer with
  | error error => exact posted
  | ok reply => exact (handleMCPResponse_cases _ _ _ _).continues.posts.subset posted

theorem finish_sends (built : bridge.buildError = none) (exchange : Exchange) :
    .mcp (bridge.baseURL ++ "/mcp") exchange.call.bearer exchange.call.sessionId exchange.line ∈
      (exchange.finish bridge).world.posts := by
  have tried := attempt_posts built exchange.line (exchange.attempts 0) exchange.call
  rw [finish_posts, sendMCPRequest, maxAttempts, sendAttempts, if_neg (by simp)]
  cases outcome : exchange.call.attempt bridge exchange.line (exchange.attempts 0) with
  | mk verdict next =>
    rw [outcome] at tried
    cases verdict with
    | result result => exact tried
    | fatal error => exact tried
    | retry error renewed => exact (sendAttempts_continues _ _ _ (next.again error renewed)).posts.subset tried

end

section

variable {bridge : Bridge} {inputs : List (String × Circumstances)} {session : Session}

theorem run_invariant {Holds : World → Prop}
    (ensured : ∀ world renewal, Holds world → Holds (ensureValidToken bridge.baseURL world renewal).2)
    (finished : ∀ world renewal tokens line sessionId attempts, Holds world →
      (ensureValidToken bridge.baseURL world renewal).1 = .ok tokens → Holds (Exchange.finish bridge ⟨line, attempts,
        ⟨(ensureValidToken bridge.baseURL world renewal).2, tokens, sessionId, none⟩⟩).world)
    (start : Holds session.world) : Holds (runProxy bridge inputs session).1.world := by
  induction inputs generalizing session with
  | nil => exact start
  | cons input rest ih =>
    obtain ⟨line, facts⟩ := input
    have given := ensured session.world facts.renewal start
    have ended := finished session.world facts.renewal
    unfold runProxy
    split_ifs
    · exact start
    · exact start
    · exact ih start
    · cases outcome : ensureValidToken bridge.baseURL session.world facts.renewal with
      | mk result world =>
        rw [outcome] at given ended
        cases result with
        | error error => exact given
        | ok tokens => exact ih (ended tokens _ _ _ start rfl)

theorem run_kept (kept : Kept bridge.baseURL session.world) :
    Kept bridge.baseURL (runProxy bridge inputs session).1.world := by
  refine run_invariant (fun world renewal kept => ?_)
    (fun world renewal tokens line sessionId attempts kept ok => ?_) kept
  · exact ((ensureValidToken_cases bridge.baseURL world renewal).kept kept).1
  · obtain ⟨keeps, own⟩ := (ensureValidToken_cases bridge.baseURL world renewal).kept kept
    exact finish_kept keeps (own tokens ok)

theorem run_unbuilt {error : String} (unbuilt : bridge.buildError = some error)
    (stays : ∀ post ∈ session.world.posts, post.Stays) :
    ∀ post ∈ (runProxy bridge inputs session).1.world.posts, post.Stays := by
  refine @run_invariant bridge inputs session (fun world => ∀ post ∈ world.posts, post.Stays)
    (fun world renewal stays => ?_) (fun world renewal tokens line sessionId attempts stays ok => ?_) stays
  · exact (ensureValidToken_cases bridge.baseURL world renewal).stays stays
  · rw [finish_posts, sendMCPRequest, sendAttempts_unbuilt unbuilt]
    exact (ensureValidToken_cases bridge.baseURL world renewal).stays stays

theorem run_posts {posts : List Post} (prior : posts <+: session.world.posts) :
    posts <+: (runProxy bridge inputs session).1.world.posts := by
  refine @run_invariant bridge inputs session (fun world => posts <+: world.posts)
    (fun world renewal prior => ?_) (fun world renewal tokens line sessionId attempts prior ok => ?_) prior
  · exact prior.trans (ensureValidToken_cases bridge.baseURL world renewal).continues.posts
  · have given := prior.trans (ensureValidToken_cases bridge.baseURL world renewal).continues.posts
    exact given.trans (finish_continues bridge ⟨line, attempts, ⟨_, tokens, sessionId, none⟩⟩)

inductive First (bridge : Bridge) (inputs : List (String × Circumstances)) (session : Session) : Session → Prop
  | absent (none : firstRequest inputs = none) : First bridge inputs session session
  | unsent (facts : Circumstances) {error : String} {world : World}
      (first : firstRequest inputs = some facts)
      (failed : ensureValidToken bridge.baseURL session.world facts.renewal = (.error error, world)) :
      First bridge inputs session { session with world := world }
  | sent (facts : Circumstances) (tokens : CachedTokens) (world : World) (line : String)
      (rest : List (String × Circumstances)) (first : firstRequest inputs = some facts)
      (ensured : ensureValidToken bridge.baseURL session.world facts.renewal = (.ok tokens, world)) :
      First bridge inputs session
        (runProxy bridge rest ((session.exchange world tokens line facts).finish bridge)).1

theorem runProxy_first (bridge : Bridge) (inputs : List (String × Circumstances)) (session : Session) :
    First bridge inputs session (runProxy bridge inputs session).1 := by
  induction inputs with
  | nil => exact .absent rfl
  | cons input rest ih =>
    obtain ⟨line, facts⟩ := input
    by_cases long : maxTokenSize ≤ line.utf8ByteSize
    · simpa [runProxy, long] using First.absent (by simp [firstRequest, long])
    by_cases cancelled : facts.cancelled = true
    · simpa [runProxy, long, cancelled] using First.absent (by simp [firstRequest, long, cancelled])
    by_cases blank : trimSpace (dropCR line) = ""
    · have skipped : firstRequest ((line, facts) :: rest) = firstRequest rest := by
        simp [firstRequest, long, cancelled, blank]
      simp only [runProxy, long, cancelled, blank, if_true, if_false, Bool.false_eq_true]
      generalize (runProxy bridge rest session).1 = final at ih ⊢
      cases ih with
      | absent none => exact .absent (skipped.trans none)
      | unsent others first failed => exact .unsent others (skipped.trans first) failed
      | sent others tokens world line rest first ensured =>
        exact .sent others tokens world line rest (skipped.trans first) ensured
    · have first : firstRequest ((line, facts) :: rest) = some facts := by
        simp [firstRequest, long, cancelled, blank]
      simp only [runProxy, long, cancelled, blank, if_false]
      cases outcome : ensureValidToken bridge.baseURL session.world facts.renewal with
      | mk result world =>
        cases result with
        | error error => exact .unsent facts first outcome
        | ok tokens => exact .sent facts tokens world line rest first outcome

theorem run_stays (stays : ∀ post ∈ session.world.posts, post.Stays)
    (matching : ∀ facts ∈ firstRequest inputs, ∀ tokens, session.world.tokenFile = .ok tokens →
      usable tokens facts.renewal = true → tokens.gatewayURL = bridge.baseURL) :
    ∀ post ∈ (runProxy bridge inputs session).1.world.posts, post.Stays := by
  have first := runProxy_first bridge inputs session
  generalize (runProxy bridge inputs session).1 = final at first ⊢
  cases first with
  | absent => exact stays
  | unsent facts first failed =>
    have ensured := ensureValidToken_cases bridge.baseURL session.world facts.renewal
    rw [failed] at ensured
    exact ensured.stays stays
  | sent facts tokens world line rest first given =>
    have ensured := ensureValidToken_cases bridge.baseURL session.world facts.renewal
    rw [given] at ensured
    obtain ⟨own, keeps⟩ := ensured.kept_of_own (matching facts first) stays
    exact (run_kept (@finish_kept bridge (session.exchange world tokens line facts) keeps own)).stays

theorem run_sends {facts : Circumstances} {tokens : CachedTokens} (built : bridge.buildError = none)
    (asked : firstRequest inputs = some facts) (found : session.world.tokenFile = .ok tokens)
    (saving : usable tokens facts.renewal = true) :
    ∃ bearer sessionId line, bearer.gatewayURL = tokens.gatewayURL ∧
      .mcp (bridge.baseURL ++ "/mcp") bearer sessionId line ∈ (runProxy bridge inputs session).1.world.posts := by
  obtain ⟨bearer, ok, same⟩ :=
    (ensureValidToken_cases bridge.baseURL session.world facts.renewal).recorded found saving
  have first := runProxy_first bridge inputs session
  generalize (runProxy bridge inputs session).1 = final at first ⊢
  cases first with
  | absent none => simp [none] at asked
  | unsent _ first failed =>
    cases first.symm.trans asked
    simp [failed] at ok
  | sent _ _ _ line rest first given =>
    cases first.symm.trans asked
    rw [given] at ok
    cases ok
    exact ⟨bearer, _, _, same, (run_posts (List.prefix_refl _)).subset (finish_sends built _)⟩

end

/-- The access tokens of a run stay with their gateway just if no request can be built, or the tokens that are cached
when the first request comes are recorded for the gateway of the run, in case they save a login. -/
theorem access_tokens_stay_iff (bridge : Bridge) (tokenFile : TokenFile) (inputs : List (String × Circumstances)) :
    (∀ post ∈ (runProxy bridge inputs (.start tokenFile)).1.world.posts, post.Stays) ↔ bridge.buildError ≠ none ∨
        ∀ facts ∈ firstRequest inputs, ∀ tokens, tokenFile = .ok tokens →
          usable tokens facts.renewal = true → tokens.gatewayURL = bridge.baseURL := by
  constructor
  · intro stays
    by_contra! contrary
    obtain ⟨built, facts, asked, tokens, found, saving, foreign⟩ := contrary
    obtain ⟨bearer, sessionId, line, same, sent⟩ :=
      @run_sends bridge inputs (.start tokenFile) _ _ built asked found saving
    have ends : bridge.baseURL ++ "/mcp" = bearer.gatewayURL ++ "/mcp" := stays _ sent
    exact foreign (same ▸ (String.append_left_inj _).mp ends.symm)
  · rintro (unbuilt | matching)
    · obtain ⟨error, failing⟩ := Option.ne_none_iff_exists'.mp unbuilt
      exact run_unbuilt failing (by simp [Session.start])
    · exact run_stays (by simp [Session.start]) matching

theorem cached_token_sent_elsewhere :
    ∃ post ∈ (runProxy Sample.gateway [Sample.meeting Sample.ping (Sample.replying 200 "" Sample.ping)]
      (.start (.ok (Sample.tokens "https://other")))).1.world.posts, ¬ post.Stays := by
  decide +kernel

end McpGateway.Cmd
