import McpGateway.Resilience.Client

namespace McpGateway.Resilience

-- What one attempt of CallTool meets: when Retry looks at the context, when the attempt is in front of the breaker and
-- when the backend has answered; the answer, an error being transient or not; and whether the pause behind it ends
-- with the context.
structure Attempt (Result : Type) where
  begins : Time
  arrives : Time
  returns : Time
  answer : Except Bool Result
  interrupted : Bool

structure Returned (Result : Type) where
  circuit : CircuitBreaker
  outcomes : List (Attempt Result × ExecuteResult)
  answer : Option Result

variable {Result : Type}

namespace Attempt

def failed (attempt : Attempt Result) : Bool :=
  !attempt.answer.isOk

def transient (attempt : Attempt Result) : Bool :=
  match attempt.answer with
  | .error transient => transient
  | .ok _ => false

end Attempt

def ExecuteResult.invoked : ExecuteResult → Bool
  | .succeeded | .failed => true
  | .circuitOpen | .cancelled => false

def Returned.invocations (returned : Returned Result) : Nat :=
  returned.outcomes.countP fun outcome => outcome.2.invoked

def CircuitBreaker.execute (circuit : CircuitBreaker) (cancelled : Time → Bool) (attempt : Attempt Result) :
    CircuitBreaker × ExecuteResult :=
  match circuit.arrive attempt.arrives (cancelled attempt.arrives) with
  | (circuit, _, .finished result) => (circuit, result)
  | (circuit, _, .probing) => (circuit.recordProbe attempt.failed attempt.returns, resultOf attempt.failed)
  | (circuit, _, _) =>
    if cancelled attempt.arrives then (circuit, .cancelled)
    else (circuit.recordClosed attempt.failed attempt.returns, resultOf attempt.failed)

def retryAttempts (cancelled : Time → Bool) : List (Attempt Result) → CircuitBreaker → Returned Result
  | [], circuit => ⟨circuit, [], none⟩
  | attempt :: rest, circuit =>
    if cancelled attempt.begins then ⟨circuit, [], none⟩
    else
      let executed := circuit.execute cancelled attempt
      if executed.2 = .succeeded then ⟨executed.1, [(attempt, executed.2)], attempt.answer.toOption⟩
      else if !isRetryable attempt.transient executed.2 || attempt.interrupted then
        ⟨executed.1, [(attempt, executed.2)], none⟩
      else
        let later := retryAttempts cancelled rest executed.1
        { later with outcomes := (attempt, executed.2) :: later.outcomes }

def callToolAlone (config : RetryConfig) (cancelled : Time → Bool) (attempts : Nat → Attempt Result)
    (circuit : CircuitBreaker) : Returned Result :=
  retryAttempts cancelled ((List.range (normalizeRetryConfig config).maxAttempts.toNat).map attempts) circuit

structure Returned.Bounded (cancelled : Time → Bool) (bound : Int) (returned : Returned Result) : Prop where
  invoked : returned.invocations ≤ bound
  retried : ∀ outcome ∈ returned.outcomes.dropLast, outcome.2 = .failed ∧ outcome.1.transient = true
  active : ∀ outcome ∈ returned.outcomes, outcome.2.invoked = true →
    cancelled outcome.1.begins = false ∧ cancelled outcome.1.arrives = false
  answered : ∀ result, returned.answer = some result ↔
    ∃ attempt, (attempt, .succeeded) ∈ returned.outcomes ∧ attempt.answer = .ok result

-- A breaker that one caller uses: it is closed with room for a failure, or has opened too short a time ago for any of
-- the attempts that are left.
inductive CircuitBreaker.Alone (circuit : CircuitBreaker) (attempts : List (Attempt Result)) : Int → Prop
  | closed (state : circuit.state = .stateClosed) (counted : 0 ≤ circuit.failures)
      (room : circuit.failures < circuit.threshold) (fits : circuit.threshold < 2 ^ 63)
      (timely : ∀ first ∈ attempts, ∀ second ∈ attempts, second.arrives - first.returns < circuit.timeout) :
    Alone circuit attempts (circuit.threshold - circuit.failures)
  | opened (state : circuit.state = .stateOpen)
      (early : ∀ attempt ∈ attempts, attempt.arrives - circuit.lastFailure < circuit.timeout) :
    Alone circuit attempts 0

section

variable {circuit : CircuitBreaker} {cancelled : Time → Bool} {attempt : Attempt Result}
  {rest : List (Attempt Result)} {bound : Int}

theorem CircuitBreaker.execute_closed (closed : circuit.state = .stateClosed) (cancelled : Time → Bool)
    (attempt : Attempt Result) :
    circuit.execute cancelled attempt = if cancelled attempt.arrives then (circuit, .cancelled)
      else (circuit.recordClosed attempt.failed attempt.returns, resultOf attempt.failed) := by
  simp [execute, arrive, closed]

theorem CircuitBreaker.execute_early (opened : circuit.state = .stateOpen)
    (early : attempt.arrives - circuit.lastFailure < circuit.timeout) :
    circuit.execute cancelled attempt = (circuit, .circuitOpen) := by
  simp [execute, arrive, opened, early]

theorem CircuitBreaker.recordClosed_room (counted : 0 ≤ circuit.failures) (room : circuit.failures < circuit.threshold)
    (fits : circuit.threshold < 2 ^ 63) (now : Time) :
    circuit.recordClosed true now = if circuit.threshold ≤ circuit.failures + 1 then
      { circuit with state := .stateOpen, failures := circuit.failures + 1, lastFailure := now }
      else { circuit with failures := circuit.failures + 1 } := by
  have exact : Int.bmod (circuit.failures + 1) (2 ^ 64) = circuit.failures + 1 :=
    Int.bmod_eq_of_le (by omega) (by omega)
  simp only [recordClosed, if_true, exact]

/-- An attempt on a breaker of one caller: either the backend is not invoked, or it is and a failure leaves room for
one invocation less. -/
theorem CircuitBreaker.Alone.execute (alone : circuit.Alone (attempt :: rest) bound) (cancelled : Time → Bool) :
    let executed := circuit.execute cancelled attempt
    0 ≤ bound ∧ (executed.2 = .circuitOpen ∨ executed.2 = .cancelled ∨
      executed.2 = resultOf attempt.failed ∧ cancelled attempt.arrives = false ∧ 1 ≤ bound ∧
        (attempt.failed = true → executed.1.Alone rest (bound - 1))) := by
  cases alone with
  | opened state early => simp [execute_early state (early attempt (by simp))]
  | closed state counted room fits timely =>
    refine ⟨by omega, ?_⟩
    cases stopped : cancelled attempt.arrives with
    | true => simp [execute_closed state, stopped]
    | false =>
      refine .inr (.inr ⟨by simp [execute_closed state, stopped], rfl, by omega, fun failed => ?_⟩)
      simp only [execute_closed state, stopped, failed, recordClosed_room counted room fits, Bool.false_eq_true, if_false]
      split_ifs with reached
      · have last : circuit.threshold - circuit.failures - 1 = 0 := by omega
        rw [last]
        exact .opened rfl fun later mem => timely attempt (by simp) later (by simp [mem])
      · have left : circuit.threshold - circuit.failures - 1 = circuit.threshold - (circuit.failures + 1) := by omega
        rw [left]
        refine .closed state (by simpa using by omega) (by simpa using reached) fits fun first mem second other => ?_
        exact timely first (by simp [mem]) second (by simp [other])

theorem Returned.bounded_stopped (circuit : CircuitBreaker) (room : 0 ≤ bound) :
    (⟨circuit, [], none⟩ : Returned Result).Bounded cancelled bound :=
  ⟨by simpa [invocations] using room, by simp, by simp, by simp⟩

theorem Returned.bounded_last {result : ExecuteResult} {answer : Option Result} (circuit : CircuitBreaker)
    (room : 0 ≤ bound)
    (invoked : result.invoked = true → 1 ≤ bound ∧ cancelled attempt.begins = false ∧ cancelled attempt.arrives = false)
    (answered : ∀ value, answer = some value ↔ result = .succeeded ∧ attempt.answer = .ok value) :
    (⟨circuit, [(attempt, result)], answer⟩ : Returned Result).Bounded cancelled bound := by
  refine ⟨?_, by simp, by simpa using fun made => (invoked made).2, ?_⟩
  · cases made : result.invoked with
    | true => simpa [invocations, made] using (invoked made).1
    | false => simpa [invocations, made] using room
  · intro value
    rw [answered]
    constructor
    · rintro ⟨rfl, same⟩
      exact ⟨attempt, by simp, same⟩
    · rintro ⟨other, mem, same⟩
      simp only [List.mem_singleton, Prod.mk.injEq] at mem
      exact ⟨mem.2.symm, mem.1 ▸ same⟩

theorem Returned.Bounded.after_failure {later : Returned Result} (bounded : later.Bounded cancelled (bound - 1))
    (transient : attempt.transient = true)
    (active : cancelled attempt.begins = false ∧ cancelled attempt.arrives = false) :
    Bounded cancelled bound { later with outcomes := (attempt, .failed) :: later.outcomes } := by
  refine ⟨?_, ?_, ?_, by simpa using bounded.answered⟩
  · have invoked := bounded.invoked
    simp only [invocations, List.countP_cons, ExecuteResult.invoked, if_true] at invoked ⊢
    omega
  · cases made : later.outcomes with
    | nil => simp
    | cons first others => simpa [made] using ⟨transient, by simpa [made] using bounded.retried⟩
  · intro outcome mem invoked
    rcases List.mem_cons.mp mem with rfl | mem
    · exact active
    · exact bounded.active outcome mem invoked

theorem retryAttempts_bounded (cancelled : Time → Bool) (attempts : List (Attempt Result))
    (alone : circuit.Alone attempts bound) :
    (retryAttempts cancelled attempts circuit).Bounded cancelled (min attempts.length bound) := by
  -- Each turn of the loop uses up one of the attempts and one of the failures that are left.
  induction attempts generalizing circuit bound with
  | nil =>
    have room : 0 ≤ bound := by cases alone <;> omega
    exact Returned.bounded_stopped circuit (by simp [room])
  | cons attempt rest ih =>
    obtain ⟨room, ended⟩ := alone.execute cancelled
    have least : 0 ≤ min (((attempt :: rest).length : Nat) : Int) bound := by simp [room]; omega
    cases before : cancelled attempt.begins with
    | true => simpa [retryAttempts, before] using Returned.bounded_stopped circuit least
    | false =>
      rcases ended with rejected | stopped | ⟨invoked, active, one, next⟩
      · simpa [retryAttempts, before, rejected, isRetryable] using
          Returned.bounded_last _ least (by simp [ExecuteResult.invoked]) (by simp)
      · simpa [retryAttempts, before, stopped, isRetryable] using
          Returned.bounded_last _ least (by simp [ExecuteResult.invoked]) (by simp)
      · have single : 1 ≤ min (((attempt :: rest).length : Nat) : Int) bound := by simp [one]
        cases answer : attempt.answer with
        | ok value =>
          have succeeded : attempt.failed = false := by simp [Attempt.failed, answer, Except.isOk, Except.toBool]
          simpa [retryAttempts, before, invoked, succeeded, resultOf, answer, Except.toOption] using
            Returned.bounded_last _ least (fun _ => ⟨single, before, active⟩) (by simp [answer])
        | error transient =>
          have failed : attempt.failed = true := by simp [Attempt.failed, answer, Except.isOk, Except.toBool]
          have kind : attempt.transient = transient := by simp [Attempt.transient, answer]
          by_cases ends : transient = false ∨ attempt.interrupted = true
          · have stops : (!isRetryable transient .failed || attempt.interrupted) = true := by simpa [isRetryable] using ends
            simpa [retryAttempts, before, invoked, failed, resultOf, kind, stops] using
              Returned.bounded_last _ least (fun _ => ⟨single, before, active⟩) (by simp)
          · have goes : (!isRetryable transient .failed || attempt.interrupted) = false := by simpa [isRetryable] using ends
            have later := ih (next failed)
            have less : min (((attempt :: rest).length : Nat) : Int) bound - 1 = min (rest.length : Int) (bound - 1) := by
              simp
              omega
            rw [← less] at later
            simpa [retryAttempts, before, invoked, failed, resultOf, kind, goes] using
              later.after_failure (by simpa [kind] using (not_or.mp ends).1) ⟨before, active⟩

end

/-- One CallTool, alone on a closed breaker whose timeout outlasts it. -/
theorem attempts_bounded (config : RetryConfig) (circuit : CircuitBreaker) (cancelled : Time → Bool)
    (attempts : Nat → Attempt Result) (least : 1 ≤ config.maxAttempts) (closed : circuit.state = .stateClosed)
    (counted : 0 ≤ circuit.failures) (room : circuit.failures < circuit.threshold) (fits : circuit.threshold < 2 ^ 63)
    (timely : ∀ first second, (attempts second).arrives - (attempts first).returns < circuit.timeout) :
    (callToolAlone config cancelled attempts circuit).Bounded cancelled
      (min config.maxAttempts (circuit.threshold - circuit.failures)) := by
  have own : normalizeRetryConfig config = config := if_neg (by omega)
  have alone : circuit.Alone ((List.range config.maxAttempts.toNat).map attempts)
      (circuit.threshold - circuit.failures) := by
    refine .closed closed counted room fits ?_
    simpa using fun first _ second _ => timely first second
  have bounded := retryAttempts_bounded cancelled _ alone
  rw [List.length_map, List.length_range, Int.toNat_of_nonneg (by omega)] at bounded
  rwa [callToolAlone, own]

namespace Sample

def flaky (attempt : Nat) : Attempt String where
  begins := 0
  arrives := 0
  returns := 0
  answer := if attempt < 2 then .error true else .ok "done"
  interrupted := false

end Sample

theorem third_attempt_answers :
    (callToolAlone ⟨5⟩ (fun _ => false) Sample.flaky (newCircuitBreaker 3 30)).answer = some "done" ∧
      (callToolAlone ⟨5⟩ (fun _ => false) Sample.flaky (newCircuitBreaker 3 30)).Bounded (fun _ => false) 3 :=
  ⟨by decide +kernel, attempts_bounded ⟨5⟩ (newCircuitBreaker 3 30) _ _ (by decide) rfl (by decide) (by decide) (by decide)
    fun _ _ => by simp [Sample.flaky, newCircuitBreaker]⟩

end McpGateway.Resilience
