import McpGateway.Resilience.CircuitBreaker

namespace McpGateway.Resilience

open Shared

structure RetryConfig where
  maxAttempts : Int

def normalizeRetryConfig (config : RetryConfig) : RetryConfig :=
  if config.maxAttempts ≤ 0 then ⟨1⟩ else config

-- ErrCircuitOpen and the errors of a context are not transient; the backend's own may be.
def isRetryable (transient : Bool) : ExecuteResult → Bool
  | .failed => transient
  | _ => false

-- Where a call of ResilientClient.CallTool stands: in front of an attempt, in the breaker, in the pause after an
-- attempt, or past its last one.
inductive Stage where
  | retrying
  | executing (exec : Execution)
  | waitBackoff
  | done (result : ExecuteResult)
  deriving DecidableEq

structure ToolCall (Client : Type) where
  client : Client
  cancelled : Bool
  attempt : Int
  stage : Stage
  deriving DecidableEq

/-- What a call finds at its next move: the time that has passed, whether its client has cancelled its context, what the
backend answers, whether an error of the backend is transient, and whether the timer of a pause is up. -/
structure Moment where
  elapsed : Nat
  cancels : Bool
  failed : Bool
  transient : Bool
  fired : Bool

namespace ToolCall

variable {Client : Type}

def start (client : Client) : ToolCall Client :=
  ⟨client, false, 1, .retrying⟩

def notice (call : ToolCall Client) (moment : Moment) : ToolCall Client :=
  { call with cancelled := call.cancelled || moment.cancels }

def occasion (call : ToolCall Client) (moment : Moment) : Occasion :=
  ⟨moment.elapsed, call.cancelled, moment.failed⟩

def afterAttempt (config : RetryConfig) (moment : Moment) (call : ToolCall Client) (result : ExecuteResult) : Stage :=
  if result = .succeeded then .done result
  else if !isRetryable moment.transient result then .done result
  else if call.attempt = config.maxAttempts then .done result
  else .waitBackoff

def afterBackoff (moment : Moment) (call : ToolCall Client) : ToolCall Client :=
  if moment.fired then { call with attempt := call.attempt + 1, stage := .retrying }
  else if call.cancelled then { call with stage := .done .cancelled }
  else call

end ToolCall

def retry {Client : Type} (config : RetryConfig) (moment : Moment) (breaker : Breaker) (call : ToolCall Client) :
    Breaker × ToolCall Client :=
  let waited := breaker.wait (breaker.clock + moment.elapsed)
  match call.stage with
  | .retrying => (waited, { call with stage := if call.cancelled then .done .cancelled else .executing .arriving })
  | .executing (.finished result) =>
    (waited, { call with stage := call.afterAttempt (normalizeRetryConfig config) moment result })
  | .executing exec =>
    let (breaker, exec) := advance (call.occasion moment) breaker exec
    (breaker, { call with stage := .executing exec })
  | .waitBackoff => (waited, call.afterBackoff moment)
  | .done _ => (waited, call)

def callTool {Client : Type} (config : RetryConfig) (moment : Moment) (breaker : Breaker) (call : ToolCall Client) :
    Breaker × ToolCall Client :=
  retry config moment breaker (call.notice moment)

def clientsStart {Client : Type} (threshold timeout : Int) (start : Time) (clients : List Client) :
    Pool Breaker (ToolCall Client) :=
  ⟨⟨newCircuitBreaker threshold timeout, false, start, start⟩, clients.map .start⟩

section

variable {Client : Type}

def Healthy (pool : Pool Breaker (ToolCall Client)) (next : Turn Moment) : Prop :=
  ∀ call ∈ pool.processes[next.position]?, call.stage = .executing .running ∨ call.stage = .executing .probing →
    (call.notice next.input).cancelled = false → next.input.failed = false

instance (pool : Pool Breaker (ToolCall Client)) (next : Turn Moment) : Decidable (Healthy pool next) :=
  inferInstanceAs (Decidable (∀ call ∈ pool.processes[next.position]?, _))

def CircuitBreaker.hasRoom (circuit : CircuitBreaker) : Prop :=
  Int.bmod (circuit.failures + 1) (2 ^ 64) < circuit.threshold

instance (circuit : CircuitBreaker) : Decidable circuit.hasRoom :=
  inferInstanceAs (Decidable (_ < _))

def Tolerated (pool : Pool Breaker (ToolCall Client)) (next : Turn Moment) : Prop :=
  ∀ call ∈ pool.processes[next.position]?, call.stage = .executing (.returned true) →
    (call.notice next.input).cancelled = true → pool.memory.circuit.hasRoom

instance (pool : Pool Breaker (ToolCall Client)) (next : Turn Moment) : Decidable (Tolerated pool next) :=
  inferInstanceAs (Decidable (∀ call ∈ pool.processes[next.position]?, _))

end

-- What is true of a call as long as the breaker stays closed: an error it brings back is due to its own context.
def Execution.Calm (cancelled : Bool) : Execution → Prop
  | .returned failed => failed = true → cancelled = true
  | .probing => False
  | .finished result => result ≠ .circuitOpen
  | _ => True

def Stage.Calm (cancelled : Bool) : Stage → Prop
  | .executing exec => exec.Calm cancelled
  | .done result => result ≠ .circuitOpen
  | _ => True

def Breaker.Calm (breaker : Breaker) : Prop :=
  breaker.circuit.state = .stateClosed ∧ breaker.locked = false

section

variable {breaker : Breaker} {occasion : Occasion} {exec : Execution} {cancelled : Bool}

theorem CircuitBreaker.recordClosed_closed {circuit : CircuitBreaker} {failed : Bool} (now : Time)
    (closed : circuit.state = .stateClosed) (room : failed = true → circuit.hasRoom) :
    (circuit.recordClosed failed now).state = .stateClosed := by
  cases failed with
  | false => exact closed
  | true =>
    have below := not_le.mpr (room rfl)
    simpa only [recordClosed, if_true, below, if_false] using closed

theorem advance_calm (calm : breaker.Calm) (own : exec.Calm cancelled)
    (healthy : exec = .running → occasion.failed = true → cancelled = true)
    (room : exec = .returned true → breaker.circuit.hasRoom) :
    (advance occasion breaker exec).1.Calm ∧ (advance occasion breaker exec).2.Calm cancelled := by
  obtain ⟨closed, unlocked⟩ := calm
  cases exec with
  | arriving => simp [advance, unlocked, CircuitBreaker.arrive, closed, Breaker.Calm, Breaker.become, Execution.Calm]
  | admitted =>
    refine ⟨⟨closed, unlocked⟩, ?_⟩
    cases stopped : occasion.cancelled <;> simp [advance, stopped, Execution.Calm]
  | running => exact ⟨⟨closed, unlocked⟩, healthy rfl⟩
  | returned failed =>
    have still : (breaker.circuit.recordClosed failed (breaker.clock + occasion.elapsed)).state = .stateClosed :=
      CircuitBreaker.recordClosed_closed _ closed fun error => room (by rw [error])
    cases failed <;> simp [advance, unlocked, Breaker.Calm, Breaker.become, Execution.Calm, resultOf, still]
  | probing => exact own.elim
  | finished result => exact ⟨⟨closed, unlocked⟩, own⟩

end

section

variable {Client : Type} {config : RetryConfig} {breaker : Breaker} {call : ToolCall Client} {moment : Moment}

theorem Execution.Calm.mono {exec : Execution} {before after : Bool} (calm : exec.Calm before)
    (later : before = true → after = true) : exec.Calm after := by
  cases exec <;> simp_all [Execution.Calm]

theorem Stage.Calm.notice (calm : call.stage.Calm call.cancelled) : call.stage.Calm (call.notice moment).cancelled := by
  cases stage : call.stage with
  | executing exec =>
    rw [stage] at calm
    exact Execution.Calm.mono calm fun before => by simp [ToolCall.notice, before]
  | retrying => trivial
  | waitBackoff => trivial
  | done result => simpa [stage, Stage.Calm] using calm

theorem ToolCall.afterAttempt_calm {result : ExecuteResult} {cancelled : Bool} (admitted : result ≠ .circuitOpen) :
    (call.afterAttempt config moment result).Calm cancelled := by
  unfold afterAttempt
  split_ifs
  · exact admitted
  · exact admitted
  · exact admitted
  · trivial

theorem ToolCall.afterBackoff_calm (paused : call.stage = .waitBackoff) :
    (call.afterBackoff moment).stage.Calm (call.afterBackoff moment).cancelled := by
  unfold afterBackoff
  split_ifs
  · trivial
  · exact ExecuteResult.noConfusion
  · simp [paused, Stage.Calm]

theorem retry_executing {exec : Execution} (executing : call.stage = .executing exec)
    (unfinished : ∀ result, exec ≠ .finished result) :
    retry config moment breaker call = ((advance (call.occasion moment) breaker exec).1,
      { call with stage := .executing (advance (call.occasion moment) breaker exec).2 }) := by
  cases exec with
  | finished result => exact absurd rfl (unfinished result)
  | arriving => simp [retry, executing]
  | admitted => simp [retry, executing]
  | running => simp [retry, executing]
  | returned failed => simp [retry, executing]
  | probing => simp [retry, executing]

theorem retry_calm (calm : breaker.Calm) (own : call.stage.Calm call.cancelled)
    (healthy : call.stage = .executing .running → call.cancelled = false → moment.failed = false)
    (room : call.stage = .executing (.returned true) → breaker.circuit.hasRoom) :
    (retry config moment breaker call).1.Calm ∧
      (retry config moment breaker call).2.stage.Calm (retry config moment breaker call).2.cancelled := by
  cases stage : call.stage with
  | retrying =>
    simp only [retry, stage]
    cases stopped : call.cancelled <;> exact ⟨calm, by simp [Stage.Calm, Execution.Calm]⟩
  | waitBackoff =>
    simp only [retry, stage]
    exact ⟨calm, call.afterBackoff_calm stage⟩
  | done result =>
    simp only [retry, stage]
    rw [stage] at own
    exact ⟨calm, own⟩
  | executing exec =>
    rw [stage] at own healthy room
    by_cases finished : ∃ result, exec = .finished result
    · obtain ⟨result, rfl⟩ := finished
      simp only [retry, stage]
      exact ⟨calm, call.afterAttempt_calm own⟩
    · rw [retry_executing stage (not_exists.mp finished)]
      refine advance_calm calm own (fun running failed => ?_) fun returned => room (by rw [returned])
      by_contra active
      exact absurd (healthy (by rw [running]) (by simpa using active)) (by simpa [ToolCall.occasion] using failed)

theorem turn_calm {pool : Pool Breaker (ToolCall Client)} {next : Turn Moment} (healthy : Healthy pool next)
    (tolerated : Tolerated pool next)
    (calm : ∀ call ∈ pool.processes, pool.memory.Calm ∧ call.stage.Calm call.cancelled) :
    ∀ call ∈ (pool.turn (callTool config) next).processes,
      (pool.turn (callTool config) next).memory.Calm ∧ call.stage.Calm call.cancelled := by
  have moves (call : ToolCall Client) (moving : call ∈ pool.processes[next.position]?)
      (current : pool.memory.Calm ∧ call.stage.Calm call.cancelled) :
      (callTool config next.input pool.memory call).1.Calm ∧
        (callTool config next.input pool.memory call).2.stage.Calm
          (callTool config next.input pool.memory call).2.cancelled := by
    have own : call.stage.Calm (call.notice next.input).cancelled := current.2.notice
    refine retry_calm current.1 own (fun running => healthy call moving (.inl running)) fun returned => ?_
    change call.stage = _ at returned
    rw [returned] at own
    exact tolerated call moving returned (own rfl)
  exact Pool.turn_asserted (fun breaker call => breaker.Calm ∧ call.stage.Calm call.cancelled) calm moves
    fun call moving current other _ others => ⟨(moves call moving current).1, others.2⟩

end

/-- Whoever cancels what on a healthy backend: as long as no cancelled call records the failure that fills the breaker,
no call is turned away. -/
theorem cancellations_open_nothing {Client : Type} (threshold timeout : Int) (start : Time) (config : RetryConfig)
    (clients : List Client) (turns : List (Turn Moment))
    (healthy : Along (Pool.turn (callTool config)) Healthy (clientsStart threshold timeout start clients) turns)
    (tolerated : Along (Pool.turn (callTool config)) Tolerated (clientsStart threshold timeout start clients) turns) :
    ∀ call ∈ (run (Pool.turn (callTool config)) (clientsStart threshold timeout start clients) turns).processes,
      call.stage ≠ .done .circuitOpen := by
  have initial : ∀ call ∈ (clientsStart threshold timeout start clients).processes,
      (clientsStart threshold timeout start clients).memory.Calm ∧ call.stage.Calm call.cancelled := by
    simp [clientsStart, ToolCall.start, Breaker.Calm, Stage.Calm, newCircuitBreaker]
  have calm := (healthy.and tolerated).run_invariant initial
    fun pool next calm met => turn_calm met.1 met.2 calm
  intro call mem rejected
  have settled := (calm call mem).2
  rw [rejected] at settled
  exact settled rfl

namespace Sample

def moments (cancels : Bool) : List Moment :=
  [⟨1, false, false, false, false⟩, ⟨1, false, false, false, false⟩, ⟨1, false, false, false, false⟩,
    ⟨1, cancels, cancels, false, false⟩, ⟨1, false, false, false, false⟩, ⟨1, false, false, false, false⟩]

def turnsOf (position : Nat) (cancels : Bool) : List (Turn Moment) :=
  (moments cancels).map fun moment => ⟨position, moment⟩

end Sample

open Sample

theorem fifth_client_served :
    let pool := run (Pool.turn (callTool ⟨3⟩)) (clientsStart 5 30 0 ["a", "a", "a", "a", "b"])
      (turnsOf 0 true ++ turnsOf 1 true ++ turnsOf 2 true ++ turnsOf 3 true ++ turnsOf 4 false)
    pool.memory.circuit.failures = 0 ∧ ∀ call ∈ pool.processes, call.stage ≠ .done .circuitOpen :=
  ⟨by decide +kernel, cancellations_open_nothing _ _ _ _ _ _ (by decide +kernel) (by decide +kernel)⟩

theorem cancelling_client_opens_breaker :
    let turns := turnsOf 0 true ++ turnsOf 1 true ++ turnsOf 2 true ++ turnsOf 3 true ++
      turnsOf 4 true ++ turnsOf 5 false
    let start := clientsStart 5 (30 * second) 0 ["a", "a", "a", "a", "a", "b"]
    Along (Pool.turn (callTool ⟨3⟩)) Healthy start turns ∧
      (run (Pool.turn (callTool ⟨3⟩)) start turns).processes[5]? = some ⟨"b", false, 1, .done .circuitOpen⟩ := by
  decide +kernel

end McpGateway.Resilience
