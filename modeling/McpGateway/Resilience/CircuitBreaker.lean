import McpGateway.Shared.Interleaving
import McpGateway.Types

namespace McpGateway.Resilience

open Shared

inductive CircuitState where
  | stateClosed | stateOpen | stateHalfOpen
  deriving DecidableEq

structure CircuitBreaker where
  state : CircuitState
  failures : Int
  threshold : Int
  timeout : Int
  lastFailure : Time

-- time.Time{} is the origin of the clock.
def newCircuitBreaker (threshold timeout : Int) : CircuitBreaker where
  state := .stateClosed
  failures := 0
  threshold := if threshold ≤ 0 then 1 else threshold
  timeout := if timeout ≤ 0 then second else timeout
  lastFailure := 0

inductive ExecuteResult where
  | succeeded | failed | circuitOpen | cancelled
  deriving DecidableEq

def resultOf (failed : Bool) : ExecuteResult :=
  if failed then .failed else .succeeded

-- Where a call of Execute stands: in front of the lock, with or without the result of a function that ran outside of
-- it, past it, or under it with the probe.
inductive Execution where
  | arriving
  | admitted
  | running
  | returned (failed : Bool)
  | probing
  | finished (result : ExecuteResult)
  deriving DecidableEq

namespace CircuitBreaker

-- The probe keeps the lock unless its context is already cancelled.
def probe (circuit : CircuitBreaker) (cancelled : Bool) : CircuitBreaker × Bool × Execution :=
  ({ circuit with state := .stateHalfOpen }, if cancelled then (false, .finished .cancelled) else (true, .probing))

def arrive (circuit : CircuitBreaker) (now : Time) (cancelled : Bool) : CircuitBreaker × Bool × Execution :=
  match circuit.state with
  | .stateOpen =>
    if now - circuit.lastFailure < circuit.timeout then (circuit, false, .finished .circuitOpen)
    else circuit.probe cancelled
  | .stateHalfOpen => circuit.probe cancelled
  | .stateClosed => (circuit, false, .admitted)

def recordProbe (circuit : CircuitBreaker) (failed : Bool) (now : Time) : CircuitBreaker :=
  if failed then { circuit with state := .stateOpen, failures := circuit.threshold, lastFailure := now }
  else { circuit with state := .stateClosed, failures := 0, lastFailure := 0 }

def recordClosed (circuit : CircuitBreaker) (failed : Bool) (now : Time) : CircuitBreaker :=
  if failed then
    let failures := Int.bmod (circuit.failures + 1) (2 ^ 64)
    if circuit.threshold ≤ failures then { circuit with state := .stateOpen, failures := failures, lastFailure := now }
    else { circuit with failures := failures }
  else { circuit with failures := 0 }

end CircuitBreaker

/-- The breaker with its lock and the clock, and the time at which it last went to the open state, which the code does
not keep. -/
structure Breaker where
  circuit : CircuitBreaker
  locked : Bool
  clock : Time
  openedAt : Time

structure Occasion where
  elapsed : Nat
  cancelled : Bool
  failed : Bool

namespace Breaker

def become (breaker : Breaker) (now : Time) (circuit : CircuitBreaker) (locked : Bool) : Breaker where
  circuit := circuit
  locked := locked
  clock := now
  openedAt :=
    if circuit.state = .stateOpen ∧ breaker.circuit.state ≠ .stateOpen then now else breaker.openedAt

def wait (breaker : Breaker) (now : Time) : Breaker :=
  breaker.become now breaker.circuit breaker.locked

end Breaker

def advance (occasion : Occasion) (breaker : Breaker) (exec : Execution) : Breaker × Execution :=
  let now := breaker.clock + occasion.elapsed
  match exec with
  | .arriving =>
    if breaker.locked then (breaker.wait now, .arriving)
    else
      let (circuit, locked, next) := breaker.circuit.arrive now occasion.cancelled
      (breaker.become now circuit locked, next)
  | .admitted => (breaker.wait now, if occasion.cancelled then .finished .cancelled else .running)
  | .running => (breaker.wait now, .returned occasion.failed)
  | .returned failed =>
    if breaker.locked then (breaker.wait now, .returned failed)
    else (breaker.become now (breaker.circuit.recordClosed failed now) false, .finished (resultOf failed))
  | .probing =>
    (breaker.become now (breaker.circuit.recordProbe occasion.failed now) false, .finished (resultOf occasion.failed))
  | .finished result => (breaker.wait now, .finished result)

def beginning (threshold timeout : Int) (start : Time) (calls : Nat) : Pool Breaker Execution :=
  ⟨⟨newCircuitBreaker threshold timeout, false, start, start⟩, List.replicate calls .arriving⟩

def Admits (occasion : Occasion) (breaker : Breaker) (exec : Execution) : Prop :=
  exec = .arriving ∧
    ((advance occasion breaker exec).2 = .admitted ∨ (advance occasion breaker exec).2 = .probing)

structure Safe (threshold timeout : Int) (pool : Pool Breaker Execution) (next : Turn Occasion) : Prop where
  closed : pool.memory.circuit.state = .stateClosed → pool.memory.circuit.failures < threshold
  rests : ∀ exec ∈ pool.processes[next.position]?, Admits next.input pool.memory exec →
    pool.memory.circuit.state = .stateOpen →
      timeout ≤ pool.memory.clock + next.input.elapsed - pool.memory.openedAt
  alone : ∀ exec ∈ pool.processes[next.position]?, Admits next.input pool.memory exec →
    .probing ∉ pool.processes
  reopens : pool.processes[next.position]? = some .probing → next.input.failed = true →
    (pool.turn advance next).memory.circuit.state = .stateOpen

inductive Changed (now : Time) (circuit : CircuitBreaker) : CircuitBreaker → Prop
  | unchanged : Changed now circuit circuit
  | opened (failures : Int) :
    Changed now circuit { circuit with state := .stateOpen, failures := failures, lastFailure := now }
  | counted {failures : Int} (below : failures < circuit.threshold) :
    Changed now circuit { circuit with failures := failures }
  | probed : Changed now circuit { circuit with state := .stateHalfOpen }
  | closed : Changed now circuit { circuit with state := .stateClosed, failures := 0, lastFailure := 0 }

section

variable {circuit : CircuitBreaker} {now : Time}

theorem CircuitBreaker.arrive_changed (cancelled : Bool) : Changed now circuit (circuit.arrive now cancelled).1 := by
  cases state : circuit.state with
  | stateClosed => simpa [arrive, state] using Changed.unchanged
  | stateHalfOpen => simpa [arrive, probe, state] using Changed.probed
  | stateOpen =>
    by_cases early : now - circuit.lastFailure < circuit.timeout
    · simpa [arrive, state, early] using Changed.unchanged
    · simpa [arrive, probe, state, early] using Changed.probed

theorem CircuitBreaker.recordProbe_changed (failed : Bool) : Changed now circuit (circuit.recordProbe failed now) := by
  cases failed with
  | true => exact .opened circuit.threshold
  | false => exact .closed

theorem CircuitBreaker.recordClosed_changed (pos : 0 < circuit.threshold) (failed : Bool) :
    Changed now circuit (circuit.recordClosed failed now) := by
  cases failed with
  | false => exact .counted pos
  | true =>
    by_cases reached : circuit.threshold ≤ Int.bmod (circuit.failures + 1) (2 ^ 64)
    · simpa only [recordClosed, if_true, reached] using Changed.opened _
    · simpa only [recordClosed, if_true, reached, if_false] using Changed.counted (not_le.mp reached)

end

structure Breaker.Sound (threshold timeout : Int) (breaker : Breaker) : Prop where
  sameThreshold : breaker.circuit.threshold = threshold
  sameTimeout : breaker.circuit.timeout = timeout
  closed : breaker.circuit.state = .stateClosed → breaker.circuit.failures < threshold
  past : breaker.openedAt ≤ breaker.clock
  opened : breaker.circuit.state = .stateOpen → breaker.openedAt ≤ breaker.circuit.lastFailure

section

variable {threshold timeout : Int} {breaker : Breaker}

theorem Breaker.Sound.become (sound : breaker.Sound threshold timeout) (pos : 0 < threshold) {now : Time}
    (later : breaker.clock ≤ now) {circuit : CircuitBreaker} (changed : Changed now breaker.circuit circuit)
    (locked : Bool) : (breaker.become now circuit locked).Sound threshold timeout := by
  have past := sound.past.trans later
  cases changed with
  | unchanged =>
    refine ⟨sound.sameThreshold, sound.sameTimeout, sound.closed, ?_, ?_⟩
    · simp [Breaker.become, past]
    · simpa [Breaker.become] using sound.opened
  | opened failures =>
    refine ⟨sound.sameThreshold, sound.sameTimeout, by simp [Breaker.become], ?_, ?_⟩ <;>
      by_cases already : breaker.circuit.state = .stateOpen <;> simp [Breaker.become, past, already]
  | counted below =>
    refine ⟨sound.sameThreshold, sound.sameTimeout, fun _ => sound.sameThreshold ▸ below, ?_, ?_⟩
    · simp [Breaker.become, past]
    · simpa [Breaker.become] using sound.opened
  | probed => refine ⟨sound.sameThreshold, sound.sameTimeout, ?_, ?_, ?_⟩ <;> simp [Breaker.become, past]
  | closed =>
    refine ⟨sound.sameThreshold, sound.sameTimeout, fun _ => pos, ?_, ?_⟩ <;> simp [Breaker.become, past]

theorem Breaker.Sound.advance (sound : breaker.Sound threshold timeout) (pos : 0 < threshold) (occasion : Occasion)
    (exec : Execution) : (advance occasion breaker exec).1.Sound threshold timeout := by
  have later : breaker.clock ≤ breaker.clock + occasion.elapsed := Int.le_add_of_nonneg_right (Int.natCast_nonneg _)
  have waits : (breaker.wait (breaker.clock + occasion.elapsed)).Sound threshold timeout :=
    sound.become pos later .unchanged breaker.locked
  cases exec with
  | arriving =>
    by_cases locked : breaker.locked = true
    · simpa [Resilience.advance, locked] using waits
    · simpa [Resilience.advance, locked] using
        sound.become pos later (CircuitBreaker.arrive_changed occasion.cancelled) _
  | admitted => exact waits
  | running => exact waits
  | returned failed =>
    by_cases locked : breaker.locked = true
    · simpa [Resilience.advance, locked] using waits
    · have own : 0 < breaker.circuit.threshold := sound.sameThreshold ▸ pos
      simpa [Resilience.advance, locked] using
        sound.become pos later (CircuitBreaker.recordClosed_changed own failed) false
  | probing => exact sound.become pos later (CircuitBreaker.recordProbe_changed occasion.failed) false
  | finished result => exact waits

end

section

variable {occasion : Occasion} {breaker : Breaker} {exec : Execution}

theorem CircuitBreaker.arrive_locked (circuit : CircuitBreaker) (now : Time) (cancelled : Bool) :
    (circuit.arrive now cancelled).2.1.toNat = if (circuit.arrive now cancelled).2.2 == .probing then 1 else 0 := by
  have probes : (circuit.probe cancelled).2.1.toNat = if (circuit.probe cancelled).2.2 == .probing then 1 else 0 := by
    cases cancelled <;> rfl
  cases state : circuit.state with
  | stateClosed => simp [arrive, state]
  | stateHalfOpen => simpa only [arrive, state] using probes
  | stateOpen =>
    by_cases early : now - circuit.lastFailure < circuit.timeout
    · simp [arrive, state, early]
    · simpa only [arrive, state, early, if_false] using probes

theorem advance_locked (occasion : Occasion) (held : exec = .probing → breaker.locked = true) :
    (advance occasion breaker exec).1.locked.toNat + (if exec == .probing then 1 else 0) =
      breaker.locked.toNat + if (advance occasion breaker exec).2 == .probing then 1 else 0 := by
  cases exec with
  | arriving =>
    by_cases locked : breaker.locked = true
    · simp [advance, locked, Breaker.wait, Breaker.become]
    · have entered := breaker.circuit.arrive_locked (breaker.clock + occasion.elapsed) occasion.cancelled
      simpa [advance, locked, Breaker.become] using entered
  | admitted => cases cancelled : occasion.cancelled <;> simp [advance, cancelled, Breaker.wait, Breaker.become]
  | running => simp [advance, Breaker.wait, Breaker.become]
  | returned failed =>
    by_cases locked : breaker.locked = true <;> simp [advance, locked, Breaker.wait, Breaker.become]
  | probing => simp [advance, Breaker.become, held rfl]
  | finished result => simp [advance, Breaker.wait, Breaker.become]

theorem Admits.free (admits : Admits occasion breaker exec) :
    breaker.locked = false ∧ (breaker.circuit.state = .stateOpen →
      breaker.circuit.timeout ≤ breaker.clock + occasion.elapsed - breaker.circuit.lastFailure) := by
  obtain ⟨rfl, through⟩ := admits
  by_cases locked : breaker.locked = true
  · simp [advance, locked] at through
  refine ⟨by simpa using locked, fun opened => ?_⟩
  by_contra early
  simp [advance, locked, CircuitBreaker.arrive, opened, not_le.mp early] at through

end

structure Consistent (threshold timeout : Int) (pool : Pool Breaker Execution) : Prop where
  sound : pool.memory.Sound threshold timeout
  probes : pool.processes.count .probing = pool.memory.locked.toNat

section

variable {threshold timeout : Int} {pool : Pool Breaker Execution}

theorem Consistent.held (consistent : Consistent threshold timeout pool) (probing : .probing ∈ pool.processes) :
    pool.memory.locked = true := by
  have counted := List.count_pos_iff.mpr probing
  rw [consistent.probes] at counted
  cases locked : pool.memory.locked with
  | true => rfl
  | false => simp [locked] at counted

theorem Consistent.turn (consistent : Consistent threshold timeout pool) (pos : 0 < threshold)
    (next : Turn Occasion) : Consistent threshold timeout (pool.turn advance next) := by
  refine ⟨?_, Pool.turn_count Execution.probing (fun breaker : Breaker => breaker.locked.toNat) consistent.probes ?_⟩
  · cases moving : pool.processes[next.position]? with
    | none => simpa [Pool.turn_none moving] using consistent.sound
    | some exec => simpa [Pool.turn_some moving] using consistent.sound.advance pos next.input exec
  · intro exec moving
    exact advance_locked next.input fun probing => consistent.held (probing ▸ List.mem_of_getElem? moving)

theorem run_consistent (pos : 0 < threshold) (consistent : Consistent threshold timeout pool)
    (turns : List (Turn Occasion)) : Consistent threshold timeout (run (Pool.turn advance) pool turns) := by
  induction turns generalizing pool with
  | nil => exact consistent
  | cons next rest ih => exact ih (consistent.turn pos next)

end

theorem newCircuitBreaker_positive (threshold timeout : Int) : 0 < (newCircuitBreaker threshold timeout).threshold := by
  simp only [newCircuitBreaker]
  split_ifs <;> omega

theorem consistent_beginning (threshold timeout : Int) (start : Time) (calls : Nat) :
    Consistent (newCircuitBreaker threshold timeout).threshold (newCircuitBreaker threshold timeout).timeout
      (beginning threshold timeout start calls) := by
  refine ⟨⟨rfl, rfl, fun _ => newCircuitBreaker_positive threshold timeout, le_rfl, ?_⟩, ?_⟩
  · simp [beginning, newCircuitBreaker]
  · simp [beginning, List.count_replicate]

/-- However calls of Execute interleave: a closed breaker has room for a failure, an open one lets nobody through
before its timeout, a probe runs alone, and a probe that fails leaves the breaker open. -/
theorem breaker_safe (threshold timeout : Int) (start : Time) (calls : Nat) (turns : List (Turn Occasion))
    (next : Turn Occasion) :
    Safe (newCircuitBreaker threshold timeout).threshold (newCircuitBreaker threshold timeout).timeout
      (run (Pool.turn advance) (beginning threshold timeout start calls) turns) next := by
  have pos := newCircuitBreaker_positive threshold timeout
  have consistent := run_consistent pos (consistent_beginning threshold timeout start calls) turns
  generalize run (Pool.turn advance) (beginning threshold timeout start calls) turns = pool at consistent
  refine ⟨consistent.sound.closed, ?_, ?_, ?_⟩
  · intro exec moving admits opened
    have rested := admits.free.2 opened
    have since := consistent.sound.opened opened
    rw [consistent.sound.sameTimeout] at rested
    exact rested.trans (Int.sub_le_sub_left since _)
  · intro exec moving admits probing
    simpa [admits.free.1] using consistent.held probing
  · intro moving failed
    rw [Pool.turn_some moving]
    simp [advance, failed, Breaker.become, CircuitBreaker.recordProbe]

end McpGateway.Resilience
