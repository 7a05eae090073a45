import McpGateway.Resilience.CircuitBreaker

namespace McpGateway.Resilience

open Shared

-- A panic of the user function ends its Execute between two statements; the caller recovers it.
inductive BreakerCall where
  | execute (exec : Execution)
  | panicked
  | state (answer : Option CircuitState)
  | reset (done : Bool)
  deriving DecidableEq

structure Happening where
  occasion : Occasion
  panics : Bool

def CircuitBreaker.reset (circuit : CircuitBreaker) : CircuitBreaker :=
  { circuit with state := .stateClosed, failures := 0, lastFailure := 0 }

-- The function runs behind the unlocked mutex of executeClosed or under the lock of a probe, and neither releases or
-- records anything on the way out of a panic.
def advanceCall (happening : Happening) (breaker : Breaker) (call : BreakerCall) : Breaker × BreakerCall :=
  let now := breaker.clock + happening.occasion.elapsed
  match call with
  | .execute exec =>
    if happening.panics ∧ (exec = .running ∨ exec = .probing) then (breaker.wait now, .panicked)
    else ((advance happening.occasion breaker exec).1, .execute (advance happening.occasion breaker exec).2)
  | .state none => (breaker.wait now, if breaker.locked then call else .state (some breaker.circuit.state))
  | .reset false =>
    if breaker.locked then (breaker.wait now, call) else (breaker.become now breaker.circuit.reset false, .reset true)
  | _ => (breaker.wait now, call)

def Panics (pool : Pool Breaker BreakerCall) (next : Turn Happening) : Prop :=
  next.input.panics = true ∧ (pool.processes[next.position]? = some (.execute .running) ∨
    pool.processes[next.position]? = some (.execute .probing))

instance (pool : Pool Breaker BreakerCall) (next : Turn Happening) : Decidable (Panics pool next) :=
  inferInstanceAs (Decidable (_ ∧ _))

/-- The mutex is free behind the move unless an Execute is in progress, and a panic is counted as a failure. -/
structure Recovers (pool : Pool Breaker BreakerCall) (next : Turn Happening) : Prop where
  released : (∀ exec, .execute exec ∈ (pool.turn advanceCall next).processes →
    ∃ result, exec = .finished result) → (pool.turn advanceCall next).memory.locked = false
  counted : Panics pool next →
    (pool.processes[next.position]? = some (.execute .running) → (pool.turn advanceCall next).memory.circuit.failures =
      Int.bmod (pool.memory.circuit.failures + 1) (2 ^ 64)) ∧
    (pool.processes[next.position]? = some (.execute .probing) →
      (pool.turn advanceCall next).memory.circuit.state = .stateOpen)

-- The lock is held by the one probe there may be, and the breaker stays half open under it.
structure Held (pool : Pool Breaker BreakerCall) : Prop where
  probes : pool.processes.count (.execute .probing) = pool.memory.locked.toNat
  halfOpen : pool.memory.locked = true → pool.memory.circuit.state = .stateHalfOpen

section

variable {breaker : Breaker} {exec : Execution} {pool : Pool Breaker BreakerCall} {next : Turn Happening}
  {happening : Happening} {call : BreakerCall}

theorem arrive_halfOpen (circuit : CircuitBreaker) (now : Time) (cancelled : Bool)
    (kept : (circuit.arrive now cancelled).2.1 = true) : (circuit.arrive now cancelled).1.state = .stateHalfOpen := by
  cases state : circuit.state <;> simp only [CircuitBreaker.arrive, state] at kept ⊢
  · simp at kept
  · split_ifs at kept ⊢
    simp_all [CircuitBreaker.probe]
  · rfl

open Breaker (wait become)

theorem advance_halfOpen (occasion : Occasion)
    (halfOpen : breaker.locked = true → breaker.circuit.state = .stateHalfOpen)
    (locked : (advance occasion breaker exec).1.locked = true) :
    (advance occasion breaker exec).1.circuit.state = .stateHalfOpen := by
  cases exec with
  | arriving =>
    cases held : breaker.locked with
    | true => simpa [advance, held, wait, become] using halfOpen held
    | false =>
      simp only [advance, held, Bool.false_eq_true, if_false, become] at locked ⊢
      exact arrive_halfOpen _ _ _ locked
  | returned failed =>
    cases held : breaker.locked <;> simp_all [advance, wait, become]
  | probing => simp [advance, become] at locked
  | admitted | running | finished result => exact halfOpen locked

theorem Held.locked (held : Held pool) (probing : .execute .probing ∈ pool.processes) : pool.memory.locked = true := by
  have counted := List.count_pos_iff.mpr probing
  rw [held.probes] at counted
  cases locked : pool.memory.locked with
  | true => rfl
  | false => simp [locked] at counted

theorem advanceCall_locked (held : call = .execute .probing → breaker.locked = true)
    (calm : happening.panics = true → call ≠ .execute .running ∧ call ≠ .execute .probing) :
    (advanceCall happening breaker call).1.locked.toNat + (if call == .execute .probing then 1 else 0) =
      breaker.locked.toNat + if (advanceCall happening breaker call).2 == .execute .probing then 1 else 0 := by
  cases call with
  | execute exec =>
    have runs : ¬ (happening.panics = true ∧ (exec = .running ∨ exec = .probing)) := by
      rintro ⟨panics, rfl | rfl⟩ <;> simp_all
    simpa [advanceCall, runs] using advance_locked happening.occasion fun probing => held (by rw [probing])
  | panicked => rfl
  | state answer =>
    cases answer <;> cases free : breaker.locked <;> simp [advanceCall, free, wait, become]
  | reset done => cases done <;> cases free : breaker.locked <;> simp [advanceCall, free, wait, become]

theorem advanceCall_halfOpen (halfOpen : breaker.locked = true → breaker.circuit.state = .stateHalfOpen)
    (locked : (advanceCall happening breaker call).1.locked = true) :
    (advanceCall happening breaker call).1.circuit.state = .stateHalfOpen := by
  cases call with
  | execute exec =>
    rw [advanceCall] at locked ⊢
    split_ifs at locked ⊢
    · exact halfOpen locked
    · exact advance_halfOpen happening.occasion halfOpen locked
  | panicked => exact halfOpen locked
  | state answer => cases answer <;> exact halfOpen locked
  | reset done =>
    cases done <;> cases free : breaker.locked <;> simp_all [advanceCall, wait, become]

theorem Held.turn (held : Held pool) (calm : ¬ Panics pool next) : Held (pool.turn advanceCall next) := by
  constructor
  · refine Pool.turn_count (BreakerCall.execute .probing) (fun breaker : Breaker => breaker.locked.toNat) held.probes ?_
    intro call moving
    refine advanceCall_locked (fun probing => held.locked (probing ▸ List.mem_of_getElem? moving)) fun panics => ?_
    constructor <;> rintro rfl
    · exact calm ⟨panics, .inl moving⟩
    · exact calm ⟨panics, .inr moving⟩
  · cases moving : pool.processes[next.position]? with
    | none => simpa [Pool.turn_none moving] using held.halfOpen
    | some call => simpa [Pool.turn_some moving] using advanceCall_halfOpen held.halfOpen

theorem panic_circuit (panics : Panics pool next) : (pool.turn advanceCall next).memory.circuit = pool.memory.circuit := by
  obtain ⟨panics, moving | moving⟩ := panics <;>
    simp [Pool.turn_some moving, advanceCall, panics, wait, become]

theorem Held.recovers_iff (held : Held pool) : Recovers pool next ↔ ¬ Panics pool next := by
  constructor
  · intro recovers panics
    have same := panic_circuit panics
    obtain ⟨inside, moving | moving⟩ := panics
    · have counted := (recovers.counted ⟨inside, .inl moving⟩).1 moving
      rw [same] at counted
      have residue := congrArg (fun n => n % ((2 ^ 64 : Nat) : Int)) counted
      simp only [Int.bmod_emod] at residue
      omega
    · have opened := (recovers.counted ⟨inside, .inr moving⟩).2 moving
      rw [same, held.halfOpen (held.locked (List.mem_of_getElem? moving))] at opened
      cases opened
  · intro calm
    refine ⟨fun ended => ?_, fun panics => absurd panics calm⟩
    by_contra locked
    have probes := (held.turn calm).probes
    rw [Bool.eq_true_of_not_eq_false locked] at probes
    obtain ⟨result, probing⟩ := ended .probing (List.count_pos_iff.mp (by simp [probes]))
    cases probing

end

def callsStart (threshold timeout : Int) (start : Time) (calls : List BreakerCall) : Pool Breaker BreakerCall :=
  ⟨⟨newCircuitBreaker threshold timeout, false, start, start⟩, calls⟩

/-- However Execute, State and Reset calls interleave: the breaker recovers from every move exactly as long as no user
function panics. -/
theorem breaker_recovers_iff (threshold timeout : Int) (start : Time) (calls : List BreakerCall)
    (fresh : ∀ call ∈ calls, call = .execute .arriving ∨ call = .state none ∨ call = .reset false)
    (turns : List (Turn Happening)) :
    Along (Pool.turn advanceCall) Recovers (callsStart threshold timeout start calls) turns ↔
      Along (Pool.turn advanceCall) (fun pool next => ¬ Panics pool next) (callsStart threshold timeout start calls)
        turns := by
  have initial : Held (callsStart threshold timeout start calls) := by
    refine ⟨List.count_eq_zero.mpr fun probing => ?_, fun locked => by simp [callsStart] at locked⟩
    simpa using fresh _ probing
  exact Along.congr_of_invariant initial (fun _ _ held calm => held.turn calm) fun _ _ held => held.recovers_iff

namespace Sample

def failing (panics : Bool) : Turn Happening := ⟨0, ⟨1, false, true⟩, panics⟩

def probing : List (Turn Happening) := [failing false, failing false, failing false, failing false,
    ⟨1, ⟨9, false, true⟩, false⟩]

end Sample

theorem failing_probe_recovered :
    Along (Pool.turn advanceCall) Recovers (callsStart 1 5 0 [.execute .arriving, .execute .arriving, .state none])
      (Sample.probing ++ [⟨1, ⟨1, false, true⟩, false⟩, ⟨2, ⟨1, false, false⟩, false⟩]) :=
  (breaker_recovers_iff _ _ _ _ (by decide) _).mpr (by decide +kernel)

/-- A panic outside the lock is not counted; one of a probe leaves the lock held, and State and Reset wait forever. -/
theorem panicking_probe_keeps_lock :
    let calls := [.execute .arriving, .execute .arriving, .state none]
    let counted := run (Pool.turn advanceCall) (callsStart 1 5 0 calls)
      [Sample.failing false, Sample.failing false, Sample.failing true]
    let stuck := run (Pool.turn advanceCall) (callsStart 1 5 0 calls) (Sample.probing ++ [⟨1, ⟨1, false, true⟩, true⟩])
    counted.processes[0]? = some .panicked ∧ counted.memory.circuit.failures = 0 ∧
      stuck.processes = [.execute (.finished .failed), .panicked, .state none] ∧ stuck.memory.locked = true ∧
      stuck.memory.circuit.state = .stateHalfOpen := by
  decide +kernel

end McpGateway.Resilience
