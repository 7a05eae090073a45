import McpGateway.RateLimit.NatsBackend
import McpGateway.Shared.Interleaving

namespace McpGateway.RateLimit

open Shared

inductive Stage where
  | get (left : Nat)
  | write (left : Nat) (window : Window) (revision : Nat)
  | finished (outcome : Outcome)

structure Caller where
  call : AllowCall
  stage : Stage

structure Counter where
  kv : VersionedKey Window
  admitted : Nat

def AllowCall.begin (call : AllowCall) : Caller :=
  ⟨call, if call.accepts call.key.kvKey then .get natsCASMaxRetries else .finished .unavailable⟩

-- One operation on the store and what the call does up to the next. A Get may fail where the input is false.
def AllowCall.advanceStage (call : AllowCall) (answered : Bool) (counter : Counter) : Stage → Counter × Stage
  | .get 0 => (counter, .finished .unavailable)
  | .get (left + 1) =>
    if answered then
      let (window, revision) := call.loadWindow counter.kv
      if call.effectiveBurst ≤ window.count then (counter, .finished (.limited window))
      else (counter, .write left { window with count := window.count + 1 } revision)
    else (counter, .finished .unavailable)
  | .write left window revision =>
    match casWrite counter.kv window revision with
    | (true, kv) => (⟨kv, counter.admitted + 1⟩, .finished (.admitted window))
    | (false, kv) => (⟨kv, counter.admitted⟩, .get left)
  | .finished outcome => (counter, .finished outcome)

def advance (answered : Bool) (counter : Counter) (caller : Caller) : Counter × Caller :=
  ((caller.call.advanceStage answered counter caller.stage).1,
    ⟨caller.call, (caller.call.advanceStage answered counter caller.stage).2⟩)

inductive Move where
  | turn (turn : Turn Bool)
  | removal
  | elsewhere

def step (pool : Pool Counter Caller) : Move → Pool Counter Caller
  | .turn turn => pool.turn advance turn
  | .removal => ⟨⟨pool.memory.kv.remove, 0⟩, pool.processes⟩
  | .elsewhere => ⟨⟨pool.memory.kv.elsewhere, pool.memory.admitted⟩, pool.processes⟩

theorem AllowCall.loadWindow_cases (call : AllowCall) (kv : VersionedKey Window) :
    call.loadWindow kv = (⟨0, call.now⟩, 0) ∨
      ∃ entry, kv.stored = some entry ∧ call.loadWindow kv = (entry.value, entry.revision) := by
  unfold AllowCall.loadWindow
  cases held : kv.stored with
  | none => exact .inl rfl
  | some entry =>
    cases stale : call.expired entry.value with
    | true => exact .inl (by simp [stale])
    | false => exact .inr ⟨entry, rfl, by simp [stale]⟩

theorem casWrite_cases (kv : VersionedKey Window) (window : Window) (revision : Nat) :
    casWrite kv window revision = (false, kv) ∨ casWrite kv window revision = (true, kv.put window) ∧
        (revision = 0 ∧ kv.stored = none ∨ ∃ entry, kv.stored = some entry ∧ entry.revision = revision) := by
  unfold casWrite VersionedKey.create VersionedKey.update
  split_ifs with zero absent matching
  · exact .inr ⟨rfl, .inl ⟨zero, Option.isNone_iff_eq_none.mp absent⟩⟩
  · exact .inl rfl
  · obtain ⟨entry, held, same⟩ := Option.map_eq_some_iff.mp matching
    exact .inr ⟨rfl, .inr ⟨entry, held, same⟩⟩
  · exact .inl rfl

/-- A call that is left alone does in its turns what the loop of Allow does. -/
theorem AllowCall.advanceStage_alone (call : AllowCall) (left : Nat) (counter : Counter) :
    ∃ admitted, (fun state => call.advanceStage true state.1 state.2)^[2 * left + 1] (counter, .get left) =
      (⟨(call.attempts left counter.kv).2, admitted⟩, .finished (call.attempts left counter.kv).1) := by
  have stays (turns : Nat) (counter : Counter) (outcome : Outcome) :
      (fun state => call.advanceStage true state.1 state.2)^[turns] (counter, .finished outcome) =
        (counter, .finished outcome) := Function.iterate_fixed rfl turns
  induction left generalizing counter with
  | zero => exact ⟨counter.admitted, rfl⟩
  | succ left ih =>
    rw [show 2 * (left + 1) + 1 = (2 * left + 1) + 1 + 1 from rfl, Function.iterate_succ_apply,
      Function.iterate_succ_apply]
    cases loaded : call.loadWindow counter.kv with
    | mk window revision =>
      by_cases reached : call.effectiveBurst ≤ window.count
      · have got : call.advanceStage true counter (.get (left + 1)) = (counter, .finished (.limited window)) := by
          simp [AllowCall.advanceStage, loaded, reached]
        have decided : call.attempts (left + 1) counter.kv = (.limited window, counter.kv) := by
          simp [AllowCall.attempts, loaded, reached]
        rw [got, decided]
        exact ⟨counter.admitted, stays _ _ _⟩
      · have got : call.advanceStage true counter (.get (left + 1)) =
            (counter, .write left { window with count := window.count + 1 } revision) := by
          simp [AllowCall.advanceStage, loaded, reached]
        rw [got]
        obtain failed | ⟨written, -⟩ :=
          casWrite_cases counter.kv { window with count := window.count + 1 } revision
        · have retries : call.attempts (left + 1) counter.kv = call.attempts left counter.kv := by
            simp [AllowCall.attempts, loaded, reached, failed]
          simpa [AllowCall.advanceStage, failed, retries] using ih counter
        · have decided : call.attempts (left + 1) counter.kv = (.admitted { window with count := window.count + 1 },
              counter.kv.put { window with count := window.count + 1 }) := by
            simp [AllowCall.attempts, loaded, reached, written]
          rw [decided]
          refine ⟨counter.admitted + 1, ?_⟩
          simpa [AllowCall.advanceStage, written] using stays _ _ _

inductive Stepped (call : AllowCall) (counter : Counter) : Stage → Counter → Stage → Prop
  | halted (stage : Stage) (outcome : Outcome) : Stepped call counter stage counter (.finished outcome)
  | opens (left : Nat) : Stepped call counter (.get (left + 1)) counter (.write left ⟨1, call.now⟩ 0)
  | counts (left : Nat) {entry : Versioned Window} (held : counter.kv.stored = some entry)
    (room : entry.value.count < call.effectiveBurst) :
    Stepped call counter (.get (left + 1)) counter
      (.write left { entry.value with count := entry.value.count + 1 } entry.revision)
  | failed (left : Nat) (window : Window) (revision : Nat) :
    Stepped call counter (.write left window revision) counter (.get left)
  | written (left : Nat) {window : Window} {revision : Nat} (matching : revision = 0 ∧ counter.kv.stored = none ∨
      ∃ entry, counter.kv.stored = some entry ∧ entry.revision = revision) :
    Stepped call counter (.write left window revision) ⟨counter.kv.put window, counter.admitted + 1⟩
      (.finished (.admitted window))

theorem AllowCall.advanceStage_stepped (call : AllowCall) (answered : Bool) (counter : Counter) (stage : Stage) :
    Stepped call counter stage (call.advanceStage answered counter stage).1
      (call.advanceStage answered counter stage).2 := by
  cases stage with
  | finished outcome => exact .halted _ outcome
  | get left =>
    cases left with
    | zero => exact .halted _ .unavailable
    | succ left =>
      unfold AllowCall.advanceStage
      cases answered with
      | false => exact .halted _ .unavailable
      | true =>
        simp only [if_true]
        split_ifs with reached
        · exact .halted _ _
        · obtain loaded | ⟨entry, held, loaded⟩ := call.loadWindow_cases counter.kv
          · simp only [loaded, zero_add]
            exact .opens left
          · simp only [loaded] at reached ⊢
            exact .counts left held (not_le.mp reached)
  | write left window revision =>
    unfold AllowCall.advanceStage
    obtain failed | ⟨written, matching⟩ := casWrite_cases counter.kv window revision
    · simp only [failed]
      exact .failed left window revision
    · simp only [written]
      exact .written left matching

structure Counter.Exact (burst : Int) (counter : Counter) : Prop where
  absent : counter.kv.stored = none → counter.admitted = 0
  stored : ∀ entry ∈ counter.kv.stored, entry.value.count = counter.admitted ∧ entry.value.count ≤ burst

-- A call that is about to write opens a window, or counts one further than the window its revision stands for.
inductive Sound (burst : Int) (kv : VersionedKey Window) : Stage → Prop
  | get (left : Nat) : Sound burst kv (.get left)
  | opens (left : Nat) (windowStart : Int) : Sound burst kv (.write left ⟨1, windowStart⟩ 0)
  | counts (left : Nat) {base : Window} {revision : Nat} (numbered : revision ≠ 0) (knows : kv.Knows base revision)
    (room : base.count < burst) : Sound burst kv (.write left { base with count := base.count + 1 } revision)
  | finished (outcome : Outcome) : Sound burst kv (.finished outcome)

section

variable {burst : Int} {counter : Counter} {kv : VersionedKey Window} {stage : Stage}

theorem Sound.mono {next : VersionedKey Window} (sound : Sound burst kv stage)
    (keeps : ∀ base revision, kv.Knows base revision → next.Knows base revision) : Sound burst next stage := by
  cases sound with
  | get left => exact .get left
  | opens left windowStart => exact .opens left windowStart
  | counts left numbered knows room => exact .counts left numbered (keeps _ _ knows) room
  | finished outcome => exact .finished outcome

theorem Counter.Exact.put {window : Window} (counts : window.count = counter.admitted + 1) (room : window.count ≤ burst) :
    Counter.Exact burst ⟨counter.kv.put window, counter.admitted + 1⟩ where
  absent := by simp [VersionedKey.put]
  stored := by
    rintro entry ⟨⟩
    exact ⟨by simpa using counts, room⟩

theorem Sound.written {left : Nat} {window : Window} {revision : Nat} (pos : 0 < burst)
    (counted : counter.Exact burst) (sound : Sound burst counter.kv (.write left window revision))
    (matching : revision = 0 ∧ counter.kv.stored = none ∨
      ∃ entry, counter.kv.stored = some entry ∧ entry.revision = revision) :
    Counter.Exact burst ⟨counter.kv.put window, counter.admitted + 1⟩ := by
  cases sound with
  | opens left windowStart =>
    obtain ⟨_, free⟩ | ⟨entry, held, zero⟩ := matching
    · exact .put (by simp [counted.absent free]) pos
    · exact absurd zero (counter.kv.numbered entry held).1.ne'
  | counts left numbered knows room =>
    obtain ⟨zero, _⟩ | ⟨entry, held, same⟩ := matching
    · exact absurd zero numbered
    · have base := knows.same entry held same
      have stored := (counted.stored entry held).1
      rw [base] at stored
      exact .put (by simp [stored]) room

variable {call : AllowCall} {next : Counter} {after : Stage}

theorem Stepped.counted (stepped : Stepped call counter stage next after) (pos : 0 < burst)
    (counted : counter.Exact burst) (sound : Sound burst counter.kv stage) : next.Exact burst := by
  cases stepped with
  | halted | opens | counts | failed => exact counted
  | written left matching => exact sound.written pos counted matching

theorem Stepped.keeps (stepped : Stepped call counter stage next after) (base : Window) (revision : Nat)
    (knows : counter.kv.Knows base revision) : next.kv.Knows base revision := by
  cases stepped with
  | halted | opens | counts | failed => exact knows
  | written left matching => exact knows.put

theorem Stepped.sound (stepped : Stepped call counter stage next after) (same : call.effectiveBurst = burst) :
    Sound burst next.kv after := by
  cases stepped with
  | halted stage outcome => exact .finished outcome
  | opens left => exact .opens left call.now
  | counts left held room =>
    exact .counts left (counter.kv.numbered _ held).1.ne' (VersionedKey.knows_stored held) (same ▸ room)
  | failed left window revision => exact .get left
  | written left matching => exact .finished _

end

structure Consistent (burst : Int) (pool : Pool Counter Caller) : Prop where
  counter : pool.memory.Exact burst
  callers : ∀ caller ∈ pool.processes,
    caller.call.effectiveBurst = burst ∧ Sound burst pool.memory.kv caller.stage

theorem Consistent.step {burst : Int} {pool : Pool Counter Caller} (pos : 0 < burst)
    (consistent : Consistent burst pool) (move : Move) : Consistent burst (step pool move) := by
  obtain ⟨counted, callers⟩ := consistent
  cases move with
  | removal =>
    exact ⟨⟨fun _ => rfl, by simp [RateLimit.step, VersionedKey.remove, VersionedKey.absent]⟩, fun caller mem =>
      (callers caller mem).imp_right fun sound => sound.mono fun _ _ knows => knows.remove⟩
  | elsewhere =>
    exact ⟨⟨counted.absent, counted.stored⟩, fun caller mem =>
      (callers caller mem).imp_right fun sound => sound.mono fun _ _ knows => knows.elsewhere⟩
  | turn turn =>
    have stepped (caller : Caller) := caller.call.advanceStage_stepped turn.input pool.memory caller.stage
    change Consistent burst (pool.turn advance turn)
    refine ⟨?_, Pool.turn_asserted
      (fun counter caller => caller.call.effectiveBurst = burst ∧ Sound burst (Counter.kv counter) caller.stage) callers
      (fun caller _ own => ⟨own.1, (stepped caller).sound own.1⟩)
      (fun caller _ _ other _ held => held.imp_right fun sound => sound.mono (stepped caller).keeps)⟩
    cases moving : pool.processes[turn.position]? with
    | none => rwa [Pool.turn_none moving]
    | some caller =>
      rw [Pool.turn_some moving]
      exact (stepped caller).counted pos counted (callers caller (List.mem_of_getElem? moving)).2

structure Request where
  limit : Rat
  now : Int
  fallback : Option Answer

def contend (accepts : String → Bool) (key : LimiterKey) (burst : Int) (sequence : Nat) (requests : List Request) :
    Pool Counter Caller :=
  ⟨⟨.absent sequence, 0⟩,
    requests.map fun request => AllowCall.begin ⟨key, request.limit, burst, request.now, request.fallback, accepts⟩⟩

/-- However the operations of the calls on a key interleave, with each other and with the removals of the key: what is
stored is the number of calls admitted since the key was created, and never more than the burst. -/
theorem stored_count_exact (accepts : String → Bool) (key : LimiterKey) (burst : Int) (sequence : Nat)
    (requests : List Request) (moves : List Move) :
    (run step (contend accepts key burst sequence requests) moves).memory.Exact
      (AllowCall.effectiveBurst ⟨key, 0, burst, 0, none, accepts⟩) := by
  have pos : 0 < AllowCall.effectiveBurst ⟨key, 0, burst, 0, none, accepts⟩ := AllowCall.effectiveBurst_pos _
  have start : Consistent (AllowCall.effectiveBurst ⟨key, 0, burst, 0, none, accepts⟩)
      (contend accepts key burst sequence requests) := by
    refine ⟨⟨fun _ => rfl, by simp [contend, VersionedKey.absent]⟩, fun caller mem => ?_⟩
    obtain ⟨request, _, rfl⟩ := List.mem_map.mp mem
    refine ⟨rfl, ?_⟩
    unfold AllowCall.begin
    split_ifs
    · exact .get _
    · exact .finished _
  generalize contend accepts key burst sequence requests = pool at start
  induction moves generalizing pool with
  | nil => exact start.counter
  | cons move rest ih => exact ih _ (start.step pos move)

end McpGateway.RateLimit
