import McpGateway.Shared.Float64
import McpGateway.Shared.Runs
import McpGateway.Shared.VersionedKey

namespace McpGateway.RateLimit

open Shared

structure LimiterKey where
  clientId : String
  route : String
  deriving DecidableEq

def normalizeKey (key : LimiterKey) : LimiterKey where
  clientId := if trimSpace key.clientId = "" then "anonymous" else trimSpace key.clientId
  route := if trimSpace key.route = "" then "unknown" else trimSpace key.route

def LimiterKey.kvKey (key : LimiterKey) : String :=
  "rl." ++ (normalizeKey key).clientId ++ "." ++ (normalizeKey key).route

def defaultRateLimit : Rat := 10
def defaultRateBurst : Int := 20
def natsCASMaxRetries : Nat := 3

def wrapInt64 (n : Int) : Int := Int.bmod n (2 ^ 64)

-- The conversion of a float64 drops the fraction; out of range it gives the least int64.
def truncateInt64 (q : Rat) : Int :=
  let whole := if q < 0 then -((-q).floor) else q.floor
  if -2 ^ 63 ≤ whole ∧ whole < 2 ^ 63 then whole else -2 ^ 63

structure Window where
  count : Int
  windowStart : Int
  deriving DecidableEq

structure Answer where
  allowed : Bool
  remaining : Int
  retryAfter : Int
  error : Option String
  deriving DecidableEq

structure AllowCall where
  key : LimiterKey
  limit : Rat
  burst : Int
  now : Int
  fallback : Option Answer
  -- What the client library lets pass as a key.
  accepts : String → Bool

namespace AllowCall

variable (call : AllowCall)

def effectiveLimit : Rat := if call.limit ≤ 0 then defaultRateLimit else call.limit

def effectiveBurst : Int := if call.burst ≤ 0 then defaultRateBurst else call.burst

def windowMicros : Int :=
  truncateInt64 (roundFloat64 (roundFloat64 (1000000 * roundFloat64 call.effectiveBurst) / call.effectiveLimit))

def expired (window : Window) : Bool :=
  call.windowMicros < wrapInt64 (call.now - window.windowStart)

def loadWindow (kv : VersionedKey Window) : Window × Nat :=
  match kv.stored with
  | none => (⟨0, call.now⟩, 0)
  | some entry => if call.expired entry.value then (⟨0, call.now⟩, 0) else (entry.value, entry.revision)

end AllowCall

def casWrite (kv : VersionedKey Window) (window : Window) (revision : Nat) : Bool × VersionedKey Window :=
  if revision = 0 then kv.create window else kv.update window revision

inductive Outcome where
  | admitted (window : Window)
  | limited (window : Window)
  | unavailable
  deriving DecidableEq

def microsecond : Int := 1000

def overLimitResult (window : Window) (windowMicros now : Int) : Answer :=
  let retryMicros := wrapInt64 (window.windowStart + windowMicros - now)
  let retryAfter := wrapInt64 (retryMicros * microsecond)
  ⟨false, 0, if retryAfter ≤ 0 then 1000000 * microsecond else retryAfter, none⟩

def AllowCall.handleUnavailable (call : AllowCall) : Answer :=
  call.fallback.getD ⟨true, call.effectiveBurst, 0, none⟩

def AllowCall.answer (call : AllowCall) : Outcome → Answer
  | .admitted window => ⟨true, max (call.effectiveBurst - window.count) 0, 0, none⟩
  | .limited window => overLimitResult window call.windowMicros call.now
  | .unavailable => call.handleUnavailable

def AllowCall.attempts (call : AllowCall) : Nat → VersionedKey Window → Outcome × VersionedKey Window
  | 0, kv => (.unavailable, kv)
  | left + 1, kv =>
    let (window, revision) := call.loadWindow kv
    if call.effectiveBurst ≤ window.count then (.limited window, kv)
    else
      match casWrite kv { window with count := window.count + 1 } revision with
      | (true, kv) => (.admitted { window with count := window.count + 1 }, kv)
      | (false, kv) => call.attempts left kv

def AllowCall.allow (call : AllowCall) (kv : VersionedKey Window) : Outcome × VersionedKey Window :=
  if call.accepts call.key.kvKey then call.attempts natsCASMaxRetries kv else (.unavailable, kv)

theorem AllowCall.effectiveBurst_pos (call : AllowCall) : 0 < call.effectiveBurst := by
  unfold AllowCall.effectiveBurst defaultRateBurst
  split <;> omega

inductive Decided (call : AllowCall) (kv : VersionedKey Window) : Outcome → VersionedKey Window → Prop
  | opened (free : kv.stored = none) : Decided call kv (.admitted ⟨1, call.now⟩) (kv.put ⟨1, call.now⟩)
  | counted {entry : Versioned Window} (held : kv.stored = some entry) (fresh : call.expired entry.value = false)
    (room : entry.value.count < call.effectiveBurst) :
    Decided call kv (.admitted { entry.value with count := entry.value.count + 1 })
      (kv.put { entry.value with count := entry.value.count + 1 })
  | full {entry : Versioned Window} (held : kv.stored = some entry) (fresh : call.expired entry.value = false)
    (reached : call.effectiveBurst ≤ entry.value.count) : Decided call kv (.limited entry.value) kv
  | stuck {entry : Versioned Window} (held : kv.stored = some entry) (stale : call.expired entry.value = true) :
    Decided call kv .unavailable kv

section

variable {call : AllowCall} {kv : VersionedKey Window}

theorem AllowCall.attempts_expired {entry : Versioned Window} (held : kv.stored = some entry)
    (stale : call.expired entry.value = true) (left : Nat) : call.attempts left kv = (.unavailable, kv) := by
  have pos := call.effectiveBurst_pos
  induction left with
  | zero => rfl
  | succ left ih =>
    have loaded : call.loadWindow kv = (⟨0, call.now⟩, 0) := by simp [AllowCall.loadWindow, held, stale]
    have refused (window : Window) : casWrite kv window 0 = (false, kv) := by
      simp [casWrite, VersionedKey.create, held]
    rw [AllowCall.attempts]
    simp only [loaded, refused, ih, if_neg (not_le.mpr pos)]

theorem AllowCall.allow_decided (call : AllowCall) (kv : VersionedKey Window)
    (valid : call.accepts call.key.kvKey = true) : Decided call kv (call.allow kv).1 (call.allow kv).2 := by
  rw [AllowCall.allow, if_pos valid]
  have pos := call.effectiveBurst_pos
  cases held : kv.stored with
  | none =>
    have loaded : call.loadWindow kv = (⟨0, call.now⟩, 0) := by simp [AllowCall.loadWindow, held]
    have written (window : Window) : casWrite kv window 0 = (true, kv.put window) := by
      simp [casWrite, VersionedKey.create, held]
    have run : call.attempts natsCASMaxRetries kv = (.admitted ⟨1, call.now⟩, kv.put ⟨1, call.now⟩) := by
      rw [natsCASMaxRetries, AllowCall.attempts]
      simp only [loaded, written, if_neg (not_le.mpr pos), zero_add]
    rw [run]
    exact .opened held
  | some entry =>
    cases stale : call.expired entry.value with
    | true =>
      rw [AllowCall.attempts_expired held stale]
      exact .stuck held stale
    | false =>
      have loaded : call.loadWindow kv = (entry.value, entry.revision) := by simp [AllowCall.loadWindow, held, stale]
      have numbered := (kv.numbered entry held).1
      have written (window : Window) : casWrite kv window entry.revision = (true, kv.put window) := by
        simp [casWrite, VersionedKey.update, held, numbered.ne']
      rw [natsCASMaxRetries, AllowCall.attempts]
      simp only [loaded, written]
      split_ifs with reached
      · exact .full held stale reached
      · exact .counted held stale (not_le.mp reached)

end

structure Quota where
  key : LimiterKey
  limit : Rat
  burst : Int
  accepts : String → Bool

inductive Event where
  | allow (now : Int) (fallback : Option Answer)
  | elsewhere

structure Ledger where
  kv : VersionedKey Window
  outcomes : List Outcome

def Outcome.admittedIn (windowStart : Int) : Outcome → Bool
  | .admitted window => window.windowStart == windowStart
  | _ => false

def admissions (outcomes : List Outcome) (windowStart : Int) : Int :=
  outcomes.countP (Outcome.admittedIn windowStart)

theorem admissions_append (outcomes : List Outcome) (outcome : Outcome) (windowStart : Int) :
    admissions (outcomes ++ [outcome]) windowStart =
      admissions outcomes windowStart + if outcome.admittedIn windowStart then 1 else 0 := by
  simp [admissions, List.countP_append, List.countP_singleton]

namespace Quota

variable (quota : Quota)

def call (now : Int) (fallback : Option Answer) : AllowCall := ⟨quota.key, quota.limit, quota.burst, now, fallback, quota.accepts⟩

def effectiveBurst : Int := (quota.call 0 none).effectiveBurst

def step (ledger : Ledger) : Event → Ledger
  | .allow now fallback =>
    ⟨((quota.call now fallback).allow ledger.kv).2, ledger.outcomes ++ [((quota.call now fallback).allow ledger.kv).1]⟩
  | .elsewhere => { ledger with kv := ledger.kv.elsewhere }

def Unexpired (ledger : Ledger) : Event → Prop
  | .allow now fallback => ∀ entry ∈ ledger.kv.stored, (quota.call now fallback).expired entry.value = false
  | .elsewhere => True

instance (ledger : Ledger) : (event : Event) → Decidable (quota.Unexpired ledger event)
  | .allow now fallback =>
    inferInstanceAs (Decidable (∀ entry ∈ ledger.kv.stored, (quota.call now fallback).expired entry.value = false))
  | .elsewhere => isTrue trivial

structure Bounded (ledger : Ledger) : Prop where
  decided : .unavailable ∉ ledger.outcomes
  admitted : ∀ windowStart, admissions ledger.outcomes windowStart ≤ quota.effectiveBurst

structure Counted (ledger : Ledger) : Prop where
  none : ledger.kv.stored = none → ∀ windowStart, admissions ledger.outcomes windowStart = 0
  some : ∀ entry ∈ ledger.kv.stored, entry.value.count ≤ quota.effectiveBurst ∧
    ∀ windowStart, admissions ledger.outcomes windowStart =
      if windowStart = entry.value.windowStart then entry.value.count else 0

end Quota

section

variable {quota : Quota} {ledger : Ledger}

theorem Quota.Counted.bound (counted : quota.Counted ledger) (windowStart : Int) :
    admissions ledger.outcomes windowStart ≤ quota.effectiveBurst := by
  have pos : 0 < quota.effectiveBurst := AllowCall.effectiveBurst_pos _
  cases held : ledger.kv.stored with
  | none =>
    rw [counted.none held windowStart]
    exact pos.le
  | some entry =>
    obtain ⟨within, same⟩ := counted.some entry held
    rw [same windowStart]
    split <;> omega

theorem Quota.Counted.refused {outcome : Outcome} (counted : quota.Counted ledger)
    (refused : ∀ windowStart, outcome.admittedIn windowStart = false) :
    quota.Counted ⟨ledger.kv, ledger.outcomes ++ [outcome]⟩ := by
  have same (windowStart : Int) :
      admissions (ledger.outcomes ++ [outcome]) windowStart = admissions ledger.outcomes windowStart := by
    simp [admissions_append, refused]
  exact ⟨by simpa only [same] using counted.none, by simpa only [same] using counted.some⟩

theorem Quota.Counted.after {now : Int} {fallback : Option Answer} {outcome : Outcome} {next : VersionedKey Window}
    (counted : quota.Counted ledger) (decided : Decided (quota.call now fallback) ledger.kv outcome next) :
    quota.Counted ⟨next, ledger.outcomes ++ [outcome]⟩ := by
  have pos : 0 < quota.effectiveBurst := AllowCall.effectiveBurst_pos _
  cases decided with
  | opened free =>
    refine ⟨by simp [VersionedKey.put], ?_⟩
    rintro entry ⟨⟩
    refine ⟨pos, fun windowStart => ?_⟩
    simp only [admissions_append, counted.none free windowStart, Outcome.admittedIn, beq_iff_eq]
    split_ifs <;> omega
  | @counted entry held fresh room =>
    obtain ⟨within, same⟩ := counted.some entry held
    refine ⟨by simp [VersionedKey.put], ?_⟩
    rintro written ⟨⟩
    refine ⟨room, fun windowStart => ?_⟩
    simp only [admissions_append, same windowStart, Outcome.admittedIn, beq_iff_eq]
    split_ifs <;> omega
  | full held fresh reached => exact counted.refused fun _ => rfl
  | stuck held stale => exact counted.refused fun _ => rfl

theorem Decided.unavailable_iff {call : AllowCall} {kv next : VersionedKey Window} {outcome : Outcome}
    (decided : Decided call kv outcome next) :
    outcome ≠ .unavailable ↔ ∀ entry ∈ kv.stored, call.expired entry.value = false := by
  cases decided <;> simp_all

theorem Quota.Counted.step (valid : quota.accepts quota.key.kvKey = true) (counted : quota.Counted ledger)
    (event : Event) : quota.Counted (quota.step ledger event) := by
  cases event with
  | elsewhere => exact ⟨counted.none, counted.some⟩
  | allow now fallback => exact counted.after (AllowCall.allow_decided _ _ valid)

section

variable (valid : quota.accepts quota.key.kvKey = true)

include valid

theorem Quota.step_decided (event : Event) :
    .unavailable ∉ (quota.step ledger event).outcomes ↔ .unavailable ∉ ledger.outcomes ∧ quota.Unexpired ledger event := by
  cases event with
  | elsewhere => simp [Quota.step, Quota.Unexpired]
  | allow now fallback =>
    have decided := AllowCall.allow_decided (quota.call now fallback) ledger.kv valid
    rw [Quota.Unexpired, ← decided.unavailable_iff]
    simp [Quota.step, eq_comm]

theorem Quota.run_decided (ledger : Ledger) (events : List Event) :
    .unavailable ∉ (run quota.step ledger events).outcomes ↔
      .unavailable ∉ ledger.outcomes ∧ Along quota.step quota.Unexpired ledger events := by
  induction events generalizing ledger with
  | nil => simp [run, Along]
  | cons event rest ih =>
    change .unavailable ∉ (run quota.step (quota.step ledger event) rest).outcomes ↔ _
    rw [ih, Quota.step_decided valid, and_assoc]
    rfl

theorem Quota.run_counted (counted : quota.Counted ledger) (events : List Event) :
    quota.Counted (run quota.step ledger events) := by
  induction events generalizing ledger with
  | nil => exact counted
  | cons event rest ih => exact ih (counted.step valid event)

end

end

/-- The limiter decides every call of a run by its window, and admits at most the burst in each, exactly if no call
comes after the window that is stored has expired. -/
theorem decided_by_window_iff (quota : Quota) (valid : quota.accepts quota.key.kvKey = true) (sequence : Nat)
    (events : List Event) : quota.Bounded (run quota.step ⟨.absent sequence, []⟩ events) ↔
      Along quota.step quota.Unexpired ⟨.absent sequence, []⟩ events := by
  have counted : quota.Counted (run quota.step ⟨.absent sequence, []⟩ events) :=
    Quota.run_counted valid ⟨fun _ _ => rfl, by simp [VersionedKey.absent]⟩ events
  have decided := Quota.run_decided valid ⟨.absent sequence, []⟩ events
  simp only [List.not_mem_nil, not_false_eq_true, true_and] at decided
  rw [← decided]
  exact ⟨Quota.Bounded.decided, fun decided => ⟨decided, counted.bound⟩⟩

namespace Sample

def quota : Quota := ⟨⟨"alice", "tools/call"⟩, 1, 2, (· = "rl.alice.tools/call")⟩

def clock : Int := 1767225600000000

end Sample

open Sample

theorem burst_decided_by_window : quota.Bounded (run quota.step ⟨.absent 0, []⟩
      [.allow clock none, .elsewhere, .allow (clock + 500000) none, .allow (clock + 900000) none]) :=
  (decided_by_window_iff quota (by decide +kernel) 0 _).mpr (by decide +kernel)

theorem expired_window_fails_open : quota.accepts quota.key.kvKey = true ∧
      (run quota.step ⟨.absent 0, []⟩ [.allow clock none, .allow (clock + 3000000) none]).outcomes =
        [.admitted ⟨1, clock⟩, .unavailable] ∧
      (quota.call (clock + 3000000) none).answer .unavailable = ⟨true, 2, 0, none⟩ := by
  refine ⟨?_, ?_, ?_⟩ <;> decide +kernel

end McpGateway.RateLimit
