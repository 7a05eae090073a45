import McpGateway.RateLimit.NatsBackend
import McpGateway.Shared.TokenBucket
import McpGateway.Types

namespace McpGateway.RateLimit

open Shared

def durationSeconds (duration : Int) : Rat :=
  roundFloat64 (roundFloat64 (duration.tdiv second) + roundFloat64 (roundFloat64 (duration.tmod second) / second))

-- golang.org/x/time/rate: NewLimiter, AllowN for one event, TokensAt and Limit.
structure RateLibrary where
  Limiter : Type
  newLimiter : Rat → Int → Limiter
  allow : Limiter → Time → Bool × Limiter
  tokensAt : Limiter → Time → Rat
  limit : Limiter → Rat

def seconds (t : Time) : Rat := (t : Rat) / (second : Rat)

-- The library, were its numbers not rounded.
def exactRate : RateLibrary where
  Limiter := TokenBucket Rat
  newLimiter limit burst := .full limit burst
  allow limiter t := (limiter.take (seconds t)).swap
  tokensAt limiter t := limiter.available (seconds t)
  limit := TokenBucket.limit

def LimiterKey.text (key : LimiterKey) : String := key.clientId ++ ":" ++ key.route

inductive CallContext where
  | live
  -- The client went away; the script may have run all the same.
  | cancelled (executed : Bool)
  deriving DecidableEq

structure LimiterCall where
  key : LimiterKey
  limit : Rat
  burst : Int
  context : CallContext
  now : Time
  checkedAt : Time
  countedAt : Time
  missedAt : Time
  serverNow : Time

def LimiterCall.mapKey (call : LimiterCall) : String := (normalizeKey call.key).text

structure MemoryEntry (lib : RateLibrary) where
  limiter : lib.Limiter
  lastUsed : Time

structure MemoryBackend (lib : RateLibrary) where
  limiters : GoMap String (MemoryEntry lib)
  defaultRate : Rat
  defaultBurst : Int
  maxIdle : Int

variable {lib : RateLibrary}

def checkLimiter (limiter : lib.Limiter) (limit : Rat) (call : LimiterCall) : Answer × lib.Limiter :=
  let (allowed, limiter) := lib.allow limiter call.checkedAt
  let remaining := max (truncateInt64 (lib.tokensAt limiter call.countedAt).floor) 0
  let needed := roundFloat64 (1 - lib.tokensAt limiter call.missedAt)
  let needed := if needed ≤ 0 then 1 else needed
  let retryAfter :=
    if limit ≤ 0 then second
    else
      let retryAfter := truncateInt64 (roundFloat64 (roundFloat64 (second * needed) / limit))
      if retryAfter ≤ 0 then second else retryAfter
  (⟨allowed, remaining, if allowed then 0 else retryAfter, none⟩, limiter)

namespace MemoryBackend

def new (maxIdle : Int) : MemoryBackend lib :=
  ⟨∅, defaultRateLimit, defaultRateBurst, if maxIdle ≤ 0 then 5 * 60 * second else maxIdle⟩

def setDefaults (backend : MemoryBackend lib) (defaultRate : Rat) (defaultBurst : Int) : MemoryBackend lib :=
  { backend with
    defaultRate := if defaultRate ≤ 0 then defaultRateLimit else defaultRate
    defaultBurst := if defaultBurst ≤ 0 then defaultRateBurst else defaultBurst }

-- A stored limiter keeps the rate and the burst it was made with.
def allow (backend : MemoryBackend lib) (call : LimiterCall) : MemoryBackend lib × Answer :=
  let limit := if call.limit ≤ 0 then backend.defaultRate else call.limit
  let burst := if call.burst ≤ 0 then backend.defaultBurst else call.burst
  let limiter := ((backend.limiters.lookup call.mapKey).map MemoryEntry.limiter).getD (lib.newLimiter limit burst)
  let (answer, limiter) := checkLimiter limiter limit call
  ({ backend with limiters := backend.limiters.insert call.mapKey ⟨limiter, call.now⟩ }, answer)

def cleanup (backend : MemoryBackend lib) (now : Time) : MemoryBackend lib :=
  { backend with limiters := backend.limiters.filterMapValues fun entry =>
      if entry.lastUsed < now - backend.maxIdle then none else some entry }

end MemoryBackend

inductive LimiterEvent where
  | call (call : LimiterCall)
  | cleanup (now : Time)
  | setDefaults (defaultRate : Rat) (defaultBurst : Int)
  | ping

def MemoryBackend.step (backend : MemoryBackend lib) : LimiterEvent → MemoryBackend lib × Option Answer
  | .call call => ((backend.allow call).1, some (backend.allow call).2)
  | .cleanup now => (backend.cleanup now, none)
  | .setDefaults defaultRate defaultBurst => (backend.setDefaults defaultRate defaultBurst, none)
  | .ping => (backend, none)

def LimiterEvent.concerns (key : LimiterKey) : LimiterEvent → Bool
  | .call made => normalizeKey made.key == key
  | _ => true

def LimiterEvent.Distinct (key : LimiterKey) : LimiterEvent → Prop
  | .call made => made.mapKey ≠ key.text
  | _ => True

instance (key : LimiterKey) (event : LimiterEvent) : Decidable (event.Distinct key) := by
  unfold LimiterEvent.Distinct
  split <;> infer_instance

structure MemoryView (lib : RateLibrary) where
  entry : Option (MemoryEntry lib)
  defaultRate : Rat
  defaultBurst : Int
  maxIdle : Int

def MemoryBackend.view (key : LimiterKey) (backend : MemoryBackend lib) : MemoryView lib :=
  ⟨backend.limiters.lookup key.text, backend.defaultRate, backend.defaultBurst, backend.maxIdle⟩

section

variable {key : LimiterKey} {backend left right : MemoryBackend lib} {call : LimiterCall} {event : LimiterEvent}

theorem LimiterCall.mapKey_of_concerns (concerns : (LimiterEvent.call call).concerns key = true) :
    call.mapKey = key.text := by
  have same : normalizeKey call.key = key := eq_of_beq concerns
  rw [LimiterCall.mapKey, same]

theorem MemoryBackend.view_allow_other (other : call.mapKey ≠ key.text) :
    (backend.allow call).1.view key = backend.view key := by
  simp [MemoryBackend.allow, MemoryBackend.view, Ne.symm other]

theorem MemoryBackend.allow_congr (own : call.mapKey = key.text) (same : left.view key = right.view key) :
    (left.allow call).2 = (right.allow call).2 ∧ (left.allow call).1.view key = (right.allow call).1.view key := by
  simp only [MemoryBackend.view, MemoryView.mk.injEq] at same
  obtain ⟨entry, rate, burst, idle⟩ := same
  have found : left.limiters.lookup call.mapKey = right.limiters.lookup call.mapKey := by
    rw [own]
    exact entry
  simp [MemoryBackend.allow, MemoryBackend.view, own, found, rate, burst, idle]

theorem MemoryBackend.step_other (other : event.concerns key = false) (distinct : event.Distinct key) :
    (backend.step event).1.view key = backend.view key := by
  cases event with
  | call call => exact MemoryBackend.view_allow_other distinct
  | _ => cases other

theorem MemoryBackend.step_congr (own : event.concerns key = true) (same : left.view key = right.view key) :
    (left.step event).2 = (right.step event).2 ∧ (left.step event).1.view key = (right.step event).1.view key := by
  cases event with
  | call call =>
    obtain ⟨answer, kept⟩ := MemoryBackend.allow_congr (LimiterCall.mapKey_of_concerns own) same
    exact ⟨congrArg some answer, kept⟩
  | cleanup now =>
    simp only [MemoryBackend.view, MemoryView.mk.injEq] at same
    simp [MemoryBackend.step, MemoryBackend.cleanup, MemoryBackend.view, same]
  | setDefaults defaultRate defaultBurst =>
    simp only [MemoryBackend.view, MemoryView.mk.injEq] at same
    simp [MemoryBackend.step, MemoryBackend.setDefaults, MemoryBackend.view, same]
  | ping => exact ⟨rfl, same⟩

end

def Sample.memory : MemoryBackend exactRate := .new 0

end McpGateway.RateLimit
