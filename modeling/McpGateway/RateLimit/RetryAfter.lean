import McpGateway.RateLimit.NatsBackend

namespace McpGateway.RateLimit

open Shared

theorem wrapInt64_range (n : Int) : -2 ^ 63 ≤ wrapInt64 n ∧ wrapInt64 n < 2 ^ 63 := by
  have low := @Int.le_bmod n (2 ^ 64) (by decide)
  have high := @Int.bmod_lt n (2 ^ 64) (by decide)
  unfold wrapInt64
  omega

theorem wrapInt64_congr (n : Int) : ∃ turns, n = wrapInt64 n + 2 ^ 64 * turns := by
  refine ⟨n.bdiv (2 ^ 64), ?_⟩
  have parts := Int.bmod_add_bdiv n (2 ^ 64)
  unfold wrapInt64
  omega

theorem wrapInt64_eq {n value turns : Int} (sum : n = value + 2 ^ 64 * turns) (low : -2 ^ 63 ≤ value)
    (high : value < 2 ^ 63) : wrapInt64 n = value := by
  obtain ⟨others, same⟩ := wrapInt64_congr n
  have range := wrapInt64_range n
  omega

theorem truncateInt64_range (q : Rat) : -2 ^ 63 ≤ truncateInt64 q ∧ truncateInt64 q < 2 ^ 63 := by
  unfold truncateInt64
  generalize (if q < 0 then -((-q).floor) else q.floor) = whole
  dsimp only
  split_ifs with inside
  · exact inside
  · decide

theorem AllowCall.windowMicros_range (call : AllowCall) : -2 ^ 63 ≤ call.windowMicros ∧ call.windowMicros < 2 ^ 63 :=
  truncateInt64_range _

def retryMicros (window : Window) (windowMicros now : Int) : Int :=
  (overLimitResult window windowMicros now).retryAfter / microsecond

section

variable {window : Window} {windowMicros now : Int}

theorem retryMicros_of_left {left : Int} (wrapped : wrapInt64 (window.windowStart + windowMicros - now) = left) :
    retryMicros window windowMicros now =
      (if wrapInt64 (left * 1000) ≤ 0 then 1000000000 else wrapInt64 (left * 1000)) / 1000 := by
  simp [retryMicros, overLimitResult, wrapped, microsecond]

theorem retryMicros_at_end (atEnd : wrapInt64 (now - window.windowStart) = windowMicros) :
    retryMicros window windowMicros now = 1000000 := by
  obtain ⟨turns, same⟩ := wrapInt64_congr (now - window.windowStart)
  have none_left : wrapInt64 (window.windowStart + windowMicros - now) = 0 :=
    @wrapInt64_eq _ 0 (-turns) (by omega) (by omega) (by omega)
  rw [retryMicros_of_left none_left]
  decide

theorem retryMicros_le (before : wrapInt64 (now - window.windowStart) < windowMicros) :
    0 ≤ retryMicros window windowMicros now ∧
      retryMicros window windowMicros now ≤ windowMicros - wrapInt64 (now - window.windowStart) := by
  obtain ⟨turns, same⟩ := wrapInt64_congr (now - window.windowStart)
  generalize wrapInt64 (now - window.windowStart) = elapsed at same before
  by_cases small : (windowMicros - elapsed) * 1000 < 2 ^ 63
  · have left : wrapInt64 (window.windowStart + windowMicros - now) = windowMicros - elapsed :=
      @wrapInt64_eq _ _ (-turns) (by omega) (by omega) (by omega)
    have exact_nanos : wrapInt64 ((windowMicros - elapsed) * 1000) = (windowMicros - elapsed) * 1000 :=
      @wrapInt64_eq _ _ 0 (by omega) (by omega) (by omega)
    rw [retryMicros_of_left left, exact_nanos]
    omega
  · rw [retryMicros_of_left rfl]
    have range := wrapInt64_range (wrapInt64 (window.windowStart + windowMicros - now) * 1000)
    split_ifs <;> omega

theorem expired_after_retry_iff (range : -2 ^ 63 ≤ windowMicros ∧ windowMicros < 2 ^ 63)
    (running : wrapInt64 (now - window.windowStart) ≤ windowMicros) :
    windowMicros < wrapInt64 (now + retryMicros window windowMicros now - window.windowStart) ↔
      wrapInt64 (now - window.windowStart) = windowMicros ∧ windowMicros + 1000000 < 2 ^ 63 := by
  obtain ⟨turns, same⟩ := wrapInt64_congr (now - window.windowStart)
  have low := (wrapInt64_range (now - window.windowStart)).1
  by_cases atEnd : wrapInt64 (now - window.windowStart) = windowMicros
  · rw [retryMicros_at_end atEnd]
    by_cases fits : windowMicros + 1000000 < 2 ^ 63
    · rw [@wrapInt64_eq _ (windowMicros + 1000000) turns (by omega) (by omega) (by omega)]
      omega
    · rw [@wrapInt64_eq _ (windowMicros + 1000000 - 2 ^ 64) (turns + 1) (by omega) (by omega) (by omega)]
      omega
  · have bound := retryMicros_le (lt_of_le_of_ne running atEnd)
    rw [@wrapInt64_eq _ (wrapInt64 (now - window.windowStart) + retryMicros window windowMicros now) turns (by omega)
      (by omega) (by omega)]
    omega

end

def Outcome.isLimited : Outcome → Bool
  | .limited _ => true
  | _ => false

def AllowCall.retried (call : AllowCall) (window : Window) : AllowCall :=
  { call with now := call.now + (call.answer (.limited window)).retryAfter / microsecond }

theorem AllowCall.allow_limited {call : AllowCall} {kv : VersionedKey Window} {window : Window}
    (rejected : (call.allow kv).1 = .limited window) :
    call.accepts call.key.kvKey = true ∧ (call.allow kv).2 = kv ∧ ∃ entry ∈ kv.stored,
      entry.value = window ∧ call.expired window = false ∧ call.effectiveBurst ≤ window.count := by
  by_cases valid : call.accepts call.key.kvKey = true
  · have decided := call.allow_decided kv valid
    rw [rejected] at decided
    refine ⟨valid, ?_⟩
    generalize (call.allow kv).2 = next at decided ⊢
    cases decided with
    | full held fresh reached => exact ⟨rfl, _, held, rfl, fresh, reached⟩
  · simp [AllowCall.allow, valid] at rejected

theorem AllowCall.isLimited_iff {call : AllowCall} {kv : VersionedKey Window}
    (valid : call.accepts call.key.kvKey = true) : (call.allow kv).1.isLimited = true ↔
      ∃ entry ∈ kv.stored, call.expired entry.value = false ∧ call.effectiveBurst ≤ entry.value.count := by
  have decided := call.allow_decided kv valid
  generalize (call.allow kv).2 = next at decided
  generalize (call.allow kv).1 = outcome at decided ⊢
  cases decided with
  | opened free => simp [Outcome.isLimited, free]
  | counted held fresh room => simp [Outcome.isLimited, held, fresh, room]
  | full held fresh reached => simp [Outcome.isLimited, held, fresh, reached]
  | stuck held stale => simp [Outcome.isLimited, held, stale]

/-- A rejected caller that comes back when it was told to is not rejected again exactly if the bucket has dropped the
entry by then, or the rejection came at the last microsecond of the window. -/
theorem retry_admitted_iff (call : AllowCall) (kv : VersionedKey Window) (window : Window)
    (rejected : (call.allow kv).1 = .limited window) (dropped : Bool) : ((call.retried window).allow
        (if dropped then (call.allow kv).2.remove else (call.allow kv).2)).1.isLimited = false ↔
      dropped = true ∨ (wrapInt64 (call.now - window.windowStart) = call.windowMicros ∧
        call.windowMicros + 1000000 < 2 ^ 63) := by
  obtain ⟨valid, unchanged, entry, held, rfl, fresh, reached⟩ := AllowCall.allow_limited rejected
  have validAgain : (call.retried entry.value).accepts (call.retried entry.value).key.kvKey = true := valid
  rw [unchanged, ← Bool.not_eq_true, AllowCall.isLimited_iff validAgain]
  cases dropped with
  | true => simp [VersionedKey.remove, VersionedKey.absent]
  | false =>
    have stored : kv.stored = some entry := held
    have running : wrapInt64 (call.now - entry.value.windowStart) ≤ call.windowMicros := by
      simpa [AllowCall.expired] using fresh
    have ended : (call.retried entry.value).expired entry.value = true ↔
        wrapInt64 (call.now - entry.value.windowStart) = call.windowMicros ∧ call.windowMicros + 1000000 < 2 ^ 63 := by
      rw [← expired_after_retry_iff call.windowMicros_range running]
      exact decide_eq_true_iff
    have still : (call.retried entry.value).effectiveBurst ≤ entry.value.count := reached
    rw [← ended]
    simp [stored, still]

namespace Sample

def exhausted : VersionedKey Window := (VersionedKey.absent 0).put ⟨2, clock⟩

end Sample

open Sample

theorem last_microsecond_retry_admitted :
    ((quota.call (clock + 2000000) none).allow exhausted).1 = .limited ⟨2, clock⟩ ∧
      (((quota.call (clock + 2000000) none).retried ⟨2, clock⟩).allow
        ((quota.call (clock + 2000000) none).allow exhausted).2).1.isLimited = false := by
  have rejected : ((quota.call (clock + 2000000) none).allow exhausted).1 =
      .limited ⟨2, clock⟩ := by decide +kernel
  exact ⟨rejected, (retry_admitted_iff _ _ _ rejected false).mpr (.inr (by decide +kernel))⟩

theorem obedient_retry_rejected : ((quota.call (clock + 900000) none).allow exhausted).1 = .limited ⟨2, clock⟩ ∧
      (quota.call (clock + 900000) none).retried ⟨2, clock⟩ = quota.call (clock + 2000000) none ∧
      ((quota.call (clock + 2000000) none).allow ((quota.call (clock + 900000) none).allow exhausted).2).1 =
          .limited ⟨2, clock⟩ := by
  have wait : clock + 900000 +
      ((quota.call (clock + 900000) none).answer (.limited ⟨2, clock⟩)).retryAfter / microsecond = clock + 2000000 := by
    decide +kernel
  exact ⟨by decide +kernel, congrArg (quota.call · none) wait, by decide +kernel⟩

end McpGateway.RateLimit
