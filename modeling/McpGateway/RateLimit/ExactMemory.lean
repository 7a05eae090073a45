import McpGateway.RateLimit.MemoryBackend

namespace McpGateway.RateLimit

open Shared

structure ExactEntry where
  limiter : TokenBucket Rat
  lastUsed : Time

structure ExactBackend where
  limiters : GoMap String ExactEntry
  defaultRate : Rat
  defaultBurst : Int
  maxIdle : Int

namespace ExactBackend

def new (maxIdle : Int) : ExactBackend :=
  ⟨∅, defaultRateLimit, defaultRateBurst, if maxIdle ≤ 0 then 5 * 60 * second else maxIdle⟩

def setDefaults (backend : ExactBackend) (defaultRate : Rat) (defaultBurst : Int) : ExactBackend :=
  { backend with
    defaultRate := if defaultRate ≤ 0 then defaultRateLimit else defaultRate
    defaultBurst := if defaultBurst ≤ 0 then defaultRateBurst else defaultBurst }

def limits (backend : ExactBackend) (call : LimiterCall) : Rat × Int :=
  (if call.limit ≤ 0 then backend.defaultRate else call.limit,
    if call.burst ≤ 0 then backend.defaultBurst else call.burst)

def bucket (backend : ExactBackend) (text : String) (limits : Rat × Int) : TokenBucket Rat :=
  ((backend.limiters.lookup text).map ExactEntry.limiter).getD (.full limits.1 limits.2)

def allow (backend : ExactBackend) (call : LimiterCall) : ExactBackend × Bool :=
  let (limiter, allowed) := (backend.bucket call.mapKey (backend.limits call)).take (seconds call.checkedAt)
  ({ backend with limiters := backend.limiters.insert call.mapKey ⟨limiter, call.now⟩ }, allowed)

def cleanup (backend : ExactBackend) (now : Time) : ExactBackend :=
  { backend with limiters := backend.limiters.filterMapValues fun entry =>
      if entry.lastUsed < now - backend.maxIdle then none else some entry }

def step (backend : ExactBackend) : LimiterEvent → ExactBackend × Option Bool
  | .call call => ((backend.allow call).1, some (backend.allow call).2)
  | .cleanup now => (backend.cleanup now, none)
  | .setDefaults defaultRate defaultBurst => (backend.setDefaults defaultRate defaultBurst, none)
  | .ping => (backend, none)

def after (backend : ExactBackend) (event : LimiterEvent) : ExactBackend := (backend.step event).1

end ExactBackend

def LimiterEvent.clock (now : Rat) : LimiterEvent → Rat
  | .call made => seconds made.checkedAt
  | .cleanup swept => seconds swept
  | _ => now

def Chronological : Rat → List LimiterEvent → Prop
  | _, [] => True
  | now, event :: rest => now ≤ event.clock now ∧ Chronological (event.clock now) rest

instance Chronological.decidable : (now : Rat) → (events : List LimiterEvent) → Decidable (Chronological now events)
  | _, [] => isTrue trivial
  | now, event :: rest =>
    have := Chronological.decidable (event.clock now) rest
    inferInstanceAs (Decidable (now ≤ event.clock now ∧ Chronological (event.clock now) rest))

def LimiterEvent.On (key : LimiterKey) : LimiterEvent → Prop
  | .call made => normalizeKey made.key = key
  | _ => True

instance (key : LimiterKey) : (event : LimiterEvent) → Decidable (event.On key)
  | .call made => inferInstanceAs (Decidable (normalizeKey made.key = key))
  | .cleanup _ => isTrue trivial
  | .setDefaults _ _ => isTrue trivial
  | .ping => isTrue trivial

def LimiterEvent.isCleanup : LimiterEvent → Bool
  | .cleanup _ => true
  | _ => false

namespace ExactBackend

def Asks (limits : Rat × Int) (backend : ExactBackend) : LimiterEvent → Prop
  | .call made => backend.limits made = limits
  | _ => True

instance (limits : Rat × Int) (backend : ExactBackend) : (event : LimiterEvent) → Decidable (backend.Asks limits event)
  | .call made => inferInstanceAs (Decidable (backend.limits made = limits))
  | .cleanup _ => isTrue trivial
  | .setDefaults _ _ => isTrue trivial
  | .ping => isTrue trivial

def Refilled (text : String) (backend : ExactBackend) : LimiterEvent → Prop
  | .cleanup now => ∀ entry ∈ backend.limiters.lookup text, entry.lastUsed < now - backend.maxIdle →
      entry.limiter.burst ≤ entry.limiter.available (seconds now)
  | _ => True

instance (text : String) (backend : ExactBackend) (event : LimiterEvent) : Decidable (backend.Refilled text event) := by
  unfold Refilled
  split <;> infer_instance

section

variable {key : LimiterKey} {limits : Rat × Int} {backend : ExactBackend} {made : LimiterCall}

theorem bucket_call (own : (LimiterEvent.call made).On key) (asks : backend.Asks limits (.call made)) :
    (backend.after (.call made)).bucket key.text limits =
        ((backend.bucket key.text limits).take (seconds made.checkedAt)).1 ∧
      (backend.step (.call made)).2 = some ((backend.bucket key.text limits).take (seconds made.checkedAt)).2 := by
  have text : made.mapKey = key.text := congrArg LimiterKey.text own
  have same : backend.limits made = limits := asks
  rw [← text, ← same]
  constructor
  · simp [after, step, allow, bucket]
  · simp [step, allow]

theorem bucket_cleanup {swept : Time} (limits : Rat × Int) (refilled : backend.Refilled key.text (.cleanup swept)) :
    (backend.after (.cleanup swept)).bucket key.text limits = backend.bucket key.text limits ∨
      (backend.bucket key.text limits).burst ≤ (backend.bucket key.text limits).available (seconds swept) ∧
        (backend.after (.cleanup swept)).bucket key.text limits = .full limits.1 limits.2 := by
  simp only [after, step, cleanup, bucket, GoMap.lookup_filterMapValues]
  cases found : backend.limiters.lookup key.text with
  | none => exact .inl rfl
  | some entry =>
    by_cases idle : entry.lastUsed < swept - backend.maxIdle
    · exact .inr ⟨refilled entry found idle, by simp [idle]⟩
    · exact .inl (by simp [idle])

structure Alike (text : String) (limits : Rat × Int) (now : Rat) (left right : ExactBackend) : Prop where
  agree : TokenBucket.Agree (left.bucket text limits) (right.bucket text limits) now
  limit : (left.bucket text limits).limit = limits.1
  burst : (left.bucket text limits).burst = limits.2

variable {left right : ExactBackend} {now : Rat}

theorem Alike.call (alike : Alike key.text limits now left right) (passed : now ≤ seconds made.checkedAt)
    (own : (LimiterEvent.call made).On key) (asked : ∀ backend : ExactBackend, backend.limits made = limits) :
    (left.step (.call made)).2 = (right.step (.call made)).2 ∧
      Alike key.text limits (seconds made.checkedAt) (left.after (.call made)) (right.after (.call made)) := by
  have agree := alike.agree.later passed
  obtain ⟨leftBucket, leftAnswer⟩ := bucket_call own (asked left)
  obtain ⟨rightBucket, rightAnswer⟩ := bucket_call own (asked right)
  refine ⟨?_, ?_, ?_, ?_⟩
  · rw [leftAnswer, rightAnswer, agree.take_allowed]
  · rw [leftBucket, rightBucket]
    exact agree.take
  · rw [leftBucket, TokenBucket.take_limit, alike.limit]
  · rw [leftBucket, TokenBucket.take_burst, alike.burst]

theorem Alike.cleanup {swept : Time} (alike : Alike key.text limits now left right) (passed : now ≤ seconds swept)
    (refilled : left.Refilled key.text (.cleanup swept)) :
    Alike key.text limits (seconds swept) (left.after (.cleanup swept)) right := by
  have agree := alike.agree.later passed
  obtain kept | ⟨full, dropped⟩ := bucket_cleanup limits refilled
  · exact ⟨by rwa [kept], by rw [kept, alike.limit], by rw [kept, alike.burst]⟩
  · have asNew := agree.leftSound.agree_full full
    rw [alike.limit, alike.burst] at asNew
    rw [← dropped] at asNew
    refine ⟨asNew.trans agree, ?_, ?_⟩
    · rw [dropped]
      rfl
    · rw [dropped]
      rfl

end

end ExactBackend

def LimiterEvent.Calls (key : LimiterKey) (limit : Rat) (burst : Int) : LimiterEvent → Prop
  | .call made => normalizeKey made.key = key ∧ made.limit = limit ∧ made.burst = burst
  | _ => True

instance (key : LimiterKey) (limit : Rat) (burst : Int) :
    (event : LimiterEvent) → Decidable (event.Calls key limit burst)
  | .call made => inferInstanceAs (Decidable (normalizeKey made.key = key ∧ made.limit = limit ∧ made.burst = burst))
  | .cleanup _ => isTrue trivial
  | .setDefaults _ _ => isTrue trivial
  | .ping => isTrue trivial

theorem ExactBackend.limits_of_positive {made : LimiterCall} (rate : 0 < made.limit) (size : 0 < made.burst)
    (backend : ExactBackend) : backend.limits made = (made.limit, made.burst) := by
  simp [ExactBackend.limits, not_le.mpr rate, not_le.mpr size]

theorem answers_without_cleanup {key : LimiterKey} {limit : Rat} {burst : Int} {events : List LimiterEvent} {now : Rat}
    {left right : ExactBackend} (rate : 0 < limit) (size : 1 ≤ burst)
    (alike : ExactBackend.Alike key.text (limit, burst) now left right)
    (calls : ∀ event ∈ events, event.Calls key limit burst) (ordered : Chronological now events)
    (refilled : Along ExactBackend.after (ExactBackend.Refilled key.text) left events) :
    (answers ExactBackend.step left events).filter (fun answer => !answer.1.isCleanup) =
      answers ExactBackend.step right (events.filter fun event => !event.isCleanup) := by
  induction events generalizing now left right with
  | nil => rfl
  | cons event rest ih =>
    obtain ⟨passed, ordered⟩ := ordered
    obtain ⟨here, refilled⟩ := refilled
    have first := calls event List.mem_cons_self
    have others := fun event mem => calls event (List.mem_cons_of_mem _ mem)
    cases event with
    | call made =>
      obtain ⟨own, rfl, rfl⟩ := first
      obtain ⟨answer, next⟩ := alike.call passed own (ExactBackend.limits_of_positive rate size)
      simp only [answers, List.filter_cons, LimiterEvent.isCleanup, Bool.not_false, if_true, answer, List.cons.injEq,
        true_and]
      exact ih next others ordered refilled
    | cleanup swept =>
      have next := alike.cleanup passed here
      simp only [answers, List.filter_cons, LimiterEvent.isCleanup, Bool.not_true, Bool.false_eq_true, if_false]
      exact ih next others ordered refilled
    | setDefaults defaultRate defaultBurst =>
      have next : ExactBackend.Alike key.text (limit, burst) now (left.setDefaults defaultRate defaultBurst)
        (right.setDefaults defaultRate defaultBurst) := ⟨alike.agree, alike.limit, alike.burst⟩
      simp only [answers, List.filter_cons, LimiterEvent.isCleanup, Bool.not_false, if_true]
      exact congrArg _ (ih next others ordered refilled)
    | ping =>
      simp only [answers, List.filter_cons, LimiterEvent.isCleanup, Bool.not_false, if_true]
      exact congrArg _ (ih alike others ordered refilled)

theorem ExactBackend.alike_new {limit : Rat} {burst : Int} (text : String) (now : Rat) (maxIdle : Int)
    (rate : 0 < limit) (size : 1 ≤ burst) : Alike text (limit, burst) now (.new maxIdle) (.new maxIdle) := by
  have sound : (TokenBucket.full limit (burst : Rat)).Sound now :=
    TokenBucket.sound_full rate.le (by exact_mod_cast (by omega : 0 ≤ burst))
  exact ⟨⟨sound, sound, rfl, rfl, rfl⟩, rfl, rfl⟩

/-- Cleanup is not noticed as long as every limiter it drops is full again by then. -/
theorem idle_cleanup_unobservable (limit : Rat) (burst maxIdle : Int) (key : LimiterKey) (start : Rat)
    (events : List LimiterEvent) (rate : 0 < limit) (size : 1 ≤ burst)
    (calls : ∀ event ∈ events, event.Calls key limit burst) (ordered : Chronological start events)
    (refilled : Along ExactBackend.after (ExactBackend.Refilled key.text) (.new maxIdle) events) :
    (answers ExactBackend.step (.new maxIdle) events).filter (fun answer => !answer.1.isCleanup) =
      answers ExactBackend.step (.new maxIdle) (events.filter fun event => !event.isCleanup) :=
  answers_without_cleanup rate size (ExactBackend.alike_new key.text start maxIdle rate size) calls ordered refilled

namespace Sample

def slowCall (now : Int) : LimiterEvent :=
  .call ⟨⟨"alice", "tools"⟩, 1 / 600, 1, .live, now, now, now, now, now⟩

def verdicts (given : List (LimiterEvent × Option Bool)) : List Bool := given.filterMap Prod.snd

def patient : List LimiterEvent := [slowCall 0, .cleanup (600 * second), slowCall (600 * second)]

def impatient : List LimiterEvent := [slowCall 0, .cleanup (301 * second), slowCall (301 * second)]

end Sample

theorem refilled_cleanup_unobservable :
    (answers ExactBackend.step (.new 0) Sample.patient).filter (fun answer => !answer.1.isCleanup) =
      answers ExactBackend.step (.new 0) (Sample.patient.filter fun event => !event.isCleanup) := by
  exact idle_cleanup_unobservable (1 / 600) 1 0 ⟨"alice", "tools"⟩ 0 Sample.patient (by decide +kernel) (by decide)
    (by decide +kernel) (by decide +kernel) (by decide +kernel)

theorem early_cleanup_admits : Sample.verdicts (answers ExactBackend.step (.new 0) Sample.impatient) = [true, true] ∧
      Sample.verdicts (answers ExactBackend.step (.new 0) (Sample.impatient.filter fun event => !event.isCleanup)) =
        [true, false] := by
  decide +kernel

end McpGateway.RateLimit
