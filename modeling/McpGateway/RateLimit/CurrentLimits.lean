import McpGateway.RateLimit.ExactMemory

namespace McpGateway.RateLimit

open Shared

def admittedIn (opens closes : Rat) (answer : LimiterEvent × Option Bool) : Bool :=
  match answer with
  | (.call made, some true) => opens ≤ seconds made.checkedAt ∧ seconds made.checkedAt ≤ closes
  | _ => false

def admittedCount (opens closes : Rat) (given : List (LimiterEvent × Option Bool)) : Nat :=
  given.countP (admittedIn opens closes)

namespace ExactBackend

section

variable {key : LimiterKey} {limits : Rat × Int} {now next opens closes : Rat} {backend : ExactBackend}
  {event : LimiterEvent}

def Within (text : String) (limits : Rat × Int) (now : Rat) (backend : ExactBackend) : Prop :=
  (backend.bucket text limits).Within limits.1 limits.2 now

def deficit (text : String) (limits : Rat × Int) (now : Rat) (backend : ExactBackend) : Rat :=
  (backend.bucket text limits).deficit now

theorem Within.step (rate : 0 ≤ limits.1) (size : 0 ≤ limits.2) (bounded : backend.Within key.text limits now)
    (passed : now ≤ event.clock now) (own : event.On key) (asks : backend.Asks limits event)
    (refilled : backend.Refilled key.text event) : (backend.after event).Within key.text limits (event.clock now) ∧
      (backend.after event).deficit key.text limits (event.clock now) =
        backend.deficit key.text limits (event.clock now) + if (backend.step event).2 = some true then 1 else 0 := by
  have bounded := TokenBucket.Within.later bounded passed
  unfold Within deficit
  cases event with
  | call made =>
    obtain ⟨bucket, answer⟩ := bucket_call own asks
    rw [bucket, answer]
    refine ⟨bounded.take, ?_⟩
    simpa [LimiterEvent.clock] using TokenBucket.deficit_take
  | cleanup swept =>
    obtain kept | ⟨full, dropped⟩ := bucket_cleanup limits refilled
    · rw [kept]
      exact ⟨bounded, by simp [ExactBackend.step]⟩
    · have nothing : (backend.bucket key.text limits).deficit (seconds swept) = 0 :=
        le_antisymm (sub_nonpos.mpr full) TokenBucket.deficit_nonneg
      rw [dropped, TokenBucket.deficit_full]
      exact ⟨TokenBucket.within_full rate (by exact_mod_cast size),
        by simp [ExactBackend.step, LimiterEvent.clock, nothing]⟩
  | setDefaults defaultRate defaultBurst => exact ⟨bounded, by simp [ExactBackend.step, after, setDefaults, bucket]⟩
  | ping => exact ⟨bounded, by simp [ExactBackend.step, after]⟩

theorem admittedIn_step (now : Rat) : admittedIn opens closes (event, (backend.step event).2) = true ↔
    (backend.step event).2 = some true ∧ opens ≤ event.clock now ∧ event.clock now ≤ closes := by
  cases event with
  | call made =>
    cases answer : (backend.allow made).2 <;>
      simp [ExactBackend.step, LimiterEvent.clock, admittedIn, answer]
  | _ => simp [ExactBackend.step, admittedIn]

theorem admittedCount_cons (now : Rat) (event : LimiterEvent) (rest : List LimiterEvent) :
    admittedCount opens closes (answers step backend (event :: rest)) =
      admittedCount opens closes (answers step (backend.after event) rest) +
        if (backend.step event).2 = some true ∧ opens ≤ event.clock now ∧ event.clock now ≤ closes then 1 else 0 := by
  simp only [admittedCount, answers, List.countP_cons, admittedIn_step now]
  rfl

theorem admittedCount_over {events : List LimiterEvent} (ordered : Chronological now events) (past : closes < now) :
    admittedCount opens closes (answers step backend events) = 0 := by
  induction events generalizing now backend with
  | nil => rfl
  | cons event rest ih =>
    have past : closes < event.clock now := past.trans_le ordered.1
    rw [admittedCount_cons now, ih ordered.2 past, if_neg fun admitted => absurd admitted.2.2 (not_le.mpr past)]

theorem admittedCount_before {events : List LimiterEvent}
    (before : ∀ made, .call made ∈ events → seconds made.checkedAt < opens) :
    admittedCount opens closes (answers step backend events) = 0 := by
  induction events generalizing backend with
  | nil => rfl
  | cons event rest ih =>
    rw [admittedCount_cons opens, ih fun made mem => before made (List.mem_cons_of_mem _ mem)]
    cases event with
    | call made =>
      have early := before made List.mem_cons_self
      rw [if_neg fun admitted => absurd admitted.2.1 (not_le.mpr early)]
    | _ => simp [step]

/-- A chronological run of calls for the limits, from a backend whose limiter is within them, in which
cleanup drops only full limiters. -/
structure Proceeds (key : LimiterKey) (limits : Rat × Int) (now : Rat) (backend : ExactBackend)
    (events : List LimiterEvent) : Prop where
  rate : 0 ≤ limits.1
  size : 0 ≤ limits.2
  bounded : backend.Within key.text limits now
  ordered : Chronological now events
  own : ∀ event ∈ events, event.On key
  asks : Along after (Asks limits) backend events
  refilled : Along after (Refilled key.text) backend events

section

variable {events rest : List LimiterEvent} {length : Rat}

theorem Proceeds.tail (proceeds : Proceeds key limits now backend (event :: rest)) :
    Proceeds key limits (event.clock now) (backend.after event) rest ∧
      (backend.after event).deficit key.text limits (event.clock now) =
        backend.deficit key.text limits (event.clock now) + if (backend.step event).2 = some true then 1 else 0 := by
  obtain ⟨rate, size, bounded, ordered, own, asks, refilled⟩ := proceeds
  obtain ⟨next, lacking⟩ := bounded.step rate size ordered.1 (own event List.mem_cons_self) asks.1 refilled.1
  exact ⟨⟨rate, size, next, ordered.2, fun event mem => own event (List.mem_cons_of_mem _ mem), asks.2,
    refilled.2⟩, lacking⟩

section

variable (proceeds : Proceeds key limits now backend events)

include proceeds

theorem Proceeds.allowance_nonneg (running : now ≤ closes) :
    0 ≤ limits.2 - backend.deficit key.text limits now + limits.1 * (closes - now) := by
  have room := proceeds.bounded.deficit_le
  have grown := mul_nonneg proceeds.rate (sub_nonneg.mpr running)
  unfold deficit
  linarith

theorem Proceeds.admittedCount_le (running : now ≤ closes) :
    (admittedCount opens closes (answers step backend events) : Rat) ≤
      limits.2 - backend.deficit key.text limits now + limits.1 * (closes - now) := by
  induction events generalizing now backend with
  | nil => exact proceeds.allowance_nonneg running
  | cons event rest ih =>
    obtain ⟨next, lacking⟩ := proceeds.tail
    rw [admittedCount_cons now]
    by_cases still : event.clock now ≤ closes
    · have others := ih next still
      have paid : backend.deficit key.text limits now ≤ _ := proceeds.bounded.deficit_later proceeds.ordered.1
      have counted : ((if (backend.step event).2 = some true ∧ opens ≤ event.clock now ∧ event.clock now ≤ closes
          then 1 else 0 : Nat) : Rat) ≤ if (backend.step event).2 = some true then 1 else 0 := by
        split_ifs <;> simp_all
      rw [lacking] at others
      push_cast at counted ⊢
      unfold deficit at paid others ⊢
      linarith
    · rw [admittedCount_over next.ordered (not_le.mp still), if_neg fun admitted => still admitted.2.2]
      exact proceeds.allowance_nonneg running

theorem Proceeds.admittedCount_le_of_begun (nonneg : 0 ≤ length) (begun : opens ≤ now) :
    (admittedCount opens (opens + length) (answers step backend events) : Rat) ≤ limits.2 + limits.1 * length := by
  by_cases running : now ≤ opens + length
  · have paid : (admittedCount opens (opens + length) (answers step backend events) : Rat) ≤ _ :=
      proceeds.admittedCount_le running
    have lacking : 0 ≤ backend.deficit key.text limits now := TokenBucket.deficit_nonneg
    have less : limits.1 * (opens + length - now) ≤ limits.1 * length :=
      mul_le_mul_of_nonneg_left (by linarith) proceeds.rate
    linarith
  · have burst : (0 : Rat) ≤ limits.2 := by exact_mod_cast proceeds.size
    rw [admittedCount_over proceeds.ordered (not_le.mp running)]
    exact add_nonneg burst (mul_nonneg proceeds.rate nonneg)

omit proceeds in
theorem Proceeds.later (proceeds : Proceeds key limits now backend events) (passed : now < next)
    (first : ∀ event ∈ events.head?, next ≤ event.clock now) : Proceeds key limits next backend events := by
  refine { proceeds with bounded := proceeds.bounded.later passed.le, ordered := ?_ }
  cases events with
  | nil => trivial
  | cons event rest =>
    have reached : next ≤ event.clock now := first event rfl
    have clock : event.clock next = event.clock now := by
      cases event <;> first | rfl | exact absurd reached (not_le.mpr passed)
    have ordered := proceeds.ordered.2
    rw [← clock] at reached ordered
    exact ⟨reached, ordered⟩

theorem Proceeds.admittedCount_le_of_interval (nonneg : 0 ≤ length) :
    (admittedCount opens (opens + length) (answers step backend events) : Rat) ≤ limits.2 + limits.1 * length := by
  induction events generalizing now backend with
  | nil =>
    have reached : Proceeds key limits (max now opens) backend [] :=
      { proceeds with bounded := proceeds.bounded.later (le_max_left now opens), ordered := trivial }
    exact reached.admittedCount_le_of_begun nonneg (le_max_right now opens)
  | cons event rest ih =>
    by_cases begun : opens ≤ now
    · exact proceeds.admittedCount_le_of_begun nonneg begun
    by_cases early : event.clock now < opens
    · rw [admittedCount_cons now, if_neg fun admitted => absurd admitted.2.1 (not_le.mpr early)]
      exact ih proceeds.tail.1
    · have reached := proceeds.later (not_le.mp begun) fun first found => by
        rw [← Option.some.inj found]
        exact not_lt.mp early
      exact reached.admittedCount_le_of_begun nonneg (le_refl _)

end

end

end

structure Sound (text : String) (now : Rat) (backend : ExactBackend) : Prop where
  rate : 0 < backend.defaultRate
  size : 0 < backend.defaultBurst
  entry : ∀ entry ∈ backend.limiters.lookup text, entry.limiter.Sound now

section

variable {key : LimiterKey} {now : Rat} {backend : ExactBackend} {event : LimiterEvent}

theorem sound_new (text : String) (now : Rat) (maxIdle : Int) : (new maxIdle).Sound text now :=
  ⟨by simp [new, defaultRateLimit], by simp [new, defaultRateBurst], by simp [new]⟩

theorem Sound.limits (sound : backend.Sound key.text now) (made : LimiterCall) :
    0 < (backend.limits made).1 ∧ 0 < (backend.limits made).2 := by
  have rate := sound.rate
  have size := sound.size
  unfold ExactBackend.limits
  constructor <;> dsimp only <;> split_ifs <;> first | assumption | exact not_le.mp ‹_›

theorem Sound.bucket (sound : backend.Sound key.text now) {limits : Rat × Int} (rate : 0 ≤ limits.1)
    (size : 0 ≤ limits.2) : (backend.bucket key.text limits).Sound now := by
  unfold ExactBackend.bucket
  cases found : backend.limiters.lookup key.text with
  | none => exact TokenBucket.sound_full rate (by exact_mod_cast size)
  | some entry => exact sound.entry entry found

theorem Sound.step (sound : backend.Sound key.text now) (own : event.On key) (passed : now ≤ event.clock now) :
    (backend.after event).Sound key.text (event.clock now) := by
  cases event with
  | call made =>
    have text : made.mapKey = key.text := congrArg LimiterKey.text own
    obtain ⟨rate, size⟩ := sound.limits made
    refine ⟨sound.rate, sound.size, ?_⟩
    simp only [after, ExactBackend.step, allow, text, AList.lookup_insert, Option.mem_def, Option.some.injEq]
    rintro entry rfl
    exact ((sound.bucket rate.le size.le).later passed).take
  | cleanup swept =>
    refine ⟨sound.rate, sound.size, ?_⟩
    intro entry found
    simp only [after, ExactBackend.step, cleanup, GoMap.lookup_filterMapValues, Option.mem_def,
      Option.bind_eq_some_iff] at found
    obtain ⟨kept, stored, found⟩ := found
    split_ifs at found
    cases found
    exact (sound.entry entry stored).later passed
  | setDefaults defaultRate defaultBurst =>
    refine ⟨?_, ?_, sound.entry⟩
    · simp only [after, ExactBackend.step, setDefaults, defaultRateLimit]
      split_ifs with absent
      · norm_num
      · exact not_le.mp absent
    · simp only [after, ExactBackend.step, setDefaults, defaultRateBurst]
      split_ifs with absent
      · norm_num
      · exact not_le.mp absent
  | ping => exact sound

end

end ExactBackend

theorem Chronological.append {now : Rat} {prior later : List LimiterEvent}
    (ordered : Chronological now (prior ++ later)) :
    Chronological now prior ∧ Chronological (prior.foldl LimiterEvent.clock now) later := by
  induction prior generalizing now with
  | nil => exact ⟨trivial, ordered⟩
  | cons event rest ih =>
    obtain ⟨first, second⟩ := ih ordered.2
    exact ⟨⟨ordered.1, first⟩, second⟩

theorem ExactBackend.Sound.run {key : LimiterKey} {now : Rat} {backend : ExactBackend} {events : List LimiterEvent}
    (sound : backend.Sound key.text now) (own : ∀ event ∈ events, event.On key) (ordered : Chronological now events) :
    (run ExactBackend.after backend events).Sound key.text (events.foldl LimiterEvent.clock now) := by
  induction events generalizing now backend with
  | nil => exact sound
  | cons event rest ih =>
    have next := sound.step (own event List.mem_cons_self) ordered.1
    exact ih next (fun event mem => own event (List.mem_cons_of_mem _ mem)) ordered.2

def ExactBackend.MadeWithin (text : String) (limits : Rat × Int) (backend : ExactBackend) : Prop :=
  ∀ entry ∈ backend.limiters.lookup text, entry.limiter.limit ≤ limits.1 ∧ entry.limiter.burst ≤ limits.2
  deriving Decidable

theorem ExactBackend.Sound.within {key : LimiterKey} {limits : Rat × Int} {now : Rat} {backend : ExactBackend}
    (sound : backend.Sound key.text now) (made : backend.MadeWithin key.text limits) (rate : 0 ≤ limits.1)
    (size : 0 ≤ limits.2) : backend.Within key.text limits now := by
  unfold ExactBackend.Within ExactBackend.bucket
  cases found : backend.limiters.lookup key.text with
  | none => exact TokenBucket.within_full rate (by exact_mod_cast size)
  | some entry => exact ⟨sound.entry entry found, (made entry found).1, (made entry found).2⟩

/-- From the time on at which all calls stand for `(limit, burst)`, no interval admits more than they grant,
if the limiter stored by then was made with no greater ones and cleanup drops only limiters that are full
again. -/
theorem current_limits_obeyed (limit : Rat) (burst maxIdle : Int) (key : LimiterKey) (start changed opens length : Rat)
    (prior later : List LimiterEvent) (rate : 0 < limit) (size : 0 < burst)
    (own : ∀ event ∈ prior ++ later, event.On key) (ordered : Chronological start (prior ++ later))
    (before : ∀ made, .call made ∈ prior → seconds made.checkedAt < changed)
    (asks : Along ExactBackend.after (ExactBackend.Asks (limit, burst))
      (run ExactBackend.after (.new maxIdle) prior) later)
    (made : (run ExactBackend.after (.new maxIdle) prior).MadeWithin key.text (limit, burst))
    (refilled : Along ExactBackend.after (ExactBackend.Refilled key.text)
      (run ExactBackend.after (.new maxIdle) prior) later) (since : changed ≤ opens) (nonneg : 0 ≤ length) :
    (admittedCount opens (opens + length) (answers ExactBackend.step (.new maxIdle) (prior ++ later)) : Rat) ≤
      burst + limit * length := by
  obtain ⟨orderedEarlier, orderedLater⟩ := ordered.append
  have sound := (ExactBackend.sound_new key.text start maxIdle).run
    (fun event mem => own event (List.mem_append_left _ mem)) orderedEarlier
  have bounded := sound.within made rate.le size.le
  have none : admittedCount opens (opens + length) (answers ExactBackend.step (.new maxIdle) prior) = 0 :=
    ExactBackend.admittedCount_before fun made mem => (before made mem).trans_le since
  have counted : admittedCount opens (opens + length) (answers ExactBackend.step (.new maxIdle) (prior ++ later)) =
      admittedCount opens (opens + length)
        (answers ExactBackend.step (run ExactBackend.after (.new maxIdle) prior) later) := by
    rw [answers_append, admittedCount, List.countP_append]
    exact (congrArg (· + _) none).trans (Nat.zero_add _)
  rw [counted]
  have proceeds : ExactBackend.Proceeds key (limit, burst) _ _ later := ⟨rate.le, size.le, bounded, orderedLater,
    fun event mem => own event (List.mem_append_right _ mem), asks, refilled⟩
  exact proceeds.admittedCount_le_of_interval nonneg

namespace Sample

def limitedCall (limit : Rat) (burst now : Int) : LimiterEvent :=
  .call ⟨⟨"server:1", "tools"⟩, limit, burst, .live, now, now, now, now, now⟩

def raised : List LimiterEvent :=
  [limitedCall 2 3 (5 * second), .cleanup (6 * second), limitedCall 2 3 (6 * second), limitedCall 2 3 (6 * second)]

def lowered : List LimiterEvent := [limitedCall 1 1 (5 * second), limitedCall 1 1 (5 * second)]

end Sample

open Sample

theorem raised_limits_obeyed :
    (admittedCount 5 (5 + 1) (answers ExactBackend.step (.new 0) ([limitedCall 1 1 0] ++ raised)) : Rat) ≤
      (3 : Int) + 2 * 1 := by
  exact current_limits_obeyed 2 3 0 ⟨"server:1", "tools"⟩ 0 5 5 1 [limitedCall 1 1 0] raised
    (by decide +kernel) (by decide) (by decide +kernel) (by decide +kernel)
    (by simp [limitedCall, seconds]) (by decide +kernel) (by decide +kernel) (by decide +kernel)
    (by decide +kernel) (by decide +kernel)

theorem lowered_limits_disobeyed :
    Along ExactBackend.after (ExactBackend.Asks (1, 1)) (run ExactBackend.after (.new 0) [limitedCall 10 20 0])
        lowered ∧ (1 : Int) + 1 * (0 : Rat) <
        admittedCount 5 5 (answers ExactBackend.step (.new 0) ([limitedCall 10 20 0] ++ lowered)) := by
  decide +kernel

end McpGateway.RateLimit
