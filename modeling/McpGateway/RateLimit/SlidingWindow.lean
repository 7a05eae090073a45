import Mathlib.Algebra.Order.Group.Int
import McpGateway.RateLimit.DragonflyBackend
import McpGateway.Shared.Rounding
import McpGateway.Shared.SlidingWindow

namespace McpGateway.RateLimit

open Shared

structure ScriptCall where
  now : Int
  member : String

-- What Allow passes, at a server that has the same time.
def ScriptCall.args (window : Int) (limit : Nat) (call : ScriptCall) : ScriptArgs :=
  ⟨call.now, window, limit, call.member, ttlMs window, call.now * microsecond⟩

-- Without `expires` there is no PEXPIRE.
def runScript (expires : Bool) (window : Int) (limit : Nat) (set : Option SortedSet) (call : ScriptCall) :
    Option SortedSet × ScriptResult :=
  let (result, left) := slidingWindow (call.args window limit) set
  (if expires then left else left.map fun set => { set with expiresAt := none }, result)

def outcome (window : Int) (limit : Nat) (log : List Int) (now : Int) : ScriptResult :=
  let recent := SlidingWindow.recent window log now
  if recent.length < limit then ⟨true, limit - recent.length - 1, 0⟩
  else ⟨false, 0, retryAfterMs window now recent⟩

def membersOf (set : Option SortedSet) : List (String × Int) :=
  (set.map SortedSet.members).getD []

-- Doubles hold the whole numbers of less than 53 bits.
def Fits (window now : Int) : Prop := 0 < window ∧ 0 ≤ now ∧ now + window < 2 ^ 53
  deriving Decidable

structure Mirrors (window : Int) (set : Option SortedSet) (log : List Int) (seen : List String) (cutoff latest : Int) :
    Prop where
  scores : (membersOf set).map Prod.snd = log.filter (cutoff < ·)
  low : cutoff ≤ latest - window
  named : ∀ entry ∈ membersOf set, entry.1 ∈ seen
  lasting : ∀ held ∈ set, ∀ expiry ∈ held.expiresAt, ∀ time ∈ log, (time + window) * microsecond ≤ expiry
  past : ∀ time ∈ log, time ≤ latest

section

variable {window now : Int}

theorem nearestWhole_eq {n : Int} (low : -2 ^ 53 < n) (high : n < 2 ^ 53) : nearestWhole n = n := by
  rw [nearestWhole, roundFloat64_int low high, Rat.floor_intCast]

theorem ceil_thousandth {micros : Int} (pos : 0 < micros) (small : micros < 2 ^ 53) :
    (roundFloat64 (micros / 1000)).ceil = (micros + 999) / 1000 := by
  obtain ⟨millis, rounded⟩ : ∃ millis, (micros + 999) / 1000 = millis := ⟨_, rfl⟩
  rw [rounded]
  by_cases whole : micros = 1000 * millis
  · have exact_value : (micros : Rat) / 1000 = millis := by
      rw [whole]
      push_cast
      ring
    rw [exact_value, roundFloat64_int (by omega) (by omega), Rat.ceil_intCast]
  · have cast : (0 : Rat) < micros := by exact_mod_cast pos
    have bound : (micros : Rat) < 2 ^ 53 := by exact_mod_cast small
    have error : |roundFloat64 (micros / 1000) - micros / 1000| ≤ 2 ^ ((44 : Int) - 54) := by
      refine roundFloat64_error (div_pos cast (by norm_num)) (by norm_num) ?_
      norm_num at bound ⊢
      linarith
    have low : (1000 : Rat) * (millis - 1) + 1 ≤ micros := by
      exact_mod_cast (by omega : 1000 * (millis - 1) + 1 ≤ micros)
    have high : (micros : Rat) + 1 ≤ 1000 * millis := by
      exact_mod_cast (by omega : micros + 1 ≤ 1000 * millis)
    obtain ⟨less, more⟩ := abs_le.mp error
    norm_num at less more
    have above : millis - 1 < (roundFloat64 (micros / 1000)).ceil := by
      rw [Rat.lt_ceil_iff]
      push_cast
      linarith
    have below : (roundFloat64 (micros / 1000)).ceil ≤ millis := by
      rw [Rat.ceil_le_iff]
      linarith
    omega

theorem Fits.inWindow (fits : Fits window now) (held : List (String × Int)) :
    inWindow window now held = held.filter fun entry => now - window < entry.2 := by
  obtain ⟨pos, start, sum⟩ := fits
  rw [RateLimit.inWindow, nearestWhole_eq (by omega) (by omega)]

theorem Fits.window_le_ttl (fits : Fits window now) : window ≤ ttlMs window * 1000 := by
  obtain ⟨pos, start, sum⟩ := fits
  have nonneg : ¬ (((window + 999) / 1000 : Int) : Rat) < 0 := not_lt.mpr (by exact_mod_cast (by omega))
  rw [ttlMs, roundFloat64_int (by omega) (by omega), ceil_thousandth pos (by omega), truncateInt64, if_neg nonneg,
    Rat.floor_intCast, if_pos (by omega)]
  omega

theorem Fits.retryAfterMs (fits : Fits window now) {scores : List Int} (some_score : scores ≠ [])
    (recent : ∀ score ∈ scores, now - window < score ∧ score ≤ now) :
    ∃ oldest ∈ scores, oldest + window ≤ now + retryAfterMs window now scores * 1000 := by
  obtain ⟨pos, start, sum⟩ := fits
  cases least : scores.min? with
  | none => exact absurd (List.min?_eq_none_iff.mp least) some_score
  | some oldest =>
    have member := List.min?_mem least
    obtain ⟨inside, past⟩ := recent oldest member
    refine ⟨oldest, member, ?_⟩
    simp only [RateLimit.retryAfterMs, least]
    rw [@nearestWhole_eq (oldest + window) (by omega) (by omega), nearestWhole_eq (by omega) (by omega),
      ceil_thousandth (by omega) (by omega)]
    omega

end

section

variable {expires : Bool} {window : Int} {limit : Nat} {set : Option SortedSet} {log : List Int} {seen : List String}
  {cutoff latest : Int} {call : ScriptCall}

theorem live_subset {time : Time} {entry : String × Int} (held : entry ∈ SortedSet.live set time) :
    entry ∈ membersOf set := by
  cases set with
  | none => cases held
  | some set =>
    unfold SortedSet.live at held
    dsimp only at held
    split_ifs at held
    · cases held
    · exact held

theorem Mirrors.recent (mirrors : Mirrors window set log seen cutoff latest) (ordered : latest ≤ call.now)
    (fits : Fits window call.now) :
    (inWindow window call.now (SortedSet.live set (call.now * microsecond))).map Prod.snd =
      SlidingWindow.recent window log call.now := by
  have low := mirrors.low
  have narrowed : ((membersOf set).filter fun entry => call.now - window < entry.2).map Prod.snd =
      SlidingWindow.recent window log call.now := by
    have mapped : ((membersOf set).filter fun entry => call.now - window < entry.2).map Prod.snd =
        ((membersOf set).map Prod.snd).filter (call.now - window < ·) := by
      rw [List.filter_map]
      rfl
    rw [mapped, mirrors.scores, List.filter_filter]
    refine List.filter_congr fun time _ => ?_
    by_cases inside : call.now - window < time
    · have above : cutoff < time := by omega
      simp [inside, above]
    · simp [inside]
  rw [fits.inWindow]
  cases set with
  | none => exact narrowed
  | some held =>
    unfold SortedSet.live
    dsimp only
    split_ifs with gone
    · have empty : SlidingWindow.recent window log call.now = [] := by
        refine List.filter_eq_nil_iff.mpr fun time member => ?_
        obtain ⟨expiry, written, passed⟩ := Option.any_eq_true _ _ |>.mp gone
        have left : (time + window) * microsecond ≤ call.now * microsecond :=
          (mirrors.lasting held rfl expiry written time member).trans (of_decide_eq_true passed)
        simp only [decide_eq_true_eq, not_lt]
        simp only [microsecond] at left
        omega
      simp [empty]
    · exact narrowed

theorem Mirrors.found (mirrors : Mirrors window set log seen cutoff latest) {entry : String × Int}
    (member : entry ∈ inWindow window call.now (SortedSet.live set (call.now * microsecond))) : entry.1 ∈ seen :=
  mirrors.named entry (live_subset (List.mem_of_mem_filter member))

theorem Mirrors.later {now : Int} (mirrors : Mirrors window set log seen cutoff latest) (passed : latest ≤ now) :
    Mirrors window set log seen cutoff now :=
  { mirrors with
    low := mirrors.low.trans (by omega)
    past := fun time member => (mirrors.past time member).trans passed }

theorem Mirrors.persistent (mirrors : Mirrors window set log seen cutoff latest) :
    Mirrors window (set.map fun set => { set with expiresAt := none }) log seen cutoff latest := by
  have same : membersOf (set.map fun set => { set with expiresAt := none }) = membersOf set := by cases set <;> rfl
  refine ⟨same ▸ mirrors.scores, mirrors.low, same ▸ mirrors.named, ?_, mirrors.past⟩
  rintro held remains expiry written
  obtain ⟨old, -, rfl⟩ := Option.map_eq_some_iff.mp remains
  cases written

theorem Mirrors.admits (mirrors : Mirrors window set log seen cutoff latest) (ordered : latest ≤ call.now)
    (fits : Fits window call.now) :
    Mirrors window (some ⟨inWindow window call.now (SortedSet.live set (call.now * microsecond)) ++
        [(call.member, call.now)], some (call.now * microsecond + ttlMs window * millisecond)⟩)
      (log ++ [call.now]) (call.member :: seen) (call.now - window) call.now := by
  have elapsed : ∀ time ∈ log ++ [call.now], time ≤ call.now := by
    intro time member
    rw [List.mem_append, List.mem_singleton] at member
    rcases member with prior | rfl
    · exact (mirrors.past time prior).trans ordered
    · exact le_refl _
  constructor
  case scores =>
    have scores := mirrors.recent ordered fits
    simp only [membersOf, Option.map_some, Option.getD_some, List.map_append, scores, SlidingWindow.recent,
      List.filter_append, List.map_singleton]
    simp [fits.1]
  case low => exact le_refl _
  case named =>
    intro entry member
    simp only [membersOf, Option.map_some, Option.getD_some, List.mem_append, List.mem_singleton] at member
    rcases member with kept | rfl
    · exact List.mem_cons_of_mem _ (mirrors.found kept)
    · exact List.mem_cons_self
  case lasting =>
    rintro held ⟨⟩ expiry ⟨⟩ time member
    have past := elapsed time member
    have kept := fits.window_le_ttl
    simp only [microsecond, millisecond]
    omega
  case past => exact elapsed

theorem Mirrors.rejects (mirrors : Mirrors window set log seen cutoff latest) (ordered : latest ≤ call.now)
    (fits : Fits window call.now) :
    Mirrors window (if inWindow window call.now (SortedSet.live set (call.now * microsecond)) = [] then none
        else some ⟨inWindow window call.now (SortedSet.live set (call.now * microsecond)), set.bind SortedSet.expiresAt⟩)
      log (call.member :: seen) (call.now - window) call.now := by
  have kept : membersOf (if inWindow window call.now (SortedSet.live set (call.now * microsecond)) = [] then none
      else some ⟨inWindow window call.now (SortedSet.live set (call.now * microsecond)),
        set.bind SortedSet.expiresAt⟩) = inWindow window call.now (SortedSet.live set (call.now * microsecond)) := by
    split_ifs with empty
    · exact empty.symm
    · rfl
  constructor
  case scores =>
    rw [kept]
    exact mirrors.recent ordered fits
  case low => exact le_refl _
  case named =>
    intro entry member
    rw [kept] at member
    exact List.mem_cons_of_mem _ (mirrors.found member)
  case lasting =>
    intro held remains expiry written
    split_ifs at remains
    · cases remains
    · cases remains
      obtain ⟨old, stored, dated⟩ := Option.bind_eq_some_iff.mp written
      exact mirrors.lasting old stored expiry dated
  case past => exact fun time member => (mirrors.past time member).trans ordered

theorem slidingWindow_mirrors (small : (limit : Int) < 2 ^ 53) (mirrors : Mirrors window set log seen cutoff latest)
    (ordered : latest ≤ call.now) (fits : Fits window call.now) (fresh : call.member ∉ seen) :
    (slidingWindow (call.args window limit) set).1 = outcome window limit log call.now ∧
      Mirrors window (slidingWindow (call.args window limit) set).2 (SlidingWindow.record window limit log call.now)
        (call.member :: seen) (call.now - window) call.now := by
  have scores := mirrors.recent ordered fits
  have count : (inWindow window call.now (SortedSet.live set (call.now * microsecond))).length =
      (SlidingWindow.recent window log call.now).length := by rw [← scores, List.length_map]
  have unchanged : (inWindow window call.now (SortedSet.live set (call.now * microsecond))).filter
      (fun entry => !decide (entry.1 = call.member)) =
        inWindow window call.now (SortedSet.live set (call.now * microsecond)) := by
    refine List.filter_eq_self.mpr fun entry member => ?_
    have other : entry.1 ≠ call.member := fun same => fresh (same ▸ mirrors.found member)
    simp [other]
  obtain ⟨pos, start, sum⟩ := id fits
  have clock : nearestWhole call.now = call.now := nearestWhole_eq (by omega) (by omega)
  have width : nearestWhole window = window := nearestWhole_eq (by omega) (by omega)
  have bound : nearestWhole limit = limit := nearestWhole_eq (by omega) small
  unfold slidingWindow outcome SlidingWindow.record ScriptCall.args
  by_cases room : (SlidingWindow.recent window log call.now).length < limit
  · have free : nearestWhole (limit - (SlidingWindow.recent window log call.now).length) =
        limit - (SlidingWindow.recent window log call.now).length := nearestWhole_eq (by omega) (by omega)
    have less : nearestWhole (limit - (SlidingWindow.recent window log call.now).length - 1) =
        limit - (SlidingWindow.recent window log call.now).length - 1 := nearestWhole_eq (by omega) (by omega)
    simpa [clock, width, bound, count, room, free, less, unchanged] using mirrors.admits ordered fits
  · simpa [clock, width, bound, count, room, scores] using mirrors.rejects ordered fits

theorem runScript_mirrors (expires : Bool) (small : (limit : Int) < 2 ^ 53)
    (mirrors : Mirrors window set log seen cutoff latest) (ordered : latest ≤ call.now) (fits : Fits window call.now)
    (fresh : call.member ∉ seen) :
    (runScript expires window limit set call).2 = outcome window limit log call.now ∧
      Mirrors window (runScript expires window limit set call).1 (SlidingWindow.record window limit log call.now)
        (call.member :: seen) (call.now - window) call.now := by
  obtain ⟨answered, mirrored⟩ := slidingWindow_mirrors small mirrors ordered fits fresh
  refine ⟨answered, ?_⟩
  cases expires with
  | true => exact mirrored
  | false => exact mirrored.persistent

structure ScriptRun (window : Int) (limit : Nat) (calls : List ScriptCall) : Prop where
  small : (limit : Int) < 2 ^ 53
  ordered : calls.Pairwise fun prior later => prior.now ≤ later.now
  distinct : (calls.map ScriptCall.member).Nodup
  fits : ∀ call ∈ calls, Fits window call.now

def keyAfter (expires : Bool) (window : Int) (limit : Nat) (calls : List ScriptCall) : Option SortedSet :=
  run (fun set call => (runScript expires window limit set call).1) none calls

def resultAfter (expires : Bool) (window : Int) (limit : Nat) (before : List ScriptCall) (call : ScriptCall) :
    ScriptResult :=
  (runScript expires window limit (keyAfter expires window limit before) call).2

def admittedTimes (window : Int) (limit : Nat) (calls : List ScriptCall) : List Int :=
  ((answers (runScript true window limit) none calls).filter (·.2.allowed)).map (·.1.now)

theorem ScriptRun.concat {before : List ScriptCall} (valid : ScriptRun window limit (before ++ [call])) :
    ScriptRun window limit before ∧ (∀ prior ∈ before, prior.now ≤ call.now) ∧ Fits window call.now ∧
      call.member ∉ before.map ScriptCall.member := by
  obtain ⟨ordered, -, past⟩ := List.pairwise_append.mp valid.ordered
  have distinct := valid.distinct
  rw [List.map_append, List.nodup_append] at distinct
  refine ⟨⟨valid.small, ordered, distinct.1, fun prior member => valid.fits prior (List.mem_append_left _ member)⟩,
    fun prior member => past prior member call (List.mem_singleton.mpr rfl), valid.fits call (by simp), ?_⟩
  intro repeated
  exact distinct.2.2 _ repeated call.member (by simp) rfl

theorem keyAfter_concat (before : List ScriptCall) : keyAfter expires window limit (before ++ [call]) =
      (runScript expires window limit (keyAfter expires window limit before) call).1 := by
  simp [keyAfter, run]

theorem history_concat (times : List Int) (now : Int) : SlidingWindow.history window limit (times ++ [now]) =
      SlidingWindow.record window limit (SlidingWindow.history window limit times) now := by
  simp [SlidingWindow.history, run]

theorem run_mirrors (expires : Bool) {calls : List ScriptCall} (valid : ScriptRun window limit calls)
    (latest : Int) (past : ∀ call ∈ calls, call.now ≤ latest) :
    Mirrors window (keyAfter expires window limit calls)
      (SlidingWindow.history window limit (calls.map ScriptCall.now)) (calls.map ScriptCall.member).reverse
      ((calls.getLast?.map ScriptCall.now).getD latest - window) latest := by
  induction calls using List.reverseRecOn generalizing latest with
  | nil =>
    constructor
    case low => exact le_refl _
    all_goals simp [membersOf, keyAfter, SlidingWindow.history, run]
  | append_singleton before call ih =>
    obtain ⟨prior, ordered, fits, fresh⟩ := valid.concat
    have mirrors := ih prior call.now ordered
    have next := (runScript_mirrors expires valid.small mirrors (le_refl _) fits (by simpa using fresh)).2
    rw [List.map_append, List.map_append, keyAfter_concat]
    simpa [history_concat] using next.later (past call (by simp))

theorem resultAfter_eq {before : List ScriptCall} (valid : ScriptRun window limit (before ++ [call])) :
    resultAfter expires window limit before call =
      outcome window limit (SlidingWindow.history window limit (before.map ScriptCall.now)) call.now := by
  obtain ⟨prior, ordered, fits, fresh⟩ := valid.concat
  have mirrors := run_mirrors expires prior call.now ordered
  exact (runScript_mirrors expires valid.small mirrors (le_refl _) fits (by simpa using fresh)).1

theorem outcome_allowed (log : List Int) (now : Int) :
    (outcome window limit log now).allowed = true ↔ (SlidingWindow.recent window log now).length < limit := by
  unfold outcome
  dsimp only
  split_ifs with room <;> simp [room]

theorem admittedTimes_concat (before : List ScriptCall) :
    admittedTimes window limit (before ++ [call]) = admittedTimes window limit before ++
      if (resultAfter true window limit before call).allowed then [call.now] else [] := by
  unfold admittedTimes
  rw [answers_concat, List.filter_append, List.map_append]
  change _ ++ List.map _ (List.filter _ [(call, resultAfter true window limit before call)]) = _
  cases admitted : (resultAfter true window limit before call).allowed <;> simp [admitted]

theorem admittedTimes_eq {calls : List ScriptCall} (valid : ScriptRun window limit calls) :
    admittedTimes window limit calls = SlidingWindow.history window limit (calls.map ScriptCall.now) := by
  induction calls using List.reverseRecOn with
  | nil => rfl
  | append_singleton before call ih =>
    rw [admittedTimes_concat, ih valid.concat.1, List.map_append, List.map_singleton, history_concat,
      resultAfter_eq valid, SlidingWindow.record]
    by_cases room : (SlidingWindow.recent window (SlidingWindow.history window limit (before.map ScriptCall.now))
        call.now).length < limit
    · rw [if_pos room, if_pos ((outcome_allowed _ _).mpr room)]
    · rw [if_neg room, if_neg (mt (outcome_allowed _ _).mp room), List.append_nil]

theorem answers_persistent {calls : List ScriptCall} (valid : ScriptRun window limit calls) :
    answers (runScript true window limit) none calls = answers (runScript false window limit) none calls := by
  induction calls using List.reverseRecOn with
  | nil => rfl
  | append_singleton before call ih =>
    have same : resultAfter true window limit before call = resultAfter false window limit before call := by
      rw [resultAfter_eq valid, resultAfter_eq valid]
    rw [answers_concat, answers_concat, ih valid.concat.1]
    exact congrArg (fun result => _ ++ [(call, result)]) same

def admittedWithin (window : Int) (limit : Nat) (calls : List ScriptCall) (time : Int) : List Int :=
  (admittedTimes window limit calls).filter fun admitted => time - window < admitted ∧ admitted ≤ time

theorem admittedWithin_eq {calls : List ScriptCall} (valid : ScriptRun window limit calls) (time : Int) :
    admittedWithin window limit calls time =
      SlidingWindow.within window (SlidingWindow.history window limit (calls.map ScriptCall.now)) time := by
  rw [admittedWithin, admittedTimes_eq valid, SlidingWindow.within]

theorem ScriptRun.initial {before after : List ScriptCall} (valid : ScriptRun window limit (before ++ after)) :
    ScriptRun window limit before := by
  refine ⟨valid.small, (List.pairwise_append.mp valid.ordered).1, ?_, fun call member => valid.fits call (by simp [member])⟩
  have distinct := valid.distinct
  rw [List.map_append] at distinct
  exact distinct.of_append_left

theorem ScriptRun.through {before after : List ScriptCall} (valid : ScriptRun window limit (before ++ call :: after)) :
    ScriptRun window limit (before ++ [call]) := by
  rw [← List.singleton_append, ← List.append_assoc] at valid
  exact valid.initial

theorem rejected_within {before : List ScriptCall} (valid : ScriptRun window limit (before ++ [call]))
    (rejected : (resultAfter true window limit before call).allowed = false) :
    limit ≤ (admittedWithin window limit before call.now).length := by
  obtain ⟨prior, ordered, -⟩ := valid.concat
  have past := (run_mirrors true prior call.now ordered).past
  rw [resultAfter_eq valid, ← Bool.not_eq_true, outcome_allowed, not_lt] at rejected
  rwa [admittedWithin_eq prior, SlidingWindow.within_eq_recent past]

theorem retried_admitted (atLeastOne : 1 ≤ limit) {before between : List ScriptCall} {again : ScriptCall}
    (valid : ScriptRun window limit (before ++ call :: (between ++ [again])))
    (rejected : (resultAfter true window limit before call).allowed = false)
    (calm : admittedTimes window limit (before ++ call :: between) = admittedTimes window limit before)
    (waited : again.now = call.now + (resultAfter true window limit before call).retryAfterMs * 1000) :
    (resultAfter true window limit (before ++ call :: between) again).allowed = true := by
  have first := valid.through
  have second : ScriptRun window limit ((before ++ call :: between) ++ [again]) := by simpa using valid
  obtain ⟨prior, ordered, fits, -⟩ := first.concat
  have past := (run_mirrors true prior call.now ordered).past
  rw [admittedTimes_eq second.initial, admittedTimes_eq prior] at calm
  rw [resultAfter_eq second, outcome_allowed, calm]
  rw [resultAfter_eq first] at rejected waited
  have bounded : SlidingWindow.Bounded window limit (SlidingWindow.history window limit (before.map ScriptCall.now)) :=
    SlidingWindow.history_bounded _
  generalize SlidingWindow.history window limit (before.map ScriptCall.now) = log at past rejected waited bounded ⊢
  have full : ¬ (SlidingWindow.recent window log call.now).length < limit := by
    rwa [← outcome_allowed, Bool.not_eq_true]
  have within : (SlidingWindow.recent window log call.now).length ≤ limit := by
    rw [← SlidingWindow.within_eq_recent past]
    exact bounded call.now
  have some_score : SlidingWindow.recent window log call.now ≠ [] := by
    rintro empty
    rw [empty, List.length_nil] at full
    omega
  have inside : ∀ score ∈ SlidingWindow.recent window log call.now, call.now - window < score ∧ score ≤ call.now := by
    intro score member
    obtain ⟨logged, recent⟩ := List.mem_filter.mp member
    exact ⟨of_decide_eq_true recent, past score logged⟩
  obtain ⟨oldest, inside, left⟩ := fits.retryAfterMs some_score inside
  have passed : call.now ≤ again.now := second.concat.2.1 call (by simp)
  have fewer := SlidingWindow.recent_length_lt passed inside (by simpa [waited, outcome, full] using left)
  omega

end

/-- The script keeps the limit in every window, rejects only when it is reached, decides as if keys did not expire, and
a rejected caller that waits as told is admitted. -/
theorem sliding_window_exact (window : Int) (limit : Nat) (atLeastOne : 1 ≤ limit) (calls : List ScriptCall)
    (valid : ScriptRun window limit calls) :
    (∀ time, (admittedWithin window limit calls time).length ≤ limit) ∧
      (∀ before call after, calls = before ++ call :: after →
        (resultAfter true window limit before call).allowed = false →
        limit ≤ (admittedWithin window limit before call.now).length) ∧
      answers (runScript true window limit) none calls = answers (runScript false window limit) none calls ∧
      ∀ before call between again after, calls = before ++ call :: (between ++ again :: after) →
        (resultAfter true window limit before call).allowed = false →
        admittedTimes window limit (before ++ call :: between) = admittedTimes window limit before →
        again.now = call.now + (resultAfter true window limit before call).retryAfterMs * 1000 →
        (resultAfter true window limit (before ++ call :: between) again).allowed = true := by
  refine ⟨?_, ?_, answers_persistent valid, ?_⟩
  · intro time
    rw [admittedWithin_eq valid]
    exact SlidingWindow.history_bounded _ time
  · rintro before call after rfl rejected
    exact rejected_within valid.through rejected
  · rintro before call between again after rfl rejected calm waited
    have through : ScriptRun window limit (before ++ call :: (between ++ [again])) := by
      have whole : before ++ call :: (between ++ again :: after) =
          (before ++ call :: (between ++ [again])) ++ after := by
        simp
      rw [whole] at valid
      exact valid.initial
    exact retried_admitted atLeastOne through rejected calm waited

namespace Sample

def early : List ScriptCall := [⟨0, "0:0"⟩, ⟨500000, "500000:0"⟩]

def refused : ScriptCall := ⟨900000, "900000:0"⟩

def back : ScriptCall := ⟨2000000, "2000000:0"⟩

end Sample

open Sample

theorem third_call_waits : resultAfter true 2000000 2 early refused = ⟨false, 0, 1100⟩ ∧
      (∀ time, (admittedWithin 2000000 2 (early ++ [refused, back]) time).length ≤ 2) ∧
      (resultAfter true 2000000 2 (early ++ [refused]) back).allowed = true := by
  have valid : ScriptRun 2000000 2 (early ++ [refused, back]) := ⟨by decide, by decide, by decide, by decide⟩
  have rejected : resultAfter true 2000000 2 early refused = ⟨false, 0, 1100⟩ := by decide +kernel
  obtain ⟨bounded, -, -, retried⟩ := sliding_window_exact 2000000 2 (by decide) (early ++ [refused, back]) valid
  refine ⟨rejected, bounded, retried early refused [] back [] rfl ?_ ?_ ?_⟩
  · rw [rejected]
  · decide +kernel
  · rw [rejected]
    decide

-- A window of 53 bits and one more is a microsecond too short in the script.
theorem long_window_overfull :
    (admittedWithin (2 ^ 53 + 1) 1 [⟨0, "0:0"⟩, ⟨2 ^ 53, "9007199254740992:0"⟩] (2 ^ 53)).length = 2 := by
  decide +kernel

end McpGateway.RateLimit
