import Mathlib.Algebra.Order.Group.Defs
import Mathlib.Algebra.Order.Sub.Basic
import McpGateway.Shared.Runs

namespace McpGateway.Shared.SlidingWindow

-- A limiter that remembers every time it has admitted, and admits while fewer than the limit lie in the window that
-- ends now.

section

variable {T : Type} [AddCommGroup T] [LinearOrder T] (window : T) (limit : Nat)

def recent (log : List T) (now : T) : List T :=
  log.filter (now - window < ·)

def within (log : List T) (time : T) : List T :=
  log.filter fun admitted => time - window < admitted ∧ admitted ≤ time

def record (log : List T) (now : T) : List T :=
  if (recent window log now).length < limit then log ++ [now] else log

def history (times : List T) : List T :=
  run (record window limit) [] times

def Bounded (log : List T) : Prop :=
  ∀ time, (within window log time).length ≤ limit

variable {window limit} {log : List T} {now : T}

theorem within_eq_recent (past : ∀ time ∈ log, time ≤ now) : within window log now = recent window log now := by
  refine List.filter_congr fun time mem => ?_
  simp [past time mem]

variable [IsOrderedAddMonoid T]

theorem within_length_le {later : T} (passed : now ≤ later) :
    (within window log later).length ≤ (recent window log now).length := by
  refine (List.monotone_filter_right log fun time inside => ?_).length_le
  simp only [decide_eq_true_eq] at inside ⊢
  exact (sub_le_sub_right passed window).trans_lt inside.1

theorem record_bounded (bounded : Bounded window limit log) : Bounded window limit (record window limit log now) := by
  intro time
  unfold record
  split_ifs with room
  · by_cases passed : now ≤ time
    · have fewer : (within window log time).length ≤ (recent window log now).length := within_length_le passed
      have one : ([now].filter fun admitted => time - window < admitted ∧ admitted ≤ time).length ≤ 1 :=
        List.length_filter_le _ [now]
      rw [within, List.filter_append, List.length_append, ← within]
      omega
    · have unseen : within window (log ++ [now]) time = within window log time := by
        simp [within, passed]
      rw [unseen]
      exact bounded time
  · exact bounded time

theorem history_bounded (times : List T) : Bounded window limit (history window limit times) := by
  have always : Along (record window limit) (fun _ _ => True) [] times := along_iff_forall.mpr fun _ _ => trivial
  exact always.run_invariant (fun time => by simp [within]) fun log now bounded _ => record_bounded bounded

theorem recent_length_lt {later oldest : T} (passed : now ≤ later) (inside : oldest ∈ recent window log now)
    (left : oldest + window ≤ later) : (recent window log later).length < (recent window log now).length := by
  have narrowed : recent window log later = (recent window log now).filter (later - window < ·) := by
    unfold recent
    rw [List.filter_filter]
    refine List.filter_congr fun time _ => ?_
    by_cases inLater : later - window < time
    · simp [inLater, (sub_le_sub_right passed window).trans_lt inLater]
    · simp [inLater]
  rw [narrowed]
  refine List.length_filter_lt_length_iff_exists.mpr ⟨oldest, inside, ?_⟩
  simpa using le_sub_iff_add_le.mpr left

end

end McpGateway.Shared.SlidingWindow
