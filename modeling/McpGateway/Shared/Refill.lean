import Mathlib.Algebra.Order.Field.Basic
import Mathlib.Tactic.Linarith
import Mathlib.Tactic.Ring

namespace McpGateway.Shared

structure Level (K : Type) where
  tokens : K
  last : K

namespace Level

variable {K : Type}

section

variable [Field K] [LinearOrder K] (rate burst : K)

-- A bucket that is new is full, and time fills it up to the burst.
def available (level : Option (Level K)) (now : K) : K :=
  match level with
  | none => burst
  | some level => min burst (level.tokens + (now - level.last) * rate)

def take (level : Option (Level K)) (now : K) : Level K × Bool :=
  if available rate burst level now < 1 then (⟨available rate burst level now, now⟩, false)
  else (⟨available rate burst level now - 1, now⟩, true)

-- How many of the looks at these times are granted within an interval. The times need not be in order.
def admitted (opens closes : K) : Option (Level K) → List K → Nat
  | _, [] => 0
  | level, now :: rest =>
    (if opens ≤ now ∧ now ≤ closes ∧ (take rate burst level now).2 = true then 1 else 0) +
      admitted opens closes (some (take rate burst level now).1) rest

def reserve (closes : K) (level : Level K) : K :=
  level.tokens + (closes - level.last) * rate

end

variable [Field K] [LinearOrder K] [IsStrictOrderedRing K] {rate burst opens closes : K}

omit [IsStrictOrderedRing K] in
theorem available_le_burst (level : Option (Level K)) (now : K) : available rate burst level now ≤ burst := by
  cases level with
  | none => exact le_rfl
  | some level => exact min_le_left _ _

omit [IsStrictOrderedRing K] in
theorem take_cases (level : Option (Level K)) (now : K) :
    (take rate burst level now = (⟨available rate burst level now, now⟩, false)) ∨ (1 ≤ available rate burst level now ∧
        take rate burst level now = (⟨available rate burst level now - 1, now⟩, true)) := by
  by_cases short : available rate burst level now < 1
  · exact .inl (by rw [take, if_pos short])
  · exact .inr ⟨not_lt.mp short, by rw [take, if_neg short]⟩

theorem available_reserve (level : Level K) (now : K) :
    available rate burst (some level) now + (closes - now) * rate ≤ reserve rate closes level := by
  have uncapped : available rate burst (some level) now ≤ level.tokens + (now - level.last) * rate := min_le_right _ _
  have whole : (now - level.last) * rate + (closes - now) * rate = (closes - level.last) * rate := by ring
  unfold reserve
  linarith

theorem take_pays (refills : 0 ≤ rate) (level : Option (Level K)) (now : K) :
    ((if opens ≤ now ∧ now ≤ closes ∧ (take rate burst level now).2 = true then 1 else 0 : Nat) : K) +
        max 0 (reserve rate closes (take rate burst level now).1) ≤
      max 0 (available rate burst level now + (closes - now) * rate) := by
  rcases take_cases level now with taken | ⟨enough, taken⟩
  · rw [taken, if_neg (by simp), Nat.cast_zero, zero_add, reserve]
  · rw [taken, reserve]
    by_cases within : opens ≤ now ∧ now ≤ closes
    · have filled : 0 ≤ (closes - now) * rate := mul_nonneg (sub_nonneg.mpr within.2) refills
      rw [if_pos ⟨within.1, within.2, rfl⟩, max_eq_right (by linarith), max_eq_right (by linarith)]
      push_cast
      linarith
    · rw [if_neg fun granted => within ⟨granted.1, granted.2.1⟩, Nat.cast_zero, zero_add]
      exact max_le_max le_rfl (by linarith)

theorem admitted_le_reserve (refills : 0 ≤ rate) (level : Level K) (times : List K) :
    (admitted rate burst opens closes (some level) times : K) ≤ max 0 (reserve rate closes level) := by
  induction times generalizing level with
  | nil => simp [admitted]
  | cons now rest ih =>
    rw [admitted, Nat.cast_add]
    calc _ ≤ _ + max 0 (reserve rate closes (take rate burst (some level) now).1) := by gcongr; exact ih _
      _ ≤ max 0 (available rate burst (some level) now + (closes - now) * rate) := take_pays refills _ now
      _ ≤ max 0 (reserve rate closes level) := max_le_max le_rfl (available_reserve level now)

theorem admitted_le (refills : 0 ≤ rate) (size : 0 ≤ burst) (ordered : opens ≤ closes) (level : Option (Level K))
    (times : List K) : (admitted rate burst opens closes level times : K) ≤ burst + rate * (closes - opens) := by
  have grown : 0 ≤ rate * (closes - opens) := mul_nonneg refills (sub_nonneg.mpr ordered)
  induction times generalizing level with
  | nil =>
    rw [admitted, Nat.cast_zero]
    linarith
  | cons now rest ih =>
    rw [admitted]
    by_cases within : opens ≤ now ∧ now ≤ closes
    · -- the first look within the interval finds the burst at most
      have capped : available rate burst level now ≤ burst := available_le_burst level now
      have shorter : (closes - now) * rate ≤ rate * (closes - opens) := by
        rw [mul_comm]
        exact mul_le_mul_of_nonneg_left (by linarith [within.1]) refills
      rw [Nat.cast_add]
      calc _ ≤ _ + max 0 (reserve rate closes (take rate burst level now).1) := by
            gcongr
            exact admitted_le_reserve refills _ rest
        _ ≤ max 0 (available rate burst level now + (closes - now) * rate) := take_pays refills level now
        _ ≤ burst + rate * (closes - opens) := max_le (by linarith) (by linarith)
    · rw [if_neg fun granted => within ⟨granted.1, granted.2.1⟩, Nat.zero_add]
      exact ih _

end Level

end McpGateway.Shared
