import Mathlib.Algebra.Order.Field.Power
import Mathlib.Data.Nat.Log
import Mathlib.Data.Rat.Cast.Order
import Mathlib.Tactic.FieldSimp
import Mathlib.Tactic.Linarith
import Mathlib.Tactic.Ring
import McpGateway.Shared.Float64

namespace McpGateway.Shared

-- How far the nearest binary64 value is from the number it stands for.

theorem roundHalfEven_error (num den : Nat) (pos : 0 < den) :
    |(roundHalfEven num den : Rat) - num / den| ≤ 1 / 2 := by
  have cast : (0 : Rat) < den := by exact_mod_cast pos
  have parts : (num : Rat) = den * (num / den : Nat) + (num % den : Nat) := by
    exact_mod_cast (Nat.div_add_mod num den).symm
  have quotient : (num : Rat) / den = (num / den : Nat) + (num % den : Nat) / den := by
    rw [parts]
    field_simp
  rw [quotient, abs_le]
  unfold roundHalfEven
  dsimp only
  split_ifs with up
  · have upper : (den : Rat) ≤ 2 * (num % den : Nat) := by
      simp only [Bool.or_eq_true, decide_eq_true_eq, Bool.and_eq_true] at up
      exact_mod_cast (by omega : den ≤ 2 * (num % den))
    have below : ((num % den : Nat) : Rat) ≤ den := by exact_mod_cast (Nat.mod_lt num pos).le
    have half : 1 / 2 ≤ ((num % den : Nat) : Rat) / den := by
      rw [div_le_div_iff₀ (by norm_num) cast]
      linarith
    have whole : ((num % den : Nat) : Rat) / den ≤ 1 := (div_le_one₀ cast).mpr below
    push_cast
    constructor <;> linarith
  · have lower : 2 * ((num % den : Nat) : Rat) ≤ den := by
      simp only [Bool.or_eq_true, decide_eq_true_eq, Bool.and_eq_true, not_or] at up
      exact_mod_cast (by omega : 2 * (num % den) ≤ den)
    have half : ((num % den : Nat) : Rat) / den ≤ 1 / 2 := by
      rw [div_le_div_iff₀ cast (by norm_num)]
      linarith
    have nonneg : 0 ≤ ((num % den : Nat) : Rat) / den := div_nonneg (Nat.cast_nonneg _) cast.le
    constructor <;> linarith

theorem shift_ratio (num den : Nat) (exponent : Int) :
    ((shift num den exponent).1 : Rat) / (shift num den exponent).2 = num / den * 2 ^ (-exponent) := by
  unfold shift
  split_ifs with up
  · obtain ⟨k, rfl⟩ := Int.eq_ofNat_of_zero_le up
    simp only [Int.toNat_natCast, Nat.cast_mul, Nat.cast_pow, Nat.cast_ofNat, zpow_neg, zpow_natCast]
    field_simp
  · obtain ⟨k, rfl⟩ : ∃ k : Nat, exponent = -k := ⟨(-exponent).toNat, by omega⟩
    simp only [neg_neg, Int.toNat_natCast, Nat.cast_mul, Nat.cast_pow, Nat.cast_ofNat, zpow_natCast]
    ring

variable {den num : Nat}

theorem shift_den_pos (num : Nat) (pos : 0 < den) (exponent : Int) : 0 < (shift num den exponent).2 := by
  unfold shift
  split_ifs <;> positivity

theorem nearestFloat64_eq (nonzero : num ≠ 0) : nearestFloat64 num den =
      roundHalfEven (shift num den (lastPlace num den)).1 (shift num den (lastPlace num den)).2 *
        2 ^ lastPlace num den := by
  unfold nearestFloat64
  rw [if_neg nonzero]
  generalize lastPlace num den = place
  dsimp only
  split_ifs with up
  · obtain ⟨k, rfl⟩ := Int.eq_ofNat_of_zero_le up
    simp
  · obtain ⟨k, rfl⟩ : ∃ k : Nat, place = -k := ⟨(-place).toNat, by omega⟩
    simp [Rat.mkRat_eq_div, div_eq_mul_inv]

theorem two_zpow_log2_le (nonzero : num ≠ 0) (pos : 0 < den) :
    (2 : Rat) ^ ((num.log2 : Int) - den.log2 - 1) ≤ num / den := by
  have cast : (0 : Rat) < den := by exact_mod_cast pos
  have low : (2 : Rat) ^ num.log2 ≤ num := by exact_mod_cast Nat.log2_self_le nonzero
  have high : (den : Rat) ≤ 2 ^ (den.log2 + 1) := by exact_mod_cast Nat.lt_log2_self.le
  have exponent : ((num.log2 : Int) - den.log2 - 1) = (num.log2 : Int) - ((den.log2 + 1 : Nat) : Int) := by
    push_cast
    ring
  rw [exponent, zpow_sub₀ (by norm_num), zpow_natCast, zpow_natCast]
  gcongr

theorem lastPlace_cases (num : Nat) (pos : 0 < den) : (num / den : Rat) < 2 ^ ((num.log2 : Int) - den.log2) ∧
        lastPlace num den = max ((num.log2 : Int) - den.log2 - 1 - 52) (-1074) ∨
      (2 : Rat) ^ ((num.log2 : Int) - den.log2) ≤ num / den ∧
        lastPlace num den = max ((num.log2 : Int) - den.log2 - 52) (-1074) := by
  have ratio := shift_ratio num den ((num.log2 : Int) - den.log2)
  have unit : (0 : Rat) < (shift num den ((num.log2 : Int) - den.log2)).2 := by
    exact_mod_cast shift_den_pos num pos _
  have scale : (0 : Rat) < 2 ^ ((num.log2 : Int) - den.log2) := by positivity
  generalize scaling : shift num den ((num.log2 : Int) - den.log2) = scaled at ratio unit
  have place : lastPlace num den = max ((if scaled.1 < scaled.2 then (num.log2 : Int) - den.log2 - 1
      else (num.log2 : Int) - den.log2) - 52) (-1074) := by
    rw [← scaling]
    rfl
  rw [zpow_neg, ← div_eq_mul_inv] at ratio
  split_ifs at place with less
  · refine .inl ⟨?_, place⟩
    rw [← div_lt_one₀ scale, ← ratio, div_lt_one₀ unit]
    exact_mod_cast less
  · refine .inr ⟨?_, place⟩
    rw [← one_le_div₀ scale, ← ratio, one_le_div₀ unit]
    exact_mod_cast not_lt.mp less

theorem lastPlace_leading (nonzero : num ≠ 0) (pos : 0 < den) :
    ∃ leading : Int, lastPlace num den = max (leading - 52) (-1074) ∧ (2 : Rat) ^ leading ≤ num / den := by
  obtain ⟨-, place⟩ | ⟨low, place⟩ := lastPlace_cases num pos
  · exact ⟨_, place, two_zpow_log2_le nonzero pos⟩
  · exact ⟨_, place, low⟩

theorem nearestFloat64_error (nonzero : num ≠ 0) (pos : 0 < den) {top : Int} (normal : -1021 ≤ top)
    (below : (num / den : Rat) < 2 ^ top) : |nearestFloat64 num den - num / den| ≤ 2 ^ (top - 54) := by
  obtain ⟨leading, place, low⟩ := lastPlace_leading nonzero pos
  have leads : leading < top := (zpow_lt_zpow_iff_right₀ (by norm_num)).mp (low.trans_lt below)
  have scale : (0 : Rat) < 2 ^ lastPlace num den := by positivity
  have ratio := shift_ratio num den (lastPlace num den)
  have error := roundHalfEven_error (shift num den (lastPlace num den)).1 _ (shift_den_pos num pos (lastPlace num den))
  have back : (num : Rat) / den =
      (shift num den (lastPlace num den)).1 / (shift num den (lastPlace num den)).2 * 2 ^ lastPlace num den := by
    rw [ratio, mul_assoc, ← zpow_add₀ (by norm_num)]
    simp
  calc |nearestFloat64 num den - num / den|
      ≤ 1 / 2 * 2 ^ lastPlace num den := by
        rw [nearestFloat64_eq nonzero, back, ← sub_mul, abs_mul, abs_of_pos scale]
        gcongr
    _ = 2 ^ (lastPlace num den - 1) := by
        rw [zpow_sub_one₀ (by norm_num)]
        ring
    _ ≤ 2 ^ (top - 54) := zpow_le_zpow_right₀ (by norm_num) (by omega)

theorem roundHalfEven_whole {whole : Nat} (pos : 0 < den) (ratio : (num : Rat) / den = whole) :
    roundHalfEven num den = whole := by
  have cast : (den : Rat) ≠ 0 := by exact_mod_cast pos.ne'
  have multiple : num = whole * den := by exact_mod_cast (div_eq_iff cast).mp ratio
  simp [roundHalfEven, multiple, Nat.mul_div_cancel _ pos, pos.ne']

theorem lt_two_zpow_log2 (pos : 0 < den) : (num / den : Rat) < 2 ^ ((num.log2 : Int) - den.log2 + 1) := by
  have cast : (0 : Rat) < den := by exact_mod_cast pos
  have high : (num : Rat) < 2 ^ (num.log2 + 1) := by exact_mod_cast Nat.lt_log2_self
  have low : (2 : Rat) ^ den.log2 ≤ den := by exact_mod_cast Nat.log2_self_le pos.ne'
  have exponent : ((num.log2 : Int) - den.log2 + 1) = ((num.log2 + 1 : Nat) : Int) - den.log2 := by
    push_cast
    ring
  rw [exponent, zpow_sub₀ (by norm_num), zpow_natCast, zpow_natCast, div_lt_div_iff₀ cast (by positivity)]
  have scaled : (num : Rat) * 2 ^ den.log2 ≤ num * den := by gcongr
  nlinarith

theorem lt_two_zpow_lastPlace (pos : 0 < den) : (num / den : Rat) < 2 ^ (lastPlace num den + 53) := by
  obtain ⟨high, place⟩ | ⟨-, place⟩ := lastPlace_cases num pos
  · exact high.trans_le (zpow_le_zpow_right₀ (by norm_num) (by omega))
  · exact (lt_two_zpow_log2 pos).trans_le (zpow_le_zpow_right₀ (by norm_num) (by omega))

/-- The magnitudes that binary64 has, were its exponent not bounded above. -/
def Representable (x : Rat) : Prop :=
  ∃ (whole : Nat) (place : Int), whole ≤ 2 ^ 53 ∧ -1074 ≤ place ∧ x = whole * 2 ^ place

theorem lastPlace_ge (num den : Nat) : -1074 ≤ lastPlace num den :=
  le_max_right _ _

theorem representable_nearestFloat64 (num : Nat) (pos : 0 < den) : Representable (nearestFloat64 num den) := by
  by_cases nonzero : num = 0
  · exact ⟨0, 0, by simp, by simp, by simp [nearestFloat64, nonzero]⟩
  · refine ⟨_, lastPlace num den, ?_, lastPlace_ge num den, nearestFloat64_eq nonzero⟩
    have error := roundHalfEven_error (shift num den (lastPlace num den)).1 _
      (shift_den_pos num pos (lastPlace num den))
    have below : num / den * (2 : Rat) ^ (-lastPlace num den) < 2 ^ (53 : Nat) := by
      have scale : (0 : Rat) < 2 ^ (-lastPlace num den) := by positivity
      have fits : (num / den : Rat) < 2 ^ (lastPlace num den + 53) := lt_two_zpow_lastPlace pos
      have scaled := mul_lt_mul_of_pos_right fits scale
      rw [← zpow_add₀ (by norm_num), show lastPlace num den + 53 + -lastPlace num den = (53 : Nat) by omega,
        zpow_natCast] at scaled
      exact scaled
    rw [shift_ratio] at error
    have rounded := (abs_le.mp error).2
    by_contra more
    have above : ((2 ^ 53 + 1 : Nat) : Rat) ≤
        roundHalfEven (shift num den (lastPlace num den)).1 (shift num den (lastPlace num den)).2 := by
      exact_mod_cast not_le.mp more
    push_cast at above
    linarith

theorem whole_at_lastPlace (nonzero : num ≠ 0) (pos : 0 < den) (representable : Representable (num / den)) :
    ∃ whole : Nat, (num : Rat) / den * 2 ^ (-lastPlace num den) = whole := by
  obtain ⟨whole, place, bounded, least, value⟩ := representable
  obtain ⟨leading, last, low⟩ := lastPlace_leading nonzero pos
  rw [value] at low ⊢
  generalize lastPlace num den = finer at last
  rw [mul_assoc, ← zpow_add₀ (by norm_num)]
  cases le_or_gt finer place with
  | inl coarse =>
    obtain ⟨k, exponent⟩ := Int.eq_ofNat_of_zero_le (show 0 ≤ place + -finer by omega)
    refine ⟨whole * 2 ^ k, ?_⟩
    rw [exponent]
    push_cast
    rfl
  | inr fine =>
    have fits : (whole : Rat) * 2 ^ place ≤ 2 ^ (53 + place) := by
      rw [zpow_add₀ (by norm_num)]
      gcongr
      exact_mod_cast bounded
    have order : leading ≤ 53 + place := (zpow_le_zpow_iff_right₀ (by norm_num)).mp (low.trans fits)
    have next : finer = place + 1 := by omega
    have leads : leading = 53 + place := by omega
    rw [leads, zpow_add₀ (by norm_num)] at low
    have full : (2 : Rat) ^ (53 : Int) ≤ whole := le_of_mul_le_mul_right low (by positivity)
    have carried : whole = 2 ^ 53 := le_antisymm bounded (by exact_mod_cast full)
    refine ⟨2 ^ 52, ?_⟩
    rw [carried, next, show place + -(place + 1) = -1 by ring]
    norm_num

theorem nearestFloat64_representable (pos : 0 < den) (representable : Representable (num / den)) :
    nearestFloat64 num den = num / den := by
  by_cases nonzero : num = 0
  · simp [nearestFloat64, nonzero]
  · obtain ⟨whole, exact_whole⟩ := whole_at_lastPlace nonzero pos representable
    have ratio := shift_ratio num den (lastPlace num den)
    rw [exact_whole] at ratio
    rw [nearestFloat64_eq nonzero, roundHalfEven_whole (shift_den_pos num pos _) ratio, ← exact_whole, mul_assoc,
      ← zpow_add₀ (by norm_num)]
    simp

theorem roundFloat64_int {n : Int} (low : -2 ^ 53 < n) (high : n < 2 ^ 53) : roundFloat64 n = n := by
  have fits : Representable ((n.natAbs : Rat) / (1 : Nat)) := ⟨n.natAbs, 0, by omega, by omega, by simp⟩
  unfold roundFloat64
  rw [Rat.num_intCast, Rat.den_intCast, nearestFloat64_representable one_pos fits, Nat.cast_one, div_one]
  split_ifs with negative
  · have below : n < 0 := by exact_mod_cast negative
    obtain ⟨k, rfl⟩ : ∃ k : Nat, n = -k := ⟨n.natAbs, by omega⟩
    simp
  · obtain ⟨k, rfl⟩ := Int.eq_ofNat_of_zero_le (show 0 ≤ n by exact_mod_cast not_lt.mp negative)
    simp

theorem roundFloat64_error {q : Rat} (pos : 0 < q) {top : Int} (normal : -1021 ≤ top) (below : q < 2 ^ top) :
    |roundFloat64 q - q| ≤ 2 ^ (top - 54) := by
  have above : 0 < q.num := Rat.num_pos.mpr pos
  have parts : (q.num.natAbs : Rat) / q.den = q := by
    have same : ((q.num.natAbs : Int) : Rat) = q.num := by exact_mod_cast Int.natAbs_of_nonneg above.le
    rw [← Int.cast_natCast, same, Rat.num_div_den]
  have error := nearestFloat64_error (show q.num.natAbs ≠ 0 by omega) q.den_pos normal (parts.symm ▸ below)
  rw [parts] at error
  rwa [roundFloat64, if_neg (not_lt.mpr pos.le)]

end McpGateway.Shared
