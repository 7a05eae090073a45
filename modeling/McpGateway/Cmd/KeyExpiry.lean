import McpGateway.Server.ApiKeyApi
import McpGateway.Shared.GoInt

namespace McpGateway.Cmd

open Shared Server

def parseExtendedDuration (raw : String) : Except String Int :=
  if (trimSpace raw).toList.getLast? = some 'd' then
    match atoi (trimSpace (String.ofList (trimSpace raw).toList.dropLast)) with
    | none => .error ("invalid day duration " ++ quote raw)
    -- The product is an int64.
    | some days => .ok (Int.bmod (days * 24 * hour) (2 ^ 64))
  else parseDuration (trimSpace raw)

def parseExpiry (raw : String) (now : Time) : Except String (Option Time) :=
  if trimSpace raw = "" then .ok none
  else
    match parseExtendedDuration (trimSpace raw) with
    | .error error => .error ("parse expires: " ++ error)
    | .ok duration =>
      if duration ≤ 0 then .error "parse expires: duration must be positive" else .ok (some (now + duration))

def daysText (days : Nat) : String :=
  String.ofList (Nat.toDigits 10 days ++ ['d'])

-- time.Time counts seconds from the year 1 in an int64.
def Representable (instant : Time) : Prop :=
  instant / second + 62135596800 < 2 ^ 63

def ExpiresAfter (parse : String → Time → Except String (Option Time)) (days : Nat) (now : Time) : Prop :=
  ∀ expiry, parse (daysText days) now = .ok (some expiry) →
    expiry = now + days * 24 * hour ∧ Representable (now + days * 24 * hour)

-- The product keeps its value, or is refused: as no int64, or because it wraps below one.
def Unwrapped (days : Nat) : Prop :=
  days * 24 * hour < 2 ^ 63 ∨ 2 ^ 63 ≤ days ∨ Int.bmod (days * 24 * hour) (2 ^ 64) ≤ 0

section

variable {days : Nat} {now : Time}

theorem daysText_visible (days : Nat) : ∀ c ∈ Nat.toDigits 10 days ++ ['d'], isSpace c = false := by
  simp only [List.mem_append, List.mem_singleton]
  rintro c (digit | rfl)
  · exact isSpace_digit (isDigit_toDigits c digit)
  · decide

theorem trimSpace_daysText (days : Nat) : trimSpace (daysText days) = daysText days :=
  trimSpace_eq_self _ (by simpa [daysText] using daysText_visible days)

theorem atoi_daysText (days : Nat) : atoi (trimSpace (String.ofList (daysText days).toList.dropLast)) =
    if days < 2 ^ 63 then some (days : Int) else none := by
  have visible : ∀ c ∈ (String.ofList (Nat.toDigits 10 days)).toList, isSpace c = false := fun c mem =>
    daysText_visible days c (by simp_all)
  rw [daysText, String.toList_ofList, List.dropLast_concat, trimSpace_eq_self _ visible, atoi_digits]

theorem parseExtendedDuration_days (days : Nat) : parseExtendedDuration (daysText days) =
    if days < 2 ^ 63 then .ok (Int.bmod (days * 24 * hour) (2 ^ 64))
    else .error ("invalid day duration " ++ quote (daysText days)) := by
  have last : (daysText days).toList.getLast? = some 'd' := by simp [daysText]
  rw [parseExtendedDuration, trimSpace_daysText, if_pos last, atoi_daysText]
  split_ifs <;> rfl

theorem expiryDuration_days (raw : String) (pos : 0 < days) : expiryDuration raw (daysText days) =
    if days < 2 ^ 63 then .ok (Int.bmod (days * 24 * hour) (2 ^ 64))
    else .error ("invalid day duration " ++ quote raw) := by
  have last : (daysText days).toList.getLast? = some 'd' := by simp [daysText]
  rw [expiryDuration, if_pos last, atoi_daysText]
  split_ifs <;> simp [pos.ne']

theorem daysText_ne_empty (days : Nat) : daysText days ≠ "" := by
  intro empty
  simpa [daysText] using congrArg String.toList empty

theorem parseApiKeyExpiry_days (pos : 0 < days) (expiry : Time) :
    parseApiKeyExpiry (daysText days) now = .ok (some expiry) ↔
      days < 2 ^ 63 ∧ 0 < Int.bmod (days * 24 * hour) (2 ^ 64) ∧
        now + Int.bmod (days * 24 * hour) (2 ^ 64) = expiry := by
  rw [parseApiKeyExpiry, trimSpace_daysText, if_neg (daysText_ne_empty days), expiryDuration_days _ pos]
  generalize Int.bmod (days * 24 * hour) (2 ^ 64) = product
  by_cases fits : days < 2 ^ 63
  · by_cases backward : product ≤ 0
    · simp [if_pos fits, backward, not_lt.mpr backward, -Nat.reducePow]
    · simp [backward, not_le.mp backward, fits, -Nat.reducePow]
  · simp [fits, -Nat.reducePow]

theorem parseExpiry_days (expiry : Time) : parseExpiry (daysText days) now = .ok (some expiry) ↔
    days < 2 ^ 63 ∧ 0 < Int.bmod (days * 24 * hour) (2 ^ 64) ∧ now + Int.bmod (days * 24 * hour) (2 ^ 64) = expiry := by
  rw [parseExpiry, trimSpace_daysText, if_neg (daysText_ne_empty days), parseExtendedDuration_days]
  generalize Int.bmod (days * 24 * hour) (2 ^ 64) = product
  by_cases fits : days < 2 ^ 63
  · by_cases backward : product ≤ 0
    · simp [if_pos fits, backward, not_lt.mpr backward, -Nat.reducePow]
    · simp [backward, not_le.mp backward, fits, -Nat.reducePow]
  · simp [fits, -Nat.reducePow]

theorem product_exact_iff (days : Nat) :
    Int.bmod (days * 24 * hour) (2 ^ 64) = days * 24 * hour ↔ (days : Int) * 24 * hour < 2 ^ 63 := by
  have nonneg : 0 ≤ (days : Int) * 24 * hour := by simp only [hour, second]; omega
  constructor
  · intro same
    have below := Int.bmod_lt (x := (days : Int) * 24 * hour) (m := 2 ^ 64) (by decide)
    rw [same] at below
    omega
  · intro below
    exact Int.bmod_eq_of_le (by omega) (by omega)

theorem expiresAfter_iff {parse : String → Time → Except String (Option Time)}
    (parsed : ∀ expiry, parse (daysText days) now = .ok (some expiry) ↔ days < 2 ^ 63 ∧
      0 < Int.bmod (days * 24 * hour) (2 ^ 64) ∧ now + Int.bmod (days * 24 * hour) (2 ^ 64) = expiry)
    (present : Representable (now + 2 ^ 63)) : ExpiresAfter parse days now ↔ Unwrapped days := by
  have same := product_exact_iff days
  constructor
  · intro expires
    by_contra wrapped
    simp only [Unwrapped, not_or, not_le] at wrapped
    have exact := (expires _ ((parsed _).mpr ⟨wrapped.2.1, wrapped.2.2, rfl⟩)).1
    exact wrapped.1 (same.mp (Int.add_left_cancel exact))
  · rintro (below | large | backward) expiry accepted
    · obtain ⟨-, -, rfl⟩ := (parsed _).mp accepted
      refine ⟨by rw [same.mpr below], ?_⟩
      have before : now + days * 24 * hour ≤ now + 2 ^ 63 := Int.add_le_add_left below.le now
      exact (Int.add_le_add_right (Int.ediv_le_ediv (by decide) before) _).trans_lt present
    · exact absurd ((parsed _).mp accepted).1 (by omega)
    · exact absurd ((parsed _).mp accepted).2.1 (by omega)

end

/-- A number of days with the letter d: both parsers accept only the exact instant, and parseExtendedDuration only the
exact duration, unless the product wraps. -/
theorem key_expiry_exact_iff (days : Nat) (now : Time) (pos : 0 < days) (present : Representable (now + 2 ^ 63)) :
    (ExpiresAfter parseApiKeyExpiry days now ↔ Unwrapped days) ∧ (ExpiresAfter parseExpiry days now ↔ Unwrapped days) ∧
      ((∀ duration, parseExtendedDuration (daysText days) = .ok duration → duration = days * 24 * hour) ↔
        days * 24 * hour < 2 ^ 63 ∨ 2 ^ 63 ≤ days) := by
  refine ⟨expiresAfter_iff (parseApiKeyExpiry_days pos) present, expiresAfter_iff parseExpiry_days present, ?_⟩
  rw [parseExtendedDuration_days]
  have same := product_exact_iff days
  by_cases fits : days < 2 ^ 63
  · simpa only [if_pos fits, Except.ok.injEq, forall_eq', not_le.mpr fits, or_false] using same
  · simp [fits, not_lt.mp fits, -Nat.reducePow]

theorem thirty_days_exact :
    ExpiresAfter parseApiKeyExpiry 30 0 ∧ parseApiKeyExpiry "30d" 0 = .ok (some (30 * 24 * hour)) :=
  ⟨(key_expiry_exact_iff 30 0 (by decide) (by unfold Representable; decide)).1.mpr (.inl (by decide)), by decide +kernel⟩

/-- 213504 days are taken for some 25 minutes. -/
theorem many_days_wrap :
    parseApiKeyExpiry "213504d" 0 = .ok (some 1526290448384) ∧ parseExpiry "213504d" 0 = .ok (some 1526290448384) ∧
      parseExtendedDuration "106752d" = .ok (-9223371273709551616) := by
  decide +kernel

end McpGateway.Cmd
