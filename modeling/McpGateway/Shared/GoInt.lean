import McpGateway.Shared.FormatFloat
import McpGateway.Shared.GoTime

namespace McpGateway.Shared

theorem isSpace_digit {c : Char} (digit : Json.isDigit c = true) : isSpace c = false := by
  have small : 48 ≤ c.toNat ∧ c.toNat ≤ 57 := by
    simpa [Json.isDigit, Char.le_def, UInt32.le_iff_toNat_le] using digit
  simp [isSpace]
  omega

theorem toDigits_unsigned (n : Nat) : ∃ first rest, Nat.toDigits 10 n = first :: rest ∧ first ≠ '-' ∧ first ≠ '+' := by
  cases printed : Nat.toDigits 10 n with
  | nil => exact absurd printed Nat.toDigits_ne_nil
  | cons first rest =>
    have digit : Json.isDigit first = true := isDigit_toDigits (n := n) first (by simp [printed])
    refine ⟨first, rest, rfl, ?_, ?_⟩ <;> rintro rfl <;> revert digit <;> decide

theorem atoi_digits (n : Nat) :
    atoi (String.ofList (Nat.toDigits 10 n)) = if n < 2 ^ 63 then some (n : Int) else none := by
  obtain ⟨first, rest, printed, minus, plus⟩ := toDigits_unsigned n
  have digits : (first :: rest).all Json.isDigit = true := by
    rw [← printed, List.all_eq_true]
    exact isDigit_toDigits
  have value : intOfDigits (first :: rest) = n := by
    rw [← natOfDigits_toDigits n, printed, intOfDigits]
    · rintro runes same
      exact minus (List.cons.inj same).1
    · rintro runes same
      exact plus (List.cons.inj same).1
  have bounded : (-2 ^ 63 ≤ (n : Int) ∧ (n : Int) < 2 ^ 63) ↔ n < 2 ^ 63 := by omega
  unfold atoi
  simp only [String.toList_ofList, printed, value, bounded]
  split
  · simp_all
  · simp_all
  · simp only [digits, ne_eq, reduceCtorEq, not_false_eq_true, true_and]

end McpGateway.Shared
