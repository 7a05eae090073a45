import McpGateway.Shared.JsonPrint
import McpGateway.Shared.Rounding

namespace McpGateway.Shared

-- How encoding/json writes a float64: the shortest decimal that ParseFloat reads back as the same number.

def Decimal.value (decimal : Decimal) : Rat :=
  (if decimal.negative then -1 else 1) * (decimal.digits * 10 ^ decimal.exponent)

-- The place before the leading digit of a positive number: 10^(e-1) ≤ x < 10^e.
def leadingPlace (x : Rat) : Int :=
  let guess : Int := (Nat.log 10 x.num.natAbs : Int) - Nat.log 10 x.den
  if 10 ^ guess ≤ x then guess + 1 else guess

def shortDecimals (x : Rat) (n : Nat) : List (Nat × Int) :=
  let place := leadingPlace x - n
  let scaled := x / 10 ^ place
  let low := scaled.floor.toNat
  let above := if low + 1 = 10 ^ n then (1, place + n) else (low + 1, place)
  if scaled - low < 1 / 2 ∨ scaled - low = 1 / 2 ∧ low % 2 = 0 then [(low, place), above] else [above, (low, place)]

def plainRunes (runes : List Char) (point : Int) : List Char :=
  if point ≤ 0 then '0' :: '.' :: (List.replicate (-point).toNat '0' ++ runes)
  else if runes.length ≤ point.toNat then runes ++ List.replicate (point.toNat - runes.length) '0'
  else runes.take point.toNat ++ '.' :: runes.drop point.toNat

def exponentRunes (exponent : Int) : List Char :=
  'e' :: (if exponent < 0 then '-' else '+') :: Nat.toDigits 10 exponent.natAbs

def scientificRunes (runes : List Char) (point : Int) : List Char :=
  runes.take 1 ++ (if runes.length ≤ 1 then [] else '.' :: runes.drop 1) ++ exponentRunes (point - 1)

def decimalRunes (scientific : Bool) (digits : Nat) (exponent : Int) : List Char :=
  let runes := Nat.toDigits 10 digits
  if scientific then scientificRunes runes (runes.length + exponent) else plainRunes runes (runes.length + exponent)

def signRunes (x : Rat) : List Char :=
  if x < 0 then ['-'] else []

def isScientific (x : Rat) : Bool :=
  |x| < 1 / 10 ^ 6 || 10 ^ 21 ≤ |x|

-- All the digits of a float64, whose last place is no less than 2^-1074.
def exactRunes (x : Rat) : List Char :=
  Nat.toDigits 10 (|x| * 10 ^ 1074).num.natAbs ++ ['e', '-', '1', '0', '7', '4']

-- Seventeen digits are enough for every float64, so the exact digits are never written.
def formatFloat64 (x : Rat) : String :=
  if x = 0 then "0"
  else
    let texts := ((List.range 17).flatMap fun n => shortDecimals |x| (n + 1)).filterMap fun (digits, exponent) =>
      if digits = 0 then none
      else some (String.ofList (signRunes x ++ decimalRunes (isScientific x) digits exponent))
    (texts.find? fun text => parseFloat64 text = some x).getD (String.ofList (signRunes x ++ exactRunes x))

example : ["9007199254740993", "-1.50e1", "1e21"].map (fun literal => (parseFloat64 literal).map formatFloat64) =
    [some "9007199254740992", some "-15", some "1e+21"] := by
  decide +kernel

variable {runes rest sign : List Char} {n : Nat} {x : Rat} {literal : String}

namespace Json

def DigitRunes (runes : List Char) : Prop :=
  ∀ c ∈ runes, isDigit c = true

def WholeRunes (runes : List Char) : Prop :=
  runes = ['0'] ∨ DigitRunes runes ∧ ∃ first rest, runes = first :: rest ∧ first ≠ '0'

def FractionRunes (runes : List Char) : Prop :=
  runes = [] ∨ ∃ tail, runes = '.' :: tail ∧ tail ≠ [] ∧ DigitRunes tail

def ExponentRunes (runes : List Char) : Prop :=
  runes = [] ∨ ∃ sign tail, runes = 'e' :: sign :: tail ∧ (sign = '+' ∨ sign = '-') ∧ tail ≠ [] ∧ DigitRunes tail

def Halts (rest : List Char) : Prop :=
  ∀ first tail, rest = first :: tail → isDigit first = false

theorem digits_append (all : DigitRunes runes) (halts : Halts rest) : digits (runes ++ rest) = (runes, rest) := by
  rw [digits, List.span_eq_takeWhile_dropWhile, List.takeWhile_append_of_pos all, List.dropWhile_append_of_pos all]
  cases rest with
  | nil => simp
  | cons first tail => simp [halts first tail rfl]

variable {whole fraction exponent : List Char}

theorem integerPart_append (runes : WholeRunes whole) (halts : Halts rest) :
    integerPart (whole ++ rest) = some (whole, rest) := by
  rcases runes with rfl | ⟨all, first, tail, rfl, nonzero⟩
  · rfl
  · rw [List.cons_append, integerPart, ← List.cons_append, digits_append all halts]
    simpa using nonzero

theorem fractionPart_append (runes : FractionRunes fraction) (halts : Halts rest) (point : ∀ tail, rest ≠ '.' :: tail) :
    fractionPart (fraction ++ rest) = some (fraction, rest) := by
  rcases runes with rfl | ⟨tail, rfl, nonempty, all⟩
  · rw [List.nil_append, fractionPart]
    simpa using point
  · obtain ⟨first, others, rfl⟩ := List.exists_cons_of_ne_nil nonempty
    rw [List.cons_append, fractionPart, digits_append all halts]

theorem Ends.halts (ends : Ends rest) : Halts rest := by
  intro first tail same
  cases ends <;> cases same <;> decide

theorem exponentPart_append (runes : ExponentRunes exponent) (ends : Ends rest) :
    exponentPart (exponent ++ rest) = some (exponent, rest) := by
  rcases runes with rfl | ⟨sign, tail, rfl, signed, nonempty, all⟩
  · cases ends <;> rfl
  · obtain ⟨first, others, rfl⟩ := List.exists_cons_of_ne_nil nonempty
    have read := digits_append all ends.halts
    rw [List.cons_append] at read
    rcases signed with rfl | rfl
    · simp [exponentPart, exponentSign, read]
    · simp [exponentPart, exponentSign, read]

theorem halts_exponent (runes : ExponentRunes exponent) (ends : Ends rest) :
    Halts (exponent ++ rest) ∧ ∀ tail, exponent ++ rest ≠ '.' :: tail := by
  rcases runes with rfl | ⟨sign, tail, rfl, -⟩
  · refine ⟨ends.halts, fun tail => ?_⟩
    cases ends <;> simp
  · constructor
    · rintro first tail ⟨⟩
      decide
    · simp

theorem halts_fraction (runes : FractionRunes fraction) (halts : Halts rest) : Halts (fraction ++ rest) := by
  rcases runes with rfl | ⟨tail, rfl, -⟩
  · exact halts
  · rintro first tail ⟨⟩
    decide

theorem WholeRunes.starts (runes : WholeRunes whole) : ∃ first rest, whole = first :: rest ∧ isDigit first = true := by
  rcases runes with rfl | ⟨all, first, rest, rfl, -⟩
  · exact ⟨'0', [], rfl, by decide⟩
  · exact ⟨first, rest, rfl, all first List.mem_cons_self⟩

theorem minusSign_append (rest : List Char) (signed : sign = [] ∨ sign = ['-']) (runes : WholeRunes whole) :
    minusSign (sign ++ (whole ++ rest)) = (sign, whole ++ rest) := by
  rcases signed with rfl | rfl
  · obtain ⟨first, tail, rfl, digit⟩ := runes.starts
    rw [List.nil_append, List.cons_append, minusSign]
    rintro others ⟨⟩
    cases digit
  · rfl

theorem numberText_parts (signed : sign = [] ∨ sign = ['-']) (wholes : WholeRunes whole)
    (fractions : FractionRunes fraction) (exponents : ExponentRunes exponent) :
    NumberText (sign ++ (whole ++ (fraction ++ exponent))) where
  reads rest ends := by
    obtain ⟨halts, point⟩ := halts_exponent exponents ends
    have minus := minusSign_append (fraction ++ (exponent ++ rest)) signed wholes
    simp only [parseNumber, List.append_assoc, minus, integerPart_append wholes (halts_fraction fractions halts),
      fractionPart_append fractions halts point, exponentPart_append exponents ends, Option.bind_eq_bind,
      Option.bind_some, Option.pure_def]
  starts := by
    obtain ⟨first, tail, rfl, digit⟩ := wholes.starts
    rcases signed with rfl | rfl
    · exact ⟨first, _, rfl, .inr digit⟩
    · exact ⟨'-', _, rfl, .inl rfl⟩

end Json

open Json

theorem isDigit_toDigits : DigitRunes (Nat.toDigits 10 n) := by
  intro c digit
  have char : c.isDigit = true := Nat.isDigit_of_mem_toDigits (by decide) (by decide) digit
  simpa [Char.isDigit, isDigit, Char.le_def] using char

theorem toDigits_head (pos : 0 < n) : ∃ first rest, Nat.toDigits 10 n = first :: rest ∧ first ≠ '0' := by
  induction n using Nat.strongRecOn with
  | ind n ih =>
    by_cases small : n < 10
    · refine ⟨n.digitChar, [], Nat.toDigits_of_lt_base small, ?_⟩
      have all : ∀ d ∈ List.range 10, 0 < d → d.digitChar ≠ '0' := by decide
      exact all n (List.mem_range.mpr small) pos
    · obtain ⟨first, rest, printed, nonzero⟩ := ih (n / 10) (by omega) (by omega)
      refine ⟨first, rest ++ [(n % 10).digitChar], ?_, nonzero⟩
      rw [Nat.toDigits_of_base_le (by decide) (by omega), printed, List.cons_append]

theorem wholeRunes_toDigits (n : Nat) : WholeRunes (Nat.toDigits 10 n) := by
  by_cases zero : n = 0
  · rw [zero]
    exact .inl (by decide)
  · exact .inr ⟨isDigit_toDigits, toDigits_head (Nat.pos_of_ne_zero zero)⟩

theorem digitRunes_zeros (n : Nat) : DigitRunes (List.replicate n '0') := by
  intro c zero
  rw [List.eq_of_mem_replicate zero]
  decide

theorem exponentRunes_exponent (exponent : Int) : ExponentRunes (exponentRunes exponent) := by
  refine .inr ⟨_, _, rfl, ?_, Nat.toDigits_ne_nil, isDigit_toDigits⟩
  split_ifs
  · exact .inr rfl
  · exact .inl rfl

section

variable (signed : sign = [] ∨ sign = ['-'])

include signed

theorem numberText_plainRunes (all : DigitRunes runes) (leads : ∃ first rest, runes = first :: rest ∧ first ≠ '0')
    (point : Int) :
    NumberText (sign ++ plainRunes runes point) := by
  obtain ⟨first, rest, rfl, nonzero⟩ := leads
  unfold plainRunes
  split_ifs with before within
  · -- 0.00123
    have fraction : FractionRunes ('.' :: (List.replicate (-point).toNat '0' ++ first :: rest)) := by
      refine .inr ⟨_, rfl, by simp, fun c mem => ?_⟩
      rcases List.mem_append.mp mem with zero | digit
      · exact digitRunes_zeros _ c zero
      · exact all c digit
    have text := numberText_parts signed (.inl rfl) fraction (.inl rfl)
    rwa [List.append_nil] at text
  · -- 12300
    have whole : WholeRunes (first :: rest ++ List.replicate (point.toNat - (first :: rest).length) '0') := by
      refine .inr ⟨fun c mem => ?_, first, _, List.cons_append .., nonzero⟩
      rcases List.mem_append.mp mem with digit | zero
      · exact all c digit
      · exact digitRunes_zeros _ c zero
    have text := numberText_parts signed whole (.inl rfl) (.inl rfl)
    rwa [List.append_nil, List.append_nil] at text
  · -- 1.23
    obtain ⟨n, split⟩ : ∃ n, point.toNat = n + 1 := ⟨point.toNat - 1, by omega⟩
    rw [split] at within ⊢
    have whole : WholeRunes ((first :: rest).take (n + 1)) :=
      .inr ⟨fun c mem => all c (List.mem_of_mem_take mem), first, rest.take n, rfl, nonzero⟩
    have fraction : FractionRunes ('.' :: (first :: rest).drop (n + 1)) := by
      refine .inr ⟨_, rfl, ?_, fun c mem => all c (List.mem_of_mem_drop mem)⟩
      rw [ne_eq, List.drop_eq_nil_iff]
      exact within
    have text := numberText_parts signed whole fraction (.inl rfl)
    rwa [List.append_nil] at text

theorem numberText_scientificRunes (all : DigitRunes runes)
    (leads : ∃ first rest, runes = first :: rest ∧ first ≠ '0') (point : Int) :
    NumberText (sign ++ scientificRunes runes point) := by
  obtain ⟨first, rest, rfl, nonzero⟩ := leads
  unfold scientificRunes
  rw [List.append_assoc]
  have lead : DigitRunes ((first :: rest).take 1) := fun c mem => all c (List.mem_of_mem_take mem)
  refine numberText_parts signed (.inr ⟨lead, first, [], rfl, nonzero⟩) ?_ (exponentRunes_exponent _)
  split_ifs with single
  · exact .inl rfl
  · refine .inr ⟨_, rfl, ?_, fun c mem => all c (List.mem_of_mem_drop mem)⟩
    rw [ne_eq, List.drop_eq_nil_iff]
    exact single

theorem numberText_decimalRunes (scientific : Bool) {digits : Nat} (pos : 0 < digits) (exponent : Int) :
    NumberText (sign ++ decimalRunes scientific digits exponent) := by
  unfold decimalRunes
  dsimp only
  split_ifs
  · exact numberText_scientificRunes signed isDigit_toDigits (toDigits_head pos) _
  · exact numberText_plainRunes signed isDigit_toDigits (toDigits_head pos) _

theorem numberText_exactRunes (x : Rat) : NumberText (sign ++ exactRunes x) := by
  have exponent : ExponentRunes ['e', '-', '1', '0', '7', '4'] :=
    .inr ⟨'-', ['1', '0', '7', '4'], rfl, .inr rfl, by decide, List.all_eq_true.mp (by decide)⟩
  exact numberText_parts signed (wholeRunes_toDigits _) (.inl rfl) exponent

end

theorem signRunes_sign (x : Rat) : signRunes x = [] ∨ signRunes x = ['-'] := by
  unfold signRunes
  split_ifs
  · exact .inr rfl
  · exact .inl rfl

theorem numberText_formatFloat64 (x : Rat) : NumberText (formatFloat64 x).toList := by
  unfold formatFloat64
  split_ifs with zero
  · exact numberText_parts (.inl rfl) (.inl rfl) (.inl rfl) (.inl rfl)
  · dsimp only
    generalize writing : List.filterMap _ _ = texts
    cases found : texts.find? fun text => decide (parseFloat64 text = some x) with
    | none =>
      rw [Option.getD_none, String.toList_ofList]
      exact numberText_exactRunes (signRunes_sign x) x
    | some text =>
      have written := List.mem_of_find?_eq_some found
      rw [← writing, List.mem_filterMap] at written
      obtain ⟨⟨digits, exponent⟩, -, rendered⟩ := written
      by_cases none : digits = 0
      · simp [none] at rendered
      · simp only [none, if_false, Option.some.injEq] at rendered
        rw [Option.getD_some, ← rendered, String.toList_ofList]
        exact numberText_decimalRunes (signRunes_sign x) _ (Nat.pos_of_ne_zero none) exponent

theorem natOfDigits_toDigits (n : Nat) : natOfDigits (Nat.toDigits 10 n) = n := by
  have read : Nat.ofDigitChars 10 (Nat.toDigits 10 n) 0 = n := Nat.ofDigitChars_toDigits (by decide) (by decide)
  simpa [natOfDigits, Nat.ofDigitChars, Nat.mul_comm] using read

theorem span_digits (all : DigitRunes runes) {inside : Char → Bool} (kept : ∀ c, isDigit c = true → inside c = true)
    (halts : rest.head?.all (fun c => !inside c) = true) : (runes ++ rest).span inside = (runes, rest) := by
  have passed : ∀ c ∈ runes, inside c = true := fun c mem => kept c (all c mem)
  rw [List.span_eq_takeWhile_dropWhile, List.takeWhile_append_of_pos passed, List.dropWhile_append_of_pos passed]
  cases rest with
  | nil => simp
  | cons first tail =>
    have stops : inside first = false := by simpa using halts
    simp [stops]

theorem decimalOfLiteral_exact (signed : sign = [] ∨ sign = ['-']) (digits : Nat) :
    decimalOfLiteral (String.ofList (sign ++ (Nat.toDigits 10 digits ++ ['e', '-', '1', '0', '7', '4']))) =
      ⟨!sign.isEmpty, digits, -1074⟩ := by
  have all : DigitRunes (Nat.toDigits 10 digits) := isDigit_toDigits
  have minus := minusSign_append ['e', '-', '1', '0', '7', '4'] signed (wholeRunes_toDigits digits)
  have mantissa : (Nat.toDigits 10 digits ++ ['e', '-', '1', '0', '7', '4']).span (fun c => !(c == 'e' || c == 'E')) =
      (Nat.toDigits 10 digits, ['e', '-', '1', '0', '7', '4']) := by
    refine span_digits all (fun c digit => ?_) (by decide)
    by_contra letter
    simp only [Bool.not_eq_true', Bool.not_eq_false, Bool.or_eq_true, beq_iff_eq] at letter
    rcases letter with rfl | rfl <;> cases digit
  have whole : (Nat.toDigits 10 digits ++ []).span (fun c => !(c == '.')) = (Nat.toDigits 10 digits, []) := by
    refine span_digits all (fun c digit => ?_) (by decide)
    by_contra point
    simp only [Bool.not_eq_true', Bool.not_eq_false, beq_iff_eq] at point
    subst point
    cases digit
  rw [List.append_nil] at whole
  simp only [decimalOfLiteral, String.toList_ofList, minus, mantissa, whole, List.drop_nil, List.append_nil,
    natOfDigits_toDigits]
  rfl

theorem Representable.nonneg (fits : Representable x) : 0 ≤ x := by
  obtain ⟨whole, place, -, -, rfl⟩ := fits
  positivity

theorem Representable.digits (fits : Representable x) :
    ((x * 10 ^ 1074).num.natAbs : Rat) / (10 ^ 1074 : Nat) = x := by
  obtain ⟨whole, place, -, least, rfl⟩ := fits
  obtain ⟨k, exponent⟩ := Int.eq_ofNat_of_zero_le (show 0 ≤ place + 1074 by omega)
  have scaled : (whole : Rat) * 2 ^ place * 10 ^ 1074 = ((whole * 2 ^ k * 5 ^ 1074 : Nat) : Rat) := by
    have power : (2 : Rat) ^ place * 2 ^ (1074 : Nat) = 2 ^ k := by
      rw [← zpow_natCast, ← zpow_natCast, ← zpow_add₀ (by norm_num)]
      exact congrArg _ exponent
    have ten : (10 : Rat) ^ 1074 = 2 ^ 1074 * 5 ^ 1074 := by
      rw [← mul_pow]
      norm_num
    have regroup (a b c d : Rat) : a * b * (c * d) = a * (b * c) * d := by ring
    rw [ten, regroup, power]
    simp only [Nat.cast_mul, Nat.cast_pow, Nat.cast_ofNat]
  have nonzero : ((10 ^ 1074 : Nat) : Rat) ≠ 0 := by positivity
  rw [div_eq_iff nonzero, scaled, Rat.num_natCast, Int.natAbs_natCast, ← scaled]
  simp only [Nat.cast_pow, Nat.cast_ofNat]

theorem parseFloat64_representable (read : parseFloat64 literal = some x) : Representable |x| ∧ |x| < 2 ^ 1024 := by
  unfold parseFloat64 at read
  dsimp only at read
  generalize decimalOfLiteral literal = decimal at read
  have fits : Representable (if 0 ≤ decimal.exponent then
      nearestFloat64 (decimal.digits * 10 ^ decimal.exponent.toNat) 1
      else nearestFloat64 decimal.digits (10 ^ (-decimal.exponent).toNat)) := by
    split_ifs
    · exact representable_nearestFloat64 _ one_pos
    · exact representable_nearestFloat64 _ (by positivity)
  generalize (if 0 ≤ decimal.exponent then nearestFloat64 (decimal.digits * 10 ^ decimal.exponent.toNat) 1
    else nearestFloat64 decimal.digits (10 ^ (-decimal.exponent).toNat)) = magnitude at read fits
  have same : |magnitude| = magnitude := abs_of_nonneg fits.nonneg
  split_ifs at read with bounded negative
  · cases read
    rw [abs_neg, same]
    exact ⟨fits, bounded⟩
  · cases read
    rw [same]
    exact ⟨fits, bounded⟩

theorem parseFloat64_exact (fits : Representable |x|) (bounded : |x| < 2 ^ 1024) :
    parseFloat64 (String.ofList (signRunes x ++ exactRunes x)) = some x := by
  have digits := fits.digits
  have nearest : nearestFloat64 (|x| * 10 ^ 1074).num.natAbs (10 ^ 1074) = |x| := by
    rw [nearestFloat64_representable (by positivity) (digits.symm ▸ fits), digits]
  have negative : (!(signRunes x).isEmpty) = decide (x < 0) := by
    unfold signRunes
    split_ifs with below <;> simp [below]
  unfold parseFloat64 exactRunes
  rw [decimalOfLiteral_exact (signRunes_sign x), negative]
  simp only [decide_eq_true_eq]
  rw [if_neg (show ¬ (0 : Int) ≤ -1074 by decide), show (-(-1074 : Int)).toNat = 1074 by decide, nearest,
    if_pos bounded]
  split_ifs with below
  · rw [abs_of_neg below, neg_neg]
  · rw [abs_of_nonneg (not_lt.mp below)]

theorem parseFloat64_formatFloat64 (read : parseFloat64 literal = some x) :
    parseFloat64 (formatFloat64 x) = some x := by
  unfold formatFloat64
  split_ifs with zero
  · rw [zero]
    decide +kernel
  · dsimp only
    generalize List.filterMap _ _ = texts
    cases found : texts.find? fun text => decide (parseFloat64 text = some x) with
    | none =>
      obtain ⟨fits, bounded⟩ := parseFloat64_representable read
      exact parseFloat64_exact fits bounded
    | some text =>
      have same := List.find?_some found
      exact of_decide_eq_true same

end McpGateway.Shared
