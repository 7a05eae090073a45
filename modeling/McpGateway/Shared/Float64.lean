import McpGateway.Shared.Json

namespace McpGateway.Shared

-- strconv.ParseFloat on a JSON number literal: the nearest binary64 value, ties to even.

def natOfDigits (runes : List Char) : Nat :=
  runes.foldl (fun total c => total * 10 + (c.toNat - '0'.toNat)) 0

def intOfDigits : List Char → Int
  | '-' :: runes => -(natOfDigits runes : Int)
  | '+' :: runes => natOfDigits runes
  | runes => natOfDigits runes

structure Decimal where
  negative : Bool
  digits : Nat
  exponent : Int

def decimalOfLiteral (literal : String) : Decimal :=
  let (sign, runes) := Json.minusSign literal.toList
  let (mantissa, exponent) := runes.span fun c => !(c == 'e' || c == 'E')
  let (whole, fraction) := mantissa.span fun c => !(c == '.')
  { negative := !sign.isEmpty
    digits := natOfDigits (whole ++ fraction.drop 1)
    exponent := intOfDigits (exponent.drop 1) - (fraction.drop 1).length }

def roundHalfEven (num den : Nat) : Nat :=
  let quotient := num / den
  let twice := 2 * (num % den)
  if den < twice || (den = twice && quotient % 2 = 1) then quotient + 1 else quotient

def shift (num den : Nat) (exponent : Int) : Nat × Nat :=
  if 0 ≤ exponent then (num, den * 2 ^ exponent.toNat) else (num * 2 ^ (-exponent).toNat, den)

-- The exponent of the last place of a positive num/den, subnormals included.
def lastPlace (num den : Nat) : Int :=
  let guess : Int := (num.log2 : Int) - den.log2
  let (scaled, unit) := shift num den guess
  let leading := if scaled < unit then guess - 1 else guess
  max (leading - 52) (-1074)

def nearestFloat64 (num den : Nat) : Rat :=
  if num = 0 then 0
  else
    let place := lastPlace num den
    let (scaled, unit) := shift num den place
    let rounded := roundHalfEven scaled unit
    if 0 ≤ place then (rounded * 2 ^ place.toNat : Nat) else mkRat rounded (2 ^ (-place).toNat)

def roundFloat64 (q : Rat) : Rat :=
  if q < 0 then -nearestFloat64 q.num.natAbs q.den else nearestFloat64 q.num.natAbs q.den

def parseFloat64 (literal : String) : Option Rat :=
  let decimal := decimalOfLiteral literal
  let magnitude :=
    if 0 ≤ decimal.exponent then nearestFloat64 (decimal.digits * 10 ^ decimal.exponent.toNat) 1
    else nearestFloat64 decimal.digits (10 ^ (-decimal.exponent).toNat)
  if magnitude < 2 ^ 1024 then some (if decimal.negative then -magnitude else magnitude) else none

end McpGateway.Shared
