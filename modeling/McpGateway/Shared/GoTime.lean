import McpGateway.Shared.Float64

namespace McpGateway.Shared

-- strconv.Atoi: a decimal int64, with an optional sign.
def atoi (s : String) : Option Int :=
  let unsigned := match s.toList with
    | '-' :: runes => runes
    | '+' :: runes => runes
    | runes => runes
  let value := intOfDigits s.toList
  if unsigned ≠ [] ∧ unsigned.all Json.isDigit ∧ -2 ^ 63 ≤ value ∧ value < 2 ^ 63 then some value else none

-- time.quote: ASCII as it is, every other byte in hexadecimal.
def timeQuoteRune (c : Char) : List Char :=
  if 0x80 ≤ c.toNat ∨ c.toNat < 0x20 then
    (String.utf8EncodeChar c).flatMap fun byte => ['\\', 'x', hexRune (byte.toNat / 16), hexRune (byte.toNat % 16)]
  else if c = '"' ∨ c = '\\' then ['\\', c]
  else [c]

def timeQuote (s : String) : String :=
  String.ofList (['"'] ++ s.toList.flatMap timeQuoteRune ++ ['"'])

def durationUnit : String → Option Nat
  | "ns" => some 1
  | "us" => some 1000
  | "µs" => some 1000
  | "μs" => some 1000
  | "ms" => some 1000000
  | "s" => some 1000000000
  | "m" => some 60000000000
  | "h" => some 3600000000000
  | _ => none

-- leadingInt, which refuses numbers above 2^63.
def leadingInt (value : Nat) : List Char → Option (Nat × List Char)
  | [] => some (value, [])
  | c :: rest =>
    if Json.isDigit c then
      if 2 ^ 63 / 10 < value ∨ 2 ^ 63 < value * 10 + natOfDigits [c] then none
      else leadingInt (value * 10 + natOfDigits [c]) rest
    else some (value, c :: rest)

-- leadingFraction: digits that would overflow are read and left out.
def leadingFraction (value scale : Nat) (overflow : Bool) : List Char → Nat × Nat × List Char
  | [] => (value, scale, [])
  | c :: rest =>
    if Json.isDigit c then
      if overflow ∨ (2 ^ 63 - 1) / 10 < value ∨ 2 ^ 63 < value * 10 + natOfDigits [c] then
        leadingFraction value scale true rest
      else leadingFraction (value * 10 + natOfDigits [c]) (scale * 10) false rest
    else (value, scale, c :: rest)

-- uint64(float64(value) * (float64(unit) / scale)), rounded after each operation.
def fractionOfUnit (value unit scale : Nat) : Nat :=
  let quotient := nearestFloat64 unit scale
  let factor := nearestFloat64 value 1
  let product := factor * quotient
  (nearestFloat64 product.num.toNat product.den).floor.toNat

def invalidDuration (text : String) : String :=
  "time: invalid duration " ++ timeQuote text

def durationPart (text : String) (runes : List Char) : Except String (Nat × List Char) :=
  match leadingInt 0 runes with
  | none => .error (invalidDuration text)
  | some (whole, behind) =>
    let fraction := match behind with
      | '.' :: rest => leadingFraction 0 1 false rest
      | _ => (0, 1, behind)
    let digitsRead := behind.length < runes.length ∨ fraction.2.2.length + 1 < behind.length
    let unitRunes := fraction.2.2.takeWhile fun c => !(c == '.' || Json.isDigit c)
    if ¬ digitsRead then .error (invalidDuration text)
    else if unitRunes = [] then .error ("time: missing unit in duration " ++ timeQuote text)
    else
      match durationUnit (String.ofList unitRunes) with
      | none =>
        .error ("time: unknown unit " ++ timeQuote (String.ofList unitRunes) ++ " in duration " ++ timeQuote text)
      | some unit =>
        let value := whole * unit + if 0 < fraction.1 then fractionOfUnit fraction.1 unit fraction.2.1 else 0
        if 2 ^ 63 / unit < whole ∨ 2 ^ 63 < value then .error (invalidDuration text)
        else .ok (value, fraction.2.2.drop unitRunes.length)

-- The loop of ParseDuration; every part takes at least its unit, so `fuel` is the number of runes.
def durationParts (text : String) : Nat → Nat → List Char → Except String Nat
  | _, total, [] => .ok total
  | 0, _, _ => .error (invalidDuration text)
  | fuel + 1, total, c :: rest =>
    if c = '.' ∨ Json.isDigit c then
      match durationPart text (c :: rest) with
      | .error error => .error error
      | .ok (value, behind) =>
        -- The sum is a uint64.
        if 2 ^ 63 < (total + value) % 2 ^ 64 then .error (invalidDuration text)
        else durationParts text fuel ((total + value) % 2 ^ 64) behind
    else .error (invalidDuration text)

def parseDuration (text : String) : Except String Int :=
  let negative := match text.toList with
    | '-' :: _ => true
    | _ => false
  let runes := match text.toList with
    | '-' :: rest => rest
    | '+' :: rest => rest
    | rest => rest
  if runes = ['0'] then .ok 0
  else if runes = [] then .error (invalidDuration text)
  else
    match durationParts text runes.length 0 runes with
    | .error error => .error error
    | .ok total =>
      if negative then .ok (-(total : Int))
      else if 2 ^ 63 - 1 < total then .error (invalidDuration text)
      else .ok total

end McpGateway.Shared
