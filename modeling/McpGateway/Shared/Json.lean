import McpGateway.Shared.GoStrings

namespace McpGateway.Shared

-- A JSON text as encoding/json scans it: members keep their order and repetitions, numbers their spelling.
inductive Json where
  | null
  | bool (value : Bool)
  | number (literal : String)
  | string (value : String)
  | array (items : List Json)
  | object (members : List (String × Json))

namespace Json

mutual

def same : Json → Json → Bool
  | .null, .null => true
  | .bool left, .bool right => left == right
  | .number left, .number right => left == right
  | .string left, .string right => left == right
  | .array left, .array right => sameItems left right
  | .object left, .object right => sameMembers left right
  | _, _ => false

def sameItems : List Json → List Json → Bool
  | [], [] => true
  | left :: lefts, right :: rights => same left right && sameItems lefts rights
  | _, _ => false

def sameMembers : List (String × Json) → List (String × Json) → Bool
  | [], [] => true
  | (key, left) :: lefts, (other, right) :: rights => key == other && same left right && sameMembers lefts rights
  | _, _ => false

end

mutual

theorem same_iff : (left right : Json) → (same left right = true ↔ left = right)
  | .null, right => by cases right <;> simp [same]
  | .bool _, right => by cases right <;> simp [same]
  | .number _, right => by cases right <;> simp [same]
  | .string _, right => by cases right <;> simp [same]
  | .array left, right => by cases right <;> simp [same, sameItems_iff left]
  | .object left, right => by cases right <;> simp [same, sameMembers_iff left]

theorem sameItems_iff : (left right : List Json) → (sameItems left right = true ↔ left = right)
  | [], right => by cases right <;> simp [sameItems]
  | item :: rest, right => by cases right <;> simp [sameItems, same_iff item, sameItems_iff rest]

theorem sameMembers_iff : (left right : List (String × Json)) → (sameMembers left right = true ↔ left = right)
  | [], right => by cases right <;> simp [sameMembers]
  | (key, value) :: rest, right => by
    cases right with
    | nil => simp [sameMembers]
    | cons mem others => simp [sameMembers, same_iff value, sameMembers_iff rest, Prod.ext_iff]

end

instance : DecidableEq Json := fun left right => decidable_of_iff _ (same_iff left right)

def isBlank (c : Char) : Bool :=
  c == ' ' || c == '\t' || c == '\n' || c == '\r'

def skipBlanks (runes : List Char) : List Char :=
  runes.dropWhile isBlank

def hexValue (c : Char) : Option Nat :=
  if '0' ≤ c && c ≤ '9' then some (c.toNat - '0'.toNat)
  else if 'a' ≤ c && c ≤ 'f' then some (c.toNat - 'a'.toNat + 10)
  else if 'A' ≤ c && c ≤ 'F' then some (c.toNat - 'A'.toNat + 10)
  else none

def codeUnit (a b c d : Char) : Option Nat := do
  let a ← hexValue a
  let b ← hexValue b
  let c ← hexValue c
  let d ← hexValue d
  return ((a * 16 + b) * 16 + c) * 16 + d

def simpleEscape : Char → Option Char
  | '"' => some '"'
  | '\\' => some '\\'
  | '/' => some '/'
  | 'b' => some '\x08'
  | 'f' => some '\x0c'
  | 'n' => some '\n'
  | 'r' => some '\r'
  | 't' => some '\t'
  | _ => none

-- The characters of a string up to its closing quote; `\u` escapes stay UTF-16 code units.
def stringUnits : List Char → Option (List (Nat ⊕ Char) × List Char)
  | [] => none
  | '"' :: rest => some ([], rest)
  | '\\' :: 'u' :: a :: b :: c :: d :: rest => do
    let unit ← codeUnit a b c d
    let (units, rest) ← stringUnits rest
    return (.inl unit :: units, rest)
  | '\\' :: escaped :: rest => do
    let c ← simpleEscape escaped
    let (units, rest) ← stringUnits rest
    return (.inr c :: units, rest)
  | c :: rest =>
    if c.toNat < 0x20 || c == '\\' then none
    else do
      let (units, rest) ← stringUnits rest
      return (.inr c :: units, rest)

def isHighSurrogate (unit : Nat) : Bool := 0xD800 ≤ unit && unit ≤ 0xDBFF

def isLowSurrogate (unit : Nat) : Bool := 0xDC00 ≤ unit && unit ≤ 0xDFFF

def joinUnits : List (Nat ⊕ Char) → List Char
  | [] => []
  | .inr c :: rest => c :: joinUnits rest
  | .inl high :: .inl low :: rest =>
    if isHighSurrogate high && isLowSurrogate low then
      Char.ofNat (0x10000 + (high - 0xD800) * 0x400 + (low - 0xDC00)) :: joinUnits rest
    else
      (if isHighSurrogate high || isLowSurrogate high then '�' else Char.ofNat high) :: joinUnits (.inl low :: rest)
  | .inl unit :: rest =>
    (if isHighSurrogate unit || isLowSurrogate unit then '�' else Char.ofNat unit) :: joinUnits rest

def parseString (runes : List Char) : Option (String × List Char) :=
  (stringUnits runes).map fun (units, rest) => (String.ofList (joinUnits units), rest)

def isDigit (c : Char) : Bool := '0' ≤ c && c ≤ '9'

def digits (runes : List Char) : List Char × List Char :=
  runes.span isDigit

def integerPart : List Char → Option (List Char × List Char)
  | '0' :: rest => some (['0'], rest)
  | runes =>
    match digits runes with
    | ([], _) => none
    | (head, rest) => some (head, rest)

def fractionPart : List Char → Option (List Char × List Char)
  | '.' :: runes =>
    match digits runes with
    | ([], _) => none
    | (tail, rest) => some ('.' :: tail, rest)
  | runes => some ([], runes)

def exponentSign : List Char → List Char × List Char
  | '+' :: rest => (['+'], rest)
  | '-' :: rest => (['-'], rest)
  | rest => ([], rest)

def exponentPart : List Char → Option (List Char × List Char)
  | c :: runes =>
    if c == 'e' || c == 'E' then
      let (sign, runes) := exponentSign runes
      match digits runes with
      | ([], _) => none
      | (tail, rest) => some (c :: sign ++ tail, rest)
    else some ([], c :: runes)
  | [] => some ([], [])

def minusSign : List Char → List Char × List Char
  | '-' :: rest => (['-'], rest)
  | rest => ([], rest)

def parseNumber (runes : List Char) : Option (Json × List Char) := do
  let (sign, runes) := minusSign runes
  let (whole, runes) ← integerPart runes
  let (fraction, runes) ← fractionPart runes
  let (exponent, rest) ← exponentPart runes
  return (.number (String.ofList (sign ++ whole ++ fraction ++ exponent)), rest)

-- `depth` is how many more arrays and objects may be opened; the recursion is on the first argument.
mutual

def parseValue : Nat → Nat → List Char → Option (Json × List Char)
  | 0, _, _ => none
  | fuel + 1, depth, runes =>
    match runes with
    | 'n' :: 'u' :: 'l' :: 'l' :: rest => some (.null, rest)
    | 't' :: 'r' :: 'u' :: 'e' :: rest => some (.bool true, rest)
    | 'f' :: 'a' :: 'l' :: 's' :: 'e' :: rest => some (.bool false, rest)
    | '"' :: rest => (parseString rest).map fun (s, rest) => (.string s, rest)
    | '[' :: rest =>
      if depth = 0 then none
      else
        match skipBlanks rest with
        | ']' :: rest => some (.array [], rest)
        | rest => (parseItems fuel (depth - 1) rest).map fun (items, rest) => (.array items, rest)
    | '\x7b' :: rest =>
      if depth = 0 then none
      else
        match skipBlanks rest with
        | '\x7d' :: rest => some (.object [], rest)
        | rest => (parseMembers fuel (depth - 1) rest).map fun (members, rest) => (.object members, rest)
    | _ => parseNumber runes

def parseItems : Nat → Nat → List Char → Option (List Json × List Char)
  | 0, _, _ => none
  | fuel + 1, depth, runes => do
    let (item, rest) ← parseValue fuel depth runes
    match skipBlanks rest with
    | ',' :: rest => do
      let (items, rest) ← parseItems fuel depth (skipBlanks rest)
      return (item :: items, rest)
    | ']' :: rest => return ([item], rest)
    | _ => none

def parseMembers : Nat → Nat → List Char → Option (List (String × Json) × List Char)
  | 0, _, _ => none
  | fuel + 1, depth, runes =>
    match runes with
    | '"' :: rest => do
      let (key, rest) ← parseString rest
      match skipBlanks rest with
      | ':' :: rest => do
        let (value, rest) ← parseValue fuel depth (skipBlanks rest)
        match skipBlanks rest with
        | ',' :: rest => do
          let (members, rest) ← parseMembers fuel depth (skipBlanks rest)
          return ((key, value) :: members, rest)
        | '\x7d' :: rest => return ([(key, value)], rest)
        | _ => none
      | _ => none
    | _ => none

end

def maxNestingDepth : Nat := 10000

def parse (text : String) : Option Json := do
  let runes := text.toList
  let (value, rest) ← parseValue (2 * runes.length + 2) maxNestingDepth (skipBlanks runes)
  if skipBlanks rest = [] then return value else none

end Json

end McpGateway.Shared
