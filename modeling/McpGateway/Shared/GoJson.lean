import McpGateway.Shared.Float64

namespace McpGateway.Shared

inductive Value where
  | null
  | bool (value : Bool)
  | number (value : Rat)
  | string (value : String)
  | array (items : List Value)
  | object (entries : List (String × Value))

abbrev Object := List (String × Value)

def assign (entries : Object) (key : String) (value : Value) : Object :=
  (key, value) :: entries.filter fun entry => entry.1 ≠ key

def Json.kind : Json → String
  | .null => "null"
  | .bool _ => "bool"
  | .number _ => "number"
  | .string _ => "string"
  | .array _ => "array"
  | .object _ => "object"

def cannotUnmarshal (value goType : String) : String :=
  "json: cannot unmarshal " ++ value ++ " into Go value of type " ++ goType

def decodeNumber (literal : String) : Except String Value :=
  match parseFloat64 literal with
  | some value => .ok (.number value)
  | none => .error (cannotUnmarshal ("number " ++ literal) "float64")

-- Decoding goes on after a number out of range, but the call returns the first error.
mutual

def decodeAny : Json → Except String Value
  | .null => .ok .null
  | .bool value => .ok (.bool value)
  | .number literal => decodeNumber literal
  | .string value => .ok (.string value)
  | .array items => (decodeItems items).map .array
  | .object members => (decodeMembers [] members).map .object

def decodeItems : List Json → Except String (List Value)
  | [] => .ok []
  | item :: items => do
    let value ← decodeAny item
    let values ← decodeItems items
    return value :: values

-- A map that is already there keeps the keys the object does not repeat.
def decodeMembers (entries : Object) : List (String × Json) → Except String Object
  | [] => .ok entries
  | (key, mem) :: members => do
    let value ← decodeAny mem
    decodeMembers (assign entries key value) members

end

-- Unmarshal into a map[string]any that holds `entries`; null clears the map.
def decodeMap (entries : Object) : Json → Except String Object
  | .null => .ok []
  | .object members => decodeMembers entries members
  | json => .error (cannotUnmarshal json.kind "map[string]interface \x7b\x7d")

mutual

-- reflect.DeepEqual on decoded values; the order of an object's entries does not count.
def deepEqual : Value → Value → Bool
  | .null, .null => true
  | .bool left, .bool right => left == right
  | .number left, .number right => left == right
  | .string left, .string right => left == right
  | .array left, .array right => itemsEqual left right
  | .object left, .object right => left.length == right.length && entriesWithin right left
  | _, _ => false

def itemsEqual : List Value → List Value → Bool
  | [], [] => true
  | left :: lefts, right :: rights => deepEqual left right && itemsEqual lefts rights
  | _, _ => false

def entriesWithin (others : Object) : Object → Bool
  | [] => true
  | (key, value) :: rest =>
    match others.lookup key with
    | some other => deepEqual value other && entriesWithin others rest
    | none => false

end

theorem lookup_assign (entries : Object) (key other : String) (value : Value) :
    (assign entries key value).lookup other = if other = key then some value else entries.lookup other := by
  by_cases same : other = key
  · simp [assign, same]
  · have kept : (entries.filter fun entry => entry.1 ≠ key).lookup other = entries.lookup other := by
      induction entries with
      | nil => rfl
      | cons entry rest ih =>
        obtain ⟨first, held⟩ := entry
        by_cases dropped : first = key
        · have skipped : (other == first) = false := by simpa [dropped] using same
          rw [List.filter_cons_of_neg (by simpa using dropped), ih, List.lookup_cons, skipped]
        · rw [List.filter_cons_of_pos (by simpa using dropped), List.lookup_cons, List.lookup_cons, ih]
    have skipped : (other == key) = false := by simpa using same
    rw [assign, List.lookup_cons, skipped, if_neg same, kept]

def Json.isObject : Json → Bool
  | .object _ => true
  | _ => false

def Json.keys : Json → List String
  | .object members => members.map Prod.fst
  | _ => []

@[simp] theorem Json.isObject_null : Json.null.isObject = false := rfl

variable (members : List (String × Json))

@[simp] theorem Json.isObject_object : (Json.object members).isObject = true := rfl

@[simp] theorem Json.keys_object : (Json.object members).keys = members.map Prod.fst := rfl

theorem decodeMembers_assigns {start fresh : Object} {members : List (String × Json)}
    (decoded : decodeMembers start members = .ok fresh) :
    ∃ assigned : Object, (∀ key, (assigned.lookup key).isSome ↔ key ∈ members.map Prod.fst) ∧
      ∀ entries, ∃ merged, decodeMembers entries members = .ok merged ∧
        ∀ key, merged.lookup key = (assigned.lookup key).or (entries.lookup key) := by
  induction members generalizing start with
  | nil => exact ⟨[], by simp, fun entries => ⟨entries, by rw [decodeMembers], fun key => rfl⟩⟩
  | cons mem members ih =>
    obtain ⟨name, json⟩ := mem
    rw [decodeMembers] at decoded
    cases read : decodeAny json with
    | error error =>
      rw [read] at decoded
      cases decoded
    | ok value =>
      rw [read] at decoded
      obtain ⟨assigned, keys, merges⟩ := ih decoded
      refine ⟨assigned ++ assign [] name value, fun key => ?_, fun entries => ?_⟩
      · rw [List.lookup_append, lookup_assign, Option.isSome_or, Bool.or_eq_true, keys, List.map_cons, List.mem_cons]
        split_ifs with same
        · simp [same]
        · simp [same]
      · obtain ⟨merged, rest, found⟩ := merges (assign entries name value)
        refine ⟨merged, by rw [decodeMembers, read]; exact rest, fun key => ?_⟩
        rw [found, lookup_assign, List.lookup_append, lookup_assign, Option.or_assoc]
        split_ifs
        · rfl
        · rfl

-- json.Marshal escapes what HTML would read as markup, too.
def marshalRune (c : Char) : List Char :=
  if c == '"' then ['\\', '"']
  else if c == '\\' then ['\\', '\\']
  else if c == '\x08' then ['\\', 'b']
  else if c == '\x0c' then ['\\', 'f']
  else if c == '\n' then ['\\', 'n']
  else if c == '\r' then ['\\', 'r']
  else if c == '\t' then ['\\', 't']
  else if c.toNat < 0x20 || c == '<' || c == '>' || c == '&' then
    ['\\', 'u', '0', '0', hexRune (c.toNat / 16), hexRune (c.toNat % 16)]
  else if c.toNat == 0x2028 || c.toNat == 0x2029 then ['\\', 'u', '2', '0', '2', hexRune (c.toNat % 16)]
  else [c]

def marshalString (s : String) : String :=
  String.ofList (['"'] ++ s.toList.flatMap marshalRune ++ ['"'])

-- A slice that was never appended to is nil, and nil is written as null.
def marshalStrings (names : List String) : String :=
  if names.isEmpty then "null" else "[" ++ ",".intercalate (names.map marshalString) ++ "]"

-- The names a Go struct field answers to: an exact tag wins, otherwise case is folded.
def matchesField (key tag : String) : Bool :=
  equalFold key tag

end McpGateway.Shared
