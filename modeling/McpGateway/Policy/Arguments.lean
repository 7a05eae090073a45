import McpGateway.Shared.GoJson

namespace McpGateway.Policy

open Shared

inductive ViolationType where
  | denylist | dangerousPattern | schemaViolation | allowlist | destructive

inductive ViolationSeverity where
  | low | medium | high | critical

structure Violation where
  type : ViolationType
  detail : String
  severity : ViolationSeverity

-- A compiled pattern is its source text and the strings it finds a match in.
structure Pattern where
  source : String
  matchString : String → Bool

mutual

def collectStrings : Value → List String
  | .string value => [value]
  | .array items => collectItems items
  | .object entries => collectEntries entries
  | _ => []

def collectItems : List Value → List String
  | [] => []
  | item :: items => collectStrings item ++ collectItems items

def collectEntries : Object → List String
  | [] => []
  | (_, value) :: entries => collectStrings value ++ collectEntries entries

end

def dangerousViolation (pattern : Pattern) : Violation :=
  ⟨.dangerousPattern, "dangerous pattern matched: " ++ pattern.source, .critical⟩

def checkDangerous (args : Object) (patterns : List Pattern) : List Violation :=
  (collectEntries args).flatMap fun value => (patterns.filter (·.matchString value)).map dangerousViolation

def schemaViolation (detail : String) : Violation :=
  ⟨.schemaViolation, detail, .medium⟩

def requiredNames : List Value → List String
  | [] => []
  | .string field :: rest => if trimSpace field = "" then requiredNames rest else trimSpace field :: requiredNames rest
  | _ :: rest => requiredNames rest

def validateRequired (args : Object) (required : Option Value) : List Violation :=
  match required with
  | some (.array items) =>
    ((requiredNames items).filter fun name => (args.lookup name).isNone).map fun name =>
      schemaViolation ("missing required argument: " ++ name)
  | _ => []

def matchesJSONType (value : Value) (expectedType : String) : Bool :=
  match trimSpace expectedType, value with
  | "string", .string _ => true
  | "string", _ => false
  | "boolean", .bool _ => true
  | "boolean", _ => false
  | "number", .number _ => true
  | "number", _ => false
  | "integer", .number value => value.den == 1
  | "integer", _ => false
  | "object", .object _ => true
  | "object", _ => false
  | "array", .array _ => true
  | "array", _ => false
  | _, _ => true

-- On decoded values the numeric and string comparisons find nothing that DeepEqual does not.
def valueInEnum (value : Value) (enumValues : List Value) : Bool :=
  enumValues.any fun candidate =>
    deepEqual value candidate ||
      match value, candidate with
      | .number left, .number right => left == right
      | .string left, .string right => left == right
      | _, _ => false

def validateType (name : String) (value : Value) (expected : Option Value) : List Violation :=
  match expected with
  | some (.string expectedType) =>
    if matchesJSONType value expectedType then []
    else [schemaViolation ("argument " ++ name ++ " has wrong type, expected " ++ expectedType)]
  | _ => []

def validateEnum (name : String) (value : Value) (enum : Option Value) : List Violation :=
  match enum with
  | some (.array enumValues) =>
    if enumValues = [] ∨ valueInEnum value enumValues then []
    else [schemaViolation ("argument " ++ name ++ " is not in enum")]
  | _ => []

def validateProperties (args : Object) (properties : Option Value) : List Violation :=
  match properties with
  | some (.object properties) =>
    args.flatMap fun (name, value) =>
      match properties.lookup name with
      | some (.object prop) =>
        validateType name value (prop.lookup "type") ++ validateEnum name value (prop.lookup "enum")
      | _ => []
  | _ => []

-- `schema` is the raw message of the request; it is absent, or a JSON text of its own.
def validateArguments (args : Object) (schema : Option Json) : List Violation :=
  match schema with
  | none => []
  | some schema =>
    match decodeMap [] schema with
    | .error cause => [schemaViolation ("invalid schema: " ++ cause)]
    | .ok raw => validateRequired args (raw.lookup "required") ++ validateProperties args (raw.lookup "properties")

end McpGateway.Policy
