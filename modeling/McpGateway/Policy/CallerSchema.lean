import McpGateway.Policy.Middleware
import McpGateway.Proxy.Aggregation

namespace McpGateway.Policy

open Shared Proxy

def isSchemaField (key : String) : Bool :=
  matchesField key "schema" || matchesField key "input_schema"

def withoutSchemaFields (params : List (String × Json)) : List (String × Json) :=
  params.filter fun mem => !isSchemaField mem.1

def dropSchemaFields : Json → Json
  | .object params => .object (withoutSchemaFields params)
  | json => json

def withoutSchemas : Json → Json
  | .object members => .object (members.map fun mem =>
      (mem.1, if matchesField mem.1 "params" then dropSchemaFields mem.2 else mem.2))
  | json => json

theorem matchesField_disjoint {key left right : String} (different : equalFold left right = false)
    (matched : matchesField key left = true) : matchesField key right = false := by
  simp only [matchesField, equalFold, beq_eq_false_iff_ne, beq_iff_eq] at *
  exact fun other => different (matched.symm.trans other)

theorem fieldMembers_withoutSchemaFields {tag : String} (schema : equalFold tag "schema" = false)
    (inputSchema : equalFold tag "input_schema" = false) (params : List (String × Json)) :
    fieldMembers tag (withoutSchemaFields params) = fieldMembers tag params := by
  induction params with
  | nil => rfl
  | cons mem rest ih =>
    simp only [fieldMembers, withoutSchemaFields] at ih ⊢
    cases matched : matchesField mem.1 tag with
    | true =>
      have kept : isSchemaField mem.1 = false := by
        simp [isSchemaField, matchesField_disjoint schema matched, matchesField_disjoint inputSchema matched]
      simp [kept, matched, ih]
    | false =>
      cases dropped : isSchemaField mem.1 <;> simp [dropped, matched, ih]

theorem structMembers_dropSchemaFields (values : List Json) :
    structMembers (values.map dropSchemaFields) = (structMembers values).map withoutSchemaFields := by
  induction values with
  | nil => rfl
  | cons value rest ih =>
    cases value with
    | object members =>
      simp only [List.map_cons, dropSchemaFields, structMembers, ih, Option.map_map]
      cases structMembers rest <;> simp [withoutSchemaFields]
    | null => simpa [dropSchemaFields, structMembers] using ih
    | bool value => rfl
    | number literal => rfl
    | string value => rfl
    | array items => rfl

section

variable {members : List (String × Json)}

theorem fieldMembers_params : fieldMembers "params" (members.map fun mem =>
        (mem.1, if matchesField mem.1 "params" then dropSchemaFields mem.2 else mem.2)) =
      (fieldMembers "params" members).map dropSchemaFields := by
  induction members with
  | nil => rfl
  | cons mem rest ih =>
    simp only [fieldMembers] at ih ⊢
    cases matched : matchesField mem.1 "params" <;> simp [matched, ih]

theorem fieldMembers_other {tag : String} (different : equalFold tag "params" = false) :
    fieldMembers tag (members.map fun mem =>
        (mem.1, if matchesField mem.1 "params" then dropSchemaFields mem.2 else mem.2)) = fieldMembers tag members := by
  induction members with
  | nil => rfl
  | cons mem rest ih =>
    simp only [fieldMembers] at ih ⊢
    cases matched : matchesField mem.1 tag with
    | true => simp [matched, matchesField_disjoint different matched, ih]
    | false => simp [matched, ih]

end

theorem decodeEnvelope_withoutSchemas {Arguments : Type} (decodeArguments : List Json → Option Arguments)
    (json : Json) : decodeEnvelope decodeArguments (withoutSchemas json) =
      (decodeEnvelope decodeArguments json).map fun envelope =>
        { envelope with params := withoutSchemaFields envelope.params } := by
  cases json with
  | object members =>
    have method : equalFold "method" "params" = false := by decide
    have name : equalFold "name" "schema" = false ∧ equalFold "name" "input_schema" = false := by decide
    have arguments : equalFold "arguments" "schema" = false ∧ equalFold "arguments" "input_schema" = false := by decide
    simp only [withoutSchemas, decodeEnvelope, structMembers, Option.map_some, List.append_nil, fieldMembers_params,
      fieldMembers_other method, structMembers_dropSchemaFields, Option.bind_eq_bind, Option.bind_some]
    cases decodeStrings (fieldMembers "method" members) with
    | none => rfl
    | some method =>
      cases structMembers (fieldMembers "params" members) with
      | none => rfl
      | some params =>
        simp only [Option.map_some, Option.bind_some, fieldMembers_withoutSchemaFields name.1 name.2,
          fieldMembers_withoutSchemaFields arguments.1 arguments.2]
        cases decodeStrings (fieldMembers "name" params) with
        | none => rfl
        | some name => cases decodeArguments (fieldMembers "arguments" params) <;> rfl
  | null =>
    have blank (tag : String) : fieldMembers tag [] = [] := rfl
    simp only [withoutSchemas, decodeEnvelope, structMembers, blank, Option.bind_eq_bind, Option.bind_some,
      decodeStrings, List.foldlM_nil, Option.pure_def]
    cases decodeArguments [] <;> rfl
  | bool value => rfl
  | number literal => rfl
  | string value => rfl
  | array items => rfl

/-- The two texts are JSON bodies that differ in params.schema and params.input_schema at most. -/
def SameButSchemas (body other : String) : Prop :=
  (Json.parse body).isSome = true ∧
    (Json.parse body).map withoutSchemas = (Json.parse other).map withoutSchemas

instance (body other : String) : Decidable (SameButSchemas body other) := inferInstanceAs (Decidable (_ ∧ _))

theorem parsePolicyRequest_alike {identity : Option Identity} {body other : String} {request : PolicyRequest}
    (alike : SameButSchemas body other) (called : parsePolicyRequest identity body = some request) :
    ∃ schema, parsePolicyRequest identity other = some { request with schema := schema } := by
  obtain ⟨isJson, equal⟩ := alike
  obtain ⟨left, parsed⟩ := Option.isSome_iff_exists.mp isJson
  rw [parsed, Option.map_some, eq_comm] at equal
  obtain ⟨right, parsedOther, same⟩ := Option.map_eq_some_iff.mp equal
  have decoded := decodeEnvelope_withoutSchemas (decodeMaps []) left
  rw [← same, decodeEnvelope_withoutSchemas] at decoded
  unfold parsePolicyRequest at called ⊢
  rw [parsed, Option.bind_some] at called
  rw [parsedOther, Option.bind_some]
  cases read : decodeEnvelope (decodeMaps []) left with
  | none => simp [read] at called
  | some envelope =>
    rw [read] at called decoded
    obtain ⟨own, readOther, equal⟩ := Option.map_eq_some_iff.mp decoded
    rw [readOther]
    simp only [CallEnvelope.mk.injEq] at equal
    obtain ⟨method, name, arguments, -⟩ := equal
    dsimp only at called ⊢
    split_ifs at called with isCall
    cases called
    rw [if_pos (by rw [method]; exact isCall)]
    exact ⟨_, by rw [name, arguments]; rfl⟩

def Enforcement.passes : Enforcement → Bool
  | .denied _ _ => false
  | _ => true

/-- The call is decided whatever a schema says: by its risk, by an audit profile, or by the lists or a dangerous
argument. -/
def Engine.settles (engine : Engine) (classifier : Option Classifier) (lookup : Lookup) (request : PolicyRequest) :
    Bool :=
  (classifier.any fun classifier => classifier.deemsDestructive (trimSpace request.toolName) lookup) ||
    (engine.resolveProfile request.profileName).enforcementMode = .audit ||
    listsBar (engine.resolveProfile request.profileName) (trimSpace request.toolName) ||
    checkDangerous request.arguments engine.dangerousPatterns ≠ []

section

variable {engine : Engine} {classifier : Option Classifier} {lookup : Lookup} {identity : Option Identity}
  {request : PolicyRequest}

theorem enforce_passes {body : String} (called : parsePolicyRequest identity body = some request) :
    (engine.enforce classifier lookup identity ⟨body, false⟩).passes =
      (engine.evaluate classifier request lookup).1.allowed := by
  have some_text : body ≠ "" := by
    intro blank
    subst blank
    have nothing : Json.parse "" = none := by decide +kernel
    simp [parsePolicyRequest, nothing] at called
  cases allowed : (engine.evaluate classifier request lookup).1.allowed <;>
    simp [Engine.enforce, some_text, called, allowed, Enforcement.passes]

theorem evaluate_unsettled (unsettled : engine.settles classifier lookup request = false) :
    (engine.evaluate classifier request lookup).1.allowed = true ↔
      validateArguments request.arguments request.schema = [] := by
  simp only [Engine.settles, Bool.or_eq_false_iff, decide_eq_false_iff_not, not_not] at unsettled
  obtain ⟨⟨⟨harmless, enforced⟩, listed⟩, clean⟩ := unsettled
  rw [Engine.evaluate_allowed, Engine.argumentViolations, clean, List.nil_append]
  simp [harmless, enforced, listed]

theorem evaluate_settled (settled : engine.settles classifier lookup request = true) :
    (engine.evaluate classifier request lookup).1.allowed = true ↔
      (classifier.any fun classifier => classifier.deemsDestructive (trimSpace request.toolName) lookup) = false ∧
        (engine.resolveProfile request.profileName).enforcementMode = .audit := by
  rw [Engine.evaluate_allowed]
  refine and_congr_right fun harmless => or_iff_left_of_imp fun clean => ?_
  have safe := (List.append_eq_nil_iff.mp clean.1).1
  simpa [Engine.settles, harmless, clean.2, safe] using settled

def ListsSchema (context : ListingContext) (cache : ToolCache) (toolName : String) (schema : Json) : Prop :=
  ∃ definition ∈ (context.handleListTools cache).1, definition.name = toolName ∧
    Json.parse definition.inputSchema = some schema

def Engine.Violated (engine : Engine) (context : ListingContext) (cache : ToolCache) (request : PolicyRequest) : Prop :=
  effectiveMode (engine.resolveProfile request.profileName).enforcementMode = .enforce ∧
    ∃ schema, ListsSchema context cache request.toolName schema ∧ validateArguments request.arguments (some schema) ≠ []

def carriedSchema (identity : Option Identity) (body : String) : Option Json :=
  (parsePolicyRequest identity body).bind PolicyRequest.schema

/-- Another schema in the body changes nothing, and a call against the listed schema is denied, exactly if the call is
settled without a schema, or the caller's own schemas agree with each other and find fault where the listed one does. -/
theorem schema_check_binding_iff {body other : String} (context : ListingContext) (cache : ToolCache)
    (alike : SameButSchemas body other) (called : parsePolicyRequest identity body = some request) :
    (((engine.enforce classifier lookup identity ⟨body, false⟩).passes = true ↔
          (engine.enforce classifier lookup identity ⟨other, false⟩).passes = true) ∧
        (engine.Violated context cache request →
          (engine.enforce classifier lookup identity ⟨body, false⟩).passes = false)) ↔
      engine.settles classifier lookup request = true ∨ ((validateArguments request.arguments request.schema = [] ↔
            validateArguments request.arguments (carriedSchema identity other) = []) ∧
          (engine.Violated context cache request → validateArguments request.arguments request.schema ≠ [])) := by
  obtain ⟨schema, calledOther⟩ := parsePolicyRequest_alike alike called
  have carried : carriedSchema identity other = schema := by simp [carriedSchema, calledOther]
  rw [enforce_passes called, enforce_passes calledOther, carried]
  cases settled : engine.settles classifier lookup request with
  | false =>
    have own := evaluate_unsettled settled
    have others : (engine.evaluate classifier { request with schema := schema } lookup).1.allowed = true ↔
        validateArguments request.arguments schema = [] := evaluate_unsettled settled
    rw [own, others, ← Bool.not_eq_true, own]
    simp
  | true =>
    have own := evaluate_settled settled
    have others : (engine.evaluate classifier { request with schema := schema } lookup).1.allowed = true ↔ _ :=
      evaluate_settled settled
    refine iff_of_true ⟨own.trans others.symm, fun violated => ?_⟩ (.inl rfl)
    rw [← Bool.not_eq_true, own]
    intro allowed
    have enforced := violated.1
    simp [allowed.2, effectiveMode] at enforced

end

namespace Sample

def namespaced : String := "\x7b\"required\":[\"namespace\"]\x7d"

def podsCall (fields : String) : String :=
  "\x7b\"method\":\"tools/call\",\"params\":\x7b\"name\":\"k8s.list_pods\",\"arguments\":\x7b\x7d" ++ fields ++
    "\x7d\x7d"

def carrying (field : String) : String :=
  podsCall (",\"" ++ field ++ "\":" ++ namespaced)

def podsListing : ListingContext where
  index := .rebuild [Proxy.Sample.server "mcp-k8s" ⟨["list_pods"], [], []⟩]
  resolver := none
  listing _ := some [⟨"list_pods", "", "", namespaced, "", false, ""⟩]
  now := 0

def asked (body : String) : PolicyRequest :=
  (parsePolicyRequest none body).getD ⟨"", [], "", "", none⟩

def requiresNamespace : Json := .object [("required", .array [.string "namespace"])]

def callJson (fields : List (String × Json)) : Json :=
  .object [("method", .string "tools/call"),
    ("params", .object ([("name", .string "k8s.list_pods"), ("arguments", .object [])] ++ fields))]

def podsRequest (schema : Option Json) : PolicyRequest :=
  ⟨"k8s.list_pods", [], "anonymous", "default", schema⟩

theorem parse_plain : Json.parse (podsCall "") = some (callJson []) := by decide +kernel

theorem parse_schema : Json.parse (carrying "schema") = some (callJson [("schema", requiresNamespace)]) := by
  decide +kernel

theorem parse_inputSchema :
    Json.parse (carrying "input_schema") = some (callJson [("input_schema", requiresNamespace)]) := by
  decide +kernel

theorem called_plain : parsePolicyRequest none (podsCall "") = some (podsRequest none) := by
  rw [parsePolicyRequest, parse_plain]
  with_unfolding_all rfl

theorem called_schema : parsePolicyRequest none (carrying "schema") = some (podsRequest requiresNamespace) := by
  rw [parsePolicyRequest, parse_schema]
  with_unfolding_all rfl

theorem called_inputSchema :
    parsePolicyRequest none (carrying "input_schema") = some (podsRequest requiresNamespace) := by
  rw [parsePolicyRequest, parse_inputSchema]
  with_unfolding_all rfl

theorem asked_eq {body : String} {request : PolicyRequest} (called : parsePolicyRequest none body = some request) :
    asked body = request := by
  simp [asked, called]

theorem listsSchema_namespaced : ListsSchema podsListing (.new 0) "k8s.list_pods" requiresNamespace :=
  ⟨⟨"k8s.list_pods", "", "", namespaced, "", false, ""⟩, by decide +kernel, rfl, by decide +kernel⟩

theorem lacks_namespace : validateArguments [] (some requiresNamespace) ≠ [] := by decide +kernel

theorem podsRequest_violated (schema : Option Json) : engine.Violated podsListing (.new 0) (podsRequest schema) :=
  ⟨show effectiveMode (engine.resolveProfile "default").enforcementMode = .enforce by decide +kernel,
    requiresNamespace, listsSchema_namespaced, lacks_namespace⟩

def unclassified : Lookup := ⟨0, 0, false⟩

def enforced (body : String) : Enforcement :=
  engine.enforce none unclassified none ⟨body, false⟩

end Sample

open Sample

theorem own_schemas_agree : engine.Violated podsListing (.new 0) (asked (carrying "schema")) ∧
      ((enforced (carrying "schema")).passes = true ↔ (enforced (carrying "input_schema")).passes = true) ∧
      (enforced (carrying "schema")).passes = false := by
  have alike : SameButSchemas (carrying "schema") (carrying "input_schema") := by
    rw [SameButSchemas, parse_schema, parse_inputSchema]
    decide +kernel
  have other : carriedSchema none (carrying "input_schema") = some requiresNamespace := by
    rw [carriedSchema, called_inputSchema]
    rfl
  have binding := (@schema_check_binding_iff engine none unclassified none _ _ _ podsListing
    (.new 0) alike called_schema).mpr
    (.inr ⟨by rw [other]; rfl, fun _ => lacks_namespace⟩)
  have violated := podsRequest_violated requiresNamespace
  rw [asked_eq called_schema]
  exact ⟨violated, binding.1, binding.2 violated⟩

theorem listed_schema_not_consulted : SameButSchemas (carrying "schema") (podsCall "") ∧
      engine.Violated podsListing (.new 0) (asked (podsCall "")) ∧ (enforced (carrying "schema")).passes = false ∧
      (enforced (podsCall "")).passes = true := by
  rw [SameButSchemas, parse_schema, parse_plain, asked_eq called_plain, enforced,
    enforced, enforce_passes called_schema, enforce_passes called_plain]
  exact ⟨by decide +kernel, podsRequest_violated none, by decide +kernel, by decide +kernel⟩

end McpGateway.Policy
