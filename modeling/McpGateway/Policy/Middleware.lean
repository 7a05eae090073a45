import McpGateway.Policy.Engine

namespace McpGateway.Policy

open Shared

-- Decoding a JSON object into a Go struct: every member whose key names the field is decoded into it in turn.
def fieldMembers (tag : String) (members : List (String × Json)) : List Json :=
  members.filterMap fun (key, value) => if matchesField key tag then some value else none

def decodeString (old : String) : Json → Option String
  | .string value => some value
  | .null => some old
  | _ => none

def decodeStrings (values : List Json) : Option String :=
  values.foldlM decodeString ""

def structMembers : List Json → Option (List (String × Json))
  | [] => some []
  | .object members :: rest => (structMembers rest).map (members ++ ·)
  | .null :: rest => structMembers rest
  | _ :: _ => none

def decodeMaps (entries : Object) (values : List Json) : Option Object :=
  values.foldlM (fun entries value => (decodeMap entries value).toOption) entries

structure CallEnvelope (Arguments : Type) where
  method : String
  name : String
  arguments : Arguments
  params : List (String × Json)

def decodeEnvelope {Arguments : Type} (decodeArguments : List Json → Option Arguments) (json : Json) :
    Option (CallEnvelope Arguments) := do
  let members ← structMembers [json]
  let method ← decodeStrings (fieldMembers "method" members)
  let params ← structMembers (fieldMembers "params" members)
  let name ← decodeStrings (fieldMembers "name" params)
  let arguments ← decodeArguments (fieldMembers "arguments" params)
  return ⟨method, name, arguments, params⟩

def policyClientId (identity : Option Identity) : String :=
  match identity with
  | some identity => if trimSpace identity.id = "" then "anonymous" else trimSpace identity.id
  | none => "anonymous"

def policyProfileName (identity : Option Identity) : String :=
  match identity with
  | some identity =>
    if trimSpace ((identity.metadata.lookup "policy_profile").getD "") = "" then "default"
    else trimSpace ((identity.metadata.lookup "policy_profile").getD "")
  | none => "default"

def policyRequest (identity : Option Identity) (name : String) (arguments : Object) (schema : Option Json) :
    PolicyRequest :=
  ⟨trimSpace name, arguments, policyClientId identity, policyProfileName identity, schema⟩

def callSchema (params : List (String × Json)) : Option Json :=
  (fieldMembers "schema" params).getLast?.or (fieldMembers "input_schema" params).getLast?

def parsePolicyRequest (identity : Option Identity) (body : String) : Option PolicyRequest :=
  match (Json.parse body).bind (decodeEnvelope (decodeMaps [])) with
  | none => none
  | some envelope =>
    if trimSpace envelope.method = "tools/call" then
      some (policyRequest identity envelope.name envelope.arguments (callSchema envelope.params))
    else none

structure HttpBody where
  content : String
  readFailed : Bool

inductive Enforcement where
  | unevaluated
  | allowed (request : PolicyRequest) (decision : PolicyDecision)
  | denied (request : PolicyRequest) (decision : PolicyDecision)

def Engine.enforce (engine : Engine) (classifier : Option Classifier) (lookup : Lookup) (identity : Option Identity)
    (body : HttpBody) : Enforcement :=
  if body.readFailed ∨ body.content = "" then .unevaluated
  else
    match parsePolicyRequest identity body.content with
    | none => .unevaluated
    | some request =>
      if (engine.evaluate classifier request lookup).1.allowed then
        .allowed request (engine.evaluate classifier request lookup).1
      else .denied request (engine.evaluate classifier request lookup).1

end McpGateway.Policy
