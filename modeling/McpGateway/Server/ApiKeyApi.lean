import McpGateway.Auth.Authentication
import McpGateway.Auth.Scope
import McpGateway.Shared.GoTime
import McpGateway.Shared.Runs

namespace McpGateway.Server

open Shared Store Auth

structure CreateApiKeyRequest where
  name : String
  scopes : List String
  expires : String
  clientId : String
  profile : String
  serverScope : List String

def dedupeScopes (raw : List String) : List String :=
  raw.foldl
    (fun result scope =>
      if trimSpace scope = "" ∨ trimSpace scope ∈ result then result else result ++ [trimSpace scope]) []

def hour : Int := 3600 * second

def expiryDuration (raw trimmed : String) : Except String Int :=
  if trimmed.toList.getLast? = some 'd' then
    match atoi (trimSpace (String.ofList trimmed.toList.dropLast)) with
    | none => .error ("invalid day duration " ++ quote raw)
    | some days =>
      if days ≤ 0 then .error ("invalid day duration " ++ quote raw)
      -- The product is an int64.
      else .ok (Int.bmod (days * 24 * hour) (2 ^ 64))
  else
    match parseDuration trimmed with
    | .error error => .error ("invalid duration " ++ quote raw ++ ": " ++ error)
    | .ok duration => .ok duration

def parseApiKeyExpiry (raw : String) (now : Time) : Except String (Option Time) :=
  if trimSpace raw = "" then .ok none
  else
    match expiryDuration raw (trimSpace raw) with
    | .error error => .error error
    | .ok duration => if duration ≤ 0 then .error "duration must be positive" else .ok (some (now + duration))

structure CreateContext where
  now : Time
  generated : Option KeyDraw
  assigned : String
  insertedAt : Time
  insertFails : Bool
  rereadAt : Time
  rereadFails : Bool

def requestedScopes (request : CreateApiKeyRequest) : List String :=
  if dedupeScopes request.scopes = [] then ["read"] else dedupeScopes request.scopes

def zeroTime : Time := -62135596800 * second

def newRecord (request : CreateApiKeyRequest) (expiresAt : Option Time) (generated : GeneratedKey) : ApiKey where
  id := ""
  keyLookupHash := generated.lookupHash
  keyBcryptHash := generated.bcryptHash
  name := trimSpace request.name
  scopes := requestedScopes request
  clientId := if trimSpace request.clientId = "" then trimSpace request.name else trimSpace request.clientId
  policyProfile := if trimSpace request.profile = "" then "default" else trimSpace request.profile
  serverScope := dedupeScopes request.serverScope
  expiresAt := expiresAt
  createdAt := zeroTime

structure MintedKey where
  record : ApiKey
  plaintext : String

inductive ApiKeyReply where
  | failed (status : Nat) (error : String)
  | created (key : MintedKey)
  | listed (keys : List ApiKey)
  | revoked (id : String)

def reread (table : ApiKeyTable) (record : ApiKey) (context : CreateContext) : ApiKey :=
  if context.rereadFails then record
  else
    match table.getByLookupHash record.keyLookupHash context.rereadAt with
    | .error _ => record
    | .ok stored => { record with id := stored.id, createdAt := stored.createdAt }

def mint (table : ApiKeyTable) (record : ApiKey) (plaintext : String) (context : CreateContext) :
    ApiKeyReply × ApiKeyTable :=
  if context.insertFails then (.failed 500 "failed to create api key", table)
  else
    match table.create record context.assigned context.insertedAt with
    | .error _ => (.failed 500 "failed to create api key", table)
    | .ok next => (.created ⟨reread next record context, plaintext⟩, next)

-- `body` is missing when it does not decode.
def handleCreate (table : ApiKeyTable) (body : Option CreateApiKeyRequest) (context : CreateContext) :
    ApiKeyReply × ApiKeyTable :=
  match body with
  | none => (.failed 400 "invalid request body", table)
  | some request =>
    if trimSpace request.name = "" then (.failed 400 "name is required", table)
    else
      match parseApiKeyExpiry (trimSpace request.expires) context.now with
      | .error error => (.failed 400 error, table)
      | .ok expiresAt =>
        match context.generated with
        | none => (.failed 500 "failed to generate api key", table)
        | some draw =>
          mint table (newRecord request expiresAt (generateApiKey draw)) (generateApiKey draw).plaintext context

def handleList (table : ApiKeyTable) (fails : Bool) : ApiKeyReply × ApiKeyTable :=
  if fails then (.failed 500 "failed to list api keys", table) else (.listed table.list, table)

def handleRevoke (table : ApiKeyTable) (id : String) (now : Time) (fails : Bool) : ApiKeyReply × ApiKeyTable :=
  if trimSpace id = "" then (.failed 400 "id is required", table)
  else if fails then (.failed 500 "failed to revoke api key", table)
  else
    match table.revoke (trimSpace id) now with
    | .error _ => (.failed 500 "failed to revoke api key", table)
    | .ok next => (.revoked (trimSpace id), next)

inductive ApiKeyOperation where
  | create (body : Option CreateApiKeyRequest) (context : CreateContext)
  | list (fails : Bool)
  | revoke (id : String) (now : Time) (fails : Bool)

structure ApiKeyCall where
  credentials : Credentials
  lookup : KeyLookup
  operation : ApiKeyOperation

def ApiKeyOperation.handle (table : ApiKeyTable) : ApiKeyOperation → ApiKeyReply × ApiKeyTable
  | .create body context => handleCreate table body context
  | .list fails => handleList table fails
  | .revoke id now fails => handleRevoke table id now fails

def serve (verifiers : Verifiers) (table : ApiKeyTable) (call : ApiKeyCall) : ApiKeyReply × ApiKeyTable :=
  match authenticate verifiers (some table) call.lookup call.credentials with
  | .error failure => (.failed failure.status failure.message, table)
  | .ok _ => call.operation.handle table

end McpGateway.Server
