import McpGateway.Shared.Digest
import McpGateway.Store.ApiKeyStore

namespace McpGateway.Auth

open Shared Store

def apiKeyPrefix : String := "mcpgw_"

def lookupHashApiKey (plaintext : String) : String :=
  hexEncode (Sha256.sum (utf8Bytes plaintext))

structure KeyDraw where
  randomBytes : List Nat
  bcryptHash : String

structure GeneratedKey where
  plaintext : String
  lookupHash : String
  bcryptHash : String

def generateApiKey (draw : KeyDraw) : GeneratedKey :=
  let plaintext := apiKeyPrefix ++ base64Url draw.randomBytes
  ⟨plaintext, lookupHashApiKey plaintext, draw.bcryptHash⟩

theorem generateApiKey_lookupHash (draw : KeyDraw) :
    (generateApiKey draw).lookupHash = lookupHashApiKey (generateApiKey draw).plaintext := rfl

def extractBearerToken (header : String) : Option String :=
  if hasPrefix header "Bearer " then
    if trimSpace (trimPrefix header "Bearer ") = "" then none else some (trimSpace (trimPrefix header "Bearer "))
  else none

def extractApiKey (authHeader xApiKey : String) : Option String :=
  match (extractBearerToken authHeader).filter (hasPrefix · apiKeyPrefix) with
  | some token => some token
  | none => if hasPrefix (trimSpace xApiKey) apiKeyPrefix then some (trimSpace xApiKey) else none

def isJwtToken (token : String) : Bool :=
  match cut token "." with
  | none => false
  | some (header, rest) =>
    match cut rest "." with
    | none => false
    | some (payload, signature) =>
      !contains signature "." && [header, payload, signature].all fun part => trimSpace part ≠ ""

structure AuthFailure where
  status : Nat
  message : String

-- What authentication leaves in the context; an empty server scope is not set there.
structure Authenticated where
  identity : Identity
  serverScope : List String

structure KeyLookup where
  queriedAt : Time
  verifiedAt : Time
  failed : Bool

structure Verifiers where
  oidc : Option (String → Option Identity)
  verifyApiKey : String → String → Bool

def invalidApiKey : AuthFailure := ⟨401, "invalid api key"⟩

def verifyRecord (verifiers : Verifiers) (key : String) (record : ApiKey) (now : Time) : Option AuthFailure :=
  if record.keyLookupHash ≠ "" ∧ record.keyLookupHash ≠ lookupHashApiKey key then some invalidApiKey
  else if verifiers.verifyApiKey key record.keyBcryptHash = false then some invalidApiKey
  else if record.expiresAt.any (· < now) then some ⟨403, "api key is expired"⟩
  else none

def keyIdentity (record : ApiKey) : Identity where
  type := .apikey
  id := record.clientId
  scopes := record.scopes
  metadata := ((∅ : GoMap String String).insert "auth_method" "apikey").insert "policy_profile"
    (if record.policyProfile = "" then "default" else record.policyProfile)

def validate (verifiers : Verifiers) (table : ApiKeyTable) (lookup : KeyLookup) (authHeader xApiKey : String) :
    Except AuthFailure Authenticated :=
  match extractApiKey authHeader xApiKey with
  | none => .error ⟨401, "missing or invalid api key"⟩
  | some key =>
    if lookup.failed then .error invalidApiKey
    else
      match table.getByLookupHash (lookupHashApiKey key) lookup.queriedAt with
      | .error _ => .error invalidApiKey
      | .ok record =>
        match verifyRecord verifiers key record lookup.verifiedAt with
        | some failure => .error failure
        | none => .ok ⟨keyIdentity record, record.serverScope⟩

structure Credentials where
  established : Option Identity
  authorization : String
  xApiKey : String

-- The path authDispatcher.serveHTTP takes. Without a bearer token X-API-Key is handed on as one.
inductive AuthPath where
  | established (identity : Identity)
  | missing
  | oidc (token : String)
  | apiKey (authHeader xApiKey : String)

def Credentials.path (credentials : Credentials) : AuthPath :=
  match credentials.established with
  | some identity => .established identity
  | none =>
    match extractBearerToken credentials.authorization with
    | none =>
      if trimSpace credentials.xApiKey = "" then .missing
      else .apiKey ("Bearer " ++ trimSpace credentials.xApiKey) credentials.xApiKey
    | some token =>
      if isJwtToken token then .oidc token else .apiKey credentials.authorization credentials.xApiKey

def Credentials.presentedKey (credentials : Credentials) : Option String :=
  match credentials.path with
  | .apiKey authHeader xApiKey => extractApiKey authHeader xApiKey
  | _ => none

-- AuthMiddleware; `keys` is missing when no key store is configured.
def authenticate (verifiers : Verifiers) (keys : Option ApiKeyTable) (lookup : KeyLookup) (credentials : Credentials) :
    Except AuthFailure Authenticated :=
  match credentials.path with
  | .established identity => .ok ⟨identity, []⟩
  | .missing => .error ⟨401, "missing authorization header"⟩
  | .oidc token =>
    match verifiers.oidc with
    | none => .error ⟨401, "oidc validator is not configured"⟩
    | some validator =>
      match validator token with
      | none => .error ⟨401, "invalid oidc token"⟩
      | some identity => .ok ⟨identity, []⟩
  | .apiKey authHeader xApiKey =>
    match keys with
    | none => .error ⟨401, "api key store is not configured"⟩
    | some table => validate verifiers table lookup authHeader xApiKey

variable {authHeader xApiKey key : String}

section

variable {verifiers : Verifiers} {table : ApiKeyTable} {lookup : KeyLookup}

theorem validate_ok {caller : Authenticated} (valid : validate verifiers table lookup authHeader xApiKey = .ok caller) :
    ∃ key record, extractApiKey authHeader xApiKey = some key ∧
      table.getByLookupHash (lookupHashApiKey key) lookup.queriedAt = .ok record ∧
      verifyRecord verifiers key record lookup.verifiedAt = none ∧
      caller = ⟨keyIdentity record, record.serverScope⟩ := by
  unfold validate at valid
  split at valid
  · cases valid
  next key extracted =>
    split_ifs at valid
    split at valid
    · cases valid
    next record found =>
      split at valid
      · cases valid
      next verified =>
        cases valid
        exact ⟨key, record, extracted, found, verified, rfl⟩

theorem authenticate_presented {credentials : Credentials} {caller : Authenticated}
    (valid : authenticate verifiers (some table) lookup credentials = .ok caller)
    (presented : credentials.presentedKey = some key) :
    ∃ row ∈ table.rows, row.keyLookupHash = lookupHashApiKey key ∧ caller.identity.scopes = row.scopes ∧
      caller.serverScope = row.serverScope := by
  unfold Credentials.presentedKey at presented
  unfold authenticate at valid
  split at presented
  next authHeader xApiKey path =>
    rw [path] at valid
    obtain ⟨extracted, record, isKey, found, _, rfl⟩ := validate_ok valid
    rw [presented] at isKey
    cases isKey
    have stored := ApiKeyTable.getByLookupHash_ok found
    exact ⟨record, stored.1, stored.2, rfl, rfl⟩
  · cases presented

end

/-- The key is one the request carries, and everything the caller is let in with comes from the one record that it
matches. -/
structure BoundToRecord (verifiers : Verifiers) (table : ApiKeyTable) (lookup : KeyLookup) (credentials : Credentials)
    (caller : Authenticated) (key : String) (record : ApiKey) : Prop where
  presented : extractBearerToken credentials.authorization = some key ∨ trimSpace credentials.xApiKey = key
  stored : record ∈ table.rows
  lookupHash : record.keyLookupHash = lookupHashApiKey key
  bcryptHash : verifiers.verifyApiKey key record.keyBcryptHash = true
  unexpired : ApiKeyTable.unexpired lookup.queriedAt record = true ∧
    ∀ expiry ∈ record.expiresAt, lookup.verifiedAt ≤ expiry
  id : caller.identity.id = record.clientId
  scopes : caller.identity.scopes = record.scopes
  profile : caller.identity.metadata.lookup "policy_profile" =
    some (if record.policyProfile = "" then "default" else record.policyProfile)
  serverScope : caller.serverScope = record.serverScope

theorem extractApiKey_some (extracted : extractApiKey authHeader xApiKey = some key) :
    extractBearerToken authHeader = some key ∨ trimSpace xApiKey = key := by
  unfold extractApiKey at extracted
  split at extracted
  next token found =>
    cases extracted
    exact .inl (Option.filter_eq_some_iff.mp found).1
  · split_ifs at extracted
    exact .inr (Option.some.inj extracted)

theorem extractBearerToken_append (token : String) (present : trimSpace token ≠ "") :
    extractBearerToken ("Bearer " ++ token) = some (trimSpace token) := by
  have begins : hasPrefix ("Bearer " ++ token) "Bearer " = true := (hasPrefix_iff _ _).mpr ⟨token, rfl⟩
  simp [extractBearerToken, begins, trimPrefix_append, present]

theorem verifyRecord_none {verifiers : Verifiers} {record : ApiKey} {now : Time}
    (verified : verifyRecord verifiers key record now = none) :
    verifiers.verifyApiKey key record.keyBcryptHash = true ∧ ∀ expiry ∈ record.expiresAt, now ≤ expiry := by
  unfold verifyRecord at verified
  split_ifs at verified with other wrong expired
  refine ⟨by simpa using wrong, fun expiry held => ?_⟩
  have fresh := mt (fun late : expiry < now => by simp [Option.mem_def.mp held, late]) expired
  exact not_lt.mp fresh

theorem Credentials.path_apiKey {credentials : Credentials} (path : credentials.path = .apiKey authHeader xApiKey)
    (extracted : extractApiKey authHeader xApiKey = some key) :
    extractBearerToken credentials.authorization = some key ∨ trimSpace credentials.xApiKey = key := by
  have source := extractApiKey_some extracted
  unfold Credentials.path at path
  split at path
  · cases path
  · split at path
    · split_ifs at path with blank
      cases path
      cases source with
      | inl bearer =>
        rw [extractBearerToken_append _ (by simpa using blank)] at bearer
        exact .inr (by simpa using bearer)
      | inr own => exact .inr own
    · split_ifs at path
      cases path
      exact source

theorem Credentials.path_established {credentials : Credentials} {identity : Identity}
    (path : credentials.path = .established identity) : credentials.established = some identity := by
  unfold Credentials.path at path
  split at path
  next found =>
    cases path
    exact found
  · split at path <;> split_ifs at path

theorem Credentials.path_oidc {credentials : Credentials} {token : String} (path : credentials.path = .oidc token) :
    extractBearerToken credentials.authorization = some token := by
  unfold Credentials.path at path
  split at path
  · cases path
  · split at path
    · split_ifs at path
    next found =>
      split_ifs at path
      cases path
      exact found

theorem validate_bound {verifiers : Verifiers} {table : ApiKeyTable} {lookup : KeyLookup} {credentials : Credentials}
    {caller : Authenticated} (path : credentials.path = .apiKey authHeader xApiKey)
    (valid : validate verifiers table lookup authHeader xApiKey = .ok caller) :
    ∃ key record, BoundToRecord verifiers table lookup credentials caller key record := by
  obtain ⟨key, record, extracted, found, verified, rfl⟩ := validate_ok valid
  obtain ⟨stored, hash⟩ := ApiKeyTable.getByLookupHash_ok found
  obtain ⟨bcrypt, fresh⟩ := verifyRecord_none verified
  exact ⟨key, record,
    { presented := Credentials.path_apiKey path extracted
      stored := stored
      lookupHash := hash
      bcryptHash := bcrypt
      unexpired := ⟨ApiKeyTable.getByLookupHash_unexpired found, fresh⟩
      id := rfl
      scopes := rfl
      profile := AList.lookup_insert _
      serverScope := rfl }⟩

/-- A request that nobody has identified yet is let in either as the identity its bearer token stands for, with no
server scope, or with everything taken from the one record that the key it carries matches. -/
theorem identity_bound_to_credential {verifiers : Verifiers} {keys : Option ApiKeyTable} {lookup : KeyLookup}
    {credentials : Credentials} {caller : Authenticated} (unidentified : credentials.established = none)
    (passed : authenticate verifiers keys lookup credentials = .ok caller) :
    (∃ token validator, extractBearerToken credentials.authorization = some token ∧ verifiers.oidc = some validator ∧
        validator token = some caller.identity ∧ caller.serverScope = []) ∨
      ∃ table key record, keys = some table ∧
        BoundToRecord verifiers table lookup credentials caller key record := by
  unfold authenticate at passed
  split at passed
  next identity path => simp [Credentials.path_established path] at unidentified
  · cases passed
  next token path =>
    split at passed
    · cases passed
    next validator configured =>
      split at passed
      · cases passed
      next identity valid =>
        cases passed
        exact .inl ⟨token, validator, Credentials.path_oidc path, configured, valid, rfl⟩
  next authHeader xApiKey path =>
    split at passed
    · cases passed
    next table =>
      obtain ⟨key, record, bound⟩ := validate_bound path passed
      exact .inr ⟨table, key, record, rfl, bound⟩

namespace Sample

def plainKey : ApiKey where
  id := "key-1"
  keyLookupHash := lookupHashApiKey "mcpgw_secret"
  keyBcryptHash := "hash"
  name := "ci"
  scopes := ["read"]
  clientId := "ci"
  policyProfile := ""
  serverScope := ["mcp-k8s"]
  expiresAt := some 10
  createdAt := 0

def oneKey : ApiKeyTable := ⟨[plainKey], by simp, by simp⟩

def onlyKeys : Verifiers := ⟨none, fun key hash => key == "mcpgw_secret" && hash == "hash"⟩

def keyRequest : Credentials := ⟨none, "Bearer other", " mcpgw_secret "⟩

end Sample

open Sample

theorem second_header_bound :
    ∃ table key record, some oneKey = some table ∧ BoundToRecord onlyKeys table ⟨5, 5, false⟩
      keyRequest ⟨keyIdentity plainKey, ["mcp-k8s"]⟩ key record := by
  have bearer : extractBearerToken "Bearer other" = some "other" ∧ isJwtToken "other" = false := by decide +kernel
  have path : keyRequest.path = .apiKey "Bearer other" " mcpgw_secret " := by
    simp [Credentials.path, keyRequest, bearer]
  have extracted : extractApiKey "Bearer other" " mcpgw_secret " = some "mcpgw_secret" := by decide +kernel
  have passed : authenticate onlyKeys (some oneKey) ⟨5, 5, false⟩ keyRequest =
      .ok ⟨keyIdentity plainKey, ["mcp-k8s"]⟩ := by
    simp [authenticate, path, validate, extracted, ApiKeyTable.getByLookupHash, oneKey, plainKey,
      ApiKeyTable.unexpired, verifyRecord, onlyKeys]
  refine (identity_bound_to_credential rfl passed).resolve_left fun token => ?_
  obtain ⟨_, _, _, configured, _⟩ := token
  cases configured

end McpGateway.Auth
