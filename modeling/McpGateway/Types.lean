import McpGateway.Shared.GoMap
import McpGateway.Shared.GoStrings

namespace McpGateway

open Shared

abbrev Time := Int

def second : Int := 1000000000

inductive ServerStatus where
  | pending | approved | active | stale | expired
  deriving DecidableEq

def ServerStatus.isRoutable (status : ServerStatus) : Bool :=
  status == .active

def ServerStatus.text : ServerStatus → String
  | .pending => "pending"
  | .approved => "approved"
  | .active => "active"
  | .stale => "stale"
  | .expired => "expired"

inductive RegistrationSyncState where
  | unacked | acked | stale
  deriving DecidableEq

inductive EnforcementMode where
  | unset | enforce | audit | other (text : String)
  deriving DecidableEq

structure Capability where
  tools : List String
  resources : List String
  prompts : List String
  deriving DecidableEq

structure ServerRecord where
  id : String
  name : String
  spiffeId : String
  version : String
  host : String
  port : Int
  protocol : String
  capabilities : Capability
  status : ServerStatus
  policyProfile : String
  lastHeartbeat : Option Time
  leaseEpoch : Int
  capabilityHash : String
  syncState : RegistrationSyncState
  lastPlatformAckVersion : String
  lastPlatformAckAt : Option Time
  rateLimit : Option Int
  rateBurst : Option Int
  routingStrategy : String
  createdAt : Time
  updatedAt : Time
  deriving DecidableEq

structure PolicyProfile where
  name : String
  rateLimit : Int
  rateBurst : Int
  toolAllowlist : List String
  toolDenylist : List String
  enforcementMode : EnforcementMode

inductive RiskLevel where
  | readOnly | write | destructive | unknown
  deriving DecidableEq

structure ToolClassification where
  toolName : String
  riskLevel : RiskLevel
  reason : String
  autoClassified : Bool
  updatedBy : String
  updatedAt : Time
  deriving DecidableEq

structure ApiKey where
  id : String
  keyLookupHash : String
  keyBcryptHash : String
  name : String
  scopes : List String
  clientId : String
  policyProfile : String
  serverScope : List String
  expiresAt : Option Time
  createdAt : Time

inductive UserRole where
  | admin | user | viewer | blocked | other (text : String)
  deriving DecidableEq

inductive IdentityType where
  | mtls | apikey | oidc
  deriving DecidableEq

structure Identity where
  type : IdentityType
  id : String
  scopes : List String
  metadata : GoMap String String

def Identity.hasScope (identity : Identity) (scope : String) : Bool :=
  identity.scopes.contains scope

def scopeAdmin : String := "admin"

end McpGateway
