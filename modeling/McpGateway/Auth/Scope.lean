import McpGateway.Shared.GoStrings

namespace McpGateway.Auth

open Shared

def serverInScope (serverName : String) (scope : List String) : Bool :=
  trimSpace serverName ≠ "" && scope.any fun allowed =>
    equalFold (trimSpace serverName) (trimSpace allowed) ||
      equalFold (trimPrefix (trimSpace serverName) "mcp-") (trimSpace allowed)

def checkServerScope (scope : List String) (serverName : String) : Bool :=
  scope.isEmpty || serverInScope serverName scope

-- ServerScopeMiddleware for the URL parameter `serverName`, which is blank on the unified endpoint.
def scopeAdmits (scope : List String) (serverName : String) : Bool :=
  scope.isEmpty || trimSpace serverName == "" || serverInScope (trimSpace serverName) scope

theorem checkServerScope_iff {scope : List String} (nonempty : scope ≠ []) (serverName : String) :
    checkServerScope scope serverName = true ↔ serverInScope serverName scope = true := by
  simp [checkServerScope, nonempty]

end McpGateway.Auth
