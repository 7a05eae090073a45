import McpGateway.Types

namespace McpGateway.Auth

open Shared

structure CachedTokens where
  accessToken : String
  refreshToken : String
  idToken : String
  tokenType : String
  expiresAt : Time
  gatewayURL : String

abbrev TokenFile := Except String CachedTokens

def tokenRefreshWindow : Int := 5 * 60 * second

def CachedTokens.needsRefresh (tokens : CachedTokens) (now : Time) : Bool :=
  tokens.expiresAt < now + tokenRefreshWindow

structure TokenResponse where
  accessToken : String
  refreshToken : String
  idToken : String
  tokenType : String
  expiresIn : Int

def TokenResponse.tokens (reply : TokenResponse) (refreshToken gatewayURL : String) (now : Time) : CachedTokens where
  accessToken := reply.accessToken
  refreshToken := refreshToken
  idToken := reply.idToken
  tokenType := reply.tokenType
  expiresAt := now + Int.bmod (reply.expiresIn * second) (2 ^ 64)
  gatewayURL := gatewayURL

-- An error of `answer` is one of the request, of its status, of its body or of saving the tokens.
def refreshAccessToken (tokens : CachedTokens) (answer : Except String TokenResponse) (now : Time) :
    Except String CachedTokens :=
  if trimSpace tokens.refreshToken = "" then .error "refresh token: no refresh token available"
  else
    answer.map fun reply =>
      reply.tokens (if reply.refreshToken = "" then tokens.refreshToken else reply.refreshToken)
        tokens.gatewayURL now

end McpGateway.Auth
