import McpGateway.Registration.Service
import McpGateway.Shared.UrlForm
import Mathlib.Data.List.Infix

namespace McpGateway.Auth

open Shared Url Registration

inductive SpiffeError where
  | empty
  | url (cause : UrlError)
  | invalidScheme (scheme : Bytes)
  | missingTrustDomain
  | missingWorkloadPath
  | invalidWorkloadPath (path : Bytes)
  deriving DecidableEq

def isBlank : Bytes → Bool
  | [] => true
  | 0xC2 :: 0x85 :: rest => isBlank rest
  | 0xC2 :: 0xA0 :: rest => isBlank rest
  | 0xE1 :: 0x9A :: 0x80 :: rest => isBlank rest
  | 0xE2 :: 0x80 :: b :: rest =>
    ((0x80 ≤ b && b ≤ 0x8A) || b == 0xA8 || b == 0xA9 || b == 0xAF) && isBlank rest
  | 0xE2 :: 0x81 :: 0x9F :: rest => isBlank rest
  | 0xE3 :: 0x80 :: 0x80 :: rest => isBlank rest
  | b :: rest => ((0x09 ≤ b && b ≤ 0x0D) || b == 0x20) && isBlank rest

def dot : Nat := '.'.toNat

def workloadOf (host path : Bytes) : Except SpiffeError (Bytes × Bytes) :=
  if path = [] ∨ path = [slash] then .error .missingWorkloadPath
  else if cleanPath slash dot path = [dot] ∨ cleanPath slash dot path = [slash] ∨
      [dot, dot] <:+: cleanPath slash dot path then .error (.invalidWorkloadPath path)
  else
    let workload :=
      if (cleanPath slash dot path).head? = some slash then (cleanPath slash dot path).drop 1
      else cleanPath slash dot path
    if workload = [] then .error .missingWorkloadPath else .ok (host, workload)

def parseSPIFFEID (raw : String) : Except SpiffeError (Bytes × Bytes) :=
  if trimSpace raw = "" then .error .empty
  else
    match Url.parse (utf8Bytes raw) with
    | .error cause => .error (.url cause)
    | .ok parsed =>
      if parsed.scheme.map lowerByte ≠ ascii "spiffe" then .error (.invalidScheme parsed.scheme)
      else if isBlank parsed.host then .error .missingTrustDomain
      else workloadOf parsed.host parsed.escapedPath

-- The verb %q on bytes: exact on ASCII.
def quoteBytes (bytes : Bytes) : String :=
  quote (String.ofList (bytes.map Char.ofNat))

def urlErrorText : UrlError → String
  | .controlCharacter => "net/url: invalid control character in URL"
  | .missingScheme => "missing protocol scheme"
  | .colonInFirstSegment => "first path segment in URL cannot contain colon"
  | .missingBracket => "missing ']' in host"
  | .invalidPort port => "invalid port " ++ quoteBytes port ++ " after host"
  | .invalidAddress => "invalid host"
  | .invalidIpLiteral => "invalid IP-literal"
  | .invalidEscape text => "invalid URL escape " ++ quoteBytes text
  | .invalidHostCharacter byte => "invalid character " ++ quoteBytes [byte] ++ " in host name"
  | .invalidUserinfo => "net/url: invalid userinfo"

def SpiffeError.text (raw : String) : SpiffeError → String
  | .empty => "parse spiffe id: empty id"
  | .url cause => "parse spiffe id: parse " ++ quote raw ++ ": " ++ urlErrorText cause
  | .invalidScheme scheme => "parse spiffe id: invalid scheme " ++ quoteBytes scheme
  | .missingTrustDomain => "parse spiffe id: missing trust domain"
  | .missingWorkloadPath => "parse spiffe id: missing workload path"
  | .invalidWorkloadPath path => "parse spiffe id: invalid workload path " ++ quoteBytes path

def spiffeIdError (raw : String) : Option String :=
  match parseSPIFFEID raw with
  | .error error => some (error.text raw)
  | .ok _ => none

example : parseSPIFFEID "spiffe://example.org/ns/default/sa/server" =
    .ok (ascii "example.org", ascii "ns/default/sa/server") := by decide +kernel

end McpGateway.Auth
