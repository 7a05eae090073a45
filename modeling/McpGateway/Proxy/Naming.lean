import McpGateway.Registration.Index

namespace McpGateway.Proxy

open Shared Registration

def displayName (serverName : String) : String :=
  trimPrefix serverName "mcp-"

def serverLabel (server : ServerRecord) : String :=
  if trimSpace server.name = "" then trimSpace server.id else trimSpace server.name

def federatedToolName (server : ServerRecord) (toolName : String) : String :=
  if trimSpace toolName = "" ∨ serverLabel server = "" then ""
  else if hasPrefix (trimSpace toolName) (displayName (serverLabel server) ++ ".") then trimSpace toolName
  else displayName (serverLabel server) ++ "." ++ trimSpace toolName

inductive NamespaceMode where
  | reject | always | onConflict
  deriving DecidableEq

structure NamespaceResolver where
  mode : NamespaceMode
  separator : String

def NamespaceResolver.new (mode separator : String) : NamespaceResolver where
  mode :=
    if trimSpace mode = "namespace_always" then .always
    else if trimSpace mode = "namespace_on_conflict" then .onConflict
    else .reject
  separator := if separator = "" then "." else separator

def isConflict (index : CapabilityIndex) (toolName : String) : Bool :=
  1 < (index.lookupTool (trimSpace toolName)).length

def NamespaceResolver.applyNamespace (resolver : NamespaceResolver) (index : CapabilityIndex)
    (toolName serverName : String) : String :=
  if trimSpace toolName = "" ∨ trimSpace serverName = "" then trimSpace toolName
  else
    match resolver.mode with
    | .always => displayName (trimSpace serverName) ++ resolver.separator ++ trimSpace toolName
    | .onConflict =>
      if isConflict index (trimSpace toolName) then
        displayName (trimSpace serverName) ++ resolver.separator ++ trimSpace toolName
      else trimSpace toolName
    | .reject => trimSpace toolName

-- The server hint is empty when the name has no separator behind its first character.
def NamespaceResolver.resolveNamespace (resolver : NamespaceResolver) (name : String) : String × String :=
  match cut (trimSpace name) resolver.separator with
  | some (hint, bare) => if hint = "" then ("", trimSpace name) else (hint, bare)
  | none => ("", trimSpace name)

def matchesServerHint (actual hint : String) : Bool :=
  equalFold (trimSpace actual) hint || equalFold (displayName (trimSpace actual)) hint

def filterCandidatesByServer (candidates : List ServerRecord) (requested : String) : List ServerRecord :=
  candidates.filter fun server => matchesServerHint server.name requested || matchesServerHint server.id requested

def Answers (server : ServerRecord) (hint : String) : Prop :=
  matchesServerHint server.name hint = true ∨ matchesServerHint server.id hint = true

instance (server : ServerRecord) (hint : String) : Decidable (Answers server hint) := inferInstanceAs (Decidable (_ ∨ _))

structure Resolved where
  toolName : String
  serverHint : String
  deriving DecidableEq

def NamespaceResolver.resolve (resolver : NamespaceResolver) (index : CapabilityIndex) (name : String) :
    Option Resolved :=
  if resolver.mode = .reject then none
  else
    match resolver.resolveNamespace name with
    | (hint, bare) =>
      if hint ≠ "" ∧ bare ≠ "" ∧ (index.lookupTool bare).length ≠ 0 then some ⟨bare, hint⟩ else none

def byFirstSegment (index : CapabilityIndex) (name : String) : Option Resolved :=
  match cut name "." with
  | some (first, rest) =>
    if first ≠ "" ∧ (index.lookupTool rest).length ≠ 0 then some ⟨rest, first⟩ else none
  | none => none

def byLegacyFormat (name : String) : Option Resolved :=
  match cut name "." with
  | some ("mcp", rest) => (cut rest ".").map fun (server, tool) => ⟨tool, server⟩
  | _ => none

def resolveFederatedName (index : CapabilityIndex) (resolver : Option NamespaceResolver) (name : String) : Resolved :=
  if (index.lookupTool name).length ≠ 0 then ⟨name, ""⟩
  else ((resolver.bind (·.resolve index name)).or ((byFirstSegment index name).or (byLegacyFormat name))).getD ⟨name, ""⟩

open NamespaceResolver (resolve)

theorem NamespaceResolver.resolve_iff (resolver : NamespaceResolver) (index : CapabilityIndex) {name : String}
    (trimmed : trimSpace name = name) (resolved : Resolved) : resolver.resolve index name = some resolved ↔
      resolver.mode ≠ .reject ∧ cut name resolver.separator = some (resolved.serverHint, resolved.toolName) ∧
        resolved.serverHint ≠ "" ∧ index.lookupTool resolved.toolName ≠ [] := by
  obtain ⟨tool, hint⟩ := resolved
  by_cases rejecting : resolver.mode = .reject
  · simp [resolve, rejecting]
  cases split : cut name resolver.separator with
  | none => simp [resolve, resolveNamespace, trimmed, split]
  | some parts =>
    obtain ⟨first, last⟩ := parts
    have reads : resolver.resolve index name =
        if first ≠ "" ∧ index.lookupTool last ≠ [] then some ⟨last, first⟩ else none := by
      have bare : last = "" → index.lookupTool last = [] := fun blank => by simp [CapabilityIndex.lookupTool, blank]
      by_cases unnamed : first = ""
      · simp [resolve, resolveNamespace, trimmed, split, unnamed]
      · by_cases free : index.lookupTool last = []
        · simp [resolve, resolveNamespace, trimmed, split, unnamed, free]
        · have named : last ≠ "" := fun blank => free (bare blank)
          simp [resolve, resolveNamespace, trimmed, split, unnamed, free, named, rejecting]
    rw [reads]
    constructor
    · intro found
      split_ifs at found with read
      cases found
      exact ⟨rejecting, rfl, read⟩
    · rintro ⟨_, same, read⟩
      cases same
      exact if_pos read

theorem byFirstSegment_of_cut (index : CapabilityIndex) {name first rest : String}
    (cutting : cut name "." = some (first, rest)) :
    byFirstSegment index name = if first ≠ "" ∧ index.lookupTool rest ≠ [] then some ⟨rest, first⟩ else none := by
  simp [byFirstSegment, cutting]

theorem byLegacyFormat_of_cut {name first rest : String} (cutting : cut name "." = some (first, rest)) :
    byLegacyFormat name = if first = "mcp" then (cut rest ".").map fun (server, tool) => ⟨tool, server⟩ else none := by
  simp only [byLegacyFormat, cutting]
  split
  · simp_all
  · split_ifs <;> simp_all

end McpGateway.Proxy
