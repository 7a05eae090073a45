import McpGateway.Types

namespace McpGateway.Policy

open Shared

def destructiveKeywords : List String :=
  ["delete", "remove", "destroy", "drop", "purge", "erase", "wipe", "truncate", "kill", "terminate", "revoke", "force"]

def writeKeywords : List String :=
  ["create", "update", "set", "put", "post", "write", "add", "insert", "modify", "patch", "upload", "push", "send",
    "publish", "assign", "enable", "disable", "configure", "deploy", "start", "stop", "restart"]

def readOnlyKeywords : List String :=
  ["get", "list", "read", "describe", "show", "fetch", "query", "search", "find", "view", "inspect", "check", "status",
    "info", "count", "exists", "download", "export", "head", "ping", "health", "version"]

def classifyByName (tokens keywords : List String) : Option String :=
  tokens.find? keywords.contains

def classifyByDescription (description : String) (keywords : List String) : Option String :=
  keywords.find? (contains description)

structure ClassificationRule where
  keywords : List String
  level : RiskLevel
  label : String

def nameClassificationRules : List ClassificationRule :=
  [⟨destructiveKeywords, .destructive, "destructive"⟩, ⟨readOnlyKeywords, .readOnly, "read-only"⟩,
    ⟨writeKeywords, .write, "write"⟩]

def isDelimiter (c : Char) : Bool :=
  c == '.' || c == '_' || c == '-' || c == '/'

def splitToolName (name : String) : List String :=
  fields (String.ofList ((toLower (trimSpace name)).toList.map fun c => if isDelimiter c then ' ' else c))

def firstRule (source : String) (matching : List String → Option String) : Option (RiskLevel × String) :=
  nameClassificationRules.findSome? fun rule =>
    (matching rule.keywords).map fun keyword =>
      (rule.level, source ++ " contains " ++ rule.label ++ " keyword: " ++ keyword)

def autoClassify (toolName toolDescription : String) : RiskLevel × String :=
  let description := toLower (trimSpace toolDescription)
  let byName := firstRule "name" (classifyByName (splitToolName toolName))
  let byDescription :=
    if description = "" then none else firstRule "description" (classifyByDescription description)
  (byName.or byDescription).getD (.unknown, "no classification keywords found")

abbrev ClassificationTable := GoMap String ToolClassification

def ClassificationTable.get (table : ClassificationTable) (toolName : String) : Option ToolClassification :=
  table.lookup (trimSpace toolName)

def ClassificationTable.upsert (table : ClassificationTable) (classification : ToolClassification) :
    ClassificationTable :=
  table.insert (trimSpace classification.toolName)
    { classification with toolName := trimSpace classification.toolName }

-- An empty list deletes every row.
def ClassificationTable.deleteNotIn (table : ClassificationTable) (activeToolNames : List String) :
    ClassificationTable :=
  table.filterKeys fun name => decide (name ∈ (activeToolNames.map trimSpace).filter (· ≠ ""))

theorem ClassificationTable.lookup_deleteNotIn (table : ClassificationTable) (activeToolNames : List String)
    (name : String) : (table.deleteNotIn activeToolNames).lookup name =
      if name ≠ "" ∧ name ∈ activeToolNames.map trimSpace then table.lookup name else none := by
  unfold deleteNotIn
  rw [GoMap.lookup_filterKeys]
  simp [and_comm]

def ClassificationTable.isDestructive (table : ClassificationTable) (toolName : String) : Prop :=
  ∃ classification, table.get toolName = some classification ∧ classification.riskLevel = .destructive

end McpGateway.Policy
