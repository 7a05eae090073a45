import McpGateway.Proxy.Discovery
import McpGateway.Shared.Runs

namespace McpGateway.Proxy

open Shared

namespace ToolMetadata

def setCategory (item : ToolMetadata) : Option String :=
  if item.category = "" then none else some item.category

def setSummary (item : ToolMetadata) : Option String :=
  if item.summary = "" then none else some item.summary

def setDescription (item : ToolMetadata) : Option String :=
  item.setSummary.map toLower

def setTags (item : ToolMetadata) : Option (List String) :=
  if item.tags = [] then none else some (item.tags.map toLower)

def setPriority (item : ToolMetadata) : Option Int :=
  if item.priority = 0 then none else some item.priority

end ToolMetadata

def latest {Value : Type} (set : ToolMetadata → Option Value) (items : List ToolMetadata) : Option Value :=
  items.reverse.findSome? set

theorem latest_append {Value : Type} (set : ToolMetadata → Option Value) (older newer : List ToolMetadata) :
    latest set (older ++ newer) = (latest set newer).or (latest set older) := by
  rw [latest, List.reverse_append, List.findSome?_append]
  rfl

theorem getD_latest_append {Value : Type} (set : ToolMetadata → Option Value) (older newer : List ToolMetadata)
    (base : Value) :
    (latest set (older ++ newer)).getD base = (latest set newer).getD ((latest set older).getD base) := by
  rw [latest_append]
  cases latest set newer <;> rfl

def itemsFor (name : String) (metadata : List ToolMetadata) : List ToolMetadata :=
  metadata.filter (·.toolName = name)

theorem itemsFor_append (name : String) (older newer : List ToolMetadata) :
    itemsFor name (older ++ newer) = itemsFor name older ++ itemsFor name newer :=
  List.filter_append ..

open ToolMetadata (setCategory setSummary setDescription setTags setPriority)

def DiscoveryEntry.overlaid (entry : DiscoveryEntry) (items : List ToolMetadata) : DiscoveryEntry :=
  { entry with
    category := (latest setCategory items).getD entry.category
    summary := (latest setSummary items).getD entry.summary
    descLower := (latest setDescription items).getD entry.descLower
    tagsLower := (latest setTags items).getD entry.tagsLower
    priority := (latest setPriority items).getD entry.priority }

variable (entry : DiscoveryEntry)

theorem DiscoveryEntry.overlaid_append (older newer : List ToolMetadata) :
    entry.overlaid (older ++ newer) = (entry.overlaid older).overlaid newer := by
  simp only [overlaid, getD_latest_append]

theorem DiscoveryEntry.overlaid_singleton (item : ToolMetadata) : entry.overlaid [item] = entry.enrich item := by
  have only {Value : Type} (set : ToolMetadata → Option Value) : latest set [item] = set item := by
    simp [latest]
  simp only [overlaid, enrich, only, setCategory, setSummary, setDescription, setTags, setPriority]
  congr 1 <;> split_ifs <;> rfl

theorem DiscoveryEntry.foldl_enrich (items : List ToolMetadata) : items.foldl enrich entry = entry.overlaid items := by
  induction items generalizing entry with
  | nil => rfl
  | cons item items ih => rw [List.foldl_cons, ih, ← overlaid_singleton, ← overlaid_append, List.singleton_append]

namespace DiscoveryIndex

variable (entries : GoMap String DiscoveryEntry)

theorem lookup_applyOne (item : ToolMetadata) (name : String) : (applyOne entries item).lookup name =
      (entries.lookup name).map fun entry => if item.toolName = name then entry.enrich item else entry := by
  unfold applyOne
  by_cases same : item.toolName = name
  · subst same
    cases held : entries.lookup item.toolName with
    | none => simp [held]
    | some entry => simp
  · have other : name ≠ item.toolName := fun eq => same eq.symm
    cases entries.lookup item.toolName <;> simp [same, AList.lookup_insert_ne other]

theorem lookup_foldl_applyOne (metadata : List ToolMetadata) (name : String) :
    (metadata.foldl applyOne entries).lookup name =
      (entries.lookup name).map fun entry => entry.overlaid (itemsFor name metadata) := by
  simp only [← DiscoveryEntry.foldl_enrich]
  induction metadata generalizing entries with
  | nil => simp [itemsFor]
  | cons item metadata ih =>
    rw [List.foldl_cons, ih, lookup_applyOne, Option.map_map]
    congr 1
    funext entry
    by_cases same : item.toolName = name <;> simp [itemsFor, same]

inductive Call where
  | index (tools : List ToolDefinition)
  | applyMetadata (metadata : List ToolMetadata)

def step (index : DiscoveryIndex) : Call → DiscoveryIndex
  | .index tools => index.rebuild tools
  | .applyMetadata metadata => index.applyMetadata metadata

def listing (tools : List ToolDefinition) : GoMap String DiscoveryEntry :=
  tools.foldl (fun entries tool => entries.insert tool.name (.new tool)) ∅

/-- What is left of a sequence of calls: the last tool list, the last metadata list, and the items of the metadata
lists that were in force since the last `Index` and have been replaced. -/
structure History where
  tools : List ToolDefinition
  metadata : List ToolMetadata
  replaced : List ToolMetadata

namespace History

def start : History := ⟨[], [], []⟩

def record (history : History) : Call → History
  | .index tools => ⟨tools, history.metadata, []⟩
  | .applyMetadata metadata => ⟨history.tools, metadata, history.replaced ++ history.metadata⟩

end History

def historyOf (calls : List Call) : History :=
  run History.record .start calls

def rebuilt (tools : List ToolDefinition) (metadata : List ToolMetadata) : DiscoveryIndex :=
  (new.rebuild tools).applyMetadata metadata

structure Reflects (index : DiscoveryIndex) (history : History) : Prop where
  metadata : index.metadata = history.metadata
  entries : ∀ name, index.entries.lookup name = ((listing history.tools).lookup name).map fun entry =>
    entry.overlaid (itemsFor name (history.replaced ++ history.metadata))

theorem Reflects.step {index : DiscoveryIndex} {history : History} (reflects : index.Reflects history) (call : Call) :
    (index.step call).Reflects (history.record call) := by
  cases call with
  | index tools =>
    refine ⟨reflects.metadata, fun name => ?_⟩
    rw [show index.step (.index tools) = index.rebuild tools from rfl, rebuild, lookup_foldl_applyOne, reflects.metadata]
    rfl
  | applyMetadata metadata =>
    refine ⟨rfl, fun name => ?_⟩
    rw [show index.step (.applyMetadata metadata) = index.applyMetadata metadata from rfl, applyMetadata,
      lookup_foldl_applyOne, reflects.entries, Option.map_map]
    congr 1
    funext entry
    simp only [Function.comp_apply, ← DiscoveryEntry.overlaid_append, History.record, itemsFor_append]

theorem run_reflects (calls : List Call) : (run step new calls).Reflects (historyOf calls) := by
  have start : new.Reflects .start := ⟨rfl, fun name => by simp [new, History.start, listing]⟩
  unfold historyOf run
  generalize new = index at start ⊢
  generalize History.start = history at start ⊢
  induction calls generalizing index history with
  | nil => exact start
  | cons call calls ih => exact ih _ _ (start.step call)

theorem lookup_rebuilt (tools : List ToolDefinition) (metadata : List ToolMetadata) (name : String) :
    (rebuilt tools metadata).entries.lookup name =
      ((listing tools).lookup name).map fun entry => entry.overlaid (itemsFor name metadata) := by
  unfold rebuilt applyMetadata
  rw [lookup_foldl_applyOne]
  rfl

/-- A field is settled if the metadata in force sets it, or what has been replaced left it as `Index` makes it. -/
def Settled {Value : Type} (set : ToolMetadata → Option Value) (indexed : Value)
    (replaced metadata : List ToolMetadata) : Prop :=
  latest set metadata = none → ∀ value, latest set replaced = some value → value = indexed

theorem settled_iff {Value : Type} {set : ToolMetadata → Option Value} {indexed : Value}
    {replaced metadata : List ToolMetadata} : Settled set indexed replaced metadata ↔
      (latest set (replaced ++ metadata)).getD indexed = (latest set metadata).getD indexed := by
  rw [getD_latest_append]
  unfold Settled
  cases latest set metadata <;> cases latest set replaced <;> simp

structure SettledEntry (entry : DiscoveryEntry) (replaced metadata : List ToolMetadata) : Prop where
  category : Settled setCategory entry.category replaced metadata
  summary : Settled setSummary entry.summary replaced metadata
  descLower : Settled setDescription entry.descLower replaced metadata
  tagsLower : Settled setTags entry.tagsLower replaced metadata
  priority : Settled setPriority entry.priority replaced metadata

theorem settledEntry_iff {entry : DiscoveryEntry} {replaced metadata : List ToolMetadata} :
    SettledEntry entry replaced metadata ↔ entry.overlaid (replaced ++ metadata) = entry.overlaid metadata := by
  unfold DiscoveryEntry.overlaid
  constructor
  · rintro ⟨category, summary, descLower, tagsLower, priority⟩
    rw [settled_iff] at category summary descLower tagsLower priority
    rw [category, summary, descLower, tagsLower, priority]
  · intro same
    injection same with _ _ descLower _ category summary tagsLower priority
    exact ⟨settled_iff.mpr category, settled_iff.mpr summary, settled_iff.mpr descLower, settled_iff.mpr tagsLower,
      settled_iff.mpr priority⟩

def History.Settled (history : History) : Prop :=
  ∀ name entry, (listing history.tools).lookup name = some entry →
    SettledEntry entry (itemsFor name history.replaced) (itemsFor name history.metadata)

/-- The index is what the last two lists make of a fresh one exactly if no metadata that was replaced still shows. -/
theorem history_independent_iff (calls : List Call) : (∀ name, (run step new calls).entries.lookup name =
        (rebuilt (historyOf calls).tools (historyOf calls).metadata).entries.lookup name) ↔
      (historyOf calls).Settled := by
  refine forall_congr' fun name => ?_
  rw [(run_reflects calls).entries, lookup_rebuilt, itemsFor_append]
  cases (listing (historyOf calls).tools).lookup name with
  | none => simp
  | some entry => simp [settledEntry_iff]

namespace Withdrawal

def tool : ToolDefinition := ⟨"a.b", "", "", "", "", false, ""⟩

def calls : List Call := [.index [tool], .applyMetadata [⟨"a.b", "ops", "", [], 0⟩], .applyMetadata []]

def categoryAfter (index : DiscoveryIndex) : Option String :=
  (index.entries.lookup "a.b").map DiscoveryEntry.category

end Withdrawal

-- The category stays until the tools are listed again.
theorem withdrawn_category_stays : Withdrawal.categoryAfter (run step new Withdrawal.calls) = some "ops" ∧
      Withdrawal.categoryAfter
        (rebuilt (historyOf Withdrawal.calls).tools (historyOf Withdrawal.calls).metadata) = some "a" ∧
      Withdrawal.categoryAfter (run step new (Withdrawal.calls ++ [.index [Withdrawal.tool]])) = some "a" := by
  decide +kernel

end DiscoveryIndex

end McpGateway.Proxy
