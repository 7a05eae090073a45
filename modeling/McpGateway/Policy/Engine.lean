import McpGateway.Policy.Arguments
import McpGateway.Policy.Classification
import McpGateway.Shared.Runs

namespace McpGateway.Policy

open Shared

structure CacheEntry where
  classification : ToolClassification
  expiresAt : Time

structure ClassificationCache where
  entries : GoMap String CacheEntry
  ttl : Int

def defaultClassificationCacheTTL : Int := 5 * 60 * second

namespace ClassificationCache

def new (ttl : Int) : ClassificationCache :=
  ⟨∅, if ttl ≤ 0 then defaultClassificationCacheTTL else ttl⟩

-- An entry that is still good at `now`; an expired one counts as absent and is dropped when it is met.
def fresh (cache : ClassificationCache) (toolName : String) (now : Time) : Option ToolClassification :=
  match cache.entries.lookup toolName with
  | some entry => if entry.expiresAt < now then none else some entry.classification
  | none => none

def get (cache : ClassificationCache) (toolName : String) (now : Time) :
    Option ToolClassification × ClassificationCache :=
  match cache.entries.lookup toolName with
  | none => (none, cache)
  | some entry =>
    if entry.expiresAt < now then (none, { cache with entries := cache.entries.erase toolName })
    else (some entry.classification, cache)

def set (cache : ClassificationCache) (toolName : String) (classification : ToolClassification) (now : Time) :
    ClassificationCache :=
  { cache with entries := cache.entries.insert toolName ⟨classification, now + cache.ttl⟩ }

def invalidate (cache : ClassificationCache) (toolName : String) : ClassificationCache :=
  { cache with entries := cache.entries.erase toolName }

def invalidateAll (cache : ClassificationCache) : ClassificationCache :=
  { cache with entries := ∅ }

end ClassificationCache

structure PolicyRequest where
  toolName : String
  arguments : Object
  clientId : String
  profileName : String
  schema : Option Json

structure PolicyDecision where
  allowed : Bool
  reason : String
  violations : List Violation
  enforcementMode : EnforcementMode

structure Engine where
  profiles : GoMap String (Option PolicyProfile)
  dangerousPatterns : List Pattern

structure Classifier where
  table : ClassificationTable
  cache : ClassificationCache

structure Lookup where
  checkedAt : Time
  storedAt : Time
  failed : Bool

def resolveStored (classifier : Classifier) (toolName : String) (lookup : Lookup) : RiskLevel × Classifier :=
  if lookup.failed then (.unknown, classifier)
  else
    match classifier.table.get toolName with
    | none => ((autoClassify toolName "").1, classifier)
    | some classification =>
      (classification.riskLevel,
        { classifier with cache := classifier.cache.set toolName classification lookup.storedAt })

def resolveRiskLevel (classifier : Classifier) (toolName : String) (lookup : Lookup) : RiskLevel × Classifier :=
  match classifier.cache.get toolName lookup.checkedAt with
  | (some cached, cache) => (cached.riskLevel, { classifier with cache := cache })
  | (none, cache) => resolveStored { classifier with cache := cache } toolName lookup

def destructiveDecision (toolName : String) : PolicyDecision where
  allowed := false
  reason := "tool classified as destructive"
  violations :=
    [⟨.destructive, "tool " ++ quote toolName ++ " is classified as destructive and is blocked", .critical⟩]
  enforcementMode := .enforce

def checkDestructiveRisk (classifier : Option Classifier) (toolName : String) (lookup : Lookup) :
    Option PolicyDecision × Option Classifier :=
  match classifier with
  | none => (none, none)
  | some classifier =>
    (if (resolveRiskLevel classifier toolName lookup).1 = .destructive then some (destructiveDecision toolName) else none,
      some (resolveRiskLevel classifier toolName lookup).2)

def defaultProfile : PolicyProfile := ⟨"default", 0, 0, [], [], .enforce⟩

def Engine.profile (engine : Engine) (name : String) : Option PolicyProfile :=
  (engine.profiles.lookup name).join

def Engine.resolveProfile (engine : Engine) (name : String) : PolicyProfile :=
  let named := if trimSpace name = "" then none else engine.profile (trimSpace name)
  (named.or (engine.profile "default")).getD defaultProfile

def listContains (values : List String) (expected : String) : Bool :=
  values.any fun value => trimSpace value == trimSpace expected

def listViolations (profile : PolicyProfile) (toolName : String) : List Violation :=
  (if profile.toolAllowlist ≠ [] ∧ listContains profile.toolAllowlist toolName = false then
    [⟨.allowlist, "tool " ++ quote toolName ++ " is not in allowlist", .high⟩] else []) ++
  (if listContains profile.toolDenylist toolName then
    [⟨.denylist, "tool " ++ quote toolName ++ " is in denylist", .high⟩] else [])

def Engine.argumentViolations (engine : Engine) (request : PolicyRequest) : List Violation :=
  checkDangerous request.arguments engine.dangerousPatterns ++ validateArguments request.arguments request.schema

def Engine.collectViolations (engine : Engine) (profile : PolicyProfile) (toolName : String)
    (request : PolicyRequest) : List Violation :=
  listViolations profile toolName ++ engine.argumentViolations request

def buildDecision (violations : List Violation) (mode : EnforcementMode) : PolicyDecision :=
  if violations = [] then ⟨true, "allowed", violations, mode⟩
  else if mode = .audit then ⟨true, "policy violations detected (audit mode)", violations, mode⟩
  else ⟨false, "policy violations detected", violations, mode⟩

def effectiveMode (mode : EnforcementMode) : EnforcementMode :=
  if mode = .unset then .enforce else mode

def Engine.profileDecision (engine : Engine) (request : PolicyRequest) : PolicyDecision :=
  buildDecision (engine.collectViolations (engine.resolveProfile request.profileName) (trimSpace request.toolName) request)
    (effectiveMode (engine.resolveProfile request.profileName).enforcementMode)

def Engine.evaluate (engine : Engine) (classifier : Option Classifier) (request : PolicyRequest) (lookup : Lookup) :
    PolicyDecision × Option Classifier :=
  match checkDestructiveRisk classifier (trimSpace request.toolName) lookup with
  | (some decision, classifier) => (decision, classifier)
  | (none, classifier) => (engine.profileDecision request, classifier)

namespace ClassificationCache

variable (cache : ClassificationCache) (toolName other : String) (now : Time)

theorem get_classification : (cache.get toolName now).1 = cache.fresh toolName now := by
  unfold get fresh
  cases cache.entries.lookup toolName with
  | none => rfl
  | some entry =>
    dsimp only
    split_ifs <;> rfl

theorem mem_erase {entries : GoMap String CacheEntry} {entry : CacheEntry}
    (held : (entries.erase toolName).lookup other = some entry) : entries.lookup other = some entry := by
  by_cases same : other = toolName
  · subst same
    simp at held
  · rwa [AList.lookup_erase_ne same] at held

theorem mem_get {entry : CacheEntry} (held : (cache.get toolName now).2.entries.lookup other = some entry) :
    cache.entries.lookup other = some entry := by
  unfold get at held
  split at held
  · exact held
  · split_ifs at held
    · exact mem_erase _ _ held
    · exact held

end ClassificationCache

def Classifier.Faithful (classifier : Classifier) : Prop :=
  ∀ toolName entry, classifier.cache.entries.lookup toolName = some entry →
    classifier.table.get toolName = some entry.classification

section

variable {classifier : Classifier} {toolName : String} {lookup : Lookup}

theorem resolveStored_faithful (faithful : classifier.Faithful) :
    (resolveStored classifier toolName lookup).2.table = classifier.table ∧
      (resolveStored classifier toolName lookup).2.Faithful := by
  unfold resolveStored
  split_ifs
  · exact ⟨rfl, faithful⟩
  split
  · exact ⟨rfl, faithful⟩
  next classification stored =>
    refine ⟨rfl, fun other entry held => ?_⟩
    change (classifier.cache.entries.insert toolName _).lookup other = some entry at held
    by_cases same : other = toolName
    · subst same
      rw [AList.lookup_insert] at held
      cases held
      exact stored
    · rw [AList.lookup_insert_ne same] at held
      exact faithful other entry held

theorem resolveRiskLevel_faithful (faithful : classifier.Faithful) :
    (resolveRiskLevel classifier toolName lookup).2.table = classifier.table ∧
      (resolveRiskLevel classifier toolName lookup).2.Faithful := by
  have kept : ({ classifier with cache := (classifier.cache.get toolName lookup.checkedAt).2 } : Classifier).Faithful :=
    fun other entry held => faithful other entry (ClassificationCache.mem_get _ _ _ _ held)
  unfold resolveRiskLevel
  cases read : classifier.cache.get toolName lookup.checkedAt with
  | mk cached cache =>
    rw [read] at kept
    cases cached with
    | some cached => exact ⟨rfl, kept⟩
    | none => exact resolveStored_faithful kept

theorem resolveRiskLevel_stored (faithful : classifier.Faithful) {classification : ToolClassification}
    (stored : classifier.table.get toolName = some classification)
    (answers : classifier.cache.fresh toolName lookup.checkedAt = none → lookup.failed = false) :
    (resolveRiskLevel classifier toolName lookup).1 = classification.riskLevel := by
  rw [← ClassificationCache.get_classification] at answers
  unfold resolveRiskLevel
  cases read : classifier.cache.get toolName lookup.checkedAt with
  | mk cached cache =>
    rw [read] at answers
    cases cached with
    | some cached =>
      have found : classifier.cache.fresh toolName lookup.checkedAt = some cached := by
        rw [← ClassificationCache.get_classification, read]
      unfold ClassificationCache.fresh at found
      split at found
      next entry held =>
        split_ifs at found
        cases found
        have same := faithful toolName entry held
        rw [stored] at same
        exact congrArg ToolClassification.riskLevel (Option.some.inj same).symm
      next => cases found
    | none =>
      have answered : lookup.failed = false := answers rfl
      simp [resolveStored, answered, stored]

theorem Engine.evaluate_unclassified (engine : Engine) (request : PolicyRequest) (lookup : Lookup) :
    (engine.evaluate none request lookup).1 = engine.profileDecision request := by
  unfold Engine.evaluate checkDestructiveRisk
  dsimp only

theorem Engine.evaluate_eq (engine : Engine) (classifier : Classifier) (request : PolicyRequest) (lookup : Lookup) :
    engine.evaluate (some classifier) request lookup =
      (if (resolveRiskLevel classifier (trimSpace request.toolName) lookup).1 = .destructive then
        destructiveDecision (trimSpace request.toolName)
      else engine.profileDecision request,
      some (resolveRiskLevel classifier (trimSpace request.toolName) lookup).2) := by
  unfold Engine.evaluate checkDestructiveRisk
  dsimp only
  split_ifs
  · dsimp only
  · dsimp only

end

theorem buildDecision_allowed (violations : List Violation) (mode : EnforcementMode) :
    (buildDecision violations mode).allowed = true ↔ violations = [] ∨ mode = .audit := by
  unfold buildDecision
  split_ifs with clean audited
  · simp [clean]
  · simp [audited]
  · simp [clean, audited]

def Classifier.deemsDestructive (classifier : Classifier) (toolName : String) (lookup : Lookup) : Bool :=
  match classifier.cache.fresh toolName lookup.checkedAt with
  | some cached => cached.riskLevel = .destructive
  | none =>
    !lookup.failed &&
      match classifier.table.get toolName with
      | some stored => stored.riskLevel = .destructive
      | none => (autoClassify toolName "").1 = .destructive

theorem deemsDestructive_iff (classifier : Classifier) (toolName : String) (lookup : Lookup) :
    classifier.deemsDestructive toolName lookup = true ↔
      (resolveRiskLevel classifier toolName lookup).1 = .destructive := by
  unfold Classifier.deemsDestructive resolveRiskLevel resolveStored
  rw [← ClassificationCache.get_classification]
  cases classifier.cache.get toolName lookup.checkedAt with
  | mk cached cache =>
    cases cached with
    | some cached => simp
    | none =>
      cases lookup.failed with
      | true => simp
      | false => cases stored : classifier.table.get toolName <;> simp [stored]

def listsBar (profile : PolicyProfile) (toolName : String) : Bool :=
  (!profile.toolAllowlist.isEmpty && !listContains profile.toolAllowlist toolName) ||
    listContains profile.toolDenylist toolName

theorem listViolations_eq_nil (profile : PolicyProfile) (toolName : String) :
    listViolations profile toolName = [] ↔ listsBar profile toolName = false := by
  unfold listViolations listsBar
  cases listContains profile.toolDenylist toolName <;> cases listContains profile.toolAllowlist toolName <;>
    cases profile.toolAllowlist <;> simp

theorem Engine.evaluate_allowed (engine : Engine) (classifier : Option Classifier) (request : PolicyRequest)
    (lookup : Lookup) : (engine.evaluate classifier request lookup).1.allowed = true ↔
      (classifier.any fun classifier => classifier.deemsDestructive (trimSpace request.toolName) lookup) = false ∧
        ((engine.resolveProfile request.profileName).enforcementMode = .audit ∨ engine.argumentViolations request = [] ∧
            listsBar (engine.resolveProfile request.profileName) (trimSpace request.toolName) = false) := by
  have decided : (engine.profileDecision request).allowed = true ↔
      (engine.resolveProfile request.profileName).enforcementMode = .audit ∨
        engine.argumentViolations request = [] ∧
          listsBar (engine.resolveProfile request.profileName) (trimSpace request.toolName) = false := by
    have mode : effectiveMode (engine.resolveProfile request.profileName).enforcementMode = .audit ↔
        (engine.resolveProfile request.profileName).enforcementMode = .audit := by
      unfold effectiveMode
      cases (engine.resolveProfile request.profileName).enforcementMode <;> simp
    rw [Engine.profileDecision, buildDecision_allowed, Engine.collectViolations, List.append_eq_nil_iff,
      listViolations_eq_nil, mode, or_comm, and_comm]
  cases classifier with
  | none => simpa [Engine.evaluate, checkDestructiveRisk] using decided
  | some classifier =>
    rw [Engine.evaluate_eq, Option.any_some, ← decided]
    cases deemed : classifier.deemsDestructive (trimSpace request.toolName) lookup with
    | true => simp [(deemsDestructive_iff _ _ _).mp deemed, destructiveDecision]
    | false => simp [← deemsDestructive_iff, deemed]

inductive CacheEvent where
  | evaluate (request : PolicyRequest) (lookup : Lookup)
  | invalidate (toolName : String)
  | invalidateAll

def Engine.cacheStep (engine : Engine) (classifier : Classifier) : CacheEvent → Classifier
  | .evaluate request lookup => ((engine.evaluate (some classifier) request lookup).2).getD classifier
  | .invalidate toolName => { classifier with cache := classifier.cache.invalidate toolName }
  | .invalidateAll => { classifier with cache := classifier.cache.invalidateAll }

theorem Engine.cacheStep_faithful (engine : Engine) {classifier : Classifier} (faithful : classifier.Faithful)
    (event : CacheEvent) : (engine.cacheStep classifier event).Faithful := by
  cases event with
  | evaluate request lookup =>
    rw [Engine.cacheStep, Engine.evaluate_eq]
    exact (resolveRiskLevel_faithful faithful).2
  | invalidate toolName =>
    intro other entry held
    exact faithful other entry (ClassificationCache.mem_erase _ _ held)
  | invalidateAll =>
    intro other entry held
    simp [Engine.cacheStep, ClassificationCache.invalidateAll] at held

-- What happens to a classifier: the engine's own steps, and writes of others to the store, which leave the cache alone.
inductive ClassifierEvent where
  | cache (event : CacheEvent)
  | write (table : ClassificationTable)

def Engine.classifierStep (engine : Engine) (classifier : Classifier) : ClassifierEvent → Classifier
  | .cache event => engine.cacheStep classifier event
  | .write table => { classifier with table := table }

def ClassifierEvent.Recognised (classifier : Classifier) : ClassifierEvent → Prop
  | .cache (.evaluate request lookup) => classifier.table.isDestructive request.toolName →
    match classifier.cache.fresh (trimSpace request.toolName) lookup.checkedAt with
    | some cached => cached.riskLevel = .destructive
    | none => lookup.failed = false
  | _ => True

def Engine.BlocksDestructive (engine : Engine) (classifier : Classifier) : ClassifierEvent → Prop
  | .cache (.evaluate request lookup) => classifier.table.isDestructive request.toolName →
    (engine.evaluate (some classifier) request lookup).1.allowed = false
  | _ => True

theorem deemsDestructive_of_recognised {classifier : Classifier} {request : PolicyRequest} {lookup : Lookup}
    (stored : classifier.table.isDestructive request.toolName)
    (recognised : ClassifierEvent.Recognised classifier (.cache (.evaluate request lookup))) :
    classifier.deemsDestructive (trimSpace request.toolName) lookup = true := by
  have known := recognised stored
  obtain ⟨classification, row, level⟩ := stored
  have trimmed : classifier.table.get (trimSpace request.toolName) = some classification := by
    rw [← row, ClassificationTable.get, trimSpace_trimSpace]
    rfl
  unfold Classifier.deemsDestructive
  cases cached : classifier.cache.fresh (trimSpace request.toolName) lookup.checkedAt with
  | some cached => simpa [cached] using known
  | none => simpa [cached, trimmed, level] using known

theorem Engine.blocksDestructive (engine : Engine) {classifier : Classifier} {event : ClassifierEvent}
    (recognised : event.Recognised classifier) : engine.BlocksDestructive classifier event := by
  cases event with
  | cache event =>
    cases event with
    | evaluate request lookup =>
      intro stored
      have deemed := deemsDestructive_of_recognised stored recognised
      rw [← Bool.not_eq_true, engine.evaluate_allowed]
      simp [deemed]
    | invalidate toolName => trivial
    | invalidateAll => trivial
  | write table => trivial

/-- Whatever is cached at first and written to the store in between, no Evaluate call allows a tool that is stored as
destructive, as long as the cache says so too, or has no entry and the store answers. -/
theorem destructive_tools_blocked (engine : Engine) (classifier : Classifier) (events : List ClassifierEvent)
    (recognised : Along engine.classifierStep (fun classifier event => event.Recognised classifier) classifier events) :
    Along engine.classifierStep engine.BlocksDestructive classifier events :=
  recognised.mono fun _ _ => engine.blocksDestructive

theorem resolveRiskLevel_level {classifier : Classifier} {toolName : String} {lookup : Lookup}
    (faithful : classifier.Faithful) (answered : lookup.failed = false) :
    (resolveRiskLevel classifier toolName lookup).1 =
      ((classifier.table.get toolName).map ToolClassification.riskLevel).getD (autoClassify toolName "").1 := by
  cases stored : classifier.table.get toolName with
  | some classification => exact resolveRiskLevel_stored faithful stored fun _ => answered
  | none =>
    have uncached : classifier.cache.entries.lookup toolName = none := by
      cases held : classifier.cache.entries.lookup toolName with
      | none => rfl
      | some entry => simp [faithful toolName entry held] at stored
    simp [resolveRiskLevel, ClassificationCache.get, uncached, resolveStored, answered, stored]

theorem Engine.cacheStep_table (engine : Engine) {classifier : Classifier} (faithful : classifier.Faithful)
    (event : CacheEvent) : (engine.cacheStep classifier event).table = classifier.table := by
  cases event with
  | evaluate request lookup =>
    rw [Engine.cacheStep, Engine.evaluate_eq]
    exact (resolveRiskLevel_faithful faithful).1
  | invalidate toolName => rfl
  | invalidateAll => rfl

theorem Engine.run_faithful (engine : Engine) {classifier : Classifier} (faithful : classifier.Faithful)
    (events : List CacheEvent) : (run engine.cacheStep classifier events).table = classifier.table ∧
      (run engine.cacheStep classifier events).Faithful := by
  induction events generalizing classifier with
  | nil => exact ⟨rfl, faithful⟩
  | cons event rest ih =>
    obtain ⟨same, kept⟩ := ih (engine.cacheStep_faithful faithful event)
    exact ⟨same.trans (engine.cacheStep_table faithful event), kept⟩

/-- Whatever calls, failed lookups and invalidations came before, an Evaluate call that the store answers is decided as
from an empty cache. -/
theorem classification_cache_transparent (engine : Engine) (table : ClassificationTable) (ttl : Int)
    (events : List CacheEvent) (request : PolicyRequest) (checkedAt storedAt : Time) :
    (engine.evaluate (some (run engine.cacheStep ⟨table, .new ttl⟩ events)) request ⟨checkedAt, storedAt, false⟩).1 =
      (engine.evaluate (some ⟨table, .new ttl⟩) request ⟨checkedAt, storedAt, false⟩).1 := by
  have empty : Classifier.Faithful ⟨table, .new ttl⟩ := by
    intro toolName entry held
    simp [ClassificationCache.new] at held
  obtain ⟨same, faithful⟩ := engine.run_faithful empty events
  rw [Engine.evaluate_eq, Engine.evaluate_eq, resolveRiskLevel_level faithful rfl, resolveRiskLevel_level empty rfl, same]

namespace Sample

def engine : Engine := ⟨(∅ : GoMap String (Option PolicyProfile)).insert "default" (some defaultProfile), []⟩

def purgeQueue (level : RiskLevel) : ToolClassification := ⟨"purge_queue", level, "reviewed", false, "admin", 0⟩

def classifications (level : RiskLevel) : ClassificationTable := ClassificationTable.upsert ∅ (purgeQueue level)

def call : PolicyRequest := ⟨"purge_queue", [], "client", "default", none⟩

end Sample

open Sample

theorem reviewed_tool_blocked : Along engine.classifierStep engine.BlocksDestructive ⟨classifications .readOnly, .new 0⟩
      [.cache (.evaluate call ⟨0, 0, false⟩), .write (classifications .destructive),
        .cache (.invalidate "purge_queue"), .cache (.evaluate call ⟨60 * second, 60 * second, false⟩),
        .cache (.evaluate call ⟨120 * second, 120 * second, true⟩)] := by
  apply destructive_tools_blocked
  refine ⟨?_, trivial, trivial, ?_, ?_, trivial⟩
  · rintro ⟨classification, row, level⟩
    have other : ((classifications .readOnly).get call.toolName).all (·.riskLevel ≠ .destructive) = true := by
      decide +kernel
    rw [row] at other
    simp [level] at other
  · exact fun _ => rfl
  · exact fun _ => rfl

theorem failed_lookup_allows_destructive : (classifications .destructive).isDestructive call.toolName ∧
      (engine.evaluate (some ⟨classifications .destructive, .new 0⟩) call ⟨0, 0, true⟩).1.allowed = true ∧
      (engine.evaluate (some (run engine.classifierStep ⟨classifications .readOnly, .new 0⟩
        [.cache (.evaluate call ⟨0, 0, false⟩), .write (classifications .destructive)])) call
          ⟨60 * second, 60 * second, false⟩).1.allowed = true := by
  refine ⟨⟨purgeQueue .destructive, ?_, rfl⟩, ?_, ?_⟩
  · decide +kernel
  · decide +kernel
  · decide +kernel

end McpGateway.Policy
