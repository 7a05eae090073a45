import McpGateway.Policy.Engine
import McpGateway.Shared.Interleaving

namespace McpGateway.Policy

open Shared

inductive StoreWrite where
  | upsert (classification : ToolClassification)
  | deleteNotIn (activeToolNames : List String)

def StoreWrite.apply (table : ClassificationTable) : StoreWrite → ClassificationTable
  | .upsert classification => table.upsert classification
  | .deleteNotIn activeToolNames => table.deleteNotIn activeToolNames

def StoreWrite.event : StoreWrite → String
  | .upsert classification => classification.toolName
  | .deleteNotIn _ => "*"

structure Announcement where
  toolName : String
  version : Nat
  deriving DecidableEq

def Announcement.Concerns (event : Announcement) (toolName : String) : Prop :=
  trimSpace event.toolName ≠ "" ∧ (trimSpace event.toolName = "*" ∨ trimSpace event.toolName = toolName)
  deriving Decidable

def ClassificationCache.handle (cache : ClassificationCache) (event : Announcement) : ClassificationCache :=
  if trimSpace event.toolName = "" then cache
  else if trimSpace event.toolName = "*" then cache.invalidateAll
  else cache.invalidate (trimSpace event.toolName)

structure CachedStore where
  past : List ClassificationTable
  table : ClassificationTable
  published : List Announcement
  handled : List Announcement
  cache : ClassificationCache

namespace CachedStore

def versions (store : CachedStore) : List ClassificationTable :=
  store.past ++ [store.table]

def write (store : CachedStore) (change : StoreWrite) : CachedStore :=
  { store with
    past := store.past ++ [store.table]
    table := change.apply store.table
    published := store.published ++ [⟨change.event, store.past.length + 1⟩] }

-- Events may be handled late, in any order, more than once or never.
def handle (store : CachedStore) (position : Nat) : CachedStore :=
  match store.published[position]? with
  | none => store
  | some event => { store with handled := event :: store.handled, cache := store.cache.handle event }

end CachedStore

inductive Stage where
  | starting
  | expired
  | missed
  | read (classification : ToolClassification) (version : Nat)
  | used (level : RiskLevel)
  deriving DecidableEq

-- A call of Evaluate up to the risk level it uses; `before` are the events handled when it looked into the cache.
structure Evaluation where
  toolName : String
  before : List Announcement
  stage : Stage
  deriving DecidableEq

structure Reading where
  now : Time
  answered : Bool

def Evaluation.advance (reading : Reading) (store : CachedStore) (eval : Evaluation) :
    CachedStore × Evaluation :=
  match eval.stage with
  | .starting =>
    let started := { eval with before := store.handled }
    match store.cache.entries.lookup eval.toolName with
    | none => (store, { started with stage := .missed })
    | some entry =>
      if entry.expiresAt < reading.now then (store, { started with stage := .expired })
      else (store, { started with stage := .used entry.classification.riskLevel })
  | .expired =>
    ({ store with cache := store.cache.invalidate eval.toolName }, { eval with stage := .missed })
  | .missed =>
    if reading.answered then
      match store.table.get eval.toolName with
      | none => (store, { eval with stage := .used (autoClassify eval.toolName "").1 })
      | some classification => (store, { eval with stage := .read classification store.past.length })
    else (store, { eval with stage := .used .unknown })
  | .read classification _ =>
    ({ store with cache := store.cache.set eval.toolName classification reading.now },
      { eval with stage := .used classification.riskLevel })
  | .used _ => (store, eval)

theorem evaluation_alone (reading : Reading) (store : CachedStore) (toolName : String) :
    let final := (fun state => Evaluation.advance reading state.1 state.2)^[4] (store, ⟨toolName, [], .starting⟩)
    let resolved := resolveRiskLevel ⟨store.table, store.cache⟩ toolName ⟨reading.now, reading.now, !reading.answered⟩
    final.2.stage = .used resolved.1 ∧ final.1.cache = resolved.2.cache := by
  simp only [Function.iterate_succ, Function.iterate_zero, Function.comp_apply, id, resolveRiskLevel,
    ClassificationCache.get]
  cases held : store.cache.entries.lookup toolName with
  | none =>
    cases answered : reading.answered <;> cases row : store.table.get toolName <;>
      simp [Evaluation.advance, resolveStored, held, answered, row]
  | some entry =>
    by_cases late : entry.expiresAt < reading.now
    · cases answered : reading.answered <;> cases row : store.table.get toolName <;>
        simp [Evaluation.advance, resolveStored, ClassificationCache.invalidate, held, late, answered, row]
    · simp [Evaluation.advance, held, late]

inductive Happening where
  | evaluate (turn : Turn Reading)
  | write (change : StoreWrite)
  | handle (position : Nat)

abbrev Evaluations := Pool CachedStore Evaluation

def Evaluations.step (pool : Evaluations) : Happening → Evaluations
  | .evaluate turn => Pool.turn Evaluation.advance pool turn
  | .write change => { pool with memory := pool.memory.write change }
  | .handle position => { pool with memory := pool.memory.handle position }

def Evaluations.start (table : ClassificationTable) (ttl : Int) (calls : List String) : Evaluations :=
  ⟨⟨[], table, [], [], .new ttl⟩, calls.map fun name => ⟨trimSpace name, [], .starting⟩⟩

def Since (events : List Announcement) (toolName : String) (version : Nat) : Prop :=
  ∀ event ∈ events, event.Concerns toolName → event.version ≤ version
  deriving Decidable

def CachedStore.Supports (store : CachedStore) (events : List Announcement) (toolName : String)
    (row : Option ToolClassification) : Prop :=
  ∃ version table, store.versions[version]? = some table ∧ Since events toolName version ∧ table.get toolName = row

def rowLevel (toolName : String) : Option ToolClassification → RiskLevel
  | none => (autoClassify toolName "").1
  | some classification => classification.riskLevel

def Evaluation.UpToDate (store : CachedStore) (eval : Evaluation) : Prop :=
  ∀ level, eval.stage = .used level →
    ∃ row, store.Supports eval.before eval.toolName row ∧ level = rowLevel eval.toolName row

/-- The store answers, and no row goes into the cache that was read before an update whose event has been handled. -/
def Evaluation.Punctual (handled : List Announcement) (reading : Reading) (eval : Evaluation) : Prop :=
  match eval.stage with
  | .missed => reading.answered = true
  | .read _ version => Since handled eval.toolName version
  | _ => True

instance Evaluation.decidablePunctual (handled : List Announcement) (reading : Reading) :
    (eval : Evaluation) → Decidable (eval.Punctual handled reading)
  | ⟨_, _, .missed⟩ => inferInstanceAs (Decidable (reading.answered = true))
  | ⟨toolName, _, .read _ version⟩ => inferInstanceAs (Decidable (Since handled toolName version))
  | ⟨_, _, .starting⟩ => isTrue trivial
  | ⟨_, _, .expired⟩ => isTrue trivial
  | ⟨_, _, .used _⟩ => isTrue trivial

def Punctual (pool : Evaluations) : Happening → Prop
  | .evaluate turn => ∀ eval ∈ pool.processes[turn.position]?,
    eval.Punctual pool.memory.handled turn.input
  | _ => True

instance (pool : Evaluations) (happening : Happening) : Decidable (Punctual pool happening) := by
  unfold Punctual
  split <;> infer_instance

def Evaluation.Sound (store : CachedStore) (eval : Evaluation) : Prop :=
  eval.before ⊆ store.handled ∧ eval.UpToDate store ∧
  ∀ classification version, eval.stage = .read classification version →
    ∃ table, store.versions[version]? = some table ∧ table.get eval.toolName = some classification ∧
      Since eval.before eval.toolName version

structure CachedStore.Sound (store : CachedStore) : Prop where
  announced : ∀ event ∈ store.published, event.version ≤ store.past.length
  genuine : store.handled ⊆ store.published
  cached : ∀ toolName entry, store.cache.entries.lookup toolName = some entry →
    store.Supports store.handled toolName (some entry.classification)

section

variable {store : CachedStore} {eval : Evaluation} {reading : Reading} {toolName : String}
  {events : List Announcement} {row : Option ToolClassification}

theorem CachedStore.versions_write {change : StoreWrite} {version : Nat} {table : ClassificationTable}
    (stored : store.versions[version]? = some table) : (store.write change).versions[version]? = some table := by
  have inside : version < store.versions.length := (List.getElem?_eq_some_iff.mp stored).1
  have appended : (store.write change).versions = store.versions ++ [change.apply store.table] := rfl
  rw [appended, List.getElem?_append_left inside, stored]

theorem CachedStore.Supports.write (supports : store.Supports events toolName row) (change : StoreWrite) :
    (store.write change).Supports events toolName row := by
  obtain ⟨version, table, stored, since, same⟩ := supports
  exact ⟨version, table, versions_write stored, since, same⟩

theorem CachedStore.Sound.since (sound : store.Sound) (handled : events ⊆ store.handled) :
    Since events toolName store.past.length :=
  fun event mem _ => sound.announced event (sound.genuine (handled mem))

theorem CachedStore.current_version : store.versions[store.past.length]? = some store.table := by
  simp [CachedStore.versions]

theorem lookup_handle {cache : ClassificationCache} {event : Announcement} {entry : CacheEntry}
    (held : (cache.handle event).entries.lookup toolName = some entry) :
    cache.entries.lookup toolName = some entry ∧ ¬ event.Concerns toolName := by
  unfold ClassificationCache.handle at held
  split_ifs at held with blank all
  · exact ⟨held, fun concerns => concerns.1 blank⟩
  · simp [ClassificationCache.invalidateAll] at held
  · have apart : toolName ≠ trimSpace event.toolName := by
      intro same
      subst same
      simp [ClassificationCache.invalidate] at held
    refine ⟨ClassificationCache.mem_erase _ _ held, fun concerns => ?_⟩
    exact concerns.2.elim all fun same => apart same.symm

theorem CachedStore.Sound.write (sound : store.Sound) (change : StoreWrite) : (store.write change).Sound where
  announced event published := by
    have length : (store.write change).past.length = store.past.length + 1 := by simp [CachedStore.write]
    rw [length]
    cases List.mem_append.mp published with
    | inl prior => exact Nat.le_succ_of_le (sound.announced event prior)
    | inr new =>
      rw [List.mem_singleton.mp new]
  genuine := fun event mem => List.mem_append_left _ (sound.genuine mem)
  cached toolName entry held := (sound.cached toolName entry held).write change

theorem CachedStore.Sound.handle (sound : store.Sound) (position : Nat) : (store.handle position).Sound := by
  unfold CachedStore.handle
  cases found : store.published[position]? with
  | none => exact sound
  | some event =>
    have published : event ∈ store.published := List.mem_of_getElem? found
    refine ⟨sound.announced, ?_, ?_⟩
    · intro other mem
      cases List.mem_cons.mp mem with
      | inl same => rwa [same]
      | inr prior => exact sound.genuine prior
    · intro toolName entry held
      simp only at held
      obtain ⟨before, unconcerned⟩ := lookup_handle held
      obtain ⟨version, table, stored, since, same⟩ := sound.cached toolName entry before
      refine ⟨version, table, stored, fun other mem concerns => ?_, same⟩
      cases List.mem_cons.mp mem with
      | inl same => exact absurd (same ▸ concerns) unconcerned
      | inr prior => exact since other prior concerns

theorem Evaluation.Sound.write (sound : eval.Sound store) (change : StoreWrite) :
    eval.Sound (store.write change) := by
  obtain ⟨before, upToDate, read⟩ := sound
  refine ⟨before, fun level used => ?_, fun classification version stage => ?_⟩
  · obtain ⟨row, supports, same⟩ := upToDate level used
    exact ⟨row, supports.write change, same⟩
  · obtain ⟨table, stored, found⟩ := read classification version stage
    exact ⟨table, CachedStore.versions_write stored, found⟩

theorem Evaluation.Sound.handle (sound : eval.Sound store) (position : Nat) :
    eval.Sound (store.handle position) := by
  unfold CachedStore.handle
  cases store.published[position]? with
  | none => exact sound
  | some event => exact ⟨fun _ mem => List.mem_cons_of_mem _ (sound.1 mem), sound.2⟩

theorem Evaluation.advance_cached (reading : Reading) (store : CachedStore) (eval : Evaluation) :
    ∃ cache, (eval.advance reading store).1 = { store with cache := cache } := by
  unfold Evaluation.advance
  split
  · dsimp only
    split
    · exact ⟨store.cache, rfl⟩
    · split_ifs <;> exact ⟨store.cache, rfl⟩
  · exact ⟨_, rfl⟩
  · split_ifs
    · split <;> exact ⟨store.cache, rfl⟩
    · exact ⟨store.cache, rfl⟩
  · exact ⟨_, rfl⟩
  · exact ⟨store.cache, rfl⟩

theorem sound_of_used {before : List Announcement} {level : RiskLevel} (handled : before ⊆ store.handled)
    (supports : store.Supports before toolName row) (same : level = rowLevel toolName row) :
    (Evaluation.mk toolName before (.used level)).Sound store := by
  refine ⟨handled, fun _ used => ?_, fun _ _ stage => by cases stage⟩
  cases used
  exact ⟨row, supports, same⟩

theorem sound_of_waiting {before : List Announcement} {stage : Stage} (handled : before ⊆ store.handled)
    (waiting : stage = .missed ∨ stage = .expired) : (Evaluation.mk toolName before stage).Sound store := by
  cases waiting <;> subst_vars <;> exact ⟨handled, by simp [Evaluation.UpToDate], by simp⟩

theorem CachedStore.Sound.invalidate (sound : store.Sound) (name : String) :
    ({ store with cache := store.cache.invalidate name } : CachedStore).Sound :=
  ⟨sound.announced, sound.genuine, fun toolName entry held =>
    sound.cached toolName entry (ClassificationCache.mem_erase _ _ held)⟩

theorem CachedStore.Sound.set (sound : store.Sound) {classification : ToolClassification} (now : Time)
    (supports : store.Supports store.handled toolName (some classification)) :
    ({ store with cache := store.cache.set toolName classification now } : CachedStore).Sound := by
  refine ⟨sound.announced, sound.genuine, fun other entry held => ?_⟩
  change (store.cache.entries.insert toolName _).lookup other = some entry at held
  rw [GoMap.lookup_insert_eq] at held
  split_ifs at held with same
  · cases held
    rwa [same]
  · exact sound.cached other entry held

theorem Evaluation.advance_sound (sound : store.Sound) (own : eval.Sound store)
    (punctual : eval.Punctual store.handled reading) : (eval.advance reading store).1.Sound ∧
      (eval.advance reading store).2.Sound (eval.advance reading store).1 := by
  cases eval with
  | mk toolName before stage =>
    cases stage with
    | starting =>
      unfold Evaluation.advance
      dsimp only
      cases held : store.cache.entries.lookup toolName with
      | none => exact ⟨sound, sound_of_waiting (List.Subset.refl _) (.inl rfl)⟩
      | some entry =>
        dsimp only
        split_ifs
        · exact ⟨sound, sound_of_waiting (List.Subset.refl _) (.inr rfl)⟩
        · exact ⟨sound, sound_of_used (List.Subset.refl _) (sound.cached toolName entry held) rfl⟩
    | expired => exact ⟨sound.invalidate toolName, sound_of_waiting own.1 (.inl rfl)⟩
    | missed =>
      unfold Evaluation.advance
      dsimp only
      have answered : reading.answered = true := punctual
      rw [if_pos answered]
      have since : Since before toolName store.past.length := sound.since own.1
      cases row : store.table.get toolName with
      | none => exact ⟨sound, sound_of_used own.1 ⟨_, _, CachedStore.current_version, since, row⟩ rfl⟩
      | some classification =>
        dsimp only
        refine ⟨sound, own.1, ?_, ?_⟩
        · intro level used
          cases used
        · intro classification version read
          cases read
          exact ⟨store.table, CachedStore.current_version, row, since⟩
    | read classification version =>
      obtain ⟨table, stored, row, since⟩ := own.2.2 classification version rfl
      exact ⟨sound.set reading.now ⟨version, table, stored, punctual, row⟩,
        sound_of_used own.1 ⟨version, table, stored, since, row⟩ rfl⟩
    | used level => exact ⟨sound, own⟩

end

def Evaluations.Sound (pool : Evaluations) : Prop :=
  pool.memory.Sound ∧ ∀ eval ∈ pool.processes, eval.Sound pool.memory

theorem turn_sound {pool : Evaluations} {turn : Turn Reading} (sound : pool.Sound)
    (punctual : Punctual pool (.evaluate turn)) : Evaluations.Sound (pool.turn Evaluation.advance turn) := by
  have own (eval : Evaluation) (moves : eval ∈ pool.processes[turn.position]?) :=
    Evaluation.advance_sound sound.1 (sound.2 eval (List.mem_of_getElem? moves)) (punctual eval moves)
  constructor
  · cases moving : pool.processes[turn.position]? with
    | none => simpa only [Pool.turn_none moving] using sound.1
    | some eval => simpa only [Pool.turn_some moving] using (own eval moving).1
  · refine Pool.turn_asserted (fun store eval => Evaluation.Sound store eval) sound.2
      (fun eval moves _ => (own eval moves).2) ?_
    intro eval _ _ other _ kept
    obtain ⟨cache, unchanged⟩ := Evaluation.advance_cached turn.input pool.memory eval
    rw [unchanged]
    exact kept

theorem step_sound {pool : Evaluations} {happening : Happening} (sound : pool.Sound)
    (punctual : Punctual pool happening) : (pool.step happening).Sound := by
  cases happening with
  | evaluate turn => exact turn_sound sound punctual
  | write change => exact ⟨sound.1.write change, fun eval mem => (sound.2 eval mem).write change⟩
  | handle position =>
    exact ⟨sound.1.handle position, fun eval mem => (sound.2 eval mem).handle position⟩

theorem start_sound (table : ClassificationTable) (ttl : Int) (calls : List String) :
    (Evaluations.start table ttl calls).Sound := by
  refine ⟨⟨by simp [Evaluations.start], by simp [Evaluations.start], ?_⟩, ?_⟩
  · intro toolName entry held
    simp [Evaluations.start, ClassificationCache.new] at held
  · intro eval mem
    obtain ⟨name, -, rfl⟩ := List.mem_map.mp mem
    exact ⟨by simp, by simp [Evaluation.UpToDate], by simp⟩

/-- Whatever the calls, the updates and the handled events are interleaved with, as long as no row is cached after the
event of a later update, every call uses the level of a version no older than the events handled before it. -/
theorem no_stale_level (table : ClassificationTable) (ttl : Int) (calls : List String) (happenings : List Happening)
    (punctual : Along Evaluations.step Punctual (.start table ttl calls) happenings) :
    ∀ eval ∈ (run Evaluations.step (.start table ttl calls) happenings).processes,
      eval.UpToDate (run Evaluations.step (.start table ttl calls) happenings).memory := by
  have sound : (run Evaluations.step (.start table ttl calls) happenings).Sound :=
    punctual.run_invariant (start_sound table ttl calls) fun _ _ => step_sound
  exact fun eval mem => (sound.2 eval mem).2.1

section

def scaleRow (level : RiskLevel) : ToolClassification := ⟨"scale", level, "", false, "admin", 0⟩

def scaleStart : Evaluations := .start (ClassificationTable.upsert ∅ (scaleRow .readOnly)) 0 ["scale", "scale"]

def evaluateAt (position : Nat) : Happening := .evaluate ⟨position, ⟨0, true⟩⟩

def promptCalls : List Happening :=
  [evaluateAt 0, evaluateAt 0, evaluateAt 0, .write (.upsert (scaleRow .destructive)), .handle 0,
    evaluateAt 1, evaluateAt 1, evaluateAt 1]

def lateCalls : List Happening :=
  [evaluateAt 0, evaluateAt 0, .write (.upsert (scaleRow .destructive)), .handle 0, evaluateAt 0, evaluateAt 1]

theorem no_stale_level_prompt : ((run Evaluations.step scaleStart promptCalls).processes.map Evaluation.stage =
      [.used .readOnly, .used .destructive]) ∧ ∀ eval ∈ (run Evaluations.step scaleStart promptCalls).processes,
      eval.UpToDate (run Evaluations.step scaleStart promptCalls).memory :=
  ⟨by decide +kernel, no_stale_level _ 0 ["scale", "scale"] promptCalls (by decide +kernel)⟩

theorem late_fill_is_stale :
    (run Evaluations.step scaleStart lateCalls).processes[1]? = some ⟨"scale", [⟨"scale", 1⟩], .used .readOnly⟩ ∧
    ¬ ∀ eval ∈ (run Evaluations.step scaleStart lateCalls).processes,
      eval.UpToDate (run Evaluations.step scaleStart lateCalls).memory := by
  have second : (run Evaluations.step scaleStart lateCalls).processes[1]? =
      some ⟨"scale", [⟨"scale", 1⟩], .used .readOnly⟩ := by decide +kernel
  refine ⟨second, fun upToDate => ?_⟩
  obtain ⟨row, ⟨version, table, stored, since, found⟩, level⟩ :=
    upToDate _ (List.mem_of_getElem? second) .readOnly rfl
  have current : 1 ≤ version := since ⟨"scale", 1⟩ List.mem_cons_self (by decide +kernel)
  have levels : (run Evaluations.step scaleStart lateCalls).memory.versions.map
      (fun table => rowLevel "scale" (table.get "scale")) = [.readOnly, .destructive] := by decide +kernel
  have listed : ([.readOnly, .destructive] : List RiskLevel)[version]? = some .readOnly := by
    rw [← levels, List.getElem?_map, stored, Option.map_some, found, level]
  cases version with
  | zero => omega
  | succ later => cases later <;> simp at listed

end

end McpGateway.Policy
