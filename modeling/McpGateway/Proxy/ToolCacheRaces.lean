import McpGateway.Proxy.Catalog

namespace McpGateway.Proxy

open Shared

inductive CacheCall where
  | lookup (withMeta : Bool) (name : String)
  | set (name : String) (definition : ToolDefinition) (serverId serverName : String)
  | invalidate
  | invalidateServer (serverId : String)
  deriving DecidableEq

def CacheCall.get (name : String) : CacheCall :=
  .lookup false name

def CacheCall.getWithMeta (name : String) : CacheCall :=
  .lookup true name

inductive CacheAnswer where
  | missed
  | found (definition : ToolDefinition)
  | foundWithMeta (definition : ToolDefinition) (serverId serverName : String)
  | returned
  deriving DecidableEq

def CacheAnswer.hit (withMeta : Bool) (entry : CachedTool) : CacheAnswer :=
  if withMeta then .foundWithMeta entry.definition entry.serverId entry.serverName else .found entry.definition

-- How far a call has come: before it starts, before its first lock, with the entry it read and no lock, before the
-- lock under which it deletes, or done.
inductive CallStage where
  | waiting (call : CacheCall)
  | entered (call : CacheCall)
  | read (withMeta : Bool) (key : String) (entry : CachedTool)
  | expired (key : String)
  | answered (answer : CacheAnswer)
  deriving DecidableEq

structure ClockedCache where
  cache : ToolCache
  clock : Time

namespace ClockedCache

def pass (memory : ClockedCache) (elapsed : Nat) : ClockedCache :=
  { memory with clock := memory.clock + elapsed }

def advance (elapsed : Nat) (memory : ClockedCache) (stage : CallStage) : ClockedCache × CallStage :=
  let memory := memory.pass elapsed
  match stage with
  | .waiting call => (memory, .entered call)
  | .entered (.lookup withMeta name) =>
    if trimSpace name = "" then (memory, .answered .missed)
    else
      match memory.cache.tools.lookup (trimSpace name) with
      | none => (memory, .answered .missed)
      | some entry => (memory, .read withMeta (trimSpace name) entry)
  | .entered (.set name definition serverId serverName) =>
    ({ memory with cache := memory.cache.set name definition serverId serverName memory.clock }, .answered .returned)
  | .entered .invalidate => ({ memory with cache := memory.cache.invalidate }, .answered .returned)
  | .entered (.invalidateServer serverId) =>
    ({ memory with cache := memory.cache.invalidateServer serverId }, .answered .returned)
  | .read withMeta key entry =>
    if memory.cache.ttl < memory.clock - entry.fetchedAt then (memory, .expired key)
    else (memory, .answered (.hit withMeta entry))
  | .expired key =>
    ({ memory with cache := { memory.cache with tools := memory.cache.tools.erase key } }, .answered .missed)
  | .answered answer => (memory, .answered answer)

end ClockedCache

abbrev CachePool := Pool ClockedCache CallStage

theorem get_alone (memory : ClockedCache) (name : String) :
    (fun state => ClockedCache.advance 0 state.1 state.2)^[3] (memory, .entered (.get name)) =
      (⟨(memory.cache.get name memory.clock).2, memory.clock⟩,
        .answered (((memory.cache.get name memory.clock).1.map CacheAnswer.found).getD .missed)) := by
  have still : memory.pass 0 = memory := by simp [ClockedCache.pass]
  simp only [Function.iterate_succ, Function.iterate_zero, Function.comp, id, ClockedCache.advance, CacheCall.get,
    ToolCache.get, still]
  by_cases blank : trimSpace name = ""
  · simp [blank, still]
  · cases found : memory.cache.tools.lookup (trimSpace name) with
    | none => simp [blank, still]
    | some entry =>
      by_cases late : memory.cache.ttl < memory.clock - entry.fetchedAt
      · simp [blank, still, late]
      · simp [blank, still, late, CacheAnswer.hit]

/-- A call under way will not touch the entry under `key`, which is one of the server `serverId`; it may hold a copy of
it that it has read before. -/
def CallStage.Spares (key serverId : String) (copy : CachedTool → Prop) : CallStage → Prop
  | .waiting _ => True
  | .entered (.lookup _ _) => True
  | .entered (.set name _ _ _) => trimSpace name ≠ key
  | .entered .invalidate => False
  | .entered (.invalidateServer id) => trimSpace id = "" ∨ trimSpace id ≠ serverId
  | .read _ other entry => other = key → copy entry
  | .expired other => other ≠ key
  | .answered _ => True

variable {serverId name : String} {copy other : CachedTool → Prop}

theorem CallStage.Spares.mono {key : String} {stage : CallStage} (spares : stage.Spares key serverId copy)
    (implies : ∀ entry, copy entry → other entry) : stage.Spares key serverId other := by
  match stage, spares with
  | .waiting _, _ => trivial
  | .entered (.lookup _ _), _ => trivial
  | .entered (.set _ _ _ _), spares => exact spares
  | .entered (.invalidateServer _), spares => exact spares
  | .read _ _ entry, spares => exact fun same => implies entry (spares same)
  | .expired _, spares => exact spares
  | .answered _, _ => trivial

instance (key serverId : String) (copy : CachedTool → Prop) [DecidablePred copy] (stage : CallStage) :
    Decidable (stage.Spares key serverId copy) := by
  unfold CallStage.Spares
  split <;> infer_instance

def CallStage.StartsSparing (key serverId : String) : CallStage → Prop
  | .waiting call => (CallStage.entered call).Spares key serverId fun _ => True
  | _ => True

instance (key serverId : String) (stage : CallStage) : Decidable (stage.StartsSparing key serverId) := by
  unfold CallStage.StartsSparing
  split <;> infer_instance

def StartsNone (key serverId : String) (pool : CachePool) (turn : Turn Nat) : Prop :=
  ∀ stage ∈ pool.processes[turn.position]?, stage.StartsSparing key serverId

instance (key serverId : String) (pool : CachePool) (turn : Turn Nat) : Decidable (StartsNone key serverId pool turn) :=
  inferInstanceAs (Decidable (∀ stage ∈ (_ : Option CallStage), _))

def InTime (fetchedAt : Time) (pool : CachePool) (turn : Turn Nat) : Prop :=
  pool.memory.clock + turn.input - fetchedAt ≤ pool.memory.cache.ttl

instance (fetchedAt : Time) (pool : CachePool) (turn : Turn Nat) : Decidable (InTime fetchedAt pool turn) :=
  inferInstanceAs (Decidable (_ ≤ _))

structure Kept (key : String) (entry : CachedTool) (pool : CachePool) : Prop where
  stored : pool.memory.cache.tools.lookup key = some entry
  spared : ∀ stage ∈ pool.processes, stage.Spares key entry.serverId (· = entry)

section

variable {key : String} {entry : CachedTool} {memory : ClockedCache} {stage : CallStage} {elapsed : Nat}

theorem ClockedCache.advance_keeps (stored : memory.cache.tools.lookup key = some entry)
    (spares : stage.Spares key entry.serverId (· = entry)) :
    (memory.advance elapsed stage).1.cache.tools.lookup key = some entry := by
  match stage, spares with
  | .waiting _, _ => exact stored
  | .entered (.lookup _ name), _ =>
    simp only [advance]
    split_ifs
    · exact stored
    · cases (memory.pass elapsed).cache.tools.lookup (trimSpace name) with
      | none => exact stored
      | some _ => exact stored
  | .entered (.set name _ _ _), spares =>
    have other : key ≠ trimSpace name := fun same => spares same.symm
    simp only [advance, ToolCache.set]
    split_ifs
    · exact stored
    · rw [GoMap.lookup_insert_eq, if_neg other]
      exact stored
  | .entered (.invalidateServer id), spares =>
    simp only [advance, ToolCache.invalidateServer]
    split_ifs with blank
    · exact stored
    · have kept : entry.serverId ≠ trimSpace id := fun same => spares.resolve_left blank same.symm
      rw [GoMap.lookup_filterMapValues, pass, stored]
      simp [kept]
  | .read _ _ _, _ =>
    simp only [advance]
    split_ifs <;> exact stored
  | .expired other, spares =>
    have apart : key ≠ other := fun same => spares same.symm
    simp only [advance]
    rw [GoMap.lookup_erase_eq, if_neg apart]
    exact stored
  | .answered _, _ => exact stored

theorem CallStage.entered_spares_iff (call : CacheCall) :
    (CallStage.entered call).Spares key serverId copy ↔ (CallStage.entered call).Spares key serverId other := by
  cases call <;> exact Iff.rfl

theorem ClockedCache.advance_spares (stored : memory.cache.tools.lookup key = some entry)
    (spares : stage.Spares key entry.serverId (· = entry)) (starts : stage.StartsSparing key entry.serverId)
    (inTime : memory.clock + elapsed - entry.fetchedAt ≤ memory.cache.ttl) :
    (memory.advance elapsed stage).2.Spares key entry.serverId (· = entry) := by
  match stage, spares with
  | .waiting call, _ => exact (CallStage.entered_spares_iff call).mp starts
  | .entered (.lookup _ name), _ =>
    simp only [advance]
    split_ifs
    · trivial
    · cases found : (memory.pass elapsed).cache.tools.lookup (trimSpace name) with
      | none => trivial
      | some other =>
        intro same
        rw [same] at found
        exact Option.some.inj (found.symm.trans stored)
  | .entered (.set _ _ _ _), _ => trivial
  | .entered (.invalidateServer _), _ => trivial
  | .read _ other held, spares =>
    simp only [advance]
    split_ifs with late
    · rintro rfl
      -- The copy is the entry itself, which is in time.
      rw [spares rfl] at late
      exact absurd inTime (not_le.mpr late)
    · trivial
  | .expired _, _ => trivial
  | .answered _, _ => trivial

end

section

variable {key : String} {entry : CachedTool} {pool : CachePool}

theorem Kept.turn (kept : Kept key entry pool) {next : Turn Nat} (starts : StartsNone key entry.serverId pool next)
    (inTime : InTime entry.fetchedAt pool next) : Kept key entry (pool.turn ClockedCache.advance next) := by
  cases moving : pool.processes[next.position]? with
  | none => rwa [Pool.turn_none moving]
  | some stage =>
    have spares := kept.spared stage (List.mem_of_getElem? moving)
    rw [Pool.turn_some moving]
    refine ⟨ClockedCache.advance_keeps kept.stored spares, ?_⟩
    intro other mem
    rcases List.mem_or_eq_of_mem_set mem with old | rfl
    · exact kept.spared other old
    · exact ClockedCache.advance_spares kept.stored spares (starts stage moving) inTime

def lookupStage (withMeta : Bool) (name : String) (entry : CachedTool) : Nat → CallStage
  | 0 => .waiting (.lookup withMeta name)
  | 1 => .entered (.lookup withMeta name)
  | 2 => .read withMeta (trimSpace name) entry
  | _ => .answered (.hit withMeta entry)

theorem advance_lookupStage {memory : ClockedCache} {elapsed : Nat} (named : trimSpace name ≠ "")
    (stored : memory.cache.tools.lookup (trimSpace name) = some entry)
    (inTime : memory.clock + elapsed - entry.fetchedAt ≤ memory.cache.ttl) (withMeta : Bool) (turns : Nat) :
    (memory.advance elapsed (lookupStage withMeta name entry turns)).2 =
      lookupStage withMeta name entry (turns + 1) := by
  match turns with
  | 0 => rfl
  | 1 => simp [lookupStage, ClockedCache.advance, ClockedCache.pass, named, stored]
  | 2 =>
    have early : ¬ memory.cache.ttl < memory.clock + elapsed - entry.fetchedAt := not_lt.mpr inTime
    simp [lookupStage, ClockedCache.advance, ClockedCache.pass, early]
  | turns + 3 => rfl

theorem Kept.lookup (named : trimSpace name ≠ "") (kept : Kept (trimSpace name) entry pool) {turns : List (Turn Nat)}
    (along : Along (Pool.turn ClockedCache.advance) (fun pool next =>
      StartsNone (trimSpace name) entry.serverId pool next ∧ InTime entry.fetchedAt pool next) pool turns)
    {reader done : Nat} {withMeta : Bool}
    (reads : pool.processes[reader]? = some (lookupStage withMeta name entry done)) :
    (run (Pool.turn ClockedCache.advance) pool turns).processes[reader]? =
      some (lookupStage withMeta name entry (done + turns.countP fun next => next.position = reader)) := by
  induction turns generalizing pool done with
  | nil => exact reads
  | cons next rest ih =>
    obtain ⟨⟨starts, inTime⟩, later⟩ := along
    have kept' := kept.turn starts inTime
    rw [List.countP_cons, run, List.foldl_cons]
    by_cases own : next.position = reader
    · have moved : (pool.turn ClockedCache.advance next).processes[reader]? =
          some (lookupStage withMeta name entry (done + 1)) := by
        rw [Pool.turn_some (own ▸ reads), own, List.getElem?_set_self (List.getElem?_eq_some_iff.mp reads).1,
          advance_lookupStage named kept.stored inTime]
      have final := ih kept' later moved
      simp only [own, decide_true, if_true]
      rw [Nat.add_comm _ 1, ← Nat.add_assoc]
      exact final
    · have unmoved : (pool.turn ClockedCache.advance next).processes[reader]? =
          some (lookupStage withMeta name entry done) := by
        cases moving : pool.processes[next.position]? with
        | none => rwa [Pool.turn_none moving]
        | some stage => rw [Pool.turn_some moving, List.getElem?_set_ne own, reads]
      have final := ih kept' later unmoved
      simp only [own, decide_false, Bool.false_eq_true, if_false, Nat.add_zero]
      exact final

end

/-- When the Set stores its entry, no call is under way that takes the entry out, replaces it or has read the one
before. -/
def SetsQuietly (pool : CachePool) (position : Nat) (name serverId : String) : Prop :=
  ∀ other stage, other ≠ position → pool.processes[other]? = some stage →
    stage.Spares (trimSpace name) (trimSpace serverId) fun _ => False

theorem Kept.of_set {pool : CachePool} {position : Nat} (elapsed : Nat) {serverName : String}
    {definition : ToolDefinition} (named : trimSpace name ≠ "")
    (sets : pool.processes[position]? = some (.entered (.set name definition serverId serverName)))
    (quiet : SetsQuietly pool position name serverId) :
    Kept (trimSpace name) ⟨definition, pool.memory.clock + elapsed, trimSpace serverId, trimSpace serverName⟩
      (pool.turn ClockedCache.advance ⟨position, elapsed⟩) := by
  have moved : pool.turn ClockedCache.advance ⟨position, elapsed⟩ = _ := Pool.turn_some sets
  rw [moved]
  constructor
  · simp [ClockedCache.advance, ClockedCache.pass, ToolCache.set, named]
  · intro stage mem
    obtain ⟨other, found⟩ := List.mem_iff_getElem?.mp mem
    rw [List.getElem?_set] at found
    split_ifs at found with same inside
    · cases found
      trivial
    · exact (quiet other stage (fun same' => same same'.symm) found).mono fun _ impossible => impossible.elim

theorem fresh_entry_kept (pool : CachePool) (position elapsed : Nat) (name serverId serverName : String)
    (definition : ToolDefinition) (named : trimSpace name ≠ "")
    (sets : pool.processes[position]? = some (.entered (.set name definition serverId serverName)))
    (quiet : SetsQuietly pool position name serverId) (turns : List (Turn Nat))
    (along : Along (Pool.turn ClockedCache.advance)
      (fun pool' next => StartsNone (trimSpace name) (trimSpace serverId) pool' next ∧
        InTime (pool.memory.clock + elapsed) pool' next) (pool.turn ClockedCache.advance ⟨position, elapsed⟩) turns)
    (reader : Nat) (withMeta : Bool) (asked : String) (same : trimSpace asked = trimSpace name)
    (starts : (pool.turn ClockedCache.advance ⟨position, elapsed⟩).processes[reader]? =
      some (.waiting (.lookup withMeta asked))) :
    (run (Pool.turn ClockedCache.advance) (pool.turn ClockedCache.advance ⟨position, elapsed⟩)
        turns).processes[reader]? = some (lookupStage withMeta asked
        ⟨definition, pool.memory.clock + elapsed, trimSpace serverId, trimSpace serverName⟩
        (turns.countP fun next => next.position = reader)) := by
  have kept := Kept.of_set elapsed named sets quiet
  rw [← same] at kept along named
  have waits : (pool.turn ClockedCache.advance ⟨position, elapsed⟩).processes[reader]? =
      some (lookupStage withMeta asked
        ⟨definition, pool.memory.clock + elapsed, trimSpace serverId, trimSpace serverName⟩ 0) := starts
  have final := kept.lookup named along waits
  rw [Nat.zero_add] at final
  exact final

namespace Sample

def searchTool (description : String) : ToolDefinition :=
  ⟨"search", description, "", "\x7b\x7d", "", false, "\x7b\x7d"⟩

def staleSearch : CachePool where
  memory := ⟨⟨AList.singleton "search" ⟨searchTool "old", 0, "a", "wiki"⟩, 30 * second⟩, 40 * second⟩
  processes :=
    [.waiting (.get "search"), .waiting (.set "search" (searchTool "new") "a" "wiki"), .waiting (.get "search")]

def turnOf (position : Nat) : Turn Nat := ⟨position, 1000⟩

def storedSearch : CachePool :=
  run (Pool.turn ClockedCache.advance) staleSearch [turnOf 0, turnOf 0, turnOf 0, turnOf 1, turnOf 1]

end Sample

open Sample

theorem fresh_search_kept : ∃ pool : CachePool, SetsQuietly pool 1 "search" "a" ∧
      (run (Pool.turn ClockedCache.advance) pool [turnOf 1, turnOf 2, turnOf 2, turnOf 2]).processes[2]? =
          some (.answered (.found (searchTool "new"))) := by
  have quiet : SetsQuietly (staleSearch.turn ClockedCache.advance (turnOf 1)) 1 "search" "a" := by
    intro other stage apart found
    match other with
    | 0 => cases found; trivial
    | 1 => exact absurd rfl apart
    | 2 => cases found; trivial
    | other + 3 => cases found
  refine ⟨_, quiet, ?_⟩
  exact fresh_entry_kept (staleSearch.turn ClockedCache.advance (turnOf 1)) 1 1000 "search" "a" "wiki"
    (searchTool "new") (by decide) rfl quiet [turnOf 2, turnOf 2, turnOf 2]
    (by decide +kernel) 2 false "search" rfl rfl

theorem stale_get_drops_fresh_search : storedSearch.processes[1]? = some (.answered .returned) ∧
      storedSearch.processes[2]? = some (.waiting (.get "search")) ∧ Along (Pool.turn ClockedCache.advance)
        (fun pool next => StartsNone "search" "a" pool next ∧ InTime (40 * second + 5000) pool next)
        storedSearch [turnOf 0, turnOf 2, turnOf 2] ∧ (run (Pool.turn ClockedCache.advance) storedSearch
        [turnOf 0, turnOf 2, turnOf 2]).processes[2]? = some (.answered .missed) := by
  decide +kernel

end McpGateway.Proxy
