import McpGateway.RateLimit.MemoryBackend

namespace McpGateway.RateLimit

open Shared

structure SortedSet where
  members : List (String × Int)
  expiresAt : Option Time

def millisecond : Int := 1000000

def SortedSet.live (set : Option SortedSet) (now : Time) : List (String × Int) :=
  match set with
  | none => []
  | some set => if set.expiresAt.any (· ≤ now) then [] else set.members

namespace LimiterCall

variable (call : LimiterCall)

def defaulted : LimiterCall :=
  { call with
    limit := if call.limit ≤ 0 then defaultRateLimit else call.limit
    burst := if call.burst ≤ 0 then defaultRateBurst else call.burst }

def nowMicros : Int := call.now / microsecond

def windowMicros : Int := AllowCall.windowMicros ⟨call.key, call.limit, call.burst, call.nowMicros, none, fun _ => true⟩

def member : String := toString call.nowMicros ++ ":" ++ toString (call.now.tmod 1000000)

end LimiterCall

def ttlMs (windowMicros : Int) : Int :=
  max (truncateInt64 (roundFloat64 (roundFloat64 windowMicros / 1000)).ceil) 1000

structure ScriptArgs where
  now : Int
  window : Int
  limit : Int
  member : String
  ttlMs : Int
  serverNow : Time

def LimiterCall.scriptArgs (call : LimiterCall) : ScriptArgs :=
  ⟨call.nowMicros, call.windowMicros, call.burst, call.member, RateLimit.ttlMs call.windowMicros, call.serverNow⟩

structure ScriptResult where
  allowed : Bool
  remaining : Int
  retryAfterMs : Int
  deriving DecidableEq

-- The numbers of Lua and the scores are doubles; the double nearest to a whole number is whole.
def nearestWhole (n : Int) : Int := (roundFloat64 n).floor

def retryAfterMs (window now : Int) (scores : List Int) : Int :=
  match scores.min? with
  | none => 0
  | some oldest => max (roundFloat64 (nearestWhole (nearestWhole (oldest + window) - now) / 1000)).ceil 0

-- What ZREMRANGEBYSCORE leaves.
def inWindow (window now : Int) (held : List (String × Int)) : List (String × Int) :=
  held.filter fun entry => nearestWhole (now - window) < entry.2

-- lua/sliding_window.lua; a set without members is no key.
def slidingWindow (args : ScriptArgs) (set : Option SortedSet) : ScriptResult × Option SortedSet :=
  let now := nearestWhole args.now
  let window := nearestWhole args.window
  let limit := nearestWhole args.limit
  let members := inWindow window now (SortedSet.live set args.serverNow)
  if members.length < limit then
    (⟨true, nearestWhole (nearestWhole (limit - members.length) - 1), 0⟩,
      some ⟨members.filter (·.1 ≠ args.member) ++ [(args.member, now)],
        some (args.serverNow + args.ttlMs * millisecond)⟩)
  else (⟨false, 0, retryAfterMs window now (members.map Prod.snd)⟩,
    if members = [] then none else some ⟨members, set.bind SortedSet.expiresAt⟩)

def ScriptResult.answer (result : ScriptResult) : Answer :=
  ⟨result.allowed, result.remaining,
    if result.allowed = false ∧ 0 < result.retryAfterMs then wrapInt64 (result.retryAfterMs * millisecond) else 0, none⟩

structure DragonflyBackend (lib : RateLibrary) where
  keyPrefix : String
  sets : GoMap String SortedSet
  healthy : Bool
  fallback : MemoryBackend lib

variable {lib : RateLibrary}

namespace DragonflyBackend

def dfKey (backend : DragonflyBackend lib) (text : String) : String := backend.keyPrefix ++ "rl:" ++ text

def runScript (backend : DragonflyBackend lib) (call : LimiterCall) : DragonflyBackend lib × ScriptResult :=
  let key := backend.dfKey call.mapKey
  let (result, set) := slidingWindow call.scriptArgs (backend.sets.lookup key)
  ({ backend with sets := (set.map (backend.sets.insert key)).getD (backend.sets.erase key) }, result)

def handleUnavailable (backend : DragonflyBackend lib) (call : LimiterCall) : DragonflyBackend lib × Answer :=
  let (fallback, answer) := backend.fallback.allow call
  ({ backend with fallback := fallback }, answer)

-- The server answers whenever the caller is still there.
def allow (backend : DragonflyBackend lib) (made : LimiterCall) : DragonflyBackend lib × Answer :=
  let call := made.defaulted
  if backend.healthy then
    match call.context with
    | .live => ((backend.runScript call).1, (backend.runScript call).2.answer)
    | .cancelled executed =>
      handleUnavailable { (if executed then (backend.runScript call).1 else backend) with healthy := false } call
  else backend.handleUnavailable call

def step (backend : DragonflyBackend lib) : LimiterEvent → DragonflyBackend lib × Option Answer
  | .call call => ((backend.allow call).1, some (backend.allow call).2)
  | .ping => ({ backend with healthy := true }, none)
  | event => ({ backend with fallback := (backend.fallback.step event).1 }, none)

end DragonflyBackend

def LimiterEvent.Live : LimiterEvent → Prop
  | .call made => made.context = .live
  | _ => True

instance : (event : LimiterEvent) → Decidable event.Live
  | .call made => inferInstanceAs (Decidable (made.context = .live))
  | .cleanup _ => isTrue trivial
  | .setDefaults _ _ => isTrue trivial
  | .ping => isTrue trivial

structure DragonflyView (lib : RateLibrary) where
  keyPrefix : String
  set : Option SortedSet
  healthy : Bool
  fallback : MemoryView lib

def DragonflyBackend.view (key : LimiterKey) (backend : DragonflyBackend lib) : DragonflyView lib :=
  ⟨backend.keyPrefix, backend.sets.lookup (backend.dfKey key.text), backend.healthy, backend.fallback.view key⟩

section

variable {key : LimiterKey} {backend left right : DragonflyBackend lib} {call : LimiterCall} {event : LimiterEvent}

theorem dfKey_injective {first second : String} (same : backend.dfKey first = backend.dfKey second) :
    first = second := by
  have runes := congrArg String.toList same
  simp only [DragonflyBackend.dfKey, String.toList_append] at runes
  exact String.toList_injective (List.append_cancel_left runes)

theorem lookup_runScript (backend : DragonflyBackend lib) (call : LimiterCall) (text : String) :
    (backend.runScript call).1.sets.lookup (backend.dfKey text) =
      if text = call.mapKey then (slidingWindow call.scriptArgs (backend.sets.lookup (backend.dfKey call.mapKey))).2
      else backend.sets.lookup (backend.dfKey text) := by
  have keys : backend.dfKey text = backend.dfKey call.mapKey ↔ text = call.mapKey :=
    ⟨dfKey_injective, congrArg backend.dfKey⟩
  simp only [DragonflyBackend.runScript]
  cases (slidingWindow call.scriptArgs (backend.sets.lookup (backend.dfKey call.mapKey))).2 with
  | none => simp [GoMap.lookup_erase_eq, keys]
  | some set => simp [GoMap.lookup_insert_eq, keys]

theorem view_runScript_other (other : call.mapKey ≠ key.text) :
    (backend.runScript call).1.view key = backend.view key := by
  have kept := lookup_runScript backend call key.text
  rw [if_neg (Ne.symm other)] at kept
  exact congrArg (fun set => DragonflyView.mk backend.keyPrefix set backend.healthy (backend.fallback.view key)) kept

theorem runScript_congr (own : call.mapKey = key.text) (same : left.view key = right.view key) :
    (left.runScript call).2 = (right.runScript call).2 ∧
      (left.runScript call).1.view key = (right.runScript call).1.view key := by
  simp only [DragonflyBackend.view, DragonflyView.mk.injEq] at same
  obtain ⟨start, set, healthy, fallback⟩ := same
  have found : left.sets.lookup (left.dfKey call.mapKey) = right.sets.lookup (right.dfKey call.mapKey) := by
    rw [own]
    exact set
  constructor
  · simp only [DragonflyBackend.runScript, found]
  · have first := lookup_runScript left call key.text
    have second := lookup_runScript right call key.text
    rw [if_pos own.symm, found] at first
    rw [if_pos own.symm] at second
    have after : (left.runScript call).1.sets.lookup (left.dfKey key.text) =
        (right.runScript call).1.sets.lookup (right.dfKey key.text) := first.trans second.symm
    simp only [DragonflyBackend.view, DragonflyView.mk.injEq]
    exact ⟨start, after, healthy, fallback⟩

theorem view_healthy (backend : DragonflyBackend lib) (healthy : Bool) :
    ({ backend with healthy := healthy } : DragonflyBackend lib).view key =
      { backend.view key with healthy := healthy } := rfl

theorem view_fallback (backend : DragonflyBackend lib) (fallback : MemoryBackend lib) :
    ({ backend with fallback := fallback } : DragonflyBackend lib).view key =
      { backend.view key with fallback := fallback.view key } := rfl

theorem view_handleUnavailable_other (other : call.mapKey ≠ key.text) :
    (backend.handleUnavailable call).1.view key = backend.view key := by
  simp only [DragonflyBackend.handleUnavailable, view_fallback, MemoryBackend.view_allow_other other]
  rfl

theorem handleUnavailable_congr (own : call.mapKey = key.text) (same : left.view key = right.view key) :
    (left.handleUnavailable call).2 = (right.handleUnavailable call).2 ∧
      (left.handleUnavailable call).1.view key = (right.handleUnavailable call).1.view key := by
  obtain ⟨answer, kept⟩ := MemoryBackend.allow_congr own (congrArg DragonflyView.fallback same)
  simp only [DragonflyBackend.handleUnavailable, view_fallback, same, kept, answer, and_self]

theorem allow_congr (own : call.mapKey = key.text) (same : left.view key = right.view key) :
    (left.allow call).2 = (right.allow call).2 ∧ (left.allow call).1.view key = (right.allow call).1.view key := by
  have defaulted : call.defaulted.mapKey = key.text := own
  have health : left.healthy = right.healthy := congrArg DragonflyView.healthy same
  unfold DragonflyBackend.allow
  dsimp only
  rw [health]
  split_ifs
  · cases call.defaulted.context with
    | live =>
      obtain ⟨result, kept⟩ := runScript_congr defaulted same
      exact ⟨congrArg ScriptResult.answer result, kept⟩
    | cancelled executed =>
      refine handleUnavailable_congr defaulted ?_
      cases executed with
      | false => simp [view_healthy, same]
      | true => simp [view_healthy, (runScript_congr defaulted same).2]
  · exact handleUnavailable_congr defaulted same

end

/-- The call has another text than the key, and does not come from a client that is gone while the backend is healthy. -/
def DragonflyBackend.Undisturbed (key : LimiterKey) (backend : DragonflyBackend lib) (event : LimiterEvent) : Prop :=
  event.Distinct key ∧ (backend.healthy = true → event.Live)
  deriving Decidable

theorem DragonflyBackend.step_other {key : LimiterKey} {backend : DragonflyBackend lib} {event : LimiterEvent}
    (other : event.concerns key = false) (calm : backend.Undisturbed key event) :
    (backend.step event).1.view key = backend.view key := by
  cases event with
  | call call =>
    have distinct : call.defaulted.mapKey ≠ key.text := calm.1
    simp only [DragonflyBackend.step, DragonflyBackend.allow]
    cases healthy : backend.healthy with
    | true =>
      have live : call.defaulted.context = .live := calm.2 healthy
      simp only [if_true, live]
      exact view_runScript_other distinct
    | false => exact view_handleUnavailable_other distinct
  | _ => cases other

theorem DragonflyBackend.step_congr {key : LimiterKey} {left right : DragonflyBackend lib} {event : LimiterEvent}
    (own : event.concerns key = true) (same : left.view key = right.view key) :
    (left.step event).2 = (right.step event).2 ∧ (left.step event).1.view key = (right.step event).1.view key := by
  have fallback : left.fallback.view key = right.fallback.view key := congrArg DragonflyView.fallback same
  cases event with
  | call call =>
    obtain ⟨answer, kept⟩ := allow_congr (LimiterCall.mapKey_of_concerns own) same
    exact ⟨congrArg some answer, kept⟩
  | ping => simp [DragonflyBackend.step, view_healthy, same]
  | cleanup now =>
    have kept := (MemoryBackend.step_congr own fallback).2
    simp [DragonflyBackend.step, view_fallback, same, kept]
  | setDefaults defaultRate defaultBurst =>
    have kept := (MemoryBackend.step_congr own fallback).2
    simp [DragonflyBackend.step, view_fallback, same, kept]

/-- Neither backend lets the calls of other clients and routes change what the calls of one get back, as long as their
texts differ from its own and, with Dragonfly, none is cancelled while the backend is healthy. -/
theorem limiter_isolation (key : LimiterKey) (events : List LimiterEvent) :
    (∀ backend : MemoryBackend lib, (∀ event ∈ events, event.concerns key = false → event.Distinct key) →
      (answers MemoryBackend.step backend events).filter (fun answer => answer.1.concerns key) =
        answers MemoryBackend.step backend (events.filter (LimiterEvent.concerns key))) ∧ ∀ backend : DragonflyBackend lib,
      Along (fun backend event => (backend.step event).1)
        (fun backend event => event.concerns key = false → backend.Undisturbed key event) backend events →
      (answers DragonflyBackend.step backend events).filter (fun answer => answer.1.concerns key) =
        answers DragonflyBackend.step backend (events.filter (LimiterEvent.concerns key)) := by
  constructor
  · intro backend distinct
    exact answers_filter (fun _ _ => MemoryBackend.step_other) (fun _ _ _ => MemoryBackend.step_congr) rfl
      (along_iff_forall.mpr distinct)
  · intro backend calm
    exact answers_filter (fun _ _ => DragonflyBackend.step_other) (fun _ _ _ => DragonflyBackend.step_congr) rfl
      calm

namespace Sample

def oneCall (clientId route : String) (context : CallContext) : LimiterEvent :=
  .call ⟨⟨clientId, route⟩, 1, 1, context, second, second, second, second, second⟩

def dragonfly : DragonflyBackend exactRate := ⟨"mcpgw:", ∅, true, memory⟩

def decisions (given : List (LimiterEvent × Option Answer)) : List (Option Bool) :=
  given.map fun answer => answer.2.map Answer.allowed

def neighbours : List LimiterEvent :=
  [oneCall "alice" "tools" .live, oneCall "bob" "tools" .live, oneCall "alice" "tools" .live]

def confused : List LimiterEvent := [oneCall "a" "b:c" .live, oneCall "a:b" "c" .live]

def departed : List LimiterEvent :=
  [oneCall "alice" "tools" .live, oneCall "bob" "tools" (.cancelled false), oneCall "alice" "tools" .live]

end Sample

open Sample

theorem neighbours_isolated :
    (answers MemoryBackend.step memory neighbours).filter (fun answer => answer.1.concerns ⟨"alice", "tools"⟩) =
        answers MemoryBackend.step memory (neighbours.filter (LimiterEvent.concerns ⟨"alice", "tools"⟩)) ∧
      (answers DragonflyBackend.step dragonfly neighbours).filter (fun answer => answer.1.concerns ⟨"alice", "tools"⟩) =
        answers DragonflyBackend.step dragonfly (neighbours.filter (LimiterEvent.concerns ⟨"alice", "tools"⟩)) := by
  have isolated := @limiter_isolation exactRate ⟨"alice", "tools"⟩ neighbours
  exact ⟨isolated.1 memory (by decide +kernel), isolated.2 dragonfly (by decide +kernel)⟩

theorem limiter_interference : (decisions ((answers MemoryBackend.step memory confused).filter
          fun answer => answer.1.concerns ⟨"a:b", "c"⟩) = [some false] ∧ decisions (answers MemoryBackend.step memory
          (confused.filter (LimiterEvent.concerns ⟨"a:b", "c"⟩))) = [some true]) ∧
    (decisions ((answers DragonflyBackend.step dragonfly departed).filter
          fun answer => answer.1.concerns ⟨"alice", "tools"⟩) = [some true, some true] ∧
      decisions (answers DragonflyBackend.step dragonfly
          (departed.filter (LimiterEvent.concerns ⟨"alice", "tools"⟩))) = [some true, some false]) := by
  decide +kernel

end McpGateway.RateLimit
