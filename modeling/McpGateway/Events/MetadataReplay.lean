import McpGateway.Proxy.Discovery
import McpGateway.Shared.Runs

namespace McpGateway.Events

open Shared Proxy

-- Where SetOnUpdate stands; it has read the buffered message under the lock when it replays it.
inductive SetterStage where
  | waiting
  | replaying (message : List ToolMetadata)
  | returned
  deriving DecidableEq

/-- A ToolMetadataConfigHandler without a callback at first, with the Handle calls to come, the message that the
current one passes to the callback, and the messages of the callback invocations that have finished. -/
structure MetadataHandler where
  onUpdate : Bool
  lastMessage : Option (List ToolMetadata)
  calls : List (List ToolMetadata)
  notifying : Option (List ToolMetadata)
  setter : SetterStage
  index : DiscoveryIndex
  finished : List (List ToolMetadata)

namespace MetadataHandler

def start (index : DiscoveryIndex) (calls : List (List ToolMetadata)) : MetadataHandler :=
  ⟨false, none, calls, none, .waiting, index, []⟩

def callback (handler : MetadataHandler) (message : List ToolMetadata) : MetadataHandler :=
  { handler with index := handler.index.applyMetadata message, finished := handler.finished ++ [message] }

def handle (handler : MetadataHandler) : MetadataHandler :=
  match handler.notifying, handler.calls with
  | some message, _ => { handler.callback message with notifying := none }
  | none, [] => handler
  | none, message :: calls =>
    { handler with
      calls := calls
      lastMessage := some message
      notifying := if handler.onUpdate then some message else none }

def setOnUpdate (handler : MetadataHandler) : MetadataHandler :=
  match handler.setter with
  | .waiting =>
    { handler with
      onUpdate := true
      setter := match handler.lastMessage with
        | none => .returned
        | some message => .replaying message }
  | .replaying message => { handler.callback message with setter := .returned }
  | .returned => handler

inductive Mover where
  | handle | setOnUpdate

def step (handler : MetadataHandler) : Mover → MetadataHandler
  | .handle => handler.handle
  | .setOnUpdate => handler.setOnUpdate

/-- A replay is of the latest message, unless a Handle call is yet to invoke the callback. -/
def Timely (handler : MetadataHandler) : Mover → Prop
  | .handle => True
  | .setOnUpdate => ∀ message, handler.setter = .replaying message →
    handler.lastMessage = some message ∨ handler.notifying ≠ none ∨ handler.calls ≠ []

structure Returned (handler : MetadataHandler) : Prop where
  handled : handler.calls = [] ∧ handler.notifying = none
  set : handler.setter = .returned

structure Current (handler : MetadataHandler) (last : Option (List ToolMetadata)) : Prop where
  ahead : handler.calls.getLast?.or handler.lastMessage = last
  unset : handler.setter = .waiting ∧ handler.onUpdate = false ∧ handler.notifying = none ∧ handler.finished = [] ∨
    handler.setter ≠ .waiting ∧ handler.onUpdate = true
  passed : ∀ message, handler.notifying = some message → handler.lastMessage = some message
  settled : handler.Returned → handler.finished.getLast? = last
  applied : ∀ message, handler.finished.getLast? = some message → handler.index.metadata = message

variable {handler : MetadataHandler} {last : Option (List ToolMetadata)}

theorem Current.handle (current : handler.Current last) : handler.handle.Current last := by
  obtain ⟨ahead, unset, passed, settled, applied⟩ := current
  cases notifying : handler.notifying with
  | some message =>
    simp only [MetadataHandler.handle, notifying, callback]
    refine ⟨ahead, by simpa [notifying] using unset, by simp, ?_, by simp [DiscoveryIndex.applyMetadata]⟩
    rintro ⟨⟨(handled : handler.calls = []), -⟩, -⟩
    simpa [← ahead, handled] using (passed message notifying).symm
  | none =>
    cases calls : handler.calls with
    | nil => simpa [MetadataHandler.handle, notifying, calls] using ⟨ahead, unset, passed, settled, applied⟩
    | cons message rest =>
      simp only [MetadataHandler.handle, notifying, calls]
      refine ⟨?_, ?_, ?_, ?_, applied⟩
      · rw [← ahead, calls, List.getLast?_cons]
        cases rest.getLast? <;> simp
      · rcases unset with ⟨waiting, off, -, none_yet⟩ | set
        · exact .inl ⟨waiting, by simp [off], by simp [off], none_yet⟩
        · exact .inr set
      · intro other passes
        split_ifs at passes with on
        exact passes
      · rintro ⟨⟨-, idle⟩, returned⟩
        rcases unset with ⟨waiting, -⟩ | ⟨-, on⟩
        · simp [waiting] at returned
        · simp [on] at idle

theorem Current.setOnUpdate (current : handler.Current last) (timely : handler.Timely .setOnUpdate) :
    handler.setOnUpdate.Current last := by
  obtain ⟨ahead, unset, passed, settled, applied⟩ := current
  cases stage : handler.setter with
  | returned => simpa [MetadataHandler.setOnUpdate, stage] using ⟨ahead, unset, passed, settled, applied⟩
  | replaying message =>
    simp only [MetadataHandler.setOnUpdate, stage, callback]
    refine ⟨ahead, by simpa [stage] using unset, passed, ?_, by simp [DiscoveryIndex.applyMetadata]⟩
    rintro ⟨⟨(handled : handler.calls = []), idle⟩, -⟩
    rcases timely message stage with latest | busy | more
    · simpa [← ahead, handled] using latest.symm
    · exact absurd idle busy
    · exact absurd handled more
  | waiting =>
    obtain ⟨-, -, idle, unfinished⟩ | ⟨set, -⟩ := unset
    · simp only [MetadataHandler.setOnUpdate, stage]
      refine ⟨ahead, .inr ⟨?_, rfl⟩, passed, ?_, applied⟩
      · cases handler.lastMessage <;> simp
      · rintro ⟨⟨(handled : handler.calls = []), -⟩, returned⟩
        cases buffered : handler.lastMessage with
        | none => simpa [← ahead, handled, buffered] using unfinished
        | some message => simp [buffered] at returned
    · exact absurd stage set

/-- When every call has returned, the last callback to finish was for the message of the last Handle call, and the
discovery index holds its metadata. -/
theorem latest_metadata_wins (index : DiscoveryIndex) (calls : List (List ToolMetadata)) (movers : List Mover)
    (timely : Along step Timely (start index calls) movers) (returned : (run step (start index calls) movers).Returned) :
    (run step (start index calls) movers).finished.getLast? = calls.getLast? ∧
      ∀ message ∈ calls.getLast?, (run step (start index calls) movers).index.metadata = message := by
  have initial : (start index calls).Current calls.getLast? := by
    refine ⟨by simp [start], .inl ⟨rfl, rfl, rfl, rfl⟩, by simp [start], ?_, by simp [start]⟩
    rintro ⟨-, waiting⟩
    cases waiting
  have kept (handler : MetadataHandler) (mover : Mover) (current : handler.Current calls.getLast?)
      (allowed : handler.Timely mover) : (handler.step mover).Current calls.getLast? := by
    cases mover with
    | handle => exact current.handle
    | setOnUpdate => exact current.setOnUpdate allowed
  have current := timely.run_invariant initial kept
  have same := current.settled returned
  exact ⟨same, fun message last => current.applied message (same.trans last)⟩

def Sample.metadata (category : String) : List ToolMetadata := [⟨"a", category, "", [], 0⟩]

open Sample

theorem replayed_metadata_wins :
    let final := run step (start .new [metadata "x", metadata "y"])
      [.handle, .handle, .setOnUpdate, .setOnUpdate]
    final.finished = [metadata "y"] ∧ final.index.metadata = metadata "y" := by
  refine ⟨by decide +kernel, (latest_metadata_wins .new _ _ ?_ ⟨by decide +kernel, by decide +kernel⟩).2 _ rfl⟩
  simp [Along, Timely, start, step, MetadataHandler.handle, MetadataHandler.setOnUpdate]

theorem older_metadata_wins :
    let final := run step (start .new [metadata "x", metadata "y"])
      [.handle, .setOnUpdate, .handle, .handle, .setOnUpdate]
    (final.calls = [] ∧ final.notifying = none ∧ final.setter = .returned) ∧
      final.finished = [metadata "y", metadata "x"] ∧ final.index.metadata = metadata "x" := by
  decide +kernel

end MetadataHandler

end McpGateway.Events
