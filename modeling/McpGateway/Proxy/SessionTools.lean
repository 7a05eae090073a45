import McpGateway.Proxy.MetaTools
import Mathlib.Data.Finset.Card

namespace McpGateway.Proxy

open Shared

abbrev SessionTools := GoMap String ToolDefinition

-- A get_tool_schema call with progressive discovery, or the tools of an orchestrate plan: the names, and the index when
-- they are looked up.
structure ActivationRequest where
  index : DiscoveryIndex
  names : List String

def ActivationRequest.tools (request : ActivationRequest) : List ToolDefinition :=
  request.index.getTools request.names

def maxActivatedSessionTools : Int := 50

def addSessionTools (session : SessionTools) (tools : List ToolDefinition) : SessionTools :=
  tools.foldl (fun session tool => session.insert tool.name tool) session

-- What activateSessionTools adds, by the tools it has read from the session; nothing is no call to AddSessionTools.
def newTools (old : SessionTools) (tools : List ToolDefinition) : List ToolDefinition :=
  (tools.filter fun tool => tool.name ∉ old).take (maxActivatedSessionTools - old.keys.length).toNat

def activateSessionTools (request : ActivationRequest) (old session : SessionTools) : Option SessionTools :=
  if maxActivatedSessionTools - old.keys.length ≤ 0 then none
  else if (request.tools.filter fun tool => tool.name ∉ old) = [] then none
  else some (addSessionTools session (newTools old request.tools))

def getSessionTools (_ : ActivationRequest) (session : SessionTools) : SessionTools :=
  session

abbrev SessionPool := Pool (Journal SessionTools ActivationRequest) (Editing ActivationRequest SessionTools)

open ReadModifyWrite (advance beginning)

-- The input says whether the session supports tools, and then whether AddSessionTools succeeds.
def SessionPool.step : SessionPool → Turn Bool → SessionPool :=
  Pool.turn (advance getSessionTools activateSessionTools)

def SessionTools.names (session : SessionTools) : Finset String :=
  session.keys.toFinset

def ActivationRequest.toolNames (request : ActivationRequest) : Finset String :=
  (request.tools.map ToolDefinition.name).toFinset

/-- A request that adds its tools uses the allowance for tools that were not active: as many are active afterwards as
the limit allows of those before and those asked for. -/
def SpendsOnNew (pool : SessionPool) (turn : Turn Bool) : Prop :=
  ∀ edit ∈ pool.processes[turn.position]?, ∀ old, edit.phase = .holding old → turn.input = true →
    ((pool.step turn).memory.current.names.card : Int) =
      min maxActivatedSessionTools (pool.memory.current.names ∪ edit.request.toolNames).card

/-- Nothing has been added to the session since the request read its tools, and it asks for no tool twice. -/
def Undisturbed (pool : SessionPool) (turn : Turn Bool) : Prop :=
  ∀ edit ∈ pool.processes[turn.position]?, ∀ old, edit.phase = .holding old →
    old.names = pool.memory.current.names ∧ (edit.request.tools.map ToolDefinition.name).Nodup

theorem SessionTools.length_keys (session : SessionTools) : session.keys.length = session.names.card :=
  (List.toFinset_card_of_nodup session.keys_nodup).symm

theorem SessionTools.mem_names {session : SessionTools} {name : String} : name ∈ session.names ↔ name ∈ session := by
  rw [names, List.mem_toFinset, ← AList.mem_keys]

open SessionTools (mem_names)

theorem names_addSessionTools (session : SessionTools) (tools : List ToolDefinition) :
    SessionTools.names (addSessionTools session tools) = session.names ∪ (tools.map ToolDefinition.name).toFinset := by
  induction tools generalizing session with
  | nil => simp [addSessionTools]
  | cons tool rest ih =>
    have inserted : SessionTools.names (session.insert tool.name tool) = insert tool.name session.names := by
      ext name
      rw [mem_names, AList.mem_insert, Finset.mem_insert, mem_names]
    rw [addSessionTools, List.foldl_cons, ← addSessionTools, ih, inserted, List.map_cons, List.toFinset_cons]
    simp [Finset.insert_union, Finset.union_insert]

section

variable {old session : SessionTools} {request : ActivationRequest}

theorem card_asked (distinct : (request.tools.map ToolDefinition.name).Nodup) :
    (old.names ∪ request.toolNames).card =
      old.names.card + (request.tools.filter fun tool => tool.name ∉ old).length := by
  have fresh : old.names ∪ request.toolNames =
      old.names ∪ ((request.tools.filter fun tool => tool.name ∉ old).map ToolDefinition.name).toFinset := by
    ext name
    simp only [Finset.mem_union, ActivationRequest.toolNames, List.mem_toFinset, List.mem_map, List.mem_filter,
      decide_eq_true_eq, mem_names]
    constructor
    · rintro (active | ⟨tool, asked, rfl⟩)
      · exact .inl active
      · by_cases active : tool.name ∈ old
        · exact .inl active
        · exact .inr ⟨tool, ⟨asked, active⟩, rfl⟩
    · rintro (active | ⟨tool, ⟨asked, -⟩, rfl⟩)
      · exact .inl active
      · exact .inr ⟨tool, asked, rfl⟩
  have apart : Disjoint old.names
      ((request.tools.filter fun tool => tool.name ∉ old).map ToolDefinition.name).toFinset := by
    rw [Finset.disjoint_left]
    intro name active asked
    simp only [List.mem_toFinset, List.mem_map, List.mem_filter, decide_eq_true_eq] at asked
    obtain ⟨tool, ⟨-, inactive⟩, rfl⟩ := asked
    exact inactive (mem_names.mp active)
  rw [fresh, Finset.card_union_of_disjoint apart,
    List.toFinset_card_of_nodup (distinct.sublist (List.filter_sublist.map _)), List.length_map]

theorem card_added (current : old.names = session.names)
    (distinct : (request.tools.map ToolDefinition.name).Nodup) :
    (SessionTools.names (addSessionTools session (newTools old request.tools))).card =
      session.names.card + (newTools old request.tools).length := by
  have apart : Disjoint session.names ((newTools old request.tools).map ToolDefinition.name).toFinset := by
    rw [Finset.disjoint_left]
    intro name active asked
    obtain ⟨tool, added, rfl⟩ := List.mem_map.mp (List.mem_toFinset.mp asked)
    have inactive := (List.mem_filter.mp (List.mem_of_mem_take added)).2
    rw [← current, mem_names] at active
    simp [active] at inactive
  have distinctNew : ((newTools old request.tools).map ToolDefinition.name).Nodup :=
    distinct.sublist (((List.take_sublist _ _).trans List.filter_sublist).map _)
  rw [names_addSessionTools, Finset.card_union_of_disjoint apart, List.toFinset_card_of_nodup distinctNew,
    List.length_map]

theorem card_activated (current : old.names = session.names)
    (distinct : (request.tools.map ToolDefinition.name).Nodup)
    (capped : (session.names.card : Int) ≤ maxActivatedSessionTools) :
    (((activateSessionTools request old session).getD session).names.card : Int) =
      min maxActivatedSessionTools (session.names ∪ request.toolNames).card := by
  have asked : (old.names ∪ request.toolNames).card = _ := card_asked distinct
  rw [current] at asked
  have length : old.keys.length = session.names.card := by rw [old.length_keys, current]
  rw [asked]
  unfold activateSessionTools
  rw [length]
  split_ifs with exhausted none
  · rw [Option.getD_none]
    push_cast
    omega
  · rw [Option.getD_none, none, List.length_nil]
    push_cast
    omega
  · rw [Option.getD_some, card_added current distinct, newTools, List.length_take, length]
    push_cast
    omega

variable (journal : Journal SessionTools ActivationRequest)

theorem advance_added {edit : Editing ActivationRequest SessionTools} (holding : edit.phase = .holding old) :
    (advance getSessionTools activateSessionTools true journal edit).1.current =
      (activateSessionTools edit.request old journal.current).getD journal.current := by
  obtain ⟨request, phase⟩ := edit
  cases holding
  cases added : activateSessionTools request old journal.current <;> simp [advance, added]

theorem advance_unchanged {answered : Bool} {edit : Editing ActivationRequest SessionTools}
    (idle : ¬ ∃ old, edit.phase = .holding old ∧ answered = true) :
    (advance getSessionTools activateSessionTools answered journal edit).1.current = journal.current := by
  obtain ⟨request, phase⟩ := edit
  cases phase with
  | pending => cases answered <;> rfl
  | holding old =>
    cases answered with
    | false => rfl
    | true => exact absurd ⟨old, rfl, rfl⟩ idle
  | committed => rfl
  | refused => rfl

end

def Capped (pool : SessionPool) : Prop :=
  (pool.memory.current.names.card : Int) ≤ maxActivatedSessionTools

section

variable {pool : SessionPool} {next : Turn Bool}

theorem step_spends (capped : Capped pool) (calm : Undisturbed pool next) : SpendsOnNew pool next := by
  intro edit moving old holding answered
  obtain ⟨current, distinct⟩ := calm edit moving old holding
  have moved : pool.step next = _ := Pool.turn_some moving
  rw [moved]
  dsimp only
  rw [answered, advance_added _ holding]
  exact card_activated current distinct capped

theorem step_capped (capped : Capped pool) (calm : Undisturbed pool next) : Capped (pool.step next) := by
  cases moving : pool.processes[next.position]? with
  | none =>
    have idle : pool.step next = pool := Pool.turn_none moving
    rwa [idle]
  | some edit =>
    by_cases adds : ∃ old, edit.phase = .holding old ∧ next.input = true
    · obtain ⟨old, holding, answered⟩ := adds
      have spent := step_spends capped calm edit moving old holding answered
      exact spent.trans_le (min_le_left _ _)
    · have moved : pool.step next = _ := Pool.turn_some moving
      rw [Capped, moved]
      dsimp only
      rw [advance_unchanged _ adds]
      exact capped

end

open SessionPool (step)

theorem session_tools_capped (requests : List ActivationRequest) (turns : List (Turn Bool))
    (calm : Along step Undisturbed (beginning ∅ requests) turns) :
    Along step (fun pool next => Capped pool ∧ SpendsOnNew pool next) (beginning ∅ requests) turns ∧
      Capped (run step (beginning ∅ requests) turns) := by
  have initial : Capped (beginning ∅ requests) := by
    simp [Capped, beginning, SessionTools.names, maxActivatedSessionTools]
  refine ⟨?_, calm.run_invariant initial fun _ _ => step_capped⟩
  refine (calm.invariant initial fun _ _ => step_capped).mono ?_
  intro pool next both
  exact ⟨both.1, step_spends both.1 both.2⟩

namespace Sample

def toolName (n : Nat) : String :=
  String.ofList [Char.ofNat (97 + n / 26), Char.ofNat (97 + n % 26)]

def discoveryEntry (name : String) : DiscoveryEntry :=
  ⟨⟨name, "", "", "\x7b\x7d", "", true, ""⟩, name, "", "", "", "", [], 0⟩

def discoveryIndex (size : Nat) : DiscoveryIndex :=
  ⟨(List.range size).foldl (fun entries n => entries.insert (toolName n) (discoveryEntry (toolName n))) ∅, [], none⟩

def schemaRequest (tools : List Nat) : ActivationRequest :=
  ⟨discoveryIndex 51, tools.map toolName⟩

def smallRequest (tool : Nat) : ActivationRequest :=
  ⟨discoveryIndex 2, [toolName tool]⟩

def goesOn (position : Nat) : Turn Bool := ⟨position, true⟩

def alone (position : Nat) : List (Turn Bool) := [goesOn position, goesOn position]

def crowdedSession : SessionPool :=
  run step
    (beginning ∅ [schemaRequest (List.range 20), schemaRequest (List.range' 20 20),
      schemaRequest (List.range' 40 9), schemaRequest [49], schemaRequest [50]])
    (alone 0 ++ alone 1 ++ alone 2 ++ [goesOn 3, goesOn 4, goesOn 3, goesOn 4])

def repeatedName : SessionPool :=
  run step
    (beginning ∅ [schemaRequest (List.range 20), schemaRequest (List.range' 20 20),
      schemaRequest (List.range' 40 8), schemaRequest [48, 48, 49]])
    (alone 0 ++ alone 1 ++ alone 2 ++ alone 3)

end Sample

open Sample

theorem two_schema_calls_capped : Along step Undisturbed (beginning ∅ [smallRequest 0, smallRequest 1])
        (alone 0 ++ alone 1) ∧ Capped (run step (beginning ∅ [smallRequest 0, smallRequest 1])
        (alone 0 ++ alone 1)) := by
  have calm : Along step Undisturbed
      (beginning ∅ [smallRequest 0, smallRequest 1])
      (alone 0 ++ alone 1) := by
    refine ⟨?_, ?_, ?_, ?_, trivial⟩ <;> rintro edit ⟨⟩ old ⟨⟩ <;> exact ⟨rfl, by decide +kernel⟩
  exact ⟨calm, (session_tools_capped _ _ calm).2⟩

theorem crowded_session_uncapped : crowdedSession.memory.current.keys.length = 51 ∧
      repeatedName.memory.current.keys.length = 49 ∧ toolName 49 ∉ repeatedName.memory.current := by
  decide +kernel

end McpGateway.Proxy
