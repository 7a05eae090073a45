import McpGateway.Shared.Interleaving

namespace McpGateway.Shared

inductive Phase (Value : Type) where
  | pending
  | holding (value : Value)
  | committed
  | refused

structure Editing (Request Value : Type) where
  request : Request
  phase : Phase Value

def Editing.carriedOut {Request Value : Type} (editing : Editing Request Value) : Option Request :=
  match editing.phase with
  | .committed => some editing.request
  | _ => none

/-- The shared memory and, as a history variable, the requests whose writes it has taken. -/
structure Journal (Memory Request : Type) where
  current : Memory
  committed : List Request

namespace ReadModifyWrite

variable {Request Value Memory View : Type}

def beginning (start : Memory) (requests : List Request) : Pool (Journal Memory Request) (Editing Request Value) :=
  ⟨⟨start, []⟩, requests.map fun request => ⟨request, .pending⟩⟩

open Editing (carriedOut)

def completed (pool : Pool (Journal Memory Request) (Editing Request Value)) : List Request :=
  pool.processes.filterMap carriedOut

section

variable (read : Request → Memory → Value) (write : Request → Value → Memory → Option Memory) (view : Memory → View)

def edit (memory : Memory) (request : Request) : Memory :=
  (write request (read request memory) memory).getD memory

def advance (answered : Bool) (journal : Journal Memory Request) (editing : Editing Request Value) :
    Journal Memory Request × Editing Request Value :=
  match editing.phase with
  | .pending =>
    if answered then (journal, ⟨editing.request, .holding (read editing.request journal.current)⟩)
    else (journal, ⟨editing.request, .refused⟩)
  | .holding value =>
    if answered then
      match write editing.request value journal.current with
      | some memory => (⟨memory, journal.committed ++ [editing.request]⟩, ⟨editing.request, .committed⟩)
      | none => (journal, ⟨editing.request, .refused⟩)
    else (journal, ⟨editing.request, .refused⟩)
  | .committed => (journal, editing)
  | .refused => (journal, editing)

def Held (editing : Editing Request Value) : Prop :=
  ∀ value, editing.phase = .holding value → ∃ memory : Memory, value = read editing.request memory

/-- A write that is made now does what it would do if the request had read now. -/
def Timely (pool : Pool (Journal Memory Request) (Editing Request Value)) (turn : Turn Bool) : Prop :=
  ∀ editing ∈ pool.processes[turn.position]?, ∀ value, editing.phase = .holding value →
    (write editing.request value pool.memory.current).map view =
      (write editing.request (read editing.request pool.memory.current) pool.memory.current).map view

def Serial (start : Memory) (pool : Pool (Journal Memory Request) (Editing Request Value)) : Prop :=
  view pool.memory.current = view (pool.memory.committed.foldl (edit read write) start)

end

def Accounted (pool : Pool (Journal Memory Request) (Editing Request Value)) : Prop :=
  pool.memory.committed.Perm (completed pool)

variable {read : Request → Memory → Value} {write : Request → Value → Memory → Option Memory} {view : Memory → View}
  {pool : Pool (Journal Memory Request) (Editing Request Value)} {next : Turn Bool}

variable (read write) in
theorem advance_cases (answered : Bool) (journal : Journal Memory Request) (editing : Editing Request Value) :
    (∃ value memory, editing.phase = .holding value ∧ write editing.request value journal.current = some memory ∧
      advance read write answered journal editing =
        (⟨memory, journal.committed ++ [editing.request]⟩, ⟨editing.request, .committed⟩)) ∨
    ((advance read write answered journal editing).1 = journal ∧
      (advance read write answered journal editing).2.carriedOut = editing.carriedOut) := by
  cases editing with
  | mk request phase =>
    cases phase with
    | pending => cases answered <;> simp [advance, carriedOut]
    | holding value =>
      cases answered with
      | false => simp [advance, carriedOut]
      | true => cases written : write request value journal.current <;> simp [advance, written, carriedOut]
    | committed => simp [advance]
    | refused => simp [advance]

theorem turn_held (held : ∀ editing ∈ pool.processes, Held read editing) :
    ∀ editing ∈ (pool.turn (advance read write) next).processes, Held read editing := by
  refine Pool.turn_asserted (fun _ editing => Held read editing) held ?_ (fun _ _ _ _ _ other => other)
  intro editing _ own value holding
  cases editing with
  | mk request phase =>
    cases phase with
    | pending =>
      cases answered : next.input with
      | false => simp [advance, answered] at holding
      | true =>
        simp only [advance, answered, if_true, Phase.holding.injEq] at holding ⊢
        exact ⟨_, holding.symm⟩
    | holding old =>
      cases answered : next.input with
      | false => simp [advance, answered] at holding
      | true => cases written : write request old pool.memory.current <;> simp [advance, answered, written] at holding
    | committed => simp [advance] at holding
    | refused => simp [advance] at holding

section

variable (respects : ∀ request left right, view left = view right →
  view (edit read write left request) = view (edit read write right request))

include respects

theorem turn_serial {start : Memory} (serial : Serial read write view start pool)
    (timely : Timely read write view pool next) :
    Serial read write view start (pool.turn (advance read write) next) := by
  cases moving : pool.processes[next.position]? with
  | none => rwa [Pool.turn_none moving]
  | some editing =>
    rw [Pool.turn_some moving]
    rcases advance_cases read write next.input pool.memory editing with
      ⟨value, memory, holding, written, result⟩ | ⟨unchanged, -⟩
    · have same := timely editing moving value holding
      rw [written, Option.map_some, eq_comm, Option.map_eq_some_iff] at same
      obtain ⟨fresh, rewritten, looks⟩ := same
      have edited : edit read write pool.memory.current editing.request = fresh := by simp [edit, rewritten]
      rw [result]
      simp only [Serial, List.foldl_append, List.foldl_cons, List.foldl_nil]
      rw [← looks, ← edited]
      exact respects editing.request _ _ serial
    · rw [unchanged]
      exact serial

theorem run_serial {start : Memory} {requests : List Request} {turns : List (Turn Bool)}
    (timely : Along (Pool.turn (advance read write)) (Timely read write view) (beginning start requests) turns) :
    Serial read write view start (run (Pool.turn (advance read write)) (beginning start requests) turns) := by
  have initial : Serial read write view start (beginning start requests) := rfl
  exact timely.run_invariant initial fun _ _ => turn_serial respects

end

variable {Process Result : Type} {processes : List Process} {i : Nat} {old new : Process}

theorem filterMap_set_perm (f : Process → Option Result) {result : Result} (found : processes[i]? = some old)
    (before : f old = none) (after : f new = some result) :
    ((processes.set i new).filterMap f).Perm (processes.filterMap f ++ [result]) := by
  induction processes generalizing i with
  | nil => simp at found
  | cons first rest ih =>
    cases i with
    | zero =>
      have same : first = old := by simpa using found
      have moved : (result :: rest.filterMap f).Perm (rest.filterMap f ++ [result]) := by
        simpa using (List.perm_append_singleton result (rest.filterMap f)).symm
      simpa [same, before, after] using moved
    | succ i =>
      have kept := ih (by simpa using found)
      cases head : f first with
      | none => simpa [head] using kept
      | some value => simpa [head] using kept

theorem filterMap_set_eq (f : Process → Option Result) (found : processes[i]? = some old) (same : f new = f old) :
    (processes.set i new).filterMap f = processes.filterMap f := by
  induction processes generalizing i with
  | nil => simp at found
  | cons first rest ih =>
    cases i with
    | zero =>
      have first_eq : first = old := by simpa using found
      simp [first_eq, List.filterMap_cons, same]
    | succ i => simp [List.filterMap_cons, ih (by simpa using found)]

theorem turn_accounted (accounted : Accounted pool) : Accounted (pool.turn (advance read write) next) := by
  cases moving : pool.processes[next.position]? with
  | none => rwa [Pool.turn_none moving]
  | some editing =>
    rw [Pool.turn_some moving]
    rcases advance_cases read write next.input pool.memory editing with
      ⟨value, memory, holding, -, result⟩ | ⟨unchanged, kept⟩
    · have unfinished : editing.carriedOut = none := by simp [carriedOut, holding]
      rw [result]
      refine (accounted.append_right [editing.request]).trans (List.Perm.symm ?_)
      exact filterMap_set_perm carriedOut moving unfinished rfl
    · have same : completed ⟨(advance read write next.input pool.memory editing).1,
          pool.processes.set next.position (advance read write next.input pool.memory editing).2⟩ = completed pool :=
        filterMap_set_eq carriedOut moving kept
      rw [Accounted, same, unchanged]
      exact accounted

variable (read write) in
theorem run_accounted (start : Memory) (requests : List Request) (turns : List (Turn Bool)) :
    Accounted (run (Pool.turn (advance read write)) (beginning start requests) turns) := by
  have initial : Accounted (beginning start requests : Pool (Journal Memory Request) (Editing Request Value)) := by
    simp [Accounted, beginning, completed, List.filterMap_map, Function.comp_def, carriedOut]
  have everywhere : Along (Pool.turn (advance read write)) (fun _ _ => True) (beginning start requests) turns :=
    along_iff_forall.mpr fun _ _ => trivial
  exact everywhere.run_invariant initial fun _ _ accounted _ => turn_accounted accounted

end ReadModifyWrite

end McpGateway.Shared
