import McpGateway.Proxy.Access
import McpGateway.Shared.ReadModifyWrite

namespace McpGateway.Proxy

open Shared

namespace UserStore

def getToolPermissions (store : UserStore) (userId : String) : List String :=
  sortStrings ((store.permissions.filter fun row => row.1 = trimSpace userId).map Prod.snd).dedup

def hasUser (store : UserStore) (userId : String) : Bool :=
  store.users.entries.any fun row => row.2.id = userId

-- One transaction: an insertion breaks the primary key if two of the names are one name without spaces, and the foreign
-- key if there is no such user.
def setToolPermissions (store : UserStore) (userId : String) (toolNames : List String) : Option UserStore :=
  if trimSpace userId = "" then none
  else if (toolNames.map trimSpace).Nodup ∧ (toolNames = [] ∨ store.hasUser (trimSpace userId)) then
    some ⟨store.users, (store.permissions.filter fun row => row.1 ≠ trimSpace userId) ++
      toolNames.map fun name => (trimSpace userId, trimSpace name)⟩
  else none

def granted (store : UserStore) : Set (String × String) :=
  {row | row ∈ store.permissions}

def content (store : UserStore) : GoMap String User × Set (String × String) := (store.users, store.granted)

inductive Written : UserStore → Prop where
  | none (users : GoMap String User) : Written ⟨users, []⟩
  | set {store next : UserStore} {userId : String} {toolNames : List String} (prior : Written store)
    (done : store.setToolPermissions userId toolNames = some next) : Written next

variable {store left right next : UserStore} {userId : String} {toolNames others : List String}

theorem setToolPermissions_eq_some (done : store.setToolPermissions userId toolNames = some next) :
    trimSpace userId ≠ "" ∧ (toolNames = [] ∨ store.hasUser (trimSpace userId)) ∧
      next.permissions = (store.permissions.filter fun row => row.1 ≠ trimSpace userId) ++
        toolNames.map fun name => (trimSpace userId, trimSpace name) := by
  unfold setToolPermissions at done
  split_ifs at done with blank apart
  cases done
  exact ⟨blank, apart.2, rfl⟩

theorem setToolPermissions_users (done : store.setToolPermissions userId toolNames = some next) :
    next.users = store.users := by
  unfold setToolPermissions at done
  split_ifs at done
  cases done
  rfl

theorem Written.proper (written : Written store) {row : String × String} (stored : row ∈ store.permissions) :
    row.1 ≠ "" ∧ store.hasUser row.1 = true ∧ trimSpace row.2 = row.2 := by
  induction written with
  | none => simp at stored
  | set prior done ih =>
    obtain ⟨named, known, rows⟩ := setToolPermissions_eq_some done
    rw [rows, List.mem_append] at stored
    rw [hasUser, setToolPermissions_users done]
    cases stored with
    | inl kept => exact ih (List.mem_of_mem_filter kept)
    | inr inserted =>
      obtain ⟨name, mem, rfl⟩ := List.mem_map.mp inserted
      exact ⟨named, known.resolve_left (List.ne_nil_of_mem mem), trimSpace_trimSpace name⟩

theorem mem_getToolPermissions {name : String} :
    name ∈ store.getToolPermissions userId ↔ (trimSpace userId, name) ∈ store.permissions := by
  simp [getToolPermissions, sortStrings]

theorem nodup_getToolPermissions : (store.getToolPermissions userId).Nodup :=
  (List.perm_insertionSort _ _).nodup_iff.mpr (List.nodup_dedup _)

theorem content_rows (same : left.content = right.content) (row : String × String) :
    row ∈ left.permissions ↔ row ∈ right.permissions :=
  Set.ext_iff.mp (congrArg Prod.snd same) row

theorem getToolPermissions_congr (same : left.content = right.content) :
    left.getToolPermissions userId = right.getToolPermissions userId := by
  refine sortStrings_perm ((List.perm_ext_iff_of_nodup (List.nodup_dedup _) (List.nodup_dedup _)).mpr ?_)
  intro name
  simp [content_rows same]

theorem setToolPermissions_congr (same : left.content = right.content) (names : toolNames.Perm others) :
    (left.setToolPermissions userId toolNames).map content = (right.setToolPermissions userId others).map content := by
  have users : left.users = right.users := congrArg Prod.fst same
  have apart : (toolNames.map trimSpace).Nodup ↔ (others.map trimSpace).Nodup := (names.map trimSpace).nodup_iff
  have blank : toolNames = [] ↔ others = [] := by rw [← List.length_eq_zero_iff, names.length_eq, List.length_eq_zero_iff]
  unfold setToolPermissions hasUser
  simp only [apart, blank, users]
  split_ifs
  · rfl
  · simp only [Option.map_some, Option.some.injEq, content, Prod.mk.injEq, true_and]
    ext row
    simp [granted, content_rows same, names.mem_iff]
  · rfl

end UserStore

end McpGateway.Proxy

namespace McpGateway.Admin

open Shared Proxy

inductive ToolsAction where
  | add
  | remove
  deriving DecidableEq

structure ToolsRequest where
  action : ToolsAction
  id : String
  toolNames : List String
  deriving DecidableEq

namespace ToolsRequest

def names (request : ToolsRequest) : List String :=
  request.toolNames.map trimSpace

def merged (request : ToolsRequest) (old : List String) : List String :=
  (old ++ request.names).dedup

def remaining (request : ToolsRequest) (old : List String) : List String :=
  old.filter fun name => name ∉ request.names

def edited (request : ToolsRequest) (old : List String) : List String :=
  match request.action with
  | .add => request.merged old
  | .remove => request.remaining old

def read (request : ToolsRequest) (store : UserStore) : List String :=
  store.getToolPermissions request.id

def write (request : ToolsRequest) (old : List String) (store : UserStore) : Option UserStore :=
  store.setToolPermissions request.id (request.edited old)

def execute (request : ToolsRequest) (store : UserStore) : UserStore :=
  ReadModifyWrite.edit read write store request

end ToolsRequest

abbrev ToolsRun := Pool (Journal UserStore ToolsRequest) (Editing ToolsRequest (List String))

def ToolsRun.step (requests : ToolsRun) (turn : Turn Bool) : ToolsRun :=
  Pool.turn (ReadModifyWrite.advance ToolsRequest.read ToolsRequest.write) requests turn

/-- What the stored permissions of the user and those the request has read differ in, the request names itself. -/
def Undisturbed (requests : ToolsRun) (turn : Turn Bool) : Prop :=
  ∀ editing ∈ requests.processes[turn.position]?, ∀ old, editing.phase = .holding old →
    ∀ name, name ∉ editing.request.names →
      (name ∈ old ↔ name ∈ requests.memory.current.getToolPermissions editing.request.id)

section

variable {request : ToolsRequest} {old current : List String} {store left right : UserStore}

theorem edited_perm (read : old.Nodup) (stored : current.Nodup)
    (agree : ∀ name, name ∉ request.names → (name ∈ old ↔ name ∈ current)) :
    (request.edited old).Perm (request.edited current) := by
  unfold ToolsRequest.edited
  cases request.action with
  | add =>
    refine (List.perm_ext_iff_of_nodup (List.nodup_dedup _) (List.nodup_dedup _)).mpr fun name => ?_
    by_cases named : name ∈ request.names <;> simp [named, agree]
  | remove =>
    refine (List.perm_ext_iff_of_nodup (read.filter _) (stored.filter _)).mpr fun name => ?_
    by_cases named : name ∈ request.names <;> simp [named, agree]

theorem execute_congr (request : ToolsRequest) (left right : UserStore) (same : left.content = right.content) :
    (request.execute left).content = (request.execute right).content := by
  have written : (request.write (request.read left) left).map UserStore.content =
      (request.write (request.read right) right).map UserStore.content := by
    unfold ToolsRequest.write ToolsRequest.read
    rw [UserStore.getToolPermissions_congr same]
    exact UserStore.setToolPermissions_congr same (List.Perm.refl _)
  unfold ToolsRequest.execute ReadModifyWrite.edit
  cases first : request.write (request.read left) left with
  | none => cases second : request.write (request.read right) right <;> simp_all
  | some next => cases second : request.write (request.read right) right <;> simp_all

theorem edited_trimmed (written : store.Written) {name : String} (mem : name ∈ request.edited (request.read store)) :
    trimSpace name = name := by
  have old (stored : name ∈ request.read store) : trimSpace name = name :=
    (written.proper (UserStore.mem_getToolPermissions.mp stored)).2.2
  have named (given : name ∈ request.names) : trimSpace name = name := by
    obtain ⟨original, -, rfl⟩ := List.mem_map.mp given
    exact trimSpace_trimSpace original
  unfold ToolsRequest.edited at mem
  cases action : request.action with
  | add =>
    rw [action] at mem
    simp only [ToolsRequest.merged, List.mem_dedup, List.mem_append] at mem
    exact mem.elim old named
  | remove =>
    rw [action] at mem
    exact old (List.mem_of_mem_filter mem)

theorem edited_nodup : (request.edited (request.read store)).Nodup := by
  unfold ToolsRequest.edited
  cases request.action with
  | add => exact List.nodup_dedup _
  | remove => exact UserStore.nodup_getToolPermissions.filter _

theorem write_succeeds (written : store.Written) (named : trimSpace request.id ≠ "")
    (known : store.hasUser (trimSpace request.id) = true) :
    ∃ next, request.write (request.read store) store = some next := by
  have unchanged : (request.edited (request.read store)).map trimSpace = request.edited (request.read store) :=
    (List.map_congr_left fun _ mem => edited_trimmed written mem).trans (List.map_id _)
  unfold ToolsRequest.write UserStore.setToolPermissions
  rw [if_neg named, unchanged, if_pos ⟨edited_nodup, .inr known⟩]
  exact ⟨_, rfl⟩

theorem mem_written_iff (written : store.Written) {next : UserStore} {name : String}
    (done : request.write (request.read store) store = some next) :
    (trimSpace request.id, name) ∈ next.permissions ↔ name ∈ request.edited (request.read store) := by
  obtain ⟨-, -, rows⟩ := UserStore.setToolPermissions_eq_some done
  rw [rows, List.mem_append]
  constructor
  · intro stored
    cases stored with
    | inl kept => simp at kept
    | inr inserted =>
      obtain ⟨original, mem, same⟩ := List.mem_map.mp inserted
      have trimmed : trimSpace original = original := edited_trimmed written mem
      simp only [Prod.mk.injEq, true_and] at same
      rwa [← same, trimmed]
  · intro mem
    have trimmed : trimSpace name = name := edited_trimmed written mem
    exact .inr (List.mem_map.mpr ⟨name, mem, by rw [trimmed]⟩)

theorem execute_cases (request : ToolsRequest) (store : UserStore) : request.execute store = store ∨
      ∃ next, request.write (request.read store) store = some next ∧ request.execute store = next := by
  unfold ToolsRequest.execute ReadModifyWrite.edit
  cases request.write (request.read store) store <;> simp

theorem execute_users (request : ToolsRequest) (store : UserStore) : (request.execute store).users = store.users := by
  rcases execute_cases request store with unchanged | ⟨next, done, result⟩
  · rw [unchanged]
  · rw [result, UserStore.setToolPermissions_users done]

theorem execute_written (written : store.Written) : (request.execute store).Written := by
  cases execute_cases request store with
  | inl unchanged => rwa [unchanged]
  | inr done =>
    obtain ⟨next, done, result⟩ := done
    rw [result]
    exact .set written done

def ToolsRequest.Adds (request : ToolsRequest) (row : String × String) : Prop :=
  request.action = .add ∧ trimSpace request.id = row.1 ∧ row.2 ∈ request.names
  deriving Decidable

def ToolsRequest.Removes (request : ToolsRequest) (row : String × String) : Prop :=
  request.action = .remove ∧ trimSpace request.id = row.1 ∧ row.2 ∈ request.names
  deriving Decidable

theorem absent_of_removed (written : store.Written) {row : String × String} (removes : request.Removes row) :
    row ∉ (request.execute store).permissions := by
  obtain ⟨action, user, named⟩ := removes
  cases row with
  | mk userId name =>
    simp only at user named
    subst user
    intro stored
    obtain ⟨present, known, -⟩ := (execute_written written).proper stored
    rw [UserStore.hasUser, execute_users] at known
    obtain ⟨next, done⟩ : ∃ next, request.write (request.read store) store = some next :=
      write_succeeds written present known
    have result : request.execute store = next := by
      simp [ToolsRequest.execute, ReadModifyWrite.edit, done]
    rw [result] at stored
    have computed := (mem_written_iff written done).mp stored
    rw [ToolsRequest.edited, action] at computed
    simp [ToolsRequest.remaining, named] at computed

theorem absent_execute (written : store.Written) {row : String × String} (absent : row ∉ store.permissions)
    (adds : ¬ request.Adds row) : row ∉ (request.execute store).permissions := by
  rcases execute_cases request store with unchanged | ⟨next, done, result⟩
  · rwa [unchanged]
  · rw [result]
    intro stored
    by_cases user : trimSpace request.id = row.1
    · cases row with
      | mk userId name =>
        simp only at user
        subst user
        have computed := (mem_written_iff written done).mp stored
        have unread : name ∉ request.read store := fun read => absent (UserStore.mem_getToolPermissions.mp read)
        unfold ToolsRequest.edited at computed
        cases action : request.action with
        | add =>
          have unnamed : name ∉ request.names := fun named => adds ⟨action, rfl, named⟩
          simp [action, ToolsRequest.merged, unread, unnamed] at computed
        | remove => simp [action, ToolsRequest.remaining, unread] at computed
    · obtain ⟨-, -, rows⟩ := UserStore.setToolPermissions_eq_some done
      rw [rows, List.mem_append] at stored
      cases stored with
      | inl kept => exact absent (List.mem_of_mem_filter kept)
      | inr inserted =>
        obtain ⟨_, -, rfl⟩ := List.mem_map.mp inserted
        exact user rfl

end

def executeAll (store : UserStore) (requests : List ToolsRequest) : UserStore :=
  requests.foldl (fun store request => request.execute store) store

theorem executeAll_cons (store : UserStore) (request : ToolsRequest) (rest : List ToolsRequest) :
    executeAll store (request :: rest) = executeAll (request.execute store) rest := by
  simp only [executeAll, List.foldl_cons]

theorem executeAll_absent {requests : List ToolsRequest} {store : UserStore} (written : store.Written)
    {row : String × String} (absent : row ∉ store.permissions) (added : ∀ request ∈ requests, ¬ request.Adds row) :
    row ∉ (executeAll store requests).permissions := by
  induction requests generalizing store with
  | nil => exact absent
  | cons request rest ih =>
    have head := absent_execute written absent (added request List.mem_cons_self)
    rw [executeAll_cons]
    exact ih (execute_written written) head fun other mem => added other (List.mem_cons_of_mem _ mem)

theorem executeAll_removed {requests : List ToolsRequest} {store : UserStore} (written : store.Written)
    {row : String × String} {removal : ToolsRequest} (mem : removal ∈ requests) (removes : removal.Removes row)
    (added : ∀ request ∈ requests, ¬ request.Adds row) : row ∉ (executeAll store requests).permissions := by
  induction requests generalizing store with
  | nil => simp at mem
  | cons request rest ih =>
    have later (other : ToolsRequest) (inside : other ∈ rest) := added other (List.mem_cons_of_mem _ inside)
    rw [executeAll_cons]
    cases List.mem_cons.mp mem with
    | inl first =>
      subst first
      exact executeAll_absent (execute_written written) (absent_of_removed written removes) later
    | inr inside => exact ih (execute_written written) inside later

theorem undisturbed_timely {requests : ToolsRun} {turn : Turn Bool}
    (held : ∀ editing ∈ requests.processes, ReadModifyWrite.Held ToolsRequest.read editing)
    (calm : Undisturbed requests turn) :
    ReadModifyWrite.Timely ToolsRequest.read ToolsRequest.write UserStore.content requests turn := by
  intro editing moves old holding
  obtain ⟨prior, rfl⟩ := held editing (List.mem_of_getElem? moves) old holding
  have names := edited_perm UserStore.nodup_getToolPermissions UserStore.nodup_getToolPermissions
    (calm editing moves _ holding)
  exact UserStore.setToolPermissions_congr rfl names

/-- However the requests overlap, if no write comes upon permissions that have changed in what it does not name itself,
the stored permissions are those of the completed requests made one after another. -/
theorem edits_serial {store : UserStore} (written : store.Written) (requests : List ToolsRequest)
    (turns : List (Turn Bool))
    (calm : Along ToolsRun.step Undisturbed (ReadModifyWrite.beginning store requests) turns) :
    let final := run ToolsRun.step (ReadModifyWrite.beginning store requests) turns
    (∃ order, order.Perm (ReadModifyWrite.completed final) ∧
      final.memory.current.granted = (executeAll store order).granted) ∧
    ∀ removal ∈ ReadModifyWrite.completed final, ∀ row, removal.Removes row →
      (∀ other ∈ ReadModifyWrite.completed final, ¬ other.Adds row) → row ∉ final.memory.current.granted := by
  intro final
  have held : ∀ editing ∈ (ReadModifyWrite.beginning store requests : ToolsRun).processes,
      ReadModifyWrite.Held ToolsRequest.read editing := by
    simp [ReadModifyWrite.beginning, ReadModifyWrite.Held]
  have always : Along ToolsRun.step (fun requests turn =>
      (∀ editing ∈ requests.processes, ReadModifyWrite.Held ToolsRequest.read editing) ∧ Undisturbed requests turn)
      (ReadModifyWrite.beginning store requests) turns :=
    calm.invariant held fun _ _ held _ => ReadModifyWrite.turn_held held
  have timely := always.mono fun _ _ both => undisturbed_timely both.1 both.2
  have serial : final.memory.current.granted = (executeAll store final.memory.committed).granted :=
    congrArg Prod.snd (ReadModifyWrite.run_serial execute_congr timely)
  have accounted : final.memory.committed.Perm (ReadModifyWrite.completed final) :=
    ReadModifyWrite.run_accounted ToolsRequest.read ToolsRequest.write store requests turns
  refine ⟨⟨final.memory.committed, accounted, serial⟩, ?_⟩
  intro removal mem row removes added stored
  rw [serial] at stored
  exact executeAll_removed written (accounted.mem_iff.mpr mem) removes
    (fun other inside => added other (accounted.mem_iff.mp inside)) stored

section

def users : GoMap String User := (∅ : GoMap String User).insert "sub-1" ⟨"u-1", "sub-1", .user⟩

def searchUser : UserStore := ⟨users, [("u-1", "search")]⟩

def removeSearch : ToolsRequest := ⟨.remove, "u-1", ["search"]⟩

def addFetch : ToolsRequest := ⟨.add, "u-1", ["fetch"]⟩

def separateTurns : List (Turn Bool) := [⟨0, true⟩, ⟨0, true⟩, ⟨1, true⟩, ⟨1, true⟩]

def overlappingTurns : List (Turn Bool) := [⟨0, true⟩, ⟨1, true⟩, ⟨0, true⟩, ⟨1, true⟩]

theorem searchUser_written : searchUser.Written := by
  have named : trimSpace "u-1" = "u-1" := by decide +kernel
  have tool : trimSpace "search" = "search" := by decide +kernel
  have known : UserStore.hasUser ⟨users, []⟩ "u-1" = true := by decide +kernel
  have done : (⟨users, []⟩ : UserStore).setToolPermissions "u-1" ["search"] = some searchUser := by
    simp [UserStore.setToolPermissions, searchUser, named, tool, known]
  exact .set (.none users) done

theorem edits_serial_separate :
    let final := run ToolsRun.step (ReadModifyWrite.beginning searchUser [removeSearch, addFetch]) separateTurns
    ReadModifyWrite.completed final = [removeSearch, addFetch] ∧ ("u-1", "search") ∉ final.memory.current.granted := by
  have calm : Along ToolsRun.step Undisturbed
      (ReadModifyWrite.beginning searchUser [removeSearch, addFetch]) separateTurns := by
    refine ⟨?_, ?_, ?_, ?_, trivial⟩ <;> intro editing moves old holding name _ <;> cases moves
    · simp at holding
    · cases holding
      exact Iff.rfl
    · simp at holding
    · cases holding
      exact Iff.rfl
  have completed : ReadModifyWrite.completed (run ToolsRun.step
      (ReadModifyWrite.beginning searchUser [removeSearch, addFetch]) separateTurns) = [removeSearch, addFetch] := by
    decide +kernel
  have removed := (edits_serial searchUser_written [removeSearch, addFetch] separateTurns calm).2
  rw [completed] at removed
  exact ⟨completed, removed removeSearch (by simp) ("u-1", "search") (by decide +kernel) (by decide +kernel)⟩

theorem removed_tool_returns :
    let final := run ToolsRun.step (ReadModifyWrite.beginning searchUser [removeSearch, addFetch]) overlappingTurns
    ReadModifyWrite.completed final = [removeSearch, addFetch] ∧ removeSearch.Removes ("u-1", "search") ∧
      ¬ addFetch.Adds ("u-1", "search") ∧ ("u-1", "search") ∈ final.memory.current.granted ∧
      ∀ order, order.Perm [removeSearch, addFetch] → ("u-1", "search") ∉ (executeAll searchUser order).granted := by
  have removes : removeSearch.Removes ("u-1", "search") := by decide +kernel
  have unadded : ∀ request ∈ [removeSearch, addFetch], ¬ request.Adds ("u-1", "search") := by decide +kernel
  have kept : ("u-1", "search") ∈ (run ToolsRun.step
      (ReadModifyWrite.beginning searchUser [removeSearch, addFetch]) overlappingTurns).memory.current.permissions := by
    decide +kernel
  refine ⟨by decide +kernel, removes, unadded _ (by simp), kept, ?_⟩
  intro order same
  exact executeAll_removed searchUser_written (same.mem_iff.mpr (by simp)) removes
    fun other mem => unadded other (same.mem_iff.mp mem)

end

end McpGateway.Admin
