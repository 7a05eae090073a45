import McpGateway.Proxy.RoleFilter

namespace McpGateway

open Shared

def UserRole.isValid : UserRole → Bool
  | .other _ => false
  | _ => true

namespace Proxy

namespace UserStore

def insertedUser (user : User) : User where
  id := if trimSpace user.id = "" then "auto" else trimSpace user.id
  oidcSub := trimSpace user.oidcSub
  role := if user.role.isValid then user.role else .user

-- A conflict on oidc_sub keeps the stored id and role; one on the primary key alone fails the statement.
def upsert (store : UserStore) (user : User) : Option UserStore :=
  if (store.users.lookup (trimSpace user.oidcSub)).isSome then some store
  else if store.users.entries.any fun entry => entry.2.id = (insertedUser user).id then none
  else some { store with users := store.users.insert (trimSpace user.oidcSub) (insertedUser user) }

def updateRole (store : UserStore) (id : String) (role : UserRole) : Option UserStore :=
  if role.isValid then
    some { store with
      users := store.users.filterMapValues fun user =>
        some (if user.id = trimSpace id then { user with role := role } else user) }
  else none

inductive Write where
  | upsert (user : User)
  | updateRole (id : String) (role : UserRole)
  | setToolPermissions (userId : String) (toolNames : List String)

def write (store : UserStore) : Write → UserStore
  | .upsert user => (store.upsert user).getD store
  | .updateRole id role => (store.updateRole id role).getD store
  | .setToolPermissions userId toolNames => (store.setToolPermissions userId toolNames).getD store

def RolesValid (store : UserStore) : Prop :=
  ∀ oidcSub user, store.users.lookup oidcSub = some user → user.role.isValid = true

variable {store next : UserStore}

theorem insertedUser_role_valid (user : User) : (insertedUser user).role.isValid = true := by
  unfold insertedUser
  dsimp only
  split_ifs with valid
  · exact valid
  · rfl

theorem upsert_rolesValid (valid : store.RolesValid) {user : User} (done : store.upsert user = some next) :
    next.RolesValid := by
  unfold upsert at done
  split_ifs at done with known clash
  · cases done
    exact valid
  · cases done
    intro oidcSub stored found
    rw [GoMap.lookup_insert_eq] at found
    split_ifs at found with same
    · rw [← Option.some.inj found]
      exact insertedUser_role_valid user
    · exact valid oidcSub stored found

theorem updateRole_rolesValid (valid : store.RolesValid) {id : String} {role : UserRole}
    (done : store.updateRole id role = some next) : next.RolesValid := by
  unfold updateRole at done
  split_ifs at done with proper
  cases done
  intro oidcSub stored found
  rw [GoMap.lookup_filterMapValues, Option.bind_eq_some_iff] at found
  obtain ⟨user, held, same⟩ := found
  rw [← Option.some.inj same]
  split_ifs
  · exact proper
  · exact valid oidcSub user held

theorem write_rolesValid (valid : store.RolesValid) (write : Write) : (store.write write).RolesValid := by
  cases write with
  | upsert user =>
    cases done : store.upsert user with
    | none => simpa [UserStore.write, done] using valid
    | some next => simpa [UserStore.write, done] using upsert_rolesValid valid done
  | updateRole id role =>
    cases done : store.updateRole id role with
    | none => simpa [UserStore.write, done] using valid
    | some next => simpa [UserStore.write, done] using updateRole_rolesValid valid done
  | setToolPermissions userId toolNames =>
    cases done : store.setToolPermissions userId toolNames with
    | none => simpa [UserStore.write, done] using valid
    | some next =>
      have same := setToolPermissions_users done
      simpa [UserStore.write, done, RolesValid, same] using valid

def produced (writes : List Write) : UserStore :=
  run write ⟨∅, []⟩ writes

theorem produced_rolesValid (writes : List Write) : (produced writes).RolesValid := by
  have always : Along write (fun _ _ => True) ⟨∅, []⟩ writes := along_iff_forall.mpr fun _ _ => trivial
  exact always.run_invariant (by simp [RolesValid]) fun store op valid _ => write_rolesValid valid op

end UserStore

variable {store : UserStore} {caller : Caller} {identity : Identity} {tools : List String} {tool : String}

theorem permittedTools_iff_granted {user : User} (read : caller.permissionQueryFails = false) (offered : tool ∈ tools)
    (backend : tool ≠ requestAccessToolName) :
    tool ∈ store.permittedTools caller user tools ↔ tool ∈ store.getToolPermissions user.id := by
  unfold UserStore.permittedTools
  by_cases none : store.getToolPermissions user.id = []
  · simp [none, mem_onlyRequestAccessTool, backend]
  · simp [none, read, offered, backend]

theorem hasToolPermission_iff {userId : String} (trimmed : trimSpace tool = tool) :
    store.hasToolPermission userId tool = true ↔ tool ∈ store.getToolPermissions userId := by
  simp [UserStore.hasToolPermission, UserStore.mem_getToolPermissions, trimmed]

theorem listed_iff_permitted (valid : store.RolesValid) (identified : caller.identity = some identity)
    (oidc : identity.type = .oidc) (answered : caller.userQueryFails = false)
    (read : caller.permissionQueryFails = false) (offered : tool ∈ tools) (trimmed : trimSpace tool = tool)
    (backend : tool ≠ requestAccessToolName) (acting : ∀ user ∈ store.getByOIDCSub identity.id, user.role ≠ .viewer) :
    tool ∈ applyRoleFilter (some store) caller tools ↔ checkToolPermission store caller tool = none := by
  have hidden : tool ∉ onlyRequestAccessTool tools := by simp [mem_onlyRequestAccessTool, backend]
  cases known : store.getByOIDCSub identity.id with
  | none => simp [applyRoleFilter, checkToolPermission, identified, oidc, answered, known, hidden]
  | some user =>
    cases role : user.role with
    | admin =>
      have shown : tool ∈ withoutRequestAccessTool tools := by simp [withoutRequestAccessTool, offered, backend]
      simp [applyRoleFilter, checkToolPermission, UserStore.denial, identified, oidc, answered, known, role, shown]
    | blocked =>
      simp [applyRoleFilter, checkToolPermission, UserStore.denial, identified, oidc, answered, known, role, hidden]
    | user =>
      rw [applyRoleFilter_user identified oidc known role, checkToolPermission_user identified oidc known role,
        hasToolPermission_iff trimmed]
      simp [answered, read, permittedTools_iff_granted read offered backend]
    | viewer => exact absurd role (acting user known)
    | other text =>
      have stored := valid _ user known
      simp [role, UserRole.isValid] at stored

theorem viewer_listed_not_callable (identified : caller.identity = some identity) (oidc : identity.type = .oidc)
    (answered : caller.userQueryFails = false) (read : caller.permissionQueryFails = false) (offered : tool ∈ tools)
    (backend : tool ≠ requestAccessToolName) {user : User} (known : store.getByOIDCSub identity.id = some user)
    (viewer : user.role = .viewer) :
    (tool ∈ applyRoleFilter (some store) caller tools ↔ (trimSpace user.id, tool) ∈ store.permissions) ∧
      ∀ called, checkToolPermission store caller called ≠ none := by
  constructor
  · rw [← UserStore.mem_getToolPermissions]
    simpa [applyRoleFilter, identified, oidc, answered, known, viewer] using
      permittedTools_iff_granted read offered backend
  · intro called
    simp [checkToolPermission, UserStore.denial, identified, oidc, answered, known, viewer]

/-- For every caller but a viewer the backend tools that are listed are those whose calls are not denied; a viewer is
shown the tools of its stored permissions and may call none. -/
theorem listed_iff_callable (writes : List UserStore.Write) (caller : Caller)
    (identified : caller.identity = some identity) (oidc : identity.type = .oidc)
    (answered : caller.userQueryFails = false) (read : caller.permissionQueryFails = false) (tools : List String)
    (offered : tool ∈ tools) (trimmed : trimSpace tool = tool) (backend : tool ∉ metaToolNames) :
    let store := UserStore.produced writes
    let account := store.getByOIDCSub identity.id
    ((∀ user ∈ account, user.role ≠ .viewer) →
        (tool ∈ applyRoleFilter (some store) caller tools ↔ checkToolPermission store caller tool = none)) ∧
      ∀ user ∈ account, user.role = .viewer →
        (tool ∈ applyRoleFilter (some store) caller tools ↔ (trimSpace user.id, tool) ∈ store.permissions) ∧
          ∀ called, checkToolPermission store caller called ≠ none := by
  have genuine : tool ≠ requestAccessToolName := by
    rintro rfl
    exact backend (by simp [metaToolNames])
  constructor
  · exact listed_iff_permitted (UserStore.produced_rolesValid writes) identified oidc answered read offered trimmed
      genuine
  · intro user known viewer
    exact viewer_listed_not_callable identified oidc answered read offered genuine known viewer

namespace Sample

def grants : List UserStore.Write :=
  [.upsert ⟨"", " sub-1 ", .user⟩, .upsert ⟨"u-2", "sub-2", .other "guest"⟩, .updateRole " u-2" .viewer,
    .setToolPermissions "auto" ["db.list ", "db.drop"], .setToolPermissions "u-2" ["db.list"]]

def signedIn (sub : String) : Caller := ⟨some ⟨.oidc, sub, [], ∅⟩, [], false, false⟩

end Sample

open Sample

theorem granted_tools_listed : ("db.list" ∈ applyRoleFilter (some (UserStore.produced grants)) (signedIn "sub-1")
          ["db.list", "db.add", requestAccessToolName] ↔
        checkToolPermission (UserStore.produced grants) (signedIn "sub-1") "db.list" = none) ∧
      ("db.list" ∈ applyRoleFilter (some (UserStore.produced grants)) (signedIn "sub-2")
          ["db.list", "db.add", requestAccessToolName] ∧
        checkToolPermission (UserStore.produced grants) (signedIn "sub-2") "db.list" ≠ none) := by
  have accounts : (∀ user ∈ (UserStore.produced grants).getByOIDCSub "sub-1", user.role ≠ .viewer) ∧
      (UserStore.produced grants).getByOIDCSub "sub-2" = some ⟨"u-2", "sub-2", .viewer⟩ ∧
      (trimSpace "u-2", "db.list") ∈ (UserStore.produced grants).permissions ∧
      trimSpace "db.list" = "db.list" := by decide +kernel
  obtain ⟨acting, viewer, permitted, trimmed⟩ := accounts
  have backend : "db.list" ∉ metaToolNames := by decide +kernel
  have user := listed_iff_callable grants (signedIn "sub-1") rfl rfl rfl rfl
    ["db.list", "db.add", requestAccessToolName] (by simp) trimmed backend
  have other := listed_iff_callable grants (signedIn "sub-2") rfl rfl rfl rfl
    ["db.list", "db.add", requestAccessToolName] (by simp) trimmed backend
  have shown := other.2 _ viewer rfl
  exact ⟨user.1 acting, shown.1.mpr permitted, shown.2 "db.list"⟩

end Proxy

end McpGateway
