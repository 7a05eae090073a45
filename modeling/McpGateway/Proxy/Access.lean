import McpGateway.Proxy.Router

namespace McpGateway.Proxy

open Shared

structure User where
  id : String
  oidcSub : String
  role : UserRole
  deriving DecidableEq

structure UserStore where
  users : GoMap String User
  permissions : List (String × String)

def UserStore.getByOIDCSub (store : UserStore) (oidcSub : String) : Option User :=
  store.users.lookup (trimSpace oidcSub)

def UserStore.hasToolPermission (store : UserStore) (userId toolName : String) : Bool :=
  store.permissions.contains (trimSpace userId, trimSpace toolName)

structure Caller where
  identity : Option Identity
  scope : List String
  userQueryFails : Bool
  permissionQueryFails : Bool

def permissionFailed : String := "Permission check failed. Contact an administrator."

def UserStore.denial (store : UserStore) (caller : Caller) (user : User) (toolName : String) : Option String :=
  match user.role with
  | .admin => none
  | .blocked => some "Your account has been blocked. Contact an administrator."
  | .viewer => some "Your account has read-only access and cannot call tools."
  | .user =>
    if caller.permissionQueryFails then some permissionFailed
    else if store.hasToolPermission user.id toolName then none
    else some ("You do not have permission to use " ++ toolName ++ ". Contact an administrator to request access.")
  | .other _ => some "Unknown account role. Contact an administrator."

def checkToolPermission (store : UserStore) (caller : Caller) (toolName : String) : Option String :=
  match caller.identity with
  | none => none
  | some identity =>
    if identity.type ≠ .oidc then none
    else if caller.userQueryFails then some permissionFailed
    else
      match store.getByOIDCSub identity.id with
      | none => some "Your account is not registered. Contact an administrator."
      | some user => store.denial caller user toolName

def Restricted (store : UserStore) (caller : Caller) (toolName : String) : Prop :=
  ∃ identity user, caller.identity = some identity ∧ identity.type = .oidc ∧
    store.getByOIDCSub identity.id = some user ∧
    (user.role = .blocked ∨ user.role = .viewer ∨
      (user.role = .user ∧ store.hasToolPermission user.id toolName = false))

theorem Restricted.denied {store : UserStore} {caller : Caller} {toolName : String}
    (restricted : Restricted store caller toolName) : checkToolPermission store caller toolName ≠ none := by
  obtain ⟨identity, user, known, oidc, stored, role⟩ := restricted
  rw [checkToolPermission, known]
  dsimp only
  rw [if_neg (not_not.mpr oidc)]
  split_ifs
  · simp
  · rw [stored]
    dsimp only
    unfold UserStore.denial
    rcases role with blocked | viewer | ⟨user, missing⟩
    · simp [blocked]
    · simp [viewer]
    · rw [user]
      dsimp only
      split_ifs
      · simp
      · next permitted => simp [missing] at permitted
      · simp

end McpGateway.Proxy
