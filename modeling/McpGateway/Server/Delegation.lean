import McpGateway.Server.ApiKeyApi

namespace McpGateway.Server

open Shared Store Auth

structure Authority where
  scopes : List String
  serverScope : List String
  deriving DecidableEq

def Authority.Within (inner outer : Authority) : Prop :=
  inner.scopes ⊆ outer.scopes ∧
    ∀ server, checkServerScope inner.serverScope server = true → checkServerScope outer.serverScope server = true

theorem Authority.Within.trans {inner middle outer : Authority} (low : inner.Within middle)
    (high : middle.Within outer) : inner.Within outer :=
  ⟨List.Subset.trans low.1 high.1, fun server admitted => high.2 server (low.2 server admitted)⟩

def keyAuthority (key : ApiKey) : Authority := ⟨key.scopes, key.serverScope⟩

def callerAuthority (caller : Authenticated) : Authority := ⟨caller.identity.scopes, caller.serverScope⟩

structure Minting where
  caller : Authenticated
  presented : Option String
  key : MintedKey

def minting (verifiers : Verifiers) (table : ApiKeyTable) (call : ApiKeyCall) : Option Minting :=
  match authenticate verifiers (some table) call.lookup call.credentials, (serve verifiers table call).1 with
  | .ok caller, .created key => some ⟨caller, call.credentials.presentedKey, key⟩
  | _, _ => none

structure Ledger where
  table : ApiKeyTable
  minted : List Minting

def Ledger.step (verifiers : Verifiers) (ledger : Ledger) (call : ApiKeyCall) : Ledger :=
  ⟨(serve verifiers ledger.table call).2, (minting verifiers ledger.table call).toList ++ ledger.minted⟩

def Minting.MintedWith (minted : List Minting) (parent child : Minting) : Prop :=
  child ∈ minted ∧ child.presented = some parent.key.plaintext

/-- No key exceeds the caller it was minted for, nor, along a chain of keys, the caller the chain began with. -/
structure Unamplified (minted : List Minting) : Prop where
  each : ∀ made ∈ minted, (keyAuthority made.key.record).Within (callerAuthority made.caller)
  chain : ∀ first ∈ minted, ∀ last, Relation.ReflTransGen (Minting.MintedWith minted) first last →
    (keyAuthority last.key.record).Within (callerAuthority first.caller)

structure Ledger.Recorded (ledger : Ledger) : Prop where
  minted : ∀ made ∈ ledger.minted, ∃ row ∈ ledger.table.rows,
    row.keyLookupHash = lookupHashApiKey made.key.plaintext ∧ keyAuthority row = keyAuthority made.key.record
  presented : ∀ made ∈ ledger.minted, ∀ key, made.presented = some key → ∃ row ∈ ledger.table.rows,
    row.keyLookupHash = lookupHashApiKey key ∧ keyAuthority row = callerAuthority made.caller

structure Ledger.Sound (ledger : Ledger) : Prop where
  recorded : ledger.Recorded
  within : ∀ made ∈ ledger.minted, (keyAuthority made.key.record).Within (callerAuthority made.caller)

def Covers (caller : Authenticated) (request : CreateApiKeyRequest) : Prop :=
  requestedScopes request ⊆ caller.identity.scopes ∧
    (caller.serverScope = [] ∨ dedupeScopes request.serverScope ≠ [] ∧
      ∀ entry ∈ dedupeScopes request.serverScope, ∃ allowed ∈ caller.serverScope,
        equalFold (trimSpace entry) (trimSpace allowed) = true)

def ApiKeyCall.Restrained (verifiers : Verifiers) (table : ApiKeyTable) (call : ApiKeyCall) : Prop :=
  match call.operation with
  | .create (some request) _ => ∀ caller,
    authenticate verifiers (some table) call.lookup call.credentials = .ok caller → Covers caller request
  | _ => True

theorem Covers.within {caller : Authenticated} {request : CreateApiKeyRequest} (covers : Covers caller request) :
    (⟨requestedScopes request, dedupeScopes request.serverScope⟩ : Authority).Within (callerAuthority caller) := by
  refine ⟨covers.1, fun server admitted => ?_⟩
  rcases covers.2 with unrestricted | ⟨nonempty, allowed⟩
  · simp [checkServerScope, callerAuthority, unrestricted]
  · rw [checkServerScope_iff nonempty, serverInScope, Bool.and_eq_true, List.any_eq_true] at admitted
    obtain ⟨named, entry, member, hit⟩ := admitted
    obtain ⟨held, heldMember, same⟩ := allowed entry member
    rw [checkServerScope, Bool.or_eq_true, serverInScope, Bool.and_eq_true, List.any_eq_true]
    refine .inr ⟨named, held, heldMember, ?_⟩
    rw [Bool.or_eq_true] at hit ⊢
    exact hit.imp (equalFold_trans · same) (equalFold_trans · same)

theorem reread_authority (table : ApiKeyTable) (record : ApiKey) (context : CreateContext) :
    keyAuthority (reread table record context) = keyAuthority record := by
  unfold reread
  split_ifs
  · rfl
  · split <;> rfl

inductive Served (table : ApiKeyTable) : ApiKeyOperation → ApiKeyReply → ApiKeyTable → Prop where
  | unchanged {operation : ApiKeyOperation} {reply : ApiKeyReply} (other : ∀ key, reply ≠ .created key) :
    Served table operation reply table
  | revoked {operation : ApiKeyOperation} {id canonical : String} {now : Time} {next : ApiKeyTable}
    (rows : next.rows = table.rows.map (ApiKeyTable.expire canonical now)) : Served table operation (.revoked id) next
  | created {request : CreateApiKeyRequest} {context : CreateContext} {key : MintedKey} {row : ApiKey}
    {next : ApiKeyTable} (rows : next.rows = row :: table.rows)
    (hash : row.keyLookupHash = lookupHashApiKey key.plaintext) (same : keyAuthority row = keyAuthority key.record)
    (asked : keyAuthority row = ⟨requestedScopes request, dedupeScopes request.serverScope⟩) :
    Served table (.create (some request) context) (.created key) next

theorem handleCreate_served (table : ApiKeyTable) (body : Option CreateApiKeyRequest) (context : CreateContext) :
    Served table (.create body context) (handleCreate table body context).1 (handleCreate table body context).2 := by
  unfold handleCreate
  split
  · exact .unchanged nofun
  split_ifs
  · exact .unchanged nofun
  split
  · exact .unchanged nofun
  split
  · exact .unchanged nofun
  next draw _ =>
    unfold mint
    split_ifs
    · exact .unchanged nofun
    split
    · exact .unchanged nofun
    next next stored =>
      have hashed := generateApiKey_lookupHash draw
      generalize generateApiKey draw = fresh at hashed stored ⊢
      refine .created (ApiKeyTable.create_ok stored) hashed ?_ rfl
      rw [reread_authority]
      rfl

theorem handle_served (table : ApiKeyTable) (operation : ApiKeyOperation) :
    Served table operation (operation.handle table).1 (operation.handle table).2 := by
  cases operation with
  | create body context => exact handleCreate_served table body context
  | list fails =>
    simp only [ApiKeyOperation.handle, handleList]
    split_ifs
    · exact .unchanged nofun
    · exact .unchanged nofun
  | revoke id now fails =>
    simp only [ApiKeyOperation.handle, handleRevoke]
    split_ifs
    · exact .unchanged nofun
    · exact .unchanged nofun
    · split
      · exact .unchanged nofun
      next next stored =>
        obtain ⟨canonical, rows⟩ := ApiKeyTable.revoke_ok stored
        exact .revoked rows

theorem Served.kept {table next : ApiKeyTable} {operation : ApiKeyOperation} {reply : ApiKeyReply}
    (served : Served table operation reply next) {row : ApiKey} (member : row ∈ table.rows) :
    ∃ later ∈ next.rows, later.keyLookupHash = row.keyLookupHash ∧ keyAuthority later = keyAuthority row := by
  cases served with
  | unchanged => exact ⟨row, member, rfl, rfl⟩
  | @revoked _ _ canonical now _ rows =>
    refine ⟨ApiKeyTable.expire canonical now row, by rw [rows]; exact List.mem_map_of_mem member, ?_⟩
    unfold ApiKeyTable.expire
    split_ifs
    · exact ⟨rfl, rfl⟩
    · exact ⟨rfl, rfl⟩
  | created rows => exact ⟨row, by rw [rows]; exact List.mem_cons_of_mem _ member, rfl, rfl⟩

theorem Served.created_row {table next : ApiKeyTable} {operation : ApiKeyOperation} {key : MintedKey}
    (served : Served table operation (.created key) next) :
    ∃ request context row, operation = .create (some request) context ∧ next.rows = row :: table.rows ∧
      row.keyLookupHash = lookupHashApiKey key.plaintext ∧ keyAuthority row = keyAuthority key.record ∧
      keyAuthority row = ⟨requestedScopes request, dedupeScopes request.serverScope⟩ := by
  cases served with
  | unchanged other => exact absurd rfl (other key)
  | created rows hash same asked => exact ⟨_, _, _, rfl, rows, hash, same, asked⟩

section

variable {verifiers : Verifiers} {ledger : Ledger} {call : ApiKeyCall}

theorem serve_served (verifiers : Verifiers) (table : ApiKeyTable) (call : ApiKeyCall) :
    Served table call.operation (serve verifiers table call).1 (serve verifiers table call).2 := by
  unfold serve
  split
  · exact .unchanged nofun
  · exact handle_served table call.operation

theorem minting_some {table : ApiKeyTable} {made : Minting} (minted : minting verifiers table call = some made) :
    authenticate verifiers (some table) call.lookup call.credentials = .ok made.caller ∧
      made.presented = call.credentials.presentedKey ∧ (serve verifiers table call).1 = .created made.key := by
  unfold minting at minted
  split at minted
  next caller key valid answered =>
    cases minted
    exact ⟨valid, rfl, answered⟩
  · cases minted

theorem Ledger.step_recorded (recorded : ledger.Recorded) (call : ApiKeyCall) :
    (ledger.step verifiers call).Recorded := by
  have served := serve_served verifiers ledger.table call
  have kept {hash : String} {authority : Authority}
      (stored : ∃ row ∈ ledger.table.rows, row.keyLookupHash = hash ∧ keyAuthority row = authority) :
      ∃ row ∈ (ledger.step verifiers call).table.rows, row.keyLookupHash = hash ∧ keyAuthority row = authority := by
    obtain ⟨row, member, rfl, rfl⟩ := stored
    exact served.kept member
  constructor
  · intro made member
    rcases List.mem_append.mp member with new | old
    · obtain ⟨_, _, answered⟩ := minting_some (Option.mem_toList.mp new)
      rw [answered] at served
      obtain ⟨_, _, row, _, rows, hash, same, _⟩ := served.created_row
      exact ⟨row, by rw [Ledger.step, rows]; exact List.mem_cons_self, hash, same⟩
    · exact kept (recorded.minted made old)
  · intro made member key presented
    rcases List.mem_append.mp member with new | old
    · obtain ⟨valid, asked, _⟩ := minting_some (Option.mem_toList.mp new)
      rw [asked] at presented
      obtain ⟨row, stored, hash, scopes, servers⟩ := authenticate_presented valid presented
      exact kept ⟨row, stored, hash, by rw [keyAuthority, callerAuthority, scopes, servers]⟩
    · exact kept (recorded.presented made old key presented)

theorem Ledger.sound_empty (table : ApiKeyTable) : Ledger.Sound ⟨table, []⟩ where
  recorded.minted _ member := absurd member List.not_mem_nil
  recorded.presented _ member := absurd member List.not_mem_nil
  within _ member := absurd member List.not_mem_nil

theorem Ledger.Sound.step (sound : ledger.Sound) (call : ApiKeyCall) (restrained : call.Restrained verifiers ledger.table) :
    (ledger.step verifiers call).Sound := by
  refine ⟨Ledger.step_recorded sound.recorded call, fun made member => ?_⟩
  rcases List.mem_append.mp member with new | old
  · obtain ⟨valid, _, answered⟩ := minting_some (Option.mem_toList.mp new)
    have served := serve_served verifiers ledger.table call
    rw [answered] at served
    obtain ⟨request, _, row, isCreate, _, _, same, asked⟩ := served.created_row
    rw [ApiKeyCall.Restrained, isCreate] at restrained
    rw [← same, asked]
    exact (restrained _ valid).within
  · exact sound.within made old

theorem Ledger.Recorded.inherits (recorded : ledger.Recorded) {parent child : Minting} (parentMember : parent ∈ ledger.minted)
    (used : parent.MintedWith ledger.minted child) : callerAuthority child.caller = keyAuthority parent.key.record := by
  obtain ⟨row, member, hash, same⟩ := recorded.minted parent parentMember
  obtain ⟨shown, shownMember, shownHash, shownSame⟩ := recorded.presented child used.1 _ used.2
  have one : shown = row := ApiKeyTable.eq_of_hash shownMember member (shownHash.trans hash.symm)
  rw [← shownSame, one, same]

end

/-- From any table, a sequence of calls that each ask for no more than their caller has mints no key, directly or
along a chain of minted keys, that exceeds the caller it began with. -/
theorem minted_keys_unamplified (verifiers : Verifiers) (table : ApiKeyTable) (calls : List ApiKeyCall)
    (restrained : Along (Ledger.step verifiers) (fun ledger call => call.Restrained verifiers ledger.table)
      ⟨table, []⟩ calls) : Unamplified (run (Ledger.step verifiers) ⟨table, []⟩ calls).minted := by
  have sound : (run (Ledger.step verifiers) ⟨table, []⟩ calls).Sound :=
    restrained.run_invariant (Ledger.sound_empty table) fun _ call sound asked => sound.step call asked
  obtain ⟨recorded, within⟩ := sound
  refine ⟨within, fun first firstMember last chained => ?_⟩
  -- Along the chain every key stays within the first caller, since the next caller is the key itself.
  have chain : last ∈ (run (Ledger.step verifiers) ⟨table, []⟩ calls).minted ∧
      (keyAuthority last.key.record).Within (callerAuthority first.caller) := by
    induction chained with
    | refl => exact ⟨firstMember, within first firstMember⟩
    | @tail parent child _ used ih =>
      refine ⟨used.1, (within child used.1).trans ?_⟩
      rw [recorded.inherits ih.1 used]
      exact ih.2
  exact chain.2

def ApiKeyOperation.revokedAt : ApiKeyOperation → Option Time
  | .revoke _ now _ => some now
  | _ => none

def Retired (key : String) (limit : Time) (table : ApiKeyTable) : Prop :=
  ∃ row ∈ table.rows, row.keyLookupHash = lookupHashApiKey key ∧ ∃ expiry ∈ row.expiresAt, expiry ≤ limit

theorem Retired.serve {key : String} {limit : Time} {table : ApiKeyTable} (retired : Retired key limit table)
    (verifiers : Verifiers) {call : ApiKeyCall} (timely : ∀ now ∈ call.operation.revokedAt, now ≤ limit) :
    Retired key limit (serve verifiers table call).2 := by
  have ⟨row, held, hash, expiry, stored, past⟩ := retired
  unfold Server.serve ApiKeyOperation.handle
  split
  · exact retired
  split
  next body context _ =>
    unfold handleCreate mint
    repeat' split
    all_goals try exact retired
    next created =>
      refine ⟨row, ?_, hash, expiry, stored, past⟩
      rw [ApiKeyTable.create_ok created]
      exact List.mem_cons_of_mem _ held
  next fails _ => cases fails <;> exact retired
  next id now fails asked =>
    unfold handleRevoke
    repeat' split
    all_goals try exact retired
    next revoked =>
      obtain ⟨canonical, rows⟩ := ApiKeyTable.revoke_ok revoked
      refine ⟨ApiKeyTable.expire canonical now row, by rw [rows]; exact List.mem_map_of_mem held, ?_⟩
      unfold ApiKeyTable.expire
      split_ifs
      · exact ⟨hash, now, rfl, timely now (by rw [asked]; rfl)⟩
      · exact ⟨hash, expiry, stored, past⟩

/-- A revoked key is refused whatever calls come between, those that mint keys or revoke it again included, as long as
the clock of the store does not run back. -/
theorem revoked_key_refused {key id : String} {table next : ApiKeyTable} {row : ApiKey} {now : Time} {lookup : KeyLookup}
    {credentials : Credentials} (held : row ∈ table.rows) (hash : row.keyLookupHash = lookupHashApiKey key)
    (named : parseUuid id = some row.id) (revoked : table.revoke id now = .ok next) (timely : now ≤ lookup.queriedAt)
    (presented : credentials.presentedKey = some key) (verifiers : Verifiers) (calls : List ApiKeyCall)
    (ordered : ∀ call ∈ calls, ∀ again ∈ call.operation.revokedAt, again ≤ lookup.queriedAt) :
    authenticate verifiers (some (run (fun table call => (serve verifiers table call).2) next calls)) lookup
      credentials = .error invalidApiKey := by
  have first : Retired key lookup.queriedAt next := by
    rw [ApiKeyTable.revoke, named] at revoked
    cases revoked
    exact ⟨_, List.mem_map_of_mem held, by simpa [ApiKeyTable.expire, hash] using timely⟩
  have last := (along_iff_forall.mpr ordered).run_invariant first fun _ _ retired timely =>
    retired.serve verifiers timely
  generalize run (fun table call => (serve verifiers table call).2) next calls = final at last ⊢
  obtain ⟨row, held, hash, expiry, stored, past⟩ := last
  unfold Credentials.presentedKey at presented
  split at presented
  next path =>
    cases found : final.getByLookupHash (lookupHashApiKey key) lookup.queriedAt with
    | error cause => simp [authenticate, path, validate, presented, found]
    | ok other =>
      obtain ⟨member, same⟩ := ApiKeyTable.getByLookupHash_ok found
      have fresh := ApiKeyTable.getByLookupHash_unexpired found
      rw [ApiKeyTable.eq_of_hash member held (same.trans hash.symm), ApiKeyTable.unexpired, stored] at fresh
      exact absurd (of_decide_eq_true fresh) (not_lt.mpr past)
  · cases presented

namespace Sample

def admin : Identity := ⟨.oidc, "sub-1", ["read", "admin"], ∅⟩

def verifiers : Verifiers :=
  ⟨some fun token => if token = "head.body.mac" then some admin else none,
    fun plaintext hash => hash == "$2a$12$" ++ plaintext⟩

def generated (byte : Nat) : KeyDraw :=
  ⟨List.replicate 32 byte, "$2a$12$" ++ apiKeyPrefix ++ base64Url (List.replicate 32 byte)⟩

def reader : ApiKey where
  id := "11111111-1111-4111-8111-111111111111"
  keyLookupHash := "4f68a2206dcd5376fe6fa8f903c34c758da4ab4a841ffcab07d082e484c67012"
  keyBcryptHash := (generated 1).bcryptHash
  name := "ci"
  scopes := ["read"]
  clientId := "ci"
  policyProfile := "default"
  serverScope := ["k8s"]
  expiresAt := none
  createdAt := 0

def table : ApiKeyTable := ⟨[reader], by simp, by simp⟩

def create (bearer : String) (request : CreateApiKeyRequest) (byte : Nat) (assigned : String) : ApiKeyCall where
  credentials := ⟨none, "Bearer " ++ bearer, ""⟩
  lookup := ⟨0, 0, false⟩
  operation := .create (some request) ⟨0, some (generated byte), assigned, 0, false, 0, false⟩

def handedOn : List ApiKeyCall :=
  [create "head.body.mac" ⟨"ci", ["read"], "30d", "", "", ["k8s", "db"]⟩ 1 "11111111-1111-4111-8111-111111111111",
    create (generateApiKey (generated 1)).plaintext ⟨"job", [], "", "", "", ["K8s"]⟩ 2
      "22222222-2222-4222-8222-222222222222"]

end Sample

theorem covers_of_authority {verifiers : Verifiers} {table : ApiKeyTable} {call : ApiKeyCall}
    {request : CreateApiKeyRequest} {authority : Authority}
    (valid : (authenticate verifiers (some table) call.lookup call.credentials).toOption.map callerAuthority =
      some authority) (covered : Covers ⟨⟨.apikey, "", authority.scopes, ∅⟩, authority.serverScope⟩ request) :
    ∀ caller, authenticate verifiers (some table) call.lookup call.credentials = .ok caller → Covers caller request := by
  intro caller isCaller
  rw [isCaller] at valid
  cases valid
  exact covered

open Sample

theorem handed_on_key_unamplified : Unamplified (run (Ledger.step verifiers) ⟨.empty, []⟩ handedOn).minted := by
  apply minted_keys_unamplified
  refine ⟨?_, ?_, trivial⟩
  · refine covers_of_authority (show _ = some ⟨["read", "admin"], []⟩ by decide +kernel) ?_
    unfold Covers
    decide +kernel
  · refine covers_of_authority (show _ = some ⟨["read"], ["k8s", "db"]⟩ by decide +kernel) ?_
    unfold Covers
    decide +kernel

theorem reader_mints_admin : ¬ Unamplified (run (Ledger.step verifiers) ⟨table, []⟩
      [create (generateApiKey (generated 1)).plaintext ⟨"root", ["admin"], "", "", "", []⟩ 2
        "22222222-2222-4222-8222-222222222222"]).minted := by
  intro unamplified
  have minted : ∃ made ∈ (run (Ledger.step verifiers) ⟨table, []⟩
      [create (generateApiKey (generated 1)).plaintext ⟨"root", ["admin"], "", "", "", []⟩ 2
        "22222222-2222-4222-8222-222222222222"]).minted,
      "admin" ∈ (keyAuthority made.key.record).scopes ∧ "admin" ∉ (callerAuthority made.caller).scopes := by
    decide +kernel
  obtain ⟨made, member, admin, lacking⟩ := minted
  exact lacking ((unamplified.each made member).1 admin)

theorem revoked_reader_refused : ∃ next, table.revoke reader.id 5 = .ok next ∧
    authenticate verifiers (some (run (fun table call => (serve verifiers table call).2) next
      [create "head.body.mac" ⟨"job", [], "", "", "", []⟩ 2 "22222222-2222-4222-8222-222222222222"])) ⟨9, 9, false⟩
      ⟨none, "Bearer " ++ (generateApiKey (generated 1)).plaintext, ""⟩ = .error invalidApiKey := by
  have named : parseUuid reader.id = some reader.id := by decide +kernel
  have hash : reader.keyLookupHash = lookupHashApiKey (generateApiKey (generated 1)).plaintext := by decide +kernel
  have revoked : ∃ next, table.revoke reader.id 5 = .ok next := by simp [ApiKeyTable.revoke, named]
  obtain ⟨next, revoked⟩ := revoked
  refine ⟨next, revoked, revoked_key_refused (by simp [table]) hash named revoked (by decide) ?_ verifiers _ ?_⟩
  · decide +kernel
  · simp [create, ApiKeyOperation.revokedAt]

end McpGateway.Server
