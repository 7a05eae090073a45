import McpGateway.Store.ServerStore

namespace McpGateway.Store

open Shared

-- The rows of api_keys with the constraints the schema puts on them.
structure ApiKeyTable where
  rows : List ApiKey
  primaryKey : (rows.map ApiKey.id).Nodup
  uniqueLookupHash : (rows.map ApiKey.keyLookupHash).Nodup

namespace ApiKeyTable

def empty : ApiKeyTable := ⟨[], by simp, by simp⟩

-- The row an INSERT writes: `id` and `created_at` take their column defaults.
def insertedRow (key : ApiKey) (assigned : String) (now : Time) : ApiKey :=
  { key with
    id := assigned
    policyProfile := if key.policyProfile = "" then "default" else key.policyProfile
    createdAt := now }

def create (table : ApiKeyTable) (key : ApiKey) (assigned : String) (now : Time) : Except StoreError ApiKeyTable :=
  if fresh : assigned ∉ table.rows.map ApiKey.id ∧ key.keyLookupHash ∉ table.rows.map ApiKey.keyLookupHash then
    .ok
      { rows := insertedRow key assigned now :: table.rows
        primaryKey := List.nodup_cons.mpr ⟨fresh.1, table.primaryKey⟩
        uniqueLookupHash := List.nodup_cons.mpr ⟨fresh.2, table.uniqueLookupHash⟩ }
  else .error .constraintViolation

def unexpired (now : Time) (key : ApiKey) : Bool :=
  key.expiresAt.all fun expiry => now < expiry

def getByLookupHash (table : ApiKeyTable) (hash : String) (now : Time) : Except StoreError ApiKey :=
  match table.rows.find? fun row => row.keyLookupHash = hash ∧ unexpired now row with
  | some row => .ok row
  | none => .error .noRows

def list (table : ApiKeyTable) : List ApiKey :=
  table.rows.insertionSort fun left right => right.createdAt ≤ left.createdAt

def expire (id : String) (now : Time) (row : ApiKey) : ApiKey :=
  if row.id = id then { row with expiresAt := some now } else row

theorem expire_id (id : String) (now : Time) : ApiKey.id ∘ expire id now = ApiKey.id := by
  funext row
  simp only [Function.comp, expire]
  split_ifs <;> rfl

theorem expire_hash (id : String) (now : Time) : ApiKey.keyLookupHash ∘ expire id now = ApiKey.keyLookupHash := by
  funext row
  simp only [Function.comp, expire]
  split_ifs <;> rfl

def revoke (table : ApiKeyTable) (id : String) (now : Time) : Except StoreError ApiKeyTable :=
  match parseUuid id with
  | none => .error .invalidId
  | some canonical =>
    .ok
      { rows := table.rows.map (expire canonical now)
        primaryKey := by rw [List.map_map, expire_id]; exact table.primaryKey
        uniqueLookupHash := by rw [List.map_map, expire_hash]; exact table.uniqueLookupHash }

variable {table next : ApiKeyTable} {key row other : ApiKey} {assigned id hash : String} {now : Time}

theorem create_ok (created : table.create key assigned now = .ok next) :
    next.rows = insertedRow key assigned now :: table.rows := by
  unfold create at created
  split_ifs at created
  cases created
  rfl

theorem revoke_ok (revoked : table.revoke id now = .ok next) :
    ∃ canonical, next.rows = table.rows.map (expire canonical now) := by
  unfold revoke at revoked
  split at revoked
  · cases revoked
  next canonical _ =>
    cases revoked
    exact ⟨canonical, rfl⟩

theorem getByLookupHash_ok (found : table.getByLookupHash hash now = .ok row) :
    row ∈ table.rows ∧ row.keyLookupHash = hash := by
  unfold getByLookupHash at found
  split at found
  next first read =>
    cases found
    have matching := List.find?_some read
    exact ⟨List.mem_of_find?_eq_some read, by simp_all⟩
  · cases found

theorem getByLookupHash_unexpired (found : table.getByLookupHash hash now = .ok row) : unexpired now row = true := by
  unfold getByLookupHash at found
  split at found
  next first read =>
    cases found
    have matching := List.find?_some read
    simp_all
  · cases found

theorem eq_of_hash (mem : row ∈ table.rows) (otherMember : other ∈ table.rows)
    (same : row.keyLookupHash = other.keyLookupHash) : row = other :=
  List.inj_on_of_nodup_map table.uniqueLookupHash mem otherMember same

end ApiKeyTable

end McpGateway.Store
