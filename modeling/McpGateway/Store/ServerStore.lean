import McpGateway.Shared.Uuid
import McpGateway.Types

namespace McpGateway.Store

open Shared

inductive StoreError where
  | noRows
  | invalidId
  | constraintViolation
  | invalidThreshold
  | outOfRange
  deriving DecidableEq

-- The rows of mcp_servers with the constraints the schema puts on them.
structure ServerTable where
  rows : List ServerRecord
  primaryKey : (rows.map ServerRecord.id).Nodup
  uniqueSpiffeId : (rows.map ServerRecord.spiffeId).Nodup
  canonicalIds : ∀ row ∈ rows, parseUuid row.id = some row.id
  bigintEpochs : ∀ row ∈ rows, -2 ^ 63 ≤ row.leaseEpoch ∧ row.leaseEpoch < 2 ^ 63

def ServerTable.empty : ServerTable := ⟨[], by simp, by simp, by simp, by simp⟩

-- A statement that would break a constraint fails and leaves the table as it was.
def ServerTable.commit (rows : List ServerRecord) : Except StoreError ServerTable :=
  if valid : (rows.map ServerRecord.id).Nodup ∧ (rows.map ServerRecord.spiffeId).Nodup
      ∧ (∀ row ∈ rows, parseUuid row.id = some row.id)
      ∧ ∀ row ∈ rows, -2 ^ 63 ≤ row.leaseEpoch ∧ row.leaseEpoch < 2 ^ 63 then
    .ok ⟨rows, valid.1, valid.2.1, valid.2.2.1, valid.2.2.2⟩
  else .error .constraintViolation

def maxInt64 (value minimum : Int) : Int :=
  if value < minimum then minimum else value

def routingStrategyOrDefault (s : String) : String :=
  if trimSpace s = "" then "round_robin" else trimSpace s

def protocolOrDefault (s : String) : String :=
  if trimSpace s = "" then "https" else trimSpace s

-- The row an INSERT writes: `id`, the rate columns and the timestamps take their column defaults.
def insertedRow (record : ServerRecord) (assigned : String) (now : Time) : ServerRecord :=
  { record with
    id := assigned
    protocol := protocolOrDefault record.protocol
    policyProfile := if record.policyProfile = "" then "default" else record.policyProfile
    leaseEpoch := maxInt64 record.leaseEpoch 1
    capabilityHash := trimSpace record.capabilityHash
    lastPlatformAckVersion := trimSpace record.lastPlatformAckVersion
    rateLimit := none
    rateBurst := none
    routingStrategy := routingStrategyOrDefault record.routingStrategy
    createdAt := now
    updatedAt := now }

-- The columns an UPDATE sets; `id`, the rate columns and `created_at` stay as they are.
def updatedRow (row record : ServerRecord) (now : Time) : ServerRecord :=
  { record with
    id := row.id
    protocol := protocolOrDefault record.protocol
    leaseEpoch := maxInt64 record.leaseEpoch 1
    capabilityHash := trimSpace record.capabilityHash
    lastPlatformAckVersion := trimSpace record.lastPlatformAckVersion
    rateLimit := row.rateLimit
    rateBurst := row.rateBurst
    routingStrategy := routingStrategyOrDefault record.routingStrategy
    createdAt := row.createdAt
    updatedAt := now }

def statusRow (row : ServerRecord) (status : ServerStatus) (now : Time) : ServerRecord :=
  { row with status := status, updatedAt := now }

def heartbeatRow (row : ServerRecord) (now : Time) : ServerRecord :=
  { row with lastHeartbeat := some now, updatedAt := now }

def acknowledgedRow (row : ServerRecord) (ackVersion : String) (ackedAt now : Time) : ServerRecord :=
  { row with
    syncState := .acked
    lastPlatformAckVersion := trimSpace ackVersion
    lastPlatformAckAt := some ackedAt
    updatedAt := now }

def rateRow (row : ServerRecord) (rateLimit rateBurst : Option Int) (now : Time) : ServerRecord :=
  { row with rateLimit := rateLimit, rateBurst := rateBurst, updatedAt := now }

@[simp] theorem statusRow_id (row : ServerRecord) (status : ServerStatus) (now : Time) :
    (statusRow row status now).id = row.id := rfl

@[simp] theorem statusRow_status (row : ServerRecord) (status : ServerStatus) (now : Time) :
    (statusRow row status now).status = status := rfl

@[simp] theorem heartbeatRow_id (row : ServerRecord) (now : Time) : (heartbeatRow row now).id = row.id := rfl

@[simp] theorem insertedRow_id (record : ServerRecord) (assigned : String) (now : Time) :
    (insertedRow record assigned now).id = assigned := rfl

@[simp] theorem updatedRow_id (row record : ServerRecord) (now : Time) : (updatedRow row record now).id = row.id := rfl

section

variable (row record : ServerRecord) (now : Time)

@[simp] theorem updatedRow_spiffeId : (updatedRow row record now).spiffeId = record.spiffeId := rfl

@[simp] theorem updatedRow_status : (updatedRow row record now).status = record.status := rfl

@[simp] theorem updatedRow_lastHeartbeat : (updatedRow row record now).lastHeartbeat = record.lastHeartbeat := rfl

@[simp] theorem updatedRow_capabilities : (updatedRow row record now).capabilities = record.capabilities := rfl

@[simp] theorem updatedRow_capabilityHash :
    (updatedRow row record now).capabilityHash = trimSpace record.capabilityHash := rfl

@[simp] theorem updatedRow_leaseEpoch : (updatedRow row record now).leaseEpoch = maxInt64 record.leaseEpoch 1 := rfl

@[simp] theorem updatedRow_syncState : (updatedRow row record now).syncState = record.syncState := rfl

end

namespace ServerTable

def get (table : ServerTable) (id : String) : Except StoreError ServerRecord :=
  match parseUuid id with
  | none => .error .invalidId
  | some key =>
    match table.rows.find? (fun row => row.id = key) with
    | some row => .ok row
    | none => .error .noRows

def getBySPIFFEID (table : ServerTable) (spiffeId : String) : Except StoreError ServerRecord :=
  match table.rows.find? (fun row => row.spiffeId = spiffeId) with
  | some row => .ok row
  | none => .error .noRows

def create (table : ServerTable) (record : ServerRecord) (assigned : String) (now : Time) :
    Except StoreError ServerTable :=
  commit (table.rows ++ [insertedRow record assigned now])

def modifyRow (rows : List ServerRecord) (key : String) (change : ServerRecord → ServerRecord) : List ServerRecord :=
  rows.map fun row => if row.id = key then change row else row

def modify (table : ServerTable) (id : String) (change : ServerRecord → ServerRecord) : Except StoreError ServerTable :=
  match parseUuid id with
  | none => .error .invalidId
  | some key => commit (modifyRow table.rows key change)

def update (table : ServerTable) (record : ServerRecord) (now : Time) : Except StoreError ServerTable :=
  table.modify record.id fun row => updatedRow row record now

def updateStatus (table : ServerTable) (id : String) (status : ServerStatus) (now : Time) :
    Except StoreError ServerTable :=
  table.modify id fun row => statusRow row status now

def updateHeartbeat (table : ServerTable) (id : String) (now : Time) : Except StoreError ServerTable :=
  table.modify id fun row => heartbeatRow row now

def delete (table : ServerTable) (id : String) : Except StoreError ServerTable :=
  match parseUuid id with
  | none => .error .invalidId
  | some key =>
    .ok
      { rows := table.rows.filter fun row => row.id ≠ key
        primaryKey := table.primaryKey.sublist (List.filter_sublist.map _)
        uniqueSpiffeId := table.uniqueSpiffeId.sublist (List.filter_sublist.map _)
        canonicalIds := fun row mem => table.canonicalIds row (List.mem_of_mem_filter mem)
        bigintEpochs := fun row mem => table.bigintEpochs row (List.mem_of_mem_filter mem) }

def acknowledgeable (leaseEpoch : Int) (capabilityHash : String) (row : ServerRecord) : Bool :=
  row.leaseEpoch == leaseEpoch && (capabilityHash == "" || row.capabilityHash == capabilityHash)

def acknowledgeRegistration (table : ServerTable) (id : String) (leaseEpoch : Int) (capabilityHash ackVersion : String)
    (ackedAt now : Time) : Except StoreError ServerTable :=
  match parseUuid (trimSpace id) with
  | none => .error .invalidId
  | some key =>
    if table.rows.any fun row => row.id = key && acknowledgeable leaseEpoch (trimSpace capabilityHash) row then
      commit (modifyRow table.rows key fun row =>
        if acknowledgeable leaseEpoch (trimSpace capabilityHash) row then acknowledgedRow row ackVersion ackedAt now
        else row)
    else .error .noRows

-- The check constraints on the two columns, which only a row that is written has to meet.
def ratesValid (rateLimit rateBurst : Option Int) : Bool :=
  rateLimit.all (0 ≤ ·) && rateBurst.all (0 ≤ ·) && (rateBurst.isNone || rateLimit.isSome)

def fitsInteger (value : Int) : Bool :=
  -2 ^ 31 ≤ value && value < 2 ^ 31

def updateRateLimit (table : ServerTable) (id : String) (rateLimit rateBurst : Option Int) (now : Time) :
    Except StoreError ServerTable :=
  match parseUuid id with
  | none => .error .invalidId
  | some key =>
    if !(rateLimit.all fitsInteger && rateBurst.all fitsInteger) then .error .outOfRange
    else if !ratesValid rateLimit rateBurst && table.rows.any (·.id = key) then .error .constraintViolation
    else table.modify id fun row => rateRow row rateLimit rateBurst now

def overdue (row : ServerRecord) (age now : Int) : Bool :=
  match row.lastHeartbeat with
  | some beat => beat < now - age
  | none => false

-- ORDER BY last_heartbeat ASC, which puts NULL last.
def beatsBefore (left right : ServerRecord) : Bool :=
  match left.lastHeartbeat, right.lastHeartbeat with
  | some first, some second => first ≤ second
  | _, none => true
  | none, some _ => false

def listStale (table : ServerTable) (threshold : Int) (now : Time) : Except StoreError (List ServerRecord) :=
  if threshold ≤ 0 then .error .invalidThreshold
  else .ok ((table.rows.filter fun row => overdue row threshold now && row.status == .active).insertionSort
    fun left right => beatsBefore left right)

def listExpired (table : ServerTable) (threshold : Int) (now : Time) : Except StoreError (List ServerRecord) :=
  if threshold ≤ 0 then .error .invalidThreshold
  else .ok ((table.rows.filter fun row =>
    overdue row (threshold * 3) now && (row.status == .active || row.status == .stale)).insertionSort
    fun left right => beatsBefore left right)

theorem find?_of_nodup {I : Type} [DecidableEq I] (column : ServerRecord → I) (rows : List ServerRecord)
    (distinct : (rows.map column).Nodup) (row : ServerRecord) (mem : row ∈ rows) :
    rows.find? (fun other => column other = column row) = some row := by
  induction rows with
  | nil => cases mem
  | cons head tail ih =>
    rw [List.map_cons, List.nodup_cons] at distinct
    rcases List.mem_cons.mp mem with rfl | mem
    · simp
    · have other : column head ≠ column row := fun same => distinct.1 (same ▸ List.mem_map_of_mem mem)
      rw [List.find?_cons_of_neg (by simpa using other)]
      exact ih distinct.2 mem

def entry (table : ServerTable) (key : String) : Option ServerRecord :=
  table.rows.find? fun row => row.id = key

variable (table : ServerTable)

theorem entry_eq_some_iff (key : String) (row : ServerRecord) :
    table.entry key = some row ↔ row ∈ table.rows ∧ row.id = key := by
  constructor
  · intro found
    exact ⟨List.mem_of_find?_eq_some found, by simpa using List.find?_some found⟩
  · rintro ⟨mem, rfl⟩
    exact find?_of_nodup ServerRecord.id table.rows table.primaryKey row mem

theorem entry_of_mem {table : ServerTable} {row : ServerRecord} (mem : row ∈ table.rows) :
    table.entry row.id = some row :=
  (table.entry_eq_some_iff row.id row).mpr ⟨mem, rfl⟩

variable {key id : String} {left right old : ServerRecord} {rows : List ServerRecord}

theorem entry_eq_none {table : ServerTable} (absent : ∀ row ∈ table.rows, row.id ≠ key) : table.entry key = none := by
  rw [entry, List.find?_eq_none]
  simpa using absent

theorem entry_congr {left right : ServerTable} (same : ∀ row, row.id = key → (row ∈ left.rows ↔ row ∈ right.rows)) :
    left.entry key = right.entry key := by
  apply Option.ext
  intro row
  rw [entry_eq_some_iff, entry_eq_some_iff]
  exact and_congr_left (same row)

theorem get_eq_ok_iff (id : String) (row : ServerRecord) :
    table.get id = .ok row ↔ row ∈ table.rows ∧ parseUuid id = some row.id := by
  unfold get
  cases parsed : parseUuid id with
  | none => simp
  | some key =>
    constructor
    · intro found
      cases search : table.rows.find? (fun row => row.id = key) with
      | none => simp [search] at found
      | some other =>
        have same : other = row := by simpa [search] using found
        have held := List.find?_some search
        subst same
        exact ⟨List.mem_of_find?_eq_some search, congrArg some (by simpa using held : other.id = key).symm⟩
    · rintro ⟨mem, same⟩
      cases same
      simp [find?_of_nodup ServerRecord.id table.rows table.primaryKey row mem]

theorem get_self {row : ServerRecord} (mem : row ∈ table.rows) : table.get row.id = .ok row :=
  (table.get_eq_ok_iff row.id row).mpr ⟨mem, table.canonicalIds row mem⟩

theorem row_unique (first : left ∈ table.rows) (second : right ∈ table.rows) (same : left.id = right.id) :
    left = right := by
  have found := table.get_self second
  rw [← same, table.get_self first] at found
  exact Except.ok.inj found

theorem getBySPIFFEID_eq_ok_iff (spiffeId : String) (row : ServerRecord) :
    table.getBySPIFFEID spiffeId = .ok row ↔ row ∈ table.rows ∧ row.spiffeId = spiffeId := by
  unfold getBySPIFFEID
  constructor
  · intro found
    cases search : table.rows.find? (fun row => row.spiffeId = spiffeId) with
    | none => simp [search] at found
    | some other =>
      have same : other = row := by simpa [search] using found
      subst same
      exact ⟨List.mem_of_find?_eq_some search, by simpa using List.find?_some search⟩
  · rintro ⟨mem, rfl⟩
    simp [find?_of_nodup ServerRecord.spiffeId table.rows table.uniqueSpiffeId row mem]

theorem spiffeId_unique (first : left ∈ table.rows) (second : right ∈ table.rows)
    (same : left.spiffeId = right.spiffeId) : left = right := by
  have found := (table.getBySPIFFEID_eq_ok_iff right.spiffeId left).mpr ⟨first, same⟩
  rw [(table.getBySPIFFEID_eq_ok_iff right.spiffeId right).mpr ⟨second, rfl⟩] at found
  exact (Except.ok.inj found).symm

theorem getBySPIFFEID_error {spiffeId : String} {error : StoreError}
    (missing : table.getBySPIFFEID spiffeId = .error error) :
    error = .noRows ∧ ∀ row ∈ table.rows, row.spiffeId ≠ spiffeId := by
  constructor
  · unfold getBySPIFFEID at missing
    split at missing <;> cases missing
    rfl
  · intro row mem same
    rw [(table.getBySPIFFEID_eq_ok_iff spiffeId row).mpr ⟨mem, same⟩] at missing
    cases missing

theorem commit_ok {table : ServerTable} (committed : commit rows = .ok table) : table.rows = rows := by
  unfold commit at committed
  split_ifs at committed
  cases committed
  rfl

theorem commit_eq_ok (primaryKey : (rows.map ServerRecord.id).Nodup)
    (uniqueSpiffeId : (rows.map ServerRecord.spiffeId).Nodup)
    (canonicalIds : ∀ row ∈ rows, parseUuid row.id = some row.id)
    (bigintEpochs : ∀ row ∈ rows, -2 ^ 63 ≤ row.leaseEpoch ∧ row.leaseEpoch < 2 ^ 63) :
    commit rows = .ok ⟨rows, primaryKey, uniqueSpiffeId, canonicalIds, bigintEpochs⟩ :=
  dif_pos ⟨primaryKey, uniqueSpiffeId, canonicalIds, bigintEpochs⟩

theorem modify_ok {table next : ServerTable} {change : ServerRecord → ServerRecord}
    (modified : table.modify id change = .ok next) :
    ∃ key, parseUuid id = some key ∧ next.rows = modifyRow table.rows key change := by
  unfold modify at modified
  split at modified
  · cases modified
  next key parsed => exact ⟨key, parsed, commit_ok modified⟩

theorem mem_modifyRow (rows : List ServerRecord) (key : String) (change : ServerRecord → ServerRecord) (x : ServerRecord) :
    x ∈ modifyRow rows key change ↔ (x ∈ rows ∧ x.id ≠ key) ∨ ∃ row ∈ rows, row.id = key ∧ x = change row := by
  unfold modifyRow
  rw [List.mem_map]
  constructor
  · rintro ⟨row, mem, rfl⟩
    by_cases same : row.id = key
    · exact .inr ⟨row, mem, same, by simp [same]⟩
    · exact .inl ⟨by simpa [same] using mem, by simp [same]⟩
  · rintro (⟨mem, ne⟩ | ⟨row, mem, same, rfl⟩)
    · exact ⟨x, mem, by simp [ne]⟩
    · exact ⟨row, mem, by simp [same]⟩

theorem mem_modifyRow_self {row : ServerRecord} (held : row ∈ rows) (written : ServerRecord) :
    written ∈ modifyRow rows row.id fun _ => written :=
  (mem_modifyRow _ _ _ _).mpr (.inr ⟨row, held, rfl, rfl⟩)

theorem modify_total (parsed : parseUuid id = some key) (change : ServerRecord → ServerRecord)
    (sameId : ∀ row, (change row).id = row.id)
    (sameSpiffeId : ∀ row ∈ table.rows, row.id = key → (change row).spiffeId = row.spiffeId)
    (bigint : ∀ row ∈ table.rows, -2 ^ 63 ≤ (change row).leaseEpoch ∧ (change row).leaseEpoch < 2 ^ 63) :
    ∃ next, table.modify id change = .ok next ∧ next.rows = modifyRow table.rows key change := by
  have ids : (modifyRow table.rows key change).map ServerRecord.id = table.rows.map ServerRecord.id := by
    simp only [modifyRow, List.map_map]
    apply List.map_congr_left
    intro row mem
    by_cases same : row.id = key <;> simp [same, sameId]
  have spiffeIds :
      (modifyRow table.rows key change).map ServerRecord.spiffeId = table.rows.map ServerRecord.spiffeId := by
    simp only [modifyRow, List.map_map]
    apply List.map_congr_left
    intro row mem
    by_cases same : row.id = key
    · simp [same, sameSpiffeId row mem same]
    · simp [same]
  have canonical : ∀ row ∈ modifyRow table.rows key change, parseUuid row.id = some row.id := by
    intro row mem
    rcases (mem_modifyRow _ _ _ _).mp mem with ⟨kept, _⟩ | ⟨old, held, _, rfl⟩
    · exact table.canonicalIds row kept
    · rw [sameId]
      exact table.canonicalIds old held
  have epochs : ∀ row ∈ modifyRow table.rows key change, -2 ^ 63 ≤ row.leaseEpoch ∧ row.leaseEpoch < 2 ^ 63 := by
    intro row mem
    rcases (mem_modifyRow _ _ _ _).mp mem with ⟨kept, _⟩ | ⟨old, held, _, rfl⟩
    · exact table.bigintEpochs row kept
    · exact bigint old held
  unfold modify
  rw [parsed]
  exact ⟨_, commit_eq_ok (ids ▸ table.primaryKey) (spiffeIds ▸ table.uniqueSpiffeId) canonical epochs, rfl⟩

theorem modifyRow_const_comp (rows : List ServerRecord) {written : ServerRecord} (sameId : written.id = key)
    (change : ServerRecord → ServerRecord) :
    modifyRow (modifyRow rows key fun _ => written) key change = modifyRow rows key fun _ => change written := by
  simp only [modifyRow, List.map_map]
  apply List.map_congr_left
  intro row _
  by_cases same : row.id = key <;> simp [same, sameId]

theorem modifyRow_const {row : ServerRecord} (mem : row ∈ table.rows) (change : ServerRecord → ServerRecord) :
    modifyRow table.rows row.id change = modifyRow table.rows row.id fun _ => change row := by
  unfold modifyRow
  apply List.map_congr_left
  intro other present
  by_cases same : other.id = row.id
  · rw [if_pos same, if_pos same, table.row_unique present mem same]
  · rw [if_neg same, if_neg same]

theorem modifyRow_self {row : ServerRecord} (mem : row ∈ table.rows) :
    modifyRow table.rows row.id (fun _ => row) = table.rows := by
  rw [← table.modifyRow_const mem fun other => other, modifyRow]
  simp

theorem listing_distinct {servers : List ServerRecord} {chosen : ServerRecord → Bool}
    (listing : servers.Perm (table.rows.filter chosen)) : (servers.map ServerRecord.id).Nodup :=
  (listing.map ServerRecord.id).nodup_iff.mpr (table.primaryKey.sublist (List.filter_sublist.map _))

theorem split_of_mem {row : ServerRecord} (mem : row ∈ table.rows) :
    ∃ before after, table.rows = before ++ row :: after ∧
      (∀ stored, modifyRow table.rows row.id (fun _ => stored) = before ++ stored :: after) ∧
      table.rows.filter (fun other => other.id ≠ row.id) = before ++ after := by
  obtain ⟨before, after, split⟩ := List.append_of_mem mem
  have distinct := table.primaryKey
  rw [split, List.map_append, List.map_cons, List.nodup_middle, List.nodup_cons, ← List.map_append] at distinct
  have others : ∀ other ∈ before ++ after, other.id ≠ row.id := by
    intro other present same
    exact distinct.1 (same ▸ List.mem_map_of_mem present)
  have unchanged (stored : ServerRecord) (rows : List ServerRecord) (apart : ∀ other ∈ rows, other.id ≠ row.id) :
      modifyRow rows row.id (fun _ => stored) = rows := by
    refine (List.map_congr_left fun other present => ?_).trans (List.map_id rows)
    exact if_neg (apart other present)
  have left : ∀ other ∈ before, other.id ≠ row.id := fun other present => others other (by simp [present])
  have right : ∀ other ∈ after, other.id ≠ row.id := fun other present => others other (by simp [present])
  refine ⟨before, after, split, fun stored => ?_, ?_⟩
  · have whole : modifyRow table.rows row.id (fun _ => stored) =
        modifyRow before row.id (fun _ => stored) ++ stored :: modifyRow after row.id (fun _ => stored) := by
      simp [modifyRow, split]
    rw [whole, unchanged stored before left, unchanged stored after right]
  · have kept : (before ++ after).filter (fun other => other.id ≠ row.id) = before ++ after :=
      List.filter_eq_self.mpr (by simpa using others)
    simpa [split] using kept

theorem create_ok {table next : ServerTable} {record : ServerRecord} {assigned : String} {now : Time}
    (created : table.create record assigned now = .ok next) :
    next.rows = table.rows ++ [insertedRow record assigned now] :=
  commit_ok created

theorem id_ne_appended {table next : ServerTable} {row : ServerRecord} (rows : next.rows = table.rows ++ [row])
    (held : old ∈ table.rows) : old.id ≠ row.id := by
  have distinct := next.primaryKey
  rw [rows, List.map_append, List.nodup_append] at distinct
  exact distinct.2.2 _ (List.mem_map_of_mem held) _ (by simp)

theorem spiffeId_ne_appended {table next : ServerTable} {row : ServerRecord} (rows : next.rows = table.rows ++ [row])
    (held : old ∈ table.rows) : old.spiffeId ≠ row.spiffeId := by
  have distinct := next.uniqueSpiffeId
  rw [rows, List.map_append, List.nodup_append] at distinct
  exact distinct.2.2 _ (List.mem_map_of_mem held) _ (by simp)

theorem delete_ok {table next : ServerTable} (deleted : table.delete id = .ok next) :
    ∃ key, parseUuid id = some key ∧ next.rows = table.rows.filter fun row => row.id ≠ key := by
  unfold delete at deleted
  split at deleted
  · cases deleted
  next key parsed =>
    cases deleted
    exact ⟨key, parsed, rfl⟩

theorem acknowledgeRegistration_ok {table next : ServerTable} {leaseEpoch : Int} {capabilityHash ackVersion : String}
    {ackedAt now : Time}
    (acknowledged : table.acknowledgeRegistration id leaseEpoch capabilityHash ackVersion ackedAt now = .ok next) :
    ∃ row ∈ table.rows, parseUuid (trimSpace id) = some row.id ∧
      acknowledgeable leaseEpoch (trimSpace capabilityHash) row = true ∧
      next.rows = modifyRow table.rows row.id fun _ => acknowledgedRow row ackVersion ackedAt now := by
  unfold acknowledgeRegistration at acknowledged
  split at acknowledged
  · cases acknowledged
  next key parsed =>
    split_ifs at acknowledged with found
    simp only [List.any_eq_true, Bool.and_eq_true, decide_eq_true_eq] at found
    obtain ⟨row, mem, rfl, matching⟩ := found
    refine ⟨row, mem, parsed, matching, ?_⟩
    rw [commit_ok acknowledged, table.modifyRow_const mem]
    simp [matching]

end ServerTable

end McpGateway.Store
