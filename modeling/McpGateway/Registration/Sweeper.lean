import McpGateway.Registration.Heartbeat

namespace McpGateway.Registration

open Shared Store

-- `server` is the record as it was listed; the row may have moved on since.
def transitionServer (table : ServerTable) (server : ServerRecord) (event : Event) (now : Time) : Option ServerTable :=
  match transition server.status event with
  | none => none
  | some next => (table.updateStatus server.id next now).toOption

structure Swept where
  table : ServerTable
  index : CapabilityIndex
  count : Nat

def Swept.markStale (now : Time) (swept : Swept) (server : ServerRecord) : Swept :=
  match transitionServer swept.table server .heartbeatMissed now with
  | none => swept
  | some table => { swept with table := table, count := swept.count + 1 }

def Swept.markExpired (now : Time) (swept : Swept) (server : ServerRecord) : Swept :=
  match transitionServer swept.table server .expired now with
  | none => swept
  | some table => ⟨table, swept.index.remove server.id, swept.count + 1⟩

def sweepStale (table : ServerTable) (index : CapabilityIndex) (threshold : Int) (now : Time) : Swept :=
  match table.listStale threshold now with
  | .error _ => ⟨table, index, 0⟩
  | .ok servers => servers.foldl (Swept.markStale now) ⟨table, index, 0⟩

def sweepExpired (table : ServerTable) (index : CapabilityIndex) (threshold : Int) (now : Time) : Swept :=
  match table.listExpired threshold now with
  | .error _ => ⟨table, index, 0⟩
  | .ok servers => servers.foldl (Swept.markExpired now) ⟨table, index, 0⟩

def sweepInterval (config : Option Config) : Int :=
  match config with
  | some config => if 0 < config.heartbeatTTL then config.heartbeatTTL else 30 * second
  | none => 30 * second

def expiredThreshold (config : Option Config) : Int := Int.bmod (3 * sweepInterval config) (2 ^ 64)

def sweep (config : Option Config) (table : ServerTable) (index : CapabilityIndex) (now : Time) : Swept :=
  sweepExpired (sweepStale table index (sweepInterval config) now).table
    (sweepStale table index (sweepInterval config) now).index (expiredThreshold config) now

variable {event : Event} {table : ServerTable} {server row other : ServerRecord} {now : Time} {target : ServerStatus}
  {threshold : Int} {index : CapabilityIndex}

theorem transition_sweep {status next : ServerStatus} (swept : event = .heartbeatMissed ∨ event = .expired)
    (moved : transition status event = some next) : next ≠ .active := by
  rintro rfl
  rcases swept with rfl | rfl <;> cases status <;> simp [transition] at moved

open ServerTable (modifyRow modify_ok mem_modifyRow overdue)

theorem transitionServer_some {next : ServerTable} (swept : event = .heartbeatMissed ∨ event = .expired)
    (moved : transitionServer table server event now = some next) :
    ∃ key status, parseUuid server.id = some key ∧ status ≠ .active ∧
      next.rows = modifyRow table.rows key fun row => statusRow row status now := by
  unfold transitionServer at moved
  split at moved
  · cases moved
  next status allowed =>
    cases updated : table.updateStatus server.id status now with
    | error cause => simp [updated, Except.toOption] at moved
    | ok after =>
      have same : after = next := by simpa [updated, Except.toOption] using moved
      subst same
      obtain ⟨key, parsed, rows⟩ := modify_ok updated
      exact ⟨key, status, parsed, transition_sweep swept allowed, rows⟩

theorem Swept.markStale_table (now : Time) (swept : Swept) (server : ServerRecord) :
    (swept.markStale now server).table = (transitionServer swept.table server .heartbeatMissed now).getD swept.table := by
  unfold Swept.markStale
  cases transitionServer swept.table server .heartbeatMissed now <;> rfl

theorem Swept.markExpired_table (now : Time) (swept : Swept) (server : ServerRecord) :
    (swept.markExpired now server).table = (transitionServer swept.table server .expired now).getD swept.table := by
  unfold Swept.markExpired
  cases transitionServer swept.table server .expired now <;> rfl

@[simp] theorem expiredThreshold_eq (config : Option Config) : expiredThreshold config = 3 * sweepInterval config := by
  have range : 0 ≤ 3 * sweepInterval config ∧ 3 * sweepInterval config < 2 ^ 63 := by
    unfold sweepInterval second
    cases config with
    | none => decide
    | some config =>
      have fits := config.heartbeatTTL_lt
      dsimp only
      split_ifs <;> omega
  exact Int.bmod_eq_of_le (by omega) (by omega)

theorem sweepInterval_pos (config : Option Config) : 0 < sweepInterval config := by
  unfold sweepInterval second
  split
  · split_ifs with configured
    · exact configured
    · decide
  · decide

theorem transitionServer_held (now : Time) (held : server ∈ table.rows)
    (moved : transition server.status event = some target) :
    ∃ next, transitionServer table server event now = some next ∧
      next.rows = modifyRow table.rows server.id fun row => statusRow row target now := by
  obtain ⟨next, updated, rows⟩ := table.modify_total (table.canonicalIds server held)
    (fun row => statusRow row target now) (fun _ => rfl) (fun _ _ _ => rfl) table.bigintEpochs
  refine ⟨next, ?_, rows⟩
  simp [transitionServer, moved, ServerTable.updateStatus, updated, Except.toOption]

theorem foldl_mark_rows {mark : Swept → ServerRecord → Swept} {ripe : ServerRecord → Prop}
    (marks : ∀ swept, ∀ server ∈ swept.table.rows, ripe server → (mark swept server).table.rows =
      modifyRow swept.table.rows server.id fun row => statusRow row target now)
    (servers : List ServerRecord) (swept : Swept) (distinct : (servers.map ServerRecord.id).Nodup)
    (held : ∀ server ∈ servers, server ∈ swept.table.rows ∧ ripe server) :
    (servers.foldl mark swept).table.rows = swept.table.rows.map fun row =>
      if row.id ∈ servers.map ServerRecord.id then statusRow row target now else row := by
  induction servers generalizing swept with
  | nil => simp
  | cons server rest ih =>
    rw [List.map_cons, List.nodup_cons] at distinct
    obtain ⟨first, ready⟩ := held server (by simp)
    have marked := marks swept server first ready
    have others : ∀ other ∈ rest, other ∈ (mark swept server).table.rows ∧ ripe other := by
      intro other mem
      obtain ⟨present, readyToo⟩ := held other (List.mem_cons_of_mem _ mem)
      rw [marked, mem_modifyRow]
      refine ⟨.inl ⟨present, fun clash => distinct.1 ?_⟩, readyToo⟩
      rw [← clash]
      exact List.mem_map_of_mem mem
    rw [List.foldl_cons, ih (mark swept server) distinct.2 others, marked, modifyRow, List.map_map]
    apply List.map_congr_left
    intro row _
    by_cases same : row.id = server.id
    · have once : statusRow (statusRow row target now) target now = statusRow row target now := rfl
      simp [same, once]
    · simp [same]

theorem foldl_mark_filter {mark : Swept → ServerRecord → Swept} {listed : ServerRecord → Bool}
    (marks : ∀ swept, ∀ server ∈ swept.table.rows, listed server = true → (mark swept server).table.rows =
      modifyRow swept.table.rows server.id fun row => statusRow row target now)
    {servers : List ServerRecord} (swept : Swept) (listing : servers.Perm (swept.table.rows.filter listed)) :
    (servers.foldl mark swept).table.rows =
      swept.table.rows.map fun row => if listed row then statusRow row target now else row := by
  have member_iff (server : ServerRecord) : server ∈ servers ↔ server ∈ swept.table.rows ∧ listed server = true :=
    listing.mem_iff.trans List.mem_filter
  rw [foldl_mark_rows marks _ swept (swept.table.listing_distinct listing) fun server => (member_iff server).mp]
  apply List.map_congr_left
  intro row mem
  have same : row.id ∈ servers.map ServerRecord.id ↔ listed row = true := by
    rw [List.mem_map]
    constructor
    · rintro ⟨other, kept, clash⟩
      obtain ⟨held, chosen⟩ := (member_iff other).mp kept
      rwa [swept.table.row_unique mem held clash.symm]
    · intro chosen
      exact ⟨row, (member_iff row).mpr ⟨mem, chosen⟩, rfl⟩
  simp only [same]

theorem listStale_listing (table : ServerTable) (pos : 0 < threshold) (now : Time) :
    ∃ servers, table.listStale threshold now = .ok servers ∧ servers.Perm (table.rows.filter fun row =>
      overdue row threshold now && row.status == .active) :=
  ⟨_, if_neg (by omega), List.perm_insertionSort _ _⟩

theorem sweepStale_rows (table : ServerTable) (index : CapabilityIndex) (pos : 0 < threshold) (now : Time) :
    (sweepStale table index threshold now).table.rows = table.rows.map fun row =>
      if overdue row threshold now && row.status == .active then statusRow row .stale now else row := by
  obtain ⟨servers, listed, listing⟩ := listStale_listing table pos now
  rw [sweepStale, listed]
  refine foldl_mark_filter (fun swept server held chosen => ?_) ⟨table, index, 0⟩ listing
  have moved : transition server.status .heartbeatMissed = some .stale := by
    simp only [Bool.and_eq_true, beq_iff_eq] at chosen
    rw [chosen.2]
    rfl
  obtain ⟨next, ran, rows⟩ := transitionServer_held now held moved
  rw [Swept.markStale, ran, rows]

theorem sweepStale_index (table : ServerTable) (index : CapabilityIndex) (threshold : Int) (now : Time) :
    (sweepStale table index threshold now).index = index := by
  have kept (servers : List ServerRecord) (swept : Swept) :
      (servers.foldl (Swept.markStale now) swept).index = swept.index := by
    induction servers generalizing swept with
    | nil => rfl
    | cons server rest ih =>
      rw [List.foldl_cons, ih]
      unfold Swept.markStale
      split <;> rfl
  unfold sweepStale
  split
  · rfl
  · exact kept _ _

def lapsed (row : ServerRecord) (threshold : Int) (now : Time) : Bool :=
  overdue row (threshold * 3) now && (row.status == .active || row.status == .stale)

theorem listExpired_listing (table : ServerTable) (pos : 0 < threshold) (now : Time) :
    ∃ servers, table.listExpired threshold now = .ok servers ∧
      servers.Perm (table.rows.filter fun row => lapsed row threshold now) :=
  ⟨_, if_neg (by omega), List.perm_insertionSort _ _⟩

theorem transition_lapsed (chosen : lapsed row threshold now = true) :
    transition row.status .expired = some .expired := by
  simp only [lapsed, Bool.and_eq_true, Bool.or_eq_true, beq_iff_eq] at chosen
  rcases chosen.2 with active | stale
  · rw [active]
    rfl
  · rw [stale]
    rfl

theorem sweepExpired_rows (table : ServerTable) (index : CapabilityIndex) (pos : 0 < threshold) (now : Time) :
    (sweepExpired table index threshold now).table.rows = table.rows.map fun row =>
      if lapsed row threshold now then statusRow row .expired now else row := by
  obtain ⟨servers, listed, listing⟩ := listExpired_listing table pos now
  rw [sweepExpired, listed]
  refine foldl_mark_filter (fun swept server held chosen => ?_) ⟨table, index, 0⟩ listing
  obtain ⟨next, ran, rows⟩ := transitionServer_held now held (transition_lapsed chosen)
  rw [Swept.markExpired, ran, rows]

def sweptRow (interval : Int) (now : Time) (row : ServerRecord) : ServerRecord :=
  if lapsed row (3 * interval) now then statusRow row .expired now
  else if overdue row interval now && row.status == .active then statusRow row .stale now
  else row

variable (interval : Int)

theorem sweptRow_status (now : Time) (row : ServerRecord) :
    (sweptRow interval now row).status = if lapsed row (3 * interval) now then .expired
      else if overdue row interval now && row.status == .active then .stale else row.status := by
  unfold sweptRow
  split_ifs <;> rfl

theorem sweptRow_touches (now : Time) (row : ServerRecord) :
    ∃ status touched, sweptRow interval now row = statusRow row status touched := by
  unfold sweptRow
  split_ifs
  · exact ⟨.expired, now, rfl⟩
  · exact ⟨.stale, now, rfl⟩
  · exact ⟨row.status, row.updatedAt, rfl⟩

@[simp] theorem sweptRow_lastHeartbeat (now : Time) (row : ServerRecord) :
    (sweptRow interval now row).lastHeartbeat = row.lastHeartbeat := by
  obtain ⟨_, _, touched⟩ := sweptRow_touches interval now row
  rw [touched, statusRow]

@[simp] theorem sweptRow_spiffeId (now : Time) (row : ServerRecord) :
    (sweptRow interval now row).spiffeId = row.spiffeId := by
  obtain ⟨_, _, touched⟩ := sweptRow_touches interval now row
  rw [touched, statusRow]

theorem overdue_statusRow (row : ServerRecord) (status : ServerStatus) (touched : Time) (age now : Int) :
    overdue (statusRow row status touched) age now = overdue row age now := rfl

theorem overdue_none (unbeaten : row.lastHeartbeat = none) (age now : Int) : overdue row age now = false := by
  simp [overdue, unbeaten]

theorem overdue_some {beat : Int} (stored : row.lastHeartbeat = some beat) (age now : Int) :
    overdue row age now = decide (beat < now - age) := by
  rw [overdue, stored]

theorem overdue_mono {age older now : Int} (less : age ≤ older) (late : overdue row older now = true) :
    overdue row age now = true := by
  cases beat : row.lastHeartbeat with
  | none =>
    rw [overdue_none beat] at late
    cases late
  | some time =>
    rw [overdue_some beat, decide_eq_true_eq] at late ⊢
    omega

theorem sweep_rows (config : Option Config) (table : ServerTable) (index : CapabilityIndex) (now : Time) :
    (sweep config table index now).table.rows = table.rows.map (sweptRow (sweepInterval config) now) := by
  have pos := sweepInterval_pos config
  rw [sweep, expiredThreshold_eq, sweepExpired_rows _ _ (by omega), sweepStale_rows _ _ pos, List.map_map]
  apply List.map_congr_left
  intro row _
  have sooner : overdue row (3 * sweepInterval config * 3) now = true →
      overdue row (sweepInterval config) now = true := overdue_mono (by omega)
  have once (status : ServerStatus) : statusRow (statusRow row .stale now) status now = statusRow row status now := rfl
  cases late : overdue row (sweepInterval config) now with
  | false =>
    have fresh : overdue row (3 * sweepInterval config * 3) now = false := by
      cases lapsed : overdue row (3 * sweepInterval config * 3) now with
      | false => rfl
      | true => simp [sooner lapsed] at late
    simp [sweptRow, lapsed, late, fresh]
  | true =>
    cases status : row.status <;> simp [sweptRow, lapsed, late, status, overdue_statusRow, once]

theorem foldl_markExpired_holds (servers : List ServerRecord) (swept : Swept)
    (distinct : (servers.map ServerRecord.id).Nodup)
    (held : ∀ server ∈ servers, server ∈ swept.table.rows ∧ lapsed server threshold now = true)
    (filed : (servers.foldl (Swept.markExpired now) swept).index.Holds other) :
    swept.index.Holds other ∧ ∀ server ∈ servers, other.id ≠ server.id := by
  induction servers generalizing swept with
  | nil => exact ⟨filed, by simp⟩
  | cons server rest ih =>
    rw [List.map_cons, List.nodup_cons] at distinct
    obtain ⟨present, ready⟩ := held server (by simp)
    obtain ⟨next, ran, rows⟩ := transitionServer_held now present (transition_lapsed ready)
    have marked : swept.markExpired now server = ⟨next, swept.index.remove server.id, swept.count + 1⟩ := by
      rw [Swept.markExpired, ran]
    rw [List.foldl_cons, marked] at filed
    have others : ∀ later ∈ rest, later ∈ next.rows ∧ lapsed later threshold now = true := by
      intro later mem
      obtain ⟨kept, readyToo⟩ := held later (List.mem_cons_of_mem _ mem)
      rw [rows, mem_modifyRow]
      refine ⟨.inl ⟨kept, fun clash => distinct.1 ?_⟩, readyToo⟩
      rw [← clash]
      exact List.mem_map_of_mem mem
    obtain ⟨before, apart⟩ := ih _ distinct.2 others filed
    obtain ⟨start, named⟩ := (CapabilityIndex.holds_remove_iff _ _ _).mp before
    have spelled := swept.table.canonicalIds server present
    refine ⟨start, fun later mem => ?_⟩
    rcases List.mem_cons.mp mem with rfl | mem
    · exact named (trimSpace_ne_empty_of_uuid spelled)
    · exact apart later mem

theorem sweepExpired_holds (pos : 0 < threshold) (filed : (sweepExpired table index threshold now).index.Holds other) :
    index.Holds other ∧ ∀ row ∈ table.rows, lapsed row threshold now = true → other.id ≠ row.id := by
  obtain ⟨servers, listed, listing⟩ := listExpired_listing table pos now
  rw [sweepExpired, listed] at filed
  obtain ⟨start, apart⟩ := foldl_markExpired_holds servers ⟨table, index, 0⟩ (table.listing_distinct listing)
    (fun server mem => List.mem_filter.mp (listing.mem_iff.mp mem)) filed
  exact ⟨start, fun row mem ready => apart row (listing.mem_iff.mpr (List.mem_filter.mpr ⟨mem, ready⟩))⟩

theorem sweep_holds {config : Option Config} (filed : (sweep config table index now).index.Holds other) :
    index.Holds other ∧ ∀ row ∈ table.rows, lapsed row (3 * sweepInterval config) now = true → other.id ≠ row.id := by
  have pos := sweepInterval_pos config
  have staled := sweepStale_rows table index pos now
  rw [sweep, expiredThreshold_eq] at filed
  obtain ⟨start, apart⟩ := sweepExpired_holds (by omega) filed
  rw [sweepStale_index] at start
  refine ⟨start, fun row mem ready => ?_⟩
  by_cases late : (overdue row (sweepInterval config) now && row.status == .active) = true
  · have marked : statusRow row .stale now ∈ (sweepStale table index (sweepInterval config) now).table.rows := by
      rw [staled, List.mem_map]
      exact ⟨row, mem, if_pos late⟩
    have listed : lapsed (statusRow row .stale now) (3 * sweepInterval config) now = true := by
      rw [lapsed, Bool.and_eq_true] at ready
      rw [lapsed, overdue_statusRow, ready.1]
      rfl
    exact apart (statusRow row .stale now) marked listed
  · refine apart row ?_ ready
    rw [staled, List.mem_map]
    exact ⟨row, mem, if_neg late⟩

end McpGateway.Registration
