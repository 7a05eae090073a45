import McpGateway.Registration.IndexedService
import McpGateway.Shared.Replica

namespace McpGateway

def ServerRecord.filing (row : ServerRecord) : Option ServerRecord :=
  if row.isRoutable = true ∧ ¬ row.unlisted then some row else none

-- Heartbeats rewrite these two columns without a word to the other gateways.
def ServerRecord.withoutTimes (server : ServerRecord) : ServerRecord :=
  { server with lastHeartbeat := none, updatedAt := 0 }

theorem ServerRecord.filing_eq_some_iff (row server : ServerRecord) :
    row.filing = some server ↔ row = server ∧ row.isRoutable = true ∧ ¬ row.unlisted := by
  unfold ServerRecord.filing
  split_ifs with files
  · simp [files]
  · simp [files]

theorem ServerRecord.filing_eq_none {row : ServerRecord} (quiet : row.status = .active → row.unlisted) :
    row.filing = none := by
  rw [ServerRecord.filing, if_neg]
  rintro ⟨routable, listed⟩
  exact listed (quiet (row.isRoutable_iff.mp routable))

namespace Registration

open Shared Store Policy

-- What a gateway has read from the store and not yet written to its index. RefreshServer first takes the
-- server out of the index; syncServer only adds to it.
structure IndexUpdate where
  serverId : String
  record : ServerRecord
  withdraws : Bool

def IndexUpdate.perform (update : IndexUpdate) (index : CapabilityIndex) : CapabilityIndex :=
  if update.withdraws then index.replaceServer update.serverId update.record else index.add update.record

structure Cluster where
  table : ServerTable
  classifications : Option ClassificationTable
  published : List Broadcast
  index : CapabilityIndex
  outstanding : List IndexUpdate

def Cluster.registry (cluster : Cluster) (peer : CapabilityIndex) : Registry :=
  ⟨cluster.table, cluster.classifications, peer, cluster.published⟩

@[simp] theorem Cluster.registry_table (cluster : Cluster) (peer : CapabilityIndex) :
    (cluster.registry peer).table = cluster.table := rfl

def Cluster.write (cluster : Cluster) (after : Registry) : Cluster :=
  { cluster with
    table := after.table
    classifications := after.classifications
    published := after.published }

def Cluster.mark (cluster : Cluster) (server : ServerRecord) (event : Event) (now : Time) : Cluster :=
  match transitionServer cluster.table server event now with
  | none => cluster
  | some table => { cluster with table := table }

def Cluster.read (cluster : Cluster) (serverId : String) (withdraws : Bool) : Cluster :=
  if trimSpace serverId = "" then cluster
  else
    match cluster.table.get serverId with
    | .error _ => cluster
    | .ok record => { cluster with outstanding := cluster.outstanding ++ [⟨serverId, record, withdraws⟩] }

def Cluster.handle (cluster : Cluster) (eventType : RegistrationEventType) (serverId : String) : Cluster :=
  if trimSpace serverId = "" then cluster
  else
    match eventType with
    | .registered | .statusChanged => cluster.read (trimSpace serverId) true
    | .deregistered => { cluster with index := cluster.index.remove (trimSpace serverId) }

def Cluster.receive (cluster : Cluster) : Broadcast → Cluster
  | .registryUpdated eventType serverId => cluster.handle eventType serverId
  | _ => cluster

def Cluster.apply (cluster : Cluster) (position : Nat) : Cluster :=
  match cluster.outstanding[position]? with
  | none => cluster
  | some update =>
    { cluster with
      index := update.perform cluster.index
      outstanding := cluster.outstanding.eraseIdx position }

-- The first five are store changes by any gateway, the rest is what the receiving gateway does: it is handed a
-- message (and may be handed it again), and for calls it serves itself it reads a server or removes it.
inductive Step where
  | register (gateway : Service) (peer : CapabilityIndex) (caller : Option Identity) (request : RegistrationRequest)
      (context : RegisterContext)
  | heartbeat (gateway : Service) (peer : CapabilityIndex) (caller : Option Identity) (id : String)
      (request : HeartbeatRequest) (context : HeartbeatContext)
  | markStale (server : ServerRecord) (now : Time)
  | markExpired (server : ServerRecord) (now : Time)
  | deregister (gateway : Service) (peer : CapabilityIndex) (caller : Option Identity) (id : String)
  | deliver (message : Broadcast) (again : Bool)
  | read (serverId : String) (withdraws : Bool)
  | remove (serverId : String)
  | apply (position : Nat)

def Cluster.step (cluster : Cluster) : Step → Cluster
  | .register gateway peer caller request context =>
    cluster.write (gateway.register (cluster.registry peer) caller request context).2
  | .heartbeat gateway peer caller id request context =>
    cluster.write (gateway.heartbeat (cluster.registry peer) caller id request context).2
  | .markStale server now => cluster.mark server .heartbeatMissed now
  | .markExpired server now => cluster.mark server .expired now
  | .deregister gateway peer caller id => cluster.write (gateway.deregister (cluster.registry peer) caller id).2
  | .deliver message again =>
    if message ∉ cluster.published then cluster
    else if again then cluster.receive message
    else { cluster with published := cluster.published.erase message }.receive message
  | .read serverId withdraws => cluster.read serverId withdraws
  | .remove serverId => { cluster with index := cluster.index.remove serverId }
  | .apply position => cluster.apply position

def Cluster.Removable (cluster : Cluster) (serverId : String) : Prop :=
  (∀ update ∈ cluster.outstanding, update.record.id ≠ serverId) ∧
    ∀ row ∈ cluster.table.rows, row.id = serverId → row.status = .active → row.unlisted

def Cluster.Spelled (cluster : Cluster) (serverId : String) : Prop :=
  ∀ row ∈ cluster.table.rows, parseUuid serverId = some row.id → row.id = serverId

def CapabilityIndex.Additive (index : CapabilityIndex) (record : ServerRecord) : Prop :=
  (∀ name, ∀ server ∈ index.tools.bucket name, server.id = record.id → name ∈ record.toolKeys) ∧
    ∀ key, ∀ server ∈ index.resources.bucket key, server.id = record.id → key ∈ record.resourceKeys

def Cluster.SweepsUnlisted (cluster : Cluster) (server : ServerRecord) : Prop :=
  ∀ row ∈ cluster.table.rows, parseUuid server.id = some row.id → row.status = .active → row.unlisted

def Broadcast.Orderly (cluster : Cluster) : Broadcast → Prop
  | .registryUpdated .registered serverId => cluster.Spelled (trimSpace serverId)
  | .registryUpdated .statusChanged serverId => cluster.Spelled (trimSpace serverId)
  | .registryUpdated .deregistered serverId => cluster.Removable (trimSpace serverId)
  | .classificationUpdated _ _ _ => True
  | .capabilitiesChanged _ _ _ => True

def Step.Orderly (cluster : Cluster) : Step → Prop
  | .register gateway _ caller request context =>
    gateway.broadcasting = true ∧ ∀ identity, caller = some identity →
      (∀ row ∈ cluster.table.rows, row.spiffeId ≠ identity.id) → context.generated = context.assigned ∨
        (capabilityKeys request.capabilities.tools = [] ∧ capabilityKeys request.capabilities.resources = [])
  | .heartbeat gateway _ _ id request context =>
    gateway.broadcasting = true ∧ ∀ row ∈ cluster.table.rows, parseUuid id = some row.id →
      ¬ gateway.Refreshes request context row
  | .markStale server _ => cluster.SweepsUnlisted server
  | .markExpired server _ => cluster.SweepsUnlisted server
  | .deregister gateway _ _ _ => gateway.broadcasting = true
  | .deliver message _ => message.Orderly cluster
  | .read serverId withdraws => withdraws = true → cluster.Spelled serverId
  | .remove serverId => cluster.Removable serverId
  | .apply position => ∀ update ∈ cluster.outstanding[position]?,
    (∀ prior ∈ cluster.outstanding.take position, prior.record.id ≠ update.record.id) ∧
      (update.withdraws = false → cluster.index.Additive update.record)

def IndexUpdate.fetch (update : IndexUpdate) : Fetch String ServerRecord :=
  ⟨update.record.id, update.record.filing, update.withdraws⟩

def Broadcast.notice : Broadcast → Option (Notice String)
  | .registryUpdated eventType serverId =>
    if trimSpace serverId = "" then none
    else if eventType = .deregistered then some (.dropped (trimSpace serverId))
    else some (.changed (trimSpace serverId))
  | _ => none

def Cluster.replica (cluster : Cluster) (shown : String → Option ServerRecord) : Replica String ServerRecord where
  source key := (cluster.table.entry key).map ServerRecord.filing
  notices := fun notice => ∃ message ∈ cluster.published, message.notice = some notice
  shown := shown
  fetches := cluster.outstanding.map IndexUpdate.fetch

structure Cluster.Tracks (cluster : Cluster) (shown : String → Option ServerRecord) : Prop where
  filed : cluster.index.Reflects fun server => shown server.id = some server
  spelled : ∀ update ∈ cluster.outstanding, update.withdraws = true → update.serverId = update.record.id
  sound : (cluster.replica shown).Sound ServerRecord.withoutTimes

section

variable {cluster next : Cluster} {shown : String → Option ServerRecord}

theorem Cluster.source_of_mem (shown : String → Option ServerRecord) {row : ServerRecord} (mem : row ∈ cluster.table.rows) :
    (cluster.replica shown).source row.id = some row.filing :=
  congrArg (Option.map ServerRecord.filing) (ServerTable.entry_of_mem mem)

variable {key id serverId : String} {eventType : RegistrationEventType} {after : Registry} {gateway : Service}
  {caller : Option Identity}

theorem Cluster.source_eq_none (shown : String → Option ServerRecord)
    (absent : ∀ row ∈ cluster.table.rows, row.id ≠ key) : (cluster.replica shown).source key = none :=
  congrArg (Option.map ServerRecord.filing) (ServerTable.entry_eq_none absent)

theorem Cluster.shows_of_mem (shown : String → Option ServerRecord) {row : ServerRecord} (mem : row ∈ cluster.table.rows) :
    (cluster.replica shown).shows row.id = row.filing := by
  rw [Replica.shows, Cluster.source_of_mem shown mem, Option.join_some]

theorem Cluster.shows_eq_none (shown : String → Option ServerRecord)
    (quiet : ∀ row ∈ cluster.table.rows, row.id = key → row.status = .active → row.unlisted) :
    (cluster.replica shown).shows key = none := by
  by_cases present : ∃ row ∈ cluster.table.rows, row.id = key
  · obtain ⟨row, mem, rfl⟩ := present
    rw [Cluster.shows_of_mem shown mem, ServerRecord.filing_eq_none (quiet row mem rfl)]
  · push Not at present
    rw [Replica.shows, Cluster.source_eq_none shown present, Option.join_none]

theorem Broadcast.notice_changed (canonical : parseUuid id = some id) (kind : eventType ≠ .deregistered) :
    (Broadcast.registryUpdated eventType id).notice = some (.changed id) := by
  rw [Broadcast.notice, if_neg (trimSpace_ne_empty_of_uuid canonical), if_neg kind, trimSpace_uuid canonical]

theorem Broadcast.notice_dropped (canonical : parseUuid id = some id) :
    (Broadcast.registryUpdated .deregistered id).notice = some (.dropped id) := by
  rw [Broadcast.notice, if_neg (trimSpace_ne_empty_of_uuid canonical), if_pos rfl, trimSpace_uuid canonical]

theorem Cluster.announced_changed {row : ServerRecord} (mem : row ∈ cluster.table.rows)
    (kind : eventType ≠ .deregistered) (sent : .registryUpdated eventType row.id ∈ cluster.published) :
    (cluster.replica shown).Announced row.id := by
  refine .inl ⟨⟨_, sent, Broadcast.notice_changed (cluster.table.canonicalIds row mem) kind⟩, ?_⟩
  rw [Cluster.source_of_mem shown mem]
  simp

theorem Cluster.Tracks.write (tracks : cluster.Tracks shown) (key : String) (kept : cluster.published ⊆ after.published)
    (elsewhere : ∀ row, row.id ≠ key → (row ∈ after.table.rows ↔ row ∈ cluster.table.rows))
    (told : ((cluster.write after).replica shown).Announced key ∨
      ((((cluster.write after).replica shown).shows key).map ServerRecord.withoutTimes =
        ((cluster.replica shown).shows key).map ServerRecord.withoutTimes ∧
          ((cluster.replica shown).source key ≠ none → ((cluster.write after).replica shown).source key ≠ none))) :
    (cluster.write after).Tracks shown := by
  refine ⟨tracks.filed, tracks.spelled, tracks.sound.write key ?_ ?_ rfl told⟩
  · intro other apart
    refine congrArg (Option.map ServerRecord.filing) (ServerTable.entry_congr fun row same => elsewhere row ?_)
    rwa [same]
  · rintro notice ⟨message, sent, same⟩
    exact ⟨message, kept sent, same⟩

variable {record : ServerRecord} {peer : CapabilityIndex} {published : List Broadcast} {spent : Broadcast → Prop}
  {message : Broadcast}

theorem Cluster.Tracks.rewrite (tracks : cluster.Tracks shown) {stored : ServerRecord}
    (held : record ∈ cluster.table.rows) (kept : cluster.published ⊆ after.published) (sameId : stored.id = record.id)
    (rows : after.table.rows = ServerTable.modifyRow cluster.table.rows record.id fun _ => stored)
    (told : (∃ eventType, eventType ≠ .deregistered ∧ .registryUpdated eventType record.id ∈ after.published) ∨
      stored.filing.map ServerRecord.withoutTimes = record.filing.map ServerRecord.withoutTimes) :
    (cluster.write after).Tracks shown := by
  have written : stored ∈ (cluster.write after).table.rows := by
    rw [Cluster.write, rows]
    exact ServerTable.mem_modifyRow_self held stored
  refine tracks.write record.id kept ?_ ?_
  · intro row apart
    rw [rows, ServerTable.mem_modifyRow]
    constructor
    · rintro (⟨mem, _⟩ | ⟨_, _, _, rfl⟩)
      · exact mem
      · exact absurd sameId apart
    · exact fun mem => .inl ⟨mem, apart⟩
  · rcases told with ⟨eventType, kind, sent⟩ | same
    · rw [← sameId] at sent ⊢
      exact .inl (Cluster.announced_changed written kind sent)
    · have shows := Cluster.shows_of_mem shown written
      have source := Cluster.source_of_mem shown written
      rw [sameId] at shows source
      refine .inr ⟨?_, fun _ => ?_⟩
      · rw [shows, Cluster.shows_of_mem shown held, same]
      · simp [source]

theorem Cluster.Tracks.register (tracks : cluster.Tracks shown) {request : RegistrationRequest}
    {context : RegisterContext} (orderly : (Step.register gateway peer caller request context).Orderly cluster) :
    (cluster.step (.register gateway peer caller request context)).Tracks shown := by
  obtain ⟨broadcasting, fresh⟩ := orderly
  unfold Cluster.step
  dsimp only
  cases called : gateway.register (cluster.registry peer) caller request context with
  | mk result after =>
    cases result with
    | error error =>
      rw [gateway.register_error called]
      exact tracks
    | ok reply =>
      obtain ⟨identity, record, table, admitted, _, written, _, rfl⟩ := gateway.register_ok called
      obtain ⟨rfl, _⟩ := gateway.admit_ok admitted
      have kept := gateway.postRegister_kept { cluster.registry peer with table := table } record context.now
      have sent := gateway.postRegister_sent broadcasting { cluster.registry peer with table := table } record context.now
      cases written with
      | updated existing stored row held own sameId returnedId epoch rows =>
        rw [returnedId] at sent
        exact tracks.rewrite held kept sameId (by simpa using rows) (.inl ⟨.registered, by simp, sent⟩)
      | created stored row absent assignedId returnedId epoch rows =>
        have tableRows : (gateway.postRegister { cluster.registry peer with table := table } record
            context.now).table.rows = cluster.table.rows ++ [stored] := by simpa using rows
        have mem : stored ∈ (cluster.write (gateway.postRegister { cluster.registry peer with table := table }
            record context.now)).table.rows := by
          rw [Cluster.write, tableRows]
          simp
        refine tracks.write stored.id kept ?_ ?_
        · intro row apart
          rw [tableRows, List.mem_append, List.mem_singleton]
          exact or_iff_left fun same => apart (congrArg ServerRecord.id same)
        · rcases fresh identity rfl absent with drawn | quiet
          · rw [returnedId, drawn, ← assignedId] at sent
            exact .inl (Cluster.announced_changed mem (by simp) sent)
          · rw [← row.keys.1, ← row.keys.2] at quiet
            have vacant : ∀ old ∈ cluster.table.rows, old.id ≠ stored.id :=
              fun old listed => ServerTable.id_ne_appended rows listed
            refine .inr ⟨?_, fun present => absurd (Cluster.source_eq_none shown vacant) present⟩
            rw [Cluster.shows_of_mem shown mem, ServerRecord.filing_eq_none fun _ => quiet, Replica.shows,
              Cluster.source_eq_none shown vacant, Option.join_none]

theorem filing_beaten (active : record.status = .active) (touched now : Time) :
    (heartbeatRow (statusRow record .active touched) now).filing.map ServerRecord.withoutTimes =
      record.filing.map ServerRecord.withoutTimes := by
  have same : (heartbeatRow (statusRow record .active touched) now).withoutTimes = record.withoutTimes := by
    rw [← active]
    rfl
  have routable : record.isRoutable = true := record.isRoutable_iff.mpr active
  by_cases quiet : record.unlisted
  · have beaten : (heartbeatRow (statusRow record .active touched) now).unlisted := quiet
    rw [ServerRecord.filing_eq_none fun _ => beaten, ServerRecord.filing_eq_none fun _ => quiet]
  · rw [ServerRecord.filing, if_pos ⟨rfl, quiet⟩, ServerRecord.filing, if_pos ⟨routable, quiet⟩, Option.map_some, same,
      Option.map_some]

theorem Cluster.Tracks.heartbeat (tracks : cluster.Tracks shown) {request : HeartbeatRequest}
    {context : HeartbeatContext} (orderly : (Step.heartbeat gateway peer caller id request context).Orderly cluster) :
    (cluster.step (.heartbeat gateway peer caller id request context)).Tracks shown := by
  obtain ⟨broadcasting, unrefreshed⟩ := orderly
  unfold Cluster.step
  dsimp only
  cases called : gateway.heartbeat (cluster.registry peer) caller id request context with
  | mk result after =>
    rcases Service.heartbeat_cases called with ⟨_, same⟩ | ⟨reply, _, beaten⟩
    · rw [same]
      exact tracks
    cases beaten with
    | reRegister record held spelled _ _ same =>
      rw [same]
      exact tracks
    | recorded record held spelled _ _ _ _ rows announces _ =>
      cases refreshed : gateway.refreshedTools request context record with
      | none =>
        refine tracks.rewrite held announces.kept (Service.beatenRow_id _ _ _ _) rows ?_
        by_cases active : record.status = .active
        · rw [Service.beatenRow_none refreshed]
          exact .inr (filing_beaten active context.now context.now)
        · exact .inl ⟨.statusChanged, by simp, announces.moved broadcasting active⟩
      | some toolNames => exact absurd (Service.refreshes_of_tools refreshed) (unrefreshed record held spelled)

theorem Cluster.Tracks.mark (tracks : cluster.Tracks shown) {server : ServerRecord} {event : Event}
    (swept : event = .heartbeatMissed ∨ event = .expired) (quiet : cluster.SweepsUnlisted server) (now : Time) :
    (cluster.mark server event now).Tracks shown := by
  unfold Cluster.mark
  split
  · exact tracks
  next table moved =>
    obtain ⟨key, status, parsed, idle, rows⟩ := transitionServer_some swept moved
    change (cluster.write ⟨table, cluster.classifications, cluster.index, cluster.published⟩).Tracks shown
    by_cases present : ∃ row ∈ cluster.table.rows, row.id = key
    · obtain ⟨row, held, rfl⟩ := present
      rw [cluster.table.modifyRow_const held] at rows
      refine tracks.rewrite held (List.Subset.refl _) (statusRow_id row status now) rows (.inr ?_)
      have stale : (statusRow row status now).status = .active → (statusRow row status now).unlisted :=
        fun active => absurd active idle
      rw [ServerRecord.filing_eq_none (quiet row held parsed), ServerRecord.filing_eq_none stale]
    · push Not at present
      have same : table.rows = cluster.table.rows := by
        rw [rows, ServerTable.modifyRow]
        refine (List.map_congr_left fun row mem => ?_).trans (List.map_id _)
        exact if_neg (present row mem)
      have gone : ∀ row ∈ table.rows, row.id ≠ key := by rwa [same]
      refine tracks.write key (List.Subset.refl _) (fun row _ => by rw [same]) (.inr ⟨?_, fun held => absurd ?_ held⟩)
      · rw [Replica.shows, Cluster.source_eq_none shown gone, Replica.shows, Cluster.source_eq_none shown present]
      · exact Cluster.source_eq_none shown present

theorem Cluster.Tracks.deregister (tracks : cluster.Tracks shown) (broadcasting : gateway.broadcasting = true) :
    (cluster.step (.deregister gateway peer caller id)).Tracks shown := by
  unfold Cluster.step
  dsimp only
  cases called : gateway.deregister (cluster.registry peer) caller id with
  | mk result after =>
    rcases Service.deregister_cases called with ⟨_, same⟩ | ⟨_, _, kept, record, held, _, rows, sent⟩
    · rw [same]
      exact tracks
    · have mem_remaining (row : ServerRecord) :
          row ∈ (cluster.write after).table.rows ↔ row ∈ cluster.table.rows ∧ row.id ≠ record.id := by
        change row ∈ after.table.rows ↔ _
        simp [rows, Cluster.registry]
      have gone : ∀ row ∈ (cluster.write after).table.rows, row.id ≠ record.id := fun row mem =>
        ((mem_remaining row).mp mem).2
      refine tracks.write record.id kept ?_ (.inl (.inr ⟨⟨_, sent broadcasting, ?_⟩, ?_⟩))
      · intro row apart
        exact (mem_remaining row).trans (and_iff_left apart)
      · exact Broadcast.notice_dropped (cluster.table.canonicalIds record held)
      · rw [Replica.shows, Cluster.source_eq_none shown gone, Option.join_none]

def Cluster.Keeps (cluster : Cluster) (published : List Broadcast) (spent : Broadcast → Prop) : Prop :=
  ∀ message ∈ cluster.published, message ∈ published ∨ spent message

theorem Cluster.Keeps.notices (kept : cluster.Keeps published spent) {notice : Notice String}
    (out : notice ∈ (cluster.replica shown).notices) :
    notice ∈ ({ cluster with published := published }.replica shown).notices ∨
      ∃ message, spent message ∧ message.notice = some notice := by
  obtain ⟨message, sent, same⟩ := out
  exact (kept message sent).imp (fun still => ⟨message, still, same⟩) fun gone => ⟨message, gone, same⟩

theorem Cluster.Tracks.spend (tracks : cluster.Tracks shown) (kept : cluster.Keeps published spent)
    (silent : ∀ message, spent message → message.notice = none) :
    { cluster with published := published }.Tracks shown := by
  refine ⟨tracks.filed, tracks.spelled, fun key => (tracks.sound key).frame rfl ?_ rfl⟩
  intro notice out _
  rcases kept.notices out with still | ⟨message, gone, same⟩
  · exact still
  · rw [silent message gone] at same
    cases same

theorem Cluster.Tracks.miss (tracks : cluster.Tracks shown) (gone : ∀ row ∈ cluster.table.rows, row.id ≠ serverId)
    (kept : cluster.Keeps published fun message => ∀ notice, message.notice = some notice → notice = .changed serverId) :
    { cluster with published := published }.Tracks shown := by
  refine ⟨tracks.filed, tracks.spelled, tracks.sound.miss (Cluster.source_eq_none shown gone) rfl ?_ rfl⟩
  intro notice out other
  rcases kept.notices out with still | ⟨message, only, same⟩
  · exact still
  · exact absurd (only notice same) other

theorem Cluster.Tracks.read (tracks : cluster.Tracks shown) {withdraws : Bool}
    (spelled : withdraws = true → cluster.Spelled serverId)
    (kept : cluster.Keeps published fun message => withdraws = true ∧ ∀ notice, message.notice = some notice →
      notice = .changed serverId) : ({ cluster with published := published }.read serverId withdraws).Tracks shown := by
  have named : cluster.Keeps published fun message =>
      ∀ notice, message.notice = some notice → notice = .changed serverId :=
    fun message sent => (kept message sent).imp_right And.right
  unfold Cluster.read
  split_ifs with blank
  · refine tracks.miss ?_ named
    rintro row mem rfl
    exact trimSpace_ne_empty_of_uuid (cluster.table.canonicalIds row mem) blank
  split
  next cause failed =>
    refine tracks.miss ?_ named
    rintro row mem rfl
    change cluster.table.get row.id = .error cause at failed
    rw [cluster.table.get_self mem] at failed
    cases failed
  next record got =>
    obtain ⟨held, parsed⟩ := (cluster.table.get_eq_ok_iff serverId record).mp got
    refine ⟨tracks.filed, ?_, ?_⟩
    · intro update mem replaces
      rcases List.mem_append.mp mem with prior | new
      · exact tracks.spelled update prior replaces
      · rw [List.mem_singleton] at new
        subst new
        exact (spelled replaces record held parsed).symm
    · refine tracks.sound.read ⟨record.id, record.filing, withdraws⟩ (Cluster.source_of_mem shown held) rfl rfl
        ?_ ?_ rfl ?_
      · intro notice out _ idle
        rcases kept.notices out with still | ⟨_, ⟨replaces, _⟩, _⟩
        · exact still
        · exact absurd (idle.symm.trans replaces) (by simp)
      · intro notice out other
        rcases kept.notices out with still | ⟨message, ⟨replaces, only⟩, same⟩
        · exact still
        · rw [only notice same] at other
          exact absurd (spelled replaces record held parsed).symm other
      · exact List.map_append

theorem update_eq_some_iff (shown : String → Option ServerRecord) (key : String) (entry : Option ServerRecord)
    (server : ServerRecord) : Function.update shown key entry server.id = some server ↔
      (server.id = key ∧ entry = some server) ∨ (shown server.id = some server ∧ server.id ≠ key) := by
  by_cases same : server.id = key
  · simp [same]
  · simp [same]

theorem Cluster.Tracks.remove (tracks : cluster.Tracks shown) (named : trimSpace serverId ≠ "")
    (removable : cluster.Removable serverId)
    (kept : cluster.Keeps published fun message => ∀ notice, message.notice = some notice → notice = .dropped serverId) :
    { cluster with published := published, index := cluster.index.remove serverId }.Tracks
      (Function.update shown serverId none) := by
  refine ⟨?_, tracks.spelled, ?_⟩
  · dsimp only
    rw [CapabilityIndex.remove, if_neg named]
    refine (tracks.filed.removeLocked serverId).congr fun server => ?_
    simp [update_eq_some_iff]
  · refine tracks.sound.clear (Cluster.shows_eq_none shown removable.2) ?_ rfl ?_ rfl rfl
    · intro fetch mem
      obtain ⟨update, outstanding, rfl⟩ := List.mem_map.mp mem
      exact removable.1 update outstanding
    · intro notice out other
      rcases kept.notices out with still | ⟨message, only, same⟩
      · exact still
      · rw [only notice same] at other
        exact absurd rfl other

theorem CapabilityIndex.Additive.covered {index : CapabilityIndex} {listed : ServerRecord → Prop}
    (reflects : index.Reflects listed) (additive : index.Additive record) : CapabilityIndex.Covered listed record := by
  constructor
  · intro old held same name listed
    exact additive.1 name old ((reflects.tools name old).mpr ⟨held, listed⟩) same
  · intro old held same key listed
    exact additive.2 key old ((reflects.resources key old).mpr ⟨held, listed⟩) same

section

variable {index : CapabilityIndex} {update : IndexUpdate}

section

variable (reflects : index.Reflects fun server => shown server.id = some server)

include reflects

theorem IndexUpdate.withdrawing_reflects (withdraws : update.withdraws = true) :
    (index.replaceServer update.record.id update.record).Reflects fun server =>
      update.fetch.apply shown server.id = some server := by
  have replaced : update.fetch.apply shown = Function.update shown update.record.id update.record.filing := by
    simp [Fetch.apply, IndexUpdate.fetch, withdraws]
  refine (reflects.replaceServer update.record).congr_listed fun server listed => ?_
  rw [replaced, update_eq_some_iff, ServerRecord.filing_eq_some_iff]
  refine or_congr_left ?_
  constructor
  · rintro ⟨rfl, routable⟩
    exact ⟨rfl, rfl, routable, listed⟩
  · rintro ⟨_, rfl, routable, _⟩
    exact ⟨rfl, routable⟩

theorem IndexUpdate.filing_reflects
    (covered : CapabilityIndex.Covered (fun server => shown server.id = some server) update.record)
    (files : update.record.isRoutable = true ∧ ¬ update.record.unlisted) :
    (index.add update.record).Reflects fun server => update.fetch.apply shown server.id = some server := by
  have filed : update.fetch.apply shown = Function.update shown update.record.id (some update.record) := by
    simp [Fetch.apply, IndexUpdate.fetch, ServerRecord.filing, files]
  refine (reflects.add files.1 covered).congr fun server => ?_
  rw [filed, update_eq_some_iff]
  refine or_congr_left ?_
  constructor
  · rintro rfl
    exact ⟨rfl, rfl⟩
  · rintro ⟨_, same⟩
    exact (Option.some.inj same).symm

theorem IndexUpdate.unlisted_reflects
    (covered : CapabilityIndex.Covered (fun server => shown server.id = some server) update.record)
    (routable : update.record.isRoutable = true) (quiet : update.record.unlisted) :
    (index.add update.record).Reflects fun server => shown server.id = some server := by
  refine (reflects.add routable covered).congr_listed fun server listed => ?_
  constructor
  · rintro (rfl | ⟨held, _⟩)
    · exact absurd quiet listed
    · exact held
  · intro held
    refine .inr ⟨held, fun same => listed ?_⟩
    have tools := covered.tools server held same
    have resources := covered.resources server held same
    rw [quiet.1] at tools
    rw [quiet.2] at resources
    exact ⟨List.subset_nil.mp tools, List.subset_nil.mp resources⟩

theorem IndexUpdate.perform_reflects (spelled : update.withdraws = true → update.serverId = update.record.id)
    (additive : update.withdraws = false → index.Additive update.record) :
    (update.perform index).Reflects fun server => update.fetch.apply shown server.id = some server := by
  unfold IndexUpdate.perform
  split_ifs with withdraws
  · rw [spelled withdraws]
    exact update.withdrawing_reflects reflects withdraws
  have keeps : update.withdraws = false := by simpa using withdraws
  have covered := CapabilityIndex.Additive.covered reflects (additive keeps)
  by_cases files : update.record.isRoutable = true ∧ ¬ update.record.unlisted
  · exact update.filing_reflects reflects covered files
  have idle : update.fetch.apply shown = shown := by
    simp [Fetch.apply, IndexUpdate.fetch, ServerRecord.filing, files, keeps]
  rw [idle]
  cases routable : update.record.isRoutable with
  | false => rwa [CapabilityIndex.add, if_neg (by simp [routable])]
  | true => exact update.unlisted_reflects reflects covered routable (by simpa [routable] using files)

end

end

theorem Cluster.Tracks.apply (tracks : cluster.Tracks shown) {position : Nat}
    (orderly : (Step.apply position).Orderly cluster) : ∃ shown, (cluster.apply position).Tracks shown := by
  unfold Cluster.apply
  split
  · exact ⟨shown, tracks⟩
  next update found =>
    obtain ⟨first, additive⟩ := orderly update found
    obtain ⟨inside, here⟩ := List.getElem?_eq_some_iff.mp found
    have split : cluster.outstanding =
        cluster.outstanding.take position ++ update :: cluster.outstanding.drop (position + 1) := by
      rw [← here, ← List.drop_eq_getElem_cons inside, List.take_append_drop]
    have mem : update ∈ cluster.outstanding := List.mem_of_getElem? found
    have rest : cluster.outstanding.eraseIdx position =
        cluster.outstanding.take position ++ cluster.outstanding.drop (position + 1) :=
      List.eraseIdx_eq_take_drop_succ _ _
    refine ⟨update.fetch.apply shown, ?_, ?_, ?_⟩
    · exact IndexUpdate.perform_reflects tracks.filed (tracks.spelled update mem) additive
    · intro other outstanding
      exact tracks.spelled other (List.mem_of_mem_eraseIdx outstanding)
    · have outstanding : (cluster.replica shown).fetches = (cluster.outstanding.take position).map IndexUpdate.fetch ++
          update.fetch :: (cluster.outstanding.drop (position + 1)).map IndexUpdate.fetch := by
        rw [← List.map_cons, ← List.map_append, ← split]
        rfl
      refine tracks.sound.apply outstanding ?_ rfl rfl rfl ?_
      · intro fetch prior
        obtain ⟨before, taken, rfl⟩ := List.mem_map.mp prior
        exact first before taken
      · rw [← List.map_append, ← rest]
        rfl

theorem Cluster.Tracks.receive (tracks : cluster.Tracks shown) (orderly : message.Orderly cluster)
    (kept : cluster.Keeps published fun other => other = message) :
    ∃ shown, ({ cluster with published := published }.receive message).Tracks shown := by
  cases message with
  | registryUpdated eventType serverId =>
    rw [Cluster.receive]
    unfold Cluster.handle
    split_ifs with blank
    · refine ⟨shown, tracks.spend kept ?_⟩
      rintro _ rfl
      exact if_pos blank
    · cases eventType with
      | deregistered =>
        have named : trimSpace (trimSpace serverId) ≠ "" := by rwa [trimSpace_trimSpace]
        refine ⟨_, tracks.remove named orderly fun other sent => (kept other sent).imp_right ?_⟩
        rintro rfl notice same
        rw [Broadcast.notice, if_neg blank, if_pos rfl] at same
        exact (Option.some.inj same).symm
      | registered | statusChanged =>
        refine ⟨shown, tracks.read (fun _ => orderly) fun other sent => (kept other sent).imp_right ?_⟩
        rintro rfl
        refine ⟨rfl, fun notice same => ?_⟩
        rw [Broadcast.notice, if_neg blank, if_neg (by simp)] at same
        exact (Option.some.inj same).symm
  | classificationUpdated toolName riskLevel updatedBy =>
    refine ⟨shown, tracks.spend kept ?_⟩
    rintro _ rfl
    rfl
  | capabilitiesChanged serverId hash toolCount =>
    refine ⟨shown, tracks.spend kept ?_⟩
    rintro _ rfl
    rfl

theorem Cluster.Tracks.deliver (tracks : cluster.Tracks shown) (again : Bool) (orderly : message.Orderly cluster) :
    ∃ shown, (cluster.step (.deliver message again)).Tracks shown := by
  rw [Cluster.step]
  by_cases sent : message ∈ cluster.published
  · rw [if_neg (not_not.mpr sent)]
    cases again with
    | true => exact tracks.receive orderly fun other sent => .inl sent
    | false =>
      refine tracks.receive orderly fun other sent => ?_
      by_cases same : other = message
      · exact .inr same
      · exact .inl ((List.mem_erase_of_ne same).mpr sent)
  · rw [if_pos sent]
    exact ⟨shown, tracks⟩

theorem Cluster.Tracks.removeOwn (tracks : cluster.Tracks shown) (removable : cluster.Removable serverId) :
    ∃ shown, (cluster.step (.remove serverId)).Tracks shown := by
  rw [Cluster.step]
  by_cases blank : trimSpace serverId = ""
  · have idle : cluster.index.remove serverId = cluster.index := if_pos blank
    rw [idle]
    exact ⟨shown, tracks⟩
  · exact ⟨_, tracks.remove blank removable fun message sent => .inl sent⟩

theorem Cluster.step_tracks {cluster : Cluster} (tracked : ∃ shown, cluster.Tracks shown) (step : Step)
    (orderly : step.Orderly cluster) : ∃ shown, (cluster.step step).Tracks shown := by
  obtain ⟨shown, tracks⟩ := tracked
  cases step with
  | register gateway peer caller request context => exact ⟨shown, tracks.register orderly⟩
  | heartbeat gateway peer caller id request context => exact ⟨shown, tracks.heartbeat orderly⟩
  | markStale server now => exact ⟨shown, tracks.mark (.inl rfl) orderly now⟩
  | markExpired server now => exact ⟨shown, tracks.mark (.inr rfl) orderly now⟩
  | deregister gateway peer caller id => exact ⟨shown, tracks.deregister orderly⟩
  | deliver message again => exact tracks.deliver again orderly
  | read serverId withdraws =>
    exact ⟨shown, tracks.read orderly fun message sent => .inl sent⟩
  | remove serverId => exact tracks.removeOwn orderly
  | apply position => exact tracks.apply orderly

end

structure Cluster.Quiescent (cluster : Cluster) : Prop where
  silent : ∀ eventType serverId, .registryUpdated eventType serverId ∉ cluster.published
  idle : cluster.outstanding = []

/-- The receiving gateway's index answers every lookup as a Rebuild of the table would, up to the order of
servers and the heartbeat times its copies carry. -/
structure Cluster.Converged (cluster : Cluster) : Prop where
  tools : ∀ name, ((cluster.index.lookupTool name).map ServerRecord.withoutTimes).Perm
    (((CapabilityIndex.rebuild cluster.table.rows).lookupTool name).map ServerRecord.withoutTimes)
  resources : ∀ uri, ((cluster.index.lookupResource uri).map ServerRecord.withoutTimes).Perm
    (((CapabilityIndex.rebuild cluster.table.rows).lookupResource uri).map ServerRecord.withoutTimes)

theorem ServerRecord.withoutTimes_faithful : CapabilityIndex.Faithful ServerRecord.withoutTimes :=
  ⟨fun _ => rfl, fun _ => rfl⟩

theorem Cluster.rebuild_reflects (cluster : Cluster) (shown : String → Option ServerRecord) :
    (CapabilityIndex.rebuild cluster.table.rows).Reflects fun server =>
      (cluster.replica shown).shows server.id = some server := by
  refine (CapabilityIndex.rebuild_reflects _ cluster.table.primaryKey).congr_listed fun server listed => ?_
  constructor
  · rintro ⟨mem, routable⟩
    rw [Cluster.shows_of_mem shown mem, ServerRecord.filing_eq_some_iff]
    exact ⟨rfl, routable, listed⟩
  · intro shows
    rw [Replica.shows, Option.join_eq_some_iff] at shows
    obtain ⟨row, found, files⟩ := Option.map_eq_some_iff.mp shows
    obtain ⟨mem, _⟩ := (cluster.table.entry_eq_some_iff server.id row).mp found
    obtain ⟨rfl, routable, _⟩ := (ServerRecord.filing_eq_some_iff row server).mp files
    exact ⟨mem, routable⟩

theorem seen_of_agree {left right : String → Option ServerRecord}
    (agree : ∀ key, (left key).map ServerRecord.withoutTimes = (right key).map ServerRecord.withoutTimes)
    {seen : ServerRecord} (held : ∃ server, left server.id = some server ∧ server.withoutTimes = seen) :
    ∃ server, right server.id = some server ∧ server.withoutTimes = seen := by
  obtain ⟨server, found, rfl⟩ := held
  have same := agree server.id
  rw [found, Option.map_some, eq_comm, Option.map_eq_some_iff] at same
  obtain ⟨other, shows, view⟩ := same
  have id : other.withoutTimes.id = server.withoutTimes.id := by rw [view]
  rw [ServerRecord.withoutTimes_faithful.id, ServerRecord.withoutTimes_faithful.id] at id
  exact ⟨other, by rw [id, shows], view⟩

theorem Cluster.Tracks.converged {cluster : Cluster} {shown : String → Option ServerRecord} (tracks : cluster.Tracks shown)
    (quiescent : cluster.Quiescent) : cluster.Converged := by
  have silent : (cluster.replica shown).notices = ∅ := by
    refine Set.eq_empty_of_forall_notMem ?_
    rintro notice ⟨message, sent, same⟩
    cases message with
    | registryUpdated eventType serverId => exact quiescent.silent eventType serverId sent
    | classificationUpdated toolName riskLevel updatedBy => cases same
    | capabilitiesChanged serverId hash toolCount => cases same
  have idle : (cluster.replica shown).fetches = [] := congrArg (List.map IndexUpdate.fetch) quiescent.idle
  have agree := tracks.sound.converged silent idle
  have iff : ∀ seen, (∃ server, shown server.id = some server ∧ server.withoutTimes = seen) ↔
      ∃ server, (cluster.replica shown).shows server.id = some server ∧ server.withoutTimes = seen :=
    fun seen => ⟨seen_of_agree agree, seen_of_agree fun key => (agree key).symm⟩
  have rebuilt := cluster.rebuild_reflects shown
  exact ⟨tracks.filed.lookupTool_view rebuilt ServerRecord.withoutTimes_faithful iff,
    tracks.filed.lookupResource_view rebuilt ServerRecord.withoutTimes_faithful iff⟩

theorem Cluster.tracks_rebuilt {cluster : Cluster} (rebuilt : cluster.index = .rebuild cluster.table.rows)
    (idle : cluster.outstanding = []) : ∃ shown, cluster.Tracks shown := by
  refine ⟨(cluster.replica fun _ => none).shows, ?_, ?_, ?_⟩
  · rw [rebuilt]
    exact cluster.rebuild_reflects _
  · simp [idle]
  · intro key
    refine .inr ?_
    have settled : (cluster.replica (cluster.replica fun _ => none).shows).fetches = [] :=
      congrArg (List.map IndexUpdate.fetch) idle
    rw [Replica.settled, settled]
    rfl

/-- In a run whose steps are all orderly, the receiving gateway has converged after every step that leaves
no registry event and no read unfinished. -/
theorem quiescent_cluster_converged (start : Cluster) (steps : List Step)
    (rebuilt : start.index = .rebuild start.table.rows) (idle : start.outstanding = [])
    (orderly : Along Cluster.step (fun cluster step => step.Orderly cluster) start steps) :
    Along Cluster.step (fun cluster step => (cluster.step step).Quiescent → (cluster.step step).Converged) start steps := by
  have kept : ∀ cluster step, (∃ shown, Cluster.Tracks cluster shown) → step.Orderly cluster →
      ∃ shown, (cluster.step step).Tracks shown := fun cluster step tracked => Cluster.step_tracks tracked step
  refine (orderly.invariant (Cluster.tracks_rebuilt rebuilt idle) kept).mono fun cluster step held quiescent => ?_
  obtain ⟨shown, tracks⟩ := kept cluster step held.1 held.2
  exact tracks.converged quiescent

structure Cluster.Diverges (start : Cluster) (steps : List Step) : Prop where
  rebuilt : start.index = .rebuild start.table.rows
  idle : start.outstanding = []
  quiescent : (run Cluster.step start steps).Quiescent
  stale : ¬ (run Cluster.step start steps).Converged

theorem Cluster.diverges_of_length {start : Cluster} {steps : List Step} (name : String)
    (rebuilt : start.index = .rebuild start.table.rows) (idle : start.outstanding = [])
    (handled : (run Cluster.step start steps).published = [] ∧ (run Cluster.step start steps).outstanding = [] ∧
      ((run Cluster.step start steps).index.lookupTool name).length ≠
        ((CapabilityIndex.rebuild (run Cluster.step start steps).table.rows).lookupTool name).length) :
    start.Diverges steps := by
  obtain ⟨sent, outstanding, length⟩ := handled
  refine ⟨rebuilt, idle, ⟨by simp [sent], outstanding⟩, fun converged => length ?_⟩
  have perm := (converged.tools name).length_eq
  rwa [List.length_map, List.length_map] at perm

namespace Sample

def row : ServerRecord :=
  insertedRow (service.newRecord caller.id (request ["list_pods"]) context) rowId (100 * second)

def cluster : Cluster :=
  ⟨⟨[row], by decide +kernel, by decide +kernel, by decide +kernel, by decide +kernel⟩, none, [], .rebuild [row], []⟩

def register (tools : List String) : Step := .register service .new (some caller) (request tools) context

def deliver (eventType : RegistrationEventType) (id : String) : Step := .deliver (.registryUpdated eventType id) false

end Sample

open Sample

theorem leaving_backend_converged :
    Along Cluster.step (fun cluster step => (cluster.step step).Quiescent → (cluster.step step).Converged) cluster
      [register ["get_pod"], deliver .registered rowId, .apply 0,
        .deregister service .new (some caller) rowId, deliver .deregistered rowId] := by
  apply quiescent_cluster_converged
  · rfl
  · rfl
  · refine ⟨⟨rfl, ?_⟩, ?_, ?_, rfl, ?_, trivial⟩
    · intro identity same absent
      cases same
      exact absurd rfl (absent row (List.mem_singleton.mpr rfl))
    · dsimp only [deliver, Step.Orderly, Broadcast.Orderly, Cluster.Spelled]
      decide +kernel
    · intro update found
      have only : ∀ update ∈ ((cluster.step (register ["get_pod"])).step
          (deliver .registered rowId)).outstanding[0]?, update.withdraws = true := by decide +kernel
      refine ⟨by simp, fun adds => ?_⟩
      rw [only update found] at adds
      cases adds
    · dsimp only [deliver, Step.Orderly, Broadcast.Orderly, Cluster.Removable]
      decide +kernel

theorem index_stays_stale : cluster.Diverges [.markStale row (200 * second)] ∧
    Cluster.Diverges ⟨.empty, none, [], .new, []⟩ [register ["list_pods"], deliver .registered gatewayId] ∧
    cluster.Diverges [register ["get_pod"], deliver .registered rowId, register ["list_pods", "get_pod"],
        deliver .registered rowId, .apply 1, .apply 0] := by
  refine ⟨?_, ?_, ?_⟩
  · exact Cluster.diverges_of_length "list_pods" rfl rfl (by decide +kernel)
  · exact Cluster.diverges_of_length "list_pods" rfl rfl (by decide +kernel)
  · exact Cluster.diverges_of_length "list_pods" rfl rfl (by decide +kernel)

end Registration

end McpGateway
