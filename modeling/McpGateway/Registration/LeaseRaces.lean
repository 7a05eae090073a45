import McpGateway.Registration.StatusRaces

namespace McpGateway.Registration

open Shared Store

structure Lease where
  spiffeId : String
  epoch : Int
  deriving DecidableEq

def Process.lease : Process → Option Lease
  | .register call (.finished (.ok reply)) => some ⟨callerId call.caller, reply.leaseEpoch⟩
  | _ => none

/-- The next write of a process goes over the lease that it read: a registration advances the stored epoch, and a
refresh writes back one that is not below it. -/
def Process.Renews (row : ServerRecord) : Process → Prop
  | .register _ (.update _ old) =>
    parseUuid old.id = some row.id → row.leaseEpoch ≤ old.leaseEpoch ∧ old.leaseEpoch < 2 ^ 63 - 1
  | .heartbeat _ (.update record _ _ _) => parseUuid record.id = some row.id → row.leaseEpoch ≤ record.leaseEpoch
  | .refresh _ (.update record _) => parseUuid record.id = some row.id → row.leaseEpoch ≤ record.leaseEpoch
  | _ => True

instance (row : ServerRecord) : (proc : Process) → Decidable (proc.Renews row)
  | .register _ (.update _ _) => inferInstanceAs (Decidable (_ → _))
  | .heartbeat _ (.update _ _ _ _) => inferInstanceAs (Decidable (_ → _))
  | .refresh _ (.update _ _) => inferInstanceAs (Decidable (_ → _))
  | .register _ .getBySPIFFEID => isTrue trivial
  | .register _ (.create _) => isTrue trivial
  | .register _ (.finished _) => isTrue trivial
  | .heartbeat _ .get => isTrue trivial
  | .heartbeat _ (.updateStatus _ _ _ _) => isTrue trivial
  | .heartbeat _ (.updateHeartbeat _ _ _) => isTrue trivial
  | .heartbeat _ (.refreshServer _) => isTrue trivial
  | .heartbeat _ (.finished _) => isTrue trivial
  | .refresh _ .get => isTrue trivial
  | .refresh _ .refreshServer => isTrue trivial
  | .refresh _ (.finished _) => isTrue trivial
  | .sweep _ => isTrue trivial

def Renews (pool : Pool Clocked Process) (turn : Turn Surroundings) : Prop :=
  ∀ proc ∈ pool.processes[turn.position]?, ∀ row ∈ pool.memory.table.rows, proc.Renews row

instance : (pool : Pool Clocked Process) → (turn : Turn Surroundings) → Decidable (Renews pool turn) :=
  fun _ _ => inferInstanceAs (Decidable (∀ proc ∈ (_ : Option Process), _))

theorem lt_nextLeaseEpoch {epoch : Int} (below : epoch < 2 ^ 63 - 1) : epoch < nextLeaseEpoch epoch := by
  unfold nextLeaseEpoch
  split_ifs with unset
  · omega
  · rw [Int.bmod_eq_of_le (by omega) (by omega)]
    omega

theorem le_maxInt64 (value minimum : Int) : value ≤ maxInt64 value minimum := by
  unfold maxInt64
  split_ifs <;> omega

section

variable {service : Service} {table : ServerTable} {now : Time} {proc : Process}

theorem Rewrites.leaseEpoch_le {row written : ServerRecord} (rewrites : Rewrites service now proc row written)
    (renews : proc.Renews row) : row.leaseEpoch ≤ written.leaseEpoch := by
  cases rewrites with
  | resumed => exact le_rfl
  | beaten => exact le_rfl
  | refreshed _ record _ _ _ _ named =>
    have kept : row.leaseEpoch ≤ record.leaseEpoch := renews named
    simpa using kept.trans (le_maxInt64 _ 1)
  | pushed _ record _ _ named =>
    have kept : row.leaseEpoch ≤ record.leaseEpoch := renews named
    simpa using kept.trans (le_maxInt64 _ 1)
  | renewed call context old _ named =>
    obtain ⟨kept, below⟩ : row.leaseEpoch ≤ old.leaseEpoch ∧ old.leaseEpoch < 2 ^ 63 - 1 := renews named
    calc row.leaseEpoch
      _ ≤ old.leaseEpoch := kept
      _ ≤ nextLeaseEpoch old.leaseEpoch := (lt_nextLeaseEpoch below).le
      _ ≤ maxInt64 (nextLeaseEpoch old.leaseEpoch) 1 := le_maxInt64 _ 1
  | staled => exact le_rfl
  | expired => exact le_rfl

inductive Granted (service : Service) (table next : ServerTable) (now : Time) : Process → Lease → Prop where
  | renewed (call : RegisterCall) (context : RegisterContext) (old : ServerRecord) :
      Granted service table next now (.register call (.update context old))
        ⟨callerId call.caller, nextLeaseEpoch old.leaseEpoch⟩
  | created (call : RegisterCall) (context : RegisterContext)
      (rows : next.rows = table.rows ++
        [insertedRow (service.newRecord (callerId call.caller) call.request context) context.assigned now]) :
      Granted service table next now (.register call (.create context)) ⟨callerId call.caller, 1⟩

theorem Service.advance_lease {around : Surroundings} {shared : Clocked} {lease : Lease}
    (mem : lease ∈ (service.advance around shared proc).2.lease) :
    lease ∈ proc.lease ∨ Granted service shared.table (service.advance around shared proc).1.table
      (around.now shared) proc lease := by
  cases proc with
  | register call stage =>
    rw [Service.advance_register] at mem ⊢
    cases stage with
    | getBySPIFFEID =>
      simp only [Service.advanceRegister] at mem
      split at mem
      · cases mem
      · split at mem <;> cases mem
    | update context old =>
      simp only [Service.advanceRegister] at mem
      split at mem
      · cases mem
      · cases mem
        exact .inr (.renewed call context old)
    | create context =>
      cases created : shared.table.create (service.newRecord (callerId call.caller) call.request context)
          context.assigned (around.now shared) with
      | error cause =>
        simp only [Service.advanceRegister, created] at mem
        cases mem
      | ok after =>
        simp only [Service.advanceRegister, created] at mem ⊢
        cases mem
        exact .inr (.created call context (ServerTable.create_ok created))
    | finished result => exact .inl mem
  | heartbeat => cases mem
  | refresh => cases mem
  | sweep => cases mem

def Lease.Stored (table : ServerTable) (lease : Lease) : Prop :=
  ∃ row ∈ table.rows, row.spiffeId = lease.spiffeId ∧ lease.epoch ≤ row.leaseEpoch

theorem Lease.Stored.later {lease : Lease} {next : ServerTable} (stored : lease.Stored table)
    (stores : Stores service table now proc next) (anchored : proc.Anchored table)
    (renews : ∀ row ∈ table.rows, proc.Renews row) : lease.Stored next := by
  obtain ⟨row, held, own, carried⟩ := stored
  obtain ⟨later, present, became⟩ := stores.survives held
  refine ⟨later, present, ?_⟩
  rcases became with rfl | rewrites
  · exact ⟨own, carried⟩
  · exact ⟨(rewrites.spiffeId anchored held).trans own, carried.trans (rewrites.leaseEpoch_le (renews row held))⟩

section

variable {around : Surroundings} {shared : Clocked} {lease : Lease}

section

variable (granted : Granted service shared.table (service.advance around shared proc).1.table (around.now shared) proc lease)

include granted

theorem Granted.stored (anchored : proc.Anchored shared.table) :
    lease.Stored (service.advance around shared proc).1.table := by
  cases granted with
  | renewed call context old =>
    obtain ⟨row, held, same, _⟩ := (anchored.snapshot old rfl).row
    have named : parseUuid old.id = some row.id := same ▸ shared.table.canonicalIds row held
    refine ⟨_, Service.advance_writes anchored held (.renewed call context old row named), ?_⟩
    exact ⟨rfl, le_maxInt64 _ 1⟩
  | created call context rows =>
    refine ⟨_, by rw [rows]; exact List.mem_append_right _ (List.mem_singleton.mpr rfl), ?_⟩
    exact ⟨rfl, le_maxInt64 _ 1⟩

theorem Granted.fresh (anchored : proc.Anchored shared.table) (renews : ∀ row ∈ shared.table.rows, proc.Renews row) :
    ¬ lease.Stored shared.table := by
  rintro ⟨row, held, own, carried⟩
  cases granted with
  | renewed call context old =>
    obtain ⟨other, present, same, owner⟩ := (anchored.snapshot old rfl).row
    have named : parseUuid old.id = some other.id := same ▸ shared.table.canonicalIds other present
    have mine : old.spiffeId = callerId call.caller := anchored.owns
    have equal : row = other := shared.table.spiffeId_unique held present (own.trans (owner.trans mine).symm)
    obtain ⟨kept, below⟩ : other.leaseEpoch ≤ old.leaseEpoch ∧ old.leaseEpoch < 2 ^ 63 - 1 :=
      renews other present named
    have advanced := lt_nextLeaseEpoch below
    rw [equal] at carried
    exact absurd (carried.trans kept) (not_le_of_gt advanced)
  | created call context rows => exact ServerTable.spiffeId_ne_appended rows held own

end

end

def Process.Distinct (left right : Process) : Prop :=
  ∀ lease ∈ left.lease, lease ∉ right.lease

structure Leases (pool : Pool Clocked Process) : Prop where
  anchors : Anchors pool
  stored : ∀ proc ∈ pool.processes, ∀ lease ∈ proc.lease, lease.Stored pool.memory.table
  distinct : pool.Apart Process.Distinct

theorem leases_of_starting {pool : Pool Clocked Process}
    (starts : ∀ proc ∈ pool.processes, proc.starting = true) : Leases pool := by
  have unanswered : ∀ proc ∈ pool.processes, proc.lease = none := by
    intro proc mem
    have start := starts proc mem
    unfold Process.starting at start
    split at start <;> first | rfl | cases start
  refine ⟨anchors_of_starting starts, ?_, ?_⟩
  · intro proc mem lease held
    rw [unanswered proc mem] at held
    cases held
  · intro i j left right _ found _ lease held
    rw [unanswered left (List.mem_of_getElem? found)] at held
    cases held

theorem Service.turn_leases (service : Service) {pool : Pool Clocked Process} {turn : Turn Surroundings}
    (leases : Leases pool) (renews : Renews pool turn) : Leases (pool.turn service.advance turn) := by
  have stores (proc : Process) := service.advance_stores turn.input pool.memory proc
  have anchored (proc : Process) (moves : proc ∈ pool.processes[turn.position]?) :=
    leases.anchors proc (List.mem_of_getElem? moves)
  refine ⟨service.turn_anchors leases.anchors turn, ?_, ?_⟩
  · refine Pool.turn_asserted
      (fun (shared : Clocked) (proc : Process) => ∀ lease ∈ proc.lease, lease.Stored shared.table) leases.stored ?_ ?_
    · intro proc moves stored lease mem
      rcases Service.advance_lease mem with kept | granted
      · exact (stored lease kept).later (stores proc) (anchored proc moves) (renews proc moves)
      · exact granted.stored (anchored proc moves)
    · intro proc moves _ other _ stored lease mem
      exact (stored lease mem).later (stores proc) (anchored proc moves) (renews proc moves)
  · refine Pool.turn_apart (fun left right apart lease first second => apart lease second first) leases.distinct ?_
    intro proc moves other present distinct lease mem again
    rcases Service.advance_lease mem with kept | granted
    · exact distinct lease kept again
    · exact granted.fresh (anchored proc moves) (renews proc moves) (leases.stored other present lease again)

def Service.KeepsEpochs (service : Service) (pool : Pool Clocked Process) (turn : Turn Surroundings) : Prop :=
  ∀ row ∈ pool.memory.table.rows, ∀ later ∈ (pool.turn service.advance turn).memory.table.rows,
    row.id = later.id → row.leaseEpoch ≤ later.leaseEpoch

theorem Service.keepsEpochs_of_renews (service : Service) {pool : Pool Clocked Process} {turn : Turn Surroundings}
    (renews : Renews pool turn) : service.KeepsEpochs pool turn := by
  intro row held later present same
  cases moving : pool.processes[turn.position]? with
  | none =>
    rw [Pool.turn_none moving] at present
    rw [pool.memory.table.row_unique held present same]
  | some proc =>
    rw [Pool.turn_some moving] at present
    rcases (service.advance_stores turn.input pool.memory proc).same_id held present same with rfl | rewrites
    · exact le_rfl
    · exact rewrites.leaseEpoch_le (renews proc moving row held)

end

/-- However the store calls of registrations, heartbeats and refreshes take turns, the stored epochs never go down and
no two registrations of one caller answer with the same epoch, as long as each write goes over the lease it read. -/
theorem lease_epochs_run (service : Service) (pool : Pool Clocked Process) (turns : List (Turn Surroundings))
    (starts : ∀ proc ∈ pool.processes, proc.starting = true)
    (renewed : Along (Pool.turn service.advance) Renews pool turns) :
    Along (Pool.turn service.advance) service.KeepsEpochs pool turns ∧
      (run (Pool.turn service.advance) pool turns).Apart Process.Distinct := by
  refine ⟨renewed.mono fun pool turn renews => service.keepsEpochs_of_renews renews, ?_⟩
  have leases := renewed.run_invariant (leases_of_starting starts)
    fun pool turn leases renews => service.turn_leases leases renews
  exact leases.distinct

namespace Sample

def registering : Process := .register ⟨some caller, request ["list_pods"]⟩ .getBySPIFFEID

def pushing : Process := .refresh rowId .get

def listing (position : Nat) : Turn Surroundings := ⟨position, ⟨0, some ["list_pods"], gatewayId, rowId⟩⟩

def renewing : Pool Clocked Process := ⟨⟨backendTable .active, 200 * second⟩, [registering, registering, pushing]⟩

end Sample

open Sample

theorem successive_leases_kept : Along (Pool.turn refreshing.advance) refreshing.KeepsEpochs renewing
        ([0, 0, 2, 2, 1, 1, 2].map listing) ∧
      (run (Pool.turn refreshing.advance) renewing ([0, 0, 2, 2, 1, 1, 2].map listing)).Apart Process.Distinct :=
  lease_epochs_run refreshing _ _ (by decide) (by decide +kernel)

theorem leases_collide : ((run (Pool.turn refreshing.advance) renewing ([0, 1, 0, 1].map listing)).processes.map
        Process.lease = [some ⟨caller.id, 2⟩, some ⟨caller.id, 2⟩, none]) ∧
      (¬ (run (Pool.turn refreshing.advance) renewing ([0, 1, 0, 1].map listing)).Apart Process.Distinct) ∧
      ¬ Along (Pool.turn refreshing.advance) refreshing.KeepsEpochs renewing
        ([2, 0, 0].map listing ++ [listing 2]) := by
  have answered : (run (Pool.turn refreshing.advance) renewing ([0, 1, 0, 1].map listing)).processes.map Process.lease =
        [some ⟨caller.id, 2⟩, some ⟨caller.id, 2⟩, none] := by decide +kernel
  have lowered : ∃ row ∈ (run (Pool.turn refreshing.advance) renewing ([2, 0, 0].map listing)).memory.table.rows,
      ∃ later ∈ (Pool.turn refreshing.advance (run (Pool.turn refreshing.advance) renewing
        ([2, 0, 0].map listing)) (listing 2)).memory.table.rows,
        row.id = later.id ∧ later.leaseEpoch < row.leaseEpoch := by decide +kernel
  refine ⟨answered, fun apart => ?_, fun along => ?_⟩
  · generalize run (Pool.turn refreshing.advance) renewing ([0, 1, 0, 1].map listing) = final
      at answered apart
    have held (i : Nat) (listed : (final.processes.map Process.lease)[i]? = some (some ⟨caller.id, 2⟩)) :
        ∃ proc, final.processes[i]? = some proc ∧ proc.lease = some ⟨caller.id, 2⟩ := by
      simpa using listed
    obtain ⟨left, first, granted⟩ := held 0 (by simp [answered])
    obtain ⟨right, second, again⟩ := held 1 (by simp [answered])
    exact apart 0 1 left right (by decide) first second _ granted again
  · have kept := along.last
    obtain ⟨row, held, later, present, same, below⟩ := lowered
    exact absurd (kept row held later present same) (not_le_of_gt below)

end McpGateway.Registration
