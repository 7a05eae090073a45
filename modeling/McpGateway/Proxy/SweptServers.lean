import McpGateway.Proxy.Endpoints
import McpGateway.Registration.Operations

namespace McpGateway.Proxy

open Shared Store Registration

structure Unreachable (index : CapabilityIndex) (id : String) : Prop where
  route : ∀ router : Router, router.index = index → RoutingStrategy.Chooses router.strategy →
    ∀ toolName server, router.select (trimSpace toolName) (router.resolve toolName) = .ok server → server.id ≠ id
  readResource : ∀ uri server, handleReadResource index uri = .ok server → server.id ≠ id
  virtualServer : ∀ gateway : Gateway, gateway.router.index = index →
    ∀ serverName server, gateway.virtualServer serverName = .ok server → server.id ≠ id

theorem holds_of_handleReadResource {index : CapabilityIndex} {uri : String} {server : ServerRecord}
    (read : handleReadResource index uri = .ok server) : index.Holds server := by
  have mem := (mem_handleReadResource index uri server).mp (by simp [read, Except.toOption])
  exact CapabilityIndex.holds_of_lookupResource (List.mem_of_mem_head? mem)

theorem Gateway.holds_of_virtualServer {gateway : Gateway} {serverName : String} {server : ServerRecord}
    (served : gateway.virtualServer serverName = .ok server) : gateway.router.index.Holds server := by
  have mem := (gateway.mem_virtualServer serverName server).mp (by simp [served, Except.toOption])
  exact CapabilityIndex.holds_of_lookupServer mem.2.1

theorem Unreachable.of_unheld {index : CapabilityIndex} {id : String}
    (unheld : ∀ server, index.Holds server → server.id ≠ id) : Unreachable index id where
  route := by
    rintro router rfl chooses toolName server chosen
    exact unheld server (Router.holds_of_select chooses chosen)
  readResource := fun uri server read => unheld server (holds_of_handleReadResource read)
  virtualServer := by
    rintro gateway rfl serverName server served
    exact unheld server (Gateway.holds_of_virtualServer served)

def Withdrawn (registry : Registry) : Prop :=
  ∀ row ∈ registry.table.rows, row.status = .stale ∨ row.status = .expired → Unreachable registry.index row.id

def ShowsActive (registry : Registry) : Prop :=
  ∀ server, registry.index.Holds server → ∀ row ∈ registry.table.rows, row.id = server.id → row.status = .active

theorem ShowsActive.withdrawn {registry : Registry} (shows : ShowsActive registry) : Withdrawn registry := by
  intro row mem idle
  apply Unreachable.of_unheld
  intro server held same
  have active := shows server held row mem same.symm
  rw [active] at idle
  simp at idle

/-- A sweep finds under no active row that is overdue an entry of the index, unless the row has lapsed as well. -/
def Clears (service : Service) (registry : Registry) (now : Time) : Operation → Prop
  | .sweep => ∀ row ∈ registry.table.rows, row.status = .active →
    ServerTable.overdue row (sweepInterval service.config) now = true →
      lapsed row (3 * sweepInterval service.config) now = true ∨ ∀ server, registry.index.Holds server → server.id ≠ row.id
  | _ => True

section

variable {service : Service} {registry : Registry} {now : Time}

theorem sweep_showsActive (shows : ShowsActive registry) (clears : Clears service registry now .sweep) :
    ShowsActive (service.perform registry now .sweep).1 := by
  intro server held row mem same
  obtain ⟨before, gone⟩ := sweep_holds held
  change row ∈ (sweep service.config registry.table registry.index now).table.rows at mem
  rw [sweep_rows, List.mem_map] at mem
  obtain ⟨old, present, rfl⟩ := mem
  obtain ⟨_, _, touched⟩ := sweptRow_touches (sweepInterval service.config) now old
  have sameId : old.id = server.id := by rwa [touched, statusRow_id] at same
  have active := shows server before old present sameId
  have unlapsed : ¬ lapsed old (3 * sweepInterval service.config) now = true :=
    fun ready => gone old present ready sameId.symm
  have fresh : ¬ ServerTable.overdue old (sweepInterval service.config) now = true := by
    intro late
    rcases clears old present active late with ready | unheld
    · exact unlapsed ready
    · exact unheld server before sameId.symm
  simp [sweptRow_status, unlapsed, fresh, active]

theorem rowEffect_active {table : ServerTable} {operation : Operation} {report : Report} {row : ServerRecord}
    (effect : RowEffect service table now operation report row) (unswept : operation ≠ .sweep)
    (active : ∀ old ∈ table.rows, old.id = row.id → old.status = .active) : row.status = .active := by
  cases effect with
  | kept _ _ _ held => exact active row held rfl
  | registered _ _ _ _ _ _ written => exact written.active
  | beaten caller id request toolNames record held =>
    cases refreshed : service.refreshedTools request ⟨now, toolNames⟩ record with
    | none => rw [Service.beatenRow_none refreshed]; rfl
    | some listed =>
      rw [Service.beatenRow_some refreshed, updatedRow_status, refreshedRecord_status]
      exact active record held (by simp)
  | refreshed _ _ _ record held =>
    rw [updatedRow_status, refreshedRecord_status]
    exact active record held (updatedRow_id _ _ _).symm
  | acknowledged _ record held => exact active record held rfl
  | swept => exact absurd rfl unswept

theorem perform_showsActive (shows : ShowsActive registry) {operation : Operation}
    (clears : Clears service registry now operation) : ShowsActive (service.perform registry now operation).1 := by
  by_cases swept : operation = .sweep
  · subst swept
    exact sweep_showsActive shows clears
  intro server held row mem same
  rcases service.perform_files registry now operation server held with before | ⟨stored, routable⟩
  · have effect := (service.perform_effect registry now operation).row mem
    exact rowEffect_active effect swept fun old present clash => shows server before old present (clash.trans same)
  · rw [ServerTable.row_unique _ mem stored same]
    exact server.isRoutable_iff.mp routable

end

/-- Starting from a rebuilt index, after every operation of a run whose sweeps leave no overdue server behind in the
index, no request ends at a server whose stored status is stale or expired. -/
theorem swept_servers_withdrawn (service : Service) (start : Pod) (operations : List Timed)
    (rebuilt : start.registry.index = .rebuild start.registry.table.rows)
    (clears : Along service.operate (fun pod timed =>
      Clears service pod.registry (timed.now pod) timed.operation) start operations) :
    Along service.operate (fun pod timed => Withdrawn (service.operate pod timed).registry) start operations := by
  have initial : ShowsActive start.registry := by
    intro server held row mem same
    rw [rebuilt] at held
    obtain ⟨stored, routable⟩ := (CapabilityIndex.rebuild_reflects _ start.registry.table.primaryKey).of_holds held
    rw [start.registry.table.row_unique mem stored same]
    exact server.isRoutable_iff.mp routable
  have step (pod : Pod) (timed : Timed) (shows : ShowsActive pod.registry)
      (allowed : Clears service pod.registry (timed.now pod) timed.operation) :
      ShowsActive (service.operate pod timed).registry := perform_showsActive shows allowed
  refine (clears.invariant initial step).mono fun pod timed held => ?_
  exact (step pod timed held.1 held.2).withdrawn

namespace Sample

open Registration.Sample (context beats sweeps registers rowId)

def stored : Registry :=
  (Registration.Sample.service.register Registration.Sample.registry (some Registration.Sample.caller)
    ⟨"mcp-k8s", "1.4.0", ⟨"10.0.3.7", 8443, "https"⟩, ⟨["list_pods"], ["k8s://pods"], []⟩⟩ context).2

def started : Pod := ⟨{ stored with index := .rebuild stored.table.rows }, 100 * second⟩

def missed : Pod := run Registration.Sample.service.operate started [beats, sweeps]

def serving (pod : Pod) : Gateway :=
  { gateway with router := ⟨pod.registry.index, roundRobin 0, none, none⟩, serverOrder := ["list_pods"] }

def sweepsLate : Timed := ⟨300 * 10 ^ 9, .sweep⟩

end Sample

open Sample

theorem expired_backend_withdrawn : Along Registration.Sample.service.operate
      (fun pod timed => Withdrawn (Registration.Sample.service.operate pod timed).registry) started
      [beats, sweepsLate, registers] := by
  have late : ∀ row ∈ (Registration.Sample.service.operate started beats).registry.table.rows,
      lapsed row (3 * sweepInterval Registration.Sample.service.config) (430 * second) = true := by decide +kernel
  refine swept_servers_withdrawn _ _ _ rfl ⟨trivial, fun row mem _ _ => .inl (late row mem), trivial, trivial⟩

theorem stale_backend_reached : (∃ row ∈ missed.registry.table.rows, row.id = rowId ∧ row.status = .stale) ∧
    ((serving missed).router.select "list_pods"
      ((serving missed).router.resolve "list_pods")).toOption.map ServerRecord.id = some rowId ∧
    (handleReadResource missed.registry.index "k8s://pods/web").toOption.map ServerRecord.id = some rowId ∧
    ((serving missed).virtualServer "mcp-k8s").toOption.map ServerRecord.id = some rowId ∧
    ¬ Along Registration.Sample.service.operate
      (fun pod timed => Withdrawn (Registration.Sample.service.operate pod timed).registry) started
      [beats, sweeps] := by
  have reached : (∃ row ∈ missed.registry.table.rows, row.id = rowId ∧ row.status = .stale) ∧
      ((serving missed).router.select "list_pods"
        ((serving missed).router.resolve "list_pods")).toOption.map ServerRecord.id =
          some rowId ∧
      (handleReadResource missed.registry.index "k8s://pods/web").toOption.map ServerRecord.id =
        some rowId ∧
      ((serving missed).virtualServer "mcp-k8s").toOption.map ServerRecord.id =
        some rowId := by decide +kernel
  obtain ⟨stale, chosen, read, found⟩ := reached
  refine ⟨stale, chosen, read, found, ?_⟩
  rintro ⟨_, withdrawn, _⟩
  obtain ⟨row, mem, named, idle⟩ := stale
  have unreachable := withdrawn row mem (.inl idle)
  cases served : handleReadResource missed.registry.index "k8s://pods/web" with
  | error error =>
    rw [served] at read
    cases read
  | ok server =>
    rw [served] at read
    exact unreachable.readResource _ _ served ((Option.some.inj read).trans named.symm)

end McpGateway.Proxy
