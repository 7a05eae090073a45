import McpGateway.Registration.Operations

namespace McpGateway.Registration

open Shared Store

structure WatchedPod where
  pod : Pod
  life : String → Time

def Report.mark (now : Time) (life : String → Time) : Report → String → Time
  | .alive spiffeId => Function.update life spiffeId now
  | .silent => life
  | .acknowledged _ => life

def Service.watch (service : Service) (watched : WatchedPod) (timed : Timed) : WatchedPod :=
  ⟨service.operate watched.pod timed, (service.report watched.pod timed).mark (timed.now watched.pod) watched.life⟩

def Living (interval now life : Int) (row : ServerRecord) : Prop :=
  (row.status = .active → now - interval ≤ life) ∧
    (row.status = .active ∨ row.status = .stale → now - 3 * interval ≤ life)

def Service.Bounded (service : Service) (watched : WatchedPod) : Prop :=
  ∀ row ∈ watched.pod.registry.table.rows,
    Living (sweepInterval service.config) watched.pod.clock (watched.life row.spiffeId) row

instance (interval now life : Int) (row : ServerRecord) : Decidable (Living interval now life row) :=
  inferInstanceAs (Decidable (_ ∧ _))

instance (service : Service) (watched : WatchedPod) : Decidable (service.Bounded watched) :=
  inferInstanceAs (Decidable (∀ row ∈ watched.pod.registry.table.rows, _))

/-- What a sweep can rely on: a row without a heartbeat is never listed, and the second list goes back nine
intervals. -/
def Timely (interval now life : Int) (row : ServerRecord) : Prop :=
  (row.lastHeartbeat = none → row.status = .active → now - interval ≤ life) ∧
    ∀ beat : Int, beat ∈ row.lastHeartbeat → row.status = .active ∨ row.status = .stale →
      now - 9 * interval ≤ beat → now - 3 * interval ≤ life

instance (interval now life : Int) (row : ServerRecord) : Decidable (Timely interval now life row) :=
  inferInstanceAs (Decidable (_ ∧ _))

structure Sound (clock life : Int) (row : ServerRecord) : Prop where
  beat : ∀ beat : Int, row.lastHeartbeat = some beat → beat ≤ life ∧ beat ≤ clock
  stale : row.status = .stale → row.lastHeartbeat ≠ none

theorem sweptRow_living_iff {interval clock life : Int} (now : Int) {row : ServerRecord} (pos : 0 < interval)
    (sound : Sound clock life row) :
    Living interval now life (sweptRow interval now row) ↔ Timely interval now life row := by
  cases beat : row.lastHeartbeat with
  | none =>
    have listed : row.status ≠ .stale := fun stale => sound.stale stale beat
    have untouched : sweptRow interval now row = row := by simp [sweptRow, lapsed, overdue_none beat]
    simp only [untouched, Living, Timely, beat, listed, or_false, true_implies, Option.not_mem_none, false_implies,
      implies_true, and_true]
    constructor
    · exact And.left
    · intro timely
      refine ⟨timely, fun active => ?_⟩
      have recent := timely active
      omega
  | some time =>
    have before := (sound.beat time beat).1
    simp only [Living, Timely, sweptRow_status, lapsed, overdue_some beat, beat, Option.mem_some_iff, forall_eq']
    cases row.status <;> simp <;> split_ifs <;> simp <;> omega

section

variable {clock life : Int} {row : ServerRecord}

theorem Sound.later (sound : Sound clock life row) {now sign : Int} (passed : clock ≤ now)
    (signs : sign = life ∨ sign = now) : Sound now sign row := by
  refine ⟨fun beat stored => ?_, sound.stale⟩
  have before := sound.beat beat stored
  rcases signs with rfl | rfl <;> omega

theorem Sound.congr (sound : Sound clock life row) {other : ServerRecord}
    (beat : other.lastHeartbeat = row.lastHeartbeat) (status : other.status = .stale → row.status = .stale) :
    Sound clock life other :=
  ⟨fun time stored => sound.beat time (beat ▸ stored), fun stale => beat ▸ sound.stale (status stale)⟩

theorem sweptRow_sound {interval now : Int} (sound : Sound clock life row) :
    Sound clock life (sweptRow interval now row) := by
  refine ⟨fun beat stored => sound.beat beat (by simpa using stored), fun stale unbeaten => ?_⟩
  rw [sweptRow_lastHeartbeat] at unbeaten
  rw [sweptRow_status, lapsed, overdue_none unbeaten, overdue_none unbeaten] at stale
  exact sound.stale (by simpa using stale) unbeaten

end

def WatchedPod.Sound (watched : WatchedPod) : Prop :=
  ∀ row ∈ watched.pod.registry.table.rows, Registration.Sound watched.pod.clock (watched.life row.spiffeId) row

theorem Report.mark_cases (report : Report) (now : Time) (life : String → Time) (spiffeId : String) :
    report.mark now life spiffeId = life spiffeId ∨ report.mark now life spiffeId = now := by
  cases report with
  | silent => exact .inl rfl
  | acknowledged => exact .inl rfl
  | alive other =>
    by_cases same : spiffeId = other
    · exact .inr (by simp [Report.mark, same])
    · exact .inl (by simp [Report.mark, same])

theorem RowEffect.sound {service : Service} {table : ServerTable} {clock now : Time} {operation : Operation}
    {report : Report} {row : ServerRecord} {life : String → Time}
    (effect : RowEffect service table now operation report row) (passed : clock ≤ now)
    (sound : ∀ old ∈ table.rows, Sound clock (life old.spiffeId) old) :
    Sound now (report.mark now life row.spiffeId) row := by
  have carried (old : ServerRecord) (held : old ∈ table.rows) : Sound now (report.mark now life old.spiffeId) old :=
    (sound old held).later passed (report.mark_cases now life old.spiffeId)
  cases effect with
  | kept _ _ _ held => exact carried row held
  | registered caller request generated assigned record _ written hash =>
    refine ⟨fun beat stored => ?_, fun stale => ?_⟩
    · rw [written.unbeaten] at stored
      cases stored
    · rw [written.active] at stale
      cases stale
  | beaten caller id request toolNames record held _ own =>
    cases refreshed : service.refreshedTools request ⟨now, toolNames⟩ record with
    | none =>
      rw [Service.beatenRow_none refreshed]
      refine ⟨fun beat stored => ?_, fun stale => ?_⟩
      · cases stored
        have marked : (Report.alive caller.id).mark now life record.spiffeId = now := by simp [Report.mark, own]
        exact ⟨le_of_eq marked.symm, le_rfl⟩
      · cases stale
    | some listed =>
      rw [Service.beatenRow_some refreshed, updatedRow_spiffeId, refreshedRecord_spiffeId]
      exact (carried record held).congr (by simp) (by simp)
  | refreshed _ _ _ record held =>
    rw [updatedRow_spiffeId, refreshedRecord_spiffeId]
    exact (carried record held).congr (by simp) (by simp)
  | acknowledged _ record held => exact (carried record held).congr rfl fun stale => stale
  | swept old held =>
    rw [sweptRow_spiffeId]
    exact sweptRow_sound (carried old held)

theorem Service.watch_sound (service : Service) {watched : WatchedPod} (sound : watched.Sound) (timed : Timed) :
    (service.watch watched timed).Sound := by
  intro row mem
  exact ((service.operate_effect watched.pod timed).row mem).sound (timed.clock_le watched.pod) sound

def WatchedPod.Timely (watched : WatchedPod) (interval now : Int) : Prop :=
  ∀ row ∈ watched.pod.registry.table.rows, Registration.Timely interval now (watched.life row.spiffeId) row

instance (watched : WatchedPod) (interval now : Int) : Decidable (watched.Timely interval now) :=
  inferInstanceAs (Decidable (∀ row ∈ watched.pod.registry.table.rows, _))

theorem Service.swept_bounded_iff (service : Service) {watched : WatchedPod} (sound : watched.Sound) {timed : Timed}
    (sweeps : timed.operation = .sweep) : service.Bounded (service.watch watched timed) ↔
      watched.Timely (sweepInterval service.config) (timed.now watched.pod) := by
  have rows : (service.watch watched timed).pod.registry.table.rows = watched.pod.registry.table.rows.map
      (sweptRow (sweepInterval service.config) (timed.now watched.pod)) := by
    simp only [Service.watch, Service.operate, sweeps, Service.perform, sweep_rows]
  have life : (service.watch watched timed).life = watched.life := by
    simp only [Service.watch, Service.report, sweeps, Service.perform, Report.mark]
  rw [Service.Bounded, rows, life, List.forall_mem_map]
  refine forall₂_congr fun row mem => ?_
  rw [sweptRow_spiffeId]
  exact sweptRow_living_iff _ (sweepInterval_pos service.config) (sound row mem)

/-- From an empty store, every sweep of a run bounds the age of what it leaves active or stale exactly if it finds
no active record that never had a heartbeat and registered more than an interval ago, and no active or stale record
whose last sign is more than three intervals old while the stored heartbeat is at most nine. -/
theorem sweep_bounded_iff (service : Service) (start : WatchedPod) (operations : List Timed)
    (stored : start.pod.registry.table.rows = []) : Along service.watch (fun watched timed =>
        timed.operation = .sweep → service.Bounded (service.watch watched timed)) start operations ↔
      Along service.watch (fun watched timed => timed.operation = .sweep →
        watched.Timely (sweepInterval service.config) (timed.now watched.pod)) start operations := by
  have initial : start.Sound := by
    intro row mem
    rw [stored] at mem
    cases mem
  refine Along.congr_of_invariant initial (fun watched timed sound _ => service.watch_sound sound timed) ?_
  intro watched timed sound
  exact forall_congr' fun sweeps => service.swept_bounded_iff sound sweeps

namespace Sample

def unwatched : WatchedPod := ⟨⟨registry, 100 * second⟩, fun _ => 0⟩

end Sample

open Sample

theorem beating_backend_bounded : Along service.watch (fun watched timed =>
      timed.operation = .sweep → service.Bounded (service.watch watched timed)) unwatched
      [registers, beats, sweeps, beats, sweeps] := by
  have first : (run service.watch unwatched [registers, beats]).Timely
      (sweepInterval service.config) (210 * second) := by decide +kernel
  have second : (run service.watch unwatched [registers, beats, sweeps, beats]).Timely
      (sweepInterval service.config) (310 * second) := by decide +kernel
  refine (sweep_bounded_iff _ _ _ rfl).mpr ⟨?_, ?_, fun _ => first, ?_, fun _ => second, trivial⟩
  all_goals
    intro sweeps
    cases sweeps

theorem sweep_unbounded : ¬ Along service.watch (fun watched timed =>
      timed.operation = .sweep → service.Bounded (service.watch watched timed)) unwatched [registers, sweeps] ∧
    ¬ Along service.watch (fun watched timed =>
      timed.operation = .sweep → service.Bounded (service.watch watched timed)) unwatched
      [registers, beats, sweeps, sweeps] := by
  constructor
  · rintro ⟨_, bounded, _⟩
    exact absurd (bounded rfl) (by decide +kernel)
  · rintro ⟨_, _, _, bounded, _⟩
    exact absurd (bounded rfl) (by decide +kernel)

end McpGateway.Registration
