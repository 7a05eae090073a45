import McpGateway.Proxy.Router
import McpGateway.Registration.IndexedService

namespace McpGateway.Admin

open Shared Store Registration Proxy

structure RegistrationEvent where
  eventType : String
  serverId : String

def updateServerRateLimit (table : ServerTable) (id : String) (rateLimit rateBurst : Option Int) (now : Time) :
    Except StoreError (ServerTable × RegistrationEvent) :=
  match table.updateRateLimit id rateLimit rateBurst now with
  | .error cause => .error cause
  | .ok table => .ok (table, ⟨"server_rate_limit_updated", id⟩)

def deregisterServer (table : ServerTable) (id : String) : Except StoreError (ServerTable × RegistrationEvent) :=
  match table.delete id with
  | .error cause => .error cause
  | .ok table => .ok (table, ⟨"deregistered", id⟩)

-- RegistrationSubscriber.handle; an event type it does not know is logged and dropped.
def handle (table : ServerTable) (index : CapabilityIndex) (event : RegistrationEvent) : CapabilityIndex :=
  if trimSpace event.serverId = "" then index
  else if event.eventType = "registered" ∨ event.eventType = "status_changed" then
    refreshServer index table (trimSpace event.serverId)
  else if event.eventType = "deregistered" then index.remove (trimSpace event.serverId)
  else index

abbrev Broadcaster := RegistrationEvent → Bool

def noopBroadcaster : Broadcaster := fun _ => false

def connectedBroadcaster : Broadcaster := fun _ => true

inductive AdminChange where
  | updateRateLimit (id : String) (rateLimit rateBurst : Option Int)
  | deregister (id : String)

def AdminChange.apply (table : ServerTable) (now : Time) :
    AdminChange → Except StoreError (ServerTable × RegistrationEvent)
  | .updateRateLimit id rateLimit rateBurst => updateServerRateLimit table id rateLimit rateBurst now
  | .deregister id => deregisterServer table id

def Broadcaster.settle (broadcaster : Broadcaster) (table : ServerTable) (index : CapabilityIndex)
    (event : RegistrationEvent) : CapabilityIndex :=
  if broadcaster event then handle table index event else index

def AdminChange.Effective (index : CapabilityIndex) : AdminChange → Prop
  | .updateRateLimit id rateLimit rateBurst => ∀ server, index.Holds server → parseUuid id = some server.id →
    server.rateLimit = rateLimit ∧ server.rateBurst = rateBurst
  | .deregister id => ∀ server, index.Holds server → parseUuid id ≠ some server.id

/-- What has to be so before the change: the router's records already show it, or the event comes back and spells
the id as the index does. -/
def AdminChange.Reflected (broadcaster : Broadcaster) (index : CapabilityIndex) : AdminChange → Prop
  | .updateRateLimit id rateLimit rateBurst => ∀ server, index.Holds server → parseUuid id = some server.id →
    server.rateLimit = rateLimit ∧ server.rateBurst = rateBurst
  | .deregister id => ∀ server, index.Holds server → parseUuid id = some server.id →
    broadcaster ⟨"deregistered", id⟩ = true ∧ server.id = trimSpace id

section

variable {broadcaster : Broadcaster} {table next : ServerTable} {index : CapabilityIndex} {event : RegistrationEvent}
  {now : Time} {id : String}

theorem settle_rateLimit {rateLimit rateBurst : Option Int}
    (updated : updateServerRateLimit table id rateLimit rateBurst now = .ok (next, event)) :
    broadcaster.settle next index event = index := by
  unfold updateServerRateLimit at updated
  split at updated
  · cases updated
  · cases updated
    unfold Broadcaster.settle handle
    split_ifs <;> simp_all

theorem settle_deregister (deleted : deregisterServer table id = .ok (next, event)) (server : ServerRecord) :
    (broadcaster.settle next index event).Holds server ↔
      index.Holds server ∧ ¬ (broadcaster ⟨"deregistered", id⟩ = true ∧ trimSpace id ≠ "" ∧ server.id = trimSpace id) := by
  unfold deregisterServer at deleted
  split at deleted
  · cases deleted
  · cases deleted
    unfold Broadcaster.settle handle
    split_ifs <;> simp_all [CapabilityIndex.holds_remove_iff]

end

/-- A successful change shows in the records the router picks from exactly if they showed it before, or if it is a
deregistration whose event comes back with the id as the index spells it. -/
theorem admin_change_effective_iff (broadcaster : Broadcaster) (table next : ServerTable) (index : CapabilityIndex)
    (change : AdminChange) (now : Time) (event : RegistrationEvent)
    (applied : change.apply table now = .ok (next, event)) :
    change.Effective (broadcaster.settle next index event) ↔ change.Reflected broadcaster index := by
  cases change with
  | updateRateLimit id rateLimit rateBurst =>
    rw [AdminChange.Effective, AdminChange.Reflected, settle_rateLimit applied]
  | deregister id =>
    rw [AdminChange.Effective, AdminChange.Reflected]
    refine forall_congr' fun server => ?_
    rw [settle_deregister applied]
    constructor
    · intro gone held spelled
      by_contra kept
      exact gone ⟨held, fun removed => kept ⟨removed.1, removed.2.2⟩⟩ spelled
    · rintro reflected ⟨held, kept⟩ spelled
      obtain ⟨carried, same⟩ := reflected held spelled
      exact kept ⟨carried, trimSpace_ne_empty_of_uuid spelled, same⟩

namespace Sample

open Registration.Sample (rebuilt rowId)

def table : ServerTable := rebuilt.table

def index : CapabilityIndex := rebuilt.index

def router (index : CapabilityIndex) : Router := ⟨index, roundRobin 0, none, none⟩

theorem router_index (index : CapabilityIndex) : (router index).index = index := rfl

def removal : AdminChange := .deregister rowId

def closing : AdminChange := .updateRateLimit rowId (some 0) (some 0)

end Sample

open Sample

theorem connected_deregister_effective : ∃ next event, Sample.removal.apply table (110 * second) = .ok (next, event) ∧
      Sample.removal.Effective (connectedBroadcaster.settle next index event) := by
  cases applied : Sample.removal.apply table (110 * second) with
  | error cause =>
    have succeeded : (Sample.removal.apply table (110 * second)).isOk = true := by decide +kernel
    rw [applied] at succeeded
    cases succeeded
  | ok outcome =>
    obtain ⟨next, event⟩ := outcome
    refine ⟨next, event, rfl, (admin_change_effective_iff _ _ _ _ _ _ _ applied).mpr ?_⟩
    intro server _ spelled
    have canonical : parseUuid rowId = some rowId := by decide +kernel
    have trimmed := trimSpace_uuid canonical
    exact ⟨rfl, (Option.some.inj (spelled.symm.trans canonical)).trans trimmed.symm⟩

theorem admin_change_ineffective : (∃ next event dispatch, closing.apply table (110 * second) = .ok (next, event) ∧
      (router (connectedBroadcaster.settle next index event)).route [] "list_pods" = .ok dispatch ∧
      dispatch.server.id = rowId ∧ dispatch.server.rateLimit = none ∧
      ¬ closing.Effective (connectedBroadcaster.settle next index event)) ∧
    ∃ next event dispatch, Sample.removal.apply table (110 * second) = .ok (next, event) ∧
      (router (noopBroadcaster.settle next index event)).route [] "list_pods" = .ok dispatch ∧
      dispatch.server.id = rowId ∧ ¬ Sample.removal.Effective (noopBroadcaster.settle next index event) := by
  have canonical : parseUuid rowId = some rowId := by decide +kernel
  constructor
  · have called : (match closing.apply table (110 * second) with
      | .ok (next, event) =>
        match (router (connectedBroadcaster.settle next index event)).route [] "list_pods" with
        | .ok dispatch => dispatch.server.id == rowId && dispatch.server.rateLimit == none
        | .error _ => false
      | .error _ => false) = true := by decide +kernel
    split at called
    next next event applied =>
      split at called
      next dispatch routed =>
        simp only [Bool.and_eq_true, beq_iff_eq] at called
        refine ⟨next, event, dispatch, applied, routed, called.1, called.2, fun effective => ?_⟩
        have held := Router.holds_of_route (roundRobin_chooses 0) routed
        rw [router_index] at held
        rw [closing, AdminChange.Effective] at effective
        have limited := (effective dispatch.server held (by rw [canonical, called.1])).1
        rw [called.2] at limited
        cases limited
      next => cases called
    next => cases called
  · have called : (match Sample.removal.apply table (110 * second) with
      | .ok (next, event) =>
        match (router (noopBroadcaster.settle next index event)).route [] "list_pods" with
        | .ok dispatch => dispatch.server.id == rowId
        | .error _ => false
      | .error _ => false) = true := by decide +kernel
    split at called
    next next event applied =>
      split at called
      next dispatch routed =>
        have same := eq_of_beq called
        refine ⟨next, event, dispatch, applied, routed, same, fun effective => ?_⟩
        have held := Router.holds_of_route (roundRobin_chooses 0) routed
        rw [router_index] at held
        rw [Sample.removal, AdminChange.Effective] at effective
        exact effective dispatch.server held (by rw [canonical, same])
      next => cases called
    next => cases called

end McpGateway.Admin
