import McpGateway.Registration.AllowList
import McpGateway.Shared.Newest
import McpGateway.Shared.Runs

namespace McpGateway.Events

open Shared Registration

def forbiddenSettings : List String := ["secret", "password", "token", "private_key", "apikey", "api_key"]

def settingKeyError (key : String) : Option String :=
  if trimSpace key = "" then some "setting key is empty"
  else if forbiddenSettings.any (contains (toLower (trimSpace key))) then some "secret-like key is not allowed"
  else none

-- Of several faults Go reports the one its map order comes to first; the entry list is one such order.
mutual

def validateNonSecretSetting (key : String) : Value → Option String
  | .array items => (settingKeyError key).or (validateSettingItems (trimSpace key) items)
  | .object entries => (settingKeyError key).or (validateSettingEntries entries)
  | .null => settingKeyError key
  | .bool _ => settingKeyError key
  | .number _ => settingKeyError key
  | .string _ => settingKeyError key

def validateSettingItems (key : String) : List Value → Option String
  | [] => none
  | item :: rest => (validateNonSecretSetting key item).or (validateSettingItems key rest)

def validateSettingEntries : Object → Option String
  | [] => none
  | (key, value) :: rest => (validateNonSecretSetting key value).or (validateSettingEntries rest)

end

structure ServerSettingsConfig where
  serverName : String
  effectiveSettings : Object

structure ServerSettingsConfigMessage where
  configVersion : Int
  servers : List ServerSettingsConfig

def settingsError (serverName : String) (settings : Object) : Option String :=
  settings.findSome? fun (key, value) =>
    (validateNonSecretSetting key value).map fun detail =>
      "server " ++ quote serverName ++ " setting " ++ quote key ++ ": " ++ detail

def buildValidatedServerSettings (out : GoMap String Object) :
    List ServerSettingsConfig → Except String (GoMap String Object)
  | [] => .ok out
  | entry :: rest =>
    if trimSpace entry.serverName = "" then .error "server_name is required"
    else if entry.effectiveSettings = [] then
      .error ("effective_settings cannot be empty for " ++ quote (trimSpace entry.serverName))
    else
      match settingsError (trimSpace entry.serverName) entry.effectiveSettings with
      | some detail => .error detail
      | none =>
        buildValidatedServerSettings (out.insert (trimSpace entry.serverName) (cloneSettings [] entry.effectiveSettings))
          rest

def copySettings (settingsByServer : GoMap String Object) : GoMap String Object :=
  (settingsByServer.entries.filterMap fun entry => if trimSpace entry.1 = "" then none
    else some (⟨trimSpace entry.1, cloneSettings [] entry.2⟩ : Sigma fun _ : String => Object)).toAList

def updateEffectiveSettings (service : Service) (configVersion : Int) (settingsByServer : GoMap String Object) :
    Except String Service :=
  if configVersion ≤ 0 then .error "update effective settings: config version must be positive"
  else if configVersion < service.settingsVersion then
    .error ("update effective settings: stale config version " ++ toString configVersion ++ " < " ++
      toString service.settingsVersion)
  else .ok { service with settingsVersion := configVersion, effectiveSettings := copySettings settingsByServer }

inductive Delivery where
  | allowList (message : Except String (List String))
  | settings (message : Except String ServerSettingsConfigMessage)

structure Handlers where
  service : Service
  bound : Bool

def Handlers.new (service : Service) (configured : List String) : Handlers where
  service := { service.withAllowList configured with settingsVersion := 0, effectiveSettings := ∅ }
  bound := false

def Handlers.bindRegistrationService (handlers : Handlers) : Handlers :=
  { handlers with bound := true }

-- ServerConfigHandler.Handle. The server gives neither handler a store to save a message in.
def Handlers.handleServerConfig (handlers : Handlers) :
    Except String (List String) → Except String Unit × Handlers
  | .error detail => (.error ("handle server config: " ++ detail), handlers)
  | .ok spiffeAllowList =>
    let (result, service) := handlers.service.handleServerConfig spiffeAllowList none
    (result, if handlers.bound then { handlers with service := service } else handlers)

def Handlers.handleServerSettings (handlers : Handlers) :
    Except String ServerSettingsConfigMessage → Except String Unit × Handlers
  | .error detail => (.error ("handle server settings config: " ++ detail), handlers)
  | .ok message =>
    if message.configVersion ≤ 0 then
      (.error "handle server settings config: config_version must be positive", handlers)
    else
      match buildValidatedServerSettings ∅ message.servers with
      | .error detail => (.error ("handle server settings config: " ++ detail), handlers)
      | .ok settingsByServer =>
        if handlers.bound then
          match updateEffectiveSettings handlers.service message.configVersion settingsByServer with
          | .error detail => (.error ("handle server settings config: apply settings: " ++ detail), handlers)
          | .ok service => (.ok (), { handlers with service := service })
        else (.ok (), handlers)

def Handlers.deliver (handlers : Handlers) : Delivery → Handlers
  | .allowList message => (handlers.handleServerConfig message).2
  | .settings message => (handlers.handleServerSettings message).2

structure VersionedSettings where
  version : Int
  settings : GoMap String Object

def currentSettings (service : Service) : VersionedSettings :=
  ⟨service.settingsVersion, service.effectiveSettings⟩

def Delivery.validList : Delivery → Option (List String)
  | .allowList (.ok spiffeAllowList) =>
    if (copyStringSlice spiffeAllowList).all (hasPrefix · "spiffe://") then some (copyStringSlice spiffeAllowList)
    else none
  | _ => none

def Delivery.validSettings : Delivery → Option VersionedSettings
  | .settings (.ok message) =>
    if message.configVersion ≤ 0 then none
    else
      (buildValidatedServerSettings ∅ message.servers).toOption.map fun settingsByServer =>
        ⟨message.configVersion, copySettings settingsByServer⟩
  | _ => none

def lastList (configured : List String) (deliveries : List Delivery) : List String :=
  (deliveries.filterMap Delivery.validList).getLast?.getD (copyStringSlice configured)

def newestSettings (deliveries : List Delivery) : VersionedSettings :=
  newest VersionedSettings.version ⟨0, ∅⟩ (deliveries.filterMap Delivery.validSettings)

section

variable {handlers : Handlers}

theorem Handlers.handleServerConfig_bound (bound : handlers.bound = true) (spiffeAllowList : List String) :
    (handlers.handleServerConfig (.ok spiffeAllowList)).2 = { handlers with
      service := { handlers.service with spiffeAllowList :=
        (Delivery.validList (.allowList (.ok spiffeAllowList))).getD handlers.service.spiffeAllowList } } := by
  simp only [Handlers.handleServerConfig, Service.handleServerConfig, bound, if_true, Delivery.validList]
  cases faulty : (copyStringSlice spiffeAllowList).find? fun trimmed => !hasPrefix trimmed "spiffe://" with
  | some trimmed =>
    have refused : (copyStringSlice spiffeAllowList).all (hasPrefix · "spiffe://") = false := by
      rw [List.all_eq_false]
      exact ⟨trimmed, List.mem_of_find?_eq_some faulty, by simpa using List.find?_some faulty⟩
    simp [refused]
  | none =>
    have accepted : (copyStringSlice spiffeAllowList).all (hasPrefix · "spiffe://") = true := by
      rw [List.all_eq_true]
      intro trimmed mem
      simpa using List.find?_eq_none.mp faulty trimmed mem
    simp [accepted, Service.updateSPIFFEAllowList, copyStringSlice_idempotent]

theorem Handlers.handleServerSettings_bound (bound : handlers.bound = true) (message : ServerSettingsConfigMessage) :
    (handlers.handleServerSettings (.ok message)).2.bound = true ∧
      (handlers.handleServerSettings (.ok message)).2.service.spiffeAllowList = handlers.service.spiffeAllowList ∧
      currentSettings (handlers.handleServerSettings (.ok message)).2.service =
        newest VersionedSettings.version (currentSettings handlers.service)
          (Delivery.validSettings (.settings (.ok message))).toList := by
  simp only [Handlers.handleServerSettings, Delivery.validSettings, bound, if_true]
  by_cases pos : message.configVersion ≤ 0
  · simp [pos, bound, newest]
  cases built : buildValidatedServerSettings ∅ message.servers with
  | error detail => simp [pos, bound, newest, Except.toOption]
  | ok settingsByServer =>
    by_cases stale : message.configVersion < handlers.service.settingsVersion
    · simp [pos, bound, updateEffectiveSettings, stale, newest, newer, currentSettings, Except.toOption]
    · simp [pos, updateEffectiveSettings, stale, newest, newer, currentSettings, Except.toOption]

theorem Handlers.deliver_bound (bound : handlers.bound = true) (delivery : Delivery) :
    (handlers.deliver delivery).bound = true ∧ (handlers.deliver delivery).service.spiffeAllowList =
        delivery.validList.getD handlers.service.spiffeAllowList ∧ currentSettings (handlers.deliver delivery).service =
        newest VersionedSettings.version (currentSettings handlers.service) delivery.validSettings.toList := by
  cases delivery with
  | allowList message =>
    cases message with
    | error detail => exact ⟨bound, rfl, rfl⟩
    | ok spiffeAllowList =>
      rw [Handlers.deliver, handlers.handleServerConfig_bound bound]
      exact ⟨bound, rfl, rfl⟩
  | settings message =>
    cases message with
    | error detail => exact ⟨bound, rfl, rfl⟩
    | ok message => exact handlers.handleServerSettings_bound bound message

theorem Handlers.deliver_unbound (unbound : handlers.bound = false) (delivery : Delivery) :
    handlers.deliver delivery = handlers := by
  cases delivery with
  | allowList message => cases message <;> simp [Handlers.deliver, Handlers.handleServerConfig, unbound]
  | settings message =>
    cases message with
    | error detail => rfl
    | ok message =>
      by_cases pos : message.configVersion ≤ 0
      · simp [Handlers.deliver, Handlers.handleServerSettings, pos]
      · cases built : buildValidatedServerSettings ∅ message.servers <;>
          simp [Handlers.deliver, Handlers.handleServerSettings, pos, built, unbound]

theorem Handlers.run_unbound (unbound : handlers.bound = false) (deliveries : List Delivery) :
    run Handlers.deliver handlers deliveries = handlers := by
  induction deliveries with
  | nil => rfl
  | cons delivery rest ih => rwa [run, List.foldl_cons, handlers.deliver_unbound unbound]

theorem Handlers.run_bound (bound : handlers.bound = true) (deliveries : List Delivery) :
    (run Handlers.deliver handlers deliveries).service.spiffeAllowList =
        (deliveries.filterMap Delivery.validList).getLast?.getD handlers.service.spiffeAllowList ∧
      currentSettings (run Handlers.deliver handlers deliveries).service =
        newest VersionedSettings.version (currentSettings handlers.service)
          (deliveries.filterMap Delivery.validSettings) := by
  induction deliveries generalizing handlers with
  | nil => exact ⟨rfl, rfl⟩
  | cons delivery rest ih =>
    obtain ⟨still, list, settings⟩ := handlers.deliver_bound bound delivery
    obtain ⟨lists, newer⟩ := ih still
    rw [run, List.foldl_cons]
    constructor
    · refine lists.trans ?_
      rw [list]
      cases valid : delivery.validList with
      | none => rw [List.filterMap_cons_none valid, Option.getD_none]
      | some replaced => rw [List.filterMap_cons_some valid, List.getLast?_cons, Option.getD_some, Option.getD_some]
    · refine newer.trans ?_
      rw [settings, ← newest_append]
      cases valid : delivery.validSettings with
      | none => rw [List.filterMap_cons_none valid, Option.toList_none, List.nil_append]
      | some replaced => rw [List.filterMap_cons_some valid, Option.toList_some, List.singleton_append]

end

theorem lastList_append_iff (configured : List String) (before after : List Delivery) :
    lastList configured after = lastList configured (before ++ after) ↔
      after.filterMap Delivery.validList ≠ [] ∨ lastList configured before = copyStringSlice configured := by
  simp only [lastList, List.filterMap_append]
  generalize after.filterMap Delivery.validList = late
  cases late using List.reverseRecOn with
  | nil => simp [eq_comm]
  | append_singleton prior last => simp [← List.append_assoc]

theorem validSettings_positive {delivery : Delivery} {settings : VersionedSettings}
    (valid : delivery.validSettings = some settings) : 0 < settings.version := by
  unfold Delivery.validSettings at valid
  split at valid
  · split_ifs at valid with pos
    obtain ⟨_, _, rfl⟩ := Option.map_eq_some_iff.mp valid
    exact not_le.mp pos
  · cases valid

/-- Once everything is delivered, the service has the list and the settings it was last sent exactly if a valid list, or
none that differs from the configured one, and for each valid version of the settings one as new, came after the
binding. -/
theorem config_applied_iff (service : Service) (configured : List String) (before after : List Delivery) :
    let start := run Handlers.deliver (Handlers.new service configured) before
    let final := run Handlers.deliver start.bindRegistrationService after
    (final.service.spiffeAllowList = lastList configured (before ++ after) ∧
        currentSettings final.service = newestSettings (before ++ after)) ↔
      ((after.filterMap Delivery.validList ≠ [] ∨ lastList configured before = copyStringSlice configured) ∧
        ∀ early ∈ before.filterMap Delivery.validSettings, ∃ late ∈ after.filterMap Delivery.validSettings,
          early.version ≤ late.version) := by
  intro start final
  have unbound : start = Handlers.new service configured := Handlers.run_unbound rfl before
  have bound : start.bindRegistrationService.bound = true := rfl
  obtain ⟨lists, settings⟩ := Handlers.run_bound bound after
  have list : final.service.spiffeAllowList = lastList configured after := by
    rw [lists, unbound]
    rfl
  have newer : currentSettings final.service = newestSettings after := by
    rw [settings, unbound]
    rfl
  rw [list, newer, lastList_append_iff]
  refine and_congr_right fun _ => ?_
  have pos : ∀ early ∈ before.filterMap Delivery.validSettings, 0 < early.version := by
    intro early mem
    obtain ⟨delivery, _, valid⟩ := List.mem_filterMap.mp mem
    exact validSettings_positive valid
  rw [newestSettings, newestSettings, List.filterMap_append, eq_comm, newest_append_eq_iff pos]

/-- Gateways that hold the same settings and are sent the same valid ones, in any order and any number of times, end
with the same settings in force, as long as a version stands for one content. -/
theorem settings_replicas_agree {left right : Handlers} {first second : List Delivery} (leftBound : left.bound = true)
    (rightBound : right.bound = true) (same : currentSettings left.service = currentSettings right.service)
    (sent : first.filterMap Delivery.validSettings ⊆ second.filterMap Delivery.validSettings)
    (received : second.filterMap Delivery.validSettings ⊆ first.filterMap Delivery.validSettings)
    (versioned : Set.InjOn VersionedSettings.version
      {settings | settings ∈ currentSettings left.service :: first.filterMap Delivery.validSettings}) :
    currentSettings (run Handlers.deliver left first).service =
      currentSettings (run Handlers.deliver right second).service := by
  rw [(Handlers.run_bound leftBound first).2, (Handlers.run_bound rightBound second).2, ← same]
  generalize currentSettings left.service = held at versioned ⊢
  refine versioned (List.mem_cons.mpr newest_mem) ?_ (le_antisymm (newest_mono sent) (newest_mono received))
  exact List.mem_cons.mpr (newest_mem.imp_right fun mem => received mem)

namespace Sample

def restricting : Delivery := .allowList (.ok ["spiffe://cluster.local/"])

def verbose (version : Int) : Delivery :=
  .settings (.ok ⟨version, [⟨"mcp-k8s", [("log_level", .string "debug")]⟩]⟩)

def boundBetween (before after : List Delivery) : Service :=
  (run Handlers.deliver (run Handlers.deliver (.new Registration.Sample.service []) before).bindRegistrationService
    after).service

end Sample

open Sample

theorem early_messages_lost : (lastList [] [restricting] = ["spiffe://cluster.local/"] ∧
        (boundBetween [restricting] []).spiffeAllowList = []) ∧
      ((newestSettings [verbose 1]).settings.lookup "mcp-k8s").isSome = true ∧
        ((boundBetween [verbose 1] []).effectiveSettings.lookup "mcp-k8s").isSome = false ∧
      (newestSettings [verbose 2, verbose 1]).version = 2 ∧
        (boundBetween [verbose 2] [verbose 1]).settingsVersion = 1 := by
  decide +kernel

theorem repeated_settings_agree : let gateway := (Handlers.new Registration.Sample.service []).bindRegistrationService
    currentSettings (run Handlers.deliver gateway [verbose 1, verbose 2]).service =
      currentSettings (run Handlers.deliver gateway [verbose 2, verbose 1, verbose 2]).service := by
  refine settings_replicas_agree rfl rfl rfl ?_ ?_ fun _ mem _ other => List.inj_on_of_nodup_map ?_ mem other
  · exact List.filterMap_subset _ (by simp)
  · exact List.filterMap_subset _ (by simp)
  · decide +kernel

end McpGateway.Events
