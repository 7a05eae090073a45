import McpGateway.Events.PolicyConfig
import McpGateway.Events.ServerConfig
import McpGateway.Proxy.Discovery

namespace McpGateway.Events

open Shared Registration Proxy

inductive ConfigScope where
  | policy | servers | serverSettings | auth | toolMetadata
  deriving DecidableEq

def cacheKeyScope (key : String) : Option ConfigScope :=
  match trimSpace key with
  | "config.policy" => some .policy
  | "config.servers" => some .servers
  | "config.server_settings" => some .serverSettings
  | "config.auth" => some .auth
  | "config.tool_metadata" => some .toolMetadata
  | _ => none

-- decodeConfigMessage for each kind of payload, and the stricter json.Unmarshal of extractConfigVersion.
structure Decoding where
  policy : String → PolicyConfigMessage
  servers : String → Except String (List String)
  serverSettings : String → Except String ServerSettingsConfigMessage
  auth : String → Except String Unit
  toolMetadata : String → Except String (List ToolMetadata)
  settingsVersion : String → Option Int

structure LiveConfig where
  policy : PolicyState
  handlers : Handlers
  toolMetadata : Option (List ToolMetadata)

section

variable (decoding : Decoding)

-- ConfigHandler.Handle. A handler that keeps the payload saves what it was given.
def LiveConfig.handle (config : LiveConfig) (scope : ConfigScope) (payload : String) :
    Except String Unit × LiveConfig :=
  match scope with
  | .policy =>
    let handled := config.policy.handlePolicyConfig (decoding.policy payload)
    (handled.1, { config with policy := handled.2 })
  | .servers =>
    let handled := config.handlers.handleServerConfig (decoding.servers payload)
    (handled.1, { config with handlers := handled.2 })
  | .serverSettings =>
    let handled := config.handlers.handleServerSettings (decoding.serverSettings payload)
    (handled.1, { config with handlers := handled.2 })
  | .auth =>
    match decoding.auth payload with
    | .error detail => (.error ("handle auth config: " ++ detail), config)
    | .ok _ => (.ok (), config)
  | .toolMetadata =>
    match decoding.toolMetadata payload with
    | .error detail => (.error ("handle tool metadata config: " ++ detail), config)
    | .ok tools => (.ok (), { config with toolMetadata := some tools })

abbrev ConfigStore := GoMap String String

def ConfigStore.payload (store : ConfigStore) (key : String) : String :=
  (store.lookup key).getD ""

structure StoreFaults where
  keysFail : Bool
  loadFails : String → Bool

structure Subscriber where
  hasClient : Bool
  registered : List ConfigScope

def Subscriber.applyKeys (subscriber : Subscriber) (store : ConfigStore) (faults : StoreFaults) :
    List String → LiveConfig → Except String Unit × LiveConfig
  | [], config => (.ok (), config)
  | key :: rest, config =>
    match cacheKeyScope key with
    | none => subscriber.applyKeys store faults rest config
    | some scope =>
      if faults.loadFails key then (.error ("load cached config: load key " ++ quote key), config)
      else if scope ∈ subscriber.registered then
        match config.handle decoding scope (ConfigStore.payload store key) with
        | (.error detail, config) => (.error ("load cached config: apply key " ++ quote key ++ ": " ++ detail), config)
        | (.ok _, config) => subscriber.applyKeys store faults rest config
      else subscriber.applyKeys store faults rest config

def Subscriber.loadCachedConfig (subscriber : Subscriber) (store : ConfigStore) (faults : StoreFaults)
    (config : LiveConfig) : Except String Unit × LiveConfig :=
  if subscriber.hasClient = false then (.error "load cached config: client is nil", config)
  else if faults.keysFail then (.error "load cached config: list keys", config)
  else subscriber.applyKeys decoding store faults (sortStrings store.keys) config

inductive DegradationStatus where
  | connected | degraded | disconnected
  deriving DecidableEq

structure DegradationManager where
  configStore : Option ConfigStore
  subscriber : Option Subscriber
  status : DegradationStatus
  hasCachedConfig : Bool
  lastKnownVersions : GoMap String Int
  settingsSyncStatus : String
  settingsConfigVersion : Int

def settingsKey : String := "config.server_settings"

def extractConfigVersion (key payload : String) : Int :=
  if key = settingsKey then (decoding.settingsVersion payload).getD 0 else 0

def cachedVersions (store : ConfigStore) : GoMap String Int :=
  GoMap.insertAll ∅ (store.keys.map fun key => (key, extractConfigVersion decoding key (ConfigStore.payload store key)))

def DegradationManager.applyCachedState (manager : DegradationManager) (versions : GoMap String Int) :
    DegradationManager :=
  let cached : Bool := versions.keys ≠ []
  let version := (versions.lookup settingsKey).getD 0
  { manager with
    lastKnownVersions := versions
    hasCachedConfig := cached
    settingsSyncStatus := if 0 < version ∨ cached then "cached" else manager.settingsSyncStatus
    settingsConfigVersion := if 0 < version then version else manager.settingsConfigVersion
    status := if manager.status = .disconnected ∧ cached then .degraded else manager.status }

def DegradationManager.loadCachedConfig (manager : DegradationManager) (first second : StoreFaults)
    (config : LiveConfig) : Except String Unit × DegradationManager × LiveConfig :=
  match manager.configStore with
  | none => (.ok (), manager, config)
  | some store =>
    if first.keysFail then (.error "load cached config: list keys", manager, config)
    else if store.keys.any first.loadFails then (.error "load cached config: load key", manager, config)
    else
      match manager.subscriber with
      | none => (.ok (), manager.applyCachedState (cachedVersions decoding store), config)
      | some subscriber =>
        match subscriber.loadCachedConfig decoding store second config with
        | (.error detail, config) => (.error ("load cached config: apply cached config: " ++ detail), manager, config)
        | (.ok _, config) => (.ok (), manager.applyCachedState (cachedVersions decoding store), config)

def LiveConfig.InForce (config : LiveConfig) (payload : String) : ConfigScope → Prop
  | .policy => ∀ read, readMessage (decoding.policy payload) = .ok read →
    config.policy.engine.profiles = copyProfiles read.profiles
  | .servers => ∀ list, Delivery.validList (.allowList (decoding.servers payload)) = some list →
    config.handlers.service.spiffeAllowList = list
  | .serverSettings => ∀ settings, Delivery.validSettings (.settings (decoding.serverSettings payload)) = some settings →
    currentSettings config.handlers.service = settings
  | .auth => True
  | .toolMetadata => ∀ tools, decoding.toolMetadata payload = .ok tools → config.toolMetadata = some tools

def LiveConfig.wired (config : LiveConfig) : ConfigScope → Bool
  | .servers => config.handlers.bound
  | .serverSettings => config.handlers.bound
  | _ => true

section

variable {decoding} {config : LiveConfig} {scope : ConfigScope} {payload : String}

variable (handlers : Handlers)

theorem Handlers.deliver_keeps_bound (delivery : Delivery) : (handlers.deliver delivery).bound = handlers.bound := by
  cases bound : handlers.bound with
  | true => exact (handlers.deliver_bound bound delivery).1
  | false => rw [handlers.deliver_unbound bound, bound]

theorem Handlers.deliver_list (message : Except String (List String)) :
    currentSettings (handlers.deliver (.allowList message)).service = currentSettings handlers.service := by
  cases bound : handlers.bound with
  | true => exact (handlers.deliver_bound bound (.allowList message)).2.2
  | false => rw [handlers.deliver_unbound bound]

theorem Handlers.deliver_settings (message : Except String ServerSettingsConfigMessage) :
    (handlers.deliver (.settings message)).service.spiffeAllowList = handlers.service.spiffeAllowList := by
  cases bound : handlers.bound with
  | true => exact (handlers.deliver_bound bound (.settings message)).2.1
  | false => rw [handlers.deliver_unbound bound]

theorem Handlers.settings_accepted {handlers : Handlers} {message : Except String ServerSettingsConfigMessage}
    {settings : VersionedSettings} (bound : handlers.bound = true)
    (accepted : (handlers.handleServerSettings message).1 = .ok ())
    (valid : Delivery.validSettings (.settings message) = some settings) :
    currentSettings (handlers.deliver (.settings message)).service = settings := by
  have newer := (handlers.deliver_bound bound (.settings message)).2.2
  rw [newer, valid, Option.toList_some]
  cases message with
  | error detail => cases accepted
  | ok message =>
    simp only [Delivery.validSettings] at valid
    split_ifs at valid with pos
    obtain ⟨settingsByServer, built, rfl⟩ := Option.map_eq_some_iff.mp valid
    refine newer_of_le ?_
    by_contra stale
    cases built' : buildValidatedServerSettings ∅ message.servers with
    | error detail => simp [built', Except.toOption] at built
    | ok checked =>
      have older : message.configVersion < handlers.service.settingsVersion := not_le.mp stale
      simp [Handlers.handleServerSettings, pos, built', bound, updateEffectiveSettings, older] at accepted

theorem LiveConfig.handle_wired (other : ConfigScope) :
    (config.handle decoding scope payload).2.wired other = config.wired other := by
  have kept := config.handlers.deliver_keeps_bound
  cases scope with
  | policy => cases other <;> rfl
  | servers =>
    have delivered := kept (.allowList (decoding.servers payload))
    cases other <;> simp [LiveConfig.handle, LiveConfig.wired, ← delivered, Handlers.deliver]
  | serverSettings =>
    have delivered := kept (.settings (decoding.serverSettings payload))
    cases other <;> simp [LiveConfig.handle, LiveConfig.wired, ← delivered, Handlers.deliver]
  | auth => cases decoded : decoding.auth payload <;> simp [LiveConfig.handle, decoded]
  | toolMetadata =>
    cases decoded : decoding.toolMetadata payload <;> cases other <;>
      simp [LiveConfig.handle, decoded, LiveConfig.wired]

theorem LiveConfig.handle_other {other : ConfigScope} {text : String}
    (untouched : scope ≠ other ∨ config.wired other = false) :
    (config.handle decoding scope payload).2.InForce decoding text other ↔ config.InForce decoding text other := by
  cases scope with
  | policy => cases other <;> simp_all [LiveConfig.handle, LiveConfig.InForce, LiveConfig.wired]
  | servers =>
    have kept := config.handlers.deliver_list (decoding.servers payload)
    have unbound := fun free => config.handlers.deliver_unbound free (.allowList (decoding.servers payload))
    cases other <;> simp_all [LiveConfig.handle, LiveConfig.InForce, LiveConfig.wired, Handlers.deliver]
  | serverSettings =>
    have kept := config.handlers.deliver_settings (decoding.serverSettings payload)
    have unbound := fun free => config.handlers.deliver_unbound free (.settings (decoding.serverSettings payload))
    cases other <;> simp_all [LiveConfig.handle, LiveConfig.InForce, LiveConfig.wired, Handlers.deliver]
  | auth => cases decoded : decoding.auth payload <;> simp [LiveConfig.handle, decoded]
  | toolMetadata =>
    cases decoded : decoding.toolMetadata payload with
    | error detail => simp [LiveConfig.handle, decoded]
    | ok tools => cases other <;> simp_all [LiveConfig.handle, LiveConfig.InForce, LiveConfig.wired]

theorem LiveConfig.handle_own (accepted : (config.handle decoding scope payload).1 = .ok ())
    (wired : config.wired scope = true) : (config.handle decoding scope payload).2.InForce decoding payload scope := by
  cases scope with
  | policy =>
    intro read valid
    simp [LiveConfig.handle, PolicyState.handlePolicyConfig, valid, replaceProfiles]
  | servers =>
    intro list valid
    have applied := (config.handlers.deliver_bound wired (.allowList (decoding.servers payload))).2.1
    rw [valid, Option.getD_some] at applied
    exact applied
  | serverSettings =>
    intro settings valid
    exact Handlers.settings_accepted wired accepted valid
  | auth => trivial
  | toolMetadata =>
    intro tools valid
    simp [LiveConfig.handle, valid]

end

def rowsOf (scope : ConfigScope) (keys : List String) : List String :=
  keys.filter fun key => cacheKeyScope key = some scope

theorem rowsOf_cons (scope : ConfigScope) (key : String) (rest : List String) : rowsOf scope (key :: rest) =
      if cacheKeyScope key = some scope then key :: rowsOf scope rest else rowsOf scope rest := by
  by_cases same : cacheKeyScope key = some scope <;> simp [rowsOf, same]

section

variable {decoding} {subscriber : Subscriber} {store : ConfigStore} {faults : StoreFaults} {keys : List String}
  {config final : LiveConfig} {scope : ConfigScope}

theorem Subscriber.applyKeys_cons {key : String} {rest : List String}
    (loaded : subscriber.applyKeys decoding store faults (key :: rest) config = (.ok (), final)) :
    (subscriber.applyKeys decoding store faults rest config = (.ok (), final) ∧
        ∀ scope ∈ subscriber.registered, cacheKeyScope key ≠ some scope) ∨
      ∃ own ∈ subscriber.registered, cacheKeyScope key = some own ∧
        (config.handle decoding own (ConfigStore.payload store key)).1 = .ok () ∧
        subscriber.applyKeys decoding store faults rest
          (config.handle decoding own (ConfigStore.payload store key)).2 = (.ok (), final) := by
  unfold Subscriber.applyKeys at loaded
  split at loaded
  next unknown => exact .inl ⟨loaded, fun scope _ => by simp [unknown]⟩
  next own known =>
    split_ifs at loaded with failed registered
    · cases loaded
    · split at loaded
      · cases loaded
      next next accepted =>
        refine .inr ⟨own, registered, known, ?_, ?_⟩
        · rw [accepted]
        · rw [accepted]
          exact loaded
    · refine .inl ⟨loaded, fun scope mem same => ?_⟩
      rw [known] at same
      cases same
      exact registered mem

section

variable (loaded : subscriber.applyKeys decoding store faults keys config = (.ok (), final))

include loaded

theorem Subscriber.applyKeys_untouched
    (untouched : rowsOf scope keys = [] ∨ scope ∉ subscriber.registered ∨ config.wired scope = false)
    (payload : String) : final.InForce decoding payload scope ↔ config.InForce decoding payload scope := by
  induction keys generalizing config with
  | nil =>
    cases loaded
    rfl
  | cons key rest ih =>
    have later : rowsOf scope (key :: rest) = [] → rowsOf scope rest = [] ∧ cacheKeyScope key ≠ some scope := by
      intro none
      rw [rowsOf_cons] at none
      split_ifs at none with same
      exact ⟨none, same⟩
    cases Subscriber.applyKeys_cons loaded with
    | inl passed => exact ih passed.1 (untouched.imp_left fun none => (later none).1)
    | inr handled =>
      obtain ⟨own, registered, known, accepted, loaded⟩ := handled
      have other : own ≠ scope ∨ config.wired scope = false := by
        by_contra both
        rw [not_or, not_not] at both
        obtain ⟨rfl, wired⟩ := both
        cases untouched with
        | inl none => exact (later none).2 known
        | inr either => exact either.elim (fun missing => missing registered) wired
      rw [← LiveConfig.handle_other other]
      refine ih loaded ?_
      rw [LiveConfig.handle_wired]
      exact untouched.imp_left fun none => (later none).1

theorem Subscriber.applyKeys_applied (registered : scope ∈ subscriber.registered) (wired : config.wired scope = true)
    {key : String} (last : (rowsOf scope keys).getLast? = some key) :
    final.InForce decoding (ConfigStore.payload store key) scope := by
  induction keys generalizing config with
  | nil => cases last
  | cons first rest ih =>
    cases Subscriber.applyKeys_cons loaded with
    | inl passed =>
      refine ih passed.1 wired ?_
      rwa [rowsOf_cons, if_neg (passed.2 scope registered)] at last
    | inr handled =>
      obtain ⟨own, -, known, accepted, loaded⟩ := handled
      rw [rowsOf_cons] at last
      cases later : rowsOf scope rest with
      | cons row rows =>
        refine ih loaded (by rwa [LiveConfig.handle_wired]) ?_
        rw [← last]
        split_ifs
        · rw [later, List.getLast?_cons_cons]
        · rfl
      | nil =>
        rw [Subscriber.applyKeys_untouched loaded (.inl later)]
        rw [later] at last
        split_ifs at last with same
        · cases last
          cases known.symm.trans same
          exact LiveConfig.handle_own accepted wired
        · cases last

end

end

def DegradationManager.cached (manager : DegradationManager) (scope : ConfigScope) : Option String :=
  manager.configStore.bind fun store =>
    (rowsOf scope (sortStrings store.keys)).getLast?.map (ConfigStore.payload store)

def DegradationManager.Applies (manager : DegradationManager) (config : LiveConfig) (scope : ConfigScope) : Prop :=
  ∃ subscriber, manager.subscriber = some subscriber ∧ scope ∈ subscriber.registered ∧ config.wired scope = true

variable {decoding} {manager : DegradationManager} {first second : StoreFaults} {config : LiveConfig}

theorem DegradationManager.loadCachedConfig_ok {store : ConfigStore} (stored : manager.configStore = some store)
    (loaded : (manager.loadCachedConfig decoding first second config).1 = .ok ()) :
    (manager.subscriber = none ∧ (manager.loadCachedConfig decoding first second config).2.2 = config) ∨
      ∃ subscriber, manager.subscriber = some subscriber ∧
        subscriber.applyKeys decoding store second (sortStrings store.keys) config =
          (.ok (), (manager.loadCachedConfig decoding first second config).2.2) := by
  unfold DegradationManager.loadCachedConfig at loaded ⊢
  simp only [stored] at loaded ⊢
  split_ifs at loaded ⊢ with unlisted unread
  cases subscribed : manager.subscriber with
  | none => exact .inl ⟨rfl, rfl⟩
  | some subscriber =>
    simp only [subscribed] at loaded ⊢
    refine .inr ⟨subscriber, rfl, ?_⟩
    cases applied : subscriber.loadCachedConfig decoding store second config with
    | mk result final =>
      rw [applied] at loaded
      cases result with
      | error detail => cases loaded
      | ok _ =>
        unfold Subscriber.loadCachedConfig at applied
        split_ifs at applied
        · cases applied
        · cases applied
        · exact applied

theorem DegradationManager.inForce_iff
    (loaded : (manager.loadCachedConfig decoding first second config).1 = .ok ()) {scope : ConfigScope}
    {payload : String} (cached : manager.cached scope = some payload) :
    (manager.loadCachedConfig decoding first second config).2.2.InForce decoding payload scope ↔
      manager.Applies config scope ∨ config.InForce decoding payload scope := by
  obtain ⟨store, stored, found⟩ := Option.bind_eq_some_iff.mp cached
  obtain ⟨key, last, rfl⟩ := Option.map_eq_some_iff.mp found
  cases DegradationManager.loadCachedConfig_ok stored loaded with
  | inl alone => simp [DegradationManager.Applies, alone]
  | inr subscribed =>
    obtain ⟨subscriber, subscribed, applied⟩ := subscribed
    by_cases applies : scope ∈ subscriber.registered ∧ config.wired scope = true
    · have inForce := Subscriber.applyKeys_applied applied applies.1 applies.2 last
      exact iff_of_true inForce (.inl ⟨subscriber, subscribed, applies⟩)
    · have untouched := Subscriber.applyKeys_untouched applied
        (.inr ((not_and_or.mp applies).imp_right Bool.eq_false_of_not_eq_true)) (ConfigStore.payload store key)
      simp [DegradationManager.Applies, subscribed, applies, untouched]

end

/-- A load that succeeds leaves every cached payload that its handler accepts in force exactly if, for each of them, the
manager has a subscriber with a handler that can apply it, or it was in force before. -/
theorem cached_config_in_force_iff (decoding : Decoding) {manager : DegradationManager} {first second : StoreFaults}
    {config : LiveConfig} (loaded : (manager.loadCachedConfig decoding first second config).1 = .ok () ∧
      (manager.loadCachedConfig decoding first second config).2.1.hasCachedConfig = true) :
    (∀ scope payload, manager.cached scope = some payload → (config.handle decoding scope payload).1 = .ok () →
        (manager.loadCachedConfig decoding first second config).2.2.InForce decoding payload scope) ↔
      ∀ scope payload, manager.cached scope = some payload → (config.handle decoding scope payload).1 = .ok () →
        manager.Applies config scope ∨ config.InForce decoding payload scope := by
  constructor
  · intro inForce scope payload cached accepted
    exact (DegradationManager.inForce_iff loaded.1 cached).mp (inForce scope payload cached accepted)
  · intro applies scope payload cached accepted
    exact (DegradationManager.inForce_iff loaded.1 cached).mpr (applies scope payload cached accepted)

namespace Sample

def slowerText : String := "\x7b\"profiles\":[\x7b\"name\":\"default\",\"rate_limit\":5,\"rate_burst\":5," ++
  "\"enforcement_mode\":\"enforce\"\x7d]\x7d"

def clusterText : String := "\x7b\"spiffe_allow_list\":[\"spiffe://cluster.local/\"]\x7d"

def decoding : Decoding where
  policy text := if text = slowerText then slower else .error "decode policy config"
  servers text := if text = clusterText then .ok ["spiffe://cluster.local/"] else .error "decode server config"
  serverSettings _ := .error "decode server settings config"
  auth _ := .error "decode auth config"
  toolMetadata _ := .error "decode tool metadata"
  settingsVersion _ := none

def starting : LiveConfig where
  policy := initPolicyAndRateLimit none []
  handlers := (Handlers.new Registration.Sample.service []).bindRegistrationService
  toolMetadata := none

def cache : ConfigStore := (AList.insert "config.policy" slowerText ∅).insert "config.servers" clusterText

def managing (subscriber : Option Subscriber) : DegradationManager :=
  ⟨some cache, subscriber, .disconnected, false, ∅, "unknown", 0⟩

def faultless : StoreFaults := ⟨false, fun _ => false⟩

def subscribed : Subscriber := ⟨true, [.policy, .servers, .serverSettings, .auth, .toolMetadata]⟩

end Sample

open Sample

theorem subscribed_cache_in_force :
    let final := ((managing (some subscribed)).loadCachedConfig decoding faultless faultless starting).2.2
    final.InForce decoding slowerText .policy ∧ final.InForce decoding clusterText .servers := by
  have inForce := (cached_config_in_force_iff decoding
    (show ((managing (some subscribed)).loadCachedConfig decoding faultless faultless
        starting).1 = .ok () ∧ _ from ⟨by decide +kernel, by decide +kernel⟩)).mpr
    fun scope payload _ _ => .inl ⟨subscribed, rfl, by cases scope <;> decide, by cases scope <;> rfl⟩
  exact ⟨inForce .policy slowerText (by decide +kernel) (by decide +kernel),
    inForce .servers clusterText (by decide +kernel) (by decide +kernel)⟩

theorem cached_config_not_applied :
    let loaded :=
      (managing none).loadCachedConfig decoding faultless faultless starting
    loaded.1 = .ok () ∧ loaded.2.1.hasCachedConfig = true ∧ loaded.2.1.status = .degraded ∧
      (managing none).cached .policy = some slowerText ∧ (managing none).cached .servers = some clusterText ∧
      (starting.handle decoding .policy slowerText).1 = .ok () ∧
      limits ((starting.handle decoding .policy slowerText).2.policy.engine.resolveProfile "default") =
        (5, 5) ∧
      limits (loaded.2.2.policy.engine.resolveProfile "default") = (10, 20) ∧
      (starting.handle decoding .servers clusterText).1 = .ok () ∧
      (starting.handle decoding .servers clusterText).2.handlers.service.spiffeAllowList =
        ["spiffe://cluster.local/"] ∧
      loaded.2.2.handlers.service.spiffeAllowList = [] := by
  decide +kernel

end McpGateway.Events
