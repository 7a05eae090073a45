import McpGateway.Events.ServerConfig
import McpGateway.Shared.Nested

namespace McpGateway.Events

open Shared Registration

inductive BackendCall where
  | register (registry : Registry) (caller : Option Identity) (request : RegistrationRequest) (context : RegisterContext)
  | heartbeat (registry : Registry) (caller : Option Identity) (id : String) (request : HeartbeatRequest)
      (context : HeartbeatContext)

structure Answer where
  serverName : String
  configVersion : Int
  effectiveSettings : Object

-- The settings that Register and Heartbeat answer with, and the name they look them up under.
def answer (service : Service) : BackendCall → Option Answer
  | .register registry caller request context =>
    match (service.register registry caller request context).1 with
    | .ok reply => some ⟨trimSpace request.serviceName, reply.configVersion, reply.effectiveSettings⟩
    | .error _ => none
  | .heartbeat registry caller id request context =>
    match heartbeatRecord registry.table caller id, (service.heartbeat registry caller id request context).1 with
    | .ok record, .ok reply => some ⟨record.name, reply.configVersion, reply.effectiveSettings⟩
    | _, _ => none

variable {record : ServerRecord} {key : String} {value : Value} {settingsByServer built : GoMap String Object}
  {settings : Object} {servers : List ServerSettingsConfig}

theorem heartbeat_settings {service : Service} {registry : Registry} {caller : Option Identity} {id : String}
    {request : HeartbeatRequest} {context : HeartbeatContext} {reply : HeartbeatResponse}
    (found : heartbeatRecord registry.table caller id = .ok record)
    (answered : (service.heartbeat registry caller id request context).1 = .ok reply) :
    (reply.configVersion, reply.effectiveSettings) = service.effectiveSettingsForServer record.name := by
  have finished (registry : Registry) (status : ServerStatus) :
      ((service.finishHeartbeat registry record status request context).1.configVersion,
        (service.finishHeartbeat registry record status request context).1.effectiveSettings) =
        service.effectiveSettingsForServer record.name := by
    unfold Service.finishHeartbeat
    split <;> rfl
  rw [Service.heartbeat, found] at answered
  dsimp only at answered
  split_ifs at answered
  · cases answered
    rfl
  unfold Service.recordHeartbeat at answered
  split at answered
  · cases answered
  split at answered <;> cases answered
  exact finished _ _

theorem answer_settings {service : Service} {call : BackendCall} {answered : Answer}
    (found : answer service call = some answered) :
    (answered.configVersion, answered.effectiveSettings) = service.effectiveSettingsForServer answered.serverName := by
  unfold answer at found
  split at found <;> split at found <;> cases found
  next registry caller request context reply ok =>
    unfold Service.register at ok
    split at ok
    · cases ok
    split at ok <;> cases ok
    next written => rw [← (service.writeRegistration_ok written).1, Service.registrationResponse]
  next record reply read ok => exact heartbeat_settings read ok

def Forbidden (key : String) : Prop := ∃ word ∈ forbiddenSettings, contains (toLower (trimSpace key)) word = true

def Clean : Value → Prop := Value.Inside (∀ name ∈ ·.keys, ¬ Forbidden name)

theorem settingKeyError_none (accepted : settingKeyError key = none) : ¬ Forbidden key := by
  unfold settingKeyError at accepted
  split_ifs at accepted with blank secret
  simpa [Forbidden] using secret

theorem clean_of_validate (accepted : validateNonSecretSetting key value = none) : ¬ Forbidden key ∧ Clean value := by
  induction value using Value.nested_induction generalizing key with
  | array items ih =>
    obtain ⟨own, below⟩ := Option.or_eq_none_iff.mp accepted
    refine ⟨settingKeyError_none own, Value.inside_array.mpr ⟨by simp [Value.keys], ?_⟩⟩
    clear accepted
    induction items with
    | nil => simp
    | cons item items rest =>
      obtain ⟨first, below⟩ := Option.or_eq_none_iff.mp below
      obtain ⟨itemIh, ih⟩ := List.forall_mem_cons.mp ih
      exact List.forall_mem_cons.mpr ⟨(itemIh first).2, rest ih below⟩
  | object entries ih =>
    obtain ⟨own, below⟩ := Option.or_eq_none_iff.mp accepted
    have each : ∀ entry ∈ entries, ¬ Forbidden entry.1 ∧ Clean entry.2 := by
      clear accepted
      induction entries with
      | nil => simp
      | cons entry entries rest =>
        obtain ⟨first, below⟩ := Option.or_eq_none_iff.mp below
        obtain ⟨entryIh, ih⟩ := List.forall_mem_cons.mp ih
        exact List.forall_mem_cons.mpr ⟨entryIh first, rest ih below⟩
    refine ⟨settingKeyError_none own, Value.inside_object.mpr ⟨?_, fun entry mem => (each entry mem).2⟩⟩
    exact List.forall_mem_map.mpr fun entry mem => (each entry mem).1
  | _ => exact ⟨settingKeyError_none accepted, by simp [Clean, Value.Inside, Value.walk, Value.keys]⟩

def cloneItem : Value → Value
  | .object entries => cloneSetting (.object entries)
  | item => item

theorem cloneItems_eq (items : List Value) : cloneItems items = items.map cloneItem := by
  induction items with
  | nil => rw [cloneItems, List.map_nil]
  | cons item items ih => cases item <;> simp [cloneItems, cloneItem, cloneSetting, ih]

theorem cloneSettings_forall {cloned entries : Object} (holds : String → Value → Prop)
    (start : ∀ entry ∈ cloned, holds entry.1 entry.2)
    (each : ∀ entry ∈ entries, trimSpace entry.1 ≠ "" → holds (trimSpace entry.1) (cloneSetting entry.2)) :
    ∀ entry ∈ cloneSettings cloned entries, holds entry.1 entry.2 := by
  induction entries generalizing cloned with
  | nil =>
    rw [cloneSettings]
    exact start
  | cons entry entries ih =>
    obtain ⟨first, each⟩ := List.forall_mem_cons.mp each
    rw [cloneSettings]
    split_ifs with blank
    · exact ih start each
    · refine ih (fun other mem => ?_) each
      cases List.mem_cons.mp mem with
      | inl same => exact same ▸ first blank
      | inr old => exact start other (List.mem_of_mem_filter old)

theorem Clean.cloneSetting (clean : Clean value) : Clean (cloneSetting value) := by
  induction value using Value.nested_induction with
  | array items ih =>
    rw [Registration.cloneSetting, cloneItems_eq]
    refine Value.inside_array.mpr ⟨by simp [Value.keys], List.forall_mem_map.mpr fun item mem => ?_⟩
    have below := (Value.inside_array.mp clean).2 item mem
    cases item with
    | object entries => exact ih _ mem below
    | _ => exact below
  | object entries ih =>
    obtain ⟨keys, each⟩ := Value.inside_object.mp clean
    have cloned := cloneSettings_forall (fun name value => ¬ Forbidden name ∧ Clean value) (List.forall_mem_nil _)
      fun entry mem _ => ⟨by
        simpa [Forbidden] using keys entry.1 (List.mem_map_of_mem mem), ih entry mem (each entry mem)⟩
    rw [Registration.cloneSetting]
    refine Value.inside_object.mpr ⟨?_, fun entry mem => (cloned entry mem).2⟩
    exact List.forall_mem_map.mpr fun entry mem => (cloned entry mem).1
  | _ => simpa [Registration.cloneSetting] using clean

theorem mem_copySettings {name : String} (found : (copySettings settingsByServer).lookup name = some settings) :
    ∃ key given, settingsByServer.lookup key = some given ∧ trimSpace key ≠ "" ∧ name = trimSpace key ∧
      settings = cloneSettings [] given := by
  rw [copySettings, AList.lookup_to_alist] at found
  obtain ⟨entry, mem, kept⟩ := List.mem_filterMap.mp (List.of_mem_dlookup found)
  split_ifs at kept with named
  cases kept
  exact ⟨entry.1, entry.2, AList.mem_lookup_iff.mpr mem, named, rfl, rfl⟩

def AllClean (settingsByServer : GoMap String Object) : Prop :=
  ∀ name settings, settingsByServer.lookup name = some settings → Clean (.object settings)

theorem Clean.cloneSettings (clean : Clean (.object settings)) : Clean (.object (cloneSettings [] settings)) := by
  simpa [Registration.cloneSetting] using clean.cloneSetting

theorem buildValidated_forall (holds : String → Object → Prop) {out : GoMap String Object}
    (accepted : buildValidatedServerSettings out servers = .ok built)
    (start : ∀ name settings, out.lookup name = some settings → holds name settings)
    (each : ∀ entry ∈ servers, trimSpace entry.serverName ≠ "" →
      settingsError (trimSpace entry.serverName) entry.effectiveSettings = none →
      holds (trimSpace entry.serverName) (cloneSettings [] entry.effectiveSettings)) :
    ∀ name settings, built.lookup name = some settings → holds name settings := by
  induction servers generalizing out with
  | nil =>
    cases accepted
    exact start
  | cons entry rest ih =>
    obtain ⟨first, each⟩ := List.forall_mem_cons.mp each
    unfold buildValidatedServerSettings at accepted
    split_ifs at accepted with blank
    split at accepted
    · cases accepted
    next valid =>
      refine ih accepted (fun name settings found => ?_) each
      rw [GoMap.lookup_insert_eq] at found
      split_ifs at found with own
      · cases found
        exact own ▸ first blank valid
      · exact start name settings found

theorem buildValidated_clean (accepted : buildValidatedServerSettings ∅ servers = .ok built) : AllClean built := by
  refine buildValidated_forall _ accepted (fun _ _ found => by simp at found) fun entry _ _ valid => ?_
  have each : ∀ setting ∈ entry.effectiveSettings, ¬ Forbidden setting.1 ∧ Clean setting.2 := fun setting mem =>
    clean_of_validate (by simpa using List.findSome?_eq_none_iff.mp valid setting mem)
  exact Clean.cloneSettings (Value.inside_object.mpr
    ⟨List.forall_mem_map.mpr fun setting mem => (each setting mem).1, fun setting mem => (each setting mem).2⟩)

theorem copySettings_clean (clean : AllClean settingsByServer) : AllClean (copySettings settingsByServer) := by
  intro name settings found
  obtain ⟨key, given, held, -, -, rfl⟩ := mem_copySettings found
  exact (clean key given held).cloneSettings

def Handlers.after (handlers : Handlers) : Option Delivery → Handlers
  | none => handlers.bindRegistrationService
  | some delivery => handlers.deliver delivery

def Handlers.Clean (handlers : Handlers) : Prop := AllClean handlers.service.effectiveSettings

theorem Handlers.after_clean {handlers : Handlers} (clean : handlers.Clean) (step : Option Delivery) :
    (handlers.after step).Clean := by
  match step with
  | none => exact clean
  | some (.allowList (.error _)) => exact clean
  | some (.allowList (.ok spiffeAllowList)) =>
    simp only [after, deliver, handleServerConfig]
    split_ifs
    · unfold Service.handleServerConfig
      split <;> exact clean
    · exact clean
  | some (.settings (.error _)) => exact clean
  | some (.settings (.ok message)) =>
    simp only [after, deliver, handleServerSettings]
    split
    · exact clean
    split
    · exact clean
    next built valid =>
      split
      · split
        · exact clean
        next updated =>
          unfold updateEffectiveSettings at updated
          split_ifs at updated
          cases updated
          exact copySettings_clean (buildValidated_clean valid)
      · exact clean

/-- No backend is ever told a setting whose key, at any depth, contains a forbidden word. -/
theorem no_secret_served (service : Service) (configured : List String) (steps : List (Option Delivery))
    (call : BackendCall) (answered : Answer)
    (served : answer (run Handlers.after (.new service configured) steps).service call = some answered) :
    Clean (.object answered.effectiveSettings) := by
  have initial : (Handlers.new service configured).Clean := fun _ _ found => by simp [Handlers.new] at found
  have every : Along Handlers.after (fun _ _ => True) (.new service configured) steps :=
    along_iff_forall.mpr fun _ _ => trivial
  have clean := every.run_invariant initial fun _ step held _ => Handlers.after_clean held step
  have settings := congrArg Prod.snd (answer_settings served)
  simp only [Service.effectiveSettingsForServer] at settings
  rw [settings]
  split
  next held => exact (clean _ _ held).cloneSettings
  next => simp [Clean, Value.Inside, Value.walk, Value.walkEntries, Value.keys]

namespace Sample

def registers : BackendCall :=
  .register Registration.Sample.registry (some Registration.Sample.caller) (Registration.Sample.request ["list_pods"])
    Registration.Sample.context

def debug : Object := [("log_level", .string "debug")]

end Sample

open Sample

theorem log_level_served : ∃ answered,
      answer (run Handlers.after (.new Registration.Sample.service ["spiffe://cluster.local/"])
        [none, some (verbose 1)]).service Sample.registers = some answered ∧
      deepEqual (.object answered.effectiveSettings) (.object debug) = true ∧
      Clean (.object answered.effectiveSettings) := by
  have said : ((answer (run Handlers.after (.new Registration.Sample.service ["spiffe://cluster.local/"])
      [none, some (verbose 1)]).service Sample.registers).any fun answered =>
        deepEqual (.object answered.effectiveSettings) (.object debug)) = true := by decide +kernel
  cases found : answer (run Handlers.after (.new Registration.Sample.service ["spiffe://cluster.local/"])
      [none, some (verbose 1)]).service Sample.registers with
  | none => simp [found] at said
  | some answered => exact ⟨answered, rfl, by simpa [found] using said, no_secret_served _ _ _ _ _ found⟩

end McpGateway.Events
