import McpGateway.Policy.Engine
import McpGateway.Registration.Service

namespace McpGateway.Events

open Shared Policy Registration

def defaultProfiles (config : Option Config) : GoMap String PolicyProfile :=
  ((AList.insert "default" (defaultPolicyProfile config) ∅).insert "premium"
    ⟨"premium", 50, 100, [], [], .enforce⟩).insert "admin" ⟨"admin", 100, 200, [], [], .enforce⟩

structure DefaultProfileResolver where
  profiles : GoMap String PolicyProfile
  defaultProfile : PolicyProfile

def DefaultProfileResolver.named (resolver : DefaultProfileResolver) (profileName : String) : PolicyProfile :=
  if trimSpace profileName = "" then resolver.defaultProfile
  else (resolver.profiles.lookup (trimSpace profileName)).getD resolver.defaultProfile

def clientProfile (identity : Identity) : String :=
  (identity.metadata.lookup "policy_profile").getD ""

def DefaultProfileResolver.resolve (resolver : DefaultProfileResolver) (identity : Option Identity) : PolicyProfile :=
  resolver.named ((identity.map clientProfile).getD "")

-- Go ranges over the profiles in any order, so of names that differ in blanks only one survives.
def copyProfiles (profiles : GoMap String PolicyProfile) : GoMap String (Option PolicyProfile) :=
  let copied := (profiles.entries.map fun entry => (⟨trimSpace entry.1, some entry.2⟩ :
    Sigma fun _ : String => Option PolicyProfile)).toAList
  if (copied.lookup "default").isSome then copied else copied.insert "default" (some Policy.defaultProfile)

def newEngine (profiles : GoMap String PolicyProfile) (patterns : List Pattern) : Engine :=
  ⟨copyProfiles profiles, patterns⟩

def replaceProfiles (engine : Engine) (profiles : GoMap String PolicyProfile) : Engine :=
  { engine with profiles := copyProfiles profiles }

-- MemoryBackend.SetDefaults; the float64 of a profile's limit is exact.
structure BackendDefaults where
  rate : Int
  burst : Int

def setDefaults (rate burst : Int) : BackendDefaults :=
  ⟨if rate ≤ 0 then 10 else rate, if burst ≤ 0 then 20 else burst⟩

def normalizeStringList (values : List String) : List String :=
  values.foldl (fun out value =>
    if trimSpace value = "" ∨ trimSpace value ∈ out then out else out ++ [trimSpace value]) []

def normalizePolicyProfile (profile : PolicyProfile) : Except String PolicyProfile :=
  let name := trimSpace profile.name
  if name = "" then .error "policy profile name is required"
  else if profile.rateLimit ≤ 0 then .error ("policy profile " ++ quote name ++ " rate_limit must be positive")
  else if profile.rateBurst ≤ 0 then .error ("policy profile " ++ quote name ++ " rate_burst must be positive")
  else if profile.enforcementMode ≠ .enforce ∧ profile.enforcementMode ≠ .audit then
    .error ("policy profile " ++ quote name ++ " enforcement_mode must be enforce or audit")
  else
    .ok ⟨name, profile.rateLimit, profile.rateBurst, normalizeStringList profile.toolAllowlist,
      normalizeStringList profile.toolDenylist, profile.enforcementMode⟩

def collectProfiles (collected : GoMap String PolicyProfile) : List PolicyProfile →
    Except String (GoMap String PolicyProfile)
  | [] => .ok collected
  | profile :: rest =>
    match normalizePolicyProfile profile with
    | .error detail => .error detail
    | .ok normalized => collectProfiles (collected.insert normalized.name normalized) rest

abbrev PolicyConfigMessage := Except String (List PolicyProfile)

def readMessage (message : PolicyConfigMessage) : Except String DefaultProfileResolver :=
  match message with
  | .error detail => .error ("handle policy config: " ++ detail)
  | .ok [] => .error "handle policy config: profiles must not be empty"
  | .ok listed =>
    match collectProfiles ∅ listed with
    | .error detail => .error ("handle policy config: " ++ detail)
    | .ok profiles =>
      match profiles.lookup "default" with
      | none => .error "handle policy config: default profile is required"
      | some defaultProfile => .ok ⟨profiles, defaultProfile⟩

structure PolicyState where
  engine : Engine
  resolver : DefaultProfileResolver
  backend : BackendDefaults

def initPolicyAndRateLimit (config : Option Config) (patterns : List Pattern) : PolicyState where
  engine := newEngine (defaultProfiles config) patterns
  resolver := ⟨defaultProfiles config, defaultPolicyProfile config⟩
  backend := setDefaults (defaultPolicyProfile config).rateLimit (defaultPolicyProfile config).rateBurst

-- PolicyConfigHandler.Handle. The server gives the handler no store to save the message in.
def PolicyState.handlePolicyConfig (state : PolicyState) (message : PolicyConfigMessage) :
    Except String Unit × PolicyState :=
  match readMessage message with
  | .error detail => (.error detail, state)
  | .ok read =>
    (.ok (), { state with
      engine := replaceProfiles state.engine read.profiles
      backend := setDefaults read.defaultProfile.rateLimit read.defaultProfile.rateBurst })

def PolicyState.step (state : PolicyState) (message : PolicyConfigMessage) : PolicyState :=
  (state.handlePolicyConfig message).2

def limits (profile : PolicyProfile) : Int × Int :=
  (profile.rateLimit, profile.rateBurst)

def PolicyState.Agrees (state : PolicyState) : Prop :=
  ∀ identity : Identity,
    limits (state.resolver.resolve (some identity)) = limits (state.engine.resolveProfile (clientProfile identity))

/-- The message is refused or leaves every profile name with the limits it has had since the start. -/
def KeepsLimits (config : Option Config) (message : PolicyConfigMessage) : Prop :=
  ∀ read, readMessage message = .ok read → ∀ profileName,
    limits (read.named profileName) =
      limits (DefaultProfileResolver.named ⟨defaultProfiles config, defaultPolicyProfile config⟩ profileName)

def Trimmed (profiles : GoMap String PolicyProfile) : Prop :=
  ∀ name ∈ profiles.keys, trimSpace name = name

theorem normalizePolicyProfile_name {profile normalized : PolicyProfile}
    (accepted : normalizePolicyProfile profile = .ok normalized) : trimSpace normalized.name = normalized.name := by
  unfold normalizePolicyProfile at accepted
  dsimp only at accepted
  split_ifs at accepted
  cases accepted
  exact trimSpace_trimSpace _

variable {profiles : GoMap String PolicyProfile} {defaultProfile : PolicyProfile}

theorem collectProfiles_trimmed {collected : GoMap String PolicyProfile} {listed : List PolicyProfile}
    (trimmed : Trimmed collected) (accepted : collectProfiles collected listed = .ok profiles) : Trimmed profiles := by
  induction listed generalizing collected with
  | nil =>
    cases accepted
    exact trimmed
  | cons profile rest ih =>
    simp only [collectProfiles] at accepted
    cases checked : normalizePolicyProfile profile with
    | error detail => simp [checked] at accepted
    | ok normalized =>
      simp only [checked] at accepted
      refine ih (fun name mem => ?_) accepted
      rw [AList.keys_insert, List.mem_cons] at mem
      cases mem with
      | inl new => rw [new, normalizePolicyProfile_name checked]
      | inr old => exact trimmed name (List.mem_of_mem_erase old)

theorem lookup_copyProfiles (trimmed : Trimmed profiles) (present : profiles.lookup "default" = some defaultProfile)
    (name : String) : (copyProfiles profiles).lookup name = (profiles.lookup name).map some := by
  have lookup (other : String) : (profiles.entries.map fun entry => (⟨trimSpace entry.1, some entry.2⟩ :
      Sigma fun _ : String => Option PolicyProfile)).dlookup other = (profiles.lookup other).map some := by
    have each := List.map_congr_left fun entry (mem : entry ∈ profiles.entries) =>
      congrArg (fun name => (⟨name, some entry.2⟩ : Sigma fun _ : String => Option PolicyProfile))
        (trimmed entry.1 (List.mem_map_of_mem mem))
    exact (congrArg (List.dlookup other) each).trans (List.dlookup_map₂ (f := fun _ => some) other)
  simp only [copyProfiles, AList.lookup_to_alist, lookup, present, Option.map_some, Option.isSome_some, if_true]

theorem resolveProfile_copied (trimmed : Trimmed profiles) (present : profiles.lookup "default" = some defaultProfile)
    (patterns : List Pattern) (profileName : String) : (newEngine profiles patterns).resolveProfile profileName =
      DefaultProfileResolver.named ⟨profiles, defaultProfile⟩ profileName := by
  have profile (name : String) : (newEngine profiles patterns).profile name = profiles.lookup name := by
    simp only [newEngine, Engine.profile, lookup_copyProfiles trimmed present]
    cases profiles.lookup name <;> rfl
  simp only [Engine.resolveProfile, profile, present, DefaultProfileResolver.named]
  split_ifs
  · rfl
  · cases profiles.lookup (trimSpace profileName) <;> rfl

theorem readMessage_ok {message : PolicyConfigMessage} {read : DefaultProfileResolver}
    (accepted : readMessage message = .ok read) :
    Trimmed read.profiles ∧ read.profiles.lookup "default" = some read.defaultProfile := by
  unfold readMessage at accepted
  split at accepted
  · cases accepted
  · cases accepted
  · split at accepted
    · cases accepted
    next profiles collected =>
      split at accepted
      · cases accepted
      next defaultProfile present =>
        cases accepted
        exact ⟨collectProfiles_trimmed (by simp [Trimmed]) collected, present⟩

theorem defaultProfiles_trimmed (config : Option Config) : Trimmed (defaultProfiles config) ∧
      (defaultProfiles config).lookup "default" = some (defaultPolicyProfile config) := by
  constructor
  · have names : ∀ name ∈ ["admin", "premium", "default"], trimSpace name = name := by decide
    simpa [Trimmed, defaultProfiles] using names
  · simp only [defaultProfiles, GoMap.lookup_insert_eq]
    rfl

section

variable {config : Option Config} {state : PolicyState}

def PolicyState.Started (config : Option Config) (state : PolicyState) : Prop :=
  state.resolver = ⟨defaultProfiles config, defaultPolicyProfile config⟩ ∧ state.Agrees

theorem agrees_iff (started : state.resolver = ⟨defaultProfiles config, defaultPolicyProfile config⟩)
    {profiles : DefaultProfileResolver}
    (reads : ∀ profileName, state.engine.resolveProfile profileName = profiles.named profileName) :
    state.Agrees ↔ ∀ profileName, limits (profiles.named profileName) =
      limits (DefaultProfileResolver.named ⟨defaultProfiles config, defaultPolicyProfile config⟩ profileName) := by
  constructor
  · intro agrees profileName
    have client := agrees ⟨.apikey, "", [], AList.insert "policy_profile" profileName ∅⟩
    simp only [DefaultProfileResolver.resolve, clientProfile, Option.map_some, Option.getD_some, AList.lookup_insert,
      started, reads] at client
    exact client.symm
  · intro same identity
    simp [DefaultProfileResolver.resolve, started, reads, same]

theorem started_initPolicyAndRateLimit (config : Option Config) (patterns : List Pattern) :
    (initPolicyAndRateLimit config patterns).Started config := by
  obtain ⟨trimmed, present⟩ := defaultProfiles_trimmed config
  have engine : (initPolicyAndRateLimit config patterns).engine = newEngine (defaultProfiles config) patterns := by
    simp only [initPolicyAndRateLimit]
  have resolver : (initPolicyAndRateLimit config patterns).resolver =
      ⟨defaultProfiles config, defaultPolicyProfile config⟩ := by
    simp only [initPolicyAndRateLimit]
  refine ⟨resolver, (agrees_iff resolver fun profileName => ?_).mpr fun _ => rfl⟩
  rw [engine, resolveProfile_copied trimmed present]

theorem PolicyState.Started.step_agrees_iff (started : state.Started config) (message : PolicyConfigMessage) :
    (state.step message).Agrees ↔ KeepsLimits config message := by
  cases read : readMessage message with
  | error detail => simpa [PolicyState.step, PolicyState.handlePolicyConfig, KeepsLimits, read] using started.2
  | ok profiles =>
    obtain ⟨trimmed, present⟩ := readMessage_ok read
    have reads := resolveProfile_copied trimmed present state.engine.dangerousPatterns
    have next : (state.step message).engine = newEngine profiles.profiles state.engine.dangerousPatterns := by
      simp [PolicyState.step, PolicyState.handlePolicyConfig, read, replaceProfiles, newEngine]
    have kept : (state.step message).resolver = ⟨defaultProfiles config, defaultPolicyProfile config⟩ := by
      simpa [PolicyState.step, PolicyState.handlePolicyConfig, read] using started.1
    rw [agrees_iff kept (fun profileName => by rw [next, reads])]
    simp [KeepsLimits, read]

theorem PolicyState.Started.step (started : state.Started config) {message : PolicyConfigMessage}
    (keeps : KeepsLimits config message) : (state.step message).Started config := by
  refine ⟨?_, (started.step_agrees_iff message).mpr keeps⟩
  cases read : readMessage message <;> simpa [PolicyState.step, PolicyState.handlePolicyConfig, read] using started.1

end

/-- After every message the limiter and the policy engine go by the same profiles exactly if no message that is accepted
gives a profile name other limits than it had at the start. -/
theorem profiles_agree_iff (config : Option Config) (patterns : List Pattern) (messages : List PolicyConfigMessage) :
    Along PolicyState.step (fun state message => (state.step message).Agrees) (initPolicyAndRateLimit config patterns)
        messages ↔ ∀ message ∈ messages, KeepsLimits config message := by
  refine (Along.congr_of_invariant (started_initPolicyAndRateLimit config patterns) ?_ ?_).trans along_iff_forall
  · intro state message started keeps
    exact started.step keeps
  · intro state message started
    exact started.step_agrees_iff message

namespace Sample

def slower : PolicyConfigMessage := .ok [⟨"default", 5, 5, [], [], .enforce⟩]

def startClient : Identity := ⟨.apikey, "ci", [], ∅⟩

end Sample

theorem updated_profile_disagrees :
    let state := (initPolicyAndRateLimit none []).step Sample.slower
    limits (state.engine.resolveProfile (clientProfile Sample.startClient)) = (5, 5) ∧
      limits (state.resolver.resolve (some Sample.startClient)) = (10, 20) := by
  decide +kernel

end McpGateway.Events
