import McpGateway.Events.PolicyConfig

namespace McpGateway

open Shared Events

/-- The profile bars whatever the other one bars: more names denied, fewer allowed, no audit mode of its own. -/
structure PolicyProfile.Tightens (tight loose : PolicyProfile) : Prop where
  denies : ∀ entry ∈ loose.toolDenylist, ∃ denied ∈ tight.toolDenylist, trimSpace denied = trimSpace entry
  allows : loose.toolAllowlist = [] ∨ (tight.toolAllowlist ≠ [] ∧
    ∀ entry ∈ tight.toolAllowlist, ∃ allowed ∈ loose.toolAllowlist, trimSpace allowed = trimSpace entry)
  audits : tight.enforcementMode = .audit → loose.enforcementMode = .audit

namespace Policy

structure Engine.DifferAt (name : String) (left right : Engine) : Prop where
  patterns : left.dangerousPatterns = right.dangerousPatterns
  others : ∀ other, other ≠ name → left.profile other = right.profile other

variable {tight loose : PolicyProfile} {name : String} {left right : Engine}

theorem listContains_iff (values : List String) (expected : String) :
    listContains values expected = true ↔ ∃ value ∈ values, trimSpace value = trimSpace expected := by
  simp [listContains]

theorem listsBar_iff (profile : PolicyProfile) (toolName : String) : listsBar profile toolName = true ↔
      (profile.toolAllowlist ≠ [] ∧ ¬ ∃ value ∈ profile.toolAllowlist, trimSpace value = trimSpace toolName) ∨
        ∃ value ∈ profile.toolDenylist, trimSpace value = trimSpace toolName := by
  rw [← listContains_iff, ← listContains_iff]
  simp [listsBar]

theorem listsBar_of_tightens (tightens : tight.Tightens loose) {toolName : String}
    (barred : listsBar loose toolName = true) : listsBar tight toolName = true := by
  rw [listsBar_iff] at barred ⊢
  cases barred with
  | inl unlisted =>
    obtain ⟨restricted, missing⟩ := unlisted
    -- an empty allowlist lets every name through, so only a restricted one can be narrowed
    obtain ⟨nonempty, contained⟩ := tightens.allows.resolve_left restricted
    refine .inl ⟨nonempty, fun listed => missing ?_⟩
    obtain ⟨entry, mem, same⟩ := listed
    obtain ⟨allowed, held, alike⟩ := contained entry mem
    exact ⟨allowed, held, alike.trans same⟩
  | inr listed =>
    obtain ⟨entry, mem, same⟩ := listed
    obtain ⟨denied, held, alike⟩ := tightens.denies entry mem
    exact .inr ⟨denied, held, alike.trans same⟩

theorem Engine.DifferAt.fallback (differ : left.DifferAt name right) (inLeft : left.profile name = some loose)
    (inRight : right.profile name = some tight) :
    (left.profile "default").getD defaultProfile = (right.profile "default").getD defaultProfile ∨
      ((left.profile "default").getD defaultProfile = loose ∧
        (right.profile "default").getD defaultProfile = tight) := by
  by_cases same : "default" = name
  · rw [same, inLeft, inRight]
    exact .inr ⟨rfl, rfl⟩
  · rw [differ.others _ same]
    exact .inl rfl

theorem Engine.DifferAt.resolveProfile (differ : left.DifferAt name right) (inLeft : left.profile name = some loose)
    (inRight : right.profile name = some tight) (requested : String) :
    left.resolveProfile requested = right.resolveProfile requested ∨
      (left.resolveProfile requested = loose ∧ right.resolveProfile requested = tight) := by
  unfold Engine.resolveProfile
  by_cases unnamed : trimSpace requested = ""
  · simpa [unnamed] using differ.fallback inLeft inRight
  · simp only [if_neg unnamed]
    by_cases same : trimSpace requested = name
    · simp [same, inLeft, inRight]
    · rw [differ.others _ same]
      cases right.profile (trimSpace requested) with
      | none => simpa using differ.fallback inLeft inRight
      | some profile => simp

/-- What is allowed with a tightened profile in force is allowed with the profile it tightens, and what is resolved as
destructive is denied with both. -/
theorem tightening_allows_no_more (differ : left.DifferAt name right) (inLeft : left.profile name = some loose)
    (inRight : right.profile name = some tight) (tightens : tight.Tightens loose) (classifier : Option Classifier)
    (request : PolicyRequest) (lookup : Lookup) : ((right.evaluate classifier request lookup).1.allowed = true →
        (left.evaluate classifier request lookup).1.allowed = true) ∧
      ((∃ used ∈ classifier, (resolveRiskLevel used (trimSpace request.toolName) lookup).1 = .destructive) →
        (left.evaluate classifier request lookup).1.allowed = false ∧
          (right.evaluate classifier request lookup).1.allowed = false) := by
  have arguments : left.argumentViolations request = right.argumentViolations request := by
    rw [Engine.argumentViolations, Engine.argumentViolations, differ.patterns]
  constructor
  · rw [Engine.evaluate_allowed, Engine.evaluate_allowed, arguments]
    rintro ⟨harmless, allowed⟩
    refine ⟨harmless, ?_⟩
    cases differ.resolveProfile inLeft inRight request.profileName with
    | inl same => rwa [same]
    | inr resolved =>
      rw [resolved.2] at allowed
      rw [resolved.1]
      cases allowed with
      | inl audits => exact .inl (tightens.audits audits)
      | inr clean =>
        refine .inr ⟨clean.1, Bool.eq_false_iff.mpr fun barred => ?_⟩
        exact Bool.eq_false_iff.mp clean.2 (listsBar_of_tightens tightens barred)
  · rintro ⟨used, held, destructive⟩
    cases held
    simp [Engine.evaluate_eq, destructive, destructiveDecision]

theorem copyProfiles_insert (profiles : GoMap String PolicyProfile) (name : String) :
    ∃ rest : GoMap String (Option PolicyProfile), ∀ profile other,
      (copyProfiles (profiles.insert name profile)).lookup other =
        if other = trimSpace name then some (some profile)
        else if other = "default" then some ((rest.lookup other).getD (some defaultProfile))
        else rest.lookup other := by
  refine ⟨((profiles.entries.kerase name).map fun entry => (⟨trimSpace entry.1, some entry.2⟩ :
    Sigma fun _ : String => Option PolicyProfile)).toAList, fun profile other => ?_⟩
  generalize rests : ((profiles.entries.kerase name).map fun entry => (⟨trimSpace entry.1, some entry.2⟩ :
    Sigma fun _ : String => Option PolicyProfile)).toAList = rest
  have copied : copyProfiles (profiles.insert name profile) =
      if ((AList.insert (trimSpace name) (some profile) rest).lookup "default").isSome then
        AList.insert (trimSpace name) (some profile) rest
      else (AList.insert (trimSpace name) (some profile) rest).insert "default" (some defaultProfile) := by
    rw [← rests]
    rfl
  rw [copied, GoMap.lookup_insert_eq]
  by_cases named : "default" = trimSpace name
  · by_cases own : other = trimSpace name
    · subst own
      simp [named]
    · simp [named, own]
  · by_cases standard : other = "default"
    · subst standard
      cases present : rest.lookup "default" with
      | some stored => simp [named, present]
      | none => simp [named]
    · cases present : rest.lookup "default" with
      | some stored => simp [named, GoMap.lookup_insert_eq, standard]
      | none => simp [named, GoMap.lookup_insert_eq, standard]

theorem replaceProfiles_differAt (engine : Engine) (profiles : GoMap String PolicyProfile) (name : String)
    (loose tight : PolicyProfile) : (replaceProfiles engine (profiles.insert name loose)).DifferAt (trimSpace name)
        (replaceProfiles engine (profiles.insert name tight)) ∧
      (replaceProfiles engine (profiles.insert name loose)).profile (trimSpace name) = some loose ∧
      (replaceProfiles engine (profiles.insert name tight)).profile (trimSpace name) = some tight := by
  obtain ⟨rest, lookups⟩ := copyProfiles_insert profiles name
  refine ⟨⟨rfl, fun other different => ?_⟩, ?_, ?_⟩
  · simp [replaceProfiles, Engine.profile, lookups, different]
  · simp [replaceProfiles, Engine.profile, lookups]
  · simp [replaceProfiles, Engine.profile, lookups]

namespace Sample

def reading : PolicyProfile := ⟨"readers", 10, 20, ["list_pods", "get_pod"], [], .enforce⟩

def narrowed : PolicyProfile := ⟨"readers", 10, 20, [" list_pods"], ["get_pod "], .enforce⟩

def readersCall (toolName : String) : PolicyRequest := ⟨toolName, [], "client", "readers", none⟩

def enforcing (profile : PolicyProfile) : Engine := replaceProfiles engine ((∅ : GoMap _ _).insert "readers" profile)

end Sample

open Sample

theorem narrowed_readers_allow_no_more :
    ((enforcing narrowed).evaluate none (readersCall "list_pods") ⟨0, 0, false⟩).1.allowed = true ∧
      ((enforcing reading).evaluate none (readersCall "list_pods") ⟨0, 0, false⟩).1.allowed = true := by
  have allowed : ((enforcing narrowed).evaluate none (readersCall "list_pods")
      ⟨0, 0, false⟩).1.allowed = true := by decide +kernel
  have tightens : narrowed.Tightens reading := by
    refine ⟨by simp [reading], .inr ⟨by simp [narrowed], ?_⟩, by simp [narrowed]⟩
    decide +kernel
  obtain ⟨differ, inLeft, inRight⟩ := replaceProfiles_differAt engine ∅ "readers" reading narrowed
  exact ⟨allowed, (tightening_allows_no_more differ inLeft inRight tightens none _ _).1 allowed⟩

end Policy

end McpGateway
