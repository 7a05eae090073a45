import Mathlib.Data.Set.Basic

namespace McpGateway.Shared

-- A replica of a keyed source. It is told which keys changed, reads them, and applies what it read some time later.
inductive Notice (K : Type) where
  | changed (key : K)
  | dropped (key : K)

def Notice.key {K : Type} : Notice K → K
  | .changed key => key
  | .dropped key => key

-- An entry that was read and shows nothing clears the replica only when the fetch replaces.
structure Fetch (K V : Type) where
  key : K
  found : Option V
  replaces : Bool

structure Replica (K V : Type) where
  source : K → Option (Option V)
  notices : Set (Notice K)
  shown : K → Option V
  fetches : List (Fetch K V)

section

variable {K V W : Type} [DecidableEq K]

def Fetch.apply (shown : K → Option V) (fetch : Fetch K V) : K → Option V :=
  if fetch.found.isSome || fetch.replaces then Function.update shown fetch.key fetch.found else shown

variable (shown : K → Option V) (fetch : Fetch K V)

theorem Fetch.apply_other {key : K} (other : key ≠ fetch.key) : fetch.apply shown key = shown key := by
  unfold Fetch.apply
  split_ifs
  · exact Function.update_of_ne other _ _
  · rfl

theorem Fetch.apply_congr {shown same : K → Option V} {key : K} (equal : shown key = same key) :
    fetch.apply shown key = fetch.apply same key := by
  unfold Fetch.apply
  split_ifs
  · by_cases here : key = fetch.key
    · rw [here, Function.update_self, Function.update_self]
    · rw [Function.update_of_ne here, Function.update_of_ne here, equal]
  · exact equal

def applyAll (shown : K → Option V) (fetches : List (Fetch K V)) : K → Option V :=
  fetches.foldl Fetch.apply shown

theorem applyAll_congr {shown same : K → Option V} (fetches : List (Fetch K V)) {key : K}
    (equal : shown key = same key) : applyAll shown fetches key = applyAll same fetches key := by
  unfold applyAll
  induction fetches generalizing shown same with
  | nil => exact equal
  | cons fetch rest ih => exact ih (fetch.apply_congr equal)

theorem applyAll_other (fetches : List (Fetch K V)) {key : K} (others : ∀ fetch ∈ fetches, fetch.key ≠ key) :
    applyAll shown fetches key = shown key := by
  unfold applyAll
  induction fetches generalizing shown with
  | nil => rfl
  | cons fetch rest ih =>
    rw [List.foldl_cons, ih _ fun later mem => others later (List.mem_cons_of_mem _ mem)]
    exact fetch.apply_other shown (others fetch List.mem_cons_self).symm

theorem applyAll_append (prior later : List (Fetch K V)) :
    applyAll shown (prior ++ later) = applyAll (applyAll shown prior) later := by
  unfold applyAll
  exact List.foldl_append

theorem applyAll_early (prior later : List (Fetch K V)) (fetch : Fetch K V)
    (others : ∀ before ∈ prior, before.key ≠ fetch.key) :
    applyAll (fetch.apply shown) (prior ++ later) = applyAll shown (prior ++ fetch :: later) := by
  funext key
  rw [applyAll_append, applyAll_append]
  change _ = applyAll (fetch.apply (applyAll shown prior)) later key
  apply applyAll_congr
  by_cases here : key = fetch.key
  · have same : applyAll shown prior key = shown key := by
      rw [here]
      exact applyAll_other _ _ others
    rw [fetch.apply_congr same, here]
    exact applyAll_other _ _ others
  · rw [fetch.apply_other _ here]
    exact applyAll_congr _ (fetch.apply_other _ here)

namespace Replica

def shows (replica : Replica K V) (key : K) : Option V :=
  (replica.source key).join

def settled (replica : Replica K V) : K → Option V :=
  applyAll replica.shown replica.fetches

def Announced (replica : Replica K V) (key : K) : Prop :=
  (.changed key ∈ replica.notices ∧ replica.source key ≠ none) ∨
    (.dropped key ∈ replica.notices ∧ replica.shows key = none)

variable (look : V → W)

def SoundAt (replica : Replica K V) (key : K) : Prop :=
  replica.Announced key ∨ (replica.settled key).map look = (replica.shows key).map look

def Sound (replica : Replica K V) : Prop :=
  ∀ key, replica.SoundAt look key

variable {look} {replica next : Replica K V} {key : K}

theorem SoundAt.frame (sound : replica.SoundAt look key) (source : next.source key = replica.source key)
    (notices : ∀ notice ∈ replica.notices, notice.key = key → notice ∈ next.notices)
    (settled : next.settled key = replica.settled key) : next.SoundAt look key := by
  unfold SoundAt Announced shows at *
  rw [source, settled]
  exact sound.imp_left (Or.imp (And.imp_left (notices _ · rfl)) (And.imp_left (notices _ · rfl)))

section

variable (sound : replica.Sound look)

include sound

theorem Sound.write (key : K) (elsewhere : ∀ other, other ≠ key → next.source other = replica.source other)
    (notices : replica.notices ⊆ next.notices) (settled : next.settled = replica.settled)
    (told : next.Announced key ∨ ((next.shows key).map look = (replica.shows key).map look ∧
      (replica.source key ≠ none → next.source key ≠ none))) : next.Sound look := by
  intro other
  by_cases here : other = key
  · subst here
    rcases told with announced | ⟨same, present⟩
    · exact .inl announced
    rcases sound other with (⟨changed, held⟩ | ⟨dropped, blank⟩) | equal
    · exact .inl (.inl ⟨notices changed, present held⟩)
    · rw [blank, Option.map_none, Option.map_eq_none_iff] at same
      exact .inl (.inr ⟨notices dropped, same⟩)
    · exact .inr (by rw [settled, same, equal])
  · exact (sound other).frame (elsewhere other here) (fun _ out _ => notices out) (by rw [settled])

theorem Sound.read (fetch : Fetch K V) {entry : Option V} (held : replica.source fetch.key = some entry)
    (found : fetch.found = entry) (source : next.source = replica.source)
    (notices : ∀ notice ∈ replica.notices, notice.key = fetch.key → fetch.replaces = false → notice ∈ next.notices)
    (others : ∀ notice ∈ replica.notices, notice.key ≠ fetch.key → notice ∈ next.notices)
    (shown : next.shown = replica.shown) (fetches : next.fetches = replica.fetches ++ [fetch]) : next.Sound look := by
  have settled : next.settled = fetch.apply replica.settled := by
    unfold Replica.settled
    rw [shown, fetches, applyAll_append]
    rfl
  intro other
  by_cases here : other = fetch.key
  · subst here
    have shows : next.shows fetch.key = entry := by rw [Replica.shows, source, held, Option.join_some]
    by_cases applies : fetch.found.isSome || fetch.replaces
    · refine .inr ?_
      rw [settled, Fetch.apply, if_pos applies, Function.update_self, found, shows]
    · have idle : fetch.apply replica.settled = replica.settled := by rw [Fetch.apply, if_neg applies]
      have kept : fetch.replaces = false := by simp_all
      exact (sound fetch.key).frame (by rw [source]) (fun notice out same => notices notice out same kept)
        (by rw [settled, idle])
  · refine (sound other).frame (by rw [source]) ?_ ?_
    · rintro notice out rfl
      exact others notice out here
    · rw [settled, fetch.apply_other _ here]

theorem Sound.miss (gone : replica.source key = none) (source : next.source = replica.source)
    (notices : ∀ notice ∈ replica.notices, notice ≠ .changed key → notice ∈ next.notices)
    (settled : next.settled = replica.settled) : next.Sound look := by
  intro other
  unfold SoundAt Announced shows at *
  rw [source, settled]
  rcases sound other with (⟨changed, held⟩ | ⟨dropped, blank⟩) | equal
  · refine .inl (.inl ⟨notices _ changed ?_, held⟩)
    rintro ⟨⟩
    exact held gone
  · exact .inl (.inr ⟨notices _ dropped (by simp), blank⟩)
  · exact .inr equal

theorem Sound.clear (blank : replica.shows key = none) (idle : ∀ fetch ∈ replica.fetches, fetch.key ≠ key)
    (source : next.source = replica.source)
    (others : ∀ notice ∈ replica.notices, notice.key ≠ key → notice ∈ next.notices)
    (shown : next.shown = Function.update replica.shown key none) (fetches : next.fetches = replica.fetches) :
    next.Sound look := by
  intro other
  by_cases here : other = key
  · subst here
    refine .inr ?_
    rw [Replica.settled, fetches, applyAll_other _ _ idle, shown, Function.update_self, Replica.shows, source,
      ← Replica.shows, blank]
  · refine (sound other).frame (by rw [source]) ?_ ?_
    · rintro notice out rfl
      exact others notice out here
    · rw [Replica.settled, fetches, shown]
      exact applyAll_congr _ (Function.update_of_ne here _ _)

theorem Sound.apply {prior later : List (Fetch K V)} {fetch : Fetch K V}
    (outstanding : replica.fetches = prior ++ fetch :: later) (first : ∀ before ∈ prior, before.key ≠ fetch.key)
    (source : next.source = replica.source) (notices : next.notices = replica.notices)
    (shown : next.shown = fetch.apply replica.shown) (fetches : next.fetches = prior ++ later) : next.Sound look := by
  have settled : next.settled = replica.settled := by
    rw [Replica.settled, shown, fetches, applyAll_early _ _ _ _ first, ← outstanding]
    rfl
  intro key
  exact (sound key).frame (by rw [source]) (fun _ out _ => notices ▸ out) (by rw [settled])

theorem Sound.converged (silent : replica.notices = ∅) (idle : replica.fetches = []) (key : K) :
    (replica.shown key).map look = (replica.shows key).map look := by
  rcases sound key with (⟨out, _⟩ | ⟨out, _⟩) | equal
  · rw [silent] at out
    exact absurd out (Set.notMem_empty _)
  · rw [silent] at out
    exact absurd out (Set.notMem_empty _)
  · rwa [Replica.settled, idle] at equal

end

end Replica

end

end McpGateway.Shared
