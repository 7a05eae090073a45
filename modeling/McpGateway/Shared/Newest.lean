import Mathlib.Order.Lattice

namespace McpGateway.Shared

section

variable {V K : Type} [LinearOrder K] (version : V → K)

-- A value replaces the one that is held unless its version is lower.
def newer (held next : V) : V :=
  if version next < version held then held else next

def newest (held : V) (values : List V) : V :=
  values.foldl (newer version) held

variable {version} {held other value : V} {values : List V}

theorem newest_append (first second : List V) :
    newest version held (first ++ second) = newest version (newest version held first) second :=
  List.foldl_append

theorem newer_of_le (reached : version held ≤ version value) : newer version held value = value :=
  if_neg (not_lt.mpr reached)

theorem newer_of_lt (lower : version value < version held) : newer version held value = held :=
  if_pos lower

theorem held_le_newest : version held ≤ version (newest version held values) := by
  induction values generalizing held with
  | nil => exact le_refl _
  | cons next rest ih =>
    refine le_trans ?_ ih
    cases lt_or_ge (version next) (version held) with
    | inl lower => rw [newer_of_lt lower]
    | inr reached => rwa [newer_of_le reached]

theorem le_newest (mem : value ∈ values) : version value ≤ version (newest version held values) := by
  induction values generalizing held with
  | nil => cases mem
  | cons next rest ih =>
    cases List.mem_cons.mp mem with
    | inr later => exact ih later
    | inl same =>
      subst same
      have replaced : version value ≤ version (newer version held value) := by
        cases lt_or_ge (version value) (version held) with
        | inl lower => rw [newer_of_lt lower]; exact le_of_lt lower
        | inr reached => rw [newer_of_le reached]
      exact le_trans replaced held_le_newest

theorem newest_lt {bound : K} (below : version held < bound) (older : ∀ value ∈ values, version value < bound) :
    version (newest version held values) < bound := by
  induction values generalizing held with
  | nil => exact below
  | cons next rest ih =>
    refine ih ?_ fun value mem => older value (List.mem_cons_of_mem next mem)
    cases lt_or_ge (version next) (version held) with
    | inl lower => rwa [newer_of_lt lower]
    | inr reached => rw [newer_of_le reached]; exact older next List.mem_cons_self

theorem newest_mem : newest version held values = held ∨ newest version held values ∈ values := by
  induction values generalizing held with
  | nil => exact .inl rfl
  | cons next rest ih =>
    rw [newest, List.foldl_cons]
    cases lt_or_ge (version next) (version held) with
    | inl lower =>
      rw [newer_of_lt lower]
      exact ih.imp_right (List.mem_cons_of_mem next)
    | inr reached =>
      rw [newer_of_le reached]
      cases ih with
      | inl kept => exact .inr (List.mem_cons.mpr (.inl kept))
      | inr later => exact .inr (List.mem_cons_of_mem next later)

theorem newest_mono {others : List V} (covered : values ⊆ others) :
    version (newest version held values) ≤ version (newest version held others) := by
  have settled : newest version held values = held ∨ newest version held values ∈ values := newest_mem
  cases settled with
  | inl kept => rw [kept]; exact held_le_newest
  | inr mem => exact le_newest (covered mem)

theorem newest_congr (mem : value ∈ values) (first : version held ≤ version value)
    (second : version other ≤ version value) : newest version held values = newest version other values := by
  induction values generalizing held other with
  | nil => cases mem
  | cons next rest ih =>
    simp only [newest, List.foldl_cons]
    cases lt_or_ge (version next) (version value) with
    | inr high => rw [newer_of_le (le_trans first high), newer_of_le (le_trans second high)]
    | inl low =>
      have kept (before : V) (lower : version before ≤ version value) :
          version (newer version before next) ≤ version value := by
        cases lt_or_ge (version next) (version before) with
        | inl under => rwa [newer_of_lt under]
        | inr reached =>
          rw [newer_of_le reached]
          exact le_of_lt low
      cases List.mem_cons.mp mem with
      | inl same => exact absurd low (same ▸ lt_irrefl _)
      | inr later => exact ih later (kept held first) (kept other second)

theorem newest_append_eq_iff {before after : List V} (above : ∀ value ∈ before, version held < version value) :
    newest version held (before ++ after) = newest version held after ↔
      ∀ value ∈ before, ∃ later ∈ after, version value ≤ version later := by
  rw [newest_append]
  constructor
  · intro same value mem
    by_contra lost
    have older : ∀ later ∈ after, version later < version value := fun later inside =>
      not_le.mp fun reached => lost ⟨later, inside, reached⟩
    have reached : version value ≤ version (newest version (newest version held before) after) :=
      le_trans (le_newest mem) held_le_newest
    rw [same] at reached
    exact absurd (newest_lt (above value mem) older) (not_lt.mpr reached)
  · intro covered
    have settled : newest version held before = held ∨ newest version held before ∈ before := newest_mem
    cases settled with
    | inl kept => rw [kept]
    | inr mem =>
      obtain ⟨later, inside, reached⟩ := covered _ mem
      exact newest_congr inside reached (le_trans held_le_newest reached)

end

end McpGateway.Shared
