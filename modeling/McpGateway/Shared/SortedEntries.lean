import Mathlib.Data.Char
import Mathlib.Data.List.Induction
import Mathlib.Data.List.Lex

namespace McpGateway.Shared

-- Entries in the order of their keys, as a map is written out: one entry for each key, the last one given.

variable {α β : Type}

def put (key : String) (value : α) : List (String × α) → List (String × α)
  | [] => [(key, value)]
  | (first, held) :: rest =>
    if key.toList < first.toList then (key, value) :: (first, held) :: rest
    else if first = key then (key, value) :: rest
    else (first, held) :: put key value rest

def collapseEntries (entries : List (String × α)) : List (String × α) :=
  entries.foldl (fun sorted entry => put entry.1 entry.2 sorted) []

def Ascending (entries : List (String × α)) : Prop :=
  entries.Pairwise fun left right => left.1.toList < right.1.toList

variable {key : String} {value : α} {entries : List (String × α)} {entry : String × α}

theorem mem_put (mem : entry ∈ put key value entries) : entry = (key, value) ∨ entry ∈ entries := by
  induction entries with
  | nil => exact .inl (by simpa [put] using mem)
  | cons first rest ih =>
    unfold put at mem
    split_ifs at mem
    · rcases List.mem_cons.mp mem with new | old
      · exact .inl new
      · exact .inr old
    · rcases List.mem_cons.mp mem with new | old
      · exact .inl new
      · exact .inr (List.mem_cons_of_mem _ old)
    · rcases List.mem_cons.mp mem with kept | later
      · exact .inr (kept ▸ List.mem_cons_self)
      · exact (ih later).imp_right (List.mem_cons_of_mem _)

theorem ascending_put (key : String) (value : α) (ascending : Ascending entries) :
    Ascending (put key value entries) := by
  induction entries with
  | nil => simp [put, Ascending]
  | cons first rest ih =>
    obtain ⟨above, later⟩ := List.pairwise_cons.mp ascending
    unfold put
    split_ifs with before same
    · refine List.pairwise_cons.mpr ⟨?_, ascending⟩
      intro entry mem
      rcases List.mem_cons.mp mem with rfl | mem
      · exact before
      · exact before.trans (above entry mem)
    · refine List.pairwise_cons.mpr ⟨?_, later⟩
      intro entry mem
      rw [← same]
      exact above entry mem
    · refine List.pairwise_cons.mpr ⟨?_, ih later⟩
      intro entry mem
      rcases mem_put mem with rfl | mem
      · have apart : first.1.toList ≠ key.toList := fun equal => same (String.toList_inj.mp equal)
        exact lt_of_le_of_ne (not_lt.mp before) apart
      · exact above entry mem

theorem lookup_of_below (below : ∀ entry ∈ entries, key.toList < entry.1.toList) : entries.lookup key = none := by
  rw [List.lookup_eq_none_iff]
  intro entry mem
  have apart : key ≠ entry.1 := fun equal => lt_irrefl _ (equal ▸ below entry mem)
  simpa using apart

theorem lookup_put (key other : String) (value : α) (ascending : Ascending entries) :
    (put key value entries).lookup other = if other = key then some value else entries.lookup other := by
  have added (rest : List (String × α)) :
      ((key, value) :: rest).lookup other = if other = key then some value else rest.lookup other := by
    by_cases same : other = key
    · simp [same]
    · have skipped : (other == key) = false := by simpa using same
      rw [List.lookup_cons, skipped, if_neg same]
  induction entries with
  | nil => exact added []
  | cons first rest ih =>
    obtain ⟨name, held⟩ := first
    have later := (List.pairwise_cons.mp ascending).2
    by_cases before : key.toList < name.toList
    · rw [put, if_pos before]
      exact added _
    · by_cases same : name = key
      · rw [put, if_neg before, if_pos same, added, same]
        split_ifs with equal
        · rfl
        · have skipped : (other == key) = false := by simpa using equal
          rw [List.lookup_cons, skipped]
      · rw [put, if_neg before, if_neg same, List.lookup_cons, List.lookup_cons, ih later]
        by_cases equal : other = key
        · have skipped : (other == name) = false := by
            rw [equal]
            simpa using fun same' => same same'.symm
          rw [skipped, if_pos equal]
        · rw [if_neg equal, if_neg equal]

theorem Ascending.first_le {first : String × α} {rest : List (String × α)} (ascending : Ascending (first :: rest))
    (found : (first :: rest).lookup key = some value) : first.1.toList ≤ key.toList := by
  by_contra greater
  rw [not_le] at greater
  have above := (List.pairwise_cons.mp ascending).1
  have missing : (first :: rest).lookup key = none :=
    lookup_of_below (List.forall_mem_cons.mpr ⟨greater, fun entry mem => greater.trans (above entry mem)⟩)
  rw [missing] at found
  cases found

theorem Ascending.ext {left right : List (String × α)} (ascending : Ascending left) (also : Ascending right)
    (same : ∀ key, left.lookup key = right.lookup key) : left = right := by
  induction left generalizing right with
  | nil =>
    cases right with
    | nil => rfl
    | cons entry rest =>
      have found := same entry.1
      rw [List.lookup_nil, List.lookup_cons_self] at found
      cases found
  | cons first rest ih =>
    obtain ⟨above, later⟩ := List.pairwise_cons.mp ascending
    cases right with
    | nil =>
      have found := same first.1
      rw [List.lookup_nil, List.lookup_cons_self] at found
      cases found
    | cons entry others =>
      obtain ⟨aboveRight, laterRight⟩ := List.pairwise_cons.mp also
      obtain ⟨name, held⟩ := first
      obtain ⟨key, value⟩ := entry
      have foundLeft : ((name, held) :: rest).lookup key = some value := (same key).trans List.lookup_cons_self
      have foundRight : ((key, value) :: others).lookup name = some held := (same name).symm.trans List.lookup_cons_self
      have runes := le_antisymm (ascending.first_le foundLeft) (also.first_le foundRight)
      obtain rfl : name = key := String.toList_inj.mp runes
      have held_eq : held = value := by simpa using same name
      rw [held_eq, ih later laterRight]
      intro other
      by_cases own : other = name
      · rw [own, lookup_of_below above, lookup_of_below aboveRight]
      · have found := same other
        have skipped : (other == name) = false := by simpa using own
        rwa [List.lookup_cons, List.lookup_cons, skipped] at found

theorem map_put (f : α → β) (key : String) (value : α) (entries : List (String × α)) :
    (put key value entries).map (fun entry => (entry.1, f entry.2)) =
      put key (f value) (entries.map fun entry => (entry.1, f entry.2)) := by
  induction entries with
  | nil => rfl
  | cons first rest ih =>
    rw [List.map_cons, put, put]
    split_ifs
    · rfl
    · rfl
    · rw [List.map_cons, ih]

theorem collapseEntries_append (entries : List (String × α)) (key : String) (value : α) :
    collapseEntries (entries ++ [(key, value)]) = put key value (collapseEntries entries) := by
  simp [collapseEntries]

theorem ascending_collapseEntries (entries : List (String × α)) : Ascending (collapseEntries entries) := by
  induction entries using List.reverseRecOn with
  | nil => exact List.Pairwise.nil
  | append_singleton entries last ih =>
    rw [collapseEntries_append]
    exact ascending_put last.1 last.2 ih

theorem lookup_collapseEntries (entries : List (String × α)) (key : String) :
    (collapseEntries entries).lookup key = entries.reverse.lookup key := by
  induction entries using List.reverseRecOn with
  | nil => rfl
  | append_singleton entries last ih =>
    obtain ⟨name, value⟩ := last
    rw [collapseEntries_append, lookup_put _ _ _ (ascending_collapseEntries entries), ih, List.reverse_append]
    by_cases same : key = name
    · simp [same]
    · have skipped : (key == name) = false := by simpa using same
      rw [if_neg same, List.reverse_singleton, List.singleton_append, List.lookup_cons, skipped]

theorem map_collapseEntries (f : α → β) (entries : List (String × α)) :
    (collapseEntries entries).map (fun entry => (entry.1, f entry.2)) =
      collapseEntries (entries.map fun entry => (entry.1, f entry.2)) := by
  induction entries using List.reverseRecOn with
  | nil => rfl
  | append_singleton entries last ih =>
    rw [collapseEntries_append, map_put, ih, List.map_append, List.map_singleton, collapseEntries_append]

theorem put_last (value : α) (above : ∀ entry ∈ entries, entry.1.toList < key.toList) :
    put key value entries = entries ++ [(key, value)] := by
  induction entries with
  | nil => rfl
  | cons first rest ih =>
    have less := above first (by simp)
    have apart : first.1 ≠ key := fun equal => lt_irrefl _ (equal ▸ less)
    rw [put, if_neg less.asymm, if_neg apart, ih fun entry mem => above entry (List.mem_cons_of_mem _ mem),
      List.cons_append]

theorem collapseEntries_of_ascending (ascending : Ascending entries) : collapseEntries entries = entries := by
  induction entries using List.reverseRecOn with
  | nil => rfl
  | append_singleton entries last ih =>
    obtain ⟨prior, -, below⟩ := List.pairwise_append.mp ascending
    rw [collapseEntries_append, ih prior]
    exact put_last last.2 fun entry mem => below entry mem last (by simp)

theorem mem_collapseEntries (mem : entry ∈ collapseEntries entries) : entry ∈ entries := by
  induction entries using List.reverseRecOn with
  | nil => cases mem
  | append_singleton entries last ih =>
    rw [collapseEntries_append] at mem
    rcases mem_put mem with rfl | prior
    · simp
    · exact List.mem_append_left _ (ih prior)

end McpGateway.Shared
