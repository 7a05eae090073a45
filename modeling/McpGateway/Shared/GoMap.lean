import Mathlib.Data.List.AList
import Mathlib.Data.List.Dedup

namespace McpGateway.Shared

abbrev GoMap (K V : Type) := AList (fun _ : K => V)

section

variable {K V W : Type}

def filterMapEntries (f : V → Option W) (entries : List (Sigma fun _ : K => V)) : List (Sigma fun _ : K => W) :=
  entries.filterMap fun entry => (f entry.2).map (Sigma.mk entry.1)

theorem filterMapEntries_keys (f : V → Option W) (entries : List (Sigma fun _ : K => V)) :
    (filterMapEntries f entries).keys.Sublist entries.keys := by
  induction entries with
  | nil => exact .slnil
  | cons entry rest ih =>
    obtain ⟨key, value⟩ := entry
    cases kept : f value with
    | none => simpa [filterMapEntries, kept] using ih.cons key
    | some next => simpa [filterMapEntries, kept] using ih.cons_cons key

def GoMap.filterMapValues (f : V → Option W) (m : GoMap K V) : GoMap K W where
  entries := filterMapEntries f m.entries
  nodupKeys := List.Nodup.sublist (filterMapEntries_keys f m.entries) m.nodupKeys

def GoMap.filterKeys (keep : K → Bool) (m : GoMap K V) : GoMap K V where
  entries := m.entries.filter fun entry => keep entry.1
  nodupKeys := m.nodupKeys.sublist List.filter_sublist

variable [DecidableEq K]

theorem dlookup_filterMapEntries (f : V → Option W) (entries : List (Sigma fun _ : K => V))
    (distinct : entries.NodupKeys) (key : K) :
    (filterMapEntries f entries).dlookup key = (entries.dlookup key).bind f := by
  induction entries with
  | nil => rfl
  | cons entry rest ih =>
    obtain ⟨first, value⟩ := entry
    obtain ⟨fresh, distinct⟩ := List.nodupKeys_cons.mp distinct
    by_cases same : key = first
    · subst same
      -- a dropped value leaves nothing behind it, since its key occurs only here
      have outside : (filterMapEntries f rest).dlookup key = none :=
        List.dlookup_eq_none.mpr fun mem => fresh ((filterMapEntries_keys f rest).subset mem)
      cases kept : f value with
      | none => simpa [filterMapEntries, kept] using outside
      | some next => simp [filterMapEntries, kept]
    · rw [List.dlookup_cons_ne rest ⟨first, value⟩ same, ← ih distinct]
      cases kept : f value with
      | none => simp [filterMapEntries, kept]
      | some next =>
        have skipped := List.dlookup_cons_ne (filterMapEntries f rest) ⟨first, next⟩ same
        simpa [filterMapEntries, kept] using skipped

@[simp] theorem GoMap.lookup_filterMapValues (f : V → Option W) (m : GoMap K V) (key : K) :
    (m.filterMapValues f).lookup key = (m.lookup key).bind f :=
  dlookup_filterMapEntries f m.entries m.nodupKeys key

theorem GoMap.lookup_filterKeys (keep : K → Bool) (m : GoMap K V) (key : K) :
    (m.filterKeys keep).lookup key = if keep key then m.lookup key else none := by
  ext value
  by_cases kept : keep key
  · simp only [kept, if_true, ← Option.mem_def, AList.mem_lookup_iff]
    simp [GoMap.filterKeys, kept]
  · simp only [← Option.mem_def, AList.mem_lookup_iff]
    simp [GoMap.filterKeys, kept]

theorem GoMap.lookup_insert_eq (m : GoMap K V) (key other : K) (value : V) :
    (m.insert key value).lookup other = if other = key then some value else m.lookup other := by
  by_cases same : other = key
  · subst same
    simp
  · simp [same, AList.lookup_insert_ne same]

theorem GoMap.lookup_erase_eq (m : GoMap K V) (key other : K) :
    (m.erase key).lookup other = if other = key then none else m.lookup other := by
  by_cases same : other = key
  · subst same
    simp
  · simp [same, AList.lookup_erase_ne same]

def GoMap.insertAll (m : GoMap K V) (assignments : List (K × V)) : GoMap K V :=
  assignments.foldl (fun m assignment => m.insert assignment.1 assignment.2) m

theorem GoMap.mem_keys_insertAll (m : GoMap K V) (assignments : List (K × V)) (key : K) :
    key ∈ (m.insertAll assignments).keys ↔ key ∈ m.keys ∨ key ∈ assignments.map Prod.fst := by
  induction assignments generalizing m with
  | nil => simp [insertAll]
  | cons assignment rest ih =>
    have later := ih (m.insert assignment.1 assignment.2)
    simp only [insertAll, List.foldl_cons, ← AList.mem_keys, AList.mem_insert] at later ⊢
    simp only [later, List.map_cons, List.mem_cons]
    tauto

theorem GoMap.lookup_insertAll {m : GoMap K V} {assignments : List (K × V)} {key : K} {value : V}
    (found : (m.insertAll assignments).lookup key = some value) :
    (key, value) ∈ assignments ∨ m.lookup key = some value := by
  induction assignments generalizing m with
  | nil => exact .inr found
  | cons assignment rest ih =>
    obtain ⟨first, assigned⟩ := assignment
    cases ih found with
    | inl later => exact .inl (List.mem_cons_of_mem _ later)
    | inr prior =>
      rw [lookup_insert_eq] at prior
      split_ifs at prior with same
      · cases prior
        simp [same]
      · exact .inr prior

section

variable {assignments : List (K × V)}

theorem GoMap.mem_of_lookup_insertAll {key : K} {value : V}
    (found : ((∅ : GoMap K V).insertAll assignments).lookup key = some value) : (key, value) ∈ assignments := by
  cases lookup_insertAll found with
  | inl mem => exact mem
  | inr before => simp at before

theorem GoMap.exists_lookup_insertAll {key : K} (mem : key ∈ assignments.map Prod.fst) :
    ∃ value, ((∅ : GoMap K V).insertAll assignments).lookup key = some value :=
  Option.isSome_iff_exists.mp (AList.lookup_isSome.mpr ((mem_keys_insertAll ∅ assignments key).mpr (.inr mem)))

theorem GoMap.lookup_insertAll_of_nodup (distinct : (assignments.map Prod.fst).Nodup) {key : K} {value : V}
    (mem : (key, value) ∈ assignments) : ((∅ : GoMap K V).insertAll assignments).lookup key = some value := by
  obtain ⟨found, lookup⟩ := exists_lookup_insertAll (List.mem_map_of_mem mem)
  have same := List.inj_on_of_nodup_map distinct (mem_of_lookup_insertAll lookup) mem rfl
  cases same
  exact lookup

theorem GoMap.length_keys_insertAll_iff : ((∅ : GoMap K V).insertAll assignments).keys.length = assignments.length ↔
      (assignments.map Prod.fst).Nodup := by
  have perm : ((∅ : GoMap K V).insertAll assignments).keys.Perm (assignments.map Prod.fst).dedup := by
    refine (List.perm_ext_iff_of_nodup (AList.keys_nodup _) (List.nodup_dedup _)).mpr fun key => ?_
    simp [mem_keys_insertAll]
  have shorter := List.dedup_sublist (assignments.map Prod.fst)
  have size : (assignments.map Prod.fst).length = assignments.length := List.length_map _
  rw [perm.length_eq, ← size, ← List.dedup_eq_self]
  exact ⟨fun same => shorter.eq_of_length same, fun same => by rw [same]⟩

end

def GoMap.addMissing (m : GoMap K V) (assignments : List (K × V)) : GoMap K V :=
  assignments.foldl (fun m assignment => if assignment.1 ∈ m then m else m.insert assignment.1 assignment.2) m

theorem GoMap.mem_addMissing (m : GoMap K V) (assignments : List (K × V)) (key : K) :
    key ∈ m.addMissing assignments ↔ key ∈ m ∨ key ∈ assignments.map Prod.fst := by
  induction assignments generalizing m with
  | nil => simp [addMissing]
  | cons assignment rest ih =>
    rw [addMissing, List.foldl_cons, ← addMissing, ih, List.map_cons, List.mem_cons]
    split_ifs with present
    · constructor
      · tauto
      · intro mem
        cases mem with
        | inl old => exact .inl old
        | inr new =>
          cases new with
          | inl same => exact .inl (same ▸ present)
          | inr later => exact .inr later
    · rw [AList.mem_insert]
      tauto

theorem GoMap.lookup_addMissing {m : GoMap K V} {assignments : List (K × V)} {key : K} {value : V}
    (found : (m.addMissing assignments).lookup key = some value) :
    (key, value) ∈ assignments ∨ m.lookup key = some value := by
  induction assignments generalizing m with
  | nil => exact .inr found
  | cons assignment rest ih =>
    obtain ⟨first, assigned⟩ := assignment
    cases ih found with
    | inl later => exact .inl (List.mem_cons_of_mem _ later)
    | inr prior =>
      dsimp only at prior
      split_ifs at prior
      · exact .inr prior
      · rw [lookup_insert_eq] at prior
        split_ifs at prior with same
        · cases prior
          simp [same]
        · exact .inr prior

end

end McpGateway.Shared
