import McpGateway.Shared.GoJson

namespace McpGateway.Shared

inductive Place where
  | key (name : String)
  | index (position : Nat)
  deriving DecidableEq

namespace Value

@[elab_as_elim]
theorem nested_induction {motive : Value → Prop} (null : motive .null) (bool : ∀ value, motive (.bool value))
    (number : ∀ value, motive (.number value)) (string : ∀ value, motive (.string value))
    (array : ∀ items, (∀ item ∈ items, motive item) → motive (.array items))
    (object : ∀ entries, (∀ entry ∈ entries, motive entry.2) → motive (.object entries)) (value : Value) :
    motive value :=
  @Value.rec motive (fun items => ∀ item ∈ items, motive item) (fun entries => ∀ entry ∈ entries, motive entry.2)
    (fun entry => motive entry.2) null bool number string array object (by simp)
    (fun _ _ first rest => List.forall_mem_cons.mpr ⟨first, rest⟩) (by simp)
    (fun _ _ first rest => List.forall_mem_cons.mpr ⟨first, rest⟩) (fun _ _ held => held) value

def child : Place → Value → Option Value
  | .key name, .object entries => entries.lookup name
  | .index position, .array items => items[position]?
  | _, _ => none

def descend : List Place → Value → Option Value
  | [], value => some value
  | place :: path, value => (value.child place).bind (descend path)

def keys : Value → List String
  | .object entries => entries.map Prod.fst
  | _ => []

def under (place : Place) (found : List Place × Value) : List Place × Value := (place :: found.1, found.2)

mutual

def walk : Value → List (List Place × Value)
  | .array items => ([], .array items) :: walkItems 0 items
  | .object entries => ([], .object entries) :: walkEntries entries
  | value => [([], value)]

def walkItems (position : Nat) : List Value → List (List Place × Value)
  | [] => []
  | item :: items => (walk item).map (under (.index position)) ++ walkItems (position + 1) items

def walkEntries : List (String × Value) → List (List Place × Value)
  | [] => []
  | (name, value) :: entries => (walk value).map (under (.key name)) ++ walkEntries entries

end

def Inside (holds : Value → Prop) (value : Value) : Prop := ∀ found ∈ value.walk, holds found.2

def Distinct : Value → Prop := Inside fun found => found.keys.Nodup

variable {items : List Value} {entries : Object} {name : String} {value : Value}

theorem mem_walkItems {position : Nat} {found : List Place × Value} : found ∈ walkItems position items ↔
      ∃ next item rest, items[next]? = some item ∧ rest ∈ walk item ∧ under (.index (position + next)) rest = found := by
  induction items generalizing position with
  | nil => simp [walkItems]
  | cons first items ih =>
    rw [walkItems, List.mem_append, List.mem_map, ih]
    constructor
    · rintro (⟨rest, mem, rfl⟩ | ⟨next, item, rest, held, mem, rfl⟩)
      · exact ⟨0, first, rest, rfl, mem, rfl⟩
      · exact ⟨next + 1, item, rest, held, mem, by rw [Nat.add_right_comm, Nat.add_assoc]⟩
    · rintro ⟨next, item, rest, held, mem, rfl⟩
      cases next with
      | zero =>
        cases held
        exact .inl ⟨rest, mem, rfl⟩
      | succ next => exact .inr ⟨next, item, rest, held, mem, by rw [Nat.add_right_comm, Nat.add_assoc]⟩

theorem mem_walkEntries {found : List Place × Value} :
    found ∈ walkEntries entries ↔ ∃ entry ∈ entries, ∃ rest ∈ walk entry.2, under (.key entry.1) rest = found := by
  induction entries with
  | nil => simp [walkEntries]
  | cons entry entries ih => rw [walkEntries, List.mem_append, List.mem_map, ih, List.exists_mem_cons_iff]

section

variable {holds : Value → Prop}

theorem inside_array : Inside holds (.array items) ↔ holds (.array items) ∧ ∀ item ∈ items, Inside holds item := by
  simp only [Inside, walk, List.forall_mem_cons, and_congr_right_iff]
  intro _
  constructor
  · intro all item mem found inside
    obtain ⟨position, held⟩ := List.mem_iff_getElem?.mp mem
    exact all (under (.index (0 + position)) found) (mem_walkItems.mpr ⟨position, item, found, held, inside, rfl⟩)
  · intro all found inside
    obtain ⟨position, item, rest, held, within, rfl⟩ := mem_walkItems.mp inside
    exact all item (List.mem_of_getElem? held) rest within

theorem inside_object :
    Inside holds (.object entries) ↔ holds (.object entries) ∧ ∀ entry ∈ entries, Inside holds entry.2 := by
  simp only [Inside, walk, List.forall_mem_cons, and_congr_right_iff]
  intro _
  constructor
  · intro all entry mem found inside
    exact all (under (.key entry.1) found) (mem_walkEntries.mpr ⟨entry, mem, found, inside, rfl⟩)
  · intro all found inside
    obtain ⟨entry, mem, rest, within, rfl⟩ := mem_walkEntries.mp inside
    exact all entry mem rest within

end

theorem lookup_iff_mem (distinct : (entries.map Prod.fst).Nodup) :
    entries.lookup name = some value ↔ (name, value) ∈ entries := by
  induction entries with
  | nil => simp
  | cons entry entries ih =>
    obtain ⟨first, held⟩ := entry
    obtain ⟨fresh, distinct⟩ := List.nodup_cons.mp distinct
    rw [List.lookup_cons, List.mem_cons, Prod.mk.injEq]
    by_cases same : name = first
    · subst same
      have outside : (name, value) ∉ entries := fun mem => fresh (List.mem_map.mpr ⟨_, mem, rfl⟩)
      simp [outside, eq_comm]
    · have skipped : (name == first) = false := by simpa using same
      simp [skipped, same, ih distinct]

theorem mem_walk {found : Value} {path : List Place} (distinct : value.Distinct) :
    (path, found) ∈ value.walk ↔ value.descend path = some found := by
  induction value using nested_induction generalizing path with
  | null | bool | number | string => cases path <;> simp [walk, descend, child, eq_comm]
  | array items ih =>
    rw [walk, List.mem_cons, mem_walkItems]
    cases path with
    | nil => simpa [under, descend] using eq_comm
    | cons place path =>
      cases place with
      | key name => simp [under, descend, child]
      | index position =>
        cases held : items[position]? with
        | none => simp +contextual [under, descend, child, held]
        | some item =>
          have mem := List.mem_of_getElem? held
          simp [under, descend, child, held, ← ih item mem ((inside_array.mp distinct).2 item mem)]
  | object entries ih =>
    rw [walk, List.mem_cons, mem_walkEntries]
    cases path with
    | nil => simpa [under, descend] using eq_comm
    | cons place path =>
      cases place with
      | index position => simp [under, descend, child]
      | key name =>
        simp only [under, descend, child, Option.bind_eq_some_iff, lookup_iff_mem (inside_object.mp distinct).1,
          Prod.mk.injEq, List.cons.injEq, Place.key.injEq, reduceCtorEq, false_and, false_or]
        constructor
        · rintro ⟨entry, mem, rest, inside, ⟨rfl, rfl⟩, rfl⟩
          exact ⟨entry.2, mem, (ih entry mem ((inside_object.mp distinct).2 _ mem)).mp inside⟩
        · rintro ⟨value, mem, inside⟩
          exact ⟨(name, value), mem, (path, found),
            (ih _ mem ((inside_object.mp distinct).2 _ mem)).mpr inside, ⟨rfl, rfl⟩, rfl⟩

theorem under_injective (place : Place) : Function.Injective (under place) := by
  rintro ⟨left, value⟩ ⟨right, other⟩ same
  simpa [under] using same

theorem walkItems_nodup (each : ∀ item ∈ items, (walk item).Nodup) (position : Nat) :
    (walkItems position items).Nodup := by
  induction items generalizing position with
  | nil => simp [walkItems]
  | cons item items ih =>
    obtain ⟨first, each⟩ := List.forall_mem_cons.mp each
    rw [walkItems, List.nodup_append]
    refine ⟨first.map (under_injective _), ih each _, ?_⟩
    intro left inFirst right inRest same
    obtain ⟨found, -, rfl⟩ := List.mem_map.mp inFirst
    obtain ⟨next, -, other, -, -, rfl⟩ := mem_walkItems.mp inRest
    simp only [under, Prod.mk.injEq, List.cons.injEq, Place.index.injEq] at same
    omega

theorem walkEntries_nodup (distinct : (entries.map Prod.fst).Nodup) (each : ∀ entry ∈ entries, (walk entry.2).Nodup) :
    (walkEntries entries).Nodup := by
  induction entries with
  | nil => simp [walkEntries]
  | cons entry entries ih =>
    obtain ⟨fresh, distinct⟩ := List.nodup_cons.mp distinct
    obtain ⟨first, each⟩ := List.forall_mem_cons.mp each
    rw [walkEntries, List.nodup_append]
    refine ⟨first.map (under_injective _), ih distinct each, ?_⟩
    intro left inFirst right inRest same
    obtain ⟨found, -, rfl⟩ := List.mem_map.mp inFirst
    obtain ⟨later, mem, other, -, rfl⟩ := mem_walkEntries.mp inRest
    simp only [under, Prod.mk.injEq, List.cons.injEq, Place.key.injEq] at same
    exact fresh (same.1.1 ▸ List.mem_map_of_mem mem)

theorem walk_nodup (distinct : value.Distinct) : value.walk.Nodup := by
  induction value using nested_induction with
  | null | bool | number | string => simp [walk]
  | array items ih =>
    have rest := walkItems_nodup (fun item mem => ih item mem ((inside_array.mp distinct).2 item mem)) 0
    refine List.nodup_cons.mpr ⟨fun mem => ?_, rest⟩
    obtain ⟨next, item, found, -, -, same⟩ := mem_walkItems.mp mem
    cases same
  | object entries ih =>
    have rest := walkEntries_nodup (inside_object.mp distinct).1 fun entry mem =>
      ih entry mem ((inside_object.mp distinct).2 _ mem)
    refine List.nodup_cons.mpr ⟨fun mem => ?_, rest⟩
    obtain ⟨entry, -, found, -, same⟩ := mem_walkEntries.mp mem
    cases same

inductive Head where
  | atom (value : Value)
  | array (length : Nat)
  | object (names : Set String)

def head : Value → Head
  | .array items => .array items.length
  | .object entries => .object {name | name ∈ entries.map Prod.fst}
  | value => .atom value

def Head.Has : Head → Place → Prop
  | .array length, .index position => position < length
  | .object names, .key name => name ∈ names
  | _, _ => False

theorem isSome_child (value : Value) (place : Place) : (value.child place).isSome ↔ value.head.Has place := by
  cases value <;> cases place <;> simp [child, head, Head.Has]

def AlikeBut (hidden : String → Prop) (left right : Value) : Prop :=
  ∀ path, (∀ name, hidden name → Place.key name ∉ path) → (left.descend path).map head = (right.descend path).map head

def Alike : Value → Value → Prop := AlikeBut fun _ => False

section

variable {hidden : String → Prop} {left right : Value}

theorem AlikeBut.head (alike : AlikeBut hidden left right) : left.head = right.head :=
  Option.some.inj (alike [] (by simp))

theorem AlikeBut.child (alike : AlikeBut hidden left right) {place : Place}
    (visible : ∀ name, hidden name → place ≠ .key name) :
    Option.Rel (AlikeBut hidden) (left.child place) (right.child place) := by
  have below (path : List Place) (clear : ∀ name, hidden name → Place.key name ∉ path) :=
    alike (place :: path) fun name hides => List.not_mem_cons_of_ne_of_not_mem (visible name hides).symm (clear name hides)
  simp only [descend] at below
  have top := below [] (by simp)
  cases first : left.child place <;> cases second : right.child place <;> simp_all [descend, AlikeBut]

end

end Value

end McpGateway.Shared
