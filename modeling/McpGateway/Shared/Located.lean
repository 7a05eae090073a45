import McpGateway.Shared.Nested

namespace McpGateway.Shared

inductive Atom where
  | null
  | bool (value : Bool)
  | number (value : Rat)
  | string (value : String)

def Atom.value : Atom → Value
  | .null => .null
  | .bool value => .bool value
  | .number value => .number value
  | .string value => .string value

-- A value in memory, where each map and each array has an address.
inductive Located (A : Type) where
  | leaf (atom : Atom)
  | array (address : A) (items : List (Located A))
  | object (address : A) (entries : List (String × Located A))

namespace Located

variable {A B : Type}

@[elab_as_elim]
theorem nested_induction {motive : Located A → Prop} (leaf : ∀ atom, motive (.leaf atom))
    (array : ∀ address items, (∀ item ∈ items, motive item) → motive (.array address items))
    (object : ∀ address entries, (∀ entry ∈ entries, motive entry.2) → motive (.object address entries))
    (value : Located A) : motive value :=
  @Located.rec A motive (fun items => ∀ item ∈ items, motive item) (fun entries => ∀ entry ∈ entries, motive entry.2)
    (fun entry => motive entry.2) leaf array object (by simp)
    (fun _ _ first rest => List.forall_mem_cons.mpr ⟨first, rest⟩) (by simp)
    (fun _ _ first rest => List.forall_mem_cons.mpr ⟨first, rest⟩) (fun _ _ held => held) value

section

variable (leaf : Atom → B) (array : A → List B → B) (object : A → List (String × B) → B)

mutual

def fold : Located A → B
  | .leaf atom => leaf atom
  | .array address items => array address (foldItems items)
  | .object address entries => object address (foldEntries entries)

def foldItems : List (Located A) → List B
  | [] => []
  | item :: items => fold item :: foldItems items

def foldEntries : List (String × Located A) → List (String × B)
  | [] => []
  | (name, value) :: entries => (name, fold value) :: foldEntries entries

end

theorem foldItems_eq (items : List (Located A)) : foldItems leaf array object items = items.map (fold leaf array object) := by
  induction items with
  | nil => rfl
  | cons item items ih => rw [foldItems, ih, List.map_cons]

theorem foldEntries_eq (entries : List (String × Located A)) :
    foldEntries leaf array object entries = entries.map (Prod.map id (fold leaf array object)) := by
  induction entries with
  | nil => rfl
  | cons entry entries ih =>
    rw [foldEntries, ih]
    rfl

end

def erase : Located A → Value := fold Atom.value (fun _ => .array) (fun _ => .object)

def addresses : Located A → List A :=
  fold (fun _ => []) (fun address items => address :: items.flatten) (fun address entries =>
    address :: entries.flatMap Prod.snd)

def map (rename : A → B) : Located A → Located B :=
  fold .leaf (fun address => .array (rename address)) (fun address => .object (rename address))

def write [DecidableEq A] (value : Located A) (target : A) (contents : Located A) : Located A :=
  fold .leaf (fun address items => if address = target then contents else .array address items)
    (fun address entries => if address = target then contents else .object address entries) value

def child : Place → Located A → Option (Located A)
  | .key name, .object _ entries => entries.lookup name
  | .index position, .array _ items => items[position]?
  | _, _ => none

section

variable (atom : Atom) (address : A) (items : List (Located A)) (entries : List (String × Located A))

@[simp] theorem erase_leaf : (leaf atom : Located A).erase = atom.value := rfl

@[simp] theorem erase_array : (array address items).erase = .array (items.map erase) :=
  congrArg Value.array (foldItems_eq ..)

@[simp] theorem erase_object : (object address entries).erase = .object (entries.map (Prod.map id erase)) :=
  congrArg Value.object (foldEntries_eq ..)

@[simp] theorem addresses_leaf : (leaf atom : Located A).addresses = [] := rfl

@[simp] theorem addresses_array : (array address items).addresses = address :: items.flatMap addresses := by
  rw [addresses, fold, foldItems_eq, List.flatMap]

@[simp] theorem addresses_object :
    (object address entries).addresses = address :: entries.flatMap fun entry => entry.2.addresses := by
  rw [addresses, fold, foldEntries_eq, List.flatMap_map]
  rfl

end

variable (rename : A → B)

theorem map_array (address : A) (items : List (Located A)) :
    (array address items).map rename = array (rename address) (items.map (map rename)) := by
  rw [map, fold, foldItems_eq]

theorem map_object (address : A) (entries : List (String × Located A)) :
    (object address entries).map rename = object (rename address) (entries.map (Prod.map id (map rename))) := by
  rw [map, fold, foldEntries_eq]

theorem addresses_map (value : Located A) : (value.map rename).addresses = value.addresses.map rename := by
  induction value using nested_induction with
  | leaf atom => rfl
  | array address items ih =>
    rw [map_array, addresses_array, addresses_array, List.map_cons, List.map_flatMap, List.flatMap_map]
    exact congrArg _ (List.flatMap_congr ih)
  | object address entries ih =>
    rw [map_object, addresses_object, addresses_object, List.map_cons, List.map_flatMap, List.flatMap_map]
    exact congrArg _ (List.flatMap_congr ih)

theorem write_eq_self [DecidableEq A] {target : A} (contents : Located A) {value : Located A}
    (absent : target ∉ value.addresses) : value.write target contents = value := by
  induction value using nested_induction with
  | leaf atom => rfl
  | array address items ih =>
    simp only [addresses_array, List.mem_cons, not_or, List.mem_flatMap, not_exists, not_and] at absent
    rw [write, fold, foldItems_eq, if_neg (Ne.symm absent.1)]
    exact congrArg _ ((List.map_congr_left fun item mem =>
      ih item mem (absent.2 item mem)).trans (List.map_id items))
  | object address entries ih =>
    simp only [addresses_object, List.mem_cons, not_or, List.mem_flatMap, not_exists, not_and] at absent
    rw [write, fold, foldEntries_eq, if_neg (Ne.symm absent.1)]
    have same : entries.map (Prod.map id (write · target contents)) = entries.map id :=
      List.map_congr_left fun entry mem => Prod.ext rfl (ih entry mem (absent.2 entry mem))
    exact congrArg _ (same.trans (List.map_id entries))

theorem child_erase (value : Located A) (place : Place) : value.erase.child place = (value.child place).map erase := by
  cases value with
  | leaf atom => cases place <;> cases atom <;> rfl
  | array address items => cases place <;> simp [child, Value.child]
  | object address entries =>
    cases place with
    | index position => simp [child, Value.child]
    | key name =>
      rw [erase_object, child, Value.child]
      induction entries with
      | nil => rfl
      | cons entry entries ih =>
        rw [List.map_cons, List.lookup_cons, List.lookup_cons]
        cases named : name == entry.1 <;> simp [named, ih]

end Located

end McpGateway.Shared
