import McpGateway.Shared.GoJson

namespace McpGateway.Shared

def fill {A : Type} (store : Json → A → A) (held : A) (jsons : List Json) : A :=
  jsons.foldl (fun held json => store json held) held

@[simp] theorem fill_cons {A : Type} (store : Json → A → A) (held : A) (json : Json) (jsons : List Json) :
    fill store held (json :: jsons) = fill store (store json held) jsons := rfl

/-- A variable that encoding/json decodes to. A value of another type is refused, but decoding goes on around it, so
`store` is total. `Overwrites jsons held` says that nothing of `held` is seen once `jsons` are stored in turn. -/
structure Target (A V : Type) where
  zero : A
  store : Json → A → A
  accepts : Json → Bool
  view : A → V
  Overwrites : List Json → A → Prop
  overwrites_iff : ∀ jsons held, Overwrites jsons held ↔ view (fill store held jsons) = view (fill store zero jsons)

namespace Target

variable {A B V W : Type}

section

variable {read : Json → Option A}

theorem fill_read_eq_iff (jsons : List Json) (held other : A) :
    fill (fun json held => (read json).getD held) held jsons = fill (fun json held => (read json).getD held) other jsons ↔
      held = other ∨ ∃ json ∈ jsons, (read json).isSome = true := by
  induction jsons generalizing held other with
  | nil => simp [fill]
  | cons json jsons ih =>
    refine (ih _ _).trans ?_
    cases said : read json <;> simp [said]

end

-- A number, a string or a boolean; null leaves it as it is.
def scalar (read : Json → Option A) (zero : A) : Target A A where
  zero := zero
  store json held := (read json).getD held
  accepts json := json = .null ∨ (read json).isSome
  view := id
  Overwrites jsons held := held = zero ∨ ∃ json ∈ jsons, (read json).isSome = true
  overwrites_iff jsons held := (fill_read_eq_iff jsons held zero).symm

mutual

-- A number out of range is left out, which leaves nil in its place.
def looseAny : Json → Value
  | .null => .null
  | .bool value => .bool value
  | .number literal => ((parseFloat64 literal).map .number).getD .null
  | .string value => .string value
  | .array items => .array (looseItems items)
  | .object members => .object (looseMembers [] members)

def looseItems : List Json → List Value
  | [] => []
  | item :: items => looseAny item :: looseItems items

def looseMembers (entries : Object) : List (String × Json) → Object
  | [] => entries
  | (key, mem) :: members => looseMembers (assign entries key (looseAny mem)) members

end

theorem looseMembers_eq (entries : Object) (members : List (String × Json)) : looseMembers entries members =
      looseMembers [] members ++ entries.filter fun entry => entry.1 ∉ members.map Prod.fst := by
  induction members generalizing entries with
  | nil => simp [looseMembers]
  | cons mem members ih =>
    obtain ⟨key, json⟩ := mem
    have split : assign entries key (looseAny json) =
        assign [] key (looseAny json) ++ entries.filter fun entry => entry.1 ≠ key := rfl
    rw [looseMembers, looseMembers, ih, split, List.filter_append, List.filter_filter, ih (assign [] key _),
      List.append_assoc]
    refine congrArg _ (congrArg _ (List.filter_congr fun entry _ => ?_))
    rw [Bool.eq_iff_iff]
    simp [and_comm]

def storeMap : Json → Object → Object
  | .null, _ => []
  | .object members, held => looseMembers held members
  | _, held => held

theorem fill_storeMap (jsons : List Json) (held : Object) : fill storeMap held jsons = fill storeMap [] jsons ++
      if .null ∈ jsons then [] else held.filter fun entry => entry.1 ∉ jsons.flatMap Json.keys := by
  induction jsons generalizing held with
  | nil => simp [fill]
  | cons json jsons ih =>
    rw [fill_cons, fill_cons, ih, ih (storeMap json [])]
    cases json with
    | object members =>
      rw [storeMap, storeMap, looseMembers_eq, List.filter_append, List.filter_filter]
      by_cases cleared : .null ∈ jsons
      · simp [cleared]
      · simp only [cleared, List.mem_cons, reduceCtorEq, or_self, if_false, List.append_assoc]
        refine congrArg _ (congrArg _ (List.filter_congr fun entry _ => ?_))
        rw [Bool.eq_iff_iff]
        simp [and_comm]
    | _ => simp [storeMap, Json.keys]

-- A map[string]any; null takes the map away.
def anyMap : Target Object Object where
  zero := []
  store := storeMap
  accepts json := (decodeMap [] json).toOption.isSome
  view := id
  Overwrites jsons held := .null ∈ jsons ∨ ∀ entry ∈ held, entry.1 ∈ jsons.flatMap Json.keys
  overwrites_iff jsons held := by
    rw [id, id, fill_storeMap jsons held]
    split_ifs with cleared
    · simp [cleared]
    · simp [cleared]

structure Slots (A : Type) where
  slots : Nat → A
  length : Nat

def items : Json → Option (List Json)
  | .array items => some items
  | _ => none

-- null and an empty array come with a new backing array.
def renews : Json → Bool
  | .null => true
  | .array [] => true
  | _ => false

def column (position : Nat) (jsons : List Json) : List Json :=
  jsons.filterMap fun json => (items json).bind (·[position]?)

section

variable (element : Target A V)

def emptySlots : Slots A := ⟨fun _ => element.zero, 0⟩

-- The elements that are there are decoded into, also those beyond the length; the others are zero.
def storeSlots (json : Json) (held : Slots A) : Slots A :=
  if renews json then element.emptySlots
  else
    match items json with
    | none => held
    | some items =>
      ⟨fun position => (items[position]?).elim (held.slots position) (element.store · (held.slots position)), items.length⟩

variable {element}

theorem fill_renewed {jsons : List Json} (renewed : ∃ json ∈ jsons, renews json = true) (held other : Slots A) :
    fill element.storeSlots held jsons = fill element.storeSlots other jsons := by
  obtain ⟨json, mem, renewing⟩ := renewed
  obtain ⟨before, after, rfl⟩ := List.append_of_mem mem
  simp [fill, storeSlots, renewing]

theorem fill_slots {jsons : List Json} (kept : ∀ json ∈ jsons, renews json = false) (held : Slots A) (position : Nat) :
    (fill element.storeSlots held jsons).slots position =
      fill element.store (held.slots position) (column position jsons) := by
  induction jsons generalizing held with
  | nil => rfl
  | cons json jsons ih =>
    obtain ⟨first, kept⟩ := List.forall_mem_cons.mp kept
    rw [fill_cons, ih kept, storeSlots, if_neg (by simp [first]), column, column, List.filterMap_cons]
    cases items json with
    | none => rfl
    | some items => cases held : items[position]? <;> simp [held]

theorem fill_length {jsons : List Json} (kept : ∀ json ∈ jsons, renews json = false) (held : Slots A) :
    (fill element.storeSlots held jsons).length =
      ((jsons.filterMap items).getLast?.map List.length).getD held.length := by
  induction jsons generalizing held with
  | nil => rfl
  | cons json jsons ih =>
    obtain ⟨first, kept⟩ := List.forall_mem_cons.mp kept
    rw [fill_cons, ih kept, storeSlots, if_neg (by simp [first]), List.filterMap_cons]
    cases items json with
    | none => rfl
    | some items =>
      rw [List.getLast?_cons]
      cases (jsons.filterMap Target.items).getLast? <;> rfl

end

def slice (element : Target A V) : Target (Slots A) (List V) where
  zero := element.emptySlots
  store := element.storeSlots
  accepts json := json = .null ∨ ((items json).any (·.all element.accepts))
  view held := (List.range held.length).map fun position => element.view (held.slots position)
  Overwrites jsons held := (∃ json ∈ jsons, renews json = true) ∨
    ((jsons.filterMap items).getLast?.elim (held.length = 0) fun items =>
      ∀ position < items.length, element.Overwrites (column position jsons) (held.slots position))
  overwrites_iff jsons held := by
    by_cases renewed : ∃ json ∈ jsons, renews json = true
    · simp only [renewed, true_or, fill_renewed renewed held element.emptySlots]
    · have kept : ∀ json ∈ jsons, renews json = false := by simpa using renewed
      simp only [renewed, false_or, fill_slots kept, fill_length kept]
      cases (jsons.filterMap items).getLast? with
      | none => simp [emptySlots]
      | some items => simp [emptySlots, element.overwrites_iff]

def members (name : String) : Json → List Json
  | .object members => (members.filter fun mem => matchesField mem.1 name).map Prod.snd
  | _ => []

-- The members that name a field are decoded into it one after the other.
def field (name : String) (target : Target A V) : Target A V where
  zero := target.zero
  store json held := fill target.store held (members name json)
  accepts json := (members name json).all target.accepts
  view := target.view
  Overwrites jsons held := target.Overwrites (jsons.flatMap (members name)) held
  overwrites_iff jsons held := by
    rw [target.overwrites_iff, fill, fill, List.foldl_flatMap, List.foldl_flatMap]
    rfl

theorem fill_pair (first : Target A V) (second : Target B W) (jsons : List Json) (held : A × B) :
    fill (fun json held => (first.store json held.1, second.store json held.2)) held jsons =
      (fill first.store held.1 jsons, fill second.store held.2 jsons) := by
  induction jsons generalizing held with
  | nil => rfl
  | cons json jsons ih => exact ih _

def pair (first : Target A V) (second : Target B W) : Target (A × B) (V × W) where
  zero := (first.zero, second.zero)
  store json held := (first.store json held.1, second.store json held.2)
  accepts json := first.accepts json && second.accepts json
  view held := (first.view held.1, second.view held.2)
  Overwrites jsons held := first.Overwrites jsons held.1 ∧ second.Overwrites jsons held.2
  overwrites_iff jsons held := by
    rw [fill_pair, fill_pair, first.overwrites_iff, second.overwrites_iff, Prod.mk.injEq]

def record (target : Target A V) (see : V → W) (injective : Function.Injective see) : Target A W where
  zero := target.zero
  store := target.store
  accepts json := (json = .null ∨ json.isObject) ∧ target.accepts json
  view held := see (target.view held)
  Overwrites := target.Overwrites
  overwrites_iff jsons held := (target.overwrites_iff jsons held).trans injective.eq_iff.symm

end Target

end McpGateway.Shared
