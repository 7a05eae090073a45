import McpGateway.Shared.FormatFloat
import McpGateway.Shared.SortedEntries

namespace McpGateway.Shared

-- json.Marshal on what json.Unmarshal stored in an `any`: the keys of a map are written in order.
mutual

def toJson : Value → Json
  | .null => .null
  | .bool value => .bool value
  | .number value => .number (formatFloat64 value)
  | .string value => .string value
  | .array items => .array (toJsonItems items)
  | .object entries => .object (toJsonEntries entries)

def toJsonItems : List Value → List Json
  | [] => []
  | item :: items => toJson item :: toJsonItems items

def toJsonEntries : Object → List (String × Json)
  | [] => []
  | (key, value) :: entries => put key (toJson value) (toJsonEntries entries)

end

def marshal (value : Value) : String :=
  String.ofList (toJson value).print

variable {items : List Json} {members : List (String × Json)} {json : Json}

namespace Json

@[elab_as_elim]
theorem nested_induction {motive : Json → Prop} (null : motive .null) (bool : ∀ value, motive (.bool value))
    (number : ∀ literal, motive (.number literal)) (string : ∀ value, motive (.string value))
    (array : ∀ items, (∀ item ∈ items, motive item) → motive (.array items))
    (object : ∀ members, (∀ member ∈ members, motive member.2) → motive (.object members)) (json : Json) :
    motive json :=
  @Json.rec motive (fun items => ∀ item ∈ items, motive item) (fun members => ∀ member ∈ members, motive member.2)
    (fun member => motive member.2) null bool number string array object (by simp)
    (fun _ _ first rest => List.forall_mem_cons.mpr ⟨first, rest⟩) (by simp)
    (fun _ _ first rest => List.forall_mem_cons.mpr ⟨first, rest⟩) (fun _ _ held => held) json

mutual

def canonical (spell : String → String) : Json → Json
  | .null => .null
  | .bool value => .bool value
  | .number literal => .number (spell literal)
  | .string value => .string value
  | .array items => .array (canonicalItems spell items)
  | .object members => .object (collapseEntries (canonicalMembers spell members))

def canonicalItems (spell : String → String) : List Json → List Json
  | [] => []
  | item :: items => canonical spell item :: canonicalItems spell items

def canonicalMembers (spell : String → String) : List (String × Json) → List (String × Json)
  | [] => []
  | (key, value) :: members => (key, canonical spell value) :: canonicalMembers spell members

end

-- What the tree says when numbers are exact decimals and the last of equal keys counts.
mutual

def exactValue : Json → Value
  | .null => .null
  | .bool value => .bool value
  | .number literal => .number (decimalOfLiteral literal).value
  | .string value => .string value
  | .array items => .array (exactItems items)
  | .object members => .object (collapseEntries (exactMembers members))

def exactItems : List Json → List Value
  | [] => []
  | item :: items => exactValue item :: exactItems items

def exactMembers : List (String × Json) → List (String × Value)
  | [] => []
  | (key, value) :: members => (key, exactValue value) :: exactMembers members

end

-- The numbers the tree still has when of equal keys only the last is kept are spelled as before, up to their value.
mutual

def KeepsNumbers (spell : String → String) : Json → Prop
  | .null => True
  | .bool _ => True
  | .number literal => (decimalOfLiteral (spell literal)).value = (decimalOfLiteral literal).value
  | .string _ => True
  | .array items => ∀ kept ∈ keepsItems spell items, kept
  | .object members => ∀ entry ∈ collapseEntries (keepsMembers spell members), entry.2

def keepsItems (spell : String → String) : List Json → List Prop
  | [] => []
  | item :: items => KeepsNumbers spell item :: keepsItems spell items

def keepsMembers (spell : String → String) : List (String × Json) → List (String × Prop)
  | [] => []
  | (key, value) :: members => (key, KeepsNumbers spell value) :: keepsMembers spell members

end

section Spelling

variable (spell : String → String)

theorem canonicalItems_eq_map (items : List Json) : canonicalItems spell items = items.map (canonical spell) := by
  induction items with
  | nil => rfl
  | cons item items ih => rw [canonicalItems, ih, List.map_cons]

theorem canonicalMembers_eq_map (members : List (String × Json)) :
    canonicalMembers spell members = members.map fun member => (member.1, canonical spell member.2) := by
  induction members with
  | nil => rfl
  | cons member members ih => rw [canonicalMembers, ih, List.map_cons]

theorem exactItems_eq_map (items : List Json) : exactItems items = items.map exactValue := by
  induction items with
  | nil => rfl
  | cons item items ih => rw [exactItems, ih, List.map_cons]

theorem exactMembers_eq_map (members : List (String × Json)) :
    exactMembers members = members.map fun member => (member.1, exactValue member.2) := by
  induction members with
  | nil => rfl
  | cons member members ih => rw [exactMembers, ih, List.map_cons]

theorem keepsItems_eq_map (items : List Json) : keepsItems spell items = items.map (KeepsNumbers spell) := by
  induction items with
  | nil => rfl
  | cons item items ih => rw [keepsItems, ih, List.map_cons]

theorem keepsMembers_eq_map (members : List (String × Json)) :
    keepsMembers spell members = members.map fun member => (member.1, KeepsNumbers spell member.2) := by
  induction members with
  | nil => rfl
  | cons member members ih => rw [keepsMembers, ih, List.map_cons]

theorem canonical_object (members : List (String × Json)) : canonical spell (.object members) =
      .object (collapseEntries (members.map fun member => (member.1, canonical spell member.2))) := by
  rw [canonical, canonicalMembers_eq_map]

theorem exactValue_canonical_iff (json : Json) :
    exactValue (canonical spell json) = exactValue json ↔ KeepsNumbers spell json := by
  induction json using nested_induction with
  | null => simp [canonical, KeepsNumbers]
  | bool => simp [canonical, KeepsNumbers]
  | number => simp [canonical, exactValue, KeepsNumbers]
  | string => simp [canonical, KeepsNumbers]
  | array items ih =>
    simp only [canonical, exactValue, KeepsNumbers, canonicalItems_eq_map, exactItems_eq_map, keepsItems_eq_map,
      List.map_map, Value.array.injEq, List.map_inj_left, List.forall_mem_map]
    exact forall₂_congr ih
  | object members ih =>
    have same : exactValue (canonical spell (.object members)) =
        .object ((collapseEntries members).map fun member => (member.1, exactValue (canonical spell member.2))) := by
      rw [canonical_object, exactValue, exactMembers_eq_map, map_collapseEntries,
        collapseEntries_of_ascending (ascending_collapseEntries _), List.map_map]
      exact congrArg Value.object (map_collapseEntries (fun value => exactValue (canonical spell value)) members).symm
    rw [same, exactValue, exactMembers_eq_map, ← map_collapseEntries, KeepsNumbers, keepsMembers_eq_map,
      ← map_collapseEntries, Value.object.injEq, List.map_inj_left, List.forall_mem_map]
    refine forall₂_congr fun member held => ?_
    rw [Prod.mk.injEq, eq_self, true_and]
    exact ih member (mem_collapseEntries held)

variable {depth : Nat}

theorem nestingItems_le_iff : nestingItems items ≤ depth ↔ ∀ item ∈ items, item.nesting ≤ depth := by
  induction items with
  | nil => simp [nestingItems]
  | cons item items ih => rw [nestingItems, max_le_iff, ih, List.forall_mem_cons]

theorem nestingMembers_le_iff : nestingMembers members ≤ depth ↔ ∀ member ∈ members, member.2.nesting ≤ depth := by
  induction members with
  | nil => simp [nestingMembers]
  | cons member members ih => rw [nestingMembers, max_le_iff, ih, List.forall_mem_cons]

theorem nesting_canonical_le (json : Json) : (canonical spell json).nesting ≤ json.nesting := by
  induction json using nested_induction with
  | null => exact le_rfl
  | bool => exact le_rfl
  | number => exact le_rfl
  | string => exact le_rfl
  | array items ih =>
    rw [canonical, canonicalItems_eq_map, nesting, nesting, Nat.add_le_add_iff_right, nestingItems_le_iff,
      List.forall_mem_map]
    intro item member
    exact (ih item member).trans (nestingItems_le_iff.mp le_rfl item member)
  | object members ih =>
    rw [canonical_object, nesting, nesting, Nat.add_le_add_iff_right, nestingMembers_le_iff]
    intro entry held
    obtain ⟨member, within, rfl⟩ := List.mem_map.mp (mem_collapseEntries held)
    exact (ih member within).trans (nestingMembers_le_iff.mp le_rfl member within)

end Spelling

mutual

def Marshalled : Json → Prop
  | .null => True
  | .bool _ => True
  | .number literal => ∃ value, parseFloat64 literal = some value ∧ formatFloat64 value = literal
  | .string _ => True
  | .array items => MarshalledItems items
  | .object members => Ascending members ∧ MarshalledMembers members

def MarshalledItems : List Json → Prop
  | [] => True
  | item :: items => Marshalled item ∧ MarshalledItems items

def MarshalledMembers : List (String × Json) → Prop
  | [] => True
  | (_, value) :: members => Marshalled value ∧ MarshalledMembers members

end

theorem marshalledItems_iff : MarshalledItems items ↔ ∀ item ∈ items, item.Marshalled := by
  induction items with
  | nil => simp [MarshalledItems]
  | cons item items ih => rw [MarshalledItems, ih, List.forall_mem_cons]

theorem marshalledMembers_iff : MarshalledMembers members ↔ ∀ member ∈ members, member.2.Marshalled := by
  induction members with
  | nil => simp [MarshalledMembers]
  | cons member members ih => rw [MarshalledMembers, ih, List.forall_mem_cons]

theorem printableItems_iff : PrintableItems items ↔ ∀ item ∈ items, item.Printable := by
  induction items with
  | nil => simp [PrintableItems]
  | cons item items ih => rw [PrintableItems, ih, List.forall_mem_cons]

theorem printableMembers_iff : PrintableMembers members ↔ ∀ member ∈ members, member.2.Printable := by
  induction members with
  | nil => simp [PrintableMembers]
  | cons member members ih => rw [PrintableMembers, ih, List.forall_mem_cons]

theorem Marshalled.printable (marshalled : json.Marshalled) : json.Printable := by
  induction json using nested_induction with
  | null => trivial
  | bool => trivial
  | number literal =>
    obtain ⟨value, -, written⟩ := marshalled
    rw [Printable, ← written]
    exact numberText_formatFloat64 value
  | string => trivial
  | array items ih =>
    exact printableItems_iff.mpr fun item member => ih item member (marshalledItems_iff.mp marshalled item member)
  | object members ih =>
    exact printableMembers_iff.mpr fun member held => ih member held (marshalledMembers_iff.mp marshalled.2 member held)

end Json

open Json

theorem ascending_toJsonEntries (entries : Object) : Ascending (toJsonEntries entries) := by
  induction entries with
  | nil => exact List.Pairwise.nil
  | cons entry entries ih => exact ascending_put entry.1 (toJson entry.2) ih

theorem lookup_toJsonEntries (entries : Object) (key : String) :
    (toJsonEntries entries).lookup key = (entries.lookup key).map toJson := by
  induction entries with
  | nil => rfl
  | cons entry entries ih =>
    obtain ⟨name, value⟩ := entry
    rw [toJsonEntries, lookup_put _ _ _ (ascending_toJsonEntries entries), ih, List.lookup_cons]
    by_cases same : key = name
    · simp [same]
    · have skipped : (key == name) = false := by simpa using same
      rw [if_neg same, skipped]

theorem toJsonEntries_assign (entries : Object) (key : String) (value : Value) :
    toJsonEntries (assign entries key value) = put key (toJson value) (toJsonEntries entries) := by
  refine (ascending_toJsonEntries _).ext (ascending_put _ _ (ascending_toJsonEntries entries)) fun other => ?_
  rw [lookup_toJsonEntries, lookup_assign, lookup_put _ _ _ (ascending_toJsonEntries entries), lookup_toJsonEntries]
  split_ifs <;> rfl

def reprint (literal : String) : String :=
  ((parseFloat64 literal).map formatFloat64).getD literal

variable {values : List Value} {entries start : Object} {value : Value} {literal : String}

theorem decodeItems_cons {item : Json} (decoded : decodeItems (item :: items) = .ok values) :
    ∃ value rest, decodeAny item = .ok value ∧ decodeItems items = .ok rest ∧ values = value :: rest := by
  rw [decodeItems] at decoded
  cases first : decodeAny item with
  | error error =>
    rw [first] at decoded
    cases decoded
  | ok value =>
    cases others : decodeItems items with
    | error error =>
      rw [first, others] at decoded
      cases decoded
    | ok rest =>
      rw [first, others] at decoded
      cases decoded
      exact ⟨value, rest, rfl, rfl, rfl⟩

theorem decodeMembers_cons {merged : Object} {key : String}
    (decoded : decodeMembers entries ((key, json) :: members) = .ok merged) :
    ∃ value, decodeAny json = .ok value ∧ decodeMembers (assign entries key value) members = .ok merged := by
  rw [decodeMembers] at decoded
  cases read : decodeAny json with
  | error error =>
    rw [read] at decoded
    cases decoded
  | ok value =>
    rw [read] at decoded
    exact ⟨value, rfl, decoded⟩

theorem decodeAny_array (decoded : decodeAny (.array items) = .ok value) :
    ∃ values, decodeItems items = .ok values ∧ value = .array values := by
  rw [decodeAny] at decoded
  cases read : decodeItems items with
  | error error =>
    rw [read] at decoded
    cases decoded
  | ok values =>
    rw [read] at decoded
    cases decoded
    exact ⟨values, rfl, rfl⟩

theorem decodeAny_object (decoded : decodeAny (.object members) = .ok value) :
    ∃ entries, decodeMembers [] members = .ok entries ∧ value = .object entries := by
  rw [decodeAny] at decoded
  cases read : decodeMembers [] members with
  | error error =>
    rw [read] at decoded
    cases decoded
  | ok entries =>
    rw [read] at decoded
    cases decoded
    exact ⟨entries, rfl, rfl⟩

theorem decodeAny_number (decoded : decodeAny (.number literal) = .ok value) :
    ∃ x, parseFloat64 literal = some x ∧ value = .number x := by
  rw [decodeAny] at decoded
  unfold decodeNumber at decoded
  cases read : parseFloat64 literal with
  | none =>
    rw [read] at decoded
    exact absurd decoded (by simp)
  | some x =>
    rw [read] at decoded
    exact ⟨x, rfl, (Except.ok.inj decoded).symm⟩

theorem toJsonItems_decodeItems
    (each : ∀ item ∈ items, ∀ value, decodeAny item = .ok value → toJson value = canonical reprint item)
    (decoded : decodeItems items = .ok values) : toJsonItems values = items.map (canonical reprint) := by
  induction items generalizing values with
  | nil =>
    cases decoded
    rfl
  | cons item items ih =>
    obtain ⟨value, rest, first, others, rfl⟩ := decodeItems_cons decoded
    obtain ⟨here, later⟩ := List.forall_mem_cons.mp each
    rw [toJsonItems, here value first, ih later others, List.map_cons]

theorem toJsonEntries_decodeMembers
    (each : ∀ member ∈ members, ∀ value, decodeAny member.2 = .ok value → toJson value = canonical reprint member.2)
    (decoded : decodeMembers start members = .ok entries) :
    toJsonEntries entries = (members.map fun member => (member.1, canonical reprint member.2)).foldl
      (fun sorted entry => put entry.1 entry.2 sorted) (toJsonEntries start) := by
  induction members generalizing start with
  | nil =>
    cases decoded
    rfl
  | cons member members ih =>
    obtain ⟨value, first, others⟩ := decodeMembers_cons decoded
    obtain ⟨here, later⟩ := List.forall_mem_cons.mp each
    rw [ih later others, toJsonEntries_assign, here value first, List.map_cons, List.foldl_cons]

theorem toJson_decodeAny (json : Json) (decoded : decodeAny json = .ok value) :
    toJson value = canonical reprint json := by
  induction json using nested_induction generalizing value with
  | null =>
    cases decoded
    rfl
  | bool =>
    cases decoded
    rfl
  | number literal =>
    obtain ⟨x, read, rfl⟩ := decodeAny_number decoded
    rw [toJson, canonical, reprint, read, Option.map_some, Option.getD_some]
  | string =>
    cases decoded
    rfl
  | array items ih =>
    obtain ⟨values, read, rfl⟩ := decodeAny_array decoded
    rw [toJson, canonical, canonicalItems_eq_map,
      toJsonItems_decodeItems (fun item member value => ih item member) read]
  | object members ih =>
    obtain ⟨entries, read, rfl⟩ := decodeAny_object decoded
    rw [toJson, canonical_object, toJsonEntries_decodeMembers (fun member held value => ih member held) read]
    rfl

theorem reprint_of_parse {x : Rat} (read : parseFloat64 literal = some x) : reprint literal = formatFloat64 x := by
  rw [reprint, read, Option.map_some, Option.getD_some]

theorem decodeItems_each (decoded : decodeItems items = .ok values) :
    ∀ item ∈ items, ∃ value, decodeAny item = .ok value := by
  induction items generalizing values with
  | nil => simp
  | cons item items ih =>
    obtain ⟨value, rest, first, others, -⟩ := decodeItems_cons decoded
    exact List.forall_mem_cons.mpr ⟨⟨value, first⟩, ih others⟩

theorem decodeMembers_each (decoded : decodeMembers start members = .ok entries) :
    ∀ member ∈ members, ∃ value, decodeAny member.2 = .ok value := by
  induction members generalizing start with
  | nil => simp
  | cons member members ih =>
    obtain ⟨value, first, others⟩ := decodeMembers_cons decoded
    exact List.forall_mem_cons.mpr ⟨⟨value, first⟩, ih others⟩

theorem marshalled_canonical (json : Json) (decoded : decodeAny json = .ok value) :
    (canonical reprint json).Marshalled := by
  induction json using nested_induction generalizing value with
  | null => trivial
  | bool => trivial
  | number literal =>
    obtain ⟨x, read, -⟩ := decodeAny_number decoded
    exact ⟨x, by rw [reprint_of_parse read, parseFloat64_formatFloat64 read], (reprint_of_parse read).symm⟩
  | string => trivial
  | array items ih =>
    obtain ⟨values, read, -⟩ := decodeAny_array decoded
    rw [canonical, canonicalItems_eq_map, Marshalled, marshalledItems_iff, List.forall_mem_map]
    intro item member
    obtain ⟨value, one⟩ := decodeItems_each read item member
    exact ih item member one
  | object members ih =>
    obtain ⟨entries, read, -⟩ := decodeAny_object decoded
    rw [canonical_object, Marshalled, marshalledMembers_iff]
    refine ⟨ascending_collapseEntries _, fun entry held => ?_⟩
    obtain ⟨member, within, rfl⟩ := List.mem_map.mp (mem_collapseEntries held)
    obtain ⟨value, one⟩ := decodeMembers_each read member within
    exact ih member within one

theorem decodeItems_total (each : ∀ item ∈ items, ∃ value, decodeAny item = .ok value) :
    ∃ values, decodeItems items = .ok values := by
  induction items with
  | nil => exact ⟨[], rfl⟩
  | cons item items ih =>
    obtain ⟨⟨value, first⟩, later⟩ := List.forall_mem_cons.mp each
    obtain ⟨values, others⟩ := ih later
    refine ⟨value :: values, ?_⟩
    rw [decodeItems, first, others]
    rfl

theorem decodeMembers_total (each : ∀ member ∈ members, ∃ value, decodeAny member.2 = .ok value) (start : Object) :
    ∃ entries, decodeMembers start members = .ok entries := by
  induction members generalizing start with
  | nil => exact ⟨start, rfl⟩
  | cons member members ih =>
    obtain ⟨⟨value, first⟩, later⟩ := List.forall_mem_cons.mp each
    obtain ⟨entries, others⟩ := ih later (assign start member.1 value)
    refine ⟨entries, ?_⟩
    rw [decodeMembers, first]
    exact others

theorem canonical_marshalled (json : Json) (marshalled : json.Marshalled) : canonical reprint json = json := by
  induction json using nested_induction with
  | null => rfl
  | bool => rfl
  | number literal =>
    obtain ⟨x, read, written⟩ := marshalled
    rw [canonical, reprint_of_parse read, written]
  | string => rfl
  | array items ih =>
    have each : ∀ item ∈ items, canonical reprint item = item :=
      fun item member => ih item member (marshalledItems_iff.mp marshalled item member)
    rw [canonical, canonicalItems_eq_map, List.map_congr_left each, List.map_id']
  | object members ih =>
    have each : ∀ member ∈ members, (member.1, canonical reprint member.2) = member :=
      fun member held => Prod.ext rfl (ih member held (marshalledMembers_iff.mp marshalled.2 member held))
    rw [canonical_object, List.map_congr_left each, List.map_id', collapseEntries_of_ascending marshalled.1]

theorem Json.Marshalled.decodes (marshalled : json.Marshalled) :
    ∃ value, decodeAny json = .ok value ∧ toJson value = json := by
  have decodes : ∃ value, decodeAny json = .ok value := by
    induction json using nested_induction with
    | null => exact ⟨_, rfl⟩
    | bool => exact ⟨_, rfl⟩
    | number literal =>
      obtain ⟨x, read, -⟩ := marshalled
      exact ⟨.number x, by rw [decodeAny]; unfold decodeNumber; rw [read]⟩
    | string => exact ⟨_, rfl⟩
    | array items ih =>
      obtain ⟨values, read⟩ := decodeItems_total
        fun item member => ih item member (marshalledItems_iff.mp marshalled item member)
      exact ⟨.array values, by rw [decodeAny, read]; rfl⟩
    | object members ih =>
      obtain ⟨entries, read⟩ := decodeMembers_total
        (fun member held => ih member held (marshalledMembers_iff.mp marshalled.2 member held)) []
      exact ⟨.object entries, by rw [decodeAny, read]; rfl⟩
  obtain ⟨value, decoded⟩ := decodes
  exact ⟨value, decoded, by rw [toJson_decodeAny json decoded, canonical_marshalled json marshalled]⟩

end McpGateway.Shared
