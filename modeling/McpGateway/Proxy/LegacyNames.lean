import McpGateway.Proxy.Addressing
import McpGateway.Shared.GoMarshal

namespace McpGateway.Proxy

open Shared Policy

inductive Rewrite where
  | unchanged
  | failed
  | changed (body fromName toName : String)
  deriving DecidableEq

-- A type assertion that does not hold gives the zero value.
def stringAt (entries : Object) (key : String) : String :=
  match entries.lookup key with
  | some (.string value) => value
  | _ => ""

def objectAt (entries : Object) (key : String) : Option Object :=
  match entries.lookup key with
  | some (.object inner) => some inner
  | _ => none

open Json (parse canonical nesting)

-- json.Unmarshal of a body into a map[string]any.
def decodeBody (body : String) : Option Object :=
  (parse body).bind fun json => (decodeMap [] json).toOption

-- rewriteLegacyToolCallName on a whole body. What was decoded can always be encoded again.
def rewriteLegacyToolCall (body serverHint : String) : Rewrite :=
  if trimSpace serverHint = "" ∨ equalFold (trimSpace serverHint) "federation" then .unchanged
  else
    match decodeBody body with
    | none => .failed
    | some envelope =>
      if trimSpace (stringAt envelope "method") = "tools/call" then
        match objectAt envelope "params" with
        | none => .unchanged
        | some params =>
          match rewriteLegacyToolCallName (stringAt params "name") serverHint with
          | none => .unchanged
          | some federated =>
            .changed (marshal (.object (assign envelope "params" (.object (assign params "name" (.string federated))))))
              (trimSpace (stringAt params "name")) federated
      else .unchanged

structure CallDecoder where
  fields : List String
  paramFields : List String
  apart : ∀ tag ∈ fields, matchesField "params" tag = false
  paramsApart : ∀ tag ∈ paramFields, matchesField "name" tag = false

structure CallReading where
  method : String
  name : String
  fields : List (Option Value)
  paramFields : List (Option Value)

def readField (members : List (String × Json)) (tag : String) : Option Value :=
  (fieldMembers tag members).getLast?.map Json.exactValue

def CallDecoder.read (decoder : CallDecoder) (json : Json) : Option CallReading := do
  let members ← structMembers [json]
  let method ← decodeStrings (fieldMembers "method" members)
  let params ← structMembers (fieldMembers "params" members)
  let name ← decodeStrings (fieldMembers "name" params)
  return ⟨method, name, decoder.fields.map (readField members), decoder.paramFields.map (readField params)⟩

def CallDecoder.readBody (decoder : CallDecoder) (body : String) : Option CallReading :=
  (parse body).bind decoder.read

def jsonMembers : Json → List (String × Json)
  | .object members => members
  | _ => []

def callParams (json : Json) : List (String × Json) :=
  (fieldMembers "params" (jsonMembers json)).flatMap jsonMembers

def SpelledAlike (tag : String) (members : List (String × Json)) : Prop :=
  ∀ left ∈ members, ∀ right ∈ members, matchesField left.1 tag = true → matchesField right.1 tag = true →
    left.1 = right.1

/-- The method, the parameters and the tool's name are given once, every other field in one spelling. -/
structure CallDecoder.Plain (decoder : CallDecoder) (json : Json) : Prop where
  method : (fieldMembers "method" (jsonMembers json)).length ≤ 1
  params : (fieldMembers "params" (jsonMembers json)).length ≤ 1
  name : (fieldMembers "name" (callParams json)).length ≤ 1
  fields : ∀ tag ∈ decoder.fields, SpelledAlike tag (jsonMembers json)
  paramFields : ∀ tag ∈ decoder.paramFields, SpelledAlike tag (callParams json)

def CallDecoder.KeepsNumbers (decoder : CallDecoder) (json : Json) : Prop :=
  (∀ tag ∈ decoder.fields, ∀ value ∈ (fieldMembers tag (jsonMembers json)).getLast?, value.KeepsNumbers reprint) ∧
    ∀ tag ∈ decoder.paramFields, ∀ value ∈ (fieldMembers tag (callParams json)).getLast?, value.KeepsNumbers reprint

-- No blank comes to stand in front when the header loses its "mcp-".
def Settled (serverHint : String) : Prop :=
  trimSpace (displayName (trimSpace serverHint)) = displayName (trimSpace serverHint) ∨
    hasPrefix (trimSpace (displayName (trimSpace serverHint)) ++ ".") "mcp." = true

variable {key federated : String} {value json : Json} {entries : Object}

section Fields

variable {tag : String} {members : List (String × Json)}

theorem fieldMembers_append (tag : String) (members others : List (String × Json)) :
    fieldMembers tag (members ++ others) = fieldMembers tag members ++ fieldMembers tag others :=
  List.filterMap_append

theorem fieldMembers_single (tag key : String) (value : Json) :
    fieldMembers tag [(key, value)] = if matchesField key tag then [value] else [] := by
  simp only [fieldMembers, List.filterMap_cons, List.filterMap_nil]
  split_ifs <;> rfl

theorem fieldMembers_cons (tag key : String) (value : Json) (members : List (String × Json)) :
    fieldMembers tag ((key, value) :: members) =
      (if matchesField key tag then [value] else []) ++ fieldMembers tag members := by
  rw [← fieldMembers_single]
  exact fieldMembers_append tag [(key, value)] members

theorem fieldMembers_map (tag : String) (f : Json → Json) (members : List (String × Json)) :
    fieldMembers tag (members.map fun mem => (mem.1, f mem.2)) = (fieldMembers tag members).map f := by
  induction members with
  | nil => rfl
  | cons mem members ih =>
    rw [List.map_cons, fieldMembers_cons, fieldMembers_cons, ih, List.map_append]
    split_ifs <;> rfl

theorem fieldMembers_eq_nil (none : ∀ mem ∈ members, matchesField mem.1 tag = false) :
    fieldMembers tag members = [] := by
  refine List.filterMap_eq_nil_iff.mpr fun mem held => ?_
  simp [none mem held]

theorem fieldMembers_put_other (value : Json) (other : matchesField key tag = false) :
    fieldMembers tag (put key value members) = fieldMembers tag members := by
  induction members with
  | nil => simp [put, fieldMembers_cons, other]
  | cons mem members ih =>
    obtain ⟨first, held⟩ := mem
    unfold put
    split_ifs with before same
    · rw [fieldMembers_cons tag key, other]
      rfl
    · rw [fieldMembers_cons, fieldMembers_cons, same, other]
      rfl
    · rw [fieldMembers_cons, fieldMembers_cons, ih]

theorem fieldMembers_put_own (value : Json) (own : matchesField key tag = true) (ascending : Ascending members)
    (alike : ∀ mem ∈ members, matchesField mem.1 tag = true → mem.1 = key) :
    fieldMembers tag (put key value members) = [value] := by
  induction members with
  | nil => simp [put, own, fieldMembers]
  | cons mem members ih =>
    obtain ⟨first, held⟩ := mem
    obtain ⟨above, later⟩ := List.pairwise_cons.mp ascending
    have unnamed {entries : List (String × Json)} (within : entries ⊆ (first, held) :: members)
        (greater : ∀ entry ∈ entries, key.toList < entry.1.toList) : fieldMembers tag entries = [] := by
      apply fieldMembers_eq_nil
      intro entry mem
      by_contra named
      rw [Bool.not_eq_false] at named
      exact lt_irrefl _ (alike entry (within mem) named ▸ greater entry mem)
    unfold put
    split_ifs with before same
    · rw [fieldMembers_cons tag key, own, unnamed (List.Subset.refl _)]
      · rfl
      · exact List.forall_mem_cons.mpr ⟨before, fun entry mem => before.trans (above entry mem)⟩
    · rw [fieldMembers_cons, own, unnamed (List.subset_cons_self _ _) (same ▸ above)]
      rfl
    · have skipped : matchesField first tag = false := by
        by_contra named
        rw [Bool.not_eq_false] at named
        exact same (alike (first, held) List.mem_cons_self named)
      rw [fieldMembers_cons, skipped, ih later fun entry mem => alike entry (List.mem_cons_of_mem _ mem)]
      rfl

theorem SpelledAlike.append_left {others : List (String × Json)} (alike : SpelledAlike tag (members ++ others)) :
    SpelledAlike tag members :=
  fun left first right second => alike left (List.mem_append_left _ first) right (List.mem_append_left _ second)

theorem fieldMembers_collapse (alike : SpelledAlike tag members) :
    fieldMembers tag (collapseEntries members) = (fieldMembers tag members).getLast?.toList := by
  induction members using List.reverseRecOn with
  | nil => rfl
  | append_singleton members last ih =>
    obtain ⟨key, value⟩ := last
    rw [collapseEntries_append, fieldMembers_append, fieldMembers_single]
    cases own : matchesField key tag with
    | false =>
      rw [fieldMembers_put_other value own, ih alike.append_left]
      simp
    | true =>
      rw [fieldMembers_put_own value own (ascending_collapseEntries members)]
      · simp
      · intro entry held named
        exact alike entry (List.mem_append_left _ (mem_collapseEntries held)) (key, value) (by simp) named own

theorem spelledAlike_of_once (once : (fieldMembers tag members).length ≤ 1) : SpelledAlike tag members := by
  induction members with
  | nil => exact fun left mem => absurd mem List.not_mem_nil
  | cons mem members ih =>
    obtain ⟨key, value⟩ := mem
    rw [fieldMembers_cons, List.length_append] at once
    intro left first right second named alsoNamed
    cases own : matchesField key tag with
    | false =>
      have later {entry : String × Json} (held : entry ∈ (key, value) :: members)
          (named : matchesField entry.1 tag = true) : entry ∈ members := by
        rcases List.mem_cons.mp held with rfl | later
        · rw [own] at named
          cases named
        · exact later
      exact ih (by omega) left (later first named) right (later second alsoNamed) named alsoNamed
    | true =>
      have rest : fieldMembers tag members = [] := by
        rw [own, if_pos rfl, List.length_singleton] at once
        exact List.eq_nil_of_length_eq_zero (by omega)
      have head {entry : String × Json} (held : entry ∈ (key, value) :: members)
          (named : matchesField entry.1 tag = true) : entry = (key, value) := by
        rcases List.mem_cons.mp held with same | later
        · exact same
        · have listed := List.filterMap_eq_nil_iff.mp rest entry later
          simp [named] at listed
      rw [head first named, head second alsoNamed]

theorem mem_of_lookup (found : members.reverse.lookup key = some value) : (key, value) ∈ members := by
  induction members using List.reverseRecOn with
  | nil => cases found
  | append_singleton members last ih =>
    rw [List.reverse_append, List.reverse_singleton, List.singleton_append, List.lookup_cons] at found
    cases same : key == last.1 with
    | true =>
      rw [same] at found
      cases found
      rw [eq_of_beq same]
      simp
    | false =>
      rw [same] at found
      exact List.mem_append_left _ (ih found)

theorem fieldMembers_once (once : (fieldMembers tag members).length ≤ 1)
    (found : members.reverse.lookup key = some value) (own : matchesField key tag = true) :
    fieldMembers tag members = [value] := by
  have listed : value ∈ fieldMembers tag members :=
    List.mem_filterMap.mpr ⟨(key, value), mem_of_lookup found, by simp [own]⟩
  obtain ⟨only, single⟩ := List.length_eq_one_iff.mp (le_antisymm once (List.length_pos_of_mem listed))
  rw [single, List.mem_singleton] at listed
  rw [single, listed]

theorem lookup_map (f : Json → Json) (key : String) (members : List (String × Json)) :
    (members.map fun mem => (mem.1, f mem.2)).lookup key = (members.lookup key).map f := by
  induction members with
  | nil => rfl
  | cons mem members ih =>
    rw [List.map_cons, List.lookup_cons, List.lookup_cons, ih]
    cases key == mem.1 <;> rfl

end Fields

def rewritten (members : List (String × Json)) : List (String × Json) :=
  members.map fun mem => (mem.1, mem.2.canonical reprint)

def renamedParams (params : List (String × Json)) (name : String) : List (String × Json) :=
  collapseEntries (rewritten params ++ [("name", .string name)])

def renamedMembers (members params : List (String × Json)) (name : String) : List (String × Json) :=
  collapseEntries (rewritten members ++ [("params", .object (renamedParams params name))])

theorem toJsonEntries_decoded {members : List (String × Json)} (decoded : decodeMembers [] members = .ok entries) :
    toJsonEntries entries = collapseEntries (rewritten members) :=
  toJsonEntries_decodeMembers (fun mem _ _ => toJson_decodeAny mem.2) decoded

theorem lookup_decoded {members : List (String × Json)} {value : Value}
    (same : toJsonEntries entries = collapseEntries (rewritten members)) (found : entries.lookup key = some value) :
    ∃ json, members.reverse.lookup key = some json ∧ json.canonical reprint = toJson value := by
  have listed := lookup_toJsonEntries entries key
  rw [same, lookup_collapseEntries, rewritten, ← List.map_reverse, lookup_map, found] at listed
  exact Option.map_eq_some_iff.mp listed

theorem marshalled_rewritten {members : List (String × Json)} (decoded : decodeMembers [] members = .ok entries)
    (key : String) (marshalled : value.Marshalled) :
    (Json.object (collapseEntries (rewritten members ++ [(key, value)]))).Marshalled := by
  refine ⟨ascending_collapseEntries _, Json.marshalledMembers_iff.mpr fun entry held => ?_⟩
  rcases List.mem_append.mp (mem_collapseEntries held) with old | new
  · obtain ⟨mem, within, rfl⟩ := List.mem_map.mp old
    obtain ⟨read, one⟩ := decodeMembers_each decoded mem within
    exact marshalled_canonical mem.2 one
  · rw [List.mem_singleton.mp new]
    exact marshalled

theorem nesting_rewritten {members : List (String × Json)} {depth : Nat}
    (nested : Json.nestingMembers members ≤ depth) (key : String) (small : value.nesting ≤ depth) :
    Json.nestingMembers (collapseEntries (rewritten members ++ [(key, value)])) ≤ depth := by
  refine Json.nestingMembers_le_iff.mpr fun entry held => ?_
  rcases List.mem_append.mp (mem_collapseEntries held) with old | new
  · obtain ⟨mem, within, rfl⟩ := List.mem_map.mp old
    exact (Json.nesting_canonical_le reprint mem.2).trans (Json.nestingMembers_le_iff.mp nested mem within)
  · rw [List.mem_singleton.mp new]
    exact small

theorem canonical_eq_string {value : String} (same : json.canonical reprint = .string value) :
    json = .string value := by
  cases json <;> simp_all [canonical]

theorem canonical_eq_object {entries : List (String × Json)} (same : json.canonical reprint = .object entries) :
    ∃ members, json = .object members ∧ entries = collapseEntries (rewritten members) := by
  cases json with
  | object members =>
    rw [Json.canonical_object] at same
    cases same
    exact ⟨members, rfl, rfl⟩
  | _ => cases same

theorem lookup_of_stringAt (given : stringAt entries key ≠ "") :
    entries.lookup key = some (.string (stringAt entries key)) := by
  unfold stringAt at given ⊢
  split at given
  · next found => rw [found]
  · exact absurd rfl given

theorem lookup_of_objectAt {inner : Object} (given : objectAt entries key = some inner) :
    entries.lookup key = some (.object inner) := by
  unfold objectAt at given
  split at given
  · next found =>
    cases given
    exact found
  · cases given

theorem decodeBody_object {body : String} {envelope : Object} (decoded : decodeBody body = some envelope)
    (nonempty : envelope ≠ []) :
    ∃ members, parse body = some (.object members) ∧ decodeMembers [] members = .ok envelope := by
  obtain ⟨json, parsed, read⟩ := Option.bind_eq_some_iff.mp decoded
  cases json with
  | null => exact absurd (Option.some.inj read).symm nonempty
  | object members =>
    refine ⟨members, parsed, ?_⟩
    rw [decodeMap] at read
    cases result : decodeMembers [] members with
    | error error =>
      rw [result] at read
      cases read
    | ok entries =>
      rw [result] at read
      cases read
      rfl
  | _ => cases read

structure Renames (body serverHint changed fromName toName : String) (members params : List (String × Json))
    (method name : String) : Prop where
  parsed : parse body = some (.object members)
  methodGiven : members.reverse.lookup "method" = some (.string method)
  calls : trimSpace method = "tools/call"
  paramsGiven : members.reverse.lookup "params" = some (.object params)
  nameGiven : params.reverse.lookup "name" = some (.string name)
  hinted : ¬ (trimSpace serverHint = "" ∨ equalFold (trimSpace serverHint) "federation" = true)
  federated : rewriteLegacyToolCallName name serverHint = some toName
  sent : fromName = trimSpace name
  written : changed = String.ofList (Json.object (renamedMembers members params toName)).print
  marshalled : (Json.object (renamedMembers members params toName)).Marshalled
  nested : (Json.object (renamedMembers members params toName)).nesting ≤ Json.maxNestingDepth

theorem rewriteLegacyToolCallName_named {name serverHint : String}
    (renamed : rewriteLegacyToolCallName name serverHint = some federated) : name ≠ "" := by
  rintro rfl
  simp [rewriteLegacyToolCallName] at renamed

theorem rewriteLegacyToolCall_changed {body serverHint changed fromName toName : String}
    (outcome : rewriteLegacyToolCall body serverHint = .changed changed fromName toName) :
    ∃ members params method name, Renames body serverHint changed fromName toName members params method name := by
  unfold rewriteLegacyToolCall at outcome
  split_ifs at outcome with unhinted
  split at outcome
  · cases outcome
  · next envelope decoded =>
    split_ifs at outcome with calls
    split at outcome
    · cases outcome
    · next inner given =>
      split at outcome
      · cases outcome
      · next federated named =>
        have methodNamed : stringAt envelope "method" ≠ "" := by
          intro blank
          rw [blank] at calls
          exact absurd calls (by decide)
        have nonempty : envelope ≠ [] := by
          rintro rfl
          exact methodNamed rfl
        obtain ⟨members, parsed, read⟩ := decodeBody_object decoded nonempty
        have entries := toJsonEntries_decoded read
        obtain ⟨json, methodGiven, same⟩ := lookup_decoded entries (lookup_of_stringAt methodNamed)
        rw [canonical_eq_string same] at methodGiven
        obtain ⟨json, paramsGiven, same⟩ := lookup_decoded entries (lookup_of_objectAt given)
        obtain ⟨params, rfl, innerEntries⟩ := canonical_eq_object same
        obtain ⟨json, nameGiven, same⟩ :=
          lookup_decoded innerEntries (lookup_of_stringAt (rewriteLegacyToolCallName_named named))
        rw [canonical_eq_string same] at nameGiven
        obtain ⟨value, paramsRead⟩ := decodeMembers_each read _ (mem_of_lookup paramsGiven)
        obtain ⟨paramEntries, paramsDecoded, -⟩ := decodeAny_object paramsRead
        have nested := Json.nesting_parse parsed
        rw [nesting] at nested
        have within := Json.nestingMembers_le_iff.mp le_rfl _ (mem_of_lookup paramsGiven)
        rw [nesting] at within
        cases outcome
        refine ⟨members, params, _, _, parsed, methodGiven, calls, paramsGiven, nameGiven, unhinted, named, rfl,
          ?_, ?_, ?_⟩
        · rw [marshal, toJson, toJsonEntries_assign, entries, toJson, toJsonEntries_assign, innerEntries, toJson,
            ← collapseEntries_append, ← collapseEntries_append]
          rfl
        · exact marshalled_rewritten read "params" (marshalled_rewritten paramsDecoded "name" trivial)
        · rw [nesting]
          refine (Nat.add_le_add_right (nesting_rewritten le_rfl "params" ?_) 1).trans nested
          rw [nesting]
          exact (Nat.add_le_add_right (nesting_rewritten le_rfl "name" (Nat.zero_le _)) 1).trans within

theorem lookup_renamed (members : List (String × Json)) (key other : String) (value : Json) :
    (collapseEntries (rewritten members ++ [(key, value)])).lookup other =
      if other = key then some value else (members.reverse.lookup other).map (canonical reprint) := by
  rw [collapseEntries_append, lookup_put _ _ _ (ascending_collapseEntries _), lookup_collapseEntries, rewritten,
    ← List.map_reverse, lookup_map]

theorem stringAt_of_toJson {value : String} (found : (toJsonEntries entries).lookup key = some (.string value)) :
    stringAt entries key = value := by
  rw [lookup_toJsonEntries] at found
  obtain ⟨held, listed, same⟩ := Option.map_eq_some_iff.mp found
  cases held with
  | string held =>
    cases same
    rw [stringAt, listed]
  | _ => cases same

theorem objectAt_of_toJson {members : List (String × Json)}
    (found : (toJsonEntries entries).lookup key = some (.object members)) :
    ∃ inner, objectAt entries key = some inner ∧ toJsonEntries inner = members := by
  rw [lookup_toJsonEntries] at found
  obtain ⟨held, listed, same⟩ := Option.map_eq_some_iff.mp found
  cases held with
  | object inner =>
    cases same
    exact ⟨inner, by rw [objectAt, listed], rfl⟩
  | _ => cases same

section Renamed

variable {body serverHint changed fromName toName method name : String} {members params : List (String × Json)}

section

variable (renames : Renames body serverHint changed fromName toName members params method name)

include renames

theorem Renames.reparsed :
    parse changed = some (.object (renamedMembers members params toName)) := by
  rw [renames.written]
  exact Json.parse_print renames.marshalled.printable renames.nested

theorem Renames.decodedAgain :
    ∃ envelope, decodeBody changed = some envelope ∧ toJsonEntries envelope = renamedMembers members params toName := by
  obtain ⟨value, decoded, same⟩ := renames.marshalled.decodes
  obtain ⟨envelope, read, rfl⟩ := decodeAny_object decoded
  rw [toJson] at same
  refine ⟨envelope, ?_, Json.object.inj same⟩
  rw [decodeBody, renames.reparsed, Option.bind_some, decodeMap, read]
  rfl

theorem Renames.again_iff :
    (∀ again before after, rewriteLegacyToolCall changed serverHint ≠ .changed again before after) ↔
      rewriteLegacyToolCallName toName serverHint = none := by
  obtain ⟨envelope, decoded, entries⟩ := renames.decodedAgain
  have method : stringAt envelope "method" = method := by
    apply stringAt_of_toJson
    rw [entries, renamedMembers, lookup_renamed, if_neg (by decide), renames.methodGiven]
    rfl
  obtain ⟨inner, given, innerEntries⟩ :
      ∃ inner, objectAt envelope "params" = some inner ∧ toJsonEntries inner = renamedParams params toName := by
    apply objectAt_of_toJson
    rw [entries, renamedMembers, lookup_renamed, if_pos rfl]
  have name : stringAt inner "name" = toName := by
    apply stringAt_of_toJson
    rw [innerEntries, renamedParams, lookup_renamed, if_pos rfl]
  unfold rewriteLegacyToolCall
  rw [if_neg renames.hinted, decoded]
  dsimp only
  rw [method, if_pos renames.calls, given]
  dsimp only
  rw [name]
  cases rewriteLegacyToolCallName toName serverHint <;> simp

end

end Renamed

theorem displayName_blanks (serverHint : String) :
    ∃ blanks : String, displayName (trimSpace serverHint) = blanks ++ trimSpace (displayName (trimSpace serverHint)) ∧
      ∀ c ∈ blanks.toList, isSpace c = true := by
  obtain ⟨front, whole⟩ :
      ∃ front, (trimSpace serverHint).toList = front ++ (displayName (trimSpace serverHint)).toList := by
    unfold displayName trimPrefix
    split_ifs
    · exact ⟨_, by rw [String.toList_ofList, List.take_append_drop]⟩
    · exact ⟨[], (List.nil_append _).symm⟩
  generalize displayName (trimSpace serverHint) = display at whole
  have halves : display.toList.takeWhile isSpace ++ display.toList.dropWhile isSpace = display.toList :=
    List.takeWhile_append_dropWhile
  have trimmed : trimRunes display.toList = display.toList.dropWhile isSpace := by
    refine List.rdropWhile_eq_self_iff.mpr fun nonempty => ?_
    rw [← halves, ← List.append_assoc, trimSpace, String.toList_ofList] at whole
    have last : (display.toList.dropWhile isSpace).getLast nonempty ∈ (trimRunes serverHint.toList).getLast? := by
      rw [whole, List.getLast?_append_of_ne_nil _ nonempty]
      exact List.getLast?_eq_some_getLast nonempty
    simp [trimRunes_last last]
  refine ⟨String.ofList (display.toList.takeWhile isSpace), ?_, ?_⟩
  · rw [← String.toList_inj, String.toList_append, trimSpace, String.toList_ofList, String.toList_ofList, trimmed,
      halves]
  · intro c mem
    rw [String.toList_ofList] at mem
    exact List.mem_takeWhile_imp mem

theorem rewriteLegacyToolCallName_eq_some {name serverHint : String}
    (renamed : rewriteLegacyToolCallName name serverHint = some federated) :
    ¬ (trimSpace serverHint = "" ∨ equalFold (trimSpace serverHint) "federation" = true) ∧ trimSpace name ≠ "" ∧
      federated = displayName (trimSpace serverHint) ++ "." ++ trimSpace name := by
  unfold rewriteLegacyToolCallName at renamed
  split_ifs at renamed with unhinted unnamed
  exact ⟨unhinted, unnamed, (Option.some.inj renamed).symm⟩

theorem hasPrefix_mcp_dot_iff (start rest : String) :
    hasPrefix (start ++ "." ++ rest) "mcp." = true ↔ hasPrefix (start ++ ".") "mcp." = true := by
  simp only [hasPrefix, String.toList_append]
  rcases start.toList with _ | ⟨a, _ | ⟨b, _ | ⟨c, _ | ⟨d, tail⟩⟩⟩⟩ <;> simp [List.isPrefixOf]

theorem federated_head (start rest : String) {c : Char} (first : c ∈ (trimSpace start ++ "." ++ rest).toList.head?) :
    isSpace c = false := by
  rw [String.toList_append, String.toList_append, trimSpace, String.toList_ofList, List.append_assoc] at first
  cases runes : trimRunes start.toList with
  | nil =>
    rw [runes] at first
    cases first
    decide
  | cons head tail =>
    apply trimRunes_head
    rw [runes] at first ⊢
    exact first

theorem hasPrefix_display_iff {display blanks : String} (rest : String) (split : display = blanks ++ trimSpace display)
    (blank : ∀ c ∈ blanks.toList, isSpace c = true) :
    hasPrefix (trimSpace display ++ "." ++ rest) (display ++ ".") = true ↔ trimSpace display = display := by
  constructor
  · intro within
    obtain ⟨tail, same⟩ := (hasPrefix_iff _ _).mp within
    cases runes : blanks.toList with
    | nil =>
      have none : blanks = "" := String.toList_eq_nil_iff.mp runes
      rw [none, String.empty_append] at split
      exact split.symm
    | cons c others =>
      have visible : isSpace c = false := by
        apply federated_head display rest
        rw [same, split, String.toList_append, String.toList_append, String.toList_append, runes]
        rfl
      rw [blank c (by rw [runes]; exact List.mem_cons_self)] at visible
      cases visible
  · intro same
    rw [same]
    exact (hasPrefix_iff _ _).mpr ⟨rest, rfl⟩

theorem federated_settled_iff {name serverHint : String}
    (renamed : rewriteLegacyToolCallName name serverHint = some federated) :
    rewriteLegacyToolCallName federated serverHint = none ↔ Settled serverHint := by
  obtain ⟨hinted, named, rfl⟩ := rewriteLegacyToolCallName_eq_some renamed
  obtain ⟨blanks, split, blank⟩ := displayName_blanks serverHint
  unfold Settled rewriteLegacyToolCallName
  rw [if_neg hinted]
  generalize displayName (trimSpace serverHint) = display at split ⊢
  have trimmed : trimSpace (display ++ "." ++ trimSpace name) = trimSpace display ++ "." ++ trimSpace name := by
    have regroup : display ++ "." ++ trimSpace name = blanks ++ (trimSpace display ++ "." ++ trimSpace name) := by
      rw [← String.append_assoc, ← String.append_assoc, ← split]
    rw [regroup, trimSpace_blanks _ blank]
    exact trimSpace_append (fun c => federated_head display (trimSpace name)) (trimSpace_trimSpace name) named
  have nonempty : trimSpace display ++ "." ++ trimSpace name ≠ "" := by
    intro empty
    have runes := congrArg String.toList empty
    simp at runes
  have own := hasPrefix_display_iff (trimSpace name) split blank
  rw [trimmed, if_neg nonempty, ← own, ← hasPrefix_mcp_dot_iff _ (trimSpace name)]
  split_ifs with settled <;> simp [settled]

section Reading

variable {decoder : CallDecoder} {body serverHint changed fromName toName method name : String}
  {members params : List (String × Json)}

theorem matchesField_self (tag : String) : matchesField tag tag = true :=
  equalFold_refl tag

theorem spelledAlike_renamed {tag : String} {members : List (String × Json)} (value : Json)
    (alike : SpelledAlike tag members) (given : matchesField key tag = true → ∃ held, (key, held) ∈ members) :
    SpelledAlike tag (rewritten members ++ [(key, value)]) := by
  -- every key that names the field stands in the original members
  have original {entry : String × Json} (listed : entry ∈ rewritten members ++ [(key, value)])
      (named : matchesField entry.1 tag = true) : ∃ held, (entry.1, held) ∈ members := by
    rcases List.mem_append.mp listed with old | new
    · obtain ⟨mem, within, rfl⟩ := List.mem_map.mp old
      exact ⟨mem.2, within⟩
    · rw [List.mem_singleton.mp new] at named ⊢
      exact given named
  intro left first right second named alsoNamed
  obtain ⟨held, one⟩ := original first named
  obtain ⟨other, two⟩ := original second alsoNamed
  exact alike (left.1, held) one (right.1, other) two named alsoNamed

theorem fieldMembers_renamed {tag : String} {members : List (String × Json)} (value : Json)
    (alike : SpelledAlike tag members) (given : matchesField key tag = true → ∃ held, (key, held) ∈ members) :
    fieldMembers tag (collapseEntries (rewritten members ++ [(key, value)])) =
      if matchesField key tag then [value]
      else ((fieldMembers tag members).getLast?.map (canonical reprint)).toList := by
  rw [fieldMembers_collapse (spelledAlike_renamed value alike given), fieldMembers_append, fieldMembers_single,
    rewritten, fieldMembers_map]
  split_ifs
  · simp
  · rw [List.append_nil, List.getLast?_map]

theorem readField_renamed {tag : String} {members : List (String × Json)} (value : Json)
    (alike : SpelledAlike tag members) (other : matchesField key tag = false) :
    readField (collapseEntries (rewritten members ++ [(key, value)])) tag =
      (fieldMembers tag members).getLast?.map fun held => (held.canonical reprint).exactValue := by
  rw [readField, fieldMembers_renamed value alike (by simp [other]), other]
  cases (fieldMembers tag members).getLast? <;> simp

theorem readField_keeps_iff {tag : String} {members : List (String × Json)} (value : Json)
    (alike : SpelledAlike tag members) (other : matchesField key tag = false) :
    readField (collapseEntries (rewritten members ++ [(key, value)])) tag = readField members tag ↔
      ∀ held ∈ (fieldMembers tag members).getLast?, held.KeepsNumbers reprint := by
  rw [readField_renamed value alike other, readField]
  cases (fieldMembers tag members).getLast? with
  | none => simp
  | some held => simp [Json.exactValue_canonical_iff]

theorem structMembers_object (members : List (String × Json)) : structMembers [.object members] = some members := by
  simp [structMembers]

theorem decodeStrings_string (value : String) : decodeStrings [.string value] = some value := rfl

section

variable (renames : Renames body serverHint changed fromName toName members params method name)

include renames

theorem Renames.callParams_eq (plain : decoder.Plain (.object members)) : callParams (.object members) = params := by
  have once : fieldMembers "params" members = [.object params] :=
    fieldMembers_once plain.params renames.paramsGiven (matchesField_self _)
  rw [callParams, jsonMembers, once]
  exact List.append_nil params

theorem Renames.once (plain : decoder.Plain (.object members)) :
    fieldMembers "method" members = [.string method] ∧ fieldMembers "params" members = [.object params] ∧
      fieldMembers "name" params = [.string name] := by
  have named := plain.name
  rw [renames.callParams_eq plain] at named
  exact ⟨fieldMembers_once plain.method renames.methodGiven (matchesField_self _),
    fieldMembers_once plain.params renames.paramsGiven (matchesField_self _),
    fieldMembers_once named renames.nameGiven (matchesField_self _)⟩

omit renames in
theorem spelledAlike_of_single {tag : String} {members : List (String × Json)}
    (single : fieldMembers tag members = [value]) : SpelledAlike tag members :=
  spelledAlike_of_once (by rw [single, List.length_singleton])

theorem Renames.read_before (plain : decoder.Plain (.object members)) : decoder.read (.object members) =
      some ⟨method, name, decoder.fields.map (readField members), decoder.paramFields.map (readField params)⟩ := by
  obtain ⟨methodRead, paramsRead, nameRead⟩ := renames.once plain
  simp only [CallDecoder.read, structMembers_object, Option.bind_eq_bind, Option.bind_some, methodRead, paramsRead,
    nameRead, decodeStrings_string, Option.pure_def]

theorem Renames.read_after (plain : decoder.Plain (.object members)) :
    decoder.read (.object (renamedMembers members params toName)) =
      some ⟨method, toName, decoder.fields.map (readField (renamedMembers members params toName)),
        decoder.paramFields.map (readField (renamedParams params toName))⟩ := by
  obtain ⟨methodOnce, paramsOnce, nameOnce⟩ := renames.once plain
  have methodRead : fieldMembers "method" (renamedMembers members params toName) = [.string method] := by
    have other : matchesField "params" "method" = false := by decide
    rw [renamedMembers, fieldMembers_renamed _ (spelledAlike_of_single methodOnce) (by simp [other]), other, methodOnce]
    rfl
  have paramsRead : fieldMembers "params" (renamedMembers members params toName) =
      [.object (renamedParams params toName)] := by
    rw [renamedMembers, fieldMembers_renamed _ (spelledAlike_of_single paramsOnce)
      fun _ => ⟨_, mem_of_lookup renames.paramsGiven⟩, matchesField_self, if_pos rfl]
  have nameRead : fieldMembers "name" (renamedParams params toName) = [.string toName] := by
    rw [renamedParams, fieldMembers_renamed _ (spelledAlike_of_single nameOnce)
      fun _ => ⟨_, mem_of_lookup renames.nameGiven⟩, matchesField_self, if_pos rfl]
  simp only [CallDecoder.read, structMembers_object, Option.bind_eq_bind, Option.bind_some, methodRead, paramsRead,
    nameRead, decodeStrings_string, Option.pure_def]

theorem Renames.reads_same_iff (plain : decoder.Plain (.object members)) :
    decoder.readBody changed = (decoder.readBody body).map (fun reading => { reading with name := toName }) ↔
      decoder.KeepsNumbers (.object members) := by
  have paramFields := plain.paramFields
  rw [renames.callParams_eq plain] at paramFields
  rw [CallDecoder.readBody, CallDecoder.readBody, renames.reparsed, renames.parsed, Option.bind_some, Option.bind_some,
    renames.read_before plain, renames.read_after plain, CallDecoder.KeepsNumbers, renames.callParams_eq plain]
  simp only [Option.map_some, Option.some.injEq, CallReading.mk.injEq, true_and, List.map_inj_left]
  refine and_congr (forall₂_congr fun tag listed => ?_) (forall₂_congr fun tag listed => ?_)
  · exact readField_keeps_iff _ (plain.fields tag listed) (decoder.apart tag listed)
  · exact readField_keeps_iff _ (paramFields tag listed) (decoder.paramsApart tag listed)

end

end Reading

/-- A rewritten call is not rewritten again exactly when the header leaves no blank in front of its display name. With
every field in one spelling, the call also says what it said, its name apart, exactly when the numbers are those that a
float64 prints. -/
theorem legacy_rename_faithful_iff (decoder : CallDecoder) (body serverHint changed fromName toName : String)
    (json : Json) (parsed : parse body = some json)
    (outcome : rewriteLegacyToolCall body serverHint = .changed changed fromName toName) :
    ((∀ again before after, rewriteLegacyToolCall changed serverHint ≠ .changed again before after) ↔
        Settled serverHint) ∧ (decoder.Plain json → ((decoder.readBody changed = (decoder.readBody body).map
              (fun reading => { reading with name := displayName (trimSpace serverHint) ++ "." ++ fromName }) ∧
            ∀ again before after, rewriteLegacyToolCall changed serverHint ≠ .changed again before after) ↔
          decoder.KeepsNumbers json ∧ Settled serverHint)) := by
  obtain ⟨members, params, method, name, renames⟩ := rewriteLegacyToolCall_changed outcome
  have again := renames.again_iff.trans (federated_settled_iff renames.federated)
  refine ⟨again, fun plain => ?_⟩
  obtain rfl : json = .object members := Option.some.inj (parsed.symm.trans renames.parsed)
  have same := (rewriteLegacyToolCallName_eq_some renames.federated).2.2
  rw [← renames.sent] at same
  rw [again, ← same, renames.reads_same_iff plain]

namespace Sample

def callDecoder : CallDecoder where
  fields := ["jsonrpc", "id"]
  paramFields := ["arguments", "_meta"]
  apart := by decide
  paramsApart := by decide

def addTask (id name : String) : String :=
  "\x7b\"id\":" ++ id ++ ",\"jsonrpc\":\"2.0\",\"method\":\"tools/call\",\"params\":\x7b\"name\":\"" ++ name ++
    "\"\x7d\x7d"

def addTaskMembers : List (String × Json) :=
  [("id", .number "7"), ("jsonrpc", .string "2.0"), ("method", .string "tools/call"),
    ("params", .object [("name", .string "add")])]

def addTaskTwice : String :=
  "\x7b\"id\":2,\"Id\":3,\"jsonrpc\":\"2.0\",\"method\":\"tools/call\",\"params\":\x7b\"arguments\":0\x7d," ++
    "\"params\":\x7b\"name\":\"add\"\x7d\x7d"

def addedOnce : String :=
  "\x7b\"Id\":3,\"id\":2,\"jsonrpc\":\"2.0\",\"method\":\"tools/call\",\"params\":\x7b\"name\":\"todoist.add\"\x7d\x7d"

def numberOf : Value → Option Rat
  | .number value => some value
  | _ => none

def idAndArguments (body : String) : Option (Option Rat × Bool) :=
  (callDecoder.readBody body).map fun reading =>
    ((reading.fields.getD 1 none).bind numberOf, (reading.paramFields.getD 0 none).isSome)

end Sample

open Sample

theorem add_task_renamed_faithfully : callDecoder.readBody (addTask "7" "todoist.add") =
      (callDecoder.readBody (addTask "7" "add")).map fun reading => { reading with name := "todoist.add" } := by
  have parsed : parse (addTask "7" "add") = some (.object addTaskMembers) := by decide +kernel
  have outcome : rewriteLegacyToolCall (addTask "7" "add") "mcp-todoist" =
      .changed (addTask "7" "todoist.add") "add" "todoist.add" := by decide +kernel
  have plain : callDecoder.Plain (.object addTaskMembers) :=
    ⟨by decide +kernel, by decide +kernel, by decide +kernel, by unfold SpelledAlike; decide +kernel,
      by unfold SpelledAlike; decide +kernel⟩
  have version : (fieldMembers "jsonrpc" addTaskMembers).getLast? = some (.string "2.0") := by decide +kernel
  have id : (fieldMembers "id" addTaskMembers).getLast? = some (.number "7") := by decide +kernel
  have arguments : (fieldMembers "arguments" (callParams (.object addTaskMembers))).getLast? = none := by
    decide +kernel
  have extra : (fieldMembers "_meta" (callParams (.object addTaskMembers))).getLast? = none := by decide +kernel
  have seven : (decimalOfLiteral (reprint "7")).value = (decimalOfLiteral "7").value := by decide +kernel
  have keeps : callDecoder.KeepsNumbers (.object addTaskMembers) := by
    simp [CallDecoder.KeepsNumbers, callDecoder, jsonMembers, version, id, arguments, extra, seven, Json.KeepsNumbers]
  have display : displayName (trimSpace "mcp-todoist") = "todoist" := by decide +kernel
  have settled : Settled "mcp-todoist" := .inl (by decide +kernel)
  have faithful := legacy_rename_faithful_iff callDecoder _ _ _ _ _ _ parsed outcome
  have same := ((faithful.2 plain).mpr ⟨keeps, settled⟩).1
  rwa [display] at same

theorem renaming_changes_id : (rewriteLegacyToolCall (addTask "100000000000000000001" "add") "mcp-todoist" =
        .changed (addTask "100000000000000000000" "todoist.add") "add" "todoist.add" ∧
      idAndArguments (addTask "100000000000000000001" "add") = some (some 100000000000000000001, false) ∧
      idAndArguments (addTask "100000000000000000000" "todoist.add") = some (some 100000000000000000000, false)) ∧
      (rewriteLegacyToolCall (addTask "7" "add") "mcp- x" = .changed (addTask "7" " x.add") "add" " x.add" ∧
        rewriteLegacyToolCall (addTask "7" " x.add") "mcp- x" = .changed (addTask "7" " x.x.add") "x.add" " x.x.add") ∧
      rewriteLegacyToolCall addTaskTwice "mcp-todoist" = .changed addedOnce "add" "todoist.add" ∧
        idAndArguments addTaskTwice = some (some 3, true) ∧ idAndArguments addedOnce = some (some 2, false) := by
  decide +kernel

end McpGateway.Proxy
