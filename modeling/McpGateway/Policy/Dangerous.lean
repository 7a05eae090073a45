import Mathlib.Data.Set.Card
import McpGateway.Policy.Arguments
import McpGateway.Shared.Nested

namespace McpGateway.Policy

open Shared

def textOf : Value → Option String
  | .string text => some text
  | _ => none

open Value (walk walkItems walkEntries keys)

theorem collectStrings_eq (value : Value) : collectStrings value = value.walk.filterMap fun found => textOf found.2 := by
  induction value using Value.nested_induction with
  | null | bool | number | string => simp [collectStrings, walk, textOf]
  | array items ih =>
    have collected (position : Nat) :
        collectItems items = (walkItems position items).filterMap fun found => textOf found.2 := by
      induction items generalizing position with
      | nil => simp [collectItems, walkItems]
      | cons item items rest =>
        obtain ⟨first, ih⟩ := List.forall_mem_cons.mp ih
        rw [collectItems, walkItems, List.filterMap_append, List.filterMap_map, first, rest ih (position + 1)]
        rfl
    simp [collectStrings, walk, textOf, collected 0]
  | object entries ih =>
    have collected : collectEntries entries = (walkEntries entries).filterMap fun found => textOf found.2 := by
      induction entries with
      | nil => simp [collectEntries, walkEntries]
      | cons entry entries rest =>
        obtain ⟨first, ih⟩ := List.forall_mem_cons.mp ih
        rw [collectEntries, walkEntries, List.filterMap_append, List.filterMap_map, first, rest ih]
        rfl
    simp [collectStrings, walk, textOf, collected]

theorem textOf_eq_some {value : Value} {text : String} : textOf value = some text ↔ value = .string text := by
  cases value <;> simp [textOf]

def checkCompiled (args : Object) (patterns : List (Option Pattern)) : List Violation :=
  checkDangerous args (patterns.filterMap id)

def matched (pattern : Option Pattern) (text : String) : Bool := pattern.any (·.matchString text)

def Hit (args : Object) (patterns : List (Option Pattern)) (hit : List Place × Nat) : Prop :=
  ∃ text, (Value.object args).descend hit.1 = some (.string text) ∧
    ∃ pattern, patterns[hit.2]? = some pattern ∧ matched pattern text

def occurrences (args : Object) : List (List Place × String) :=
  (Value.object args).walk.filterMap fun found => (textOf found.2).map (found.1, ·)

def hits (args : Object) (patterns : List (Option Pattern)) : List (List Place × Nat) :=
  ((occurrences args ×ˢ patterns.zipIdx).filter fun pair => matched pair.2.1 pair.1.2).map fun pair =>
    (pair.1.1, pair.2.2)

theorem length_checkCompiled (args : Object) (patterns : List (Option Pattern)) :
    (checkCompiled args patterns).length = (hits args patterns).length := by
  have strings : collectEntries args = (occurrences args).map Prod.snd := by
    rw [← collectStrings, collectStrings_eq, occurrences, List.map_filterMap]
    congr 1
    funext found
    cases textOf found.2 <;> rfl
  have each (text : String) : ((patterns.filterMap id).filter (·.matchString text)).length =
      patterns.zipIdx.countP fun entry => matched entry.1 text := by
    have all : (patterns.zipIdx.map Prod.fst).countP (matched · text) = _ := List.countP_map
    rw [List.zipIdx_map_fst] at all
    rw [← List.countP_eq_length_filter, List.countP_filterMap]
    refine Eq.trans (List.countP_congr fun pattern _ => ?_) all
    cases pattern <;> simp [matched]
  have pairs : occurrences args ×ˢ patterns.zipIdx =
      (occurrences args).flatMap fun place => patterns.zipIdx.map (Prod.mk place) := rfl
  rw [checkCompiled, checkDangerous, hits, strings, List.length_map, ← List.countP_eq_length_filter, List.length_flatMap,
    List.map_map, pairs, List.countP_flatMap]
  congr 1
  refine List.map_congr_left fun occurrence _ => ?_
  simpa [List.countP_map, Function.comp_def] using each occurrence.2

section

variable {args : Object} (distinct : (Value.object args).Distinct)

include distinct

theorem mem_occurrences {path : List Place} {text : String} :
    (path, text) ∈ occurrences args ↔ (Value.object args).descend path = some (.string text) := by
  simp only [occurrences, List.mem_filterMap, Option.map_eq_some_iff, Prod.exists, textOf_eq_some, Prod.mk.injEq,
    Value.mem_walk distinct]
  constructor
  · rintro ⟨path, value, reached, text, rfl, rfl, rfl⟩
    exact reached
  · intro reached
    exact ⟨path, _, reached, text, rfl, rfl, rfl⟩

theorem mem_hits {patterns : List (Option Pattern)} {hit : List Place × Nat} :
    hit ∈ hits args patterns ↔ Hit args patterns hit := by
  simp only [hits, List.mem_map, List.mem_filter, List.mem_product, Prod.exists, mem_occurrences distinct,
    List.mem_zipIdx_iff_getElem?, Hit]
  constructor
  · rintro ⟨path, text, pattern, position, ⟨⟨reached, held⟩, hit⟩, rfl⟩
    exact ⟨text, reached, pattern, held, hit⟩
  · rintro ⟨text, reached, pattern, held, met⟩
    exact ⟨hit.1, text, pattern, hit.2, ⟨⟨reached, held⟩, met⟩, rfl⟩

theorem hits_nodup (patterns : List (Option Pattern)) : (hits args patterns).Nodup := by
  have places : (occurrences args).Nodup := by
    refine (Value.walk_nodup distinct).filterMap fun left right place fromLeft fromRight => ?_
    obtain ⟨text, held, rfl⟩ := Option.map_eq_some_iff.mp fromLeft
    obtain ⟨other, otherHeld, same⟩ := Option.map_eq_some_iff.mp fromRight
    obtain ⟨samePath, rfl⟩ := Prod.mk.inj same
    rw [textOf_eq_some] at held otherHeld
    exact Prod.ext samePath.symm (held.trans otherHeld.symm)
  have positions : patterns.zipIdx.Nodup := .of_map Prod.snd (by simp [List.nodup_range'])
  refine ((places.product positions).filter _).map_on ?_
  -- a path leads to one value, and a position holds one pattern
  rintro ⟨⟨path, text⟩, pattern, position⟩ left ⟨⟨path, other⟩, pattern', position⟩ right same
  cases same
  simp only [List.mem_filter, List.mem_product, mem_occurrences distinct, List.mem_zipIdx_iff_getElem?] at left right
  have texts := left.1.1.symm.trans right.1.1
  have patterns := left.1.2.symm.trans right.1.2
  simp_all

end

/-- The violations are as many as the pairs of a string value, anywhere inside, and a pattern it matches. -/
theorem checkDangerous_exact (args : Object) (distinct : (Value.object args).Distinct)
    (patterns : List (Option Pattern)) :
    (checkCompiled args patterns).length = Set.ncard {hit | Hit args patterns hit} ∧
      (checkCompiled args patterns ≠ [] ↔ ∃ path text, (Value.object args).descend path = some (.string text) ∧
        ∃ pattern, some pattern ∈ patterns ∧ pattern.matchString text) := by
  have listed : {hit | Hit args patterns hit} = ((hits args patterns).toFinset : Set (List Place × Nat)) := by
    ext hit
    simp [mem_hits distinct]
  constructor
  · rw [listed, Set.ncard_coe_finset, List.toFinset_card_of_nodup (hits_nodup distinct patterns), length_checkCompiled]
  · rw [← List.length_pos_iff, length_checkCompiled, List.length_pos_iff_exists_mem]
    simp only [mem_hits distinct, Hit, Prod.exists]
    constructor
    · rintro ⟨path, position, text, reached, pattern, held, hit⟩
      cases pattern with
      | none => cases hit
      | some pattern => exact ⟨path, text, reached, pattern, List.mem_of_getElem? held, hit⟩
    · rintro ⟨path, text, reached, pattern, mem, hit⟩
      obtain ⟨position, held⟩ := List.mem_iff_getElem?.mp mem
      exact ⟨path, position, text, reached, some pattern, held, by simpa [matched] using hit⟩

namespace Removal

def args : Object := [("path", .string "rm -rf /"), ("steps", .array [.object [("run", .string "rm -rf /")], .null])]

def patterns : List (Option Pattern) := [none, some ⟨"rm", fun text => text == "rm -rf /"⟩]

end Removal

open Removal in
theorem nested_removal_counted : (Value.object args).Distinct ∧ Set.ncard {hit | Hit args patterns hit} = 2 := by
  have distinct : (Value.object args).Distinct := by
    simp [Value.Distinct, Value.Inside, args, walk, walkEntries, walkItems, Value.under, keys]
  have twice : (checkCompiled args patterns).length = 2 := by decide
  exact ⟨distinct, (checkDangerous_exact args distinct patterns).1.symm.trans twice⟩

end McpGateway.Policy
