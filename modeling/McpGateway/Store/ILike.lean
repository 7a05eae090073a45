import Mathlib.Data.List.Infix

namespace McpGateway.Store

def replaceAll (s : String) (old : Char) (new : String) : String :=
  String.ofList (s.toList.flatMap fun c => if c = old then new.toList else [c])

def escapeILikePattern (s : String) : String :=
  replaceAll (replaceAll (replaceAll s '\\' "\\\\") '%' "\\%") '_' "\\_"

def marks : List Char := ['\\', '%', '_']

/-- A locale's lower-casing, which neither makes nor unmakes a pattern mark. -/
structure CaseFolding where
  fold : Char → Char
  mark_iff : ∀ c, ∀ mark ∈ marks, fold c = mark ↔ c = mark

-- A pattern that ends in the escape is an error of the query: no row matches.
def like : List Char → List Char → Bool
  | [], text => text.isEmpty
  | '%' :: pattern, text => text.tails.any (like pattern)
  | '\\' :: literal :: pattern, c :: text => c == literal && like pattern text
  | '\\' :: [], _ => false
  | '_' :: pattern, _ :: text => like pattern text
  | literal :: pattern, c :: text => c == literal && like pattern text
  | _ :: _, [] => false

def CaseFolding.iLike (folding : CaseFolding) (text pattern : String) : Bool :=
  like (pattern.toList.map folding.fold) (text.toList.map folding.fold)

def escaped (c : Char) : List Char := if c ∈ marks then ['\\', c] else [c]

theorem escapeILikePattern_toList (s : String) : (escapeILikePattern s).toList = s.toList.flatMap escaped := by
  simp only [escapeILikePattern, replaceAll, String.toList_ofList, List.flatMap_assoc]
  congr 1
  funext c
  unfold escaped marks
  by_cases slash : c = '\\'
  · simp [slash]
  by_cases percent : c = '%'
  · simp [percent]
  by_cases underscore : c = '_' <;> simp [slash, percent, underscore]

theorem like_escaped (q text : List Char) : like (q.flatMap escaped ++ ['%']) text = q.isPrefixOf text := by
  induction q generalizing text with
  | nil => cases text <;> simp [like]
  | cons c q ih =>
    by_cases mark : c ∈ marks
    · cases text <;> simp [escaped, mark, like, ih, List.isPrefixOf, Bool.beq_comm]
    · have plain := mark
      simp only [marks, List.mem_cons, List.not_mem_nil, or_false, not_or] at plain
      cases text <;> simp [escaped, mark, like, ih, List.isPrefixOf, plain, Bool.beq_comm]

theorem CaseFolding.map_escaped (folding : CaseFolding) (c : Char) :
    (escaped c).map folding.fold = escaped (folding.fold c) := by
  by_cases mark : c ∈ marks
  · have fixed : folding.fold c = c := (folding.mark_iff c c mark).mpr rfl
    have slash : folding.fold '\\' = '\\' := (folding.mark_iff _ _ (by simp [marks])).mpr rfl
    simp [escaped, mark, fixed, slash]
  · have unmarked : folding.fold c ∉ marks := fun made => mark ((folding.mark_iff c _ made).mp rfl ▸ made)
    simp [escaped, mark, unmarked]

/-- A search term is found literally: escaping leaves no wildcard of the term's own. -/
theorem searched_literally (folding : CaseFolding) (q x : String) :
    folding.iLike x ("%" ++ escapeILikePattern q ++ "%") ↔ q.toList.map folding.fold <:+: x.toList.map folding.fold := by
  have percent : folding.fold '%' = '%' := (folding.mark_iff _ _ (by simp [marks])).mpr rfl
  have pattern : ("%" ++ escapeILikePattern q ++ "%").toList.map folding.fold =
      '%' :: ((q.toList.map folding.fold).flatMap escaped ++ ['%']) := by
    simp [escapeILikePattern_toList, percent, List.map_flatMap, List.flatMap_map, folding.map_escaped]
  unfold CaseFolding.iLike
  rw [pattern, like, List.any_eq_true, List.infix_iff_prefix_suffix]
  simp [like_escaped, and_comm]

def Sample.lowering : CaseFolding where
  fold := Char.toLower
  mark_iff c mark mem := by
    obtain ⟨low, apart⟩ : mark.toNat < 97 ∧ ¬ (65 ≤ mark.toNat ∧ mark.toNat ≤ 90) := by
      simp only [marks, List.mem_cons, List.not_mem_nil, or_false] at mem
      obtain rfl | rfl | rfl := mem <;> decide
    unfold Char.toLower
    split_ifs with upper
    · have letter : 65 ≤ c.toNat ∧ c.toNat ≤ 90 :=
        ⟨UInt32.le_iff_toNat_le.mp upper.1, UInt32.le_iff_toNat_le.mp upper.2⟩
      refine iff_of_false ?_ (fun same => apart (same ▸ letter))
      rintro rfl
      change (c.val + 32).toNat < 97 at low
      rw [UInt32.toNat_add] at low
      change (c.toNat + 32) % 2 ^ 32 < 97 at low
      omega
    · exact Iff.rfl

open Sample

theorem marked_term_searched :
    lowering.iLike "Load 100%_DONE" ("%" ++ escapeILikePattern "0%_d" ++ "%") = true ∧
      lowering.iLike "Load 100 done" ("%" ++ escapeILikePattern "0%_d" ++ "%") = false := by
  refine ⟨(searched_literally lowering _ _).mpr (by decide +kernel), ?_⟩
  rw [← Bool.not_eq_true, searched_literally]
  decide +kernel

end McpGateway.Store
