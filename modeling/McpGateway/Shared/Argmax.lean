import Mathlib.Data.List.MinMax
import Mathlib.Data.List.Nodup

-- The first maximum of a list that loses elements, gains some at its end or is put in another order.

namespace McpGateway.Shared

variable {α β : Type} [LinearOrder β] {f : α → β}

variable {before after elements : List α} {top : α}

theorem argmax_split_of_le (below : ∀ a ∈ before, f a < f top) (bounded : ∀ a ∈ after, f a ≤ f top) :
    (before ++ top :: after).argmax f = some top := by
  induction after using List.reverseRecOn with
  | nil =>
    rw [List.argmax_concat]
    cases found : before.argmax f with
    | none => rfl
    | some best => simp [below best (List.argmax_mem found)]
  | append_singleton rest last ih =>
    rw [← List.cons_append, ← List.append_assoc, List.argmax_concat]
    rw [ih fun a member => bounded a (List.mem_append_left _ member)]
    have : ¬ f top < f last := not_lt.mpr (bounded last (by simp))
    simp [this]

theorem argmax_split (highest : elements.argmax f = some top) :
    ∃ before after, elements = before ++ top :: after ∧ (∀ a ∈ before, f a < f top) ∧ ∀ a ∈ after, f a ≤ f top := by
  induction elements using List.reverseRecOn generalizing top with
  | nil => cases highest
  | append_singleton rest last ih =>
    rw [List.argmax_concat] at highest
    cases found : rest.argmax f with
    | none =>
      rw [List.argmax_eq_none] at found
      rw [found] at highest ⊢
      cases highest
      exact ⟨[], [], rfl, by simp, by simp⟩
    | some best =>
      rw [found] at highest
      dsimp only at highest
      split_ifs at highest with higher
      next =>
        cases highest
        refine ⟨rest, [], rfl, ?_, by simp⟩
        intro a member
        exact (List.le_of_mem_argmax member found).trans_lt higher
      next =>
        cases highest
        obtain ⟨before, after, rfl, below, bounded⟩ := ih found
        refine ⟨before, after ++ [last], by simp, below, ?_⟩
        intro a member
        rcases List.mem_append.mp member with prior | final
        · exact bounded a prior
        · rw [List.mem_singleton.mp final]
          exact not_lt.mp higher

theorem argmax_sublists {kept keptAfter : List α} (highest : (before ++ top :: after).argmax f = some top)
    (first : top ∉ before) (sublist : kept.Sublist before) (sublistAfter : keptAfter.Sublist after) :
    (kept ++ top :: keptAfter).argmax f = some top := by
  have bounded : ∀ a ∈ before ++ top :: after, f a ≤ f top :=
    fun a member => List.le_of_mem_argmax member highest
  have below : ∀ a ∈ before, f a < f top := by
    obtain ⟨before', after', same, below', -⟩ := argmax_split highest
    rcases List.append_eq_append_iff.mp same with ⟨gap, rfl, -⟩ | ⟨gap, rfl, rest⟩
    · exact fun a member => below' a (List.mem_append_left _ member)
    · cases gap with
      | nil => simpa using below'
      | cons head tail =>
        -- The place of the first maximum lies inside `before`, where `top` does not stand.
        rw [List.cons_append, List.cons.injEq] at rest
        exact absurd (by simp [rest.1]) first
  refine argmax_split_of_le (fun a member => below a (sublist.subset member)) fun a member => ?_
  exact bounded a (by simp [sublistAfter.subset member])

theorem argmax_append (highest : elements.argmax f = some top) (added : List α) :
    (elements ++ added).argmax f = some top ∨ ∃ other ∈ added, (elements ++ added).argmax f = some other := by
  induction added using List.reverseRecOn with
  | nil => exact .inl (by simpa using highest)
  | append_singleton rest last ih =>
    rw [← List.append_assoc, List.argmax_concat]
    rcases ih with unchanged | ⟨other, member, moved⟩
    · rw [unchanged]
      dsimp only
      split_ifs
      · exact .inr ⟨last, by simp, rfl⟩
      · exact .inl rfl
    · rw [moved]
      dsimp only
      split_ifs
      · exact .inr ⟨last, by simp, rfl⟩
      · exact .inr ⟨other, by simp [member], rfl⟩

theorem argmax_perm {reordered : List α} (distinct : (elements.map f).Nodup) (perm : reordered.Perm elements) :
    reordered.argmax f = elements.argmax f := by
  cases found : elements.argmax f with
  | none =>
    rw [List.argmax_eq_none] at found ⊢
    rw [found] at perm
    exact perm.eq_nil
  | some top =>
    cases foundReordered : reordered.argmax f with
    | none =>
      rw [List.argmax_eq_none] at foundReordered
      rw [foundReordered] at perm
      rw [← perm.nil_eq] at found
      cases found
    | some other =>
      have mem : other ∈ elements := perm.mem_iff.mp (List.argmax_mem foundReordered)
      have mem' : top ∈ reordered := perm.mem_iff.mpr (List.argmax_mem found)
      have tie : f other = f top :=
        le_antisymm (List.le_of_mem_argmax mem found) (List.le_of_mem_argmax mem' foundReordered)
      rw [List.inj_on_of_nodup_map distinct mem (List.argmax_mem found) tie]

end McpGateway.Shared
