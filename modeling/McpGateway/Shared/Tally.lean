import Mathlib.Data.List.Count

namespace McpGateway.Shared

def Tally (Label : Type) := Label → Int

namespace Tally

def zero (Label : Type) : Tally Label := fun _ => 0

variable {Label : Type} [DecidableEq Label]

def add (tally : Tally Label) (label : Label) (delta : Int) : Tally Label :=
  fun other => if other = label then tally other + delta else tally other

def move (tally : Tally Label) (source target : Label) : Tally Label :=
  (tally.add source (-1)).add target 1

def Counts (tally : Tally Label) (items : List Label) : Prop :=
  ∀ label, tally label = items.count label

variable {tally : Tally Label} {items before after : List Label} {source target : Label}

theorem add_apply (tally : Tally Label) (label : Label) (delta : Int) (other : Label) :
    tally.add label delta other = tally other + if label = other then delta else 0 := by
  by_cases same : other = label
  · simp [add, same]
  · simp [add, same, Ne.symm same]

theorem move_self (tally : Tally Label) (label : Label) : tally.move label label = tally := by
  funext other
  rw [move, add_apply, add_apply]
  split_ifs <;> omega

theorem Counts.zero_nil : (zero Label).Counts [] :=
  fun _ => rfl

theorem Counts.nonneg (counts : tally.Counts items) (label : Label) : 0 ≤ tally label := by
  rw [counts label]
  omega

theorem Counts.append (counts : tally.Counts items) (label : Label) :
    (tally.add label 1).Counts (items ++ [label]) := by
  intro other
  by_cases same : label = other <;> simp [add_apply, counts other, same]

theorem Counts.drop (counts : tally.Counts (before ++ source :: after)) :
    (tally.add source (-1)).Counts (before ++ after) := by
  intro other
  rw [add_apply, counts other]
  simp only [List.count_append, List.count_cons, beq_iff_eq]
  split_ifs <;> omega

theorem Counts.replace_iff (counts : tally.Counts (before ++ source :: after)) (stored : Label) :
    (tally.move source target).Counts (before ++ stored :: after) ↔ stored = target := by
  have moved (other : Label) : tally.move source target other =
      (before ++ after).count other + if target = other then 1 else 0 := by
    rw [move, add_apply, counts.drop other]
  constructor
  · intro matched
    have here := matched stored
    rw [moved stored] at here
    simp only [List.count_append, List.count_cons, beq_iff_eq, if_true] at here
    by_contra other
    rw [if_neg (Ne.symm other)] at here
    omega
  · rintro rfl other
    rw [moved other]
    simp only [List.count_append, List.count_cons, beq_iff_eq]
    split_ifs <;> omega

end Tally

end McpGateway.Shared
