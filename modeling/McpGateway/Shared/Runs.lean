import Mathlib.Data.List.Basic

namespace McpGateway.Shared

section

variable {State Op : Type} (step : State → Op → State)

def run (start : State) (ops : List Op) : State :=
  ops.foldl step start

def Along (holds : State → Op → Prop) : State → List Op → Prop
  | _, [] => True
  | state, op :: rest => holds state op ∧ Along holds (step state op) rest

instance Along.decidable (holds : State → Op → Prop) [∀ state op, Decidable (holds state op)] :
    (state : State) → (ops : List Op) → Decidable (Along step holds state ops)
  | _, [] => isTrue trivial
  | state, op :: rest =>
    have := Along.decidable holds (step state op) rest
    inferInstanceAs (Decidable (holds state op ∧ Along step holds (step state op) rest))

variable {step} {allowed holds : State → Op → Prop} {start : State} {ops : List Op}

theorem Along.invariant {invariant : State → Prop} (along : Along step allowed start ops) (initial : invariant start)
    (kept : ∀ state op, invariant state → allowed state op → invariant (step state op)) :
    Along step (fun state op => invariant state ∧ allowed state op) start ops := by
  induction ops generalizing start with
  | nil => trivial
  | cons op rest ih => exact ⟨⟨initial, along.1⟩, ih along.2 (kept start op initial along.1)⟩

theorem Along.mono (along : Along step allowed start ops) (implies : ∀ state op, allowed state op → holds state op) :
    Along step holds start ops := by
  induction ops generalizing start with
  | nil => trivial
  | cons op rest ih => exact ⟨implies start op along.1, ih along.2⟩

theorem Along.and (along : Along step allowed start ops) (besides : Along step holds start ops) :
    Along step (fun state op => allowed state op ∧ holds state op) start ops := by
  induction ops generalizing start with
  | nil => trivial
  | cons op rest ih => exact ⟨⟨along.1, besides.1⟩, ih along.2 besides.2⟩

theorem Along.last {op : Op} (along : Along step holds start (ops ++ [op])) : holds (run step start ops) op := by
  induction ops generalizing start with
  | nil => exact along.1
  | cons first rest ih => exact ih along.2

theorem Along.congr_of_invariant {invariant : State → Prop} (initial : invariant start)
    (kept : ∀ state op, invariant state → allowed state op → invariant (step state op))
    (same : ∀ state op, invariant state → (holds state op ↔ allowed state op)) :
    Along step holds start ops ↔ Along step allowed start ops := by
  induction ops generalizing start with
  | nil => rfl
  | cons op rest ih =>
    constructor
    · intro along
      have first := (same start op initial).mp along.1
      exact ⟨first, (ih (kept start op initial first)).mp along.2⟩
    · intro along
      exact ⟨(same start op initial).mpr along.1, (ih (kept start op initial along.1)).mpr along.2⟩

theorem along_iff_forall {wanted : Op → Prop} : Along step (fun _ op => wanted op) start ops ↔ ∀ op ∈ ops, wanted op := by
  induction ops generalizing start with
  | nil => simp [Along]
  | cons op rest ih => simp [Along, ih]

theorem Along.run_invariant {invariant : State → Prop} (along : Along step allowed start ops)
    (initial : invariant start) (kept : ∀ state op, invariant state → allowed state op → invariant (step state op)) :
    invariant (run step start ops) := by
  induction ops generalizing start with
  | nil => exact initial
  | cons op rest ih => exact ih along.2 (kept start op initial along.1)

end

section

variable {State Op Out View : Type} (step : State → Op → State × Out)

def answers : State → List Op → List (Op × Out)
  | _, [] => []
  | state, op :: rest => (op, (step state op).2) :: answers (step state op).1 rest

theorem answers_append (state : State) (prior later : List Op) : answers step state (prior ++ later) =
      answers step state prior ++ answers step (run (fun state op => (step state op).1) state prior) later := by
  induction prior generalizing state with
  | nil => rfl
  | cons first rest ih => exact congrArg ((first, (step state first).2) :: ·) (ih _)

theorem answers_concat (state : State) (ops : List Op) (op : Op) : answers step state (ops ++ [op]) =
      answers step state ops ++ [(op, (step (run (fun state op => (step state op).1) state ops) op).2)] :=
  answers_append step state ops [op]

variable {step} {relevant : Op → Bool} {harmless : State → Op → Prop} {view : State → View}

theorem answers_filter
    (hidden : ∀ state op, relevant op = false → harmless state op → view (step state op).1 = view state)
    (seen : ∀ left right op, relevant op = true → view left = view right →
      (step left op).2 = (step right op).2 ∧ view (step left op).1 = view (step right op).1)
    {left right : State} {ops : List Op} (same : view left = view right)
    (along : Along (fun state op => (step state op).1) (fun state op => relevant op = false → harmless state op) left ops) :
    (answers step left ops).filter (fun answer => relevant answer.1) = answers step right (ops.filter relevant) := by
  induction ops generalizing left right with
  | nil => rfl
  | cons op rest ih =>
    cases relevance : relevant op with
    | false =>
      have unchanged := hidden left op relevance (along.1 relevance)
      simp only [answers, List.filter_cons, relevance, Bool.false_eq_true, if_false]
      exact ih (unchanged.trans same) along.2
    | true =>
      obtain ⟨answered, kept⟩ := seen left right op relevance same
      simp only [answers, List.filter_cons, relevance, if_true, answered, List.cons.injEq, true_and]
      exact ih kept along.2

end

end McpGateway.Shared
