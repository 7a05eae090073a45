import Mathlib.Data.List.Basic

namespace McpGateway.Shared

-- path.Clean, for any separator and dot.

variable {α : Type} [DecidableEq α]

def cleanStep (dot : α) (rooted : Bool) (stack : List (List α)) (segment : List α) : List (List α) :=
  if segment = [] ∨ segment = [dot] then stack
  else if segment = [dot, dot] then
    -- A rooted path has nothing above its root; otherwise what leads up stays.
    if stack = [] ∨ stack.getLast? = some [dot, dot] then (if rooted then stack else stack ++ [segment])
    else stack.dropLast
  else stack ++ [segment]

def cleanStack (sep dot : α) (rooted : Bool) (path : List α) : List (List α) :=
  (path.splitOn sep).foldl (cleanStep dot rooted) []

def cleanPath (sep dot : α) (path : List α) : List α :=
  if path.head? = some sep then sep :: [sep].intercalate (cleanStack sep dot true path)
  else if cleanStack sep dot false path = [] then [dot]
  else [sep].intercalate (cleanStack sep dot false path)

def Regular (dot : α) (segment : List α) : Prop :=
  segment ≠ [] ∧ segment ≠ [dot] ∧ segment ≠ [dot, dot]

instance (dot : α) (segment : List α) : Decidable (Regular dot segment) := inferInstanceAs (Decidable (_ ∧ _))

variable {sep dot : α}

theorem segment_induction (sep : α) {motive : List α → Prop} (last : ∀ segment, sep ∉ segment → motive segment)
    (cut : ∀ segment rest, sep ∉ segment → motive rest → motive (segment ++ sep :: rest)) (text : List α) :
    motive text := by
  by_cases split : sep ∈ text
  · obtain ⟨segment, rest, same, absent⟩ := List.eq_append_cons_of_mem split
    have shorter : rest.length < text.length := by
      simp only [same, List.length_append, List.length_cons]
      omega
    rw [same]
    exact cut segment rest absent (segment_induction sep last cut rest)
  · exact last text split
termination_by text.length

theorem not_mem_of_mem_splitOn {text segment : List α} (mem : segment ∈ text.splitOn sep) : sep ∉ segment := by
  induction text using segment_induction sep with
  | last text absent =>
    rw [List.splitOn_eq_singleton absent, List.mem_singleton] at mem
    rwa [mem]
  | cut first rest absent ih =>
    rw [List.splitOn_append_cons_self_of_not_mem absent, List.mem_cons] at mem
    cases mem with
    | inl same => rwa [same]
    | inr later => exact ih later

theorem splitOn_dropLast_prefix (sep : α) (start rest : List α) :
    (start.splitOn sep).dropLast <+: (start ++ rest).splitOn sep := by
  induction start using segment_induction sep with
  | last start absent => simp [List.splitOn_eq_singleton absent]
  | cut first start absent ih =>
    rw [List.splitOn_append_cons_self_of_not_mem absent, List.append_assoc, List.cons_append,
      List.splitOn_append_cons_self_of_not_mem absent, List.dropLast_cons_of_ne_nil (List.splitOn_ne_nil _ _)]
    exact List.cons_prefix_cons.mpr ⟨rfl, ih⟩

variable (rest : List α)

theorem splitOn_append_plain {finish : List α} (absent : sep ∉ finish) :
    ∃ last, (rest ++ finish).splitOn sep = (rest.splitOn sep).dropLast ++ [last ++ finish] := by
  induction rest using segment_induction sep with
  | last text plain =>
    refine ⟨text, ?_⟩
    rw [List.splitOn_eq_singleton plain, List.splitOn_eq_singleton (by simp [plain, absent])]
    rfl
  | cut first text plain ih =>
    obtain ⟨last, split⟩ := ih
    refine ⟨last, ?_⟩
    rw [List.append_assoc, List.cons_append, List.splitOn_append_cons_self_of_not_mem plain,
      List.splitOn_append_cons_self_of_not_mem plain, split,
      List.dropLast_cons_of_ne_nil (List.splitOn_ne_nil _ _), List.cons_append]

omit [DecidableEq α] in
theorem append_mark_inj {mark : α} {first second x y : List α} (left : mark ∉ first) (right : mark ∉ second)
    (same : first ++ mark :: x = second ++ mark :: y) : first = second ∧ x = y := by
  obtain ⟨more, grown, rest⟩ | ⟨more, grown, rest⟩ := List.append_eq_append_iff.mp same
  · cases more with
    | nil => simpa [eq_comm] using And.intro grown rest
    | cons b more =>
      simp only [List.cons_append, List.cons.injEq] at rest
      exact absurd (by simp [grown, rest.1]) right
  · cases more with
    | nil => simpa [eq_comm] using And.intro grown rest
    | cons b more =>
      simp only [List.cons_append, List.cons.injEq] at rest
      exact absurd (by simp [grown, rest.1]) left

variable (rooted : Bool) (stack : List (List α))

theorem cleanStep_regular {segment : List α} (regular : Regular dot segment) :
    cleanStep dot rooted stack segment = stack ++ [segment] := by
  simp [cleanStep, regular.1, regular.2.1, regular.2.2]

theorem foldl_cleanStep_regular (segments : List (List α)) (regular : ∀ segment ∈ segments, Regular dot segment) :
    segments.foldl (cleanStep dot rooted) stack = stack ++ segments := by
  induction segments generalizing stack with
  | nil => simp
  | cons segment rest ih =>
    rw [List.foldl_cons, cleanStep_regular rooted stack (regular segment (by simp)),
      ih _ fun later mem => regular later (by simp [mem])]
    simp

theorem foldl_cleanStep_kept (segments : List (List α)) :
    ∀ kept ∈ segments.foldl (cleanStep dot true) stack, kept ∈ stack ∨ kept ∈ segments ∧ Regular dot kept := by
  induction segments generalizing stack with
  | nil => exact fun kept mem => .inl mem
  | cons segment rest ih =>
    intro kept mem
    have step : kept ∈ cleanStep dot true stack segment → kept ∈ stack ∨ kept = segment ∧ Regular dot kept := by
      intro held
      simp only [cleanStep] at held
      split_ifs at held with skipped up top
      · exact .inl held
      · exact .inl held
      · exact .inl (List.dropLast_subset stack held)
      · simp only [List.mem_append, List.mem_singleton] at held
        cases held with
        | inl before => exact .inl before
        | inr same =>
          subst same
          exact .inr ⟨rfl, fun empty => skipped (.inl empty), fun single => skipped (.inr single), up⟩
    cases ih _ kept mem with
    | inl held =>
      cases step held with
      | inl before => exact .inl before
      | inr added => exact .inr ⟨by simp [added.1], added.2⟩
    | inr later => exact .inr ⟨by simp [later.1], later.2⟩

theorem mem_cleanStack {path kept : List α} (mem : kept ∈ cleanStack sep dot true path) :
    kept ∈ path.splitOn sep ∧ Regular dot kept := by
  cases foldl_cleanStep_kept [] (path.splitOn sep) kept mem with
  | inl none => cases none
  | inr held => exact held

theorem cleanStack_root : cleanStack sep dot rooted (sep :: rest) = cleanStack sep dot rooted rest := by
  have split : (sep :: rest).splitOn sep = [] :: rest.splitOn sep := by
    simpa using List.splitOn_append_cons_self ([] : List α) rest (a := sep)
  simp [cleanStack, split, cleanStep]

theorem cleanPath_rooted :
    cleanPath sep dot (sep :: rest) = sep :: [sep].intercalate (cleanStack sep dot true rest) := by
  simp [cleanPath, cleanStack_root]

theorem cleanPath_of_regular {rest : List α} (regular : ∀ segment ∈ rest.splitOn sep, Regular dot segment) :
    cleanPath sep dot (sep :: rest) = sep :: rest := by
  rw [cleanPath_rooted, cleanStack, foldl_cleanStep_regular true [] _ regular, List.nil_append,
    List.intercalate_splitOn]

theorem regular_of_prefix_cleanPath {start rest : List α} (within : sep :: start <+: cleanPath sep dot (sep :: rest)) :
    ∀ segment ∈ (start.splitOn sep).dropLast, Regular dot segment := by
  intro segment mem
  rw [cleanPath_rooted, List.cons_prefix_cons] at within
  obtain ⟨more, whole⟩ := within.2
  by_cases root : cleanStack sep dot true rest = []
  · simp only [root, List.intercalate_nil, List.append_eq_nil_iff] at whole
    simp [whole.1] at mem
  · have split := splitOn_dropLast_prefix sep start more
    have free : ∀ kept ∈ cleanStack sep dot true rest, sep ∉ kept :=
      fun kept held => not_mem_of_mem_splitOn (mem_cleanStack held).1
    rw [whole, List.splitOn_intercalate sep free root] at split
    exact (mem_cleanStack (split.subset mem)).2

omit [DecidableEq α] in
theorem mem_intercalate (sep : α) (segments : List (List α)) (x : α) :
    (x ∈ [sep].intercalate segments → x = sep ∨ ∃ segment ∈ segments, x ∈ segment) ∧
      ∀ segment ∈ segments, x ∈ segment → x ∈ [sep].intercalate segments := by
  induction segments with
  | nil => simp
  | cons first rest ih =>
    cases rest with
    | nil => simpa using fun inside => .inr inside
    | cons second rest =>
      simp only [List.intercalate_cons_cons, List.mem_append, List.mem_singleton]
      constructor
      · intro mem
        obtain (inside | same) | later := mem
        · exact .inr ⟨first, by simp, inside⟩
        · exact .inl same
        · cases ih.1 later with
          | inl same => exact .inl same
          | inr held =>
            obtain ⟨segment, held, inside⟩ := held
            exact .inr ⟨segment, List.mem_cons_of_mem _ held, inside⟩
      · intro segment held inside
        rw [List.mem_cons] at held
        cases held with
        | inl same => exact .inl (.inl (same ▸ inside))
        | inr later => exact .inr (ih.2 segment later inside)

theorem mem_cleanPath {rest : List α} {x : α} (mem : x ∈ cleanPath sep dot (sep :: rest)) : x = sep ∨ x ∈ rest := by
  rw [cleanPath_rooted, List.mem_cons] at mem
  cases mem with
  | inl same => exact .inl same
  | inr inside =>
    cases (mem_intercalate sep _ x).1 inside with
    | inl same => exact .inl same
    | inr held =>
      obtain ⟨segment, kept, inside⟩ := held
      have whole := (mem_intercalate sep (rest.splitOn sep) x).2 segment (mem_cleanStack kept).1 inside
      rw [List.intercalate_splitOn] at whole
      exact .inr whole

omit [DecidableEq α] in
theorem length_intercalate_lt (sep : α) (segments : List (List α)) (nonempty : segments ≠ []) (last : List α) :
    ([sep].intercalate segments).length < ([sep].intercalate (segments ++ [last])).length := by
  induction segments with
  | nil => exact absurd rfl nonempty
  | cons first rest ih =>
    cases rest with
    | nil => simp
    | cons second rest =>
      have later := ih (by simp)
      simp only [List.cons_append, List.intercalate_cons_cons, List.length_append] at later ⊢
      omega

theorem regular_of_cleanPath_prefix {rest : List α} (nonempty : rest ≠ [])
    (within : sep :: rest <+: cleanPath sep dot (sep :: rest)) : ∀ segment ∈ rest.splitOn sep, Regular dot segment := by
  have early := regular_of_prefix_cleanPath within
  have parts := List.dropLast_append_getLast (List.splitOn_ne_nil sep rest)
  have whole : [sep].intercalate (rest.splitOn sep) = rest := List.intercalate_splitOn sep
  generalize (rest.splitOn sep).dropLast = init at *
  generalize (rest.splitOn sep).getLast (List.splitOn_ne_nil sep rest) = last at *
  rw [cleanPath_rooted, List.cons_prefix_cons, cleanStack, ← parts, List.foldl_append,
    foldl_cleanStep_regular true [] init early] at within
  rw [← parts] at whole ⊢
  by_cases regular : Regular dot last
  · intro segment mem
    simp only [List.mem_append, List.mem_singleton] at mem
    cases mem with
    | inl before => exact early segment before
    | inr same => rwa [same]
  · have lengths := within.2.length_le
    have grows (segments : List (List α)) (added : List α) :
        ([sep].intercalate segments).length ≤ ([sep].intercalate (segments ++ [added])).length := by
      by_cases none : segments = []
      · simp [none]
      · exact Nat.le_of_lt (length_intercalate_lt sep segments none added)
    have stack : (cleanStep dot true init last = init ∨ cleanStep dot true init last = init.dropLast) := by
      simp only [cleanStep]
      split_ifs with skipped up top
      · exact .inl rfl
      · exact .inl rfl
      · exact .inr rfl
      · exact absurd ⟨fun empty => skipped (.inl empty), fun single => skipped (.inr single), up⟩ regular
    have kept : ([sep].intercalate (cleanStep dot true init last)).length ≤ ([sep].intercalate init).length := by
      cases stack with
      | inl same => exact Nat.le_of_eq (by rw [same])
      | inr popped =>
        rw [popped]
        by_cases none : init = []
        · simp [none]
        · conv_rhs => rw [← List.dropLast_append_getLast none]
          exact grows _ _
    by_cases none : init = []
    · have pos : 0 < rest.length := List.length_pos_of_ne_nil nonempty
      simp only [none, List.intercalate_nil, List.length_nil] at kept
      simp only [none, List.foldl_cons, List.foldl_nil, List.nil_append] at lengths kept
      omega
    · have longer := length_intercalate_lt sep init none last
      simp only [whole, List.nil_append, List.foldl_cons, List.foldl_nil] at longer lengths
      omega

end McpGateway.Shared
