import Mathlib.Data.List.Basic
import Mathlib.Tactic.SplitIfs

namespace McpGateway.Shared

def pieces (text : String) : List String :=
  (text.toList.splitOn '\n').map String.ofList

def lines (text : String) : List String :=
  if (pieces text).getLast? = some "" then (pieces text).dropLast else pieces text

def terminated (parts : List String) : String :=
  String.join (parts.map (· ++ "\n"))

def OneLine (text : String) : Prop :=
  '\n' ∉ text.toList

instance (text : String) : Decidable (OneLine text) :=
  inferInstanceAs (Decidable (_ ∉ _))

theorem pieces_ne_nil (text : String) : pieces text ≠ [] := by
  simp [pieces, List.splitOn, List.splitOnP_ne_nil]

theorem mem_splitOnP {Item : Type} {separates : Item → Bool} {items piece : List Item}
    (mem : piece ∈ items.splitOnP separates) : ∀ item ∈ piece, separates item = false := by
  induction items generalizing piece with
  | nil => simp_all
  | cons first rest ih =>
    rw [List.splitOnP_cons_eq_if_modifyHead] at mem
    cases found : separates first with
    | true =>
      simp only [found, if_true, List.mem_cons] at mem
      rcases mem with rfl | mem
      · simp
      · exact ih mem
    | false =>
      simp only [found, Bool.false_eq_true, if_false] at mem
      cases parts : rest.splitOnP separates with
      | nil => simp [parts] at mem
      | cons head tail =>
        rw [parts] at ih mem
        simp only [List.modifyHead_cons, List.mem_cons] at mem
        rcases mem with rfl | mem
        · intro item inside
          rcases List.mem_cons.mp inside with rfl | inside
          · exact found
          · exact ih (by simp) item inside
        · exact ih (by simp [mem])

theorem oneLine_of_mem_lines {text line : String} (mem : line ∈ lines text) : OneLine line := by
  have inside : line ∈ pieces text := by
    unfold lines at mem
    split_ifs at mem
    · exact List.dropLast_subset _ mem
    · exact mem
  obtain ⟨runes, found, rfl⟩ := List.mem_map.mp inside
  intro contains
  have separate := mem_splitOnP found '\n' (by simpa using contains)
  simp at separate

theorem pieces_line {line : String} (oneLine : OneLine line) (rest : String) :
    pieces (line ++ "\n" ++ rest) = line :: pieces rest := by
  have visible : ∀ c ∈ line.toList, (c == '\n') = false := by
    intro c mem
    simpa using fun same : c = '\n' => oneLine (same ▸ mem)
  have first := List.splitOnP_append_cons_of_forall_mem visible '\n' rfl rest.toList
  simpa [pieces, List.splitOn] using congrArg (List.map String.ofList) first

theorem lines_line {line : String} (oneLine : OneLine line) (rest : String) :
    lines (line ++ "\n" ++ rest) = line :: lines rest := by
  have some_piece := pieces_ne_nil rest
  rw [lines, lines, pieces_line oneLine, List.getLast?_cons_of_ne_nil some_piece]
  split_ifs
  · exact List.dropLast_cons_of_ne_nil some_piece
  · rfl

@[simp] theorem terminated_cons (part : String) (parts : List String) :
    terminated (part :: parts) = part ++ "\n" ++ terminated parts := by
  simp [terminated]

@[simp] theorem terminated_append (parts more : List String) :
    terminated (parts ++ more) = terminated parts ++ terminated more := by
  simp [terminated]

theorem lines_terminated {parts : List String} (oneLine : ∀ part ∈ parts, OneLine part) :
    lines (terminated parts) = parts := by
  induction parts with
  | nil => decide
  | cons part rest ih =>
    rw [terminated_cons, lines_line (oneLine part (by simp)), ih fun other mem => oneLine other (by simp [mem])]

def joinLines (parts : List String) : String :=
  parts.foldl (fun text part => if text = "" then part else text ++ "\n" ++ part) ""

theorem foldl_joinLines {text : String} (started : text ≠ "") (parts : List String) :
    parts.foldl (fun text part => if text = "" then part else text ++ "\n" ++ part) text ++ "\n" =
      text ++ "\n" ++ terminated parts := by
  induction parts generalizing text with
  | nil => simp [terminated]
  | cons part rest ih =>
    have longer : text ++ "\n" ++ part ≠ "" := by simp
    rw [List.foldl_cons, if_neg started, ih longer, terminated_cons]
    simp only [String.append_assoc]

theorem foldl_joinLines_ne_empty {text : String} (started : text ≠ "") (parts : List String) :
    parts.foldl (fun text part => if text = "" then part else text ++ "\n" ++ part) text ≠ "" := by
  induction parts generalizing text with
  | nil => exact started
  | cons part rest ih =>
    have longer : text ++ "\n" ++ part ≠ "" := by simp
    rw [List.foldl_cons, if_neg started]
    exact ih longer

theorem joinLines_terminated {parts : List String} (visible : ∀ part ∈ parts, part ≠ "") :
    (if joinLines parts = "" then "" else joinLines parts ++ "\n") = terminated parts := by
  cases parts with
  | nil => rfl
  | cons part rest =>
    have started := visible part (by simp)
    have joined : joinLines (part :: rest) ≠ "" := by simpa [joinLines] using foldl_joinLines_ne_empty started rest
    rw [if_neg joined, joinLines, List.foldl_cons, if_pos rfl, foldl_joinLines started, terminated_cons]

end McpGateway.Shared
