import McpGateway.Policy.Classification
import McpGateway.Proxy.Endpoints

namespace McpGateway.Proxy

open Shared Policy

section

variable {runes blanks : List Char}

theorem fieldRunes_append {space : Char} (blank : isSpace space = true) (rest word : List Char) :
    fieldRunes (runes ++ space :: rest) word = fieldRunes runes word ++ fieldRunes rest [] := by
  induction runes generalizing word with
  | nil => simp [fieldRunes, blank]
  | cons rune runes ih => cases visible : isSpace rune <;> simp [fieldRunes, visible, ih]

theorem fieldRunes_blanks (blank : ∀ c ∈ blanks, isSpace c = true) (rest : List Char) :
    fieldRunes (blanks ++ rest) [] = fieldRunes rest [] := by
  induction blanks with
  | nil => rfl
  | cons space blanks ih => simp_all [fieldRunes]

theorem fieldRunes_append_blanks (blank : ∀ c ∈ blanks, isSpace c = true) :
    fieldRunes (runes ++ blanks) [] = fieldRunes runes [] := by
  cases blanks with
  | nil => simp
  | cons space blanks =>
    obtain ⟨first, blank⟩ := List.forall_mem_cons.mp blank
    have none := fieldRunes_blanks blank []
    rw [List.append_nil] at none
    simp [fieldRunes_append first, none, fieldRunes]

theorem fieldRunes_trim {f : Char → Char} (keeps : ∀ c, isSpace c = true → isSpace (f c) = true) (runes : List Char) :
    fieldRunes ((trimRunes runes).map f) [] = fieldRunes (runes.map f) [] := by
  have mapped {blanks : List Char} (blank : ∀ c ∈ blanks, isSpace c = true) : ∀ c ∈ blanks.map f, isSpace c = true :=
    List.forall_mem_map.mpr fun c mem => keeps c (blank c mem)
  have back : (runes.dropWhile isSpace).rdropWhile isSpace ++ (runes.dropWhile isSpace).rtakeWhile isSpace =
      runes.dropWhile isSpace := by
    simp [List.rdropWhile, List.rtakeWhile, ← List.reverse_append]
  conv_rhs => rw [← List.takeWhile_append_dropWhile (p := isSpace) (l := runes), ← back]
  rw [List.map_append, fieldRunes_blanks (mapped fun _ => List.mem_takeWhile_imp), List.map_append,
    fieldRunes_append_blanks (mapped fun _ => List.mem_rtakeWhile_imp)]
  rfl

end

def rank : RiskLevel → Nat
  | .unknown => 0
  | .write => 1
  | .readOnly => 2
  | .destructive => 3

theorem isSpace_lowerRune {c : Char} (space : isSpace c = true) : lowerRune c = c :=
  space_cases (motive := fun c => lowerRune c = c) (by decide +kernel) space

theorem splitToolName_eq (name : String) : splitToolName name = (fieldRunes (name.toList.map fun c =>
    if isDelimiter (lowerRune c) then ' ' else lowerRune c) []).map String.ofList := by
  have keeps (c : Char) (space : isSpace c = true) :
      isSpace (if isDelimiter (lowerRune c) then ' ' else lowerRune c) = true := by
    split_ifs
    · decide
    · rwa [isSpace_lowerRune space]
  rw [← fieldRunes_trim keeps]
  simp [splitToolName, fields, toLower, trimSpace, Function.comp_def]

theorem splitToolName_append {d : Char} (delimiter : d ∈ ['.', '_', '-', '/', ' ']) (a b : String) :
    splitToolName (a ++ d.toString ++ b) = splitToolName a ++ splitToolName b := by
  have space : isSpace (if isDelimiter (lowerRune d) then ' ' else lowerRune d) = true := by
    simp only [List.mem_cons, List.not_mem_nil, or_false] at delimiter
    obtain rfl | rfl | rfl | rfl | rfl := delimiter <;> decide
  simp [splitToolName_eq, fieldRunes_append space]

def levelOf (destructive readOnly write : Bool) : RiskLevel :=
  if destructive then .destructive else if readOnly then .readOnly else if write then .write else .unknown

theorem autoClassify_level (name : String) : (autoClassify name "").1 =
    levelOf ((splitToolName name).any destructiveKeywords.contains) ((splitToolName name).any readOnlyKeywords.contains)
      ((splitToolName name).any writeKeywords.contains) := by
  have blank : toLower (trimSpace "") = "" := by decide
  simp only [autoClassify, blank, if_true, Option.or_none, firstRule, nameClassificationRules, classifyByName,
    ← List.isSome_find?, List.findSome?_cons, List.findSome?_nil, levelOf]
  cases (splitToolName name).find? destructiveKeywords.contains with
  | some keyword => simp
  | none =>
    cases (splitToolName name).find? readOnlyKeywords.contains with
    | some keyword => simp
    | none => cases (splitToolName name).find? writeKeywords.contains <;> simp

theorem rank_levelOf : ∀ d r w d' r' w' : Bool,
    rank (levelOf (d || d') (r || r') (w || w')) = max (rank (levelOf d r w)) (rank (levelOf d' r' w')) := by
  decide

theorem rank_append {d : Char} (delimiter : d ∈ ['.', '_', '-', '/', ' ']) (a b : String) :
    rank (autoClassify (a ++ d.toString ++ b) "").1 =
      max (rank (autoClassify a "").1) (rank (autoClassify b "").1) := by
  simp only [autoClassify_level, splitToolName_append delimiter, List.any_append, rank_levelOf]

theorem splitToolName_trimSpace (name : String) : splitToolName (trimSpace name) = splitToolName name := by
  simp [splitToolName, trimSpace, trimRunes_idempotent]

/-- The risk of a name is that of its riskiest part, and a federated name is no less risky than the tool's own, if the
server has one to give. -/
theorem risk_of_parts (a b : String) (d : Char) (delimiter : d ∈ ['.', '_', '-', '/', ' ']) (server : ServerRecord)
    (labelled : serverLabel server ≠ "") :
    rank (autoClassify (a ++ d.toString ++ b) "").1 = max (rank (autoClassify a "").1) (rank (autoClassify b "").1) ∧
    ((∀ token, token ∈ splitToolName a ↔ token ∈ splitToolName b) → (autoClassify a "").1 = (autoClassify b "").1) ∧
    rank (autoClassify a "").1 ≤ rank (autoClassify (federatedToolName server a) "").1 := by
  refine ⟨rank_append delimiter a b, fun same => ?_, ?_⟩
  · have any (keywords : List String) :
        (splitToolName a).any keywords.contains = (splitToolName b).any keywords.contains := by
      rw [Bool.eq_iff_iff]
      simp only [List.any_eq_true, same]
    simp only [autoClassify_level, any]
  · have trimmed : (autoClassify (trimSpace a) "").1 = (autoClassify a "").1 := by
      rw [autoClassify_level, autoClassify_level, splitToolName_trimSpace]
    simp only [federatedToolName, labelled, or_false]
    split_ifs with blank
    · rw [← trimmed, blank]
    · rw [trimmed]
    · have joined := rank_append (d := '.') (by simp) (displayName (serverLabel server)) (trimSpace a)
      rw [trimmed] at joined
      exact (le_max_right _ _).trans_eq joined.symm

theorem risk_of_delete : serverLabel Sample.database ≠ "" ∧
    3 ≤ rank (autoClassify (federatedToolName Sample.database "delete") "").1 := by
  have labelled : serverLabel Sample.database ≠ "" := by decide +kernel
  have parts := risk_of_parts "delete" "rows" '.' (by simp) Sample.database labelled
  exact ⟨labelled, le_trans (by decide +kernel) parts.2.2⟩

-- A server with neither name nor id gives its tools no federated name at all.
theorem unnamed_risk : rank (autoClassify (federatedToolName (Sample.server "" ⟨["delete"], [], []⟩) "delete") "").1 <
    rank (autoClassify "delete" "").1 := by
  decide +kernel

end McpGateway.Proxy
