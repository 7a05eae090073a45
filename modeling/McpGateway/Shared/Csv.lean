import Mathlib.Data.List.Basic
import Mathlib.Data.List.TakeDrop

namespace McpGateway.Shared.Csv

-- RFC 4180 with LF or CRLF behind a record. A quoted field, behind its first quote; a doubled quote stands for one.
def quoted : List Char → Option (List Char × List Char)
  | [] => none
  | '"' :: '"' :: rest => (quoted rest).map fun read => ('"' :: read.1, read.2)
  | '"' :: rest => some ([], rest)
  | c :: rest => (quoted rest).map fun read => (c :: read.1, read.2)

def isText (c : Char) : Bool :=
  c != ',' && c != '"' && c != '\n' && c != '\r'

def field : List Char → Option (List Char × List Char)
  | '"' :: rest => quoted rest
  | runes => some (runes.span isText)

def record : Nat → List Char → Option (List String × List Char)
  | 0, _ => none
  | fuel + 1, runes =>
    (field runes).bind fun read =>
      match read.2 with
      | ',' :: rest => (record fuel rest).map fun later => (String.ofList read.1 :: later.1, later.2)
      | '\n' :: rest => some ([String.ofList read.1], rest)
      | '\r' :: '\n' :: rest => some ([String.ofList read.1], rest)
      | [] => some ([String.ofList read.1], [])
      | _ => none

def records : Nat → List Char → Option (List (List String))
  | _, [] => some []
  | 0, _ => none
  | fuel + 1, runes => (record (runes.length + 1) runes).bind fun read => (records fuel read.2).map fun later =>
    read.1 :: later

-- Every record takes a rune at least.
def parse (text : String) : Option (List (List String)) :=
  records text.toList.length text.toList

def double (c : Char) : List Char :=
  if c = '"' then ['"', '"'] else [c]

def Reads (text value : List Char) : Prop :=
  ∀ rest, (∀ c ∈ rest.head?, c = ',' ∨ c = '\n') → field (text ++ rest) = some (value, rest)

variable {text value : List Char}

theorem reads_plain (plain : ∀ c ∈ text, isText c = true) : Reads text text := by
  intro rest ends
  have split : (text ++ rest).span isText = (text, rest) := by
    have stops : rest.takeWhile isText = [] ∧ rest.dropWhile isText = rest := by
      cases rest with
      | nil => simp
      | cons c rest =>
        have ended : isText c = false := by
          rcases ends c (by simp) with rfl | rfl <;> decide
        simp [ended]
    rw [List.span_eq_takeWhile_dropWhile, List.takeWhile_append_of_pos plain, List.dropWhile_append_of_pos plain,
      stops.1, stops.2, List.append_nil]
  have unquoted : ∀ runes, text ++ rest ≠ '"' :: runes := by
    rintro runes same
    cases text with
    | nil => simpa using ends '"' (by simp_all)
    | cons c text => exact absurd (plain c (by simp)) (by simp_all [isText])
  rw [field, split]
  exact unquoted

theorem quoted_double (value : List Char) {rest : List Char} (ends : ∀ c ∈ rest.head?, c = ',' ∨ c = '\n') :
    quoted (value.flatMap double ++ '"' :: rest) = some (value, rest) := by
  induction value with
  | nil =>
    cases rest with
    | nil => rfl
    | cons c rest =>
      rcases ends c (by simp) with rfl | rfl <;> simp [quoted]
  | cons c value ih =>
    by_cases quote : c = '"'
    · simp [double, quote, quoted, ih]
    · simp [double, quote, quoted, ih]

theorem reads_quoted (value : List Char) : Reads ('"' :: (value.flatMap double ++ ['"'])) value := by
  intro rest ends
  simpa [field] using quoted_double value ends

theorem record_joined {fields : List (List Char × List Char)} (readable : ∀ pair ∈ fields, Reads pair.1 pair.2)
    (first : fields ≠ []) (rest : List Char) {fuel : Nat} (enough : fields.length ≤ fuel) :
    record fuel ([','].intercalate (fields.map Prod.fst) ++ '\n' :: rest) =
      some (fields.map fun pair => String.ofList pair.2, rest) := by
  induction fields generalizing fuel with
  | nil => exact absurd rfl first
  | cons pair fields ih =>
    obtain ⟨fuel, rfl⟩ : ∃ less, fuel = less + 1 := ⟨fuel - 1, by simp at enough; omega⟩
    have own := readable pair (by simp)
    cases fields with
    | nil => simp [record, List.intercalate, own ('\n' :: rest) (by simp)]
    | cons next fields =>
      have later := ih (fun pair mem => readable pair (by simp [mem])) (by simp) (by simpa using enough)
      have split : [','].intercalate ((pair :: next :: fields).map Prod.fst) ++ '\n' :: rest =
          pair.1 ++ ',' :: ([','].intercalate ((next :: fields).map Prod.fst) ++ '\n' :: rest) := by
        simp [List.intercalate]
      rw [split, record, own _ (by simp)]
      simpa using later

theorem length_le_intercalate (texts : List (List Char)) : texts.length ≤ ([','].intercalate texts).length + 1 := by
  induction texts with
  | nil => simp
  | cons text texts ih =>
    cases texts with
    | nil => simp
    | cons next texts =>
      simp [List.intercalate] at ih ⊢
      omega

theorem records_joined {lines : List (List (List Char × List Char))}
    (readable : ∀ fields ∈ lines, fields ≠ [] ∧ ∀ pair ∈ fields, Reads pair.1 pair.2) {fuel : Nat}
    (enough : lines.length ≤ fuel) :
    records fuel (lines.flatMap fun fields => [','].intercalate (fields.map Prod.fst) ++ ['\n']) =
      some (lines.map fun fields => fields.map fun pair => String.ofList pair.2) := by
  induction lines generalizing fuel with
  | nil => cases fuel <;> rfl
  | cons fields lines ih =>
    obtain ⟨fuel, rfl⟩ : ∃ less, fuel = less + 1 := ⟨fuel - 1, by simp at enough; omega⟩
    obtain ⟨some_field, reads⟩ := readable fields (by simp)
    have later := ih (fun fields mem => readable fields (by simp [mem])) (by simpa using enough)
    have fits : fields.length ≤ ([','].intercalate (fields.map Prod.fst) ++ '\n' ::
        lines.flatMap fun fields => [','].intercalate (fields.map Prod.fst) ++ ['\n']).length + 1 := by
      have count := length_le_intercalate (fields.map Prod.fst)
      simp only [List.length_map, List.length_append] at count ⊢
      omega
    have read := record_joined reads some_field (lines.flatMap fun fields =>
      [','].intercalate (fields.map Prod.fst) ++ ['\n'])
      fits
    rw [List.flatMap_cons, List.append_assoc, List.singleton_append, records, read]
    · simp [later]
    · simp

theorem parse_joined {lines : List (List (List Char × List Char))}
    (readable : ∀ fields ∈ lines, fields ≠ [] ∧ ∀ pair ∈ fields, Reads pair.1 pair.2) {written : String}
    (joined : written.toList = lines.flatMap fun fields => [','].intercalate (fields.map Prod.fst) ++ ['\n']) :
    parse written = some (lines.map fun fields => fields.map fun pair => String.ofList pair.2) := by
  have enough : lines.length ≤
      (lines.flatMap fun fields => [','].intercalate (fields.map Prod.fst) ++ ['\n']).length := by
    clear readable joined
    induction lines with
    | nil => simp
    | cons fields lines ih =>
      simp only [List.flatMap_cons, List.length_append, List.length_cons] at ih ⊢
      omega
  rw [parse, joined, records_joined readable enough]

end McpGateway.Shared.Csv
