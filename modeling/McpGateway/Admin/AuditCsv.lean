import McpGateway.Shared.Csv
import McpGateway.Shared.GoMarshal

namespace McpGateway.Admin

open Shared

-- A time.Time as its calendar methods show it, with the offset of its zone in minutes.
structure CalendarTime where
  year : Int
  month : Nat
  day : Nat
  hour : Nat
  minute : Nat
  second : Nat
  offset : Int

structure AuditEntry where
  createdAt : CalendarTime
  eventType : String
  clientId : String
  username : String
  serverName : String
  details : Option Object

def padded (width n : Nat) : List Char :=
  (Nat.toDigits 10 n).leftpad width '0'

def zoneRunes (offset : Int) : List Char :=
  if offset = 0 then ['Z']
  else (if offset < 0 then '-' else '+') :: (padded 2 (offset.natAbs / 60) ++ ':' :: padded 2 (offset.natAbs % 60))

def formatRFC3339 (time : CalendarTime) : String :=
  String.ofList ((if time.year < 0 then ['-'] else []) ++ padded 4 time.year.natAbs ++ '-' :: padded 2 time.month ++
    '-' :: padded 2 time.day ++ 'T' :: padded 2 time.hour ++ ':' :: padded 2 time.minute ++ ':' :: padded 2 time.second ++
    zoneRunes time.offset)

def isFormula (c : Char) : Bool :=
  c == '=' || c == '+' || c == '-' || c == '@' || c == '\t' || c == '\r'

def guardFormula (s : String) : String :=
  if s.toList.head?.any isFormula then "'" ++ s else s

def csvEscape (s : String) : String :=
  if (guardFormula s).toList.any fun c => c == ',' || c == '"' || c == '\n' || c == '\r' then
    "\"" ++ String.ofList ((guardFormula s).toList.flatMap Csv.double) ++ "\""
  else guardFormula s

def detailsText (entry : AuditEntry) : String :=
  match entry.details with
  | none => "null"
  | some details => marshal (.object details)

def auditHeader : List String :=
  ["time", "event_type", "client_id", "username", "server_name", "details"]

def csvLine (fields : List String) : String :=
  ",".intercalate fields ++ "\n"

def writeAuditCSV (entries : List AuditEntry) : String :=
  csvLine auditHeader ++ String.join (entries.map fun entry =>
    csvLine [formatRFC3339 entry.createdAt, csvEscape entry.eventType, csvEscape entry.clientId, csvEscape entry.username,
      csvEscape entry.serverName, csvEscape (detailsText entry)])

def auditFields (entry : AuditEntry) : List String :=
  [formatRFC3339 entry.createdAt, guardFormula entry.eventType, guardFormula entry.clientId, guardFormula entry.username,
    guardFormula entry.serverName, guardFormula (detailsText entry)]

theorem isText_digit {c : Char} (digit : Json.isDigit c = true) : Csv.isText c = true := by
  simp only [Csv.isText, Bool.and_eq_true, bne_iff_ne]
  refine ⟨⟨⟨?_, ?_⟩, ?_⟩, ?_⟩ <;> rintro rfl <;> revert digit <;> decide

theorem padded_plain (width n : Nat) : (padded width n).all Csv.isText = true := by
  have digits : ∀ c ∈ Nat.toDigits 10 n, Csv.isText c = true := fun c digit => isText_digit (isDigit_toDigits c digit)
  simpa [padded, List.leftpad, Csv.isText] using digits

theorem formatRFC3339_plain (time : CalendarTime) : (formatRFC3339 time).toList.all Csv.isText = true := by
  have sign : (if time.year < 0 then ['-'] else []).all Csv.isText = true := by split_ifs <;> decide
  have zone : (zoneRunes time.offset).all Csv.isText = true := by
    rw [zoneRunes]
    split_ifs <;> simp only [List.all_cons, List.all_append, padded_plain] <;> decide
  simp only [formatRFC3339, String.toList_ofList, List.all_append, List.all_cons, padded_plain, sign, zone]
  decide

theorem reads_formatRFC3339 (time : CalendarTime) : Csv.Reads (formatRFC3339 time).toList (formatRFC3339 time).toList :=
  Csv.reads_plain (List.all_eq_true.mp (formatRFC3339_plain time))

theorem reads_csvEscape (s : String) : Csv.Reads (csvEscape s).toList (guardFormula s).toList := by
  rw [csvEscape]
  split_ifs with special
  · simpa using Csv.reads_quoted (guardFormula s).toList
  · refine Csv.reads_plain fun c mem => ?_
    simp only [Bool.not_eq_true, List.any_eq_false] at special
    simpa [Csv.isText, and_assoc] using special c mem

theorem guardFormula_head (s : String) : ∀ c ∈ (guardFormula s).toList.head?, isFormula c = false := by
  intro c first
  rw [guardFormula] at first
  split_ifs at first with formula
  · have quote : '\'' = c := by simpa using first
    rw [← quote]
    decide
  · simp_all

def linePairs (entry : AuditEntry) : List (List Char × List Char) :=
  ((formatRFC3339 entry.createdAt).toList, (formatRFC3339 entry.createdAt).toList) ::
    [entry.eventType, entry.clientId, entry.username, entry.serverName, detailsText entry].map fun s =>
      ((csvEscape s).toList, (guardFormula s).toList)

theorem linePairs_readable (entry : AuditEntry) : ∀ pair ∈ linePairs entry, Csv.Reads pair.1 pair.2 := by
  have time := reads_formatRFC3339 entry.createdAt
  have texts := reads_csvEscape
  rw [linePairs]
  generalize (formatRFC3339 entry.createdAt).toList = runes at time ⊢
  simp [time, texts]

theorem toList_csvLine (fields : List String) :
    (csvLine fields).toList = [','].intercalate (fields.map String.toList) ++ ['\n'] := by
  simp [csvLine, String.toList_intercalate]

/-- The export is read back as the header and one record of six fields for each entry, none but the first of which
begins like a formula. -/
theorem audit_csv_read_back (entries : List AuditEntry) :
    Csv.parse (writeAuditCSV entries) = some (auditHeader :: entries.map auditFields) ∧
      ∀ entry, (auditFields entry).length = 6 ∧
        ∀ field ∈ (auditFields entry).tail, ∀ c ∈ field.toList.head?, isFormula c = false := by
  let lines := auditHeader.map (fun name => (name.toList, name.toList)) :: entries.map linePairs
  have written : (writeAuditCSV entries).toList =
      lines.flatMap fun fields => [','].intercalate (fields.map Prod.fst) ++ ['\n'] := by
    simp [writeAuditCSV, lines, linePairs, toList_csvLine, String.toList_join, List.flatMap_def, Function.comp_def]
  have readable : ∀ fields ∈ lines, fields ≠ [] ∧ ∀ pair ∈ fields, Csv.Reads pair.1 pair.2 := by
    simp only [lines, List.forall_mem_cons, List.forall_mem_map]
    refine ⟨⟨by decide, ?_⟩, fun entry _ => ⟨by simp [linePairs], linePairs_readable entry⟩⟩
    intro name mem
    have plain : ∀ name ∈ auditHeader, name.toList.all Csv.isText = true := by decide
    exact Csv.reads_plain (List.all_eq_true.mp (plain name mem))
  refine ⟨?_, fun entry => ⟨rfl, ?_⟩⟩
  · rw [Csv.parse_joined readable written]
    simp [lines, linePairs, auditFields, auditHeader, Function.comp_def]
  · have guarded : (auditFields entry).tail = [entry.eventType, entry.clientId, entry.username, entry.serverName,
        detailsText entry].map guardFormula := rfl
    rw [guarded, List.forall_mem_map]
    exact fun s _ => guardFormula_head s

end McpGateway.Admin
