import McpGateway.Shared.GoStrings

namespace McpGateway.Shared

-- The text form of a Postgres uuid column: 16 bytes of two hex digits, an optional hyphen after
-- every second byte, optional braces; the server prints it in one canonical spelling.

def hexDigits : List Char :=
  ['0', '1', '2', '3', '4', '5', '6', '7', '8', '9', 'a', 'b', 'c', 'd', 'e', 'f', 'A', 'B', 'C', 'D', 'E', 'F']

def isHexDigit (c : Char) : Bool :=
  hexDigits.contains c

def skipHyphen : List Char → List Char
  | '-' :: rest => rest
  | rest => rest

def uuidDigits : Nat → List Char → Option (List Char × List Char)
  | 0, rest => some ([], rest)
  | bytes + 1, high :: low :: rest =>
    if isHexDigit high && isHexDigit low then
      let rest := if 0 < bytes && bytes % 2 == 0 then skipHyphen rest else rest
      (uuidDigits bytes rest).map fun (digits, remaining) => (lowerRune high :: lowerRune low :: digits, remaining)
    else none
  | _ + 1, _ => none

def formatUuid (digits : List Char) : String :=
  String.ofList (digits.take 8 ++ ['-'] ++ (digits.drop 8).take 4 ++ ['-'] ++ (digits.drop 12).take 4 ++ ['-']
    ++ (digits.drop 16).take 4 ++ ['-'] ++ digits.drop 20)

def parseUuid (s : String) : Option String :=
  let (body, closing) :=
    match s.toList with
    | '\x7b' :: body => (body, ['\x7d'])
    | body => (body, [])
  match uuidDigits 16 body with
  | some (digits, rest) => if rest = closing then some (formatUuid digits) else none
  | none => none

theorem hexDigit_visible {c : Char} (hex : isHexDigit c = true) :
    isSpace c = false ∧ isSpace (lowerRune c) = false := by
  have digits : (hexDigits.all fun c => !isSpace c && !isSpace (lowerRune c)) = true := by decide +kernel
  simpa using List.all_eq_true.mp digits c (List.contains_iff_mem.mp hex)

theorem uuidDigits_visible (bytes : Nat) (runes digits rest : List Char)
    (parsed : uuidDigits bytes runes = some (digits, rest)) : ∀ c ∈ digits, isSpace c = false := by
  fun_induction uuidDigits bytes runes generalizing digits with
  | case1 runes =>
    cases parsed
    simp
  | case2 bytes high low runes hex next ih =>
    simp only [Bool.and_eq_true] at hex
    obtain ⟨⟨tail, remaining⟩, inner, same⟩ := Option.map_eq_some_iff.mp parsed
    cases same
    intro c mem
    rcases List.mem_cons.mp mem with rfl | mem
    · exact (hexDigit_visible hex.1).2
    rcases List.mem_cons.mp mem with rfl | mem
    · exact (hexDigit_visible hex.2).2
    · exact ih tail inner c mem
  | case3 => cases parsed
  | case4 => cases parsed

theorem formatUuid_visible (digits : List Char) (visible : ∀ c ∈ digits, isSpace c = false) :
    ∀ c ∈ (formatUuid digits).toList, isSpace c = false := by
  intro c mem
  have hyphen : isSpace '-' = false := by decide
  have part {start count : Nat} (within : c ∈ (digits.drop start).take count) : isSpace c = false :=
    visible c (List.mem_of_mem_drop (List.mem_of_mem_take within))
  simp only [formatUuid, String.toList_ofList, List.mem_append, List.mem_singleton] at mem
  rcases mem with (((((((first | rfl) | second) | rfl) | third) | rfl) | fourth) | rfl) | last
  · exact visible c (List.mem_of_mem_take first)
  · exact hyphen
  · exact part second
  · exact hyphen
  · exact part third
  · exact hyphen
  · exact part fourth
  · exact hyphen
  · exact visible c (List.mem_of_mem_drop last)

theorem formatUuid_ne_empty (digits : List Char) : formatUuid digits ≠ "" := by
  intro empty
  have runes := congrArg String.toList empty
  simp [formatUuid] at runes

theorem parseUuid_eq_formatUuid {s id : String} (parsed : parseUuid s = some id) :
    ∃ digits, (∀ c ∈ digits, isSpace c = false) ∧ id = formatUuid digits := by
  unfold parseUuid at parsed
  split at parsed
  split at parsed
  next digits rest found =>
    split_ifs at parsed
    cases parsed
    exact ⟨digits, uuidDigits_visible _ _ _ _ found, rfl⟩
  next => cases parsed

theorem trimSpace_uuid {s id : String} (parsed : parseUuid s = some id) : trimSpace id = id := by
  obtain ⟨digits, visible, rfl⟩ := parseUuid_eq_formatUuid parsed
  exact trimSpace_eq_self _ (formatUuid_visible digits visible)

theorem uuid_ne_empty {s id : String} (parsed : parseUuid s = some id) : id ≠ "" := by
  obtain ⟨digits, _, rfl⟩ := parseUuid_eq_formatUuid parsed
  exact formatUuid_ne_empty digits

theorem trimSpace_ne_empty_of_uuid {s id : String} (parsed : parseUuid s = some id) : trimSpace s ≠ "" := by
  intro blank
  have runes : trimRunes s.toList = [] := by simpa [trimSpace] using congrArg String.toList blank
  have spaces := trimRunes_eq_nil runes
  unfold parseUuid at parsed
  cases start : s.toList with
  | nil =>
    rw [start] at parsed
    cases parsed
  | cons head tail =>
    have space := spaces head (by simp [start])
    have plain : head ≠ '\x7b' := by
      rintro rfl
      revert space
      decide
    have digit : isHexDigit head = false := by
      by_contra hex
      have visible := (hexDigit_visible (by simpa only [Bool.not_eq_false] using hex)).1
      rw [visible] at space
      cases space
    rw [start] at parsed
    cases tail with
    | nil => simp [plain, uuidDigits] at parsed
    | cons low rest => simp [plain, uuidDigits, digit] at parsed

end McpGateway.Shared
