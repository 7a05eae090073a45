import McpGateway.Shared.GoJson

namespace McpGateway.Shared.Json

mutual

def print : Json → List Char
  | .null => ['n', 'u', 'l', 'l']
  | .bool true => ['t', 'r', 'u', 'e']
  | .bool false => ['f', 'a', 'l', 's', 'e']
  | .number literal => literal.toList
  | .string value => '"' :: (value.toList.flatMap marshalRune ++ ['"'])
  | .array items => '[' :: (printItems items ++ [']'])
  | .object members => '\x7b' :: (printMembers members ++ ['\x7d'])

def printItems : List Json → List Char
  | [] => []
  | [item] => print item
  | item :: next :: rest => print item ++ ',' :: printItems (next :: rest)

def printMembers : List (String × Json) → List Char
  | [] => []
  | [(key, value)] => '"' :: (key.toList.flatMap marshalRune ++ ['"']) ++ ':' :: print value
  | (key, value) :: next :: rest =>
    '"' :: (key.toList.flatMap marshalRune ++ ['"']) ++ ':' :: print value ++ ',' :: printMembers (next :: rest)

end

inductive Ends : List Char → Prop where
  | nothing : Ends []
  | comma (rest : List Char) : Ends (',' :: rest)
  | bracket (rest : List Char) : Ends (']' :: rest)
  | brace (rest : List Char) : Ends ('\x7d' :: rest)

structure NumberText (runes : List Char) : Prop where
  reads : ∀ rest, Ends rest → parseNumber (runes ++ rest) = some (.number (String.ofList runes), rest)
  starts : ∃ first tail, runes = first :: tail ∧ (first = '-' ∨ isDigit first = true)

mutual

def Printable : Json → Prop
  | .null => True
  | .bool _ => True
  | .number literal => NumberText literal.toList
  | .string _ => True
  | .array items => PrintableItems items
  | .object members => PrintableMembers members

def PrintableItems : List Json → Prop
  | [] => True
  | item :: rest => Printable item ∧ PrintableItems rest

def PrintableMembers : List (String × Json) → Prop
  | [] => True
  | (_, value) :: rest => Printable value ∧ PrintableMembers rest

end

mutual

def nesting : Json → Nat
  | .array items => nestingItems items + 1
  | .object members => nestingMembers members + 1
  | _ => 0

def nestingItems : List Json → Nat
  | [] => 0
  | item :: rest => max (nesting item) (nestingItems rest)

def nestingMembers : List (String × Json) → Nat
  | [] => 0
  | (_, value) :: rest => max (nesting value) (nestingMembers rest)

end

variable {n fuel depth : Nat} {c escaped w x y z first : Char} {json value : Json} {items : List Json}
  {members : List (String × Json)} {runes more rest : List Char} {key : String}

theorem hexValue_hexRune (small : n < 16) : hexValue (hexRune n) = some n := by
  have all : ∀ n ∈ List.range 16, hexValue (hexRune n) = some n := by decide
  exact all n (List.mem_range.mpr small)

theorem codeUnit_hexRunes (small : n < 256) : codeUnit '0' '0' (hexRune (n / 16)) (hexRune (n % 16)) = some n := by
  have zero : hexValue '0' = some 0 := by decide
  have high : hexValue (hexRune (n / 16)) = some (n / 16) := hexValue_hexRune (by omega)
  have low : hexValue (hexRune (n % 16)) = some (n % 16) := hexValue_hexRune (by omega)
  simp only [codeUnit, zero, high, low, Option.bind_eq_bind, Option.bind_some, Option.pure_def, Option.some.injEq]
  omega

theorem codeUnit_separator (separator : n = 0x2028 ∨ n = 0x2029) :
    codeUnit '2' '0' '2' (hexRune (n % 16)) = some n := by
  rcases separator with rfl | rfl <;> decide

theorem stringUnits_plain (rest : List Char) (quote : c ≠ '"') (backslash : c ≠ '\\') (printable : ¬ c.toNat < 0x20) :
    stringUnits (c :: rest) = (stringUnits rest).map fun read => (.inr c :: read.1, read.2) := by
  have kept : (decide (c.toNat < 0x20) || c == '\\') = false := by simp [printable, backslash]
  rw [stringUnits]
  · rw [kept]
    cases stringUnits rest <;> rfl
  all_goals simp_all

theorem stringUnits_escape (rest : List Char) (short : escaped ≠ 'u') (simple : simpleEscape escaped = some c) :
    stringUnits ('\\' :: escaped :: rest) = (stringUnits rest).map fun read => (.inr c :: read.1, read.2) := by
  rw [stringUnits]
  · rw [simple]
    cases stringUnits rest <;> rfl
  all_goals simp_all

theorem stringUnits_unit (rest : List Char) {unit : Nat} (coded : codeUnit w x y z = some unit) :
    stringUnits ('\\' :: 'u' :: w :: x :: y :: z :: rest) =
      (stringUnits rest).map fun read => (.inl unit :: read.1, read.2) := by
  rw [stringUnits, coded]
  cases stringUnits rest <;> rfl

-- The text stands for a rune: it is read back as the rune itself or as its code unit, which is no surrogate.
def ReadsBack (c : Char) (text : List Char) : Prop :=
  ∀ rest, ∃ unit, (unit = .inr c ∨ unit = .inl c.toNat ∧ c.toNat < 0xD800) ∧
    stringUnits (text ++ rest) = (stringUnits rest).map fun read => (unit :: read.1, read.2)

theorem ReadsBack.escape {value : Char} (same : (c == value) = true) (short : escaped ≠ 'u')
    (simple : simpleEscape escaped = some value) : ReadsBack c ['\\', escaped] := fun rest =>
  ⟨.inr value, .inl (by rw [eq_of_beq same]), stringUnits_escape rest short simple⟩

theorem ReadsBack.unit (low : c.toNat < 0xD800) (coded : codeUnit w x y z = some c.toNat) :
    ReadsBack c ['\\', 'u', w, x, y, z] := fun rest =>
  ⟨.inl c.toNat, .inr ⟨rfl, low⟩, stringUnits_unit rest coded⟩

theorem ReadsBack.branch {condition : Prop} [Decidable condition] {text other : List Char}
    (holds : condition → ReadsBack c text) (fails : ¬ condition → ReadsBack c other) :
    ReadsBack c (if condition then text else other) := by
  split_ifs with given
  · exact holds given
  · exact fails given

theorem readsBack_marshalRune (c : Char) : ReadsBack c (marshalRune c) := by
  unfold marshalRune
  refine .branch (fun quote => .escape quote (by decide) rfl) fun quote => ?_
  refine .branch (fun backslash => .escape backslash (by decide) rfl) fun backslash => ?_
  refine .branch (fun backspace => .escape backspace (by decide) rfl) fun _ => ?_
  refine .branch (fun feed => .escape feed (by decide) rfl) fun _ => ?_
  refine .branch (fun newline => .escape newline (by decide) rfl) fun _ => ?_
  refine .branch (fun carriage => .escape carriage (by decide) rfl) fun _ => ?_
  refine .branch (fun tab => .escape tab (by decide) rfl) fun _ => ?_
  refine .branch (fun markup => ?_) fun markup => .branch (fun separator => ?_) fun _ rest => ?_
  · have small : c.toNat < 256 := by
      simp only [Bool.or_eq_true, decide_eq_true_eq, beq_iff_eq] at markup
      rcases markup with ((control | rfl) | rfl) | rfl
      · omega
      all_goals decide
    exact .unit (by omega) (codeUnit_hexRunes small)
  · have line : c.toNat = 0x2028 ∨ c.toNat = 0x2029 := by simpa using separator
    exact .unit (by omega) (codeUnit_separator line)
  · simp only [Bool.or_eq_true, decide_eq_true_eq, not_or] at markup
    exact ⟨.inr c, .inl rfl, stringUnits_plain rest (by simpa using quote) (by simpa using backslash) markup.1.1.1⟩

theorem joinUnits_unit {unit : Nat} (low : unit < 0xD800) (units : List (Nat ⊕ Char)) :
    joinUnits (.inl unit :: units) = Char.ofNat unit :: joinUnits units := by
  have notHigh : isHighSurrogate unit = false := by simp [isHighSurrogate, low]
  have notLow : isLowSurrogate unit = false := by
    have : ¬ 0xDC00 ≤ unit := by omega
    simp [isLowSurrogate, this]
  cases units with
  | nil => simp [joinUnits, notHigh, notLow]
  | cons next rest => cases next <;> simp [joinUnits, notHigh, notLow]

theorem parseString_marshal (runes rest : List Char) :
    parseString (runes.flatMap marshalRune ++ '"' :: rest) = some (String.ofList runes, rest) := by
  have units : ∃ units, stringUnits (runes.flatMap marshalRune ++ '"' :: rest) = some (units, rest) ∧
      joinUnits units = runes := by
    induction runes with
    | nil => exact ⟨[], rfl, rfl⟩
    | cons c runes ih =>
      obtain ⟨units, read, joined⟩ := ih
      obtain ⟨unit, same, first⟩ := readsBack_marshalRune c (runes.flatMap marshalRune ++ '"' :: rest)
      refine ⟨unit :: units, ?_, ?_⟩
      · rw [List.flatMap_cons, List.append_assoc, first, read]
        rfl
      · rcases same with rfl | ⟨rfl, low⟩
        · rw [joinUnits, joined]
        · rw [joinUnits_unit low, joined, Char.ofNat_toNat]
  obtain ⟨units, read, joined⟩ := units
  rw [parseString, read, Option.map_some]
  dsimp only
  rw [joined]

theorem parseValue_number (starts : first = '-' ∨ isDigit first = true) (fuel depth : Nat) (tail : List Char) :
    parseValue (fuel + 1) depth (first :: tail) = parseNumber (first :: tail) := by
  have other (c : Char) (letter : c ≠ '-' ∧ isDigit c = false) : first ≠ c := by
    rintro rfl
    rcases starts with minus | digit
    · exact letter.1 minus
    · rw [letter.2] at digit
      cases digit
  have n := other 'n' (by decide)
  have t := other 't' (by decide)
  have f := other 'f' (by decide)
  have quote := other '"' (by decide)
  have bracket := other '[' (by decide)
  have brace := other '\x7b' (by decide)
  rw [parseValue]
  all_goals simp_all

theorem print_head (printable : json.Printable) :
    ∃ first tail, print json = first :: tail ∧ isBlank first = false ∧ first ≠ ']' := by
  cases json with
  | null => exact ⟨_, _, by rw [print], by decide, by decide⟩
  | bool value => cases value <;> exact ⟨_, _, by rw [print], by decide, by decide⟩
  | number literal =>
    have text : NumberText literal.toList := printable
    obtain ⟨first, tail, runes, starts⟩ := text.starts
    refine ⟨first, tail, by rw [print, runes], ?_⟩
    rcases starts with rfl | digit
    · decide
    · constructor
      · by_contra blank
        simp only [isBlank, Bool.not_eq_false, Bool.or_eq_true, beq_iff_eq] at blank
        rcases blank with ((rfl | rfl) | rfl) | rfl <;> cases digit
      · rintro rfl
        cases digit
  | string value => exact ⟨_, _, by rw [print], by decide, by decide⟩
  | array items => exact ⟨_, _, by rw [print], by decide, by decide⟩
  | object members => exact ⟨_, _, by rw [print], by decide, by decide⟩

theorem skipBlanks_of_not_blank (tail : List Char) (plain : isBlank first = false) :
    skipBlanks (first :: tail) = first :: tail := by
  simp [skipBlanks, plain]

theorem skipBlanks_print (printable : json.Printable) (rest : List Char) :
    skipBlanks (print json ++ rest) = print json ++ rest := by
  obtain ⟨first, tail, printed, plain, -⟩ := print_head printable
  rw [printed, List.cons_append]
  exact skipBlanks_of_not_blank _ plain

theorem printItems_head (nonempty : items ≠ []) (printable : PrintableItems items) :
    ∃ first tail, printItems items = first :: tail ∧ isBlank first = false ∧ first ≠ ']' := by
  match items, printable with
  | [item], printable =>
    rw [printItems]
    exact print_head printable.1
  | item :: next :: rest, printable =>
    obtain ⟨first, tail, printed, plain, other⟩ := print_head printable.1
    exact ⟨first, _, by rw [printItems, printed, List.cons_append], plain, other⟩

theorem printMembers_head (nonempty : members ≠ []) : ∃ tail, printMembers members = '"' :: tail := by
  match members with
  | [(key, value)] => exact ⟨_, by rw [printMembers, List.cons_append]⟩
  | (key, value) :: next :: rest => exact ⟨_, by rw [printMembers, List.cons_append, List.cons_append]⟩

theorem parseValue_items {first : Char} (fuel depth : Nat) (tail : List Char) (plain : isBlank first = false)
    (other : first ≠ ']') :
    parseValue (fuel + 1) (depth + 1) ('[' :: first :: tail) =
      (parseItems fuel depth (first :: tail)).map fun read => (.array read.1, read.2) := by
  rw [parseValue, if_neg (Nat.succ_ne_zero depth), skipBlanks_of_not_blank tail plain]
  split
  · simp_all
  · rfl

theorem parseValue_members (fuel depth : Nat) (tail : List Char) :
    parseValue (fuel + 1) (depth + 1) ('\x7b' :: '"' :: tail) =
      (parseMembers fuel depth ('"' :: tail)).map fun read => (.object read.1, read.2) := by
  have plain : isBlank '"' = false := by decide
  rw [parseValue, if_neg (Nat.succ_ne_zero depth), skipBlanks_of_not_blank tail plain]
  rfl

theorem parseItems_last {fuel depth : Nat} {runes rest : List Char} {item : Json}
    (read : parseValue fuel depth runes = some (item, ']' :: rest)) :
    parseItems (fuel + 1) depth runes = some ([item], rest) := by
  rw [parseItems, read]
  rfl

theorem parseItems_next {item : Json} (read : parseValue fuel depth runes = some (item, ',' :: more))
    (reads : parseItems fuel depth (skipBlanks more) = some (items, rest)) :
    parseItems (fuel + 1) depth runes = some (item :: items, rest) := by
  have comma : skipBlanks (',' :: more) = ',' :: more := skipBlanks_of_not_blank more (by decide)
  rw [parseItems, read]
  simp [comma, reads]

theorem parseMembers_last (named : parseString runes = some (key, ':' :: more))
    (read : parseValue fuel depth (skipBlanks more) = some (value, '\x7d' :: rest)) :
    parseMembers (fuel + 1) depth ('"' :: runes) = some ([(key, value)], rest) := by
  have colon : skipBlanks (':' :: more) = ':' :: more := skipBlanks_of_not_blank more (by decide)
  have brace : skipBlanks ('\x7d' :: rest) = '\x7d' :: rest := skipBlanks_of_not_blank rest (by decide)
  rw [parseMembers, named]
  simp [colon, read, brace]

theorem parseMembers_next {others : List Char} (named : parseString runes = some (key, ':' :: more))
    (read : parseValue fuel depth (skipBlanks more) = some (value, ',' :: others))
    (reads : parseMembers fuel depth (skipBlanks others) = some (members, rest)) :
    parseMembers (fuel + 1) depth ('"' :: runes) = some ((key, value) :: members, rest) := by
  have colon : skipBlanks (':' :: more) = ':' :: more := skipBlanks_of_not_blank more (by decide)
  have comma : skipBlanks (',' :: others) = ',' :: others := skipBlanks_of_not_blank others (by decide)
  rw [parseMembers, named]
  simp [colon, read, comma, reads]

-- Twice the length of the text is fuel enough: every call but one per list reads a rune of its own.
mutual

theorem parseValue_print : (json : Json) → json.Printable → ∀ {fuel depth : Nat} {rest : List Char},
    2 * (print json).length ≤ fuel → json.nesting ≤ depth → Ends rest →
      parseValue fuel depth (print json ++ rest) = some (json, rest)
  | .null, _, fuel, depth, rest, enough, _, _ => by
    obtain ⟨fuel, rfl⟩ : ∃ less, fuel = less + 1 := ⟨fuel - 1, by simp [print] at enough; omega⟩
    simp [print, parseValue]
  | .bool true, _, fuel, depth, rest, enough, _, _ => by
    obtain ⟨fuel, rfl⟩ : ∃ less, fuel = less + 1 := ⟨fuel - 1, by simp [print] at enough; omega⟩
    simp [print, parseValue]
  | .bool false, _, fuel, depth, rest, enough, _, _ => by
    obtain ⟨fuel, rfl⟩ : ∃ less, fuel = less + 1 := ⟨fuel - 1, by simp [print] at enough; omega⟩
    simp [print, parseValue]
  | .number literal, printable, fuel, depth, rest, enough, _, ends => by
    have text : NumberText literal.toList := printable
    obtain ⟨first, tail, runes, starts⟩ := text.starts
    have read := text.reads rest ends
    rw [print] at enough ⊢
    rw [runes] at enough read ⊢
    obtain ⟨fuel, rfl⟩ : ∃ less, fuel = less + 1 := ⟨fuel - 1, by simp at enough; omega⟩
    rw [List.cons_append] at read ⊢
    rw [parseValue_number starts, read, ← runes, String.ofList_toList]
  | .string value, _, fuel, depth, rest, enough, _, _ => by
    obtain ⟨fuel, rfl⟩ : ∃ less, fuel = less + 1 := ⟨fuel - 1, by simp [print] at enough; omega⟩
    have read := parseString_marshal value.toList rest
    rw [print, List.cons_append, List.append_assoc, List.singleton_append, parseValue, read]
    simp
  | .array [], _, fuel, depth, rest, enough, nested, _ => by
    obtain ⟨fuel, rfl⟩ : ∃ less, fuel = less + 1 := ⟨fuel - 1, by simp [print] at enough; omega⟩
    have opened : depth ≠ 0 := by simp [nesting] at nested; omega
    simp [print, printItems, parseValue, opened, skipBlanks, isBlank]
  | .array (item :: items), printable, fuel, depth, rest, enough, nested, _ => by
    have length : (print (.array (item :: items))).length = (printItems (item :: items)).length + 2 := by simp [print]
    obtain ⟨first, tail, printed, plain, other⟩ := printItems_head (List.cons_ne_nil item items) printable
    obtain ⟨fuel, rfl⟩ : ∃ less, fuel = less + 1 := ⟨fuel - 1, by omega⟩
    obtain ⟨depth, rfl⟩ : ∃ less, depth = less + 1 := ⟨depth - 1, by simp [nesting] at nested; omega⟩
    have read : parseItems fuel depth (printItems (item :: items) ++ ']' :: rest) = some (item :: items, rest) :=
      parseItems_print (item :: items) (List.cons_ne_nil item items) printable (by omega)
        (by simpa [nesting] using nested)
    rw [printed, List.cons_append] at read
    rw [print, printed, List.cons_append, List.append_assoc, List.cons_append, List.singleton_append,
      parseValue_items fuel depth _ plain other, read, Option.map_some]
  | .object [], _, fuel, depth, rest, enough, nested, _ => by
    obtain ⟨fuel, rfl⟩ : ∃ less, fuel = less + 1 := ⟨fuel - 1, by simp [print] at enough; omega⟩
    have opened : depth ≠ 0 := by simp [nesting] at nested; omega
    simp [print, printMembers, parseValue, opened, skipBlanks, isBlank]
  | .object (member :: members), printable, fuel, depth, rest, enough, nested, _ => by
    have length : (print (.object (member :: members))).length = (printMembers (member :: members)).length + 2 := by
      simp [print]
    obtain ⟨tail, printed⟩ := printMembers_head (List.cons_ne_nil member members)
    obtain ⟨fuel, rfl⟩ : ∃ less, fuel = less + 1 := ⟨fuel - 1, by omega⟩
    obtain ⟨depth, rfl⟩ : ∃ less, depth = less + 1 := ⟨depth - 1, by simp [nesting] at nested; omega⟩
    have read : parseMembers fuel depth (printMembers (member :: members) ++ '\x7d' :: rest) =
        some (member :: members, rest) :=
      parseMembers_print (member :: members) (List.cons_ne_nil member members) printable (by omega)
        (by simpa [nesting] using nested)
    rw [printed, List.cons_append] at read
    rw [print, printed, List.cons_append, List.append_assoc, List.cons_append, List.singleton_append,
      parseValue_members, read, Option.map_some]

theorem parseItems_print : (items : List Json) → items ≠ [] → PrintableItems items →
    ∀ {fuel depth : Nat} {rest : List Char}, 2 * (printItems items).length + 1 ≤ fuel → nestingItems items ≤ depth →
      parseItems fuel depth (printItems items ++ ']' :: rest) = some (items, rest)
  | [], nonempty, _, _, _, _, _, _ => absurd rfl nonempty
  | [item], _, printable, fuel, depth, rest, enough, nested => by
    obtain ⟨fuel, rfl⟩ : ∃ less, fuel = less + 1 := ⟨fuel - 1, by omega⟩
    rw [printItems] at enough ⊢
    exact parseItems_last (parseValue_print item printable.1 (by omega) (le_of_max_le_left nested) (.bracket rest))
  | item :: next :: others, _, printable, fuel, depth, rest, enough, nested => by
    obtain ⟨fuel, rfl⟩ : ∃ less, fuel = less + 1 := ⟨fuel - 1, by omega⟩
    rw [printItems] at enough ⊢
    rw [List.length_append, List.length_cons] at enough
    obtain ⟨first, tail, printed, plain, -⟩ := printItems_head (List.cons_ne_nil next others) printable.2
    have reads : parseItems fuel depth (printItems (next :: others) ++ ']' :: rest) = some (next :: others, rest) :=
      parseItems_print (next :: others) (List.cons_ne_nil next others) printable.2 (by omega)
        (le_of_max_le_right nested)
    rw [List.append_assoc, List.cons_append]
    refine parseItems_next (parseValue_print item printable.1 (by omega) (le_of_max_le_left nested) (.comma _)) ?_
    rw [printed, List.cons_append] at reads ⊢
    rw [skipBlanks_of_not_blank _ plain, reads]

theorem parseMembers_print : (members : List (String × Json)) → members ≠ [] → PrintableMembers members →
    ∀ {fuel depth : Nat} {rest : List Char}, 2 * (printMembers members).length + 1 ≤ fuel →
      nestingMembers members ≤ depth →
        parseMembers fuel depth (printMembers members ++ '\x7d' :: rest) = some (members, rest)
  | [], nonempty, _, _, _, _, _, _ => absurd rfl nonempty
  | [(key, value)], _, printable, fuel, depth, rest, enough, nested => by
    obtain ⟨fuel, rfl⟩ : ∃ less, fuel = less + 1 := ⟨fuel - 1, by omega⟩
    rw [printMembers] at enough ⊢
    simp only [List.length_append, List.length_cons] at enough
    have named := parseString_marshal key.toList (':' :: (print value ++ '\x7d' :: rest))
    rw [String.ofList_toList] at named
    have read : parseValue fuel depth (print value ++ '\x7d' :: rest) = some (value, '\x7d' :: rest) :=
      parseValue_print value printable.1 (by omega) (le_of_max_le_left nested) (.brace rest)
    rw [← skipBlanks_print printable.1] at read
    simpa using parseMembers_last named read
  | (key, value) :: next :: others, _, printable, fuel, depth, rest, enough, nested => by
    obtain ⟨fuel, rfl⟩ : ∃ less, fuel = less + 1 := ⟨fuel - 1, by omega⟩
    rw [printMembers] at enough ⊢
    simp only [List.length_append, List.length_cons] at enough
    obtain ⟨tail, printed⟩ := printMembers_head (List.cons_ne_nil next others)
    have named := parseString_marshal key.toList
      (':' :: (print value ++ ',' :: (printMembers (next :: others) ++ '\x7d' :: rest)))
    rw [String.ofList_toList] at named
    have read : parseValue fuel depth (print value ++ ',' :: (printMembers (next :: others) ++ '\x7d' :: rest)) =
        some (value, ',' :: (printMembers (next :: others) ++ '\x7d' :: rest)) :=
      parseValue_print value printable.1 (by omega) (le_of_max_le_left nested) (.comma _)
    rw [← skipBlanks_print printable.1] at read
    have reads : parseMembers fuel depth (printMembers (next :: others) ++ '\x7d' :: rest) =
        some (next :: others, rest) :=
      parseMembers_print (next :: others) (List.cons_ne_nil next others) printable.2 (by omega)
        (le_of_max_le_right nested)
    have quoted : skipBlanks (printMembers (next :: others) ++ '\x7d' :: rest) =
        printMembers (next :: others) ++ '\x7d' :: rest := by
      rw [printed, List.cons_append]
      exact skipBlanks_of_not_blank _ (by decide)
    rw [← quoted] at reads
    simpa using parseMembers_next named read reads

end

theorem parse_print (printable : json.Printable) (nested : json.nesting ≤ maxNestingDepth) :
    parse (String.ofList (print json)) = some json := by
  have read : parseValue (2 * (print json).length + 2) maxNestingDepth (print json ++ []) = some (json, []) :=
    parseValue_print json printable (Nat.le_add_right _ _) nested .nothing
  have start := skipBlanks_print printable []
  rw [List.append_nil] at read start
  simp only [parse, String.toList_ofList, start]
  rw [read]
  rfl

theorem parseNumber_literal (read : parseNumber runes = some (json, rest)) : ∃ literal, json = .number literal := by
  simp only [parseNumber, Option.bind_eq_bind, Option.bind_eq_some_iff, Option.pure_def, Option.some.injEq,
    Prod.mk.injEq] at read
  obtain ⟨_, -, _, -, _, -, rfl, -⟩ := read
  exact ⟨_, rfl⟩

-- An array or object is opened with the depth that is left, so no value is nested deeper than the parser goes.
mutual

theorem nesting_parseValue : (fuel : Nat) → ∀ {depth : Nat} {runes rest : List Char} {json : Json},
    parseValue fuel depth runes = some (json, rest) → json.nesting ≤ depth
  | 0, _, _, _, _, read => by cases read
  | fuel + 1, depth, runes, rest, json, read => by
    rw [parseValue.eq_def] at read
    dsimp only at read
    split at read
    · cases read
      exact Nat.zero_le _
    · cases read
      exact Nat.zero_le _
    · cases read
      exact Nat.zero_le _
    · obtain ⟨_, -, same⟩ := Option.map_eq_some_iff.mp read
      cases same
      exact Nat.zero_le _
    · split_ifs at read with closed
      split at read
      · cases read
        rw [nesting, nestingItems]
        omega
      · obtain ⟨⟨items, left⟩, inner, same⟩ := Option.map_eq_some_iff.mp read
        cases same
        have within := nesting_parseItems fuel inner
        rw [nesting]
        dsimp only
        omega
    · split_ifs at read with closed
      split at read
      · cases read
        rw [nesting, nestingMembers]
        omega
      · obtain ⟨⟨members, left⟩, inner, same⟩ := Option.map_eq_some_iff.mp read
        cases same
        have within := nesting_parseMembers fuel inner
        rw [nesting]
        dsimp only
        omega
    · obtain ⟨literal, rfl⟩ := parseNumber_literal read
      exact Nat.zero_le _

theorem nesting_parseItems : (fuel : Nat) → ∀ {depth : Nat} {runes rest : List Char} {items : List Json},
    parseItems fuel depth runes = some (items, rest) → nestingItems items ≤ depth
  | 0, _, _, _, _, read => by cases read
  | fuel + 1, depth, runes, rest, items, read => by
    rw [parseItems] at read
    obtain ⟨⟨item, left⟩, first, read⟩ := Option.bind_eq_some_iff.mp read
    have here := nesting_parseValue fuel first
    dsimp only at read
    split at read
    · obtain ⟨⟨others, last⟩, later, read⟩ := Option.bind_eq_some_iff.mp read
      cases read
      exact max_le here (nesting_parseItems fuel later)
    · cases read
      exact max_le here (Nat.zero_le _)
    · cases read

theorem nesting_parseMembers : (fuel : Nat) → ∀ {depth : Nat} {runes rest : List Char} {members : List (String × Json)},
    parseMembers fuel depth runes = some (members, rest) → nestingMembers members ≤ depth
  | 0, _, _, _, _, read => by cases read
  | fuel + 1, depth, runes, rest, members, read => by
    rw [parseMembers.eq_def] at read
    dsimp only at read
    split at read
    · obtain ⟨⟨key, colon⟩, -, read⟩ := Option.bind_eq_some_iff.mp read
      dsimp only at read
      split at read
      · obtain ⟨⟨value, left⟩, first, read⟩ := Option.bind_eq_some_iff.mp read
        have here := nesting_parseValue fuel first
        dsimp only at read
        split at read
        · obtain ⟨⟨others, last⟩, later, read⟩ := Option.bind_eq_some_iff.mp read
          cases read
          exact max_le here (nesting_parseMembers fuel later)
        · cases read
          exact max_le here (Nat.zero_le _)
        · cases read
      · cases read
    · cases read

end

theorem nesting_parse {text : String} (read : parse text = some json) : json.nesting ≤ maxNestingDepth := by
  obtain ⟨⟨value, rest⟩, first, kept⟩ := Option.bind_eq_some_iff.mp read
  dsimp only at kept
  split_ifs at kept
  cases kept
  exact nesting_parseValue _ first

end McpGateway.Shared.Json
