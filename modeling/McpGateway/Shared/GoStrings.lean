import Mathlib.Data.List.Sort
import Mathlib.Algebra.Order.Ring.Rat
import Mathlib.Data.List.DropRight
import Mathlib.Data.String.Basic
import McpGateway.Shared.Unicode

namespace McpGateway.Shared

def trimRunes (runes : List Char) : List Char :=
  (runes.dropWhile isSpace).rdropWhile isSpace

def trimSpace (s : String) : String :=
  String.ofList (trimRunes s.toList)

def toLower (s : String) : String :=
  String.ofList (s.toList.map lowerRune)

def equalFold (s t : String) : Bool :=
  s.toList.map foldRune == t.toList.map foldRune

def hasPrefix (s start : String) : Bool :=
  start.toList.isPrefixOf s.toList

def trimPrefix (s start : String) : String :=
  if hasPrefix s start then String.ofList (s.toList.drop start.toList.length) else s

def cutRunes (sep : List Char) : List Char → Option (List Char × List Char)
  | [] => if sep = [] then some ([], []) else none
  | head :: tail =>
    if sep.isPrefixOf (head :: tail) then some ([], (head :: tail).drop sep.length)
    else (cutRunes sep tail).map fun (before, after) => (head :: before, after)

def cut (s sep : String) : Option (String × String) :=
  (cutRunes sep.toList s.toList).map fun (before, after) => (String.ofList before, String.ofList after)

def contains (s part : String) : Bool :=
  (cut s part).isSome

def fieldRunes : List Char → List Char → List (List Char)
  | [], word => if word = [] then [] else [word.reverse]
  | head :: tail, word =>
    if isSpace head then
      (if word = [] then [] else [word.reverse]) ++ fieldRunes tail []
    else fieldRunes tail (head :: word)

def fields (s : String) : List String :=
  (fieldRunes s.toList []).map String.ofList

def longestPrefix (target : String) (keys : List String) : String :=
  keys.foldl
    (fun best key => if hasPrefix target key ∧ best.toList.length < key.toList.length then key else best) ""

def sortStrings (names : List String) : List String :=
  names.insertionSort fun left right => left.toList ≤ right.toList

def hexRune (n : Nat) : Char :=
  "0123456789abcdef".toList.getD n '0'

-- The verb %q: exact on ASCII, other runes are taken to be printable.
def quoteRune (c : Char) : List Char :=
  if c == '"' then ['\\', '"']
  else if c == '\\' then ['\\', '\\']
  else if c.toNat == 0x07 then ['\\', 'a']
  else if c.toNat == 0x08 then ['\\', 'b']
  else if c.toNat == 0x0C then ['\\', 'f']
  else if c == '\n' then ['\\', 'n']
  else if c == '\r' then ['\\', 'r']
  else if c == '\t' then ['\\', 't']
  else if c.toNat == 0x0B then ['\\', 'v']
  else if c.toNat < 0x20 || c.toNat == 0x7F then ['\\', 'x', hexRune (c.toNat / 16), hexRune (c.toNat % 16)]
  else [c]

def quote (s : String) : String :=
  String.ofList (['"'] ++ s.toList.flatMap quoteRune ++ ['"'])

theorem trimRunes_eq_self (runes : List Char)
    (first : ∀ c ∈ runes.head?, isSpace c = false) (last : ∀ c ∈ runes.getLast?, isSpace c = false) :
    trimRunes runes = runes := by
  have front : runes.dropWhile isSpace = runes := by
    cases runes with
    | nil => rfl
    | cons head tail => simp [first head rfl]
  rw [trimRunes, front, List.rdropWhile_eq_self_iff]
  intro nonempty
  simp [last _ (List.getLast?_eq_some_getLast nonempty)]

variable {runes before sep : List Char} {c : Char} {start s target left right : String}

theorem trimRunes_head (first : c ∈ (trimRunes runes).head?) : isSpace c = false := by
  -- trimming the right keeps a prefix, so the head is the one that stopped `dropWhile`
  obtain ⟨removed, same⟩ := List.rdropWhile_prefix isSpace (l := runes.dropWhile isSpace)
  have stopped := List.head?_dropWhile_not isSpace runes
  have head : (runes.dropWhile isSpace).head? = some c := by
    rw [← same, List.head?_append]
    change (trimRunes runes).head?.or removed.head? = some c
    rw [Option.mem_def.mp first, Option.some_or]
  simpa [head] using stopped

theorem trimRunes_last (last : c ∈ (trimRunes runes).getLast?) : isSpace c = false := by
  have nonempty : trimRunes runes ≠ [] := by
    intro empty
    simp [empty] at last
  have kept : ¬ isSpace ((trimRunes runes).getLast nonempty) = true :=
    List.rdropWhile_last_not isSpace (runes.dropWhile isSpace) nonempty
  rw [List.getLast?_eq_some_getLast nonempty, Option.mem_some_iff] at last
  rw [← last]
  simpa only [Bool.not_eq_true] using kept

theorem trimRunes_idempotent (runes : List Char) : trimRunes (trimRunes runes) = trimRunes runes :=
  trimRunes_eq_self _ (fun _ => trimRunes_head) (fun _ => trimRunes_last)

theorem trimRunes_eq_nil (blank : trimRunes runes = []) : ∀ c ∈ runes, isSpace c = true := by
  have front : runes.dropWhile isSpace = [] := by
    by_contra nonempty
    have stopped := List.head?_dropWhile_not isSpace runes
    rw [List.head?_eq_some_head nonempty] at stopped
    have all := List.rdropWhile_eq_nil_iff.mp blank _ (List.head_mem nonempty)
    rw [stopped] at all
    cases all
  simpa [List.dropWhile_eq_nil_iff] using front

theorem trimSpace_eq_empty_iff (s : String) : trimSpace s = "" ↔ ∀ c ∈ s.toList, isSpace c = true := by
  have empty : trimSpace s = "" ↔ trimRunes s.toList = [] := by simp [trimSpace, ← String.toList_inj]
  rw [empty]
  constructor
  · exact trimRunes_eq_nil
  · intro blank
    have front : s.toList.dropWhile isSpace = [] := by simpa using blank
    simp [trimRunes, front]

@[simp] theorem trimSpace_trimSpace (s : String) : trimSpace (trimSpace s) = trimSpace s := by
  simp [trimSpace, trimRunes_idempotent]

@[simp] theorem trimSpace_empty : trimSpace "" = "" := by decide

theorem trimSpace_eq_self (s : String) (visible : ∀ c ∈ s.toList, isSpace c = false) : trimSpace s = s := by
  rw [trimSpace, trimRunes_eq_self, String.ofList_toList]
  · exact fun c first => visible c (List.mem_of_mem_head? first)
  · exact fun c last => visible c (List.mem_of_mem_getLast? last)

theorem trimSpace_blanks {blanks : String} (rest : String) (blank : ∀ c ∈ blanks.toList, isSpace c = true) :
    trimSpace (blanks ++ rest) = trimSpace rest := by
  rw [trimSpace, trimSpace, trimRunes, trimRunes, String.toList_append, List.dropWhile_append_of_pos blank]

theorem isSpace_toDigits (n : Nat) : ∀ c ∈ Nat.toDigits 10 n, isSpace c = false := by
  intro c mem
  have digit : c.isDigit = true := Nat.isDigit_of_mem_toDigits (by decide) (by decide) mem
  have range : 48 ≤ c.toNat ∧ c.toNat ≤ 57 := by
    simpa [Char.isDigit, UInt32.le_iff_toNat_le] using digit
  simp [isSpace]
  omega

theorem trimSpace_append {finish : String} (visible : ∀ c ∈ (start ++ finish).toList.head?, isSpace c = false)
    (trimmed : trimSpace finish = finish) (nonempty : finish ≠ "") : trimSpace (start ++ finish) = start ++ finish := by
  rw [trimSpace, trimRunes_eq_self _ visible, String.ofList_toList]
  intro c last
  have tail : finish.toList ≠ [] := by simpa using nonempty
  rw [String.toList_append, List.getLast?_append_of_ne_nil _ tail] at last
  have runes : trimRunes finish.toList = finish.toList := by
    rw [← String.toList_inj] at trimmed
    simpa [trimSpace] using trimmed
  exact trimRunes_last (by rwa [runes])

@[simp] theorem equalFold_refl (s : String) : equalFold s s = true := by
  simp [equalFold]

theorem equalFold_comm (s t : String) : equalFold s t = equalFold t s := by
  simp [equalFold, Bool.beq_comm]

theorem equalFold_trans {t u : String} (left : equalFold s t = true) (right : equalFold t u = true) :
    equalFold s u = true := by
  simp only [equalFold, beq_iff_eq] at left right ⊢
  exact left.trans right

theorem hasPrefix_empty (target : String) : hasPrefix target "" = true := by
  simp [hasPrefix]

theorem eq_of_hasPrefix (first : hasPrefix target left = true) (second : hasPrefix target right = true)
    (length : left.toList.length = right.toList.length) : left = right := by
  have start : left.toList <+: right.toList :=
    List.prefix_of_prefix_length_le (List.isPrefixOf_iff_prefix.mp first) (List.isPrefixOf_iff_prefix.mp second)
      length.le
  exact String.toList_inj.mp (start.eq_of_length length)

theorem hasPrefix_iff (s start : String) : hasPrefix s start = true ↔ ∃ rest, s = start ++ rest := by
  rw [hasPrefix, List.isPrefixOf_iff_prefix]
  constructor
  · intro within
    obtain ⟨rest, same⟩ := within
    exact ⟨String.ofList rest, by simp [← String.toList_inj, same]⟩
  · intro split
    obtain ⟨rest, rfl⟩ := split
    simp

theorem trimSpace_subset (s : String) : (trimSpace s).toList ⊆ s.toList := by
  rw [trimSpace, trimRunes, String.toList_ofList]
  exact List.Subset.trans (List.rdropWhile_prefix _ _).subset (List.dropWhile_suffix _).subset

theorem trimPrefix_suffix (s start : String) : (trimPrefix s start).toList <:+ s.toList := by
  unfold trimPrefix
  split_ifs
  · simpa using List.drop_suffix start.toList.length s.toList
  · exact List.suffix_refl _

theorem trimPrefix_append (start rest : String) : trimPrefix (start ++ rest) start = rest := by
  have here : hasPrefix (start ++ rest) start = true := (hasPrefix_iff _ _).mpr ⟨rest, rfl⟩
  rw [trimPrefix, if_pos here]
  simp

theorem trimSpace_split (visible : ∀ c ∈ s.toList.head?, isSpace c = false) :
    ∃ blanks : String, s = trimSpace s ++ blanks ∧ ∀ c ∈ blanks.toList, isSpace c = true := by
  have front : s.toList.dropWhile isSpace = s.toList := by
    cases runes : s.toList with
    | nil => rfl
    | cons head tail => simp [visible head (by simp [runes])]
  have back : s.toList.reverse.takeWhile isSpace ++ s.toList.reverse.dropWhile isSpace = s.toList.reverse :=
    List.takeWhile_append_dropWhile
  refine ⟨String.ofList (s.toList.reverse.takeWhile isSpace).reverse, ?_, ?_⟩
  · rw [← String.toList_inj]
    simp only [trimSpace, trimRunes, front, List.rdropWhile, String.toList_append, String.toList_ofList]
    rw [← List.reverse_append, back, List.reverse_reverse]
  · intro c mem
    simp only [String.toList_ofList, List.mem_reverse] at mem
    exact List.mem_takeWhile_imp mem

theorem prefix_trimSpace (visible : ∀ c ∈ s.toList.head?, isSpace c = false) (within : hasPrefix s start = true)
    (trimmed : trimSpace start = start) : ∃ rest, trimSpace s = start ++ rest := by
  obtain ⟨blanks, whole, blank⟩ := trimSpace_split visible
  obtain ⟨rest, split⟩ := (hasPrefix_iff s start).mp within
  rw [split, ← String.toList_inj, String.toList_append, String.toList_append, ← split] at whole
  obtain ⟨more, same, _⟩ | ⟨more, same, tail⟩ := List.append_eq_append_iff.mp whole
  · exact ⟨String.ofList more, by rw [← String.toList_inj]; simpa using same⟩
  · -- what reaches beyond the trimmed text would end in a blank
    cases more using List.reverseRecOn with
    | nil => exact ⟨"", by rw [← String.toList_inj]; simpa using same.symm⟩
    | append_singleton before last =>
      have space := blank last (by simp [tail])
      have runes : trimRunes start.toList = start.toList := by
        rw [← String.toList_inj] at trimmed
        simpa [trimSpace] using trimmed
      have final : last ∈ (trimRunes start.toList).getLast? := by
        rw [runes, same]
        simp
      simp [trimRunes_last final] at space

def CutsAt (before sep : List Char) : Prop :=
  ∀ k < before.length, ¬ sep <+: (before ++ sep).drop k

instance (before sep : List Char) : Decidable (CutsAt before sep) :=
  inferInstanceAs (Decidable (∀ k < before.length, _))

theorem cutRunes_append (after : List Char) (nonempty : sep ≠ []) (first : CutsAt before sep) :
    cutRunes sep (before ++ sep ++ after) = some (before, after) := by
  induction before with
  | nil =>
    obtain ⟨head, tail, rfl⟩ := List.exists_cons_of_ne_nil nonempty
    simp [cutRunes]
  | cons head tail ih =>
    have later : CutsAt tail sep := fun k inside => by simpa using first (k + 1) (by simpa using inside)
    have apart : sep.isPrefixOf (head :: tail ++ sep ++ after) = false := by
      rw [Bool.eq_false_iff, ne_eq, List.isPrefixOf_iff_prefix]
      intro within
      have inside : head :: tail ++ sep <+: head :: tail ++ sep ++ after := List.prefix_append _ _
      exact first 0 (by simp) (List.prefix_of_prefix_length_le within inside (by simp; omega))
    simp only [List.cons_append] at apart ⊢
    rw [cutRunes, apart, ih later]
    simp

theorem cut_append {before sep : String} (after : String) (nonempty : sep ≠ "")
    (first : CutsAt before.toList sep.toList) : cut (before ++ sep ++ after) sep = some (before, after) := by
  have runes : sep.toList ≠ [] := by simpa using nonempty
  rw [cut, String.toList_append, String.toList_append, cutRunes_append after.toList runes first]
  simp

theorem cutRunes_some {after : List Char} (split : cutRunes sep runes = some (before, after)) :
    runes = before ++ sep ++ after := by
  induction runes generalizing before with
  | nil =>
    simp only [cutRunes] at split
    split_ifs at split with blank
    cases split
    simp [blank]
  | cons head tail ih =>
    rw [cutRunes] at split
    split_ifs at split with here
    · cases split
      simpa using (List.prefix_iff_eq_append.mp (List.isPrefixOf_iff_prefix.mp here)).symm
    · obtain ⟨⟨rest, last⟩, found, same⟩ := Option.map_eq_some_iff.mp split
      cases same
      simp [ih found]

theorem cut_some {sep before after : String} (split : cut s sep = some (before, after)) :
    s = before ++ sep ++ after := by
  obtain ⟨⟨first, last⟩, found, same⟩ := Option.map_eq_some_iff.mp split
  cases same
  rw [← String.toList_inj]
  simpa using cutRunes_some found

theorem cutsAt_singleton {mark : Char} (absent : mark ∉ before) : CutsAt before [mark] := by
  induction before with
  | nil => simp [CutsAt]
  | cons head tail ih =>
    simp only [List.mem_cons, not_or] at absent
    intro k inside
    cases k with
    | zero => simp [absent.1]
    | succ k => simpa using ih absent.2 k (by simpa using inside)

structure LongestPrefix (target : String) (keys : List String) (found : String) : Prop where
  known : found = "" ∨ found ∈ keys
  matching : hasPrefix target found = true
  longest : ∀ key ∈ keys, hasPrefix target key = true → key.toList.length ≤ found.toList.length

theorem longestPrefix_correct (target : String) (keys : List String) :
    LongestPrefix target keys (longestPrefix target keys) := by
  unfold longestPrefix
  induction keys using List.reverseRecOn with
  | nil => exact ⟨.inl rfl, hasPrefix_empty target, by simp⟩
  | append_singleton keys key ih =>
    rw [List.foldl_append, List.foldl_cons, List.foldl_nil]
    split_ifs with better
    · refine ⟨.inr (by simp), better.1, ?_⟩
      intro other mem matching
      rcases List.mem_append.mp mem with prior | single
      · exact (ih.longest other prior matching).trans better.2.le
      · rw [List.mem_singleton.mp single]
    · rw [not_and, not_lt] at better
      refine ⟨ih.known.imp_right (List.mem_append_left _), ih.matching, ?_⟩
      intro other mem matching
      rcases List.mem_append.mp mem with prior | single
      · exact ih.longest other prior matching
      · rw [List.mem_singleton.mp single] at matching ⊢
        exact better matching

theorem LongestPrefix.unique {keys others : List String} (first : LongestPrefix target keys left)
    (second : LongestPrefix target others right) (same : ∀ key, key ∈ keys ↔ key ∈ others) : left = right := by
  have bounded {keys others : List String} {left right : String} (first : LongestPrefix target keys left)
      (second : LongestPrefix target others right) (within : ∀ key ∈ keys, key ∈ others) :
      left.toList.length ≤ right.toList.length := by
    rcases first.known with rfl | mem
    · simp
    · exact second.longest left (within left mem) first.matching
  exact eq_of_hasPrefix first.matching second.matching
    (le_antisymm (bounded first second fun key => (same key).mp) (bounded second first fun key => (same key).mpr))

theorem sortStrings_perm {left right : List String} (same : left.Perm right) : sortStrings left = sortStrings right := by
  have total : Std.Total fun left right : String => left.toList ≤ right.toList := ⟨fun _ _ => le_total _ _⟩
  have trans : IsTrans String fun left right => left.toList ≤ right.toList := ⟨fun _ _ _ => le_trans⟩
  have sorted (names : List String) := List.pairwise_insertionSort (fun left right : String =>
    left.toList ≤ right.toList) names
  refine List.Perm.eq_of_pairwise (fun left right _ _ before after => ?_) (sorted left) (sorted right) ?_
  · exact String.toList_injective (le_antisymm before after)
  · exact (List.perm_insertionSort _ left).trans (same.trans (List.perm_insertionSort _ right).symm)

end McpGateway.Shared
