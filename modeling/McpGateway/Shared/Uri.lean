import Mathlib.Data.List.DropRight
import McpGateway.Shared.IpAddress

-- The authority of a URI as RFC 3986 reads it.
namespace McpGateway.Shared.Uri

def isSubDelim (c : Char) : Bool :=
  "!$&'()*+,;=".toList.contains c

def isUnreserved (c : Char) : Bool :=
  c.isAlphanum || "-._~".toList.contains c

def isRegNameChar (c : Char) : Bool :=
  isUnreserved c || isSubDelim c

def isUserinfoChar (c : Char) : Bool :=
  isRegNameChar c || c == ':'

def isHexDigit (c : Char) : Bool :=
  isHexUnit c.toNat

def octet (high low : Char) : Char :=
  Char.ofNat (16 * hexValue high.toNat + hexValue low.toNat)

def decode (allowed : Char → Bool) : List Char → Option (List Char)
  | [] => some []
  | c :: rest =>
    if c = '%' then
      match rest with
      | high :: low :: more =>
        if isHexDigit high && isHexDigit low then (decode allowed more).map (octet high low :: ·) else none
      | _ => none
    else if allowed c then (decode allowed rest).map (c :: ·)
    else none

def isIPvFuture (s : List Char) : Bool :=
  let version := (s.drop 1).takeWhile isHexDigit
  let address := (s.drop 1).dropWhile isHexDigit
  (s.head? == some 'v' || s.head? == some 'V') && version ≠ [] && address.head? == some '.' &&
    address.drop 1 ≠ [] && (address.drop 1).all isUserinfoChar

def isIPv6Address (s : List Char) : Bool :=
  match parseAddr (s.map Char.toNat) with
  | some (.v6 _ []) => true
  | _ => false

def isIpLiteral (s : List Char) : Bool :=
  isIPv6Address s || isIPvFuture s

-- An IPv4 address is read as the registered name it also is.
def parseHost (s : List Char) : Option (List Char) :=
  if s.head? = some '[' then
    if s.getLast? = some ']' ∧ isIpLiteral (s.drop 1).dropLast then some (s.drop 1).dropLast else none
  else decode isRegNameChar s

def parsePort : List Char → Option (Option (List Char))
  | [] => some none
  | c :: digits => if c = ':' ∧ digits.all Char.isDigit then some (some digits) else none

structure Authority where
  userinfo : Option (List Char)
  host : List Char
  port : Option (List Char)

def splitUserinfo (s : List Char) : Option (List Char) × List Char :=
  if '@' ∈ s then (some (s.takeWhile (· ≠ '@')), (s.dropWhile (· ≠ '@')).drop 1) else (none, s)

-- An address in brackets ends at the last bracket, a name at the first colon.
def splitPort (s : List Char) : List Char × List Char :=
  if s.head? = some '[' then (s.rdropWhile (· ≠ ']'), s.rtakeWhile (· ≠ ']'))
  else (s.takeWhile (· ≠ ':'), s.dropWhile (· ≠ ':'))

def parseAuthority (s : List Char) : Option Authority :=
  let userinfo := (splitUserinfo s).1
  let hostPort := splitPort (splitUserinfo s).2
  if userinfo.any fun text => decode isUserinfoChar text = none then none
  else
    match parseHost hostPort.1, parsePort hostPort.2 with
    | some host, some port => some ⟨userinfo, host, port⟩
    | _, _ => none

def isSchemeChar (c : Char) : Bool :=
  c.isAlphanum || "+-.".toList.contains c

def isDelimiter (c : Char) : Bool :=
  "/?#".toList.contains c

/-- The authority of a URI that has one: what stands between the two slashes and the next delimiter. -/
def authority (uri : List Char) : Option Authority :=
  let scheme := uri.takeWhile isSchemeChar
  let rest := uri.dropWhile isSchemeChar
  if scheme.head?.any Char.isAlpha ∧ "://".toList.isPrefixOf rest then
    parseAuthority ((rest.drop 3).takeWhile fun c => !isDelimiter c)
  else none

inductive Decoded (allowed : Char → Bool) : List Char → List Char → Prop
  | nil : Decoded allowed [] []
  | escape {high low : Char} {rest out : List Char} (hex : isHexDigit low = true) (more : Decoded allowed rest out) :
    Decoded allowed ('%' :: high :: low :: rest) (octet high low :: out)
  | plain {c : Char} {rest out : List Char} (unescaped : c ≠ '%') (mem : allowed c = true)
    (more : Decoded allowed rest out) : Decoded allowed (c :: rest) (c :: out)

theorem Decoded.of_decode {allowed : Char → Bool} {s out : List Char} (decoded : decode allowed s = some out) :
    Decoded allowed s out := by
  fun_induction decode allowed s generalizing out with
  | case1 =>
    cases decoded
    exact .nil
  | case2 high low more hex ih =>
    obtain ⟨rest, read, rfl⟩ := Option.map_eq_some_iff.mp decoded
    exact .escape (Bool.and_eq_true_iff.mp hex).2 (ih read)
  | case5 c rest unescaped mem ih =>
    obtain ⟨more, read, rfl⟩ := Option.map_eq_some_iff.mp decoded
    exact .plain unescaped mem (ih read)
  | _ => cases decoded

namespace Decoded

variable {allowed : Char → Bool} {s out : List Char}

theorem length_le (decoded : Decoded allowed s out) : out.length ≤ s.length := by
  induction decoded with
  | nil => rfl
  | escape _ _ ih => simp; omega
  | plain _ _ _ ih => simpa using ih

theorem eq_of_length (decoded : Decoded allowed s out) (same : out.length = s.length) :
    out = s ∧ s.all allowed = true := by
  induction decoded with
  | nil => exact ⟨rfl, rfl⟩
  | escape _ more ih =>
    have shorter := more.length_le
    simp at same
    omega
  | plain _ mem _ ih =>
    obtain ⟨rfl, all⟩ := ih (by simpa using same)
    simp [mem, all]

theorem getLast? {mark : Char} (decoded : Decoded allowed s out) (other : isHexDigit mark = false)
    (last : s.getLast? = some mark) : out.getLast? = some mark := by
  induction decoded with
  | nil => cases last
  | escape hex more ih =>
    cases more with
    | nil =>
      simp at last
      simp [last, other] at hex
    | _ => simp_all [List.getLast?_cons]
  | plain _ _ more ih =>
    cases more with
    | nil => exact last
    | _ => simp_all [List.getLast?_cons]

end Decoded

theorem decode_of_all {allowed : Char → Bool} (percent : allowed '%' = false) {s : List Char}
    (all : s.all allowed = true) : decode allowed s = some s := by
  induction s with
  | nil => rfl
  | cons c rest ih =>
    rw [List.all_cons, Bool.and_eq_true] at all
    have unescaped : c ≠ '%' := by
      rintro rfl
      simp [percent] at all
    unfold decode
    simp [unescaped, all.1, ih all.2]

theorem parseHost_some {s host : List Char} (parsed : parseHost s = some host) :
    (s = '[' :: host ++ [']'] ∧ isIpLiteral host = true) ∨ (s.head? ≠ some '[' ∧ Decoded isRegNameChar s host) := by
  unfold parseHost at parsed
  split_ifs at parsed with opens closes
  · cases parsed
    obtain ⟨last, literal⟩ := closes
    obtain ⟨rest, rfl⟩ := List.head?_eq_some_iff.mp opens
    obtain ⟨front, same⟩ := List.getLast?_eq_some_iff.mp last
    cases front with
    | nil => cases same
    | cons first inner =>
      obtain ⟨rfl, rfl⟩ := List.cons.inj same
      simp only [List.drop_one, List.tail_cons, List.append_eq, List.dropLast_concat] at literal ⊢
      exact .inl ⟨rfl, literal⟩
  · exact .inr ⟨opens, .of_decode parsed⟩

theorem parsePort_some {s : List Char} {port : Option (List Char)} (parsed : parsePort s = some port) :
    (s = [] ∧ port = none) ∨ ∃ digits, s = ':' :: digits ∧ port = some digits := by
  cases s with
  | nil =>
    cases parsed
    exact .inl ⟨rfl, rfl⟩
  | cons c digits =>
    simp only [parsePort] at parsed
    split_ifs at parsed with colon
    cases parsed
    exact .inr ⟨digits, by rw [colon.1], rfl⟩

structure Reading (s : List Char) (parsed : Authority) (lead hostText tail : List Char) : Prop where
  split : s = lead ++ hostText ++ tail
  lead : lead = [] ∨ ∃ userinfo, lead = userinfo ++ ['@'] ∧ userinfo.head? ≠ some '['
  host : parseHost hostText = some parsed.host
  port : parsePort tail = some parsed.port

theorem splitPort_append (s : List Char) : (splitPort s).1 ++ (splitPort s).2 = s := by
  unfold splitPort
  split
  · exact List.rdropWhile_append_rtakeWhile
  · exact List.takeWhile_append_dropWhile

theorem takeWhile_mark {mark : Char} {front : List Char} (absent : mark ∉ front) (rest : List Char) :
    (front ++ mark :: rest).takeWhile (· ≠ mark) = front ∧ (front ++ mark :: rest).dropWhile (· ≠ mark) = mark :: rest := by
  have kept : ∀ c ∈ front, decide (c ≠ mark) = true := fun c mem =>
    decide_eq_true (ne_of_mem_of_not_mem mem absent)
  rw [List.takeWhile_append_of_pos kept, List.dropWhile_append_of_pos kept]
  simp

theorem rdropWhile_mark {mark : Char} {rest : List Char} (absent : mark ∉ rest) (front : List Char) :
    (front ++ mark :: rest).rdropWhile (· ≠ mark) = front ++ [mark] ∧
      (front ++ mark :: rest).rtakeWhile (· ≠ mark) = rest := by
  have reversed : (front ++ mark :: rest).reverse = rest.reverse ++ mark :: front.reverse := by simp
  obtain ⟨before, behind⟩ := takeWhile_mark (fun mem => absent (List.mem_reverse.mp mem)) front.reverse
  rw [List.rdropWhile, List.rtakeWhile, reversed, before, behind]
  simp

theorem splitUserinfo_cases (s : List Char) : ('@' ∉ s ∧ splitUserinfo s = (none, s)) ∨
      ∃ userinfo rest, s = userinfo ++ '@' :: rest ∧ splitUserinfo s = (some userinfo, rest) := by
  unfold splitUserinfo
  by_cases mem : '@' ∈ s
  · obtain ⟨userinfo, rest, rfl, first⟩ := List.eq_append_cons_of_mem mem
    obtain ⟨before, behind⟩ := takeWhile_mark first rest
    exact .inr ⟨userinfo, rest, rfl, by rw [if_pos mem, before, behind]; rfl⟩
  · exact .inl ⟨mem, if_neg mem⟩

theorem reading_of_parse {s : List Char} {parsed : Authority} (read : parseAuthority s = some parsed) :
    ∃ lead hostText tail, Reading s parsed lead hostText tail := by
  unfold parseAuthority at read
  simp only at read
  split_ifs at read with invalid
  split at read
  next host port hostRead portRead =>
    cases read
    obtain ⟨_, none⟩ | ⟨userinfo, rest, split, some⟩ := splitUserinfo_cases s
    · rw [none] at hostRead portRead
      exact ⟨[], _, _, by simp [splitPort_append], .inl rfl, hostRead, portRead⟩
    · rw [some] at hostRead portRead invalid
      have valid : userinfo.head? ≠ Option.some '[' := by
        intro opens
        obtain ⟨more, rfl⟩ := List.head?_eq_some_iff.mp opens
        refine invalid (decide_eq_true ?_)
        unfold decode
        rfl
      exact ⟨userinfo ++ ['@'], _, _, by simp [split, splitPort_append], .inr ⟨userinfo, rfl, valid⟩, hostRead, portRead⟩
  · cases read

section

variable {s : List Char} {parsed : Authority} {lead hostText tail : List Char}

theorem host_length_le (read : parseHost hostText = some parsed.host) : parsed.host.length ≤ hostText.length := by
  obtain ⟨rfl, _⟩ | ⟨_, decoded⟩ := parseHost_some read
  · simp
    omega
  · exact decoded.length_le

theorem Reading.host_shorter (reading : Reading s parsed lead hostText tail) :
    parsed.host.length ≤ s.length ∧ (s.head? = some '[' → parsed.host.length + 2 ≤ s.length) := by
  have split := reading.split
  have bound := host_length_le reading.host
  constructor
  · simp only [split, List.length_append]
    omega
  · intro opens
    obtain rfl | ⟨userinfo, rfl, valid⟩ := reading.lead
    · obtain ⟨rfl, _⟩ | ⟨other, _⟩ := parseHost_some reading.host
      · simp [split]
      · cases hostText with
        | nil =>
          obtain ⟨rfl, _⟩ | ⟨digits, rfl, _⟩ := parsePort_some reading.port <;> simp [split] at opens
        | cons c rest => simp_all
    · cases userinfo <;> simp_all

end

theorem isAlphanum_of_isHexDigit {c : Char} (hex : isHexDigit c = true) : c.isAlphanum = true := by
  simp only [isHexDigit, isHexUnit, isDigitUnit, Bool.or_eq_true, Bool.and_eq_true, decide_eq_true_eq] at hex
  have alphanum : c.isAlphanum = (decide (c.val ≥ 65 ∧ c.val ≤ 90) ||
      (decide (c.val ≥ 97) && decide (c.val ≤ 122)) || (decide (c.val ≥ 48) && decide (c.val ≤ 57))) := rfl
  simp only [alphanum, Bool.or_eq_true, Bool.and_eq_true, decide_eq_true_eq, ge_iff_le, UInt32.le_iff_toNat_le]
  simp only [Char.toNat] at hex
  simp at hex ⊢
  omega

theorem isUserinfoChar_of_isIpLiteral {s : List Char} (literal : isIpLiteral s = true) :
    ∀ c ∈ s, isUserinfoChar c = true := by
  have hex : ∀ c, isHexDigit c = true → isUserinfoChar c = true := fun c digit => by
    simp [isUserinfoChar, isRegNameChar, isUnreserved, isAlphanum_of_isHexDigit digit]
  rw [isIpLiteral, Bool.or_eq_true] at literal
  intro c mem
  obtain address | future := literal
  · unfold isIPv6Address at address
    split at address
    next bytes parsed =>
      have unit := parseAddr_units parsed c.toNat (List.mem_map_of_mem mem)
      simp only [isAddressUnit, Bool.or_eq_true, beq_iff_eq, Char.toNat_inj] at unit
      obtain (digit | rfl) | rfl := unit
      · exact hex c digit
      · rfl
      · rfl
    · cases address
  · cases s with
    | nil => cases future
    | cons version rest =>
      simp only [isIPvFuture, List.head?_cons, List.drop_one, List.tail_cons, Bool.and_eq_true, Bool.or_eq_true,
        beq_iff_eq, Option.some.injEq, List.all_eq_true] at future
      obtain ⟨⟨⟨⟨v, _⟩, dot⟩, _⟩, all⟩ := future
      rw [← List.takeWhile_append_dropWhile (p := isHexDigit) (l := rest), List.mem_cons, List.mem_append] at mem
      obtain ⟨address, same⟩ := List.head?_eq_some_iff.mp dot
      rw [same] at all
      rw [same, List.mem_cons] at mem
      obtain rfl | digit | rfl | inside := mem
      · obtain rfl | rfl := v <;> rfl
      · exact hex c (List.mem_takeWhile_imp digit)
      · rfl
      · exact all c inside

theorem isRegNameChar_ne {c : Char} (allowed : isRegNameChar c = true) : c ≠ '%' ∧ c ≠ '[' ∧ c ≠ ':' := by
  refine ⟨?_, ?_, ?_⟩ <;> rintro rfl <;> cases allowed

theorem isUserinfoChar_ne {c : Char} (allowed : isUserinfoChar c = true) : c ≠ '@' ∧ isDelimiter c = false := by
  refine ⟨?_, ?_⟩
  · rintro rfl
    cases allowed
  · rw [Bool.eq_false_iff]
    intro delimiter
    simp [isDelimiter] at delimiter
    obtain rfl | rfl | rfl := delimiter <;> cases allowed

theorem isUserinfoChar_of_isDigit {c : Char} (digit : c.isDigit = true) : isUserinfoChar c = true := by
  simp [isUserinfoChar, isRegNameChar, isUnreserved, Char.isAlphanum, digit]

theorem splitUserinfo_of_all {s : List Char} (allowed : ∀ c ∈ s, isUserinfoChar c = true ∨ c = '[' ∨ c = ']') :
    splitUserinfo s = (none, s) := by
  refine if_neg fun mem => ?_
  obtain other | other | other := allowed _ mem <;> exact absurd other (by decide)

theorem parseAuthority_regName {name digits : List Char} (allowed : name.all isRegNameChar = true)
    (port : digits.all Char.isDigit = true) :
    parseAuthority (name ++ ':' :: digits) = some ⟨none, name, some digits⟩ := by
  have plain := List.all_eq_true.mp allowed
  have digit := List.all_eq_true.mp port
  have whole : splitUserinfo (name ++ ':' :: digits) = (none, name ++ ':' :: digits) := by
    refine splitUserinfo_of_all fun c mem => .inl ?_
    simp only [List.mem_append, List.mem_cons] at mem
    obtain inside | rfl | inside := mem
    · simp [isUserinfoChar, plain c inside]
    · rfl
    · exact isUserinfoChar_of_isDigit (digit c inside)
  have unbracketed : (name ++ ':' :: digits).head? ≠ some '[' := by
    cases name with
    | nil => simp
    | cons c rest => simpa using (isRegNameChar_ne (plain c List.mem_cons_self)).2.1
  have bare : name.head? ≠ some '[' := by
    cases name with
    | nil => simp
    | cons c rest => simpa using unbracketed
  obtain ⟨before, behind⟩ := takeWhile_mark (fun mem => (isRegNameChar_ne (plain ':' mem)).2.2 rfl) digits
  have split : splitPort (name ++ ':' :: digits) = (name, ':' :: digits) := by
    rw [splitPort, if_neg unbracketed, before, behind]
  have host : parseHost name = some name := by
    rw [parseHost, if_neg bare]
    exact decode_of_all rfl allowed
  unfold parseAuthority
  simp only [whole, split, host]
  simp [parsePort, port]

theorem parseAuthority_ipLiteral {literal digits : List Char} (bracketed : isIpLiteral literal = true)
    (port : digits.all Char.isDigit = true) :
    parseAuthority ('[' :: literal ++ ']' :: ':' :: digits) = some ⟨none, literal, some digits⟩ := by
  have digit := List.all_eq_true.mp port
  have whole : splitUserinfo ('[' :: literal ++ ']' :: ':' :: digits) = (none, '[' :: literal ++ ']' :: ':' :: digits) := by
    refine splitUserinfo_of_all fun c mem => ?_
    simp only [List.cons_append, List.mem_cons, List.mem_append] at mem
    obtain rfl | inside | rfl | rfl | inside := mem
    · exact .inr (.inl rfl)
    · exact .inl (isUserinfoChar_of_isIpLiteral bracketed c inside)
    · exact .inr (.inr rfl)
    · exact .inl rfl
    · exact .inl (isUserinfoChar_of_isDigit (digit c inside))
  have outside : ']' ∉ ':' :: digits := by
    intro mem
    obtain other | inside := List.mem_cons.mp mem
    · exact absurd other (by decide)
    · exact absurd (digit _ inside) (by decide)
  obtain ⟨before, behind⟩ := rdropWhile_mark outside ('[' :: literal)
  have split : splitPort ('[' :: literal ++ ']' :: ':' :: digits) = ('[' :: literal ++ [']'], ':' :: digits) := by
    unfold splitPort
    simp only [before, behind]
    rfl
  have host : parseHost ('[' :: literal ++ [']']) = some literal := by
    have last : ('[' :: literal ++ [']']).getLast? = some ']' := List.getLast?_concat
    unfold parseHost
    rw [last]
    simp [bracketed]
  unfold parseAuthority
  simp only [whole, split, host]
  simp [parsePort, port]

theorem authority_of_scheme {scheme : List Char} (first : scheme.head?.any Char.isAlpha = true)
    (allowed : scheme.all isSchemeChar = true) (rest : List Char) :
    authority (scheme ++ ':' :: '/' :: '/' :: rest) = parseAuthority (rest.takeWhile fun c => !isDelimiter c) := by
  have kept : ∀ c ∈ scheme, isSchemeChar c = true := List.all_eq_true.mp allowed
  have stops : isSchemeChar ':' = false := rfl
  unfold authority
  simp only [List.takeWhile_append_of_pos kept, List.dropWhile_append_of_pos kept]
  simp [stops, first]

example : (authority "http://[::1]:8080/mcp".toList).map (·.host) = some "::1".toList ∧
    authority "http://fd00::5:8080/mcp".toList = none := by decide +kernel

end McpGateway.Shared.Uri
