import Mathlib.Data.List.TakeWhile

namespace McpGateway.Shared

-- Text is read unit by unit, bytes or runes: every unit from 0x80 on is garbage to these parsers.

def isDigitUnit (c : Nat) : Bool :=
  '0'.toNat ≤ c && c ≤ '9'.toNat

def isHexUnit (c : Nat) : Bool :=
  isDigitUnit c || ('a'.toNat ≤ c && c ≤ 'f'.toNat) || ('A'.toNat ≤ c && c ≤ 'F'.toNat)

def hexValue (c : Nat) : Nat :=
  if c ≤ '9'.toNat then c - '0'.toNat
  else if c ≤ 'F'.toNat then c - 'A'.toNat + 10
  else c - 'a'.toNat + 10

-- netip.Addr: an IPv6 address has 16 bytes, and a zone that is empty for none.
inductive IpAddress where
  | v4 (octets : List Nat)
  | v6 (bytes zone : List Nat)

-- parseIPv4Fields with the fields read so far, the value of the current one and how many digits it has.
def parseIPv4Fields (fields : List Nat) (value digits : Nat) : List Nat → Option (List Nat)
  | [] => if fields.length < 3 then none else some (fields ++ [value])
  | c :: rest =>
    if isDigitUnit c then
      if digits = 1 ∧ value = 0 then none
      else if 255 < value * 10 + (c - '0'.toNat) then none
      else parseIPv4Fields fields (value * 10 + (c - '0'.toNat)) (digits + 1) rest
    else if c = '.'.toNat then
      if digits = 0 ∨ rest = [] then none
      else if fields.length = 3 then none
      else parseIPv4Fields (fields ++ [value]) 0 0 rest
    else none

-- The loop of parseIPv6 over at most `groups` further groups: the bytes read, where the ellipsis is, what is left.
def parseIPv6Groups : Nat → List Nat → Option Nat → List Nat → Option (List Nat × Option Nat × List Nat)
  | 0, bytes, ellipsis, s => some (bytes, ellipsis, s)
  | groups + 1, bytes, ellipsis, s =>
    let digits := s.takeWhile isHexUnit
    let value := digits.foldl (fun value c => value * 16 + hexValue c) 0
    let grown := bytes ++ [value / 256, value % 256]
    if digits = [] ∨ 4 < digits.length then none
    else
      match s.dropWhile isHexUnit with
      | [] => some (grown, ellipsis, [])
      | c :: rest =>
        if c = '.'.toNat then
          if ellipsis = none ∧ bytes.length ≠ 12 ∨ 16 < bytes.length + 4 then none
          else (parseIPv4Fields [] 0 0 s).map fun octets => (bytes ++ octets, ellipsis, [])
        else if c ≠ ':'.toNat then none
        else
          match rest with
          | [] => none
          | next :: more =>
            if next ≠ ':'.toNat then parseIPv6Groups groups grown ellipsis (next :: more)
            else if ellipsis ≠ none then none
            else if more = [] then some (grown, some grown.length, [])
            else parseIPv6Groups groups grown (some grown.length) more

def expandEllipsis (bytes : List Nat) (ellipsis : Option Nat) : Option (List Nat) :=
  if bytes.length < 16 then
    ellipsis.map fun place => bytes.take place ++ List.replicate (16 - bytes.length) 0 ++ bytes.drop place
  else if ellipsis = none then some bytes
  else none

def parseIPv6 (text : List Nat) : Option IpAddress :=
  let s := text.takeWhile (· ≠ '%'.toNat)
  let zone := (text.dropWhile (· ≠ '%'.toNat)).drop 1
  if text.contains '%'.toNat ∧ zone = [] then none
  else
    let (ellipsis, rest) :=
      if s.take 2 = [':'.toNat, ':'.toNat] then (some 0, s.drop 2) else (none, s)
    if ellipsis = some 0 ∧ rest = [] then some (.v6 (List.replicate 16 0) zone)
    else
      match parseIPv6Groups 8 [] ellipsis rest with
      | some (bytes, ellipsis, []) => (expandEllipsis bytes ellipsis).map (.v6 · zone)
      | _ => none

def parseAddr (text : List Nat) : Option IpAddress :=
  match text.find? fun c => c = '.'.toNat ∨ c = ':'.toNat ∨ c = '%'.toNat with
  | some mark =>
    if mark = '.'.toNat then (parseIPv4Fields [] 0 0 text).map .v4
    else if mark = ':'.toNat then parseIPv6 text
    else none
  | none => none

def v4InV6Prefix : List Nat := List.replicate 10 0 ++ [0xFF, 0xFF]

-- net.ParseIP: the 16 bytes of an address without a zone.
def parseIP (text : List Nat) : Option (List Nat) :=
  match parseAddr text with
  | some (.v4 octets) => some (v4InV6Prefix ++ octets)
  | some (.v6 bytes []) => some bytes
  | _ => none

section

variable (ip : List Nat)

def toIPv4 : Option (List Nat) :=
  if ip.take 12 = v4InV6Prefix then some (ip.drop 12) else none

def isLoopback : Bool :=
  match toIPv4 ip with
  | some octets => octets.getD 0 0 == 127
  | none => ip == List.replicate 15 0 ++ [1]

def isLinkLocalUnicast : Bool :=
  match toIPv4 ip with
  | some octets => octets.getD 0 0 == 169 && octets.getD 1 0 == 254
  | none => ip.getD 0 0 == 0xFE && ip.getD 1 0 / 64 == 2

def isLinkLocalMulticast : Bool :=
  match toIPv4 ip with
  | some octets => octets.take 3 == [224, 0, 0]
  | none => ip.getD 0 0 == 0xFF && ip.getD 1 0 % 16 == 2

def isUnspecified : Bool :=
  ip == v4InV6Prefix ++ [0, 0, 0, 0] || ip == List.replicate 16 0

end

def isAddressUnit (c : Nat) : Bool :=
  isHexUnit c || c == '.'.toNat || c == ':'.toNat

theorem parseIPv4Fields_units {s fields octets : List Nat} {value digits : Nat}
    (parsed : parseIPv4Fields fields value digits s = some octets) : ∀ c ∈ s, isAddressUnit c = true := by
  fun_induction parseIPv4Fields fields value digits s <;> grind [isHexUnit, isAddressUnit]

theorem mem_or_mem_dropWhile {p : Nat → Bool} {s : List Nat} {c : Nat} (mem : c ∈ s) :
    p c = true ∨ c ∈ s.dropWhile p := by
  induction s with
  | nil => cases mem
  | cons head tail ih =>
    rw [List.dropWhile_cons]
    grind

theorem parseIPv6Groups_units {groups : Nat} {bytes s bytes' rest : List Nat} {ellipsis ellipsis' : Option Nat}
    (parsed : parseIPv6Groups groups bytes ellipsis s = some (bytes', ellipsis', rest)) :
    ∀ c ∈ s, isAddressUnit c = true ∨ c ∈ rest := by
  intro c mem
  have digit : isHexUnit c = true → isAddressUnit c = true := fun hex => by simp [isAddressUnit, hex]
  have colon : isAddressUnit ':'.toNat = true := rfl
  -- behind the digits of a group stands nothing, a dotted address, or a colon and the next group
  fun_induction parseIPv6Groups groups bytes ellipsis s with
  | case5 =>
    obtain ⟨octets, dotted, same⟩ := Option.map_eq_some_iff.mp parsed
    exact .inl (parseIPv4Fields_units dotted c mem)
  | _ => have scanned := mem_or_mem_dropWhile (p := isHexUnit) mem; grind

theorem parseIPv6_units {text bytes : List Nat} (parsed : parseIPv6 text = some (.v6 bytes [])) :
    ∀ c ∈ text, isAddressUnit c = true := by
  have whole : text.contains '%'.toNat = false → text.takeWhile (· ≠ '%'.toNat) = text := by
    intro unzoned
    rw [List.takeWhile_eq_self_iff]
    grind
  have colon : isAddressUnit ':'.toNat = true := rfl
  unfold parseIPv6 at parsed
  generalize text.takeWhile (· ≠ '%'.toNat) = s at parsed whole
  generalize (text.dropWhile (· ≠ '%'.toNat)).drop 1 = zone at parsed
  -- either way the groups are read from what stands behind the leading colons
  by_cases starts : s.take 2 = [':'.toNat, ':'.toNat]
  · have lead : s = ':'.toNat :: ':'.toNat :: s.drop 2 := by
      have split := List.take_append_drop 2 s
      rw [starts] at split
      exact split.symm
    simp only [starts, if_true, true_and] at parsed
    split_ifs at parsed with zoned ended
    · grind
    · split at parsed
      · have read := parseIPv6Groups_units (by assumption)
        grind [Option.map_eq_some_iff]
      · cases parsed
  · simp only [starts, if_false, reduceCtorEq, false_and] at parsed
    split_ifs at parsed with zoned
    split at parsed
    · have read := parseIPv6Groups_units (by assumption)
      grind [Option.map_eq_some_iff]
    · cases parsed

theorem parseAddr_units {text bytes : List Nat} (parsed : parseAddr text = some (.v6 bytes [])) :
    ∀ c ∈ text, isAddressUnit c = true := by
  unfold parseAddr at parsed
  split at parsed
  · split_ifs at parsed
    · simp at parsed
    · exact parseIPv6_units parsed
  · cases parsed

example : parseIP ("169.254.169.254".toList.map Char.toNat) = some (v4InV6Prefix ++ [169, 254, 169, 254]) := by decide

end McpGateway.Shared
