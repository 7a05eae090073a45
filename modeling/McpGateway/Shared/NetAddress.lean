import McpGateway.Shared.GoStrings
import McpGateway.Shared.IpAddress

namespace McpGateway.Shared

-- Addresses as package net reads and writes them in text.

-- net.SplitHostPort; which of its errors it is does not matter here.
def splitHostPort (hostport : List Char) : Option (List Char × List Char) :=
  let port := hostport.reverse.takeWhile (· ≠ ':')
  let before := hostport.length - port.length - 1
  if ':' ∉ hostport then none
  else if hostport.head? = some '[' then
    let close := hostport.idxOf ']'
    if close + 1 ≠ before then none
    else if '[' ∈ hostport.drop 1 ∨ ']' ∈ hostport.drop (close + 1) then none
    else some ((hostport.take close).drop 1, port.reverse)
  else
    let host := hostport.take before
    if ':' ∈ host ∨ '[' ∈ hostport ∨ ']' ∈ hostport then none
    else some (host, port.reverse)

def trimCutset (cutset runes : List Char) : List Char :=
  (runes.dropWhile fun c => c ∈ cutset).rdropWhile fun c => c ∈ cutset

def parseIPText (text : String) : Option (List Nat) :=
  parseIP (text.toList.map Char.toNat)

def isPrivate (ip : List Nat) : Bool :=
  match toIPv4 ip with
  | some octets =>
    octets.getD 0 0 == 10 || (octets.getD 0 0 == 172 && octets.getD 1 0 / 16 == 1) ||
      (octets.getD 0 0 == 192 && octets.getD 1 0 == 168)
  | none => ip.getD 0 0 / 2 == 0xFC / 2

def hexGroup (value : Nat) : List Char :=
  ([value / 4096 % 16, value / 256 % 16, value / 16 % 16].dropWhile (· = 0)).map hexRune ++ [hexRune (value % 16)]

def ipGroups (ip : List Nat) : List Nat :=
  (List.range 8).map fun i => ip.getD (2 * i) 0 * 256 + ip.getD (2 * i + 1) 0

-- Where the longest run of at least two zero groups starts, the first of equal ones, and where it ends.
def zeroRun (values : List Nat) : Option (Nat × Nat) :=
  (List.range values.length).foldl (fun best i =>
    let length := ((values.drop i).takeWhile (· = 0)).length
    if 2 ≤ length ∧ (best.elim 0 fun run => run.2 - run.1) < length then some (i, i + length) else best) none

def joinRunes (mark : Char) : List (List Char) → List Char
  | [] => []
  | [piece] => piece
  | piece :: next :: rest => piece ++ mark :: joinRunes mark (next :: rest)

def ipRunes (ip : List Nat) : List Char :=
  match toIPv4 ip with
  | some octets => joinRunes '.' (octets.map (Nat.toDigits 10))
  | none =>
    match zeroRun (ipGroups ip) with
    | none => joinRunes ':' ((ipGroups ip).map hexGroup)
    | some (first, last) =>
      joinRunes ':' (((ipGroups ip).take first).map hexGroup) ++ ':' :: ':' ::
        joinRunes ':' (((ipGroups ip).drop last).map hexGroup)

def ipString (ip : List Nat) : String :=
  String.ofList (ipRunes ip)

example : (parseIPText "2001:DB8:0:0:1::2").map ipString = some "2001:db8::1:0:0:2" ∧
    (parseIPText "::ffff:10.1.2.3").map ipString = some "10.1.2.3" := by
  decide +kernel

theorem isSpace_hexRune (n : Nat) : isSpace (hexRune n) = false := by
  have all : ∀ n ∈ List.range 16, isSpace (hexRune n) = false := by decide
  by_cases small : n < 16
  · exact all n (List.mem_range.mpr small)
  · have beyond : hexRune n = '0' := by
      rw [hexRune, List.getD_eq_getElem?_getD, List.getElem?_eq_none (not_lt.mp small)]
      rfl
    rw [beyond]
    decide

theorem isSpace_hexGroup (value : Nat) : ∀ c ∈ hexGroup value, isSpace c = false := by
  intro c mem
  rcases List.mem_append.mp mem with digit | last
  · obtain ⟨n, -, rfl⟩ := List.mem_map.mp digit
    exact isSpace_hexRune n
  · rw [List.mem_singleton.mp last]
    exact isSpace_hexRune _

theorem isSpace_joinRunes {mark : Char} (visible : isSpace mark = false) {pieces : List (List Char)}
    (each : ∀ piece ∈ pieces, ∀ c ∈ piece, isSpace c = false) : ∀ c ∈ joinRunes mark pieces, isSpace c = false := by
  fun_induction joinRunes mark pieces with
  | case1 => simp
  | case2 piece => exact each piece List.mem_cons_self
  | case3 piece next rest ih =>
    obtain ⟨first, later⟩ := List.forall_mem_cons.mp each
    intro c mem
    rcases List.mem_append.mp mem with here | behind
    · exact first c here
    · rcases List.mem_cons.mp behind with rfl | after
      · exact visible
      · exact ih later c after

theorem isSpace_ipRunes (ip : List Nat) : ∀ c ∈ ipRunes ip, isSpace c = false := by
  have hex (values : List Nat) : ∀ c ∈ joinRunes ':' (values.map hexGroup), isSpace c = false :=
    isSpace_joinRunes (by decide) (List.forall_mem_map.mpr fun value _ => isSpace_hexGroup value)
  unfold ipRunes
  split
  · exact isSpace_joinRunes (by decide) (List.forall_mem_map.mpr fun octet _ => isSpace_toDigits octet)
  · split
    · exact hex _
    · have colon : isSpace ':' = false := by decide
      refine List.forall_mem_append.mpr ⟨hex _, List.forall_mem_cons.mpr ⟨colon, ?_⟩⟩
      exact List.forall_mem_cons.mpr ⟨colon, hex _⟩

theorem trimSpace_ipString (ip : List Nat) : trimSpace (ipString ip) = ipString ip :=
  trimSpace_eq_self _ fun c mem => isSpace_ipRunes ip c (by rwa [ipString, String.toList_ofList] at mem)

end McpGateway.Shared
