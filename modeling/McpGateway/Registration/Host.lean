import McpGateway.Auth.Spiffe

namespace McpGateway.Registration

open Shared

-- The host without the brackets of an address and without trailing dots. In brackets, more than two bytes are more
-- than two runes.
def normalizedRunes (host : List Char) : List Char :=
  if 2 < host.length ∧ host.head? = some '[' ∧ host.getLast? = some ']' then
    (host.drop 1).dropLast.rdropWhile (· = '.')
  else host.rdropWhile (· = '.')

def normalizedHost (host : String) : String :=
  String.ofList (normalizedRunes host.toList)

def metadataHosts : List String := ["169.254.169.254", "metadata.google.internal", "metadata.goog"]

def parseHostIP (host : String) : Option (List Nat) :=
  parseIP (host.toList.map Char.toNat)

def validateIP (ip : List Nat) : Option String :=
  if isLoopback ip || isLinkLocalUnicast ip || isLinkLocalMulticast ip then
    some "loopback and link-local addresses not allowed"
  else if isUnspecified ip then some "unspecified address not allowed"
  else if some ip = parseHostIP "169.254.169.254" then some "cloud metadata endpoint not allowed"
  else none

def validateHost (raw : String) : Option String :=
  let host := normalizedHost raw
  let lower := toLower host
  if lower ∈ metadataHosts then some "cloud metadata endpoint not allowed"
  else
    match (parseHostIP host).bind validateIP with
    | some detail => some detail
    | none =>
      if lower = "localhost" ∨ ".localhost".toList.isSuffixOf lower.toList then some "localhost not allowed" else none

def admission : Admission := ⟨validateHost, Auth.spiffeIdError⟩

theorem admission_hostError : admission.hostError = validateHost := by
  simp only [admission]

def RefusedAddress (ip : List Nat) : Prop :=
  isLoopback ip = true ∨ isLinkLocalUnicast ip = true ∨ isLinkLocalMulticast ip = true ∨ isUnspecified ip = true ∨
    some ip = parseHostIP "169.254.169.254"

inductive Forbidden (host : String) : Prop
  | metadata (named : toLower host ∈ metadataHosts)
  | localhost (named : toLower host = "localhost")
  | underLocalhost (named : ".localhost".toList <:+ (toLower host).toList)
  | address {ip : List Nat} (parsed : parseHostIP host = some ip) (refused : RefusedAddress ip)

theorem validateIP_eq_none {ip : List Nat} : validateIP ip = none ↔ ¬ RefusedAddress ip := by
  unfold validateIP RefusedAddress
  grind

theorem validateHost_eq_none {host : String} : validateHost host = none ↔ ¬ Forbidden (normalizedHost host) := by
  unfold validateHost
  generalize normalizedHost host = name
  constructor
  · intro passed forbidden
    cases address : (parseHostIP name).bind validateIP with
    | some detail =>
      simp only [address] at passed
      split_ifs at passed
    | none =>
      simp only [address] at passed
      split_ifs at passed with metadata reserved
      rw [not_or, List.isSuffixOf_iff_suffix] at reserved
      cases forbidden with
      | metadata named => exact metadata named
      | localhost named => exact reserved.1 named
      | underLocalhost named => exact reserved.2 named
      | address parsed refused =>
        rw [parsed] at address
        exact validateIP_eq_none.mp address refused
  · intro allowed
    have metadata : toLower name ∉ metadataHosts := fun named => allowed (.metadata named)
    have localhost : toLower name ≠ "localhost" := fun named => allowed (.localhost named)
    have under : ¬ ".localhost".toList <:+ (toLower name).toList := fun named => allowed (.underLocalhost named)
    have address : (parseHostIP name).bind validateIP = none := by
      cases parsed : parseHostIP name with
      | none => rfl
      | some ip => exact validateIP_eq_none.mpr fun refused => allowed (.address parsed refused)
    simp only [metadata, localhost, address, List.isSuffixOf_iff_suffix, under, if_false, or_self]

theorem RegistrationRequest.validate_ok {checks : Admission} {request : RegistrationRequest}
    (valid : request.validate checks = .ok ()) :
    checks.hostError (trimSpace request.listen.host) = none ∧ 1 ≤ request.listen.port := by
  unfold RegistrationRequest.validate at valid
  simp only [bind, Except.bind, throw, throwThe, MonadExceptOf.throw] at valid
  cases found : checks.hostError (trimSpace request.listen.host) with
  | some detail => grind
  | none => grind

section

variable {host : List Char}

theorem normalizedRunes_cases (host : List Char) :
    (∃ inner, inner ≠ [] ∧ host = '[' :: inner ++ [']']) ∨ normalizedRunes host = host.rdropWhile (· = '.') := by
  by_cases brackets : 2 < host.length ∧ host.head? = some '[' ∧ host.getLast? = some ']'
  · obtain ⟨long, opens, closes⟩ := brackets
    obtain ⟨rest, rfl⟩ := List.head?_eq_some_iff.mp opens
    obtain ⟨front, same⟩ := List.getLast?_eq_some_iff.mp closes
    cases front with
    | nil => simp [same] at long
    | cons first inner =>
      obtain ⟨rfl, rfl⟩ := List.cons.inj same
      refine .inl ⟨inner, ?_, rfl⟩
      rintro rfl
      simp at long
  · exact .inr (if_neg brackets)

theorem normalizedRunes_bracketed {inner : List Char} (filled : inner ≠ []) :
    normalizedRunes ('[' :: inner ++ [']']) = inner.rdropWhile (· = '.') := by
  have last : ('[' :: inner ++ [']']).getLast? = some ']' := List.getLast?_concat
  have long : 2 < ('[' :: inner ++ [']']).length := by
    have := List.length_pos_iff.mpr filled
    simp
    omega
  rw [normalizedRunes, if_pos ⟨long, rfl, last⟩]
  simp

theorem getLast?_rdropWhile : (host.rdropWhile (· = '.')).getLast? ≠ some '.' := by
  intro dotted
  obtain ⟨front, same⟩ := List.getLast?_eq_some_iff.mp dotted
  have nonempty : host.rdropWhile (· = '.') ≠ [] := by simp [same]
  have stopped := List.rdropWhile_last_not (fun c => decide (c = '.')) host nonempty
  simp [same] at stopped

theorem length_rdropWhile (front rest : List Char) {mark : Char} (visible : mark ≠ '.') :
    front.length < ((front ++ mark :: rest).rdropWhile (· = '.')).length := by
  rw [List.rdropWhile, List.reverse_append, List.reverse_cons, List.append_assoc, List.dropWhile_append]
  split
  · simp [visible]
  · simp

theorem rdropWhile_eq_self {host : List Char} (undotted : host.getLast? ≠ some '.') :
    host.rdropWhile (· = '.') = host := by
  rw [List.rdropWhile_eq_self_iff]
  intro nonempty dotted
  rw [List.getLast?_eq_some_getLast nonempty] at undotted
  simp_all

end

end McpGateway.Registration
