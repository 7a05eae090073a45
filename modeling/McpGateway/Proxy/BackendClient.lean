import McpGateway.Registration.Handshake
import McpGateway.Registration.Host
import McpGateway.Shared.Uri

namespace McpGateway.Proxy

open Shared Registration

def backendScheme (protocol : String) : String :=
  if toLower (trimSpace protocol) = "http" then "http" else "https"

structure BackendClient where
  record : ServerRecord
  baseURL : String

def newBackendClient (record : ServerRecord) : BackendClient where
  record := record
  baseURL := backendScheme record.protocol ++ "://" ++ trimSpace record.host ++ ":" ++ toString record.port ++ "/mcp"

open Uri (isDelimiter authority parseAuthority)

def dialText (host : String) (port : Int) : List Char :=
  (host.toList ++ ':' :: (toString port).toList ++ '/' :: "mcp".toList).takeWhile fun c => !isDelimiter c

theorem authority_baseURL (record : ServerRecord) : authority (newBackendClient record).baseURL.toList =
      parseAuthority (dialText (trimSpace record.host) record.port) := by
  have layout : (newBackendClient record).baseURL.toList = (backendScheme record.protocol).toList ++ ':' :: '/' :: '/' ::
      ((trimSpace record.host).toList ++ ':' :: (toString record.port).toList ++ '/' :: "mcp".toList) := by
    simp [newBackendClient]
  rw [layout]
  unfold backendScheme
  split <;> exact Uri.authority_of_scheme (by decide) (by decide) _

theorem digits_of_port {port : Int} (pos : 1 ≤ port) : (toString port).toList.all Char.isDigit = true := by
  obtain ⟨n, rfl⟩ := Int.eq_ofNat_of_zero_le (by omega : 0 ≤ port)
  rw [List.all_eq_true]
  intro c mem
  have digits : (toString (n : Int)).toList = Nat.toDigits 10 n := by simp [Int.repr, Nat.repr]
  rw [digits] at mem
  exact Nat.isDigit_of_mem_toDigits (by decide) (by decide) mem

section

variable {host digits : List Char} {parsed : Uri.Authority}

inductive Verbatim (host : List Char) : Prop
  | name (same : normalizedRunes host = host) (allowed : host.all Uri.isRegNameChar = true)
  | address {inner : List Char} (bracketed : host = '[' :: inner ++ [']']) (same : normalizedRunes host = inner)
    (literal : Uri.isIpLiteral inner = true)

theorem reading_of_delimiter {front rest : List Char} {delimiter : Char} (delimits : isDelimiter delimiter = true)
    (read : parseAuthority front = some parsed) : parsed.host ≠ normalizedRunes (front ++ delimiter :: rest) := by
  intro same
  have visible : delimiter ≠ '.' ∧ delimiter ≠ '[' ∧ delimiter ≠ ']' := by
    refine ⟨?_, ?_, ?_⟩ <;> rintro rfl <;> cases delimits
  obtain ⟨lead, hostText, tail, reading⟩ := Uri.reading_of_parse read
  obtain ⟨short, shorter⟩ := reading.host_shorter
  obtain ⟨inner, filled, shape⟩ | trimmed := normalizedRunes_cases (front ++ delimiter :: rest)
  · cases front with
    | nil => exact visible.2.1 (List.cons.inj shape).1
    | cons first inside =>
      obtain ⟨rfl, behind⟩ := List.cons.inj shape
      have more : rest ≠ [] := by
        rintro rfl
        exact visible.2.2 (by simpa using congrArg List.getLast? behind)
      have middle : inner = inside ++ delimiter :: rest.dropLast := by
        have cut := congrArg List.dropLast behind
        simpa [List.dropLast_append_of_ne_nil, List.dropLast_cons_of_ne_nil more] using cut.symm
      have longer := length_rdropWhile inside rest.dropLast visible.1
      rw [shape, normalizedRunes_bracketed filled, middle] at same
      rw [← same] at longer
      have bound := shorter rfl
      simp only [List.length_cons] at bound
      omega
  · have longer := length_rdropWhile front rest visible.1
    rw [← trimmed, ← same] at longer
    omega

theorem decoded_trimmed (lead : List Char) {s out : List Char} (ends : lead.getLast? ≠ some '.')
    (decoded : Uri.Decoded Uri.isRegNameChar s out) (same : out = (lead ++ s).rdropWhile (· = '.')) :
    lead = [] ∧ out = s ∧ s.all Uri.isRegNameChar = true := by
  have undotted : (lead ++ s).getLast? ≠ some '.' := by
    intro dotted
    cases s with
    | nil => simp [ends] at dotted
    | cons c rest =>
      have last : out.getLast? = some '.' := decoded.getLast? rfl (by simpa using dotted)
      rw [same] at last
      exact getLast?_rdropWhile last
  have whole := rdropWhile_eq_self undotted
  rw [whole] at same
  have short := decoded.length_le
  have length : out.length = lead.length + s.length := by rw [same, List.length_append]
  have empty : lead = [] := List.length_eq_zero_iff.mp (by omega)
  exact ⟨empty, decoded.eq_of_length (by simp [length, empty])⟩

theorem verbatim_of_reading (read : parseAuthority (host ++ ':' :: digits) = some parsed)
    (same : parsed.host = normalizedRunes host) (port : parsed.port = some digits) : Verbatim host := by
  obtain ⟨lead, hostText, tail, reading⟩ := Uri.reading_of_parse read
  obtain ⟨_, absent⟩ | ⟨read, rfl, present⟩ := Uri.parsePort_some reading.port
  · simp [absent] at port
  · obtain rfl : read = digits := by simpa [present] using port
    have split : host = lead ++ hostText := List.append_cancel_right reading.split
    obtain rfl | ⟨userinfo, rfl, valid⟩ := reading.lead
    · obtain rfl : host = hostText := split
      obtain ⟨bracketed, literal⟩ | ⟨open_, decoded⟩ := Uri.parseHost_some reading.host
      · exact .address bracketed same.symm literal
      · obtain ⟨inner, _, rfl⟩ | trimmed := normalizedRunes_cases host
        · simp at open_
        · obtain ⟨_, verbatim, allowed⟩ := decoded_trimmed [] (by simp) decoded (same.trans trimmed)
          exact .name (same.symm.trans verbatim) allowed
    · have trimmed : normalizedRunes host = host.rdropWhile (· = '.') := by
        obtain ⟨inner, _, shape⟩ | trimmed := normalizedRunes_cases host
        · cases userinfo <;> simp_all
        · exact trimmed
      rw [trimmed, split] at same
      obtain ⟨bracketed, _⟩ | ⟨_, decoded⟩ := Uri.parseHost_some reading.host
      · have last : (userinfo ++ ['@'] ++ hostText).getLast? = some ']' := by
          rw [bracketed, List.getLast?_append, List.getLast?_concat]
          rfl
        have whole := rdropWhile_eq_self (by rw [last]; simp)
        have length := congrArg List.length (same.trans whole)
        rw [bracketed] at length
        simp at length
        omega
      · have empty := (decoded_trimmed (userinfo ++ ['@']) (by simp) decoded same).1
        simp at empty

theorem Verbatim.undelimited (verbatim : Verbatim host) : ∀ c ∈ host, (!isDelimiter c) = true := by
  have plain : ∀ c, Uri.isUserinfoChar c = true → (!isDelimiter c) = true := fun c allowed => by
    simp [(Uri.isUserinfoChar_ne allowed).2]
  intro c mem
  cases verbatim with
  | name same allowed => exact plain c (by simp [Uri.isUserinfoChar, List.all_eq_true.mp allowed c mem])
  | address bracketed same literal =>
    rw [bracketed] at mem
    simp only [List.cons_append, List.mem_cons, List.mem_append, List.not_mem_nil, or_false] at mem
    obtain rfl | inside | rfl := mem
    · rfl
    · exact plain c (Uri.isUserinfoChar_of_isIpLiteral literal c inside)
    · rfl

theorem parse_of_verbatim (verbatim : Verbatim host) (port : digits.all Char.isDigit = true) (path : List Char) :
    parseAuthority ((host ++ ':' :: digits ++ '/' :: path).takeWhile fun c => !isDelimiter c) =
      some ⟨none, normalizedRunes host, some digits⟩ := by
  have digit := List.all_eq_true.mp port
  have inside : ∀ c ∈ host ++ ':' :: digits, (!isDelimiter c) = true := by
    intro c mem
    simp only [List.mem_append, List.mem_cons] at mem
    obtain written | rfl | written := mem
    · exact verbatim.undelimited c written
    · rfl
    · simp [(Uri.isUserinfoChar_ne (Uri.isUserinfoChar_of_isDigit (digit c written))).2]
  have stop : (host ++ ':' :: digits ++ '/' :: path).takeWhile (fun c => !isDelimiter c) = host ++ ':' :: digits := by
    rw [List.takeWhile_append_of_pos inside]
    simp [isDelimiter]
  rw [stop]
  cases verbatim with
  | name same allowed =>
    rw [same]
    exact Uri.parseAuthority_regName allowed port
  | address bracketed same literal =>
    rw [same, bracketed]
    simpa using Uri.parseAuthority_ipLiteral literal port

end

/-- What the URL of a client says, read as RFC 3986 reads it: the host the validator looked at and passed, and the port
of the registration. -/
def DialsValidated (client : BackendClient) (listen : ListenConfig) : Prop :=
  ∃ parsed, authority client.baseURL.toList = some parsed ∧
    String.ofList parsed.host = normalizedHost (trimSpace listen.host) ∧
      parsed.port = some (toString listen.port).toList ∧ ¬ Forbidden (String.ofList parsed.host)

theorem takeWhile_host (host : List Char) {tail : List Char} (delimited : ∀ c ∈ tail, isDelimiter c = false)
    (path : List Char) : ((host ++ tail ++ '/' :: path).takeWhile fun c => !isDelimiter c) = host ++ tail ∨
      ∃ delimiter rest, isDelimiter delimiter = true ∧
        host = ((host ++ tail ++ '/' :: path).takeWhile fun c => !isDelimiter c) ++ delimiter :: rest := by
  have stop : isDelimiter '/' = true := rfl
  induction host with
  | nil =>
    have kept : ∀ c ∈ tail, (!isDelimiter c) = true := fun c mem => by simp [delimited c mem]
    left
    rw [List.nil_append, List.takeWhile_append_of_pos kept]
    simp [stop]
  | cons c rest ih =>
    cases delimits : isDelimiter c with
    | true => exact .inr ⟨c, rest, delimits, by simp [delimits]⟩
    | false =>
      obtain whole | ⟨delimiter, more, inside, split⟩ := ih
      · left
        simpa [delimits] using whole
      · refine .inr ⟨delimiter, more, inside, ?_⟩
        simpa [delimits] using split

theorem dialled_iff {host : String} {port : Int} (pos : 1 ≤ port) :
    (∃ parsed, parseAuthority (dialText host port) = some parsed ∧
      String.ofList parsed.host = normalizedHost host ∧ parsed.port = some (toString port).toList) ↔
        Verbatim host.toList := by
  constructor
  · rintro ⟨parsed, read, same, portRead⟩
    have same : parsed.host = normalizedRunes host.toList := String.ofList_injective same
    have plain : ∀ c ∈ ':' :: (toString port).toList, isDelimiter c = false := by
      intro c mem
      obtain rfl | digit := List.mem_cons.mp mem
      · rfl
      · have digit := List.all_eq_true.mp (digits_of_port pos) c digit
        exact (Uri.isUserinfoChar_ne (Uri.isUserinfoChar_of_isDigit digit)).2
    obtain whole | ⟨delimiter, rest, delimits, split⟩ := takeWhile_host host.toList plain "mcp".toList
    · rw [dialText, whole] at read
      exact verbatim_of_reading read same portRead
    · rw [split] at same
      exact absurd same (reading_of_delimiter delimits read)
  · intro verbatim
    exact ⟨_, parse_of_verbatim verbatim (digits_of_port pos) _, rfl, rfl⟩

/-- A registration that passed validation is dialled at the host that was validated, and then at none of the forbidden
hosts, exactly when its host is written verbatim. -/
theorem dials_validated_iff (service : Service) (callerId : String) (request : RegistrationRequest)
    (context : RegisterContext) (valid : request.validate admission = .ok ()) :
    DialsValidated (newBackendClient (service.newRecord callerId request context)) request.listen ↔
      Verbatim (trimSpace request.listen.host).toList := by
  obtain ⟨passed, pos⟩ := request.validate_ok valid
  rw [admission_hostError, validateHost_eq_none] at passed
  have host : trimSpace (service.newRecord callerId request context).host = trimSpace request.listen.host :=
    trimSpace_trimSpace _
  have port : (service.newRecord callerId request context).port = request.listen.port := rfl
  rw [← dialled_iff pos, DialsValidated, authority_baseURL, host, port]
  constructor
  · rintro ⟨parsed, read, same, portRead, _⟩
    exact ⟨parsed, read, same, portRead⟩
  · rintro ⟨parsed, read, same, portRead⟩
    exact ⟨parsed, read, same, portRead, same ▸ passed⟩

namespace Sample

def requestAt (host : String) : RegistrationRequest :=
  { Registration.Sample.request ["list_pods"] with listen := ⟨host, 8443, "https"⟩ }

def recordAt (host : String) : ServerRecord :=
  Registration.Sample.service.newRecord Registration.Sample.caller.id (requestAt host) Registration.Sample.context

end Sample

theorem pod_address_dials_validated : DialsValidated (newBackendClient (Sample.recordAt "10.0.3.7"))
    (Sample.requestAt "10.0.3.7").listen :=
  (dials_validated_iff _ _ _ _ (by decide +kernel)).mpr (.name (by decide +kernel) (by decide +kernel))

theorem dialled_host_not_validated : ["gateway@127.0.0.1", "127.0.0.1#"].all (fun host =>
      (Sample.requestAt host).validate admission = .ok () ∧
        (authority (newBackendClient (Sample.recordAt host)).baseURL.toList).map (·.host) =
          some "127.0.0.1".toList) = true ∧ Forbidden "127.0.0.1" := by
  have parsed : parseHostIP "127.0.0.1" = some (v4InV6Prefix ++ [127, 0, 0, 1]) := by decide +kernel
  exact ⟨by decide +kernel, .address parsed (.inl (by decide))⟩

end McpGateway.Proxy
