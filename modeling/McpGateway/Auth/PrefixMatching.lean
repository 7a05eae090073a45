import McpGateway.Auth.Spiffe

namespace McpGateway.Auth

open Shared Url Registration

def Foreign (bytes : Bytes) : Prop :=
  ∀ b ∈ bytes, b ≤ 0x20 ∨ 0x80 ≤ b

theorem space_foreign {c : Char} (space : isSpace c = true) : Foreign ((String.utf8EncodeChar c).map UInt8.toNat) :=
  space_cases (motive := fun c => ∀ b ∈ (String.utf8EncodeChar c).map UInt8.toNat, b ≤ 0x20 ∨ 0x80 ≤ b)
    (by decide +kernel) space

theorem spaces_foreign (s : String) (blank : ∀ c ∈ s.toList, isSpace c = true) : Foreign (utf8Bytes s) := by
  intro b mem
  simp only [utf8Bytes, List.mem_flatMap] at mem
  obtain ⟨c, inside, byte⟩ := mem
  exact space_foreign (blank c inside) b byte

theorem Foreign.not_mem {bytes : Bytes} (foreign : Foreign bytes) {b : Nat} (low : 0x20 < b) (high : b < 0x80) :
    b ∉ bytes := by
  intro mem
  have := foreign b mem
  omega

theorem Foreign.plain {bytes : Bytes} (foreign : Foreign bytes) : ∀ b ∈ bytes, b ≠ percent ∧ isHexUnit b = false := by
  intro b mem
  have range := foreign b mem
  have marks : '0'.toNat = 48 ∧ '9'.toNat = 57 ∧ 'a'.toNat = 97 ∧ 'f'.toNat = 102 ∧ 'A'.toNat = 65 ∧ 'F'.toNat = 70 := by
    decide
  constructor
  · intro same
    have sign : percent = 0x25 := rfl
    omega
  · simp only [isHexUnit, isDigitUnit, marks, Bool.or_eq_false_iff, Bool.and_eq_false_iff, decide_eq_false_iff_not]
    omega

theorem Foreign.escapes {bytes : Bytes} (foreign : Foreign bytes) :
    ∀ b ∈ bytes, shouldEscape .path b = true ∧ b ∉ ascii "!$&'()*+,;=:@[]%" := by
  intro b mem
  have range := foreign b mem
  have listed : ∀ c ∈ ascii "!$&'()*+,;=:@[]%" ++ ascii "-_.~" ++ ascii "$&+,/:;=?@", 0x20 < c ∧ c < 0x80 := by decide
  have absent : b ∉ ascii "!$&'()*+,;=:@[]%" ++ ascii "-_.~" ++ ascii "$&+,/:;=?@" := by
    intro inside
    have := listed b inside
    omega
  simp only [List.mem_append, not_or] at absent
  have marks : '0'.toNat = 48 ∧ '9'.toNat = 57 ∧ 'a'.toNat = 97 ∧ 'z'.toNat = 122 ∧ 'A'.toNat = 65 ∧ 'Z'.toNat = 90 := by
    decide
  have alnum : isAlnum b = false := by
    simp only [isAlnum, isAlpha, isDigitUnit, marks, Bool.or_eq_false_iff, Bool.and_eq_false_iff,
      decide_eq_false_iff_not]
    omega
  simp [shouldEscape, alnum, absent]

structure Identified (id : String) (domain workload : Bytes) (parsed : Parsed) (scheme authority path tail : Bytes) :
    Prop where
  laid : Laid (utf8Bytes id) parsed scheme authority path tail
  named : scheme.map lowerByte = ascii "spiffe"
  domain : parsed.host = domain
  rooted : path.head? = some slash
  cleaned : cleanPath slash dot parsed.escapedPath = slash :: workload
  located : workload ≠ []

theorem workloadOf_ok {host rest domain workload : Bytes} (read : workloadOf host (slash :: rest) = .ok (domain, workload)) :
    host = domain ∧ cleanPath slash dot (slash :: rest) = slash :: workload ∧ workload ≠ [] := by
  unfold workloadOf at read
  rw [cleanPath_rooted] at read ⊢
  simp only [reduceCtorEq, false_or, List.head?_cons, if_true, List.drop_succ_cons, List.drop_zero] at read
  split_ifs at read with _ _ none
  simp only [Except.ok.injEq, Prod.mk.injEq] at read
  rw [read.2] at none ⊢
  exact ⟨read.1, rfl, none⟩

theorem parseSPIFFEID_ok {id : String} {domain workload : Bytes} (read : parseSPIFFEID id = .ok (domain, workload)) :
    ∃ parsed scheme authority path tail, Identified id domain workload parsed scheme authority path tail := by
  unfold parseSPIFFEID at read
  split_ifs at read
  split at read
  · cases read
  next parsed found =>
    split_ifs at read with wrong blank
    have schemed : parsed.scheme ≠ [] := by
      intro none
      simp [none, ascii] at wrong
    have hosted : parsed.host ≠ [] := by
      intro none
      simp [none, isBlank] at blank
    obtain ⟨scheme, authority, path, tail, laid⟩ := parse_ok found schemed hosted
    have named : scheme.map lowerByte = ascii "spiffe" := by
      rw [← laid.lowered, List.map_map] at wrong
      simpa [Function.comp_def, lowerByte_lowerByte] using wrong
    cases laid.rooted with
    | inl none =>
      have set := laid.set
      rw [none] at set
      rw [escapedPath_empty set] at read
      simp [workloadOf] at read
    | inr rooted =>
      obtain ⟨rest, escaped⟩ := escapedPath_rooted laid.set rooted
      rw [escaped] at read
      obtain ⟨domain, cleaned, located⟩ := workloadOf_ok read
      exact ⟨parsed, scheme, authority, path, tail, laid, named, domain, rooted, by rw [escaped, cleaned], located⟩

theorem Foreign.invalid {blanks : Bytes} (foreign : Foreign blanks) (padded : blanks ≠ []) (rest : Bytes) :
    validEncodedPath (rest ++ blanks) = false := by
  obtain ⟨b, more, rfl⟩ := List.exists_cons_of_ne_nil padded
  obtain ⟨escapes, unlisted⟩ := foreign.escapes b (by simp)
  rw [Bool.eq_false_iff]
  intro valid
  have listed := validEncodedPath_iff.mp valid b (by simp)
  simp [escapes, unlisted] at listed

section

variable {scheme host rest blanks : Bytes} {parsed : Parsed}

section

variable (set : setPath scheme host (slash :: (rest ++ blanks)) = .ok parsed)

include set

theorem escapedPath_padded (foreign : Foreign blanks) (padded : blanks ≠ []) :
    ∃ front, Decodes .path (slash :: rest) front ∧ parsed.path = front ++ blanks ∧
      parsed.escapedPath = escape .path front ++ escape .path blanks := by
  obtain ⟨_, _, decodes, escaped⟩ := setPath_ok set rfl
  have invalid : validEncodedPath (slash :: (rest ++ blanks)) = false := by
    simpa using foreign.invalid padded (slash :: rest)
  rw [invalid] at escaped
  rw [← List.cons_append] at decodes
  obtain ⟨front, decoded, whole⟩ := decodes.split foreign.plain
  refine ⟨front, decoded, whole, ?_⟩
  rw [escaped, whole]
  simp [escape]

theorem escapedPath_rewritten (foreign : Foreign blanks) (padded : blanks ≠ [])
    (written : (unescape .path (slash :: rest)).map (escape .path) = .ok (slash :: rest)) :
    parsed.escapedPath = slash :: (rest ++ escape .path blanks) := by
  obtain ⟨front, decodes, _, escaped⟩ := escapedPath_padded set foreign padded
  rw [unescape_ok_iff.mpr decodes] at written
  simp only [Except.map, Except.ok.injEq] at written
  rw [escaped, written, List.cons_append]

theorem rewritten_of_prefix (bytes : ∀ b ∈ slash :: (rest ++ blanks), b < 256) (foreign : Foreign blanks)
    (padded : blanks ≠ []) (within : slash :: rest <+: cleanPath slash dot parsed.escapedPath) :
    (unescape .path (slash :: rest)).map (escape .path) = .ok (slash :: rest) := by
  obtain ⟨front, decodes, whole, escaped⟩ := escapedPath_padded set foreign padded
  obtain ⟨inner, rooted⟩ := escapedPath_rooted set rfl
  have decoded := (setPath_ok set rfl).2.2.1
  have canonical : Canonical parsed.escapedPath := by
    have all := canonical_escape (decoded.bytes bytes)
    rw [whole] at all
    rw [escaped]
    simpa [escape] using all
  rw [rooted] at canonical within
  have start := canonical.clean.of_prefix within decodes
  rw [unescape_ok_iff.mpr decodes]
  simp [Except.map, start.escape_decoded decodes]

end

end

theorem padding_plain {blanks : Bytes} (foreign : Foreign blanks) (bytes : ∀ b ∈ blanks, b < 256) :
    slash ∉ escape .path blanks := by
  intro mem
  simp only [escape, List.mem_flatMap, escapeByte] at mem
  obtain ⟨b, inside, found⟩ := mem
  have small := bytes b inside
  have high := not_slash_of_alnum (hexUpper_facts (b / 16) (by omega)).2.2
  have low := not_slash_of_alnum (hexUpper_facts (b % 16) (by omega)).2.2
  rw [(foreign.escapes b inside).1, if_pos rfl] at found
  simp only [List.mem_cons, List.not_mem_nil, or_false] at found
  obtain same | same | same := found
  · revert same
    decide
  · exact high same.symm
  · exact low same.symm

theorem padding_marked {blanks : Bytes} (foreign : Foreign blanks) (padded : blanks ≠ []) :
    percent ∈ escape .path blanks := by
  obtain ⟨b, more, rfl⟩ := List.exists_cons_of_ne_nil padded
  simp [escape, escapeByte, (foreign.escapes b (by simp)).1]

theorem regular_of_padded {rest blanks inner : Bytes} (foreign : Foreign blanks) (bytes : ∀ b ∈ blanks, b < 256)
    (padded : blanks ≠ []) (within : slash :: rest <+: cleanPath slash dot (slash :: inner)) :
    ∀ segment ∈ (rest ++ escape .path blanks).splitOn slash, Regular dot segment := by
  obtain ⟨last, split⟩ := splitOn_append_plain rest (padding_plain foreign bytes)
  rw [split]
  intro segment mem
  simp only [List.mem_append, List.mem_singleton] at mem
  cases mem with
  | inl before => exact regular_of_prefix_cleanPath within segment before
  | inr same =>
    have sign : percent ∈ segment := by
      rw [same]
      exact List.mem_append_right _ (padding_marked foreign padded)
    have other : percent ≠ dot := by decide
    refine ⟨?_, ?_, ?_⟩
    all_goals
      intro dots
      simp [dots, other] at sign

theorem head_visible {id : String} {b : Nat} {rest : Bytes} (begins : utf8Bytes id = b :: rest)
    (low : 0x20 < b) (high : b < 0x80) : ∀ c ∈ id.toList.head?, isSpace c = false := by
  intro c first
  obtain ⟨tail, runes⟩ : ∃ tail, id.toList = c :: tail := by
    cases runes : id.toList with
    | nil => simp [runes] at first
    | cons head tail =>
      simp only [runes, List.head?_cons, Option.mem_some_iff] at first
      exact ⟨tail, by rw [first]⟩
  rw [Bool.eq_false_iff]
  intro space
  have foreign := space_foreign space
  have encoded : String.utf8EncodeChar c ≠ [] := by
    intro none
    have size := String.length_utf8EncodeChar c
    have pos := c.utf8Size_pos
    simp only [none, List.length_nil] at size
    omega
  obtain ⟨byte, more, bytes⟩ := List.exists_cons_of_ne_nil encoded
  simp only [utf8Bytes, runes, List.flatMap_cons, bytes, List.map_cons, List.cons_append, List.cons.injEq] at begins
  have range := foreign b (by simp [bytes, begins.1])
  omega

/-- Whether an identity is written the way it is parsed, so that no allowed start of the text is lost. -/
structure Verbatim (id : String) (authority rest blanks : Bytes) : Prop where
  text : utf8Bytes (trimSpace id) = ascii "spiffe://" ++ (authority ++ slash :: rest)
  padding : utf8Bytes id = utf8Bytes (trimSpace id) ++ blanks
  slashless : slash ∉ authority
  literal : atSign ∉ authority ∧ percent ∉ authority ∧ opening ∉ authority.tail
  regular : ∀ segment ∈ (rest ++ escape .path blanks).splitOn slash, Regular dot segment
  written : if blanks = [] then validEncodedPath (slash :: rest) = true
    else (unescape .path (slash :: rest)).map (escape .path) = .ok (slash :: rest)

section

variable {id : String} {domain workload : Bytes} {parsed : Parsed} {scheme authority path tail : Bytes}

theorem unmarked_padded {rest blanks : Bytes} {mark : Nat} (foreign : Foreign blanks) (absent : mark ∉ slash :: rest)
    (low : 0x20 < mark) (high : mark < 0x80) : mark ∉ slash :: (rest ++ blanks) := by
  rw [← List.cons_append, List.mem_append, not_or]
  exact ⟨absent, foreign.not_mem low high⟩

theorem Verbatim.unmarked {rest blanks : Bytes} (verbatim : Verbatim id authority rest blanks)
    (bytes : ∀ b ∈ slash :: rest, b < 256) : validEncodedPath (slash :: rest) = true := by
  have written := verbatim.written
  split_ifs at written with padded
  · exact written
  · cases decoded : unescape .path (slash :: rest) with
    | error error => simp [decoded, Except.map] at written
    | ok front =>
      simp only [decoded, Except.map, Except.ok.injEq] at written
      have canonical := canonical_escape ((unescape_ok_iff.mp decoded).bytes bytes)
      rw [written] at canonical
      exact canonical.validEncoded

variable (known : Identified id domain workload parsed scheme authority path tail)

include known

theorem Identified.visible :
    ∀ c ∈ id.toList.head?, isSpace c = false := by
  have named := known.named
  have begins := known.laid.whole
  cases scheme with
  | nil => simp [ascii] at named
  | cons b more =>
    have letter : lowerByte b = 115 := by
      have head := congrArg List.head? named
      simpa [ascii] using head
    have marks : 'A'.toNat = 65 ∧ 'Z'.toNat = 90 := by decide
    simp only [lowerByte, marks] at letter
    refine head_visible begins ?_ ?_
    · split_ifs at letter <;> omega
    · split_ifs at letter <;> omega

theorem Identified.colonless :
    colon ∉ scheme := by
  intro mem
  have lowered : lowerByte colon ∈ scheme.map lowerByte := List.mem_map_of_mem mem
  rw [known.named] at lowered
  revert lowered
  decide

theorem Identified.path_cons :
    ∃ inner, path = slash :: inner := by
  have rooted := known.rooted
  cases path with
  | nil => simp at rooted
  | cons b inner =>
    simp only [List.head?_cons, Option.some.injEq] at rooted
    exact ⟨inner, by rw [rooted]⟩

theorem Identified.trimmed {text blanks : Bytes} (whole : utf8Bytes id = text ++ blanks) (foreign : Foreign blanks) :
    ∃ rest, text = scheme ++ colon :: slash :: slash :: (authority ++ slash :: rest) ∧
      path ++ tail = slash :: (rest ++ blanks) := by
  obtain ⟨inner, rooted⟩ := known.path_cons
  have slashless := foreign.not_mem (by decide : 0x20 < slash) (by decide)
  have both : text ++ blanks =
      (scheme ++ colon :: slash :: slash :: authority) ++ slash :: (inner ++ tail) := by
    rw [← whole, known.laid.whole, rooted]
    simp
  obtain ⟨more, _, same⟩ | ⟨more, same, rest⟩ := List.append_eq_append_iff.mp both
  · exact absurd (by simp [same]) slashless
  · cases more with
    | nil =>
      simp only [List.nil_append] at rest
      exact absurd (by simp [← rest]) slashless
    | cons b more =>
      simp only [List.cons_append, List.cons.injEq] at rest
      refine ⟨more, ?_, ?_⟩
      · rw [same, ← rest.1]
        simp
      · rw [rooted, List.cons_append, rest.2]

theorem Identified.untailed {rest : Bytes} (whole : path ++ tail = rest) (query : question ∉ rest)
    (fragment : numberSign ∉ rest) : tail = [] ∧ path = rest := by
  have none : tail = [] := by
    cases known.laid.tailed with
    | inl none => exact none
    | inr marked =>
      cases tail with
      | nil => rfl
      | cons b more =>
        simp only [List.head?_cons, Option.some.injEq] at marked
        cases marked with
        | inl same => exact absurd (by simp [← whole, same]) query
        | inr same => exact absurd (by simp [← whole, same]) fragment
  subst none
  exact ⟨rfl, by simpa using whole⟩

theorem Identified.scheme_eq {behind name : Bytes} (within : scheme ++ behind <+: ascii "spiffe://" ++ name) :
    scheme = ascii "spiffe" := by
  have lengths : scheme.length = (ascii "spiffe").length := by
    rw [← known.named, List.length_map]
  have start : scheme <+: ascii "spiffe://" ++ name := (List.prefix_append _ _).trans within
  have spelled : ascii "spiffe" <+: ascii "spiffe://" ++ name := by
    have opened : ascii "spiffe://" = ascii "spiffe" ++ ascii "://" := by decide
    rw [opened, List.append_assoc]
    exact List.prefix_append _ _
  exact (List.prefix_of_prefix_length_le start spelled lengths.le).eq_of_length lengths

theorem Identified.path_bytes :
    ∀ b ∈ path, b < 256 := by
  intro b mem
  refine utf8Bytes_lt id b ?_
  rw [known.laid.whole]
  simp [mem]

theorem Identified.valid {rest : Bytes}
    (cleaned : slash :: rest <+: cleanPath slash dot parsed.escapedPath) : validEncodedPath (slash :: rest) = true := by
  have encoded := validEncodedPath_escapedPath known.laid.set known.rooted known.path_bytes
  obtain ⟨inner, escaped⟩ := escapedPath_rooted known.laid.set known.rooted
  rw [escaped] at encoded cleaned
  exact validEncodedPath_prefix (validEncodedPath_clean encoded) cleaned

theorem Identified.regular {rest blanks : Bytes} (pathText : path = slash :: (rest ++ blanks)) (foreign : Foreign blanks)
    (cleaned : slash :: rest <+: cleanPath slash dot parsed.escapedPath) :
    (∀ segment ∈ (rest ++ escape .path blanks).splitOn slash, Regular dot segment) ∧
      if blanks = [] then validEncodedPath (slash :: rest) = true
      else (unescape .path (slash :: rest)).map (escape .path) = .ok (slash :: rest) := by
  have set := known.laid.set
  have bytes := known.path_bytes
  rw [pathText] at set bytes
  split_ifs with padded
  · subst padded
    have valid := known.valid cleaned
    rw [List.append_nil] at set
    have rooted := known.cleaned
    rw [escapedPath_plain set valid] at cleaned rooted
    have nonempty : rest ≠ [] := by
      intro none
      subst none
      have root : cleanPath slash dot [slash] = [slash] := by decide
      rw [root] at rooted
      exact known.located (by simpa using rooted.symm)
    exact ⟨by simpa [escape] using regular_of_cleanPath_prefix nonempty cleaned, valid⟩
  · have small : ∀ b ∈ blanks, b < 256 := fun b mem => bytes b (by simp [mem])
    have kept := rewritten_of_prefix set bytes foreign padded cleaned
    obtain ⟨inner, escaped⟩ := escapedPath_rooted known.laid.set known.rooted
    rw [escaped] at cleaned
    exact ⟨regular_of_padded foreign small padded cleaned, kept⟩

theorem Identified.verbatim {blanks : Bytes} (padding : utf8Bytes id = utf8Bytes (trimSpace id) ++ blanks)
    (foreign : Foreign blanks) (within : utf8Bytes (trimSpace id) <+: ascii "spiffe://" ++ (domain ++ slash :: workload)) :
    ∃ rest, Verbatim id authority rest blanks := by
  obtain ⟨rest, text, joined⟩ := known.trimmed padding foreign
  obtain ⟨hostless, literal⟩ := parseAuthority_ok known.laid.host
  rw [known.domain] at hostless literal
  have spelled : utf8Bytes (trimSpace id) = ascii "spiffe://" ++ (authority ++ slash :: rest) := by
    have opened : ascii "spiffe://" = ascii "spiffe" ++ colon :: slash :: [slash] := by decide
    rw [text] at within
    rw [text, known.scheme_eq within, opened]
    simp
  rw [spelled, List.prefix_append_right_inj] at within
  obtain ⟨more, whole⟩ := within
  rw [List.append_assoc, List.cons_append] at whole
  obtain ⟨same, inside⟩ := append_mark_inj known.laid.slashless hostless whole
  have cleaned : slash :: rest <+: cleanPath slash dot parsed.escapedPath := by
    rw [known.cleaned, ← inside]
    simp
  obtain ⟨query, fragment⟩ := not_mem_valid (known.valid cleaned)
  obtain ⟨_, pathText⟩ := known.untailed joined (unmarked_padded foreign query (by decide) (by decide))
    (unmarked_padded foreign fragment (by decide) (by decide))
  obtain ⟨regular, written⟩ := known.regular pathText foreign cleaned
  exact ⟨rest, spelled, padding, known.laid.slashless, literal.mp same.symm, regular, written⟩

theorem Identified.within_of_verbatim {host rest blanks : Bytes} (verbatim : Verbatim id host rest blanks)
    (foreign : Foreign blanks) : utf8Bytes (trimSpace id) <+: ascii "spiffe://" ++ (domain ++ slash :: workload) := by
  have opened : ascii "spiffe://" = ascii "spiffe" ++ colon :: slash :: [slash] := by decide
  have whole : scheme ++ colon :: (slash :: slash :: (authority ++ (path ++ tail))) =
      ascii "spiffe" ++ colon :: (slash :: slash :: (host ++ slash :: (rest ++ blanks))) := by
    rw [← known.laid.whole, verbatim.padding, verbatim.text, opened]
    simp
  obtain ⟨_, hierarchy⟩ := append_mark_inj known.colonless (by decide) whole
  simp only [List.cons.injEq, true_and] at hierarchy
  have bytes : ∀ b ∈ slash :: (rest ++ blanks), b < 256 := by
    intro b mem
    refine utf8Bytes_lt id b ?_
    rw [verbatim.padding, verbatim.text]
    simp only [List.mem_cons, List.mem_append] at mem ⊢
    tauto
  have valid := verbatim.unmarked fun b mem => bytes b (by
    rw [← List.cons_append]
    exact List.mem_append_left _ mem)
  obtain ⟨query, fragment⟩ := not_mem_valid valid
  obtain ⟨inner, rooted⟩ := known.path_cons
  rw [rooted, List.cons_append] at hierarchy
  obtain ⟨same, joined⟩ := append_mark_inj known.laid.slashless verbatim.slashless hierarchy
  obtain ⟨_, pathText⟩ := known.untailed (by rw [rooted, List.cons_append, joined])
    (unmarked_padded foreign query (by decide) (by decide)) (unmarked_padded foreign fragment (by decide) (by decide))
  have domain' : domain = host := by
    have literal := (parseAuthority_ok known.laid.host).2
    rw [known.domain, same] at literal
    exact literal.mpr verbatim.literal
  have set := known.laid.set
  rw [pathText] at set
  have escaped : parsed.escapedPath = slash :: (rest ++ escape .path blanks) := by
    have written := verbatim.written
    split_ifs at written with padded
    · subst padded
      rw [List.append_nil] at set
      simpa [escape] using escapedPath_plain set valid
    · exact escapedPath_rewritten set foreign padded written
  have cleaned := known.cleaned
  rw [escaped, cleanPath_of_regular verbatim.regular, List.cons.injEq] at cleaned
  rw [verbatim.text, domain', ← cleaned.2]
  simp

end

theorem validateSPIFFEID_allowed {hostError : String → Option String} {id : String} {allowed : List String}
    (nonempty : allowed ≠ []) (accepted : validateSPIFFEID ⟨hostError, spiffeIdError⟩ id allowed = .ok ()) :
    ∃ start ∈ allowed, trimSpace start ≠ "" ∧ hasPrefix id (trimSpace start) = true := by
  unfold validateSPIFFEID at accepted
  split at accepted
  · cases accepted
  · split_ifs at accepted with none found
    · exact absurd none nonempty
    obtain ⟨start, mem, matching⟩ := List.any_eq_true.mp found
    simp only [Bool.and_eq_true, decide_eq_true_eq] at matching
    exact ⟨start, mem, matching.1, matching.2⟩

theorem allowed_start_agrees_iff (hostError : String → Option String) {id : String} {domain workload : Bytes}
    (read : parseSPIFFEID id = .ok (domain, workload)) :
    (∀ allowed : List String, allowed ≠ [] → validateSPIFFEID ⟨hostError, spiffeIdError⟩ id allowed = .ok () →
        ∃ start ∈ allowed, trimSpace start ≠ "" ∧
          utf8Bytes (trimSpace start) <+: ascii "spiffe://" ++ (domain ++ slash :: workload)) ↔
      ∃ authority rest blanks, Verbatim id authority rest blanks := by
  obtain ⟨parsed, scheme, authority, path, tail, known⟩ := parseSPIFFEID_ok read
  obtain ⟨spaces, padded, blank⟩ := trimSpace_split known.visible
  have padding : utf8Bytes id = utf8Bytes (trimSpace id) ++ utf8Bytes spaces := by
    rw [← utf8Bytes_append, ← padded]
  have foreign := spaces_foreign spaces blank
  constructor
  · intro agrees
    -- the whole identity is the longest start that can be allowed
    have visible : trimSpace id ≠ "" := by
      intro none
      simp [parseSPIFFEID, none] at read
    have accepted : validateSPIFFEID ⟨hostError, spiffeIdError⟩ id [id] = .ok () := by
      have whole : hasPrefix id (trimSpace id) = true := (hasPrefix_iff _ _).mpr ⟨spaces, padded⟩
      simp [validateSPIFFEID, spiffeIdError, read, visible, whole]
    obtain ⟨start, mem, _, within⟩ := agrees [id] (by simp) accepted
    rw [List.mem_singleton.mp mem] at within
    obtain ⟨rest, verbatim⟩ := known.verbatim padding foreign within
    exact ⟨authority, rest, utf8Bytes spaces, verbatim⟩
  · intro written allowed nonempty accepted
    obtain ⟨host, rest, blanks, verbatim⟩ := written
    have same : blanks = utf8Bytes spaces := by
      have both := verbatim.padding.symm.trans padding
      exact List.append_cancel_left both
    have within := known.within_of_verbatim verbatim (by rwa [same])
    obtain ⟨start, mem, named, matching⟩ := validateSPIFFEID_allowed nonempty accepted
    obtain ⟨more, split⟩ := prefix_trimSpace known.visible matching (trimSpace_trimSpace start)
    refine ⟨start, mem, named, List.IsPrefix.trans ?_ within⟩
    rw [split, utf8Bytes_append]
    exact List.prefix_append _ _

theorem plain_identity_agrees : ∃ start ∈ ["spiffe://td/ns/"], trimSpace start ≠ "" ∧
      utf8Bytes (trimSpace start) <+: ascii "spiffe://" ++ (ascii "td" ++ slash :: ascii "ns/a") := by
  have read : parseSPIFFEID "spiffe://td/ns/a" = .ok (ascii "td", ascii "ns/a") := by decide +kernel
  have verbatim : Verbatim "spiffe://td/ns/a" (ascii "td") (ascii "ns/a") [] := by
    constructor
    all_goals decide +kernel
  exact (allowed_start_agrees_iff (fun _ => none) read).mpr ⟨_, _, _, verbatim⟩ _ (by decide) (by decide +kernel)

theorem allowed_start_disagrees :
    validateSPIFFEID ⟨fun _ => none, spiffeIdError⟩ "spiffe://td/ns/a/../b" ["spiffe://td/ns/a/"] = .ok () ∧
      parseSPIFFEID "spiffe://td/ns/a/../b" = .ok (ascii "td", ascii "ns/b") ∧
      ¬ utf8Bytes (trimSpace "spiffe://td/ns/a/") <+: ascii "spiffe://" ++ (ascii "td" ++ slash :: ascii "ns/b") := by
  decide +kernel

end McpGateway.Auth
