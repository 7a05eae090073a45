import McpGateway.Shared.CleanPath
import McpGateway.Shared.Url

namespace McpGateway.Shared.Url

variable {mode : Encoding} {s v : Bytes}

/-- A path as `escape` writes it: nothing is escaped that need not be, and all escapes are upper case. -/
inductive Canonical : Bytes → Prop where
  | nil : Canonical []
  | literal (b : Nat) {s : Bytes} (plain : shouldEscape .path b = false) (rest : Canonical s) : Canonical (b :: s)
  | escaped (b : Nat) {s : Bytes} (byte : b < 256) (escapes : shouldEscape .path b = true) (rest : Canonical s) :
      Canonical (percent :: hexUpper (b / 16) :: hexUpper (b % 16) :: s)

theorem hexUpper_facts : ∀ n < 16, hexValue (hexUpper n) = n ∧ isHexUnit (hexUpper n) = true ∧
    isAlnum (hexUpper n) = true := by
  decide

theorem slash_plain : shouldEscape .path slash = false := by decide

theorem percent_escapes : shouldEscape .path percent = true := by decide

variable {t raw : Bytes} {dot : Nat}

theorem Canonical.append (first : Canonical s) (second : Canonical t) : Canonical (s ++ t) := by
  induction first with
  | nil => exact second
  | literal b plain _ ih => exact .literal b plain ih
  | escaped b byte escapes _ ih => exact .escaped b byte escapes ih

theorem canonical_escape (bytes : ∀ b ∈ v, b < 256) : Canonical (escape .path v) := by
  induction v with
  | nil => exact .nil
  | cons b rest ih =>
    have later := ih fun c mem => bytes c (by simp [mem])
    simp only [escape, List.flatMap_cons, escapeByte]
    split_ifs with escapes
    · exact .escaped b (bytes b (by simp)) escapes later
    · exact .literal b (by simpa using escapes) later

theorem not_slash_of_alnum {b : Nat} (alnum : isAlnum b = true) : b ≠ slash := by
  intro same
  subst same
  revert alnum
  decide

theorem Canonical.split {rest : Bytes} (canonical : Canonical (s ++ slash :: rest)) : Canonical s ∧ Canonical rest := by
  generalize whole : s ++ slash :: rest = text at canonical
  induction canonical generalizing s with
  | nil => simp at whole
  | literal b plain later ih =>
    cases s with
    | nil =>
      simp only [List.nil_append, List.cons.injEq] at whole
      rw [whole.2]
      exact ⟨.nil, later⟩
    | cons c s =>
      simp only [List.cons_append, List.cons.injEq] at whole
      obtain ⟨left, right⟩ := ih whole.2
      rw [whole.1]
      exact ⟨.literal b plain left, right⟩
  | escaped b byte escapes later ih =>
    have high := not_slash_of_alnum (hexUpper_facts (b / 16) (by omega)).2.2
    have low := not_slash_of_alnum (hexUpper_facts (b % 16) (by omega)).2.2
    match s, whole with
    | [], whole => simp [slash, percent] at whole
    | [_], whole => simp [high.symm] at whole
    | [_, _], whole => simp [low.symm] at whole
    | first :: second :: third :: s, whole =>
      simp only [List.cons_append, List.cons.injEq] at whole
      obtain ⟨left, right⟩ := ih whole.2.2.2
      rw [whole.1, whole.2.1, whole.2.2.1]
      exact ⟨.escaped b byte escapes left, right⟩

theorem Canonical.segments (canonical : Canonical s) : ∀ segment ∈ s.splitOn slash, Canonical segment := by
  induction s using segment_induction slash with
  | last text absent => simpa [List.splitOn_eq_singleton absent] using canonical
  | cut first rest absent ih =>
    obtain ⟨left, right⟩ := canonical.split
    rw [List.splitOn_append_cons_self_of_not_mem absent]
    simpa [left] using ih right

theorem canonical_intercalate (segments : List Bytes) (canonical : ∀ segment ∈ segments, Canonical segment) :
    Canonical ([slash].intercalate segments) := by
  induction segments with
  | nil => exact .nil
  | cons first rest ih =>
    have later := ih fun segment mem => canonical segment (by simp [mem])
    cases rest with
    | nil => simpa using canonical first (by simp)
    | cons second rest =>
      rw [List.intercalate_cons_cons]
      exact ((canonical first (by simp)).append (.literal slash slash_plain .nil)).append later

theorem Canonical.clean (canonical : Canonical (slash :: s)) : Canonical (cleanPath slash dot (slash :: s)) := by
  rw [cleanPath_rooted]
  refine .literal slash slash_plain (canonical_intercalate _ ?_)
  intro kept mem
  have rest : Canonical s := (Canonical.split (s := []) canonical).2
  exact rest.segments kept (mem_cleanStack mem).1

theorem Canonical.of_prefix (canonical : Canonical s) (within : t <+: s) (decodes : Decodes .path t v) :
    Canonical t := by
  induction decodes generalizing s with
  | nil => exact .nil
  | literal b plain _ _ ih =>
    obtain ⟨more, rfl⟩ := within
    generalize same : b :: _ ++ more = text at canonical
    cases canonical with
    | nil => simp at same
    | literal c unescaped rest =>
      simp only [List.cons_append, List.cons.injEq] at same
      rw [same.1]
      exact .literal c unescaped (ih rest (by simp [← same.2]))
    | escaped =>
      simp only [List.cons_append, List.cons.injEq] at same
      exact absurd same.1 plain
  | escaped high low _ _ _ _ ih =>
    obtain ⟨more, rfl⟩ := within
    generalize same : percent :: high :: low :: _ ++ more = text at canonical
    cases canonical with
    | nil => simp at same
    | literal b unescaped rest =>
      simp only [List.cons_append, List.cons.injEq] at same
      rw [← same.1, percent_escapes] at unescaped
      cases unescaped
    | escaped b byte escapes rest =>
      simp only [List.cons_append, List.cons.injEq, true_and] at same
      rw [same.1, same.2.1]
      exact .escaped b byte escapes (ih rest (by simp [← same.2.2]))

theorem Canonical.escape_decoded (canonical : Canonical s) (decodes : Decodes .path s v) : escape .path v = s := by
  induction canonical generalizing v with
  | nil =>
    cases decodes
    rfl
  | literal b plain _ ih =>
    cases decodes with
    | literal _ _ _ rest => simp only [escape, List.flatMap_cons, escapeByte, plain]; simpa [escape] using ih rest
    | escaped => simp [percent_escapes] at plain
  | escaped b byte escapes _ ih =>
    generalize same : percent :: hexUpper (b / 16) :: hexUpper (b % 16) :: _ = text at decodes
    cases decodes with
    | nil => simp at same
    | literal _ plain =>
      simp only [List.cons.injEq] at same
      exact absurd same.1.symm plain
    | escaped high low _ _ _ rest =>
      simp only [List.cons.injEq, true_and] at same
      obtain ⟨rfl, rfl, rfl⟩ := same
      have value : 16 * hexValue (hexUpper (b / 16)) + hexValue (hexUpper (b % 16)) = b := by
        rw [(hexUpper_facts (b / 16) (by omega)).1, (hexUpper_facts (b % 16) (by omega)).1]
        omega
      rw [value]
      simp only [escape, List.flatMap_cons, escapeByte, escapes, if_true]
      simpa [escape] using ih rest

theorem hexValue_lt {c : Nat} (hex : isHexUnit c = true) : hexValue c < 16 := by
  simp only [isHexUnit, isDigitUnit, Bool.or_eq_true, Bool.and_eq_true, decide_eq_true_eq] at hex
  have marks : '0'.toNat = 48 ∧ '9'.toNat = 57 ∧ 'a'.toNat = 97 ∧ 'f'.toNat = 102 ∧ 'A'.toNat = 65 ∧ 'F'.toNat = 70 := by
    decide
  simp only [marks] at hex
  simp only [hexValue, marks]
  split_ifs <;> omega

theorem Decodes.bytes (decodes : Decodes mode s v) (bytes : ∀ b ∈ s, b < 256) : ∀ b ∈ v, b < 256 := by
  induction decodes with
  | nil => simp
  | literal b _ _ _ ih =>
    simp only [List.mem_cons, forall_eq_or_imp] at bytes ⊢
    exact ⟨bytes.1, ih bytes.2⟩
  | escaped high low first second _ _ ih =>
    simp only [List.mem_cons, forall_eq_or_imp] at bytes ⊢
    have left := hexValue_lt first
    have right := hexValue_lt second
    exact ⟨by omega, ih bytes.2.2.2⟩

theorem Decodes.split {blanks : Bytes} (decodes : Decodes mode (s ++ blanks) v)
    (plain : ∀ b ∈ blanks, b ≠ percent ∧ isHexUnit b = false) :
    ∃ front, Decodes mode s front ∧ v = front ++ blanks := by
  generalize whole : s ++ blanks = text at decodes
  induction decodes generalizing s with
  | nil =>
    simp only [List.append_eq_nil_iff] at whole
    rw [whole.1, whole.2]
    exact ⟨[], .nil, rfl⟩
  | literal b unescaped allowed rest ih =>
    cases s with
    | nil => 
      simp only [List.nil_append] at whole
      refine ⟨[], .nil, ?_⟩
      have same := (Decodes.literal b unescaped allowed rest).eq_of_plain (by
        rw [← whole]
        exact fun mem => (plain percent mem).1 rfl)
      rw [same, whole]
      rfl
    | cons c s =>
      simp only [List.cons_append, List.cons.injEq] at whole
      obtain ⟨front, decoded, same⟩ := ih whole.2
      rw [whole.1, same]
      exact ⟨b :: front, .literal b unescaped allowed decoded, rfl⟩
  | escaped high low first second allowed rest ih =>
    match s, whole with
    | [], whole => exact absurd rfl (plain percent (by simp_all)).1
    | [_], whole =>
      simp only [List.cons_append, List.nil_append, List.cons.injEq] at whole
      have digit := (plain high (by simp [whole.2])).2
      simp [first] at digit
    | [_, _], whole =>
      simp only [List.cons_append, List.nil_append, List.cons.injEq] at whole
      have digit := (plain low (by simp [whole.2.2])).2
      simp [second] at digit
    | _ :: _ :: _ :: s, whole =>
      simp only [List.cons_append, List.cons.injEq] at whole
      obtain ⟨front, decoded, same⟩ := ih whole.2.2.2
      rw [whole.1, whole.2.1, whole.2.2.1, same]
      exact ⟨_ :: front, .escaped high low first second allowed decoded, rfl⟩

theorem validEncodedPath_iff : validEncodedPath s = true ↔
    ∀ b ∈ s, b ∈ ascii "!$&'()*+,;=:@[]%" ∨ shouldEscape .path b = false := by
  simp [validEncodedPath]

theorem Canonical.validEncoded (canonical : Canonical s) : validEncodedPath s = true := by
  rw [validEncodedPath_iff]
  have digit (n : Nat) (small : n < 16) : shouldEscape .path (hexUpper n) = false := by
    simp [shouldEscape, (hexUpper_facts n small).2.2]
  induction canonical with
  | nil => simp
  | literal b plain _ ih => simpa [plain] using ih
  | escaped b byte escapes _ ih =>
    have sign : percent ∈ ascii "!$&'()*+,;=:@[]%" := by decide
    simp only [List.mem_cons, forall_eq_or_imp]
    exact ⟨.inl sign, .inr (digit _ (by omega)), .inr (digit _ (by omega)), ih⟩

theorem setPath_fields {scheme host : Bytes} {parsed : Parsed} (set : setPath scheme host raw = .ok parsed) :
    parsed.scheme = scheme ∧ parsed.host = host := by
  unfold setPath at set
  cases decoded : unescape .path raw with
  | error error => simp [decoded, Except.map] at set
  | ok path =>
    simp only [decoded, Except.map, Except.ok.injEq] at set
    subst set
    exact ⟨rfl, rfl⟩

theorem setPath_ok {scheme host : Bytes} {parsed : Parsed} (set : setPath scheme host raw = .ok parsed)
    (rooted : raw.head? = some slash) : parsed.scheme = scheme ∧ parsed.host = host ∧ Decodes .path raw parsed.path ∧
      parsed.escapedPath = if validEncodedPath raw then raw else escape .path parsed.path := by
  unfold setPath at set
  cases decoded : unescape .path raw with
  | error error => simp [decoded, Except.map] at set
  | ok path =>
    simp only [decoded, Except.map, Except.ok.injEq] at set
    subst set
    have decodes := unescape_ok_iff.mp decoded
    have starred : path ≠ ascii "*" := by
      cases decodes with
      | nil => simp at rooted
      | literal b =>
        intro same
        simp only [List.head?_cons, Option.some.injEq] at rooted
        rw [rooted] at same
        revert same
        simp [ascii, slash]
      | escaped => simp [percent, slash] at rooted
    refine ⟨rfl, rfl, decodes, ?_⟩
    simp only [Parsed.escapedPath]
    by_cases default : escape .path path = raw
    · simp [default, starred]
    · have nonempty : raw ≠ [] := by
        intro empty
        simp [empty] at rooted
      by_cases valid : validEncodedPath raw = true
      · simp [default, nonempty, valid, decoded]
      · simp [default, nonempty, valid, starred]

theorem takeWhile_dropWhile_head (mark : Nat) (text : Bytes) :
    text.dropWhile (· ≠ mark) = [] ∨ (text.dropWhile (· ≠ mark)).head? = some mark := by
  have stopped := List.head?_dropWhile_not (fun b => decide (b ≠ mark)) text
  cases found : (text.dropWhile (· ≠ mark)).head? with
  | none => exact .inl (by simpa using found)
  | some b =>
    simp only [found, decide_eq_false_iff_not, not_not] at stopped
    exact .inr (by rw [stopped])

theorem schemeBytes_some {scheme rest : Bytes} (found : schemeBytes raw = some (scheme, rest)) :
    raw = scheme ++ colon :: rest := by
  induction raw generalizing scheme with
  | nil => simp [schemeBytes] at found
  | cons b tail ih =>
    simp only [schemeBytes] at found
    split_ifs at found with mark kept
    · cases found
      rw [mark]
      rfl
    · obtain ⟨⟨before, after⟩, later, same⟩ := Option.map_eq_some_iff.mp found
      simp only [Prod.mk.injEq] at same
      obtain ⟨rfl, rfl⟩ := same
      rw [ih later]
      rfl

theorem getScheme_ok {scheme rest : Bytes} (found : getScheme raw = .ok (scheme, rest)) (named : scheme ≠ []) :
    raw = scheme ++ colon :: rest := by
  unfold getScheme at found
  split at found
  · cases found
    exact absurd rfl named
  next b tail =>
    split_ifs at found with mark letter
    · cases split : schemeBytes (b :: tail) with
      | none =>
        simp only [split, Option.getD_none, Except.ok.injEq, Prod.mk.injEq] at found
        exact absurd found.1.symm named
      | some parts =>
        simp only [split, Option.getD_some, Except.ok.injEq] at found
        subst found
        exact schemeBytes_some split
    · cases found
      exact absurd rfl named

/-- Where the parts of a URL with a scheme and a host stand in its text. -/
structure Laid (raw : Bytes) (parsed : Parsed) (scheme authority path tail : Bytes) : Prop where
  whole : raw = scheme ++ colon :: slash :: slash :: (authority ++ (path ++ tail))
  lowered : scheme.map lowerByte = parsed.scheme
  slashless : slash ∉ authority
  rooted : path = [] ∨ path.head? = some slash
  tailed : tail = [] ∨ tail.head? = some question ∨ tail.head? = some numberSign
  host : parseAuthority authority = .ok parsed.host
  set : setPath parsed.scheme parsed.host path = .ok parsed

theorem parseHierarchy_ok {scheme hierarchy : Bytes} {parsed : Parsed}
    (read : parseHierarchy scheme hierarchy = .ok parsed) (hosted : parsed.host ≠ []) :
    parsed.scheme = scheme ∧ ∃ authority path, hierarchy = slash :: slash :: (authority ++ path) ∧ slash ∉ authority ∧
      (path = [] ∨ path.head? = some slash) ∧ parseAuthority authority = .ok parsed.host ∧
      setPath scheme parsed.host path = .ok parsed := by
  unfold parseHierarchy at read
  split_ifs at read with slashes
  · obtain ⟨rest, rfl⟩ := slashes.1
    have dropped : (ascii "//" ++ rest).drop 2 = rest := rfl
    simp only [dropped] at read
    split at read
    · cases read
    next host found =>
      obtain ⟨scheme', host'⟩ := setPath_fields read
      subst host'
      refine ⟨scheme', rest.takeWhile (· ≠ slash), rest.dropWhile (· ≠ slash), ?_, ?_, takeWhile_dropWhile_head slash rest,
        found, read⟩
      · rw [List.takeWhile_append_dropWhile]
        rfl
      · intro mem
        have kept := List.mem_takeWhile_imp mem
        simp at kept
  · exact absurd (setPath_fields read).2 hosted

theorem parseReference_ok {parsed : Parsed} (read : parseReference raw = .ok parsed) (schemed : parsed.scheme ≠ [])
    (hosted : parsed.host ≠ []) : ∃ scheme rest, raw = scheme ++ colon :: rest ∧
      parseHierarchy (scheme.map lowerByte) (rest.takeWhile (· ≠ question)) = .ok parsed := by
  unfold parseReference at read
  split_ifs at read
  · cases read
    exact absurd rfl schemed
  split at read
  · cases read
  next scheme rest found =>
    simp only at read
    split_ifs at read with named
    · cases read
      exact absurd rfl hosted
    · refine ⟨scheme, rest, getScheme_ok found ?_, read⟩
      intro none
      subst none
      exact schemed (parseHierarchy_ok read hosted).1

theorem parse_ok {parsed : Parsed} (read : parse raw = .ok parsed) (schemed : parsed.scheme ≠ [])
    (hosted : parsed.host ≠ []) : ∃ scheme authority path tail, Laid raw parsed scheme authority path tail := by
  unfold parse at read
  split at read
  next reference _ =>
    cases read
    obtain ⟨scheme, rest, split, found⟩ := parseReference_ok reference schemed hosted
    obtain ⟨lowered, authority, path, hierarchy, slashless, rooted, host, set⟩ := parseHierarchy_ok found hosted
    have query : rest.takeWhile (· ≠ question) ++ rest.dropWhile (· ≠ question) = rest := List.takeWhile_append_dropWhile
    have fragment : raw.takeWhile (· ≠ numberSign) ++ raw.dropWhile (· ≠ numberSign) = raw := List.takeWhile_append_dropWhile
    refine ⟨scheme, authority, path, rest.dropWhile (· ≠ question) ++ raw.dropWhile (· ≠ numberSign), ?_, lowered.symm,
      slashless, rooted, ?_, host, ?_⟩
    · rw [split, ← query, hierarchy] at fragment
      simpa only [List.append_assoc, List.cons_append] using fragment.symm
    · cases takeWhile_dropWhile_head question rest with
      | inl none =>
        rw [none, List.nil_append]
        cases takeWhile_dropWhile_head numberSign raw with
        | inl none => exact .inl none
        | inr marked => exact .inr (.inr marked)
      | inr marked => exact .inr (.inl (by rw [List.head?_append, marked, Option.some_or]))
    · rwa [lowered]
  · cases read
  · cases read

theorem lowerByte_lowerByte (b : Nat) : lowerByte (lowerByte b) = lowerByte b := by
  have marks : 'A'.toNat = 65 ∧ 'Z'.toNat = 90 := by decide
  simp only [lowerByte, marks]
  split_ifs <;> omega

theorem escapedPath_rooted {scheme host : Bytes} {parsed : Parsed} (set : setPath scheme host raw = .ok parsed)
    (rooted : raw.head? = some slash) : ∃ rest, parsed.escapedPath = slash :: rest := by
  obtain ⟨_, _, decodes, escaped⟩ := setPath_ok set rooted
  rw [escaped]
  cases raw with
  | nil => simp at rooted
  | cons b rest =>
    simp only [List.head?_cons, Option.some.injEq] at rooted
    subst rooted
    split_ifs
    · exact ⟨rest, rfl⟩
    · generalize parsed.path = path at decodes
      cases decodes with
      | literal _ _ _ later => exact ⟨escape .path _, by simp [escape, escapeByte, slash_plain]; rfl⟩

theorem escapedPath_empty {scheme host : Bytes} {parsed : Parsed} (set : setPath scheme host [] = .ok parsed) :
    parsed.escapedPath = [] := by
  simp only [setPath, unescape, Except.map, Except.ok.injEq] at set
  subst set
  rfl

section

variable {scheme host rest : Bytes} {parsed : Parsed}

theorem validEncodedPath_escapedPath (set : setPath scheme host rest = .ok parsed) (rooted : rest.head? = some slash)
    (bytes : ∀ b ∈ rest, b < 256) : validEncodedPath parsed.escapedPath = true := by
  obtain ⟨_, _, decodes, escaped⟩ := setPath_ok set rooted
  rw [escaped]
  split_ifs with valid
  · exact valid
  · exact (canonical_escape (decodes.bytes bytes)).validEncoded

theorem validEncodedPath_clean (valid : validEncodedPath (slash :: rest) = true) :
    validEncodedPath (cleanPath slash dot (slash :: rest)) = true := by
  rw [validEncodedPath_iff] at valid ⊢
  intro b mem
  cases mem_cleanPath mem with
  | inl same => exact valid b (by simp [same])
  | inr inside => exact valid b (by simp [inside])

theorem validEncodedPath_prefix {start : Bytes} (valid : validEncodedPath rest = true) (within : start <+: rest) :
    validEncodedPath start = true := by
  rw [validEncodedPath_iff] at valid ⊢
  exact fun b mem => valid b (within.subset mem)

theorem not_mem_valid (valid : validEncodedPath rest = true) : question ∉ rest ∧ numberSign ∉ rest := by
  rw [validEncodedPath_iff] at valid
  have query : ¬ (question ∈ ascii "!$&'()*+,;=:@[]%" ∨ shouldEscape .path question = false) := by decide
  have fragment : ¬ (numberSign ∈ ascii "!$&'()*+,;=:@[]%" ∨ shouldEscape .path numberSign = false) := by decide
  exact ⟨fun mem => query (valid _ mem), fun mem => fragment (valid _ mem)⟩

theorem escapedPath_plain (set : setPath scheme host (slash :: rest) = .ok parsed)
    (valid : validEncodedPath (slash :: rest) = true) : parsed.escapedPath = slash :: rest := by
  have escaped := (setPath_ok set rfl).2.2.2
  rwa [valid, if_pos rfl] at escaped

end

end McpGateway.Shared.Url
