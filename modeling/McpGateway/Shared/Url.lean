import McpGateway.Shared.Digest
import McpGateway.Shared.IpAddress

namespace McpGateway.Shared.Url

abbrev Bytes := List Nat

def ascii (s : String) : Bytes := s.toList.map Char.toNat

def slash : Nat := '/'.toNat
def percent : Nat := '%'.toNat
def question : Nat := '?'.toNat
def numberSign : Nat := '#'.toNat
def colon : Nat := ':'.toNat
def atSign : Nat := '@'.toNat
def opening : Nat := '['.toNat
def closing : Nat := ']'.toNat

def isAlpha (b : Nat) : Bool :=
  ('a'.toNat ≤ b && b ≤ 'z'.toNat) || ('A'.toNat ≤ b && b ≤ 'Z'.toNat)

def isAlnum (b : Nat) : Bool :=
  isAlpha b || isDigitUnit b

def lowerByte (b : Nat) : Nat :=
  if 'A'.toNat ≤ b ∧ b ≤ 'Z'.toNat then b + 32 else b

inductive Encoding where
  | path | userPassword | fragment | host | zone
  deriving DecidableEq

def shouldEscape (mode : Encoding) (b : Nat) : Bool :=
  if isAlnum b then false
  else if (mode = .host ∨ mode = .zone) ∧ b ∈ ascii "!$&'()*+,;=:[]<>\"" then false
  else if b ∈ ascii "-_.~" then false
  else if b ∈ ascii "$&+,/:;=?@" ∧ mode = .path then b == question
  else if b ∈ ascii "$&+,/:;=?@" ∧ mode = .userPassword then b ∈ ascii "@/?:"
  else if b ∈ ascii "$&+,/:;=?@" ∧ mode = .fragment then false
  else !(mode = .fragment ∧ b ∈ ascii "!()*")

def hexUpper (n : Nat) : Nat :=
  (ascii "0123456789ABCDEF").getD n 0

def escapeByte (mode : Encoding) (b : Nat) : Bytes :=
  if shouldEscape mode b then [percent, hexUpper (b / 16), hexUpper (b % 16)] else [b]

def escape (mode : Encoding) (s : Bytes) : Bytes :=
  s.flatMap (escapeByte mode)

inductive UrlError where
  | controlCharacter
  | missingScheme
  | colonInFirstSegment
  | missingBracket
  | invalidPort (port : Bytes)
  | invalidAddress
  | invalidIpLiteral
  | invalidEscape (text : Bytes)
  | invalidHostCharacter (byte : Nat)
  | invalidUserinfo
  deriving DecidableEq

-- Whether the escape of `value`, written with `high` and `low`, may stand in this part of a URL.
def escapeAllowed (mode : Encoding) (high low : Nat) : Bool :=
  let value := 16 * hexValue high + hexValue low
  match mode with
  | .host => 8 ≤ hexValue high || (high == '2'.toNat && low == '5'.toNat)
  | .zone => (high == '2'.toNat && low == '5'.toNat) || value == ' '.toNat || !shouldEscape .host value
  | _ => true

def literalAllowed (mode : Encoding) (b : Nat) : Bool :=
  !((mode = .host ∨ mode = .zone) ∧ b < 0x80 ∧ shouldEscape mode b)

def unescape (mode : Encoding) : Bytes → Except UrlError Bytes
  | [] => .ok []
  | b :: rest =>
    if b = percent then
      match rest with
      | high :: low :: more =>
        if isHexUnit high && isHexUnit low && escapeAllowed mode high low then
          (unescape mode more).map ((16 * hexValue high + hexValue low) :: ·)
        else .error (.invalidEscape [b, high, low])
      | _ => .error (.invalidEscape (b :: rest))
    else if literalAllowed mode b then (unescape mode rest).map (b :: ·)
    else .error (.invalidHostCharacter b)

def schemeBytes : Bytes → Option (Bytes × Bytes)
  | [] => none
  | b :: rest =>
    if b = colon then some ([], rest)
    else if isAlnum b ∨ b ∈ ascii "+-." then (schemeBytes rest).map fun (scheme, rest) => (b :: scheme, rest)
    else none

def getScheme (raw : Bytes) : Except UrlError (Bytes × Bytes) :=
  match raw with
  | [] => .ok ([], raw)
  | b :: _ =>
    if b = colon then .error .missingScheme
    else if isAlpha b then .ok ((schemeBytes raw).getD ([], raw))
    else .ok ([], raw)

def validOptionalPort (port : Bytes) : Bool :=
  match port with
  | [] => true
  | b :: rest => b == colon && rest.all isDigitUnit

def validUserinfo (s : Bytes) : Bool :=
  s.all fun b => isAlnum b || b ∈ ascii "-._:~!$&'()*+,;=%@"

def cutEscapedPercent : Bytes → Bytes × Bytes
  | [] => ([], [])
  | b :: rest =>
    if ascii "%25" <+: b :: rest then ([], b :: rest)
    else (b :: (cutEscapedPercent rest).1, (cutEscapedPercent rest).2)

def splitLast (mark : Nat) (s : Bytes) : Bytes × Bytes :=
  (((s.reverse.dropWhile (· ≠ mark)).drop 1).reverse, (s.reverse.takeWhile (· ≠ mark)).reverse)

def parseIpLiteral (hostname colonPort : Bytes) : Except UrlError Bytes :=
  match unescape .host (cutEscapedPercent hostname).1, unescape .zone (cutEscapedPercent hostname).2 with
  | .ok host, .ok zone =>
    match parseAddr (host ++ zone) with
    | none => .error .invalidAddress
    | some (.v4 _) => .error .invalidIpLiteral
    | some (.v6 _ _) => .ok ([opening] ++ (host ++ zone) ++ [closing] ++ colonPort)
  | .error error, _ => .error error
  | _, .error error => .error error

def parseHost (host : Bytes) : Except UrlError Bytes :=
  if host.contains opening then
    let colonPort := (splitLast closing host).2
    if host.contains closing = false then .error .missingBracket
    else if validOptionalPort colonPort = false then .error (.invalidPort colonPort)
    -- What stands before the last opening bracket is ignored.
    else parseIpLiteral (splitLast closing (splitLast opening host).2).1 colonPort
  else if host.contains colon ∧ validOptionalPort (colon :: (splitLast colon host).2) = false then
    .error (.invalidPort (colon :: (splitLast colon host).2))
  else unescape .host host

def parseUserinfo (userinfo : Bytes) : Except UrlError Unit :=
  if validUserinfo userinfo then
    -- A password is unescaped on its own.
    match unescape .userPassword (userinfo.takeWhile (· ≠ colon)),
      unescape .userPassword ((userinfo.dropWhile (· ≠ colon)).drop 1) with
    | .ok _, .ok _ => .ok ()
    | .error error, _ => .error error
    | _, .error error => .error error
  else .error .invalidUserinfo

def parseAuthority (authority : Bytes) : Except UrlError Bytes :=
  if authority.contains atSign then
    match parseHost (splitLast atSign authority).2, parseUserinfo (splitLast atSign authority).1 with
    | .ok host, .ok _ => .ok host
    | .error error, _ => .error error
    | _, .error error => .error error
  else parseHost authority

structure Parsed where
  scheme : Bytes
  host : Bytes
  path : Bytes
  rawPath : Bytes

def setPath (scheme host raw : Bytes) : Except UrlError Parsed :=
  (unescape .path raw).map fun path => ⟨scheme, host, path, if escape .path path = raw then [] else raw⟩

def parseHierarchy (scheme rest : Bytes) : Except UrlError Parsed :=
  if ascii "//" <+: rest ∧ (scheme ≠ [] ∨ ¬ ascii "///" <+: rest) then
    match parseAuthority ((rest.drop 2).takeWhile (· ≠ slash)) with
    | .error error => .error error
    | .ok host => setPath scheme host ((rest.drop 2).dropWhile (· ≠ slash))
  else setPath scheme [] rest

def parseReference (raw : Bytes) : Except UrlError Parsed :=
  if raw.any fun b => b < 0x20 || b == 0x7F then .error .controlCharacter
  else if raw = ascii "*" then .ok ⟨[], [], ascii "*", []⟩
  else
    match getScheme raw with
    | .error error => .error error
    | .ok (scheme, rest) =>
      let hierarchy := rest.takeWhile (· ≠ question)
      if hierarchy.head? ≠ some slash ∧ scheme ≠ [] then .ok ⟨scheme.map lowerByte, [], [], []⟩
      else if hierarchy.head? ≠ some slash ∧ (hierarchy.takeWhile (· ≠ slash)).contains colon then
        .error .colonInFirstSegment
      else parseHierarchy (scheme.map lowerByte) hierarchy

def parse (raw : Bytes) : Except UrlError Parsed :=
  match parseReference (raw.takeWhile (· ≠ numberSign)),
    unescape .fragment ((raw.dropWhile (· ≠ numberSign)).drop 1) with
  | .ok parsed, .ok _ => .ok parsed
  | .error error, _ => .error error
  | _, .error error => .error error

def validEncodedPath (s : Bytes) : Bool :=
  s.all fun b => b ∈ ascii "!$&'()*+,;=:@[]%" || !shouldEscape .path b

def Parsed.escapedPath (parsed : Parsed) : Bytes :=
  if parsed.rawPath ≠ [] ∧ validEncodedPath parsed.rawPath ∧ unescape .path parsed.rawPath = .ok parsed.path then
    parsed.rawPath
  else if parsed.path = ascii "*" then ascii "*"
  else escape .path parsed.path

variable {mode : Encoding} {s v : Bytes}

inductive Decodes (mode : Encoding) : Bytes → Bytes → Prop where
  | nil : Decodes mode [] []
  | literal (b : Nat) {s v : Bytes} (plain : b ≠ percent) (allowed : literalAllowed mode b = true)
      (rest : Decodes mode s v) : Decodes mode (b :: s) (b :: v)
  | escaped (high low : Nat) {s v : Bytes} (first : isHexUnit high = true) (second : isHexUnit low = true)
      (allowed : escapeAllowed mode high low = true) (rest : Decodes mode s v) :
      Decodes mode (percent :: high :: low :: s) ((16 * hexValue high + hexValue low) :: v)

theorem unescape_ok_iff : unescape mode s = .ok v ↔ Decodes mode s v := by
  constructor
  · intro read
    fun_induction unescape mode s generalizing v with
    | case1 =>
      cases read
      exact .nil
    | case2 high low more allowed ih =>
      simp only [Bool.and_eq_true] at allowed
      cases decoded : unescape mode more with
      | error error => simp [decoded, Except.map] at read
      | ok bytes =>
        simp only [decoded, Except.map, Except.ok.injEq] at read
        subst read
        exact .escaped high low allowed.1.1 allowed.1.2 allowed.2 (ih decoded)
    | case3 => cases read
    | case4 => cases read
    | case5 b rest plain allowed ih =>
      cases decoded : unescape mode rest with
      | error error => simp [decoded, Except.map] at read
      | ok bytes =>
        simp only [decoded, Except.map, Except.ok.injEq] at read
        subst read
        exact .literal b plain allowed (ih decoded)
    | case6 => cases read
  · intro decodes
    induction decodes with
    | nil => rfl
    | literal b plain allowed rest ih =>
      rw [unescape.eq_def]
      simp only [plain, if_false, allowed, if_true, ih, Except.map]
    | escaped high low first second allowed rest ih => simp [unescape, first, second, allowed, ih, Except.map]

theorem Decodes.length (decodes : Decodes mode s v) : v.length ≤ s.length ∧ (percent ∈ s → v.length < s.length) := by
  induction decodes with
  | nil => simp
  | literal b plain allowed rest ih =>
    simp only [List.length_cons, List.mem_cons]
    have other := fun inside => ih.2 inside
    constructor
    · omega
    · intro inside
      cases inside with
      | inl same => exact absurd same.symm plain
      | inr later =>
        have shorter := ih.2 later
        omega
  | escaped high low first second allowed rest ih =>
    simp only [List.length_cons]
    omega

theorem Decodes.eq_of_plain (decodes : Decodes mode s v) (plain : percent ∉ s) : v = s := by
  induction decodes with
  | nil => rfl
  | literal b _ _ rest ih =>
    simp only [List.mem_cons, not_or] at plain
    rw [ih plain.2]
  | escaped => simp at plain

theorem decodes_host_no_slash (decodes : Decodes mode s v) (host : mode = .host ∨ mode = .zone) : slash ∉ v := by
  induction decodes with
  | nil => simp
  | literal b plain allowed rest ih =>
    simp only [List.mem_cons, not_or]
    refine ⟨?_, ih⟩
    intro same
    subst same
    cases host with
    | inl same =>
      subst same
      revert allowed
      decide
    | inr same =>
      subst same
      revert allowed
      decide
  | escaped high low first second allowed rest ih =>
    simp only [List.mem_cons, not_or]
    refine ⟨?_, ih⟩
    intro same
    have reserved : shouldEscape .host slash = true := by decide
    have value : slash = 47 := rfl
    cases host with
    | inl mode =>
      subst mode
      simp only [escapeAllowed, Bool.or_eq_true, decide_eq_true_eq, Bool.and_eq_true, beq_iff_eq] at allowed
      cases allowed with
      | inl large => omega
      | inr sign =>
        rw [sign.1, sign.2] at same
        revert same
        decide
    | inr mode =>
      subst mode
      simp only [escapeAllowed, Bool.or_eq_true, Bool.and_eq_true, beq_iff_eq, ← same, reserved, Bool.not_true,
        Bool.false_eq_true, or_false] at allowed
      cases allowed with
      | inl sign =>
        rw [sign.1, sign.2] at same
        revert same
        decide
      | inr blank =>
        revert blank
        decide

theorem splitLast_eq {mark : Nat} (mem : mark ∈ s) :
    s = (splitLast mark s).1 ++ mark :: (splitLast mark s).2 ∧ mark ∉ (splitLast mark s).2 := by
  have back : s.reverse = s.reverse.takeWhile (· ≠ mark) ++ s.reverse.dropWhile (· ≠ mark) :=
    List.takeWhile_append_dropWhile.symm
  have nonempty : s.reverse.dropWhile (· ≠ mark) ≠ [] := by
    intro empty
    have all := List.dropWhile_eq_nil_iff.mp empty mark (by simpa using mem)
    simp at all
  have head : (s.reverse.dropWhile (· ≠ mark)).head nonempty = mark := by
    have stopped := List.head_dropWhile_not (p := fun b => decide (b ≠ mark)) (l := s.reverse) nonempty
    simpa using stopped
  have parts : s.reverse.dropWhile (· ≠ mark) = mark :: (s.reverse.dropWhile (· ≠ mark)).drop 1 := by
    conv_lhs => rw [← List.cons_head_tail nonempty, head]
    simp
  constructor
  · rw [← List.reverse_inj]
    simp only [splitLast, List.reverse_append, List.reverse_cons, List.reverse_reverse, List.append_assoc,
      List.singleton_append]
    rw [← parts]
    exact back
  · simp only [splitLast, List.mem_reverse]
    intro mem
    have kept := List.mem_takeWhile_imp mem
    simp at kept

theorem splitLast_append {mark : Nat} (before after : Bytes) (absent : mark ∉ after) :
    splitLast mark (before ++ mark :: after) = (before, after) := by
  have kept : ∀ b ∈ after.reverse, decide (b ≠ mark) = true := by
    intro b mem
    have other : b ≠ mark := by
      intro same
      exact absent (by simpa [same] using mem)
    simpa using other
  simp only [splitLast, List.reverse_append, List.reverse_cons, List.append_assoc, List.singleton_append]
  rw [List.takeWhile_append_of_pos kept, List.dropWhile_append_of_pos kept]
  simp

theorem cutEscapedPercent_append (s : Bytes) : (cutEscapedPercent s).1 ++ (cutEscapedPercent s).2 = s := by
  induction s with
  | nil => rfl
  | cons b rest ih =>
    simp only [cutEscapedPercent]
    split_ifs
    · rfl
    · simp [ih]

theorem validOptionalPort_plain {port : Bytes} (valid : validOptionalPort port = true) :
    ∀ b ∈ port, b = colon ∨ isDigitUnit b = true := by
  cases port with
  | nil => simp
  | cons first rest =>
    simp only [validOptionalPort, Bool.and_eq_true, beq_iff_eq, List.all_eq_true] at valid
    intro b mem
    simp only [List.mem_cons] at mem
    cases mem with
    | inl same => exact .inl (same.trans valid.1)
    | inr later => exact .inr (valid.2 b later)

theorem not_mem_port {port : Bytes} (valid : validOptionalPort port = true) {mark : Nat} (other : mark ≠ colon)
    (sign : isDigitUnit mark = false) : mark ∉ port := by
  intro mem
  cases validOptionalPort_plain valid mark mem with
  | inl same => exact other same
  | inr digit => simp [sign] at digit

inductive HostRead : Bytes → Bytes → Prop where
  | name {s v : Bytes} (unbracketed : opening ∉ s) (decodes : Decodes .host s v) : HostRead s v
  | address (before : Bytes) {host zone port v w : Bytes} (last : opening ∉ host ++ zone)
      (first : Decodes .host host v) (second : Decodes .zone zone w) (valid : validOptionalPort port = true) :
      HostRead (before ++ opening :: (host ++ zone ++ closing :: port))
        (opening :: (v ++ w ++ closing :: port))

theorem hostRead_of_parseHost {host : Bytes} (read : parseHost host = .ok v) : HostRead host v := by
  unfold parseHost at read
  by_cases bracketed : opening ∈ host
  · simp only [List.contains_iff_mem, bracketed, if_true] at read
    by_cases closed : closing ∈ host
    · simp only [List.contains_eq_mem, closed, decide_true, Bool.true_eq_false, if_false] at read
      split_ifs at read with invalid
      have valid : validOptionalPort (splitLast closing host).2 = true := by simpa using invalid
      obtain ⟨opened, alone⟩ := splitLast_eq bracketed
      obtain ⟨ended, _⟩ := splitLast_eq closed
      have portPlain := not_mem_port valid (by decide : opening ≠ colon) (by decide)
      have portClosed := not_mem_port valid (by decide : closing ≠ colon) (by decide)
      generalize (splitLast closing host).2 = port at *
      generalize (splitLast opening host).1 = before at *
      generalize (splitLast opening host).2 = behind at *
      -- the port has no bracket, so the last `]` stands behind the last `[`
      have inside : ∃ hostname, behind = hostname ++ closing :: port := by
        rw [opened] at ended
        obtain ⟨rest, _, same⟩ | ⟨rest, _, same⟩ := List.append_eq_append_iff.mp ended
        · cases rest with
          | nil => simp [opening, closing] at same
          | cons b hostname =>
            simp only [List.cons_append, List.cons.injEq] at same
            exact ⟨hostname, same.2⟩
        · cases rest with
          | nil => simp [opening, closing] at same
          | cons b more =>
            simp only [List.cons_append, List.cons.injEq] at same
            exact absurd (by simp [same.2]) portPlain
      obtain ⟨hostname, rfl⟩ := inside
      rw [splitLast_append _ _ portClosed] at read
      rw [opened]
      simp only [parseIpLiteral] at read
      have parts := cutEscapedPercent_append hostname
      have last : opening ∉ (cutEscapedPercent hostname).1 ++ (cutEscapedPercent hostname).2 := by
        rw [parts]
        intro mem
        exact alone (List.mem_append_left _ mem)
      split at read
      · split at read
        · cases read
        · cases read
        · cases read
          rw [← parts]
          next host zone first second _ _ _ _ =>
          simpa using HostRead.address before last (unescape_ok_iff.mp first) (unescape_ok_iff.mp second) valid
      · cases read
      · cases read
    · simp only [List.contains_eq_mem, closed, decide_false, if_true] at read
      cases read
  · simp only [List.contains_iff_mem, bracketed, if_false] at read
    split_ifs at read
    exact .name bracketed (unescape_ok_iff.mp read)

theorem HostRead.no_slash {host : Bytes} (read : HostRead host v) : slash ∉ v := by
  cases read with
  | name _ decodes => exact decodes_host_no_slash decodes (.inl rfl)
  | address before last first second valid =>
    have port := not_mem_port valid (by decide : slash ≠ colon) (by decide)
    simp [decodes_host_no_slash first (.inl rfl), decodes_host_no_slash second (.inr rfl), port]
    decide

theorem HostRead.length {host : Bytes} (read : HostRead host v) : v.length ≤ host.length := by
  cases read with
  | name _ decodes => exact decodes.length.1
  | address before last first second valid =>
    have left := first.length.1
    have right := second.length.1
    simp only [List.length_append, List.length_cons]
    omega

theorem HostRead.literal_iff {host : Bytes} (read : HostRead host v) :
    v = host ↔ percent ∉ host ∧ opening ∉ host.tail := by
  cases read with
  | name unbracketed decodes =>
    constructor
    · intro same
      subst same
      refine ⟨?_, fun mem => unbracketed (List.mem_of_mem_tail mem)⟩
      intro mem
      have shorter := decodes.length.2 mem
      omega
    · intro plain
      exact decodes.eq_of_plain plain.1
  | @address before host zone port v w last first second valid =>
    have port' := not_mem_port valid (by decide : percent ≠ colon) (by decide)
    have port'' := not_mem_port valid (by decide : opening ≠ colon) (by decide)
    have left := first.length
    have right := second.length
    constructor
    · intro same
      have lengths := congrArg List.length same
      simp only [List.length_append, List.length_cons] at lengths
      have front : before = [] := List.length_eq_zero_iff.mp (by omega)
      subst front
      simp only [List.mem_append, not_or] at last
      have plainHost : percent ∉ host := by
        intro mem
        have shorter := left.2 mem
        omega
      have plainZone : percent ∉ zone := by
        intro mem
        have shorter := right.2 mem
        omega
      simp [plainHost, plainZone, port', port'', last]
      decide
    · intro plain
      have front : before = [] := by
        cases before with
        | nil => rfl
        | cons b rest => simp at plain
      subst front
      simp only [List.nil_append, List.mem_cons, List.mem_append, not_or] at plain
      rw [first.eq_of_plain plain.1.2.1.1, second.eq_of_plain plain.1.2.1.2]
      rfl

theorem parseAuthority_ok {authority : Bytes} (read : parseAuthority authority = .ok v) :
    slash ∉ v ∧ (v = authority ↔ atSign ∉ authority ∧ percent ∉ authority ∧ opening ∉ authority.tail) := by
  unfold parseAuthority at read
  by_cases user : atSign ∈ authority
  · simp only [List.contains_iff_mem, user, if_true] at read
    split at read
    · cases read
      next parsed =>
      have host := hostRead_of_parseHost parsed
      refine ⟨host.no_slash, ?_⟩
      constructor
      · intro same
        have whole := congrArg List.length (splitLast_eq user).1
        have short := host.length
        rw [same] at short
        simp only [List.length_append, List.length_cons] at whole
        omega
      · intro plain
        exact absurd user plain.1
    · cases read
    · cases read
  · simp only [List.contains_iff_mem, user, if_false] at read
    have host := hostRead_of_parseHost read
    refine ⟨host.no_slash, ?_⟩
    rw [host.literal_iff]
    simp [user]

end McpGateway.Shared.Url
