import McpGateway.Cmd.Proxy

namespace McpGateway.Cmd

open Shared Auth

def messageId (text : String) : Option Json :=
  match Json.parse text with
  | some (.object members) => members.lookup "id"
  | _ => none

def Reply.messages (reply : Reply) : List String :=
  match reply.body with
  | .error _ => []
  | .ok body =>
    if reply.isEventStream then ((lines body).map dropCR).filterMap sseData
    else if body = "" then [] else [body]

/-- A success reply to the request, with one response among its messages, whose body is one line, or whose events are
lines that fit the buffer. -/
def Reply.Plain (reply : Reply) (request : String) : Prop :=
  reply.status = 200 → ∀ body, reply.body = .ok body →
    (if reply.isEventStream then ∀ line ∈ lines body, line.utf8ByteSize < maxTokenSize else OneLine body) ∧
      ∀ id, messageId request = some id → (reply.messages.countP fun message => messageId message = some id) = 1

def Waited (attempts : Nat → Attempt) (number : Nat) : Prop :=
  number = 0 ∨ (attempts number).cancelled = false

inductive Comes (bridge : Bridge) (body : String) (attempts : Nat → Attempt) : Nat → Call → Nat → Call → Prop
  | here (number : Nat) (call : Call) : Comes bridge body attempts number call number call
  | later {number last : Nat} {call tried final : Call} {error : String} {renewed : Option CachedTokens}
      (waited : Waited attempts number)
      (retried : call.attempt bridge body (attempts number) = (.retry error renewed, tried))
      (comes : Comes bridge body attempts (number + 1) (tried.again error renewed) last final) :
      Comes bridge body attempts number call last final

def Exchange.EndsIn (bridge : Bridge) (exchange : Exchange) (reply : Reply) : Prop :=
  ∃ number < maxAttempts, ∃ call, Comes bridge exchange.line exchange.attempts 0 exchange.call number call ∧
    Waited exchange.attempts number ∧ bridge.buildError = none ∧
    (exchange.attempts number).answer = .ok reply ∧ reply.status = 200 ∧ ∃ body, reply.body = .ok body

/-- What the exchange gets written: the messages of the success reply it ends in, one of them the response to the
request if that has an id; nothing if it ends otherwise. -/
def Exchange.Gets (bridge : Bridge) (exchange : Exchange) (messages : List String) : Prop :=
  (∃ reply, exchange.EndsIn bridge reply ∧ messages = reply.messages ∧
      ∀ id, messageId exchange.line = some id → (messages.countP fun message => messageId message = some id) = 1) ∨
    (∀ reply, ¬ exchange.EndsIn bridge reply) ∧ messages = []

def requests (inputs : List (String × Circumstances)) : List String :=
  (inputs.map fun input => dropCR input.1).filter fun line => trimSpace line ≠ ""

section

variable {bridge : Bridge} {body result : String} {attempts : Nat → Attempt} {call : Call}

variable {number last left : Nat} {attempt : Attempt} {final : Call}

theorem waited_iff : Waited attempts number ↔ ¬ (0 < number ∧ (attempts number).cancelled = true) := by
  cases number <;> simp [Waited]

theorem attempt_success {reply : Reply} {text : String} (built : bridge.buildError = none)
    (answered : attempt.answer = .ok reply) (ok : reply.status = 200) (read : reply.body = .ok text) :
    (call.attempt bridge body attempt).1 = .result (reply.content text) := by
  simp [Call.attempt, built, answered, handleMCPResponse, read, ok]

theorem attempt_result (resulted : (call.attempt bridge body attempt).1 = .result result) :
    result = "" ∨ bridge.buildError = none ∧
      ∃ reply, attempt.answer = .ok reply ∧ reply.status = 200 ∧ ∃ text, reply.body = .ok text := by
  have tried := attempt_cases bridge body attempt call
  rw [resulted] at tried
  generalize (call.attempt bridge body attempt).2 = next at tried
  cases tried with
  | replied sessionId built answered handled =>
    cases handled with
    | success text read ok => exact .inr ⟨built, _, answered, ok, text, read⟩
    | accepted => exact .inl rfl

theorem Comes.le (comes : Comes bridge body attempts number call last final) : number ≤ last := by
  induction comes with
  | here => exact le_rfl
  | later _ _ _ ih => omega

theorem sendAttempts_of_comes (comes : Comes bridge body attempts number call last final)
    (within : last < number + left) (waited : Waited attempts last)
    (resulted : (final.attempt bridge body (attempts last)).1 = .result result) :
    (sendAttempts bridge body attempts left number call).1 = .ok result := by
  induction comes generalizing left with
  | here number call =>
    obtain ⟨left, rfl⟩ : ∃ more, left = more + 1 := ⟨left - 1, by omega⟩
    rw [sendAttempts, if_neg (waited_iff.mp waited)]
    cases outcome : call.attempt bridge body (attempts number) with
    | mk verdict next =>
      rw [outcome] at resulted
      cases resulted
      rfl
  | later made retried comes ih =>
    have further := comes.le
    obtain ⟨left, rfl⟩ : ∃ more, left = more + 1 := ⟨left - 1, by omega⟩
    rw [sendAttempts, if_neg (waited_iff.mp made), retried]
    exact ih (by omega) waited resulted

theorem comes_of_sendAttempts (sent : (sendAttempts bridge body attempts left number call).1 = .ok result) :
    ∃ last < number + left, ∃ final, Comes bridge body attempts number call last final ∧ Waited attempts last ∧
      (final.attempt bridge body (attempts last)).1 = .result result := by
  induction left generalizing number call with
  | zero => cases sent
  | succ left ih =>
    rw [sendAttempts] at sent
    split_ifs at sent with stopped
    have waited := waited_iff.mpr stopped
    cases outcome : call.attempt bridge body (attempts number) with
    | mk verdict next =>
      rw [outcome] at sent
      cases verdict with
      | fatal error => cases sent
      | result text =>
        cases sent
        exact ⟨number, by omega, call, .here number call, waited, by rw [outcome]⟩
      | retry error renewed =>
        obtain ⟨last, within, final, comes, made, resulted⟩ := ih sent
        exact ⟨last, by omega, final, .later waited outcome comes, made, resulted⟩

end

namespace Exchange

variable {bridge : Bridge} {exchange : Exchange} {reply : Reply} {body : String}

theorem EndsIn.sent (ends : exchange.EndsIn bridge reply) (read : reply.body = .ok body) :
    (sendMCPRequest bridge exchange.call exchange.line exchange.attempts).1 = .ok (reply.content body) := by
  obtain ⟨number, within, call, comes, waited, built, answered, ok, -⟩ := ends
  exact sendAttempts_of_comes comes (by omega) waited (attempt_success built answered ok read)

theorem endsIn_of_sent (sent : (sendMCPRequest bridge exchange.call exchange.line exchange.attempts).1 = .ok body)
    (some_text : body ≠ "") : ∃ reply, exchange.EndsIn bridge reply := by
  obtain ⟨last, within, call, comes, waited, resulted⟩ := comes_of_sendAttempts sent
  obtain ⟨built, reply, answered, ok, read⟩ := (attempt_result resulted).resolve_left some_text
  exact ⟨reply, last, by omega, call, comes, waited, built, answered, ok, read⟩

def chunk (bridge : Bridge) (exchange : Exchange) : String :=
  match (sendMCPRequest bridge exchange.call exchange.line exchange.attempts).1 with
  | .error _ => ""
  | .ok body => if body = "" then "" else body ++ "\n"

theorem finish_stdout (bridge : Bridge) (exchange : Exchange) :
    (exchange.finish bridge).world.stdout = exchange.call.world.stdout ++ exchange.chunk bridge := by
  have quiet : (sendMCPRequest bridge exchange.call exchange.line exchange.attempts).2.world.stdout =
      exchange.call.world.stdout := (sendAttempts_continues _ _ _ _).stdout
  unfold finish chunk
  cases outcome : sendMCPRequest bridge exchange.call exchange.line exchange.attempts with
  | mk result call =>
    rw [outcome] at quiet
    cases result with
    | error error => simpa [World.warn] using quiet
    | ok body =>
      dsimp only at quiet ⊢
      split_ifs
      · simpa using quiet
      · simp [World.write, quiet]

end Exchange

section

variable {reply : Reply} {request body : String}

theorem oneLine_of_subset {part whole : String} (subset : part.toList ⊆ whole.toList) (oneLine : OneLine whole) :
    OneLine part :=
  fun mem => oneLine (subset mem)

theorem dropCR_subset (line : String) : (dropCR line).toList ⊆ line.toList := by
  unfold dropCR
  split_ifs
  · simpa using List.dropLast_subset _
  · exact List.Subset.refl _

variable {data : String}

theorem sseData_subset {line : String} (found : sseData line = some data) : data ≠ "" ∧ data.toList ⊆ line.toList := by
  unfold sseData at found
  split_ifs at found with some_data
  rw [Option.some.injEq] at found
  subst found
  exact ⟨some_data.2, List.Subset.trans (trimSpace_subset _) (trimPrefix_suffix _ _).subset⟩

theorem mem_eventData {body : String} (found : data ∈ ((lines body).map dropCR).filterMap sseData) :
    data ≠ "" ∧ OneLine data := by
  obtain ⟨line, mem, data_of⟩ := List.mem_filterMap.mp found
  obtain ⟨raw, inside, rfl⟩ := List.mem_map.mp mem
  obtain ⟨visible, subset⟩ := sseData_subset data_of
  exact ⟨visible, oneLine_of_subset (List.Subset.trans subset (dropCR_subset raw)) (oneLine_of_mem_lines inside)⟩

theorem extractSSEData_eq (short : ∀ line ∈ lines body, line.utf8ByteSize < maxTokenSize) :
    extractSSEData body = joinLines (((lines body).map dropCR).filterMap sseData) := by
  have whole : (lines body).takeWhile (fun line => line.utf8ByteSize < maxTokenSize) = lines body := by
    simpa [List.takeWhile_eq_self_iff] using short
  rw [extractSSEData, scanLines, whole]

theorem Reply.Plain.written (plain : reply.Plain request) (ok : reply.status = 200) (read : reply.body = .ok body) :
    (if reply.content body = "" then "" else reply.content body ++ "\n") = terminated reply.messages ∧
      ∀ message ∈ reply.messages, OneLine message := by
  have fits := (plain ok body read).1
  cases stream : reply.isEventStream with
  | true =>
    simp only [stream, if_true] at fits
    have content : reply.content body = joinLines (((lines body).map dropCR).filterMap sseData) := by
      rw [Reply.content, stream, if_pos rfl, extractSSEData_eq fits]
    have messages : reply.messages = ((lines body).map dropCR).filterMap sseData := by
      simp [Reply.messages, read, stream]
    rw [content, messages]
    exact ⟨joinLines_terminated fun data found => (mem_eventData found).1, fun data found => (mem_eventData found).2⟩
  | false =>
    simp only [stream, Bool.false_eq_true, if_false] at fits
    have content : reply.content body = body := by simp [Reply.content, stream]
    have messages : reply.messages = if body = "" then [] else [body] := by simp [Reply.messages, read, stream]
    rw [content, messages]
    split_ifs
    · exact ⟨rfl, by simp⟩
    · exact ⟨by simp [terminated], by simpa using fits⟩

end

theorem Exchange.gets {bridge : Bridge} {exchange : Exchange}
    (plain : ∀ number reply, (exchange.attempts number).answer = .ok reply → reply.Plain exchange.line) :
    ∃ messages, exchange.Gets bridge messages ∧ exchange.chunk bridge = terminated messages ∧
      ∀ message ∈ messages, OneLine message := by
  by_cases success : ∃ reply, exchange.EndsIn bridge reply
  · obtain ⟨reply, ends⟩ := success
    obtain ⟨number, _, _, _, _, _, answered, ok, body, read⟩ := id ends
    have fits := plain number reply answered
    obtain ⟨written, oneLine⟩ := fits.written ok read
    refine ⟨reply.messages, .inl ⟨reply, ends, rfl, (fits ok body read).2⟩, ?_, oneLine⟩
    rw [Exchange.chunk, ends.sent read]
    exact written
  · refine ⟨[], .inr ⟨not_exists.mp success, rfl⟩, ?_, by simp⟩
    unfold Exchange.chunk
    cases sent : (sendMCPRequest bridge exchange.call exchange.line exchange.attempts).1 with
    | error error => rfl
    | ok body =>
      have nothing : body = "" := by_contra fun some_text => success (endsIn_of_sent sent some_text)
      simp [nothing, terminated]

theorem run_written {bridge : Bridge} {inputs : List (String × Circumstances)} {session : Session}
    (plain : ∀ input ∈ inputs, ∀ number reply, (input.2.attempts number).answer = .ok reply →
      reply.Plain (dropCR input.1)) :
    ∃ answers, List.Forall₂ (Exchange.Gets bridge) (exchanges bridge inputs session) answers ∧
      (runProxy bridge inputs session).1.world.stdout = session.world.stdout ++ terminated answers.flatten ∧
      ∀ message ∈ answers.flatten, OneLine message := by
  induction inputs generalizing session with
  | nil => exact ⟨[], .nil, by simp [runProxy, terminated], by simp⟩
  | cons input rest ih =>
    obtain ⟨line, facts⟩ := input
    have further (session : Session) := @ih session fun input mem => plain input (by simp [mem])
    have ended : ∃ answers, List.Forall₂ (Exchange.Gets bridge) [] answers ∧
        session.world.stdout = session.world.stdout ++ terminated answers.flatten ∧
        ∀ message ∈ answers.flatten, OneLine message := ⟨[], .nil, by simp [terminated], by simp⟩
    unfold runProxy exchanges
    split_ifs
    · exact ended
    · exact ended
    · exact further session
    · have quiet := (ensureValidToken_cases bridge.baseURL session.world facts.renewal).continues.stdout
      cases ensured : ensureValidToken bridge.baseURL session.world facts.renewal with
      | mk outcome world =>
        rw [ensured] at quiet
        cases outcome with
        | error error =>
          dsimp only at quiet ⊢
          rw [quiet]
          exact ended
        | ok tokens =>
          dsimp only at quiet ⊢
          have request := plain (line, facts) (by simp)
          obtain ⟨messages, gets, chunk, oneLine⟩ :=
            @Exchange.gets bridge (session.exchange world tokens line facts) request
          obtain ⟨answers, rest, written, others⟩ :=
            further ((session.exchange world tokens line facts).finish bridge)
          refine ⟨messages :: answers, .cons gets rest, ?_, ?_⟩
          · rw [written, Exchange.finish_stdout, chunk]
            simp [Session.exchange, quiet, String.append_assoc]
          · intro message mem
            rcases List.mem_append.mp (List.flatten_cons ▸ mem) with first | later
            · exact oneLine message first
            · exact others message later

theorem requests_cons (line : String) (facts : Circumstances) (rest : List (String × Circumstances)) :
    requests ((line, facts) :: rest) =
      if trimSpace (dropCR line) = "" then requests rest else dropCR line :: requests rest := by
  by_cases blank : trimSpace (dropCR line) = "" <;> simp [requests, blank]

theorem exchanges_lines (bridge : Bridge) (inputs : List (String × Circumstances)) (session : Session) :
    (exchanges bridge inputs session).map Exchange.line <+: requests inputs ∧
      ((∀ input ∈ inputs, input.2.cancelled = false) → (runProxy bridge inputs session).2 = .ok () →
        (exchanges bridge inputs session).map Exchange.line = requests inputs) := by
  induction inputs generalizing session with
  | nil => simp [exchanges, requests]
  | cons input rest ih =>
    obtain ⟨line, facts⟩ := input
    by_cases long : maxTokenSize ≤ line.utf8ByteSize
    · simp [runProxy, exchanges, long]
    by_cases cancelled : facts.cancelled = true
    · simp [runProxy, exchanges, long, cancelled]
    by_cases blank : trimSpace (dropCR line) = ""
    · simp only [requests_cons, runProxy, exchanges, long, cancelled, blank, if_true, if_false]
      exact ⟨(ih session).1, fun uncancelled => (ih session).2 fun input mem => uncancelled input (by simp [mem])⟩
    · simp only [requests_cons, runProxy, exchanges, long, cancelled, blank, if_false]
      cases ensureValidToken bridge.baseURL session.world facts.renewal with
      | mk outcome world =>
        cases outcome with
        | error error => exact ⟨List.nil_prefix, fun _ returned => by cases returned⟩
        | ok tokens =>
          obtain ⟨start, whole⟩ := ih ((session.exchange world tokens line facts).finish bridge)
          refine ⟨List.cons_prefix_cons.mpr ⟨rfl, start⟩, fun uncancelled returned => ?_⟩
          exact congrArg (dropCR line :: ·) (whole (fun input mem => uncancelled input (by simp [mem])) returned)

/-- For every run on requests and replies, of which the successful ones are plain: the output consists of what each
request gets, in the order of the requests, and a run that is neither cancelled nor left without a token comes to all
of them. -/
theorem responses_written_in_order (bridge : Bridge) (tokenFile : TokenFile) (inputs : List (String × Circumstances))
    (plain : ∀ input ∈ inputs, ∀ number reply, (input.2.attempts number).answer = .ok reply →
      reply.Plain (dropCR input.1)) :
    ∃ answers, List.Forall₂ (Exchange.Gets bridge) (exchanges bridge inputs (.start tokenFile)) answers ∧
      lines (runProxy bridge inputs (.start tokenFile)).1.world.stdout = answers.flatten ∧
      (exchanges bridge inputs (.start tokenFile)).map Exchange.line <+: requests inputs ∧
      ((∀ input ∈ inputs, input.2.cancelled = false) → (runProxy bridge inputs (.start tokenFile)).2 = .ok () →
        (exchanges bridge inputs (.start tokenFile)).map Exchange.line = requests inputs) := by
  obtain ⟨answers, gets, written, oneLine⟩ := run_written plain
  refine ⟨answers, gets, ?_, exchanges_lines bridge inputs _⟩
  rw [written]
  simpa [Session.start] using lines_terminated oneLine

namespace Sample

def notified : String := "event: message\ndata: \x7b\"method\":\"progress\"\x7d\ndata: \x7b\"id\":1\x7d\n\n"

def failedThenStream : List (String × Circumstances) :=
  [meeting ping (replying 500 "" "down"), meeting ping (replying 200 "text/event-stream" notified)]

def output (inputs : List (String × Circumstances)) : List String :=
  lines (runProxy gateway inputs (.start (.ok (tokens "https://gw")))).1.world.stdout

theorem ping_id : messageId ping = some (.number "1") := by decide +kernel

theorem notified_plain : Reply.Plain ⟨200, "text/event-stream", "", .ok notified⟩ ping := by
  intro _ body read
  cases read
  refine ⟨by decide +kernel, fun id asked => ?_⟩
  rw [ping_id] at asked
  cases asked
  decide +kernel

theorem failedThenStream_plain : ∀ input ∈ failedThenStream, ∀ number reply,
    (input.2.attempts number).answer = .ok reply → reply.Plain (dropCR input.1) := by
  intro input mem number reply answered
  have line : dropCR ping = ping := by decide +kernel
  simp only [failedThenStream, List.mem_cons, List.not_mem_nil, or_false] at mem
  rcases mem with rfl | rfl
  · cases answered
    exact fun ok => absurd ok (by decide)
  · cases answered
    exact line ▸ notified_plain

end Sample

open Sample

theorem stream_written_behind_failure : (∃ answers, List.Forall₂ (Exchange.Gets gateway)
        (exchanges gateway failedThenStream (.start (.ok (tokens "https://gw")))) answers ∧
      output failedThenStream = answers.flatten) ∧
      output failedThenStream = ["\x7b\"method\":\"progress\"\x7d", "\x7b\"id\":1\x7d"] := by
  obtain ⟨answers, gets, written, -⟩ :=
    responses_written_in_order gateway (.ok (tokens "https://gw")) failedThenStream
      failedThenStream_plain
  exact ⟨⟨answers, gets, written⟩, by decide +kernel⟩

theorem failed_request_unanswered : messageId ping = some (.number "1") ∧
      ((output [meeting ping (replying 500 "" "down")]).countP fun line =>
        messageId line = some (.number "1")) = 0 := by
  decide +kernel

end McpGateway.Cmd
