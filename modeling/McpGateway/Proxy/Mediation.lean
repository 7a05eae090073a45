import McpGateway.Policy.Middleware
import McpGateway.Proxy.Endpoints

namespace McpGateway.Proxy

open Shared Policy

-- Decoding into an `any`: every occurrence is read and replaces the one before.
def decodeLast (values : List Json) : Option Value :=
  values.foldlM (fun _ value => (decodeAny value).toOption) .null

-- The MCP server behind the middleware; `accepts` is everything else the library asks of a message.
structure McpServer where
  accepts : Json → Bool
  registry : ToolRegistry

def McpServer.dispatches (server : McpServer) (content : String) : Option (CallEnvelope Value) :=
  match (Json.parse content).filter server.accepts with
  | none => none
  | some json =>
    match decodeEnvelope decodeLast json with
    | none => none
    | some call =>
      if call.method = "tools/call" ∧ server.registry.handler call.name = some .backend then some call else none

def SameArguments (read : Object) : Value → Prop
  | .object entries => ∀ key, read.lookup key = entries.lookup key
  | .null => ∀ key, read.lookup key = none
  | _ => False

/-- Whatever the middleware lets through to a tool handler, it has evaluated and allowed as the handler reads it. -/
def Mediated (engine : Engine) (classifier : Option Classifier) (lookup : Lookup) (identity : Option Identity)
    (server : McpServer) (body : HttpBody) : Prop :=
  match engine.enforce classifier lookup identity body with
  | .denied _ _ => True
  | .unevaluated => server.dispatches body.content = none
  | .allowed request decision => ∀ call ∈ server.dispatches body.content,
    request.toolName = call.name ∧ SameArguments request.arguments call.arguments ∧
      decision = (engine.evaluate classifier request lookup).1 ∧ decision.allowed = true

-- The `arguments` members leave both readers with the same arguments: none but objects and null, and an
-- object that is decoded over others repeats their keys.
def ReadAlike (values : List Json) : Prop :=
  (∀ value ∈ values, value = .null ∨ value.isObject = true) ∧
    ∀ last ∈ values.getLast?, last.isObject = true →
      ∀ prior ∈ values.dropLast.reverse.takeWhile Json.isObject, prior.keys ⊆ last.keys

theorem decodeLast_concat (values : List Json) (last : Json) :
    decodeLast (values ++ [last]) = (decodeLast values).bind fun _ => (decodeAny last).toOption := by
  simp [decodeLast, List.foldlM_append]

theorem decodeMaps_concat (entries : Object) (values : List Json) (last : Json) :
    decodeMaps entries (values ++ [last]) =
      (decodeMaps entries values).bind fun held => (decodeMap held last).toOption := by
  simp [decodeMaps, List.foldlM_append]

inductive DecodesTo (held : Object) : Json → Value → Option Object → Prop where
  | null : DecodesTo held .null .null (some [])
  | object {members : List (String × Json)} {entries merged : Object}
    (keys : ∀ key, (entries.lookup key).isSome ↔ key ∈ members.map Prod.fst)
    (overlaid : ∀ key, merged.lookup key = (entries.lookup key).or (held.lookup key)) :
    DecodesTo held (.object members) (.object entries) (some merged)
  | other {json : Json} {value : Value} (noMap : json ≠ .null ∧ json.isObject = false) : DecodesTo held json value none

variable {json : Json} {value : Value} {values : List Json} {held : Object}

theorem decodesTo (held : Object) (decoded : (decodeAny json).toOption = some value) :
    DecodesTo held json value (decodeMap held json).toOption := by
  cases json with
  | null =>
    rw [decodeAny] at decoded
    cases decoded
    exact .null
  | object members =>
    rw [decodeAny] at decoded
    cases fresh : decodeMembers [] members with
    | error error =>
      rw [fresh] at decoded
      cases decoded
    | ok entries =>
      rw [fresh] at decoded
      cases decoded
      obtain ⟨assigned, keys, merges⟩ := decodeMembers_assigns fresh
      have same : ∀ key, entries.lookup key = assigned.lookup key := by
        obtain ⟨merged, again, found⟩ := merges []
        rw [fresh] at again
        cases again
        simpa using found
      obtain ⟨merged, decoded, found⟩ := merges held
      rw [decodeMap, decoded]
      exact .object (fun key => by rw [same, keys]) fun key => by rw [found, same]
  | bool value => exact .other ⟨nofun, rfl⟩
  | number literal => exact .other ⟨nofun, rfl⟩
  | string value => exact .other ⟨nofun, rfl⟩
  | array items => exact .other ⟨nofun, rfl⟩

section

variable (decoded : decodeLast values = some value)

include decoded

theorem decodeMaps_keys (read : decodeMaps [] values = some held) (key : String) :
    (held.lookup key).isSome ↔ ∃ prior ∈ values.reverse.takeWhile Json.isObject, key ∈ prior.keys := by
  induction values using List.reverseRecOn generalizing value held with
  | nil =>
    cases read
    simp
  | append_singleton values last ih =>
    rw [decodeLast_concat, Option.bind_eq_some_iff] at decoded
    rw [decodeMaps_concat, Option.bind_eq_some_iff] at read
    obtain ⟨before, decodedBefore, decoded⟩ := decoded
    obtain ⟨heldBefore, readBefore, read⟩ := read
    have step := decodesTo heldBefore decoded
    rw [read] at step
    cases step with
    | null => simp
    | object keys overlaid =>
      rw [overlaid, Option.isSome_or, Bool.or_eq_true, keys, ih decodedBefore readBefore]
      simp [List.takeWhile]

theorem decodeMaps_isSome :
    (decodeMaps [] values).isSome ↔ ∀ json ∈ values, json = .null ∨ json.isObject = true := by
  induction values using List.reverseRecOn generalizing value with
  | nil => simp [decodeMaps]
  | append_singleton values last ih =>
    rw [decodeLast_concat, Option.bind_eq_some_iff] at decoded
    obtain ⟨before, decodedBefore, decoded⟩ := decoded
    rw [decodeMaps_concat, List.forall_mem_append, ← ih decodedBefore, List.forall_mem_singleton]
    cases decodeMaps [] values with
    | none => simp
    | some held =>
      have step := decodesTo held decoded
      rw [Option.bind_some]
      generalize (decodeMap held last).toOption = read at step ⊢
      cases step with
      | null => simp
      | object keys overlaid => simp
      | other noMap => simp [noMap]

theorem sameArguments_iff (read : decodeMaps [] values = some held) :
    SameArguments held value ↔ ∀ last ∈ values.getLast?, last.isObject = true →
      ∀ prior ∈ values.dropLast.reverse.takeWhile Json.isObject, prior.keys ⊆ last.keys := by
  cases values using List.reverseRecOn with
  | nil =>
    cases decoded
    cases read
    simp [SameArguments]
  | append_singleton values last =>
    rw [decodeLast_concat, Option.bind_eq_some_iff] at decoded
    rw [decodeMaps_concat, Option.bind_eq_some_iff] at read
    obtain ⟨before, decodedBefore, decoded⟩ := decoded
    obtain ⟨heldBefore, readBefore, read⟩ := read
    have step := decodesTo heldBefore decoded
    rw [read] at step
    cases step with
    | null => simp [SameArguments]
    | @object members entries _ keys overlaid =>
      have inherited := decodeMaps_keys decodedBefore readBefore
      have agree : SameArguments held (.object entries) ↔
          ∀ key, (heldBefore.lookup key).isSome → (entries.lookup key).isSome := by
        refine forall_congr' fun key => ?_
        rw [overlaid]
        cases entries.lookup key with
        | none => cases heldBefore.lookup key <;> simp
        | some value => simp
      rw [agree]
      simp only [keys, inherited, List.getLast?_concat, List.dropLast_concat, Option.mem_some_iff, forall_eq',
        Json.isObject_object, Json.keys_object, forall_true_left]
      constructor
      · exact fun within prior mem key named => within key ⟨prior, mem, named⟩
      · rintro within key ⟨prior, mem, named⟩
        exact within prior mem named

end

theorem decodeEnvelope_dispatched {call : CallEnvelope Value} (decoded : decodeEnvelope decodeLast json = some call) :
    decodeLast (fieldMembers "arguments" call.params) = some call.arguments ∧ decodeEnvelope (decodeMaps []) json =
        (decodeMaps [] (fieldMembers "arguments" call.params)).map fun held =>
          ⟨call.method, call.name, held, call.params⟩ := by
  simp only [decodeEnvelope, Option.bind_eq_bind, Option.bind_eq_some_iff, Option.pure_def, Option.some.injEq] at decoded
  obtain ⟨members, isStruct, method, methodRead, params, paramsRead, name, nameRead, arguments, argumentsRead, rfl⟩ :=
    decoded
  refine ⟨argumentsRead, ?_⟩
  simp only [decodeEnvelope, Option.bind_eq_bind, Option.pure_def, isStruct, methodRead, paramsRead, nameRead,
    Option.bind_some]
  cases decodeMaps [] (fieldMembers "arguments" params) <;> rfl

section

variable {server : McpServer} {content : String} {call : CallEnvelope Value}

section

variable (dispatched : server.dispatches content = some call)

include dispatched

theorem McpServer.dispatches_some :
    ∃ json, Json.parse content = some json ∧ decodeEnvelope decodeLast json = some call ∧
      call.method = "tools/call" := by
  unfold McpServer.dispatches at dispatched
  split at dispatched
  · cases dispatched
  next json parsed =>
    split at dispatched
    · cases dispatched
    next decoded =>
      split_ifs at dispatched with accepted
      cases dispatched
      exact ⟨json, (Option.filter_eq_some_iff.mp parsed).1, decoded, accepted.1⟩

theorem parsePolicyRequest_dispatched (identity : Option Identity) :
    parsePolicyRequest identity content = (decodeMaps [] (fieldMembers "arguments" call.params)).map fun held =>
        policyRequest identity call.name held (callSchema call.params) := by
  obtain ⟨json, parsed, decoded, method⟩ := McpServer.dispatches_some dispatched
  have trimmed : trimSpace "tools/call" = "tools/call" := by decide +kernel
  rw [parsePolicyRequest, parsed, Option.bind_some, (decodeEnvelope_dispatched decoded).2, method]
  cases decodeMaps [] (fieldMembers "arguments" call.params) with
  | none => rfl
  | some held => exact if_pos trimmed

theorem content_ne_empty : content ≠ "" := by
  rintro rfl
  obtain ⟨json, parsed, _⟩ := McpServer.dispatches_some dispatched
  have unparsed : (Json.parse "").isNone = true := by decide +kernel
  simp [parsed] at unparsed

end

end

theorem mediated_dispatched (engine : Engine) (classifier : Option Classifier) (lookup : Lookup)
    (identity : Option Identity) {server : McpServer} {body : HttpBody} {call : CallEnvelope Value}
    (dispatched : server.dispatches body.content = some call) : Mediated engine classifier lookup identity server body ↔
      body.readFailed = false ∧ ∃ held, decodeMaps [] (fieldMembers "arguments" call.params) = some held ∧
        ((engine.evaluate classifier (policyRequest identity call.name held (callSchema call.params)) lookup).1.allowed =
            true → trimSpace call.name = call.name ∧ SameArguments held call.arguments) := by
  unfold Mediated Engine.enforce
  rw [parsePolicyRequest_dispatched dispatched]
  cases failed : body.readFailed with
  | true => simp [dispatched]
  | false =>
    cases decodeMaps [] (fieldMembers "arguments" call.params) with
    | none => simp [dispatched, content_ne_empty dispatched]
    | some held =>
      simp only [Bool.false_eq_true, content_ne_empty dispatched, or_self, if_false, Option.map_some, true_and,
        Option.some.injEq, exists_eq_left']
      by_cases allowed : (engine.evaluate classifier (policyRequest identity call.name held
        (callSchema call.params)) lookup).1.allowed = true
      · simp only [allowed, if_true, dispatched, Option.mem_some_iff, forall_eq', and_true, forall_true_left]
        rfl
      · simp [allowed]

def auditEngine : Engine :=
  ⟨(∅ : GoMap String (Option PolicyProfile)).insert "default" (some { defaultProfile with enforcementMode := .audit }), []⟩

theorem auditEngine_allows (name : String) (arguments : Object) (schema : Option Json) (lookup : Lookup) :
    (auditEngine.evaluate none (policyRequest none name arguments schema) lookup).1.allowed = true := by
  have audits : (auditEngine.resolveProfile "default").enforcementMode = .audit := by decide +kernel
  rw [Engine.evaluate_unclassified, Engine.profileDecision, buildDecision_allowed]
  exact .inr (by simp [policyRequest, policyProfileName, audits, effectiveMode])

/-- Every engine mediates the tool calls of a body exactly when the body was read to its end, the name has no
surrounding space, and the `arguments` read alike as a map and as any value. -/
theorem tool_calls_mediated_iff (server : McpServer) (body : HttpBody) :
    (∀ engine classifier lookup identity, Mediated engine classifier lookup identity server body) ↔
      ∀ call ∈ server.dispatches body.content, body.readFailed = false ∧ trimSpace call.name = call.name ∧
        ReadAlike (fieldMembers "arguments" call.params) := by
  constructor
  · intro mediated call dispatched
    have read := mediated auditEngine none ⟨0, 0, false⟩ none
    obtain ⟨complete, held, decoded, agrees⟩ := (mediated_dispatched _ _ _ _ dispatched).mp read
    obtain ⟨trimmed, same⟩ := agrees (auditEngine_allows _ _ _ _)
    obtain ⟨json, _, envelope, _⟩ := McpServer.dispatches_some dispatched
    have arguments := (decodeEnvelope_dispatched envelope).1
    refine ⟨complete, trimmed, (decodeMaps_isSome arguments).mp (by simp [decoded]), ?_⟩
    exact (sameArguments_iff arguments decoded).mp same
  · intro readable engine classifier lookup identity
    cases dispatched : server.dispatches body.content with
    | none =>
      unfold Mediated
      split <;> simp [dispatched]
    | some call =>
      obtain ⟨complete, trimmed, maps, repeats⟩ := readable call dispatched
      obtain ⟨json, _, envelope, _⟩ := McpServer.dispatches_some dispatched
      have arguments := (decodeEnvelope_dispatched envelope).1
      obtain ⟨held, decoded⟩ := Option.isSome_iff_exists.mp ((decodeMaps_isSome arguments).mpr maps)
      refine (mediated_dispatched _ _ _ _ dispatched).mpr ⟨complete, held, decoded, fun _ => ⟨trimmed, ?_⟩⟩
      exact (sameArguments_iff arguments decoded).mpr repeats

namespace Sample

-- A request says that it is JSON-RPC 2.0 and has an id.
def isRequest (json : Json) : Bool :=
  (structMembers [json]).any fun members =>
    decodeStrings (fieldMembers "jsonrpc" members) = some "2.0" && !(fieldMembers "id" members).isEmpty

def mcpServer : McpServer := ⟨isRequest, ⟨[], ["db.drop_table"], false, false⟩⟩

def guarded : Engine :=
  ⟨(∅ : GoMap String (Option PolicyProfile)).insert "default"
    (some { defaultProfile with toolDenylist := ["db.drop_table"] }), []⟩

def postBody (arguments : String) : HttpBody :=
  ⟨"\x7b\"jsonrpc\":\"2.0\",\"id\":1,\"method\":\"tools/call\",\"params\":\x7b\"name\":\"db.drop_table\"," ++
    "\"arguments\":" ++ arguments ++ "\x7d\x7d", false⟩

end Sample

open Sample

theorem list_arguments_unmediated :
    (mcpServer.dispatches (postBody "[1]").content).map CallEnvelope.name = some "db.drop_table" ∧
      ¬ Mediated guarded none ⟨0, 0, false⟩ none mcpServer (postBody "[1]") := by
  have facts : (mcpServer.dispatches (postBody "[1]").content).map CallEnvelope.name = some "db.drop_table" ∧
      (parsePolicyRequest none (postBody "[1]").content).isNone = true := by
    decide +kernel
  refine ⟨facts.1, ?_⟩
  unfold Mediated Engine.enforce
  rw [Option.isNone_iff_eq_none.mp facts.2, ite_self]
  intro undispatched
  rw [undispatched] at facts
  exact nomatch facts.1

end McpGateway.Proxy
