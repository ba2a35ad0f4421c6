/-
Run feed events as the HTTP adapter shows them (`agent-runtime-http/public_diagnostics.go`).

Events of tools, approvals, models and of the discovery of tools are rebuilt from the few
fields that are public.  All other events go through the general projection of their payload.

* **`publicRunFeedEvent_same`** — nothing else of the data, the message and the delta matters;
* **`public_projection`** — the projections do not depend on private data.
-/
import AgentRuntime.JsonLayout
import AgentRuntime.KernelTypes
import AgentRuntime.PublicDiagnostics

namespace PublicHTTP

open GoString GoJson Kernel Option

/-! ### Events -/

/-- `runfeed.Event`. -/
structure RunFeedEvent where
  seq : ℤ
  runID : GoString
  type : GoString
  delta : GoString
  message : GoString
  data : RawMessage
  revision : UInt64
  status : GoString
  terminal : Bool
  createdAt : Time
  deriving DecidableEq, Repr

/-- `PublicEventMessage`. -/
def publicEventMessage (eventType status message : GoString) : GoString :=
  let normalized := Model.lowerASCII (trimSpace eventType)
  let status := Model.lowerASCII (trimSpace status)
  if status = lit "failed" ∨ status = lit "cancelled" ∨ (lit ".failed").isSuffixOf normalized ∨
      (lit ".cancelled").isSuffixOf normalized ∨ (lit ".error").isSuffixOf normalized ∨
      (lit ".rejected").isSuffixOf normalized then
    if status = lit "cancelled" ∨ (lit ".cancelled").isSuffixOf normalized then
      publicFailureDetail (lit "run.cancelled") message
    else publicFailureDetail publicUnknownFailureCode message
  else message

/-- The characters of a tool key. -/
def isToolKeyByte (b : UInt8) : Bool :=
  (0x61 ≤ b && b ≤ 0x7A) || (0x41 ≤ b && b ≤ 0x5A) || (0x30 ≤ b && b ≤ 0x39) ||
    b == 0x2E || b == 0x2D || b == 0x5F || b == 0x3A

/-- `publicToolFeedKey`; the characters that are allowed are single bytes. -/
def publicToolFeedKey (value : GoString) : GoString :=
  let value := trimSpace value
  if value = [] ∨ 160 < value.length then []
  else if value.all isToolKeyByte then value else []

section Project

variable (sha256 : GoString → GoString)

/-- `publicToolCallID`. -/
def publicToolCallID (runID callID : GoString) : GoString :=
  if trimSpace callID = [] then []
  else lit "call_" ++ hexEncode ((sha256 (runID ++ [0x00] ++ callID)).take 8)

/-- The members of a text that is decoded into a struct. -/
def dataFields (data : RawMessage) : Option (List (GoString × Value)) := (parse data).bind Value.fields

/-- A string field of a struct. -/
def stringField (name : GoString) (ms : List (GoString × Value)) : Option GoString :=
  decodeString [] (membersNamed name ms)

/-- The call and the tool that the data of a tool event name. -/
def namedToolCall (data : RawMessage) : Option (GoString × GoString) := do
  let ms ← dataFields data
  let id ← stringField (lit "id") ms
  let callID ← stringField (lit "callID") ms
  let toolKey ← stringField (lit "toolKey") ms
  let executionID ← stringField (lit "executionID") ms
  let callID := if callID = [] then id else callID
  return (if callID = [] then executionID else callID, toolKey)

def toolStatus (e : RunFeedEvent) : GoString :=
  if e.type = lit "tool.requested" then lit "requested"
  else if e.type = lit "tool.started" then lit "running"
  else if e.type = lit "tool.pending" then lit "pending"
  else if e.message ≠ [] then lit "needs_correction"
  else lit "completed"

/-- `publicToolRunFeedData`. -/
def publicToolRunFeedData (e : RunFeedEvent) : RawMessage :=
  match namedToolCall e.data with
  | none => []
  | some (callID, toolKey) => render (struct [
      (lit "callID", omitEmpty (publicToolCallID sha256 e.runID callID)),
      (lit "toolKey", omitEmpty (publicToolFeedKey toolKey)),
      (lit "status", some (.string (toolStatus e)))])

/-- The code and the count that the data of a discovery name. -/
def namedProgress (data : RawMessage) : Option (GoString × ℤ) := do
  let ms ← dataFields data
  let code ← stringField (lit "code") ms
  let count ← decodeInt64 0 (membersNamed (lit "count") ms)
  return (code, count)

def progressText (summary : GoString) : RawMessage :=
  render (struct [(lit "title", some (.string (lit "Tool discovery"))),
    (lit "summary", some (.string summary))])

/-- `publicDiscoveryProgress`. -/
def publicDiscoveryProgress (value : RawMessage) : RawMessage :=
  match namedProgress value with
  | none => []
  | some (code, count) =>
    if count < 0 ∨ 5 < count then []
    else if code = lit "tool_discovery.empty" then
      if count ≠ 0 then [] else progressText (lit "No matching authorized tools found")
    else if code = lit "tool_discovery.matched" then
      if count = 0 then []
      else progressText (lit "Matched " ++ formatInt count ++ lit " authorized tools")
    else []

/-- The identity of a checkpoint, and the call and the tool that its payload names. -/
structure Approval where
  id : GoString
  kind : GoString
  status : GoString
  call : Option (GoString × GoString)
  deriving DecidableEq, Repr

def namedCall (payload : Value) : Option (GoString × GoString) := do
  let ms ← payload.fields
  let toolCallID ← stringField (lit "toolCallID") ms
  let toolKey ← stringField (lit "toolKey") ms
  return (toolCallID, toolKey)

def namedApproval (data : RawMessage) : Option Approval := do
  let ms ← dataFields data
  let id ← stringField (lit "id") ms
  let kind ← stringField (lit "kind") ms
  let status ← stringField (lit "status") ms
  return ⟨id, kind, status, (memberValue (lit "payload") ms).bind namedCall⟩

/-- `publicRunFeedApprovalData`. -/
def publicRunFeedApprovalData (e : RunFeedEvent) : RawMessage :=
  match namedApproval e.data with
  | none => []
  | some checkpoint =>
    if checkpoint.kind ≠ lit "tool_approval" ∨ checkpoint.status ≠ lit "pending" ∨
        checkpoint.id = [] ∨ 128 < checkpoint.id.length ∨
        publicToolFeedKey checkpoint.id ≠ checkpoint.id then []
    else
      match checkpoint.call with
      | none => []
      | some (toolCallID, toolKey) => render (struct [
          (lit "id", some (.string checkpoint.id)), (lit "kind", some (.string checkpoint.kind)),
          (lit "status", some (.string checkpoint.status)),
          (lit "toolCallID", omitEmpty (publicToolCallID sha256 e.runID toolCallID)),
          (lit "toolKey", omitEmpty (publicToolFeedKey toolKey))])

def discoveryTypes : List GoString := [lit "activity.user"]

def toolTypes : List GoString :=
  [lit "tool.requested", lit "tool.started", lit "tool.completed", lit "tool.pending"]

def approvalTypes : List GoString := [lit "interaction.required"]

def modelTypes : List GoString := [lit "model.started", lit "model.delta", lit "model.completed"]

/-- `publicRunFeedEvent`. -/
def publicRunFeedEvent (e : RunFeedEvent) : RunFeedEvent :=
  if e.type ∈ discoveryTypes then
    { e with data := publicDiscoveryProgress e.data, message := [], delta := [] }
  else if e.type ∈ toolTypes then
    { e with data := publicToolRunFeedData sha256 e, message := [], delta := [] }
  else if e.type ∈ approvalTypes then
    { e with data := publicRunFeedApprovalData sha256 e, message := [], delta := [] }
  else if e.type ∈ modelTypes then { e with data := [], message := [] }
  else
    { e with
      message := publicEventMessage e.type e.status e.message
      data := publicDiagnosticPayload e.data }

end Project

/-! ### What an event is shown for -/

/-- Events that differ at most in their data, message and delta. -/
structure SameEnvelope (e e' : RunFeedEvent) : Prop where
  seq : e'.seq = e.seq
  runID : e'.runID = e.runID
  type : e'.type = e.type
  revision : e'.revision = e.revision
  status : e'.status = e.status
  terminal : e'.terminal = e.terminal
  createdAt : e'.createdAt = e.createdAt

/-- The fields that the projection of the type names. -/
def SameNamed (e e' : RunFeedEvent) : Prop :=
  (e.type ∈ discoveryTypes ∧ namedProgress e.data = namedProgress e'.data) ∨
  (e.type ∈ toolTypes ∧ namedToolCall e.data = namedToolCall e'.data ∧
    (e.message = [] ↔ e'.message = [])) ∨
  (e.type ∈ approvalTypes ∧ namedApproval e.data = namedApproval e'.data) ∨
  (e.type ∈ modelTypes ∧ e.delta = e'.delta)

variable {sha256 : GoString → GoString} {e e' : RunFeedEvent} {data data' : RawMessage}

/-- **Nothing else matters.** -/
theorem publicRunFeedEvent_same (henvelope : SameEnvelope e e')
    (hnamed : SameNamed e e') : publicRunFeedEvent sha256 e = publicRunFeedEvent sha256 e' := by
  obtain ⟨htool, happrove, hmodel⟩ : (∀ t ∈ toolTypes, t ∉ discoveryTypes) ∧
      (∀ t ∈ approvalTypes, t ∉ discoveryTypes ∧ t ∉ toolTypes) ∧
      ∀ t ∈ modelTypes, t ∉ discoveryTypes ∧ t ∉ toolTypes ∧ t ∉ approvalTypes := by decide +kernel
  obtain ⟨_, _, _, _, _, _, _, _, _, _⟩ := e
  obtain ⟨_, _, _, _, _, _, _, _, _, _⟩ := e'
  obtain ⟨rfl, rfl, rfl, rfl, rfl, rfl, rfl⟩ := henvelope
  simp only [SameNamed] at hnamed
  rcases hnamed with ⟨htype, hprogress⟩ | ⟨htype, hcall, hmessage⟩ | ⟨htype, happroval⟩ |
      ⟨htype, hdelta⟩
  · simp [publicRunFeedEvent, htype, publicDiscoveryProgress, hprogress]
  · simp [publicRunFeedEvent, htool _ htype, htype, publicToolRunFeedData, hcall, toolStatus, hmessage]
  · simp [publicRunFeedEvent, happrove _ htype, htype, publicRunFeedApprovalData, happroval]
  · simp [publicRunFeedEvent, hmodel _ htype, htype, hdelta]

/-- Two data objects that have the same members of these names. -/
def SameFields (names : List GoString) (data data' : RawMessage) : Prop :=
  ∃ ms ms', dataFields data = some ms ∧ dataFields data' = some ms' ∧
    ∀ name ∈ names, membersNamed name ms = membersNamed name ms'

lemma stringField_same {names : List GoString} {ms ms' : List (GoString × Value)} {name : GoString}
    (h : ∀ name ∈ names, membersNamed name ms = membersNamed name ms') (hname : name ∈ names) :
    stringField name ms = stringField name ms' := by
  rw [stringField, stringField, h name hname]

lemma namedToolCall_same
    (h : SameFields [lit "id", lit "callID", lit "toolKey", lit "executionID"] data data') :
    namedToolCall data = namedToolCall data' := by
  obtain ⟨_, _, hms, hms', hsame⟩ := h
  have hfield := fun k => @stringField_same _ _ _ k hsame
  simp [namedToolCall, hms, hms', bind_eq_bind, bind_some, hfield]

lemma namedProgress_same
    (h : SameFields [lit "code", lit "count"] data data') : namedProgress data = namedProgress data' := by
  obtain ⟨_, _, hms, hms', hsame⟩ := h
  have hcode := stringField_same hsame (by simp : lit "code" ∈ _)
  have hcount := hsame (lit "count") (by simp)
  simp [namedProgress, hms, hms', bind_eq_bind, bind_some, hcode, hcount]

/-- Approvals that have the same identity and name the same call. -/
def SameApproval (data data' : RawMessage) : Prop :=
  ∃ ms ms', dataFields data = some ms ∧ dataFields data' = some ms' ∧
    (∀ name ∈ [lit "id", lit "kind", lit "status"], membersNamed name ms = membersNamed name ms') ∧
    (memberValue (lit "payload") ms).bind namedCall = (memberValue (lit "payload") ms').bind namedCall

lemma namedApproval_same (h : SameApproval data data') :
    namedApproval data = namedApproval data' := by
  obtain ⟨_, _, hms, hms', hsame, hcall⟩ := h
  have hfield := fun k => @stringField_same _ _ _ k hsame
  simp [namedApproval, hms, hms', bind_eq_bind, bind_some, hfield, hcall]

/-- Events whose data are objects with the same members of the names in question. -/
def SameData (e e' : RunFeedEvent) : Prop :=
  (e.type ∈ discoveryTypes ∧ SameFields [lit "code", lit "count"] e.data e'.data) ∨
  (e.type ∈ toolTypes ∧
    SameFields [lit "id", lit "callID", lit "toolKey", lit "executionID"] e.data e'.data ∧
    (e.message = [] ↔ e'.message = [])) ∨
  (e.type ∈ approvalTypes ∧ SameApproval e.data e'.data)

lemma SameData.named (h : SameData e e') : SameNamed e e' := by
  rcases h with ⟨htype, hfields⟩ | ⟨htype, hfields, hmessage⟩ | ⟨htype, happroval⟩
  · exact .inl ⟨htype, namedProgress_same hfields⟩
  · exact .inr (.inl ⟨htype, namedToolCall_same hfields, hmessage⟩)
  · exact .inr (.inr (.inl ⟨htype, namedApproval_same happroval⟩))

/-! ### The whole statement -/

lemma follow_append (v : Value) (path rest : List Step) :
    follow v (path ++ rest) = (follow v path).bind fun w => follow w rest := by
  induction path generalizing v with
  | nil => rfl
  | cons s _ ih =>
    rw [List.cons_append, follow, follow]
    cases child v s with
    | none => rfl
    | some w => exact ih w

/-- **Public projections do not depend on private data.**  The values under hidden keys do not
matter; everything else is kept but for failures that are no objects and failure codes, which are
bounded or, if they are no strings, deleted; a second projection changes nothing; and an event
is shown for what its projection names. -/
theorem public_projection :
    (∀ s t v w, parse s = some v → parse t = some w → Same .diagnostic v w →
      publicDiagnosticPayload s = publicDiagnosticPayload t) ∧
    (∀ s v, parse s = some v → ∃ out, parse (publicDiagnosticPayload s) = some out ∧
      (∀ path mode, modeAt .diagnostic v path = some mode →
        follow out path = (follow v path).map fun w => strip mode (generic w)) ∧
      ∀ path mode w key, modeAt .diagnostic v path = some mode → follow v path = some w →
        hidden mode key = false → coded mode key = true →
        follow out (path ++ [.key key]) = (child w (.key key)).bind shownCode) ∧
    (∀ s, publicDiagnosticPayload (publicDiagnosticPayload s) = publicDiagnosticPayload s) ∧
    (∀ (sha256 : GoString → GoString) (e e' : RunFeedEvent), SameEnvelope e e' → SameNamed e e' →
      publicRunFeedEvent sha256 e = publicRunFeedEvent sha256 e') ∧
    (∀ (sha256 : GoString → GoString) (e e' : RunFeedEvent), SameEnvelope e e' → SameData e e' →
      publicRunFeedEvent sha256 e = publicRunFeedEvent sha256 e') := by
  refine ⟨fun s t v w hs ht h => publicDiagnosticPayload_same hs ht h, ?_,
    publicDiagnosticPayload_again, fun _ _ _ => publicRunFeedEvent_same,
    fun _ _ _ henvelope hdata => publicRunFeedEvent_same henvelope hdata.named⟩
  intro s v hs
  refine ⟨_, parse_publicDiagnosticPayload hs, fun path mode => follow_strip, ?_⟩
  intro _ _ w _ hmode hw hhidden hcoded
  have hpath := follow_strip hmode
  rw [hw, map_some] at hpath
  rw [follow_append, hpath]
  show (child _ _).bind some = _
  rw [bind_fun_some, child_strip_code w hhidden hcoded]

/-- The payload of a Run that failed, with the texts of the failure and of a nested error. -/
def failedPayload (detail error : String) : GoString :=
  lit "\x7b\"failure\":\x7b\"code\":\"agent.tool_failed\",\"Detail\":\"" ++ lit detail ++
    lit "\"\x7d,\"steps\":[\x7b\"n\":1.50,\"er-ror\":\"" ++ lit error ++ lit "\"\x7d]\x7d"

theorem public_projection_failed :
    publicDiagnosticPayload (failedPayload "dial tcp 10.0.0.7" "key sk-1") =
      publicDiagnosticPayload (failedPayload "" "other") := by
  have hs : parse (failedPayload "dial tcp 10.0.0.7" "key sk-1") = some (.object [
      (lit "failure", .object [(lit "code", .string (lit "agent.tool_failed")),
        (lit "Detail", .string (lit "dial tcp 10.0.0.7"))]),
      (lit "steps", .array [.object [(lit "n", .number (lit "1.50")),
        (lit "er-ror", .string (lit "key sk-1"))]])]) := by rfl
  have ht : parse (failedPayload "" "other") = some (.object [
      (lit "failure", .object [(lit "code", .string (lit "agent.tool_failed")),
        (lit "Detail", .string (lit ""))]),
      (lit "steps", .array [.object [(lit "n", .number (lit "1.50")),
        (lit "er-ror", .string (lit "other"))]])]) := by rfl
  refine public_projection.1 _ _ _ _ hs ht ?_
  have hfailure : innerMode .diagnostic (lit "failure") = .failure := by decide +kernel
  have hsteps : innerMode .diagnostic (lit "steps") = .diagnostic := by decide +kernel
  have hdetail : hidden .failure (lit "Detail") = true := by decide +kernel
  have herror : hidden .diagnostic (lit "er-ror") = true := by decide +kernel
  simp [Same, SameMembers, SameItems, hfailure, hsteps, hdetail, herror]

/-- **A failure that is no object** is not kept, and neither is a failure code that is not among
the public ones. -/
theorem public_projection_bounded :
    hidden .diagnostic (lit "failure") = false ∧ hidden .diagnostic (lit "errorCode") = false ∧
    publicDiagnosticPayload (lit "\x7b\"failure\":\"boom\"\x7d") = lit "\x7b\x7d" ∧
    publicDiagnosticPayload (lit "\x7b\"errorCode\":7\x7d") = lit "\x7b\x7d" ∧
    publicDiagnosticPayload (lit "\x7b\"errorCode\":\"boom\"\x7d") =
      lit "\x7b\"errorCode\":\"execution.failed\"\x7d" := by
  decide +kernel

end PublicHTTP
