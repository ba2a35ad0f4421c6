/-
The body of a continuation Job (`continuation/continuation.go`).

A continuation Job names the Run to resume, the revision it was scheduled for and
the committed fact that permits the resumption.  Everybody who schedules or
consumes one passes it through `normalizePayload`, and the queue carries it as
JSON.

* `normalizePayload`, `decodePayload`, `encodePayload` — the payload and its text;
* `normalizePayload_ok` — what an accepted payload satisfies;
* `Failure` — Go errors, as far as `errors.Is` can tell them apart.
-/
import AgentRuntime.Json
import AgentRuntime.KernelTypes

namespace Continuation

open GoString Kernel

/-! ### Errors -/

/-- The errors that the continuation package compares with `errors.Is`, and all
others by their text. -/
inductive Mark where
  | kernelConflict
  | kernelNotFound
  | kernelTerminal
  | kernelInvalidInput
  | relationNotFound
  | invalidInput
  | unsupportedRunKind
  | terminalFenceRequired
  | other (text : GoString)
  deriving DecidableEq, Repr

/-- A non-nil `error`: the errors in its chain. -/
abbrev Failure : Type := List Mark

/-- `errors.Is(err, target)`; nothing is found in a nil error. -/
def errorsIs (err : Option Failure) (target : Mark) : Bool :=
  match err with
  | none => false
  | some failure => target ∈ failure

/-- `errors.Join`: nil only if both are. -/
def errorsJoin : Option Failure → Option Failure → Option Failure
  | none, second => second
  | first, none => first
  | some first, some second => some (first ++ second)

@[simp] lemma errorsJoin_eq_none {first second : Option Failure} :
    errorsJoin first second = none ↔ first = none ∧ second = none := by
  cases first <;> cases second <;> simp [errorsJoin]

/-! ### Payloads -/

/-- The committed fact that permits a Run to resume. -/
inductive Trigger where
  | childTerminal
  | approvalResolved
  | modelReady
  | waitResolved
  | segmentYielded
  | toolWaitDeadline
  | toolResultReady
  | runReady
  | other (name : GoString)
  deriving DecidableEq, Repr

/-- `string(trigger)`. -/
def Trigger.text : Trigger → GoString
  | childTerminal => lit "child_terminal"
  | approvalResolved => lit "approval_resolved"
  | modelReady => lit "model_ready"
  | waitResolved => lit "wait_resolved"
  | segmentYielded => lit "segment_yielded"
  | toolWaitDeadline => lit "tool_wait_deadline"
  | toolResultReady => lit "tool_result_ready"
  | runReady => lit "run_ready"
  | other name => name

/-- The triggers `validTrigger` accepts. -/
def Trigger.known : List Trigger :=
  [.childTerminal, .approvalResolved, .modelReady, .waitResolved, .segmentYielded, .runReady,
    .toolWaitDeadline, .toolResultReady]

/-- `Trigger(text)`. -/
def Trigger.ofText (text : GoString) : Trigger :=
  (Trigger.known.find? fun trigger => trigger.text == text).getD (.other text)

def validTrigger (trigger : Trigger) : Bool := trigger ∈ Trigger.known

@[ext] structure Payload where
  schemaVersion : ℤ
  runID : GoString
  expectedRevision : UInt64
  trigger : Trigger
  sourceRunID : GoString
  sourceRevision : UInt64
  waitGeneration : UInt64 := 0
  deriving DecidableEq, Repr

/-- `SchemaVersion`. -/
def currentSchema : ℤ := 1

/-- The blanks `normalizePayload` strips and the version it fills in. -/
def trimPayload (p : Payload) : Payload :=
  { p with
    runID := trimSpace p.runID
    sourceRunID := trimSpace p.sourceRunID
    trigger := .ofText (trimSpace p.trigger.text)
    schemaVersion := if p.schemaVersion = 0 then currentSchema else p.schemaVersion }

/-- The checks of `normalizePayload` on the trimmed payload. -/
def validPayload (p : Payload) : Bool :=
  !(p.schemaVersion ≠ currentSchema || p.runID = [] || p.sourceRunID = [] ||
      p.expectedRevision = 0 || p.sourceRevision = 0 || !validTrigger p.trigger) &&
    !((p.trigger = .toolWaitDeadline || p.trigger = .toolResultReady) && p.waitGeneration = 0) &&
    !(p.trigger ≠ .childTerminal &&
      (p.sourceRunID ≠ p.runID || p.sourceRevision ≠ p.expectedRevision)) &&
    !(p.trigger = .childTerminal && p.sourceRunID = p.runID)

def normalizePayload (p : Payload) : Except Failure Payload :=
  if validPayload (trimPayload p) then .ok (trimPayload p) else .error [.invalidInput]

/-- What the consumers of a payload rely on. -/
structure Normal (p : Payload) : Prop where
  schema : p.schemaVersion = currentSchema
  run : p.runID ≠ []
  source : p.sourceRunID ≠ []
  expected : p.expectedRevision ≠ 0
  sourceRevision : p.sourceRevision ≠ 0
  trigger : p.trigger ∈ Trigger.known
  waits : p.trigger = .toolWaitDeadline ∨ p.trigger = .toolResultReady → p.waitGeneration ≠ 0
  own : p.trigger ≠ .childTerminal →
    p.sourceRunID = p.runID ∧ p.sourceRevision = p.expectedRevision
  child : p.trigger = .childTerminal → p.sourceRunID ≠ p.runID

variable {p : Payload}

lemma validPayload_iff : validPayload p = true ↔ Normal p := by
  simp only [validPayload, validTrigger, Bool.and_eq_true, Bool.not_eq_true', Bool.or_eq_false_iff,
    Bool.and_eq_false_iff, decide_eq_false_iff_not, ne_eq, not_not, decide_eq_true_eq,
    Bool.not_eq_false']
  constructor
  · rintro ⟨⟨⟨⟨⟨⟨⟨⟨hschema, hrun⟩, hsource⟩, hexpected⟩, hrevision⟩, htrigger⟩, hwaits⟩, hown⟩, hchild⟩
    refine ⟨hschema, hrun, hsource, hexpected, hrevision, htrigger, ?_, ?_, ?_⟩
    · rintro (h | h) <;> rcases hwaits with hwaits | hwaits <;> simp_all
    · intro h
      rcases hown with hown | hown
      · exact absurd hown h
      · exact hown
    intro h
    rcases hchild with hchild | hchild
    · exact absurd h hchild
    · exact hchild
  · intro h
    refine ⟨⟨⟨⟨⟨⟨⟨⟨h.schema, h.run⟩, h.source⟩, h.expected⟩, h.sourceRevision⟩, h.trigger⟩, ?_⟩, ?_⟩, ?_⟩
    · by_cases hwait : p.trigger = .toolWaitDeadline ∨ p.trigger = .toolResultReady
      · exact .inr (h.waits hwait)
      · exact .inl (not_or.mp hwait)
    · by_cases hchild : p.trigger = .childTerminal
      · exact .inl hchild
      · exact .inr (h.own hchild)
    by_cases hchild : p.trigger = .childTerminal
    · exact .inr (h.child hchild)
    · exact .inl hchild

theorem normalizePayload_ok {q : Payload} (h : normalizePayload p = .ok q) :
    q = trimPayload p ∧ Normal q := by
  rw [normalizePayload] at h
  split at h
  · rename_i hvalid
    cases h
    exact ⟨rfl, validPayload_iff.mp hvalid⟩
  · cases h

/-! ### The payload as JSON -/

/-- `json.Marshal(payload)`; a zero `waitGeneration` is left out. -/
def encodePayload (p : Payload) : RawMessage :=
  GoJson.render (.object ([
    (lit "schemaVersion", .number (formatInt p.schemaVersion)),
    (lit "runID", .string p.runID),
    (lit "expectedRevision", .number (formatUint p.expectedRevision.toNat)),
    (lit "trigger", .string p.trigger.text),
    (lit "sourceRunID", .string p.sourceRunID),
    (lit "sourceRevision", .number (formatUint p.sourceRevision.toNat))] ++
    if p.waitGeneration = 0 then []
    else [(lit "waitGeneration", .number (formatUint p.waitGeneration.toNat))]))

/-- `json.Unmarshal` into a `Payload`. -/
def unmarshalPayload (data : RawMessage) : Option Payload :=
  match GoJson.parse data with
  | some .null => some ⟨0, [], 0, .other [], [], 0, 0⟩
  | some (.object members) => do
    let schemaVersion ← GoJson.decodeInt64 0 (GoJson.membersNamed (lit "schemaVersion") members)
    let runID ← GoJson.decodeString [] (GoJson.membersNamed (lit "runID") members)
    let expectedRevision ←
      GoJson.decodeUint64 0 (GoJson.membersNamed (lit "expectedRevision") members)
    let trigger ← GoJson.decodeString [] (GoJson.membersNamed (lit "trigger") members)
    let sourceRunID ← GoJson.decodeString [] (GoJson.membersNamed (lit "sourceRunID") members)
    let sourceRevision ← GoJson.decodeUint64 0 (GoJson.membersNamed (lit "sourceRevision") members)
    let waitGeneration ← GoJson.decodeUint64 0 (GoJson.membersNamed (lit "waitGeneration") members)
    return ⟨schemaVersion, runID, expectedRevision, .ofText trigger, sourceRunID, sourceRevision,
      waitGeneration⟩
  | _ => none

def decodePayload (encoded : RawMessage) : Except Failure Payload :=
  match unmarshalPayload encoded with
  | none => .error [.invalidInput, .other (lit "json")]
  | some payload => normalizePayload payload

end Continuation
