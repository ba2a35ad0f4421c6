/-
The durable state of a Workflow Run, and everything the interpreter computes from it
(`workflow/execution.go`, `workflow/execution_advanced.go`).

The state is encoded as JSON with every commit and decoded with every reading.  What is
read back is the state that was written, but for the strings and raw texts that come
from executors and hosts: bytes that are no UTF-8 become U+FFFD, and raw texts lose
their blanks and get their escapes for HTML (`State.stored`).
-/
import AgentRuntime.WorkflowDefinition
import AgentRuntime.JsonLayout

namespace Workflow

open GoString GoJson
open Kernel (RawMessage RunStatus ActorRef ThreadRef)

/-! ### The state -/

inductive ActivationStatus where
  | running
  | waiting
  | completed
  | failed
  deriving DecidableEq, Repr

inductive EffectStatus where
  | pending
  | completed
  | failed
  deriving DecidableEq, Repr

inductive WaitStatus where
  | pending
  | resolved
  deriving DecidableEq, Repr

inductive CompensationStatus where
  | pending
  | running
  | completed
  | failed
  deriving DecidableEq, Repr

/-- One node attempt. -/
structure Activation where
  id : GoString
  nodeID : GoString
  nodeIndex : ℕ
  status : ActivationStatus
  attempt : ℤ := 1
  effectID : GoString := []
  effectIDs : List GoString := []
  waitID : GoString := []
  output : RawMessage := []
  errorCode : GoString := []
  error : GoString := []
  deriving DecidableEq, Repr

/-- One stable external intent with its terminal receipt. -/
structure Effect where
  id : GoString
  activationID : GoString := []
  nodeID : GoString
  effectClass : EffectClass
  kind : GoString
  revision : GoString := []
  definition : Option DefinitionReference := none
  outputKey : GoString := []
  mapIndex : ℕ := 0
  mapped : Bool := false
  compensation : Bool := false
  input : RawMessage
  maxCostUnits : Int64
  costUnits : Int64 := 0
  nestedDepth : ℤ
  attempt : ℤ := 1
  retry : RetryPolicy
  status : EffectStatus := .pending
  childRunID : GoString := []
  receiptID : GoString := []
  output : RawMessage := []
  errorCode : GoString := []
  error : GoString := []
  deriving DecidableEq, Repr

/-- One suspension that the host resolves. -/
structure Wait where
  id : GoString
  activationID : GoString
  nodeID : GoString
  kind : GoString
  payload : RawMessage
  status : WaitStatus
  response : RawMessage := []
  deriving DecidableEq, Repr

/-- The durable ledger; the size of the state is recorded there too, but nothing reads it. -/
structure Budget where
  nodeActivations : ℕ := 0
  effects : ℕ := 0
  segments : ℕ := 0
  costUnitsUsed : Int64 := 0
  costUnitsReserved : Int64 := 0
  deriving DecidableEq, Repr

/-- One registered undo call. -/
structure Compensation where
  id : GoString
  nodeID : GoString
  call : EffectCall
  input : RawMessage
  status : CompensationStatus
  effectID : GoString := []
  receiptID : GoString := []
  errorCode : GoString := []
  error : GoString := []
  deriving DecidableEq, Repr

/-- The terminal request that is kept while compensations run. -/
structure FailureIntent where
  status : RunStatus
  code : GoString
  detail : GoString
  deriving DecidableEq, Repr

/-- `executionState`. -/
structure State where
  definition : Definition
  input : RawMessage
  nestedDepth : ℤ := 0
  currentNode : ℕ := 0
  activations : List Activation := []
  effects : List Effect := []
  waits : List Wait := []
  currentWaitID : GoString := []
  compensations : List Compensation := []
  failure : Option FailureIntent := none
  budget : Budget := {}
  deriving DecidableEq, Repr

/-! ### Writing and reading back -/

/-- A raw text that is left out if it is empty. -/
def keepRaw (s : RawMessage) : RawMessage := if s = [] then [] else storedRaw s

def Activation.stored (a : Activation) : Activation :=
  { a with
    output := keepRaw a.output
    errorCode := toValidUTF8 a.errorCode
    error := toValidUTF8 a.error }

def Effect.stored (e : Effect) : Effect :=
  { e with
    input := storedRaw e.input
    childRunID := toValidUTF8 e.childRunID
    receiptID := toValidUTF8 e.receiptID
    output := keepRaw e.output
    errorCode := toValidUTF8 e.errorCode
    error := toValidUTF8 e.error }

def Wait.stored (w : Wait) : Wait :=
  { w with payload := storedRaw w.payload, response := keepRaw w.response }

def Compensation.stored (c : Compensation) : Compensation :=
  { c with
    input := storedRaw c.input
    receiptID := toValidUTF8 c.receiptID
    errorCode := toValidUTF8 c.errorCode
    error := toValidUTF8 c.error }

def FailureIntent.stored (f : FailureIntent) : FailureIntent :=
  { f with code := toValidUTF8 f.code, detail := toValidUTF8 f.detail }

/-- The state after it was encoded and decoded.  Identifiers are valid UTF-8, and so is
everything that comes from a Definition that was itself read back. -/
def State.stored (s : State) : State :=
  { s with
    input := storedRaw s.input
    activations := s.activations.map Activation.stored
    effects := s.effects.map Effect.stored
    waits := s.waits.map Wait.stored
    compensations := s.compensations.map Compensation.stored
    failure := s.failure.map FailureIntent.stored }

def ValueSource.stored (source : ValueSource) : ValueSource :=
  { source with nodeID := toValidUTF8 source.nodeID, pointer := toValidUTF8 source.pointer }

def RetryPolicy.stored (policy : RetryPolicy) : RetryPolicy :=
  { policy with retryableErrorCodes := policy.retryableErrorCodes.map toValidUTF8 }

def DefinitionReference.stored (reference : DefinitionReference) : DefinitionReference :=
  { reference with id := toValidUTF8 reference.id, hash := toValidUTF8 reference.hash }

def EffectCall.stored (call : EffectCall) : EffectCall :=
  { call with
    kind := toValidUTF8 call.kind
    revision := toValidUTF8 call.revision
    input := call.input.stored
    definition := call.definition.map DefinitionReference.stored
    retry := call.retry.stored }

def CallNode.stored (node : CallNode) : CallNode :=
  { node with
    key := toValidUTF8 node.key
    revision := toValidUTF8 node.revision
    input := node.input.stored
    retry := node.retry.stored }

def NodeBody.stored : NodeBody → NodeBody
  | .effect node => .effect { node with
      kind := toValidUTF8 node.kind
      source := node.source.map ValueSource.stored
      retry := node.retry.stored }
  | .agentTask node => .agentTask node.stored
  | .applicationEffect node => .applicationEffect node.stored
  | .mediaEffect node => .mediaEffect node.stored
  | .wait node => .wait { node with
      kind := toValidUTF8 node.kind
      source := node.source.map ValueSource.stored }
  | .branch node => .branch {
      condition := node.condition.stored
      thenNodeID := toValidUTF8 node.thenNodeID
      elseNodeID := toValidUTF8 node.elseNodeID }
  | .parallel node => .parallel { node with
      branches := node.branches.map fun branch => ⟨toValidUTF8 branch.id, branch.call.stored⟩ }
  | .map node => .map { node with items := node.items.stored, call := node.call.stored }
  | .subworkflow node => .subworkflow { node with
      definition := node.definition.stored
      input := node.input.stored
      retry := node.retry.stored }
  | .compensation node => .compensation ⟨node.doCall.stored, node.undo.stored⟩
  | .ret node => .ret { node with
      fromNode := toValidUTF8 node.fromNode
      source := node.source.map ValueSource.stored }

/-- The Definition after it was encoded and decoded.  The raw texts of a compiled
Definition are canonical and stay as they are. -/
def Definition.stored (definition : Definition) : Definition :=
  { definition with
    id := toValidUTF8 definition.id
    name := toValidUTF8 definition.name
    nodes := definition.nodes.map fun node =>
      ⟨toValidUTF8 node.id, toValidUTF8 node.next, node.body.stored⟩
    policy := { definition.policy with
      requiredPermissions := definition.policy.requiredPermissions.map toValidUTF8 }
    hash := toValidUTF8 definition.hash }

/-- Reading a Definition back does not touch its prices and attempts. -/
theorem NodeBody.Sound.stored {body : NodeBody} (h : body.Sound) : body.stored.Sound := by
  refine h.of_calls id (fun _ hn => hn) ?_
  cases body with
  | parallel => simp [NodeBody.stored, NodeBody.calls, EffectCall.stored, RetryPolicy.stored]
  | _ => rfl

theorem DefinitionDraft.Sound.stored {definition : Definition}
    (h : definition.toDefinitionDraft.Sound) : definition.stored.toDefinitionDraft.Sound := by
  exact { h with calls := List.forall_mem_map.mpr fun node hnode => (h.calls node hnode).stored }

/-! ### Errors -/

/-- An error: its text, and what `errors.Is` finds in it. -/
structure GoError where
  text : GoString
  forbidden : Bool := false
  unavailable : Bool := false
  deriving DecidableEq, Repr

/-- `errors.Join` of errors that are there. -/
def GoError.and (a b : GoError) : GoError where
  text := a.text ++ lit "\n" ++ b.text
  forbidden := a.forbidden || b.forbidden
  unavailable := a.unavailable || b.unavailable

def errInvalidExecution : GoError := ⟨lit "invalid workflow execution", false, false⟩
def errEffectPending : GoError := ⟨lit "workflow effect is pending", false, false⟩
def errEffectFailed : GoError := ⟨lit "workflow effect failed", false, false⟩
def errWaitPending : GoError := ⟨lit "workflow wait is pending", false, false⟩
def errSegmentYielded : GoError := ⟨lit "workflow segment yielded", false, false⟩
def errBudgetExceeded : GoError := ⟨lit "workflow budget exceeded", false, false⟩
def errWorkflowTerminal : GoError := ⟨lit "workflow run is terminal", false, false⟩
def errInputSchema : GoError := ⟨lit "workflow input violates definition schema", false, false⟩
def errOutputSchema : GoError := ⟨lit "workflow output violates definition schema", false, false⟩
def errCancellationRequested : GoError := ⟨lit "workflow cancellation requested", false, false⟩
def errConflict : GoError := ⟨lit "kernel run revision conflict", false, false⟩

/-! ### Values -/

/-- `strings.ReplaceAll` for a pattern of two bytes. -/
def replacePair (a b : UInt8) (new : UInt8) : GoString → GoString
  | x :: y :: rest =>
    if x = a ∧ y = b then new :: replacePair a b new rest else x :: replacePair a b new (y :: rest)
  | rest => rest

/-- One part of a JSON pointer: `~1` is a slash, then `~0` is a tilde. -/
def pointerPart (part : GoString) : GoString :=
  replacePair 0x7E 0x30 0x7E (replacePair 0x7E 0x31 0x2F part)

/-- `strings.Split` at every slash. -/
def splitSlashes (s : GoString) : List GoString := s.splitOn 0x2F

/-- `strconv.Atoi`. -/
def atoi (s : GoString) : Option ℤ :=
  let negative := s.head? = some 0x2D
  let digits := if s.head? = some 0x2D ∨ s.head? = some 0x2B then s.tail else s
  if digits = [] ∨ ¬ digits.all isDigit then none
  else
    let n : ℤ := if negative then - decimalValue digits else decimalValue digits
    if - 2 ^ 63 ≤ n ∧ n < 2 ^ 63 then some n else none

/-- One step of a JSON pointer into a decoded value. -/
def pointerStep (part : GoString) : Value → Option Value
  | .object members => (members.find? fun m => m.1 = part).map Prod.snd
  | .array items => do
    let index ← atoi part
    if index < 0 then none else items[index.toNat]?
  | _ => none

/-- `resolveJSONPointer`. -/
def resolveJSONPointer (value : RawMessage) (pointer : GoString) : Except GoError RawMessage :=
  if pointer = [] then .ok value
  else if ¬ (lit "/").isPrefixOf pointer then .error errInvalidExecution
  else
    let parts := (splitSlashes pointer.tail).map pointerPart
    match (parse value).bind fun v => parts.foldlM (fun v part => pointerStep part v) (generic v) with
    | none => .error errInvalidExecution
    | some resolved => .ok (render resolved)

def latestCompletedActivation (s : State) (nodeID : GoString) : Option Activation :=
  s.activations.reverse.find? fun a => a.nodeID = nodeID ∧ a.status = .completed ∧ valid a.output

/-- The response of the latest resolved Wait of a node, or nothing. -/
def latestResponse (s : State) (nodeID : GoString) : RawMessage :=
  ((s.waits.reverse.find? fun w => w.nodeID = nodeID ∧ w.status = .resolved).map Wait.response).getD []

/-- The value that a source names, before its pointer. -/
def sourceValue (s : State) (source : ValueSource) (mapItem : RawMessage) (mapIndex : ℕ) :
    Except GoError RawMessage :=
  match source.kind with
  | .literal => .ok source.value
  | .workflowInput => .ok s.input
  | .nodeOutput =>
    match latestCompletedActivation s source.nodeID with
    | none => .error errInvalidExecution
    | some activation => .ok activation.output
  | .waitResponse => .ok (latestResponse s source.nodeID)
  | .mapItem => .ok mapItem
  | .mapIndex => .ok (formatInt mapIndex)

/-- `resolveValueSource`. -/
def resolveValueSource (s : State) (source : ValueSource) (mapItem : RawMessage) (mapIndex : ℕ) :
    Except GoError RawMessage := do
  let value ← sourceValue s source mapItem mapIndex
  if ¬ valid value then .error errInvalidExecution
  else if source.pointer = [] then .ok value
  else resolveJSONPointer value source.pointer

def resolveLegacyEffectInput (s : State) (node : EffectNode) : Except GoError RawMessage :=
  match node.source with
  | some source => resolveValueSource s source [] 0
  | none =>
    if node.fromInput then .ok s.input
    else if ¬ valid node.input then .error errInvalidExecution
    else .ok node.input

/-! ### Plans -/

structure EffectPlan where
  call : EffectCall
  outputKey : GoString := []
  mapIndex : ℕ := 0
  mapped : Bool := false
  compensation : Bool := false
  input : RawMessage
  deriving DecidableEq, Repr

/-- `nodeHasEffects`. -/
def nodeHasEffects : NodeBody → Bool
  | .wait _ | .branch _ | .ret _ => false
  | _ => true

/-- `plansFromCalls`, each call with its key. -/
def plansFromCalls (s : State) (calls : List (GoString × EffectCall)) :
    Except GoError (List EffectPlan) :=
  calls.mapM fun c => do
    return { call := c.2, outputKey := c.1, input := ← resolveValueSource s c.2.input [] 0 }

/-- The elements of a JSON array; `null` has none. -/
def arrayItems (items : RawMessage) : Option (List RawMessage) :=
  match scan items with
  | some .null => some []
  | some text => text.items.map fun ts => ts.map Text.bytes
  | none => none

/-- `effectPlansForNode`. -/
def effectPlansForNode (s : State) (body : NodeBody) : Except GoError (List EffectPlan) :=
  match body with
  | .effect node => do
    return [{ call := node.call, input := ← resolveLegacyEffectInput s node }]
  | .agentTask node => plansFromCalls s [([], node.call .agent)]
  | .applicationEffect node => plansFromCalls s [([], node.call .application)]
  | .mediaEffect node => plansFromCalls s [([], node.call .media)]
  | .parallel node => plansFromCalls s (node.branches.map fun branch => (branch.id, branch.call))
  | .map node => do
    let items ← resolveValueSource s node.items [] 0
    match arrayItems items with
    | none => .error errInvalidExecution
    | some values =>
      if s.definition.limits.maxFanOut < values.length then .error errInvalidExecution
      else values.zipIdx.mapM fun v => do
        return { call := node.call, mapIndex := v.2, mapped := true,
                 input := ← resolveValueSource s node.call.input v.1 v.2 }
  | .subworkflow node => do
    if s.definition.limits.maxNestedDepth ≤ s.nestedDepth then .error errBudgetExceeded
    else return [{ call := node.call, input := ← resolveValueSource s node.input [] 0 }]
  | .compensation node => do
    return [{ call := node.doCall, input := ← resolveValueSource s node.doCall.input [] 0 }]
  | .wait _ | .branch _ | .ret _ => .error errInvalidExecution

/-! ### Positions -/

def activationIndex (s : State) (nodeIndex : ℕ) : Option ℕ :=
  s.activations.findIdx? fun a => a.nodeIndex = nodeIndex

def activationIndexByID (s : State) (id : GoString) : Option ℕ :=
  s.activations.findIdx? fun a => a.id = id

def effectIndexByID (s : State) (id : GoString) : Option ℕ := s.effects.findIdx? fun e => e.id = id

def waitIndexByID (s : State) (id : GoString) : Option ℕ := s.waits.findIdx? fun w => w.id = id

def nodeIndexByID (definition : Definition) (id : GoString) : Option ℕ :=
  position definition.nodes id

def nextNodeIndex (s : State) (node : Node) : Option ℕ :=
  if node.next = [] then some (s.currentNode + 1) else nodeIndexByID s.definition node.next

/-- The last compensation that is not completed. -/
def nextCompensationPosition (s : State) : Option ℕ :=
  (s.compensations.reverse.findIdx? fun c => c.status ≠ .completed).map
    fun i => s.compensations.length - 1 - i

/-- `pendingEffectIndices`. -/
def pendingEffectIndices (s : State) (activation : Activation) : Option (List ℕ) := do
  let indices ← activation.effectIDs.mapM (effectIndexByID s)
  return indices.filter fun i => s.effects[i]?.any fun e => e.status = .pending

/-! ### Outputs -/

/-- `json.Marshal` of a slice of raw texts. -/
def marshalArray (outputs : List RawMessage) : RawMessage := (Text.ofItems (outputs.map rawLayout)).bytes

/-- `json.Marshal` of a map of raw texts; the keys are written in ascending order. -/
def marshalObject (members : List (GoString × RawMessage)) : RawMessage :=
  (Text.ofMembers ((keyed members).map fun m => (m.1, rawLayout m.2))).bytes

/-- The effect with the identifier, if it is completed with JSON. -/
def completedEffect (s : State) (id : GoString) : Option Effect :=
  (s.effects.find? fun e => e.id = id).filter fun e => e.status = .completed ∧ valid e.output

/-- What the outputs of an activation's effects, in their order, are put together to. -/
def combineOutputs (body : NodeBody) (effects : List Effect) : Option RawMessage :=
  match body with
  | .parallel _ =>
    some (marshalObject ((effects.filter fun e => e.outputKey ≠ []).map fun e => (e.outputKey, e.output)))
  | .map _ => some (marshalArray (effects.map Effect.output))
  | _ =>
    match effects with
    | [e] => some e.output
    | _ => none

/-- `aggregateEffectOutputs`. -/
def aggregateEffectOutputs (s : State) (body : NodeBody) (activation : Activation) :
    Except GoError RawMessage :=
  match (activation.effectIDs.mapM (completedEffect s)).bind (combineOutputs body) with
  | none => .error errInvalidExecution
  | some output => .ok output

/-! ### Observations -/

def State.updateEffect (s : State) (i : ℕ) (f : Effect → Effect) : State :=
  { s with effects := s.effects.modify i f }

def State.updateActivation (s : State) (i : ℕ) (f : Activation → Activation) : State :=
  { s with activations := s.activations.modify i f }

def State.updateCompensation (s : State) (i : ℕ) (f : Compensation → Compensation) : State :=
  { s with compensations := s.compensations.modify i f }

/-- A reservation is given back. -/
def State.release (s : State) (cost : Int64) : State :=
  { s with budget := { s.budget with costUnitsReserved := s.budget.costUnitsReserved - cost } }

/-- Costs are charged. -/
def State.charge (s : State) (cost : Int64) : State :=
  { s with budget := { s.budget with costUnitsUsed := s.budget.costUnitsUsed + cost } }

def retryCodeAllowed (policy : RetryPolicy) (code : GoString) : Bool :=
  policy.retryableErrorCodes.any fun allowed => allowed = lit "*" || allowed = trimSpace code

/-- `scheduleEffectRetry`: the effect with one more attempt, if that is allowed. -/
def scheduleEffectRetry (e : Effect) (code : GoString) (cause : GoError) : Option Effect :=
  if e.status ≠ .pending ∨ e.retry.maxAttempts ≤ e.attempt ∨ ¬ retryCodeAllowed e.retry code then none
  else some { e with attempt := e.attempt + 1, errorCode := trimSpace code, error := cause.text }

/-- The effect with an error. -/
def Effect.fail (e : Effect) (code : GoString) (text : GoString) : Effect :=
  { e with status := .failed, errorCode := code, error := text }

/-- The effect fails, and its reservation is given back. -/
def State.failEffect (s : State) (i : ℕ) (code : GoString) (text : GoString) : State :=
  match s.effects[i]? with
  | none => s
  | some e => (s.updateEffect i fun e => e.fail code text).release e.maxCostUnits

/-- `markEffectFailedState`. -/
def markEffectFailedState (s : State) (i : ℕ) (code : GoString) (cause : GoError) : State :=
  s.failEffect i (trimSpace code) cause.text

/-- One pending effect is aborted; the empty identifier is the one that is excepted. -/
def abortEffect (s : State) (id : GoString) : State :=
  if id = [] then s
  else match effectIndexByID s id with
    | none => s
    | some i =>
      if s.effects[i]?.any fun e => e.status = .pending then
        s.failEffect i (lit "workflow.effect_aborted") errEffectFailed.text
      else s

/-- `abortActivationEffects`, with nothing excepted. -/
def abortActivationEffects (s : State) (activation : Activation) : State :=
  activation.effectIDs.foldl abortEffect s

inductive EffectDisposition where
  | pending
  | completed
  | failed
  | other
  deriving DecidableEq, Repr

/-- One observation by an executor. -/
structure EffectResult where
  disposition : EffectDisposition
  childRunID : GoString := []
  receiptID : GoString := []
  output : RawMessage := []
  errorCode : GoString := []
  errorDetail : GoString := []
  costUnits : Int64 := 0
  deriving DecidableEq, Repr

/-- The receipt of a completed result. -/
def validReceipt (result : EffectResult) (e : Effect) : Bool :=
  trimSpace result.receiptID ≠ [] && valid result.output && 0 ≤ result.costUnits &&
    result.costUnits ≤ e.maxCostUnits

/-- The effect with its receipt; the error of an earlier attempt is still there. -/
def Effect.receive (result : EffectResult) (e : Effect) : Effect :=
  { e with
    status := .completed
    receiptID := trimSpace result.receiptID
    output := result.output
    costUnits := result.costUnits }

/-- The effect with its receipt and without the error of an earlier attempt. -/
def Effect.complete (result : EffectResult) (e : Effect) : Effect :=
  { e.receive result with errorCode := [], error := [] }

/-- The effect completes: its reservation becomes what it cost. -/
def State.completeEffect (s : State) (i : ℕ) (receive : Effect → Effect) (cost : Int64) : State :=
  match s.effects[i]? with
  | none => s
  | some e => ((s.updateEffect i receive).release e.maxCostUnits).charge cost

def orElse (s fallback : GoString) : GoString := if s = [] then fallback else s

/-- `effectDispatchErrorCode`. -/
def effectDispatchErrorCode (e : GoError) : GoString :=
  if e.forbidden then lit "workflow.effect_forbidden"
  else if e.unavailable then lit "workflow.effect_unavailable"
  else lit "workflow.effect_dispatch"

/-- The first failure of a batch. -/
structure BatchFailure where
  code : GoString
  detail : GoString
  cause : GoError
  deriving DecidableEq, Repr

/-- What the loop over the observations of a batch carries along. -/
structure Batch where
  state : State
  failure : Option BatchFailure := none
  retryScheduled : Bool := false

/-- The effect is tried again, or it fails with the failure of the batch unless there is one. -/
def Batch.retryOrFail (b : Batch) (i : ℕ) (code : GoString) (error : GoError) (failure : BatchFailure) :
    Batch :=
  match b.state.effects[i]?.bind fun e => scheduleEffectRetry e code error with
  | some e => { b with state := b.state.updateEffect i fun _ => e, retryScheduled := true }
  | none =>
    { b with
      state := markEffectFailedState b.state i code error
      failure := b.failure.or (some failure) }

/-- An effect whose result cannot be accepted is not tried again. -/
def Batch.refuse (b : Batch) (i : ℕ) (code : GoString) : Batch :=
  { b with
    state := markEffectFailedState b.state i code errInvalidExecution
    failure := b.failure.or (some ⟨code, errInvalidExecution.text, errInvalidExecution⟩) }

/-- The dispatch of an effect returned an error. -/
def Batch.dispatchFailed (b : Batch) (i : ℕ) (error : GoError) : Batch :=
  b.retryOrFail i (effectDispatchErrorCode error) error
    ⟨effectDispatchErrorCode error, error.text, error⟩

/-- The child of an effect is noted before its relation is recorded. -/
def Batch.noteChild (b : Batch) (i : ℕ) (result : EffectResult) : Batch :=
  { b with state := b.state.updateEffect i fun e => { e with childRunID := trimSpace result.childRunID } }

/-- The relation of an effect's child could not be recorded. -/
def Batch.relationFailed (b : Batch) (i : ℕ) (error : GoError) : Batch :=
  b.retryOrFail i (lit "workflow.effect_relation") error
    ⟨lit "workflow.effect_relation", error.text, error⟩

/-- What becomes of an effect whose result was observed and related. -/
def Batch.settleEffect (b : Batch) (i : ℕ) (result : EffectResult) : Batch :=
  match result.disposition with
  | .pending => b
  | .completed =>
    if b.state.effects[i]?.any (validReceipt result) then
      { b with state := b.state.completeEffect i (Effect.complete result) result.costUnits }
    else b.refuse i (lit "workflow.effect_receipt")
  | .failed =>
    let code := orElse (trimSpace result.errorCode) (lit "workflow.effect_failed")
    let detail := orElse (trimSpace result.errorDetail) errEffectFailed.text
    b.retryOrFail i code ⟨detail, false, false⟩ ⟨code, detail, errEffectFailed⟩
  | .other => b.refuse i (lit "workflow.effect_result")

end Workflow
