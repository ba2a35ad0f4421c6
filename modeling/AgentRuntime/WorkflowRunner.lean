/-
The Workflow Runner as programs over a Kernel store
(`workflow/execution.go`, `workflow/execution_advanced.go`, `workflow/compensation.go`).

A Runner reads a snapshot of a Run, computes the next state from it and asks the Kernel
to commit that state, provided the Run still has the revision that was read.  Between two
of its calls everybody else may move: other Runners on the same Run, and the executors.
So every method is a program (`RProg`) over one shared object, which keeps all revisions
of all Runs, all requests that were passed to an executor and all identifiers that were
given out.  What executors answer is arbitrary, every call of the store may fail, and a
commit may succeed although its caller is told that it failed.  Identifiers are fresh.
-/
import AgentRuntime.Interleaving
import AgentRuntime.KernelValidation
import AgentRuntime.WorkflowState

namespace Workflow

open GoString GoJson Interleaving
open Kernel (RawMessage RunStatus ActorRef ThreadRef CheckpointStatus)

/-! ### The store -/

/-- What the Runner reads of a Kernel checkpoint. -/
structure Checkpoint where
  id : GoString
  kind : GoString
  status : CheckpointStatus
  response : RawMessage := []
  deriving DecidableEq, Repr

/-- One revision of a Run; its state is read back from what was written. -/
structure Snapshot where
  runID : GoString
  actor : ActorRef
  thread : ThreadRef
  revision : ℕ
  status : RunStatus
  errorCode : GoString := []
  errorDetail : GoString := []
  state : State
  checkpoint : Option Checkpoint := none
  result : Option RawMessage := none
  deriving DecidableEq, Repr

structure Mutation where
  status : RunStatus
  state : State
  checkpoint : Option Checkpoint := none
  result : Option RawMessage := none
  errorCode : GoString := []
  errorDetail : GoString := []
  deriving DecidableEq, Repr

/-- The revision that a mutation asks for. -/
def Snapshot.commit (current : Snapshot) (m : Mutation) : Snapshot :=
  { current with
    revision := current.revision + 1
    status := m.status
    errorCode := trimSpace m.errorCode
    errorDetail := trimSpace m.errorDetail
    state := m.state.stored
    checkpoint := m.checkpoint
    result := m.result }

structure CreateRequest where
  id : GoString
  actor : ActorRef
  thread : ThreadRef
  state : State
  deriving DecidableEq, Repr

/-- The first revision of a Run. -/
def CreateRequest.snapshot (r : CreateRequest) (runID : GoString) : Snapshot where
  runID := runID
  actor := r.actor
  thread := r.thread
  revision := 1
  status := .running
  state := { r.state.stored with definition := r.state.definition.stored }

/-- What an executor is asked for. -/
structure EffectRequest where
  runID : GoString
  actor : ActorRef
  thread : ThreadRef
  definitionID : GoString
  definitionHash : GoString
  effectID : GoString
  nodeID : GoString
  ownerNodeID : GoString
  effectClass : EffectClass
  kind : GoString
  revision : GoString
  definition : Option DefinitionReference
  outputKey : GoString
  mapIndex : ℕ
  mapped : Bool
  compensation : Bool
  input : RawMessage
  maxCostUnits : Int64
  nestedDepth : ℤ
  attempt : ℤ
  maxAttempts : ℤ
  policy : DefinitionPolicy
  deriving DecidableEq, Repr

/-- All revisions of all Runs, newest first, the requests that executors have got and the
identifiers that were given out. -/
structure World where
  runs : GoString → List Snapshot := fun _ => []
  requests : List EffectRequest := []
  issued : List GoString := []

/-- A new revision of a Run. -/
def World.push (w : World) (snap : Snapshot) : World :=
  { w with runs := fun id => if id = snap.runID then snap :: w.runs id else w.runs id }

inductive RunnerOp where
  | create (request : CreateRequest)
  | load (runID : GoString)
  | apply (runID : GoString) (expectedRevision : ℕ) (m : Mutation)
  | newID
  | execute (request : EffectRequest)
  | ensureRelation (parentRunID : GoString) (effect : Effect)

abbrev RunnerOp.Res : RunnerOp → Type
  | create _ | load _ | apply _ _ _ => Except GoError Snapshot
  | newID => Except GoError GoString
  | execute _ => Except GoError EffectResult
  | ensureRelation _ _ => Option GoError

/-- The Kernel's `Create`, `Load`, `Apply` and `NewID`, an executor and the index of
relations. -/
def runnerObject : SharedObject World where
  Op := RunnerOp
  Res := RunnerOp.Res
  Exec w op := match op with
    | .create request => fun r w' =>
        (w' = w ∧ ∃ e, r = .error e) ∨
        ∃ runID, (trimSpace request.id ≠ [] → runID = trimSpace request.id) ∧ w.runs runID = [] ∧
          w' = w.push (request.snapshot runID) ∧
          (r = .ok (request.snapshot runID) ∨ ∃ e, r = .error e)
    | .load runID => fun r w' => w' = w ∧
        ((∃ e, r = .error e) ∨ ∃ snap, (w.runs (trimSpace runID)).head? = some snap ∧ r = .ok snap)
    | .apply runID expectedRevision m => fun r w' =>
        (w' = w ∧ ∃ e, r = .error e) ∨
        ∃ current, (w.runs runID).head? = some current ∧ current.revision = expectedRevision ∧
          Kernel.validTransition current.status m.status = true ∧ w' = w.push (current.commit m) ∧
          (r = .ok (current.commit m) ∨ ∃ e, r = .error e)
    | .newID => fun r w' =>
        (w' = w ∧ ∃ e, r = .error e) ∨
        ∃ id, id ∉ w.issued ∧ validUTF8 id = true ∧ r = .ok id ∧ w' = { w with issued := id :: w.issued }
    | .execute request => fun _ w' => w' = { w with requests := request :: w.requests }
    | .ensureRelation _ _ => fun _ w' => w' = w

abbrev RProg (α : Type) : Type := Prog runnerObject α

/-- One call. -/
def ask (op : RunnerOp) : RProg op.Res := Prog.op (O := runnerObject) op

/-- `runtime.Apply` at the revision that was read. -/
def applyRun (snapshot : Snapshot) (m : Mutation) : RProg (Except GoError Snapshot) :=
  ask (.apply snapshot.runID snapshot.revision m)

def newID : RProg (Except GoError GoString) := ask .newID

/-! ### Failing and compensating -/

/-- What a method returns. -/
structure Returned where
  snapshot : Option Snapshot := none
  err : Option GoError := none

/-- `errors.Join` of two errors that may be nil. -/
def joinErrors : Option GoError → Option GoError → Option GoError
  | some a, some b => some (a.and b)
  | a, b => a.or b

/-- What a commit returned, joined with an error that is returned in any case. -/
def Returned.of (cause : Option GoError) : Except GoError Snapshot → Returned
  | .ok snapshot => ⟨some snapshot, cause⟩
  | .error e => ⟨none, joinErrors cause (some e)⟩

/-- `yield`. -/
def yield (snapshot : Snapshot) (state : State) : RProg Returned := do
  return .of (some errSegmentYielded)
    (← applyRun snapshot { status := .running, state, checkpoint := snapshot.checkpoint })

/-- The terminal status that a failure asks for. -/
def FailureIntent.terminalStatus (f : FailureIntent) : RunStatus :=
  if f.status = .failed ∨ f.status = .cancelled then f.status else .failed

/-- `terminalizeFailure`. -/
def terminalizeFailure (snapshot : Snapshot) (state : State) (cause : Option GoError) : RProg Returned :=
  match state.failure with
  | none => return ⟨none, joinErrors (some errInvalidExecution) cause⟩
  | some f => do
    let cause := cause.getD
      (if f.terminalStatus = .cancelled then errCancellationRequested else errEffectFailed)
    return .of (some cause)
      (← applyRun snapshot
        { status := f.terminalStatus, state, errorCode := f.code, errorDetail := f.detail })

/-- The failure of a compensation takes the place of the original one. -/
def compensationFailure (state : State) (compensation : Compensation) : FailureIntent where
  status := .failed
  code := lit "workflow.compensation_failed"
  detail :=
    let original := match state.failure with
      | none => []
      | some f => f.code ++ lit ": " ++ f.detail
    trimSpace (original ++ lit "; compensation " ++ compensation.id ++ lit ": " ++ compensation.error)

/-- `terminalizeCompensationFailure`. -/
def terminalizeCompensationFailure (snapshot : Snapshot) (state : State) (compensation : Compensation) :
    RProg Returned :=
  terminalizeFailure snapshot { state with failure := some (compensationFailure state compensation) }
    (some errEffectFailed)

/-- `persistCompensationRetry`. -/
def persistCompensationRetry (snapshot : Snapshot) (state : State) : RProg Returned := do
  return .of (some errEffectPending) (← applyRun snapshot { status := .running, state })

/-- The compensation with an error. -/
def Compensation.fail (code text : GoString) (c : Compensation) : Compensation :=
  { c with status := .failed, errorCode := code, error := text }

/-- `markCompensationFailed`. -/
def markCompensationFailed (snapshot : Snapshot) (state : State) (position effectPosition : ℕ)
    (compensation : Compensation) (code : GoString) (cause : GoError) : RProg Returned :=
  terminalizeCompensationFailure snapshot
    ((state.updateCompensation position (Compensation.fail (trimSpace code) cause.text)).failEffect
      effectPosition (trimSpace code) cause.text)
    (compensation.fail (trimSpace code) cause.text)

/-- `effectRelationOwnerID`. -/
def effectRelationOwnerID (e : Effect) : GoString :=
  if 1 < e.attempt then e.id ++ lit "_attempt_" ++ formatInt e.attempt
  else if e.outputKey ≠ [] ∨ e.mapped then e.id
  else e.nodeID

/-- `buildEffectRequest`. -/
def buildEffectRequest (snapshot : Snapshot) (definition : Definition) (e : Effect) : EffectRequest where
  runID := snapshot.runID
  actor := snapshot.actor
  thread := snapshot.thread
  definitionID := definition.id
  definitionHash := definition.hash
  effectID := e.id
  nodeID := e.nodeID
  ownerNodeID := effectRelationOwnerID e
  effectClass := e.effectClass
  kind := e.kind
  revision := e.revision
  definition := e.definition
  outputKey := e.outputKey
  mapIndex := e.mapIndex
  mapped := e.mapped
  compensation := e.compensation
  input := e.input
  maxCostUnits := e.maxCostUnits
  nestedDepth := e.nestedDepth
  attempt := e.attempt
  maxAttempts := e.retry.maxAttempts
  policy := definition.policy

/-- `executeObservedEffect`, without its telemetry. -/
def executeEffect (snapshot : Snapshot) (state : State) (e : Effect) :
    RProg (Except GoError EffectResult) :=
  ask (.execute (buildEffectRequest snapshot state.definition e))

/-- The undo has completed. -/
def completeCompensation (state : State) (position effectPosition : ℕ) (result : EffectResult) : State :=
  (state.completeEffect effectPosition (Effect.receive result) result.costUnits).updateCompensation
    position fun c => { c with status := .completed, receiptID := trimSpace result.receiptID }

/-- An undo that did not succeed is tried again, or the compensation has failed. -/
def retryCompensation (snapshot : Snapshot) (state : State) (position effectPosition : ℕ)
    (compensation : Compensation) (e : Effect) (code : GoString) (cause : GoError) : RProg Returned :=
  match scheduleEffectRetry e code cause with
  | some e => persistCompensationRetry snapshot (state.updateEffect effectPosition fun _ => e)
  | none => markCompensationFailed snapshot state position effectPosition compensation code cause

/-- What `dispatchCompensation` does with the answer of the executor. -/
def observeCompensation (snapshot : Snapshot) (state : State) (position effectPosition : ℕ)
    (compensation : Compensation) (e : Effect) : Except GoError EffectResult → RProg Returned
  | .error cause =>
    retryCompensation snapshot state position effectPosition compensation e
      (lit "workflow.compensation_dispatch") cause
  | .ok result =>
    match result.disposition with
    | .pending => yield snapshot state
    | .failed =>
      retryCompensation snapshot state position effectPosition compensation e
        (orElse (trimSpace result.errorCode) (lit "workflow.compensation_failed"))
        ⟨orElse (trimSpace result.errorDetail) errEffectFailed.text, false, false⟩
    | .completed =>
      if validReceipt result e then do
        match ← applyRun snapshot
            { status := .running, state := completeCompensation state position effectPosition result } with
        | .error err => return ⟨none, some err⟩
        | .ok completed =>
          match nextCompensationPosition completed.state with
          | none => terminalizeFailure completed completed.state none
          | some _ => yield completed completed.state
      else
        markCompensationFailed snapshot state position effectPosition compensation
          (lit "workflow.compensation_receipt") errInvalidExecution
    | .other =>
      markCompensationFailed snapshot state position effectPosition compensation
        (lit "workflow.compensation_receipt") errInvalidExecution

/-- What one segment has done so far. -/
structure SegmentBudget where
  activations : ℕ := 0
  effects : ℕ := 0

/-- The position and the pending effect of a compensation that is running. -/
def undoEffect (state : State) (compensation : Compensation) : Option (ℕ × Effect) := do
  let i ← effectIndexByID state compensation.effectID
  let e ← state.effects[i]?
  if e.status = .pending then some (i, e) else none

/-- `dispatchCompensation`. -/
def dispatchCompensation (snapshot : Snapshot) (state : State) (position : ℕ)
    (compensation : Compensation) (segment : SegmentBudget) : RProg Returned :=
  if 1 ≤ segment.effects then yield snapshot state
  else match undoEffect state compensation with
    | none => terminalizeCompensationFailure snapshot state compensation
    | some (i, e) => do
      observeCompensation snapshot state position i compensation e (← executeEffect snapshot state e)

/-- The undo would exceed the budget. -/
def undoExceeds (state : State) (compensation : Compensation) : Bool :=
  state.definition.limits.maxEffects ≤ state.budget.effects ||
    state.definition.policy.maxCostUnits - compensation.call.maxCostUnits <
      state.budget.costUnitsUsed + state.budget.costUnitsReserved

/-- The effect of an undo. -/
def undoIntent (state : State) (compensation : Compensation) (effectID : GoString) : Effect where
  id := effectID
  nodeID := compensation.nodeID
  effectClass := compensation.call.effectClass
  kind := compensation.call.kind
  revision := compensation.call.revision
  definition := compensation.call.definition
  compensation := true
  input := compensation.input
  maxCostUnits := compensation.call.maxCostUnits
  nestedDepth := state.nestedDepth
  retry := compensation.call.retry

/-- The state with the intent to undo. -/
def startCompensation (state : State) (position : ℕ) (compensation : Compensation) (effectID : GoString) :
    State :=
  { state.updateCompensation position fun c => { c with status := .running, effectID } with
    effects := state.effects ++ [undoIntent state compensation effectID]
    budget := { state.budget with
      effects := state.budget.effects + 1
      costUnitsReserved := state.budget.costUnitsReserved + compensation.call.maxCostUnits } }

/-- `prepareCompensation`. -/
def prepareCompensation (snapshot : Snapshot) (state : State) (position : ℕ)
    (compensation : Compensation) (segment : SegmentBudget) : RProg Returned :=
  if undoExceeds state compensation then
    let failed := Compensation.fail (lit "workflow.compensation_budget") errBudgetExceeded.text
    terminalizeCompensationFailure snapshot (state.updateCompensation position failed)
      (failed compensation)
  else do
    match ← newID with
    | .error e => return ⟨none, some e⟩
    | .ok effectID =>
      match ← applyRun snapshot
          { status := .running, state := startCompensation state position compensation effectID } with
      | .error e => return ⟨none, some e⟩
      | .ok persisted =>
        match persisted.state.compensations[position]? with
        | none => return ⟨none, some errInvalidExecution⟩
        | some started => dispatchCompensation persisted persisted.state position started segment

/-- `runCompensations`. -/
def runCompensations (snapshot : Snapshot) (state : State) (segment : SegmentBudget) : RProg Returned :=
  match nextCompensationPosition state with
  | none => terminalizeFailure snapshot state none
  | some position =>
    match state.compensations[position]? with
    | none => return ⟨none, some errInvalidExecution⟩
    | some compensation =>
      match compensation.status with
      | .pending => prepareCompensation snapshot state position compensation segment
      | .running => dispatchCompensation snapshot state position compensation segment
      | .failed | .completed => terminalizeCompensationFailure snapshot state compensation

/-- The state with the intent to fail, unless there is one already. -/
def State.intend (state : State) (status : RunStatus) (code : GoString) (cause : GoError) : State :=
  { state with failure := state.failure.or (some ⟨status, trimSpace code, cause.text⟩) }

/-- `beginFailure`. -/
def beginFailure (snapshot : Snapshot) (state : State) (status : RunStatus) (code : GoString)
    (cause : GoError) : RProg Returned :=
  let intended := state.intend status code cause
  if state.compensations = [] then terminalizeFailure snapshot intended (some cause)
  else do
    match ← applyRun snapshot { status := .running, state := intended } with
    | .error e => return ⟨none, some (cause.and e)⟩
    | .ok persisted =>
      let compensated ← runCompensations persisted persisted.state {}
      return ⟨compensated.snapshot, joinErrors (some cause) compensated.err⟩

/-- `fail`. -/
def fail (snapshot : Snapshot) (state : State) (code : GoString) (cause : GoError) : RProg Returned :=
  beginFailure snapshot state .failed code cause

/-! ### Nodes with effects -/

/-- The reservation of a list of plans, as long as it stays within the policy. -/
def reserve (maximum : Int64) : Int64 → List EffectPlan → Option Int64
  | reserved, [] => some reserved
  | reserved, plan :: plans =>
    if plan.call.maxCostUnits < 0 ∨ maximum - plan.call.maxCostUnits < reserved then none
    else reserve maximum (reserved + plan.call.maxCostUnits) plans

/-- The effect that a plan asks for. -/
def EffectPlan.intent (state : State) (node : Node) (activationID : GoString) (plan : EffectPlan)
    (effectID : GoString) : Effect where
  id := effectID
  activationID := activationID
  nodeID := node.id
  effectClass := plan.call.effectClass
  kind := plan.call.kind
  revision := plan.call.revision
  definition := plan.call.definition
  outputKey := plan.outputKey
  mapIndex := plan.mapIndex
  mapped := plan.mapped
  compensation := plan.compensation
  input := plan.input
  maxCostUnits := plan.call.maxCostUnits
  nestedDepth := if plan.call.effectClass = .subworkflow then state.nestedDepth + 1 else state.nestedDepth
  retry := plan.call.retry

/-- The state with the intents of an activation. -/
def prepareActivation (state : State) (node : Node) (plans : List EffectPlan) (reserved : Int64)
    (activationID : GoString) (effectIDs : List GoString) : State :=
  { state with
    activations := state.activations ++ [{
      id := activationID
      nodeID := node.id
      nodeIndex := state.currentNode
      status := .running
      effectID := if effectIDs.length = 1 then effectIDs.headD [] else []
      effectIDs }]
    effects := state.effects ++ List.zipWith (fun plan id => plan.intent state node activationID id)
      plans effectIDs
    budget := { state.budget with
      nodeActivations := state.budget.nodeActivations + 1
      effects := state.budget.effects + plans.length
      costUnitsReserved := state.budget.costUnitsReserved + reserved } }

/-- Identifiers, as many as asked for. -/
def newIDs : ℕ → RProg (Except GoError (List GoString))
  | 0 => return .ok []
  | n + 1 => do
    match ← newID with
    | .error e => return .error e
    | .ok id =>
      match ← newIDs n with
      | .error e => return .error e
      | .ok ids => return .ok (id :: ids)

/-- The map node is the only one that may ask for nothing. -/
def mayBeEmpty : NodeBody → Bool
  | .map _ => true
  | _ => false

/-- `prepareNodeEffects` for the plans of the node. -/
def preparePlans (snapshot : Snapshot) (state : State) (node : Node) (plans : List EffectPlan) :
    RProg Returned :=
  if state.definition.limits.maxEffects < state.budget.effects + plans.length then
    fail snapshot state (lit "workflow.effect_budget") errBudgetExceeded
  else match reserve state.definition.policy.maxCostUnits 0 plans with
    | none => fail snapshot state (lit "workflow.cost_budget") errBudgetExceeded
    | some reserved =>
      if state.definition.policy.maxCostUnits - reserved <
          state.budget.costUnitsUsed + state.budget.costUnitsReserved then
        fail snapshot state (lit "workflow.cost_budget") errBudgetExceeded
      else do
        match ← newID with
        | .error e => return ⟨none, some e⟩
        | .ok activationID =>
          match ← newIDs plans.length with
          | .error e => return ⟨none, some e⟩
          | .ok effectIDs =>
            return .of none (← applyRun snapshot
              { status := .running
                state := prepareActivation state node plans reserved activationID effectIDs
                checkpoint := snapshot.checkpoint })

/-- `prepareNodeEffects`. -/
def prepareNodeEffects (snapshot : Snapshot) (state : State) (node : Node) : RProg Returned :=
  match effectPlansForNode state node.body with
  | .error e => fail snapshot state (lit "workflow.effect_plan") (errInvalidExecution.and e)
  | .ok plans =>
    if plans = [] ∧ ¬ mayBeEmpty node.body then
      fail snapshot state (lit "workflow.effect_plan") errInvalidExecution
    else preparePlans snapshot state node plans

/-- What one round of a segment returns. -/
structure Advanced where
  snapshot : Option Snapshot := none
  done : Bool := true
  err : Option GoError := none
  segment : SegmentBudget := {}

def Advanced.finished (r : Returned) : Advanced := { snapshot := r.snapshot, err := r.err }

/-- The input of an undo, which may use the output of the current node. -/
def undoInput (state : State) (node : Node) (undo : EffectCall) (output : RawMessage) :
    Except GoError RawMessage :=
  match resolveValueSource state undo.input [] 0 with
  | .ok input => .ok input
  | .error e =>
    if undo.input.kind ≠ .nodeOutput ∨ undo.input.nodeID ≠ node.id then .error e
    else resolveJSONPointer output undo.input.pointer

/-- `registerCompensation`. -/
def registerCompensation (state : State) (node : Node) (undo : EffectCall) (output : RawMessage) :
    RProg (Except GoError State) :=
  match undoInput state node undo output with
  | .error e => return .error e
  | .ok input => do
    match ← newID with
    | .error e => return .error e
    | .ok id =>
      return .ok { state with
        compensations := state.compensations ++ [{
          id := id, nodeID := node.id, call := undo, input := input, status := .pending }] }

/-- The undo of a node, if it has one. -/
def NodeBody.undo : NodeBody → Option EffectCall
  | .compensation node => some node.undo
  | _ => none

/-- The next node, after the activation and its undo are in the state. -/
def moveOn (snapshot : Snapshot) (state : State) (node : Node) (segment : SegmentBudget) : RProg Advanced :=
  match nextNodeIndex state node with
  | none =>
    return .finished
      (← beginFailure snapshot state .failed (lit "workflow.next_invalid") errInvalidExecution)
  | some next => do
    let r := Returned.of none (← applyRun snapshot
      { status := .running, state := { state with currentNode := next },
        checkpoint := snapshot.checkpoint })
    return { snapshot := r.snapshot, done := false, err := r.err, segment }

/-- The activation with its output. -/
def completeActivation (state : State) (position : ℕ) (output : RawMessage) : State :=
  state.updateActivation position fun a => { a with status := .completed, output }

/-- `finishEffectActivation`. -/
def finishEffectActivation (snapshot : Snapshot) (state : State) (node : Node) (position : ℕ)
    (output : RawMessage) (segment : SegmentBudget) : RProg Advanced :=
  let completed := completeActivation state position output
  match node.body.undo with
  | none => moveOn snapshot completed node segment
  | some undo => do
    match ← registerCompensation completed node undo output with
    | .error e =>
      return .finished
        (← beginFailure snapshot completed .failed (lit "workflow.compensation_register") e)
    | .ok registered => moveOn snapshot registered node segment

/-- The activation with an error. -/
def Activation.fail (code text : GoString) (a : Activation) : Activation :=
  { a with status := .failed, errorCode := code, error := text }

/-- The activation fails, and with it all of its effects that are still pending. -/
def failActivation (state : State) (position : ℕ) (code text : GoString) : State :=
  match state.activations[position]? with
  | none => state
  | some activation =>
    abortActivationEffects (state.updateActivation position (Activation.fail code text)) activation

/-- An executor's answer about one effect. -/
structure EffectOutcome where
  effectIndex : ℕ
  result : Except GoError EffectResult

/-- A Runner's configuration. -/
structure Runner where
  contracts : Contracts
  ceiling : Limits
  relations : Bool
  deferResume : Bool

/-- `ensureEffectRelation`: nothing is recorded without an index or a child. -/
def ensureEffectRelation (R : Runner) (parentRunID : GoString) (e : Effect) : RProg (Option GoError) :=
  if ¬ R.relations ∨ e.childRunID = [] then return none else ask (.ensureRelation parentRunID e)

/-- One round of the loop over the outcomes. -/
def settleOutcome (R : Runner) (snapshot : Snapshot) (b : Batch) (o : EffectOutcome) : RProg Batch :=
  match o.result with
  | .error e => return b.dispatchFailed o.effectIndex e
  | .ok result =>
    let noted := b.noteChild o.effectIndex result
    match noted.state.effects[o.effectIndex]? with
    | none => return noted
    | some e => do
      match ← ensureEffectRelation R snapshot.runID e with
      | some err => return noted.relationFailed o.effectIndex err
      | none => return noted.settleEffect o.effectIndex result

/-- The loop over the outcomes, which gives up at a position that is not there. -/
def settleOutcomes (R : Runner) (snapshot : Snapshot) : Batch → List EffectOutcome → RProg (Option Batch)
  | b, [] => return some b
  | b, o :: os =>
    match b.state.effects[o.effectIndex]? with
    | none => return none
    | some _ => do settleOutcomes R snapshot (← settleOutcome R snapshot b o) os

/-- `applyEffectOutcomes`, after the loop. -/
def concludeBatch (snapshot : Snapshot) (b : Batch) (node : Node) (position : ℕ)
    (segment : SegmentBudget) : RProg Advanced :=
  match b.failure with
  | some f =>
    return .finished (← beginFailure snapshot (failActivation b.state position f.code f.detail) .failed
      f.code (errEffectFailed.and f.cause))
  | none =>
    match b.state.activations[position]? with
    | none => return { snapshot := some snapshot, err := some errInvalidExecution }
    | some activation =>
      match pendingEffectIndices b.state activation with
      | none => return { snapshot := some snapshot, err := some errInvalidExecution }
      | some (_ :: _) =>
        return .finished (.of (some errEffectPending) (← applyRun snapshot
          { status := .running, state := b.state, checkpoint := snapshot.checkpoint }))
      | some [] =>
        match aggregateEffectOutputs b.state node.body activation with
        | .error e =>
          return .finished (← beginFailure snapshot
            (failActivation b.state position (lit "workflow.effect_output") e.text) .failed
            (lit "workflow.effect_output") (errEffectFailed.and e))
        | .ok output => finishEffectActivation snapshot b.state node position output segment

/-- `applyEffectOutcomes`. -/
def applyEffectOutcomes (R : Runner) (snapshot : Snapshot) (state : State) (node : Node) (position : ℕ)
    (outcomes : List EffectOutcome) (segment : SegmentBudget) : RProg Advanced := do
  match ← settleOutcomes R snapshot { state } outcomes with
  | none => return { snapshot := some snapshot, err := some errInvalidExecution }
  | some b => concludeBatch snapshot b node position segment

/-- `executeEffectBatch`: the executor is asked about every pending effect. -/
def executeEffectBatch (snapshot : Snapshot) (state : State) : List ℕ → RProg (List EffectOutcome)
  | [] => return []
  | i :: indices =>
    match state.effects[i]? with
    | none => executeEffectBatch snapshot state indices
    | some e => do
      let result ← executeEffect snapshot state e
      return ⟨i, result⟩ :: (← executeEffectBatch snapshot state indices)

/-- `advanceNodeEffects` for the activation at a position. -/
def advanceActivation (R : Runner) (snapshot : Snapshot) (state : State) (node : Node) (position : ℕ)
    (activation : Activation) (segment : SegmentBudget) : RProg Advanced :=
  match pendingEffectIndices state activation with
  | none => return { snapshot := some snapshot, err := some errInvalidExecution }
  | some [] =>
    match aggregateEffectOutputs state node.body activation with
    | .error e => return { snapshot := some snapshot, err := some e }
    | .ok output => finishEffectActivation snapshot state node position output segment
  | some (i :: indices) =>
    if 1 ≤ segment.effects then return .finished (← yield snapshot state)
    else do
      let outcomes ← executeEffectBatch snapshot state (i :: indices)
      applyEffectOutcomes R snapshot state node position outcomes
        { segment with effects := segment.effects + 1 }

/-- `advanceNodeEffects`. -/
def advanceNodeEffects (R : Runner) (snapshot : Snapshot) (state : State) (node : Node)
    (segment : SegmentBudget) : RProg Advanced :=
  match activationIndex state state.currentNode with
  | none => return { snapshot := some snapshot, err := some errInvalidExecution }
  | some position =>
    match state.activations[position]? with
    | none => return { snapshot := some snapshot, err := some errInvalidExecution }
    | some activation => advanceActivation R snapshot state node position activation segment

/-! ### The other nodes -/

/-- An activation that is completed at once. -/
def completedActivation (state : State) (node : Node) (id : GoString) (output : RawMessage) :
    Activation where
  id := id
  nodeID := node.id
  nodeIndex := state.currentNode
  status := .completed
  output := output

/-- The state with one more activation without effects, and the next node. -/
def activated (state : State) (activation : Activation) (next : ℕ) : State :=
  { state with
    activations := state.activations ++ [activation]
    budget := { state.budget with nodeActivations := state.budget.nodeActivations + 1 }
    currentNode := next }

/-- `json.Unmarshal` into a bool; `null` leaves it false. -/
def decodeBool (raw : RawMessage) : Option Bool :=
  match parse raw with
  | some (.bool b) => some b
  | some .null => some false
  | _ => none

/-- `executeIf`. -/
def executeIf (snapshot : Snapshot) (state : State) (node : Node) (body : IfNode)
    (segment : SegmentBudget) : RProg Advanced :=
  match resolveValueSource state body.condition [] 0 with
  | .error e =>
    return .finished (← beginFailure snapshot state .failed (lit "workflow.condition_invalid") e)
  | .ok condition =>
    match decodeBool condition with
    | none =>
      return .finished
        (← beginFailure snapshot state .failed (lit "workflow.condition_type") errInvalidExecution)
    | some matched =>
      match nodeIndexByID state.definition (if matched then body.thenNodeID else body.elseNodeID) with
      | none => return { snapshot := some snapshot, err := some errInvalidExecution }
      | some next => do
        match ← newID with
        | .error e => return { err := some e }
        | .ok id =>
          let r := Returned.of none (← applyRun snapshot
            { status := .running
              state := activated state (completedActivation state node id condition) next
              checkpoint := snapshot.checkpoint })
          return { snapshot := r.snapshot, done := false, err := r.err, segment }

def workflowWaitCheckpointKind : GoString := lit "workflow_wait"

/-- The payload of a wait node. -/
def waitPayload (state : State) (body : WaitNode) : Except GoError RawMessage :=
  match body.source with
  | none => .ok body.payload
  | some source => resolveValueSource state source [] 0

/-- The state that waits for the host. -/
def waitState (state : State) (node : Node) (body : WaitNode) (payload : RawMessage)
    (activationID waitID : GoString) : State :=
  { activated state
      { id := activationID, nodeID := node.id, nodeIndex := state.currentNode, status := .waiting,
        waitID := waitID }
      state.currentNode with
    waits := state.waits ++ [{
      id := waitID, activationID := activationID, nodeID := node.id, kind := body.kind,
      payload := payload, status := .pending }]
    currentWaitID := waitID }

/-- `prepareWait`. -/
def prepareWait (snapshot : Snapshot) (state : State) (node : Node) (body : WaitNode) : RProg Returned :=
  match waitPayload state body with
  | .error e => fail snapshot state (lit "workflow.wait_payload") e
  | .ok payload => do
    match ← newID with
    | .error e => return ⟨none, some e⟩
    | .ok activationID =>
      match ← newID with
      | .error e => return ⟨none, some e⟩
      | .ok waitID =>
        return .of none (← applyRun snapshot
          { status := .waitingInput
            state := waitState state node body payload activationID waitID
            checkpoint := some { id := waitID, kind := workflowWaitCheckpointKind, status := .pending } })

/-- `workflowReturnValue`. -/
def workflowReturnValue (state : State) (body : ReturnNode) : Except GoError RawMessage :=
  match body.source with
  | some source => resolveValueSource state source [] 0
  | none =>
    if trimSpace body.fromNode = [] then
      if valid body.value then .ok body.value else .error errInvalidExecution
    else match latestCompletedActivation state body.fromNode with
      | none => .error errInvalidExecution
      | some activation => .ok activation.output

/-- `validateWorkflowContract`. -/
def validateWorkflowContract (C : Contracts) (schema value : RawMessage) (contractErr : GoError) :
    Option GoError :=
  if ¬ C.compiles schema then some errInvalidExecution
  else (C.violation schema value).map fun text =>
    (errInvalidExecution.and contractErr).and ⟨text, false, false⟩

/-- `complete`. -/
def complete (R : Runner) (snapshot : Snapshot) (state : State) (node : Node) (body : ReturnNode) :
    RProg Returned :=
  match workflowReturnValue state body with
  | .error e => fail snapshot state (lit "workflow.return_invalid") e
  | .ok result =>
    match validateWorkflowContract R.contracts state.definition.outputSchema result errOutputSchema with
    | some e => fail snapshot state (lit "workflow.output_schema") e
    | none => do
      match ← newID with
      | .error e => return ⟨none, some e⟩
      | .ok id =>
        return .of none (← applyRun snapshot
          { status := .completed
            state := activated state (completedActivation state node id result) (state.currentNode + 1)
            checkpoint := snapshot.checkpoint
            result := some result })

/-! ### Segments -/

/-- `activateNode` for a node with effects. -/
def activateEffects (R : Runner) (snapshot : Snapshot) (state : State) (node : Node)
    (segment : SegmentBudget) : RProg Advanced := do
  let prepared ← prepareNodeEffects snapshot state node
  match prepared.err, prepared.snapshot with
  | none, some next => advanceNodeEffects R next next.state node segment
  | err, next => return { snapshot := next, err }

/-- `activateNode`. -/
def activateNode (R : Runner) (snapshot : Snapshot) (state : State) (node : Node)
    (segment : SegmentBudget) : RProg Advanced :=
  if state.definition.limits.maxActivationsPerSegment ≤ segment.activations then
    return .finished (← yield snapshot state)
  else if state.definition.limits.maxNodeActivations ≤ state.budget.nodeActivations then
    return .finished (← fail snapshot state (lit "workflow.activation_budget") errBudgetExceeded)
  else
    let segment := { segment with activations := segment.activations + 1 }
    match node.body with
    | .branch body => executeIf snapshot state node body segment
    | .wait body => return .finished (← prepareWait snapshot state node body)
    | .ret body => return .finished (← complete R snapshot state node body)
    | _ => activateEffects R snapshot state node segment

/-- `advance`. -/
def advance (R : Runner) (snapshot : Snapshot) (state : State) (segment : SegmentBudget) :
    RProg Advanced :=
  match state.definition.nodes[state.currentNode]? with
  | none =>
    return .finished (← fail snapshot state (lit "workflow.node_out_of_range") errInvalidExecution)
  | some node =>
    if activationIndex state state.currentNode = none then activateNode R snapshot state node segment
    else if nodeHasEffects node.body then advanceNodeEffects R snapshot state node segment
    else return { snapshot := some snapshot, err := some errInvalidExecution }

/-- The loop of a segment.  The caller may be gone after any number of rounds. -/
def segmentRounds (R : Runner) : ℕ → Snapshot → State → SegmentBudget → RProg Returned
  | 0, snapshot, _, _ => return ⟨some snapshot, none⟩
  | rounds + 1, snapshot, state, segment =>
    if snapshot.status ≠ .running then return ⟨some snapshot, none⟩
    else match state.failure with
      | some _ => runCompensations snapshot state segment
      | none => do
        let advanced ← advance R snapshot state segment
        match advanced.err, advanced.done, advanced.snapshot with
        | none, false, some next => segmentRounds R rounds next next.state advanced.segment
        | err, _, next => return ⟨next, err⟩

/-- One more segment. -/
def State.tick (state : State) : State :=
  { state with budget := { state.budget with segments := state.budget.segments + 1 } }

/-- `runSegment`. -/
def runSegment (R : Runner) (rounds : ℕ) (snapshot : Snapshot) : RProg Returned :=
  if ¬ validateDefinition R.contracts snapshot.state.definition then
    return ⟨none, some errInvalidExecution⟩
  else if snapshot.state.definition.limits.maxSegments ≤ snapshot.state.budget.segments then
    fail snapshot snapshot.state (lit "workflow.segment_budget") errBudgetExceeded
  else segmentRounds R rounds snapshot snapshot.state.tick {}

/-! ### Requests -/

structure StartRequest where
  id : GoString := []
  actor : ActorRef
  thread : ThreadRef
  goal : GoString
  definition : Definition
  input : RawMessage := []
  nestedDepth : ℤ := 0
  deriving DecidableEq, Repr

/-- `normalizeStartRequest`. -/
def normalizeStartRequest (r : StartRequest) : StartRequest :=
  { r with
    id := trimSpace r.id
    goal := trimSpace r.goal
    definition := cloneDefinition r.definition
    input := if r.input = [] then lit "null" else r.input }

def validStartRequest (C : Contracts) (r : StartRequest) : Bool :=
  r.goal ≠ [] && 0 ≤ r.nestedDepth && r.nestedDepth ≤ r.definition.limits.maxNestedDepth &&
    valid r.input && validateDefinition C r.definition

def normalizeCeiling (ceiling : Limits) : Limits where
  maxNodeActivations := orDefault ceiling.maxNodeActivations 4096
  maxEffects := orDefault ceiling.maxEffects 1024
  maxSegments := orDefault ceiling.maxSegments 4096
  maxActivationsPerSegment := orDefault ceiling.maxActivationsPerSegment 256
  maxStateBytes := orDefault ceiling.maxStateBytes (8 * 2 ^ 20)
  maxFanOut := orDefault ceiling.maxFanOut 1024
  maxConcurrency := orDefault ceiling.maxConcurrency 64
  maxNestedDepth := orDefault ceiling.maxNestedDepth 32
  maxAttemptsPerEffect := orDefault ceiling.maxAttemptsPerEffect 16

def withinCeiling (limits ceiling : Limits) : Bool :=
  limits.maxNodeActivations ≤ ceiling.maxNodeActivations && limits.maxEffects ≤ ceiling.maxEffects &&
    limits.maxSegments ≤ ceiling.maxSegments &&
    limits.maxActivationsPerSegment ≤ ceiling.maxActivationsPerSegment &&
    limits.maxStateBytes ≤ ceiling.maxStateBytes && limits.maxFanOut ≤ ceiling.maxFanOut &&
    limits.maxConcurrency ≤ ceiling.maxConcurrency && limits.maxNestedDepth ≤ ceiling.maxNestedDepth &&
    limits.maxAttemptsPerEffect ≤ ceiling.maxAttemptsPerEffect

/-- The state of a new Run. -/
def startState (r : StartRequest) : State where
  definition := cloneDefinition r.definition
  input := r.input
  nestedDepth := r.nestedDepth

/-- `StartRun`. -/
def startRun (R : Runner) (rounds : ℕ) (request : StartRequest) : RProg Returned :=
  let r := normalizeStartRequest request
  if ¬ validStartRequest R.contracts r ∨
      ¬ withinCeiling r.definition.limits (normalizeCeiling R.ceiling) then
    return ⟨none, some errInvalidExecution⟩
  else match validateWorkflowContract R.contracts r.definition.inputSchema r.input errInputSchema with
    | some e => return ⟨none, some e⟩
    | none => do
      match ← ask (.create { id := r.id, actor := r.actor, thread := r.thread, state := startState r }) with
      | .error e => return ⟨none, some e⟩
      | .ok snapshot => runSegment R rounds snapshot

/-- `Resume`. -/
def resume (R : Runner) (rounds : ℕ) (runID : GoString) (expectedRevision : ℕ) : RProg Returned := do
  match ← ask (.load runID) with
  | .error e => return ⟨none, some e⟩
  | .ok snapshot =>
    if snapshot.revision ≠ expectedRevision then return ⟨none, some errConflict⟩
    else if snapshot.status = .waitingInput then return ⟨some snapshot, some errWaitPending⟩
    else if snapshot.status ≠ .running then return ⟨some snapshot, some errWorkflowTerminal⟩
    else runSegment R rounds snapshot

/-- The Wait that is pending, by its position and the position of its activation. -/
def pendingWait (snapshot : Snapshot) : Option (ℕ × ℕ) := do
  let checkpoint ← snapshot.checkpoint
  if snapshot.status ≠ .waitingInput ∨ checkpoint.kind ≠ workflowWaitCheckpointKind ∨
      checkpoint.status ≠ .pending ∨ snapshot.state.currentWaitID = [] then none
  else
    let i ← waitIndexByID snapshot.state snapshot.state.currentWaitID
    let wait ← snapshot.state.waits[i]?
    if wait.status ≠ .pending then none
    else return (i, ← activationIndexByID snapshot.state wait.activationID)

/-- `resolveWaitState`. -/
def resolveWaitState (state : State) (waitIndex activationIndex : ℕ) (response : RawMessage) :
    Option State := do
  let activation ← state.activations[activationIndex]?
  let node ← state.definition.nodes[activation.nodeIndex]?
  let next ← nextNodeIndex state node
  return { completeActivation state activationIndex response with
    waits := state.waits.modify waitIndex fun w => { w with status := .resolved, response }
    currentNode := next
    currentWaitID := [] }

/-- `resolveCheckpoint`. -/
def resolveCheckpoint (checkpoint : Checkpoint) (response : RawMessage) : Checkpoint :=
  { checkpoint with status := .resolved, response }

/-- `ResolveWait`. -/
def resolveWait (R : Runner) (rounds : ℕ) (runID : GoString) (expectedRevision : ℕ)
    (response : RawMessage) : RProg Returned :=
  if ¬ valid response then return ⟨none, some errInvalidExecution⟩
  else do
    match ← ask (.load runID) with
    | .error e => return ⟨none, some e⟩
    | .ok snapshot =>
      if snapshot.revision ≠ expectedRevision then return ⟨none, some errConflict⟩
      else match pendingWait snapshot with
        | none => return ⟨none, some errWaitPending⟩
        | some (i, j) =>
          match resolveWaitState snapshot.state i j response with
          | none => return ⟨none, some errInvalidExecution⟩
          | some resolved =>
            match ← applyRun snapshot
                { status := .running, state := resolved,
                  checkpoint := snapshot.checkpoint.map fun c => resolveCheckpoint c response } with
            | .error e => return ⟨none, some e⟩
            | .ok running =>
              if R.deferResume then return ⟨some running, none⟩ else runSegment R rounds running

/-- `Cancel`. -/
def cancel (runID : GoString) (expectedRevision : ℕ) (reason : GoString) : RProg Returned := do
  match ← ask (.load runID) with
  | .error e => return ⟨none, some e⟩
  | .ok snapshot =>
    if snapshot.revision ≠ expectedRevision then return ⟨none, some errConflict⟩
    else if snapshot.status ≠ .running ∧ snapshot.status ≠ .waitingInput then
      return ⟨some snapshot, some errWorkflowTerminal⟩
    else
      let detail := orElse (trimSpace reason) errCancellationRequested.text
      let r ← beginFailure snapshot snapshot.state .cancelled (lit "workflow.cancelled")
        ⟨detail, false, false⟩
      if r.snapshot.any fun s => s.status = .cancelled ∧
          (s.errorCode = lit "workflow.cancelled" ∨ s.errorCode = []) then
        return { r with err := none }
      else return r

/-- What callers ask of a Runner.  A call is abandoned after `rounds` rounds of its segment,
if it has not ended before. -/
inductive Request where
  | startRun (R : Runner) (rounds : ℕ) (request : StartRequest)
  | resume (R : Runner) (rounds : ℕ) (runID : GoString) (expectedRevision : ℕ)
  | resolveWait (R : Runner) (rounds : ℕ) (runID : GoString) (expectedRevision : ℕ)
      (response : RawMessage)
  | cancel (runID : GoString) (expectedRevision : ℕ) (reason : GoString)

def serveRunner : Request → RProg Returned
  | .startRun R rounds request => startRun R rounds request
  | .resume R rounds runID expectedRevision => resume R rounds runID expectedRevision
  | .resolveWait R rounds runID expectedRevision response =>
    resolveWait R rounds runID expectedRevision response
  | .cancel runID expectedRevision reason => cancel runID expectedRevision reason

/-- A request starts from a compiled Definition. -/
def Request.Compiled : Request → Prop
  | .startRun R _ request => ∃ draft, compileDefinition R.contracts draft = some request.definition
  | _ => True

end Workflow
