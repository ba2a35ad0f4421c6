/-
The continuation Scheduler (`continuation/scheduler.go`).

The Scheduler turns committed transitions into Jobs.  `Project` drains the outbox:
a terminal transition wakes the owner of the Run, and every wakeup event wakes the
Run itself.  `Reconcile` looks for terminal children whose owner was never woken.
Whatever wakes a Run ends in `schedule`, which normalizes a payload and puts it on
the queue under an identity made from some of its fields.
-/
import AgentRuntime.ContinuationSystem

namespace Scheduling

open GoString Kernel Interleaving Continuation FiniteMap
open Queue (Job Jobs QueueError EnqueueRequest EnqueueResult millisecond second)

variable {host : Host}

/-! ### Jobs -/

/-- `QueueName`. -/
def queueName : GoString := lit "runtime-continuations"

/-- `JobKind`. -/
def jobKind : GoString := lit "runtime.continuation.v1"

/-- The policy `NewScheduler` gives every Job: it is a dead letter only behind a fence. -/
def jobPolicy : Queue.Policy where
  maxAttempts := 12
  visibilityTimeout := 2 * 60 * second
  initialBackoff := 250 * millisecond
  maxBackoff := 30 * second
  backoffMultiplier := 2
  requireTerminalFence := true

structure Scheduler where
  workerID : GoString
  /-- The resolver registered for a Run kind. -/
  triggers : GoString → Option (EventDraft → Option Trigger)
  /-- A `ReconcileGuard` is configured. -/
  guarded : Bool
  /-- The relation adapter is a `ReconciliationPager`. -/
  paged : Bool

def clientJobID (p : Payload) : GoString :=
  let fields := p.trigger.text ++ lit ":" ++ p.runID ++ lit ":" ++ p.sourceRunID ++ lit ":" ++
    formatUint p.sourceRevision.toNat
  if p.trigger = .childTerminal then fields ++ lit ":" ++ formatUint p.expectedRevision.toNat
  else fields

def triggerPriority : Trigger → ℤ
  | .childTerminal => 20
  | .approvalResolved | .modelReady | .waitResolved | .toolWaitDeadline | .toolResultReady => 10
  | .segmentYielded | .runReady => 0
  | .other _ => 0

/-- `continuationAvailableAt`: a child may end inside its parent's call stack, so its
parent is woken after a short grace period. -/
def continuationAvailableAt (trigger : Trigger) : CProg host Time :=
  if trigger = .childTerminal then do
    let now ← perform .schedulerNow
    return now + 250 * millisecond
  else return 0

/-- `Memory.Enqueue`.  The payload the request was made from is passed on to the log. -/
def enqueueJob (payload : Payload) (request : EnqueueRequest) :
    CProg host (Except Failure EnqueueResult) := do
  match ← perform .contextErr with
  | some e => return .error e
  | none =>
    let now ← perform .queueNow
    match Queue.prepareEnqueue host.sha256 request now with
    | .error e => return .error (queueFailure e)
    | .ok job => perform (.enqueue payload job)

/-- The request `schedule` makes for a normalized payload. -/
def enqueueRequest (normalized : Payload) (availableAt : Time) : EnqueueRequest where
  queue := queueName
  clientJobID := clientJobID normalized
  kind := jobKind
  payload := encodePayload normalized
  priority := triggerPriority normalized.trigger
  availableAt := availableAt
  policy := jobPolicy

/-- The later of the two, as `schedule` compares them. -/
def laterWakeup (availableAt : Time) (wakeupAt : Option Time) : Time :=
  match wakeupAt with
  | some wakeupAt => if availableAt < wakeupAt then wakeupAt else availableAt
  | none => availableAt

def schedule (payload : Payload) (wakeupAt : Option Time) : CProg host (Option Failure) :=
  match normalizePayload payload with
  | .error e => return some e
  | .ok normalized => do
    let availableAt ← continuationAvailableAt normalized.trigger
    match ← enqueueJob normalized (enqueueRequest normalized (laterWakeup availableAt wakeupAt)) with
    | .error e => return some e
    | .ok _ => return none

/-! ### Projection -/

def sameRelationTenant (parent child : Snapshot) : Bool :=
  parent.run.actor.tenantID ≠ [] && parent.run.actor.tenantID == child.run.actor.tenantID

/-- The payload that wakes the owner of a child. -/
def childPayload (parent child : Snapshot) : Payload where
  schemaVersion := currentSchema
  runID := parent.run.id
  expectedRevision := parent.run.revision
  trigger := .childTerminal
  sourceRunID := child.run.id
  sourceRevision := child.run.revision

/-- A relation that crosses a tenant boundary. -/
def crossTenant : Failure := [.invalidInput, .other (lit "cross-tenant run relation")]

def scheduleRelation (relation : Relation) (child : Snapshot) : CProg host (Option Failure) := do
  match ← perform (.load relation.parentRunID) with
  | .error e => return if errorsIs (some e) .kernelNotFound then none else some e
  | .ok parent =>
    if parent.run.status.terminal then return none
    else if child.run.id ≠ relation.childRunID ∨ ¬ sameRelationTenant parent child then
      return some crossTenant
    else schedule (childPayload parent child) none

def scheduleOwningParent (transition : CommittedTransition) : CProg host (Option Failure) := do
  match ← perform (.relationByChild transition.runID) with
  | .error e => return if errorsIs (some e) .relationNotFound then none else some e
  | .ok relation =>
    match ← perform (.load transition.runID) with
    | .error e => return some e
    | .ok child => scheduleRelation relation child

/-- The trigger under which a wakeup event is delivered. -/
def Scheduler.triggerOf (scheduler : Scheduler) (kind : GoString) (event : EventDraft) : Trigger :=
  match scheduler.triggers kind with
  | none => .runReady
  | some resolver => (resolver event).getD .runReady

/-- The payload that wakes a Run for one of its own events. -/
def wakeupPayload (scheduler : Scheduler) (transition : CommittedTransition) (event : EventDraft) :
    Payload where
  schemaVersion := currentSchema
  runID := transition.runID
  expectedRevision := transition.revision
  trigger := scheduler.triggerOf transition.kind event
  sourceRunID := transition.runID
  sourceRevision := transition.revision
  waitGeneration := event.wakeupGeneration

/-- The loop of `projectTransition` over the events. -/
def projectEvents (scheduler : Scheduler) (transition : CommittedTransition) :
    List EventDraft → Option Failure → CProg host (Option Failure)
  | [], result => return result
  | event :: events, result =>
    if ¬ event.wakeup then projectEvents scheduler transition events result
    else do
      let err ← schedule (wakeupPayload scheduler transition event) event.wakeupAt
      projectEvents scheduler transition events (errorsJoin result err)

/-- Only a terminal transition wakes the owner of its Run. -/
def scheduleTerminal (transition : CommittedTransition) : CProg host (Option Failure) :=
  if transition.status.terminal then scheduleOwningParent transition else return none

def projectTransition (scheduler : Scheduler) (transition : CommittedTransition) :
    CProg host (Option Failure) := do
  let result ← scheduleTerminal transition
  projectEvents scheduler transition transition.events result

/-- `projectionBackoff`, with the iterations the attempts allow. -/
def projectionBackoffLoop : ℕ → ℤ → ℤ
  | 0, backoff => if 30 * second < backoff then 30 * second else backoff
  | n + 1, backoff =>
    if backoff < 30 * second then projectionBackoffLoop n (backoff * 2)
    else if 30 * second < backoff then 30 * second else backoff

def projectionBackoff (attempt : UInt32) : ℤ :=
  projectionBackoffLoop (attempt.toNat - 1) (250 * millisecond)

/-- The loop of `Project` over the claims. -/
def projectClaims (scheduler : Scheduler) (now : Time) :
    List TransitionClaim → Option Failure → CProg host (Option Failure)
  | [], result => return result
  | claim :: claims, result => do
    let lease : TransitionLeaseRequest := ⟨claim.transition.id, claim.leaseID, claim.workerID⟩
    match ← projectTransition scheduler claim.transition with
    | none =>
      let err ← perform (.ackTransition lease)
      projectClaims scheduler now claims (errorsJoin result err)
    | some projectErr =>
      let err ← perform (.retryTransition
        ⟨lease, now + projectionBackoff claim.transition.attempts⟩)
      projectClaims scheduler now claims (errorsJoin (errorsJoin result (some projectErr)) err)

def project (scheduler : Scheduler) : CProg host (Option Failure) := do
  let now ← perform .schedulerNow
  match ← perform (.claimTransitions ⟨scheduler.workerID, 32, 30 * second, now⟩) with
  | .error e => return some e
  | .ok claims => projectClaims scheduler now claims none

/-! ### Reconciliation -/

/-- The `ReconcileGuard`, if there is one. -/
def reconcileNeeded (scheduler : Scheduler) (parent : Snapshot) (relation : Relation) :
    CProg host (Except Failure Bool) :=
  if scheduler.guarded then perform (.reconcileGuard parent relation) else return .ok true

def reconcileCandidate (scheduler : Scheduler) (candidate : ReconciliationCandidate) :
    CProg host (Option Failure) := do
  match ← perform (.load candidate.relation.childRunID) with
  | .error e => return if errorsIs (some e) .kernelNotFound then none else some e
  | .ok child =>
    if ¬ child.run.status.terminal then return none
    else
      match ← perform (.load candidate.relation.parentRunID) with
      | .error e => return if errorsIs (some e) .kernelNotFound then none else some e
      | .ok parent =>
        if parent.run.status ≠ .running then return none
        else if ¬ sameRelationTenant parent child then return some crossTenant
        else if parent.run.revision ≤ candidate.lastParentRevision ∧
            child.run.revision ≤ candidate.lastChildRevision then return none
        else
          match ← reconcileNeeded scheduler parent candidate.relation with
          | .error e => return some e
          | .ok false => perform (.markObserved child.run.id parent.run.revision child.run.revision)
          | .ok true =>
            match ← schedule (childPayload parent child) none with
            | some e => return some e
            | none => perform (.markEnqueued child.run.id parent.run.revision child.run.revision)

/-- What a Scheduler remembers between two calls of `Reconcile`. -/
structure ReconcileState where
  cursor : GoString := []
  failures : Map GoString ReconciliationCandidate := ∅
  retryIDs : List GoString := []

/-- `runrelation.ReconciliationCandidate{}`. -/
def ReconciliationCandidate.zero : ReconciliationCandidate := ⟨⟨[], [], [], [], 0⟩, 0, 0⟩

/-- The loop of `retryReconcileFailures`, with the retries left in this tick. -/
def retryReconcileFailures (scheduler : Scheduler) :
    ℕ → ReconcileState → Option Failure → CProg host (Option Failure × ReconcileState)
  | 0, st, result => return (result, st)
  | n + 1, st, result =>
    match st.retryIDs with
    | [] => return (result, st)
    | id :: retryIDs => do
      match ← perform .contextErr with
      | some e => return (errorsJoin result (some e), st)
      | none =>
        match ← reconcileCandidate scheduler ((st.failures.lookup id).getD .zero) with
        | some e =>
          retryReconcileFailures scheduler n { st with retryIDs := retryIDs ++ [id] }
            (errorsJoin result (some e))
        | none =>
          retryReconcileFailures scheduler n
            { st with retryIDs := retryIDs, failures := st.failures.erase id } result

/-- `maxReconcileRetriesPerTick`. -/
def maxReconcileRetriesPerTick : ℕ := 16

/-- `maxReconcileRetryBacklog`. -/
def maxReconcileRetryBacklog : ℕ := 128

/-- `errReconcileRetryBacklogFull`. -/
def backlogFull : Failure := [.other (lit "continuation reconciliation retry backlog is full")]

/-- The bookkeeping after a candidate has failed. -/
def ReconcileState.failed (st : ReconcileState) (candidate : ReconciliationCandidate) :
    ReconcileState :=
  if maxReconcileRetryBacklog ≤ st.failures.entries.length then st
  else
    { st with
      failures := st.failures.insert candidate.relation.childRunID candidate
      retryIDs := st.retryIDs ++ [candidate.relation.childRunID] }

/-- The error that reports a failed candidate. -/
def ReconcileState.failure (st : ReconcileState) (err : Failure) : Option Failure :=
  if maxReconcileRetryBacklog ≤ st.failures.entries.length then
    errorsJoin (some err) (some backlogFull)
  else some err

/-- The loop of `Reconcile` over one page.  The last component says that the
context has ended the tick. -/
def reconcileCandidates (scheduler : Scheduler) :
    List ReconciliationCandidate → GoString → ReconcileState → Option Failure →
      CProg host (Option Failure × ReconcileState × Bool)
  | [], _, st, result => return (result, st, false)
  | candidate :: candidates, last, st, result => do
    match ← perform .contextErr with
    | some e => return (errorsJoin result (some e), { st with cursor := last }, true)
    | none =>
      let id := candidate.relation.childRunID
      if (st.failures.lookup id).isSome then
        reconcileCandidates scheduler candidates id st result
      else
        let candidateErr ← reconcileCandidate scheduler candidate
        match ← perform .contextErr with
        | some e =>
          return (errorsJoin (errorsJoin result candidateErr) (some e), { st with cursor := last }, true)
        | none =>
          match candidateErr with
          | none => reconcileCandidates scheduler candidates id st result
          | some err =>
            reconcileCandidates scheduler candidates id (st.failed candidate)
              (errorsJoin result (st.failure err))

/-- The loop of `reconcileLegacy`. -/
def reconcileRelations : List Relation → Option Failure → CProg host (Option Failure)
  | [], result => return result
  | relation :: relations, result => do
    match ← perform (.load relation.childRunID) with
    | .error e =>
      if errorsIs (some e) .kernelNotFound then reconcileRelations relations result
      else reconcileRelations relations (errorsJoin result (some e))
    | .ok child =>
      if ¬ child.run.status.terminal then reconcileRelations relations result
      else
        let err ← scheduleRelation relation child
        reconcileRelations relations (errorsJoin result err)

def reconcileLegacy : CProg host (Option Failure) := do
  match ← perform .listRelations with
  | .error e => return some e
  | .ok relations => reconcileRelations relations none

/-- `MaxReconcilePageSize`. -/
def maxReconcilePageSize : ℤ := 128

/-- `Reconcile`, with the state the Scheduler keeps under its mutex. -/
def reconcile (scheduler : Scheduler) (st : ReconcileState) :
    CProg host (Option Failure × ReconcileState) :=
  if ¬ scheduler.paged then do
    let result ← reconcileLegacy
    return (result, st)
  else do
    let retries := min maxReconcileRetriesPerTick st.retryIDs.length
    let (result, st) ← retryReconcileFailures scheduler retries st none
    match ← perform .contextErr with
    | some e => return (errorsJoin result (some e), st)
    | none =>
      match ← perform (.reconcilePage st.cursor maxReconcilePageSize) with
      | .error e => return (errorsJoin result (some e), st)
      | .ok page =>
        let (result, st, interrupted) ←
          reconcileCandidates scheduler page.candidates st.cursor st result
        if interrupted then return (result, st)
        else return (result, { st with cursor := if page.hasMore then page.nextCursor else [] })

end Scheduling
