/-
The system in which continuations are scheduled and delivered.

Schedulers read the kernel's outbox and the relations between Runs and put Jobs on
one queue; Workers take them off again.  All of them are programs over one shared
object: the kernel Store, in which the Runtimes go on committing, the relation
registry, the queue with its clock, and everything the host supplies.  What the
host supplies may answer anything, and any call may be refused.

The object keeps a log of what happened to deliveries and a record of the lookups
that found nothing.  No program reads them: statements about the past speak of them.
-/
import AgentRuntime.Continuation
import AgentRuntime.DeliveryQueue
import AgentRuntime.TransitionOutbox

namespace Scheduling

open GoString Kernel Memory Interleaving Continuation FiniteMap
open Queue (Job Jobs QueueError LeaseRequest NackRequest ClaimRequest Delivery EnqueueResult)

/-! ### Relations between Runs (`runrelation/runrelation.go`) -/

/-- One immutable ownership fact. -/
structure Relation where
  parentRunID : GoString
  childRunID : GoString
  kind : GoString
  ownerNodeID : GoString
  createdAt : Time
  deriving DecidableEq, Repr

def validRelationKind (kind : GoString) : Bool :=
  kind = lit "team_member" || kind = lit "group_chat_speaker" || kind = lit "workflow_effect" ||
    kind = lit "delegation" || kind = lit "capability"

/-- `runrelation.Prepare`. -/
def prepareRelation (r : Relation) : Option Relation :=
  let r := { r with
    parentRunID := trimSpace r.parentRunID
    childRunID := trimSpace r.childRunID
    kind := trimSpace r.kind
    ownerNodeID := trimSpace r.ownerNodeID }
  if r.parentRunID = [] ∨ r.childRunID = [] ∨ r.parentRunID = r.childRunID ∨ r.ownerNodeID = [] ∨
      isZero r.createdAt ∨ ¬ validRelationKind r.kind then none
  else some r

/-- A relation with its last settled child-terminal revisions. -/
structure ReconciliationCandidate where
  relation : Relation
  lastParentRevision : UInt64
  lastChildRevision : UInt64
  deriving DecidableEq, Repr

structure ReconciliationPage where
  candidates : List ReconciliationCandidate
  nextCursor : GoString
  hasMore : Bool
  deriving DecidableEq, Repr

/-! ### The shared state -/

/-- What the log records. -/
inductive Event where
  /-- The handler returned from `Dispatch` in a delivery. -/
  | dispatched (delivery : LeaseRequest) (payload : Payload) (result : Option Failure)
  /-- `TerminalQuarantine` returned in a delivery. -/
  | quarantined (delivery : LeaseRequest) (payload : Payload) (cause : Failure)
      (result : Option Failure)
  | acked (delivery : LeaseRequest)
  | nacked (request : NackRequest)
  /-- A scheduled payload reached the queue. -/
  | enqueued (payload : Payload) (result : Except QueueError EnqueueResult)
  /-- A call was refused by the host. -/
  | refused

/-- An event, with the Job it is about as it was then, and the time on the clock. -/
structure Entry where
  event : Event
  found : Option Job
  now : Time

/-- What a Scheduler has looked for. -/
inductive Wanted where
  /-- The relation of a child. -/
  | relation (childRunID : GoString)
  | run (runID : GoString)
  deriving DecidableEq, Repr

structure System where
  world : World := {}
  /-- The relations, by child. -/
  relations : Map GoString Relation := ∅
  jobs : Jobs := ∅
  /-- The last reading of the queue's clock. -/
  clock : Time := 0
  /-- The Job and the identifier of every lease that was granted. -/
  granted : List (GoString × GoString) := []
  log : List Entry := []
  /-- What was looked for and not there, with the commits at that moment. -/
  misses : List (Wanted × List Commit) := []

namespace System

/-- The state with one more entry in the log. -/
def note (s : System) (event : Event) (jobID : GoString) : System :=
  { s with log := ⟨event, s.jobs.lookup jobID, s.clock⟩ :: s.log }

/-- The state after the queue has read its clock and changed its Jobs. -/
def tick (s : System) (now : Time) (jobs : Jobs) : System := { s with clock := now, jobs := jobs }

/-- The state after a lookup with the answer `r`. -/
def lookedFor {α : Type} (s : System) (wanted : Wanted) (r : Except Failure α) : System :=
  match r with
  | .ok _ => s
  | .error _ => { s with misses := (wanted, s.world.commits) :: s.misses }

end System

/-- What the repository takes from outside: hashing, the texts of errors and the
clock of the queue, as the relation between two of its readings in a row. -/
structure Host where
  hashing : Hashing
  errorText : Failure → GoString
  Tick : Time → Time → Prop

def Host.sha256 (host : Host) : GoString → GoString := host.hashing.sha256

/-! ### Calls -/

inductive Op where
  | contextErr
  /-- The clock of a Scheduler. -/
  | schedulerNow
  /-- The clock of the queue, read outside its lock. -/
  | queueNow
  /-- A Runtime or another user of the Store moves. -/
  | kernel
  | load (runID : GoString)
  | claimTransitions (request : TransitionClaimRequest)
  | ackTransition (request : TransitionLeaseRequest)
  | retryTransition (request : TransitionRetryRequest)
  /-- A feature records a relation. -/
  | relate (relation : Relation)
  | relationByChild (childRunID : GoString)
  | listRelations
  | reconcilePage (cursor : GoString) (limit : ℤ)
  | markObserved (childRunID : GoString) (parentRevision childRevision : UInt64)
  | markEnqueued (childRunID : GoString) (parentRevision childRevision : UInt64)
  | reconcileGuard (parent : Snapshot) (relation : Relation)
  | enqueue (payload : Payload) (job : Job)
  | claim (request : ClaimRequest)
  | renew (request : LeaseRequest)
  | ack (request : LeaseRequest)
  | nack (request : NackRequest)
  | reap (queueName : GoString)
  | requeueDeadLetter (jobID : GoString)
  /-- The lane of a Run inside one Worker. -/
  | awaitLane (runID : GoString)
  | dispatch (delivery : LeaseRequest) (payload : Payload)
  | quarantine (delivery : LeaseRequest) (payload : Payload) (cause : Failure)
  /-- What the renewal goroutine of a delivery reports. -/
  | awaitRenewal
  /-- The renewal goroutine wakes up, or is told to stop. -/
  | awaitTicker

abbrev Op.Res : Op → Type
  | contextErr | ackTransition _ | retryTransition _ | markObserved .. | markEnqueued ..
  | awaitLane _ | dispatch .. | quarantine .. | awaitRenewal => Option Failure
  | schedulerNow | queueNow => Time
  | kernel | relate _ => Unit
  | load _ => Except Failure Snapshot
  | claimTransitions _ => Except Failure (List TransitionClaim)
  | relationByChild _ => Except Failure Relation
  | listRelations => Except Failure (List Relation)
  | reconcilePage .. => Except Failure ReconciliationPage
  | reconcileGuard .. => Except Failure Bool
  | enqueue .. => Except Failure EnqueueResult
  | claim _ => Except Failure (List Delivery)
  | renew _ | ack _ | nack _ | requeueDeadLetter _ => Except Failure Job
  | reap _ => Except Failure ℕ
  | awaitTicker => Bool

/-- The marks of a kernel error. -/
def kernelFailure : KernelError → Failure
  | .invalidInput => [.kernelInvalidInput]
  | .notFound => [.kernelNotFound]
  | .conflict => [.kernelConflict]
  | .terminal => [.kernelTerminal]
  | .join first second => kernelFailure first ++ kernelFailure second
  | .preStore cause | .storeOutcome cause => kernelFailure cause
  | .alreadyExists | .deadline | .executionConflict | .executionRequired | .executionQuarantined
  | .applyAlreadyCommitted | .applyOutcomeUnknown | .entropy | .marshal => [.other (lit "kernel")]

def queueFailure (e : QueueError) : Failure := [.other e.text]

/-- A nil error, or the failure of a call without a result. -/
def failureOf {α ε : Type} (f : ε → Failure) : Except ε α → Option Failure
  | .ok _ => none
  | .error e => some (f e)

/-- `Runtime.Load` on the records of the Store. -/
def loadFrom (w : World) (runID : GoString) : Except Failure Snapshot :=
  if trimSpace runID = [] then .error [.kernelInvalidInput]
  else (Memory.load w.store (trimSpace runID)).mapError kernelFailure

/-- The registry's answer to `GetByChild`. -/
def relationFrom (relations : Map GoString Relation) (childRunID : GoString) :
    Except Failure Relation :=
  match relations.lookup (trimSpace childRunID) with
  | some relation => .ok relation
  | none => .error [.relationNotFound]

/-- The host refuses a call: the context is done, or an adapter cannot be reached. -/
def Refused (s : System) (e : Failure) (s' : System) : Prop :=
  .kernelNotFound ∉ e ∧ .relationNotFound ∉ e ∧ s' = s.note .refused []

section Object

variable (host : Host)

/-- A method of the queue answers at the time `now` of its clock. -/
def Answers (s : System) (now : Time) {α : Type} (out : Except QueueError α × Jobs)
    (r : Except Failure α) (s' : System) : Prop :=
  host.Tick s.clock now ∧ r = out.1.mapError queueFailure ∧ s' = s.tick now out.2

/-- The leases a call of `Claim` has granted. -/
def grants : Except QueueError (List Delivery) → List (GoString × GoString)
  | .ok deliveries => deliveries.map fun d => (d.job.id, d.lease.id)
  | .error _ => []

/-- The calls that the queue answers under its lock. -/
def QueueAnswers (s : System) : (op : Op) → op.Res → System → Prop
  | .enqueue payload job, r, s' =>
    r = (Queue.enqueue s.jobs job).1.mapError queueFailure ∧
      s' = { s.note (.enqueued payload (Queue.enqueue s.jobs job).1) job.id with
        jobs := (Queue.enqueue s.jobs job).2 }
  | .claim request, r, s' => ∃ now s₁,
      Answers host s now (Queue.claim host.sha256 s.jobs now request) r s₁ ∧
      s' = { s₁ with granted := grants (Queue.claim host.sha256 s.jobs now request).1 ++ s.granted }
  | .renew request, r, s' => ∃ now, Answers host s now (Queue.renew s.jobs now request) r s'
  | .ack request, r, s' => ∃ now s₁, Answers host s now (Queue.ack s.jobs now request) r s₁ ∧
      s' = { s₁ with
        log := ⟨.acked request, s.jobs.lookup request.trimmed.jobID, now⟩ :: s.log }
  | .nack request, r, s' => ∃ now s₁, Answers host s now (Queue.nack s.jobs now request) r s₁ ∧
      s' = { s₁ with
        log := ⟨.nacked request, s.jobs.lookup request.trimmed.jobID, now⟩ :: s.log }
  | .reap queueName, r, s' => ∃ now, Answers host s now (Queue.reap s.jobs now queueName) r s'
  | .requeueDeadLetter jobID, r, s' =>
    ∃ now, Answers host s now (Queue.requeueDeadLetter s.jobs now jobID) r s'
  | _, _, _ => False

/-- The calls that the kernel Store and the relation registry answer. -/
def StoreAnswers (s : System) : (op : Op) → op.Res → System → Prop
  | .load runID, r, s' => r = loadFrom s.world runID ∧ s' = s.lookedFor (.run runID) r
  | .claimTransitions request, r, s' =>
    ∃ env res w', s.world.perform host.hashing env (.claimTransitions request) = (res, w') ∧
      r = res.mapError kernelFailure ∧ s' = { s with world := w' }
  | .ackTransition request, r, s' =>
    ∃ env res w', s.world.perform host.hashing env (.ackTransition request) = (res, w') ∧
      r = failureOf kernelFailure res ∧ s' = { s with world := w' }
  | .retryTransition request, r, s' =>
    ∃ env res w', s.world.perform host.hashing env (.retryTransition request) = (res, w') ∧
      r = failureOf kernelFailure res ∧ s' = { s with world := w' }
  | .relationByChild childRunID, r, s' => r = relationFrom s.relations childRunID ∧
      s' = s.lookedFor (.relation childRunID) r
  | .listRelations, r, s' => s' = s ∧ ∀ rs, r = .ok rs →
      ∀ relation ∈ rs, s.relations.lookup relation.childRunID = some relation
  | .reconcilePage _ _, r, s' => s' = s ∧ ∀ page, r = .ok page →
      ∀ candidate ∈ page.candidates,
        s.relations.lookup candidate.relation.childRunID = some candidate.relation
  | _, _, _ => False

/-- The calls that the host answers as it likes.  When a handler or the quarantine
returns, the log records the answer. -/
def HostAnswers (s : System) : (op : Op) → op.Res → System → Prop
  | .schedulerNow, _, s' | .awaitRenewal, _, s' | .awaitTicker, _, s'
  | .reconcileGuard .., _, s' | .markObserved .., _, s' | .markEnqueued .., _, s' => s' = s
  | .queueNow, now, s' => host.Tick s.clock now ∧ s' = s.tick now s.jobs
  | .contextErr, r, s' | .awaitLane _, r, s' => r = none ∧ s' = s
  | .dispatch delivery payload, r, s' =>
    ∃ now, host.Tick s.clock now ∧
      s' = (s.tick now s.jobs).note (.dispatched delivery payload r) delivery.jobID
  | .quarantine delivery payload cause, r, s' =>
    ∃ now, host.Tick s.clock now ∧
      s' = (s.tick now s.jobs).note (.quarantined delivery payload cause r) delivery.jobID
  -- the Runtimes commit, and nobody but a Scheduler acknowledges a transition
  | .kernel, _, s' => ∃ w', (outboxDiscipline host.hashing).protocol.Guar s.world w' ∧
      (∀ txid, Acked w' txid → Acked s.world txid) ∧ s' = { s with world := w' }
  -- a relation is recorded once for each child and never changes
  | .relate relation, _, s' => s' = s ∨ ∃ r, prepareRelation relation = some r ∧
      s.relations.lookup r.childRunID = none ∧
      s' = { s with relations := s.relations.insert r.childRunID r }
  | _, _, _ => False

/-- The answer of a call that the host refuses. -/
def refusal (e : Failure) : (op : Op) → Option op.Res
  | .contextErr | .ackTransition _ | .retryTransition _ | .markObserved .. | .markEnqueued ..
  | .awaitLane _ => some (some e)
  | .load _ | .claimTransitions _ | .relationByChild _ | .listRelations | .reconcilePage ..
  | .reconcileGuard .. | .claim _ | .renew _ | .ack _ | .nack _ | .reap _
  | .requeueDeadLetter _ => some (.error e)
  | .schedulerNow | .queueNow | .kernel | .relate _ | .enqueue .. | .dispatch .. | .quarantine ..
  | .awaitRenewal | .awaitTicker => none

/-- Schedulers, Workers, the kernel and the queue in one system. -/
def continuationObject : SharedObject System where
  Op := Op
  Res := Op.Res
  Exec s op r s' := QueueAnswers host s op r s' ∨ StoreAnswers host s op r s' ∨
    HostAnswers host s op r s' ∨ ∃ e, refusal e op = some r ∧ Refused s e s'

abbrev CProg (α : Type) : Type := Prog (continuationObject host) α

end Object

variable {host : Host}

/-- One call. -/
def perform (op : Op) : CProg host op.Res := Prog.op (O := continuationObject host) op

lemma sampleHash_length (s : GoString) :
    (s.sum :: (s.reverse ++ List.replicate 31 0).take 31).length = 32 := by
  simp

/-- A host for concrete runs: a digest is a checksum and the end of the text, read backwards. -/
def sampleHost : Host where
  hashing :=
    { Hashing.sample with
      sha256 := fun s => s.sum :: (s.reverse ++ List.replicate 31 0).take 31
      sha256_length := sampleHash_length }
  errorText _ := lit "failed"
  Tick earlier later := earlier ≤ later

end Scheduling
