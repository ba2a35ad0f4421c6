/-
The data model of the kernel: Runs, their snapshots and journals, the records a
Store commits, execution leases, controls and the committed-transition outbox.

The types follow `kernel/types.go`, `kernel/store.go`, `kernel/execution.go`,
`kernel/quarantine.go` and `kernel/control.go`.  Go's string enumerations are
open, so each inductive type has a last constructor for every other text.  A
`*T` is an `Option`, a `json.RawMessage` is its bytes, an instant is an integer
(nanoseconds; `0` is the zero `time.Time`), and revisions, epochs and
generations are machine words that wrap around.
-/
import AgentRuntime.GoStrings

namespace Kernel

/-- An instant.  All instants are UTC, so `UTC()` is the identity. -/
abbrev Time : Type := ℤ

/-- `time.Time.IsZero`. -/
def isZero (t : Time) : Bool := t == 0

/-- `json.RawMessage`. -/
abbrev RawMessage : Type := GoString

inductive RunStatus where
  | running
  | waitingInput
  | pausedBudget
  | completed
  | failed
  | cancelled
  | other (name : GoString)
  deriving DecidableEq, Repr

structure ActorRef where
  tenantID : GoString
  actorID : GoString
  deriving DecidableEq, Repr

structure ThreadRef where
  kind : GoString
  id : GoString
  deriving DecidableEq, Repr

/-- The durable root of one Run. -/
structure Run where
  id : GoString
  kind : GoString
  actor : ActorRef
  thread : ThreadRef
  requestID : GoString
  goal : GoString
  status : RunStatus
  revision : UInt64
  errorCode : GoString := []
  errorDetail : GoString := []
  deadlineAt : Option Time := none
  endedAt : Option Time := none
  createdAt : Time
  updatedAt : Time
  deriving DecidableEq, Repr

/-- An event as it is submitted; `wakeup`, `wakeupAt` and `wakeupGeneration`
reach only the outbox, never the journal. -/
structure EventDraft where
  type : GoString
  message : GoString := []
  data : RawMessage := []
  wakeup : Bool := false
  wakeupAt : Option Time := none
  wakeupGeneration : UInt64 := 0
  deriving DecidableEq, Repr

/-- A sequenced fact of the journal of one Run. -/
structure Event where
  seq : ℕ
  type : GoString
  message : GoString
  data : RawMessage
  createdAt : Time
  deriving DecidableEq, Repr

inductive CheckpointStatus where
  | pending
  | resolved
  | other (name : GoString)
  deriving DecidableEq, Repr

structure Checkpoint where
  id : GoString
  kind : GoString
  status : CheckpointStatus
  payload : RawMessage
  response : RawMessage := []
  createdAt : Time
  resolvedAt : Option Time := none
  deriving DecidableEq, Repr

structure Result where
  contentType : GoString
  content : RawMessage
  deriving DecidableEq, Repr

/-- The atomically readable state of one Run. -/
structure Snapshot where
  run : Run
  state : RawMessage
  checkpoint : Option Checkpoint := none
  result : Option Result := none
  eventHead : ℕ
  deriving DecidableEq, Repr

structure CreateRequest where
  executionRequired : Bool := false
  id : GoString
  kind : GoString
  actor : ActorRef
  thread : ThreadRef
  requestID : GoString := []
  goal : GoString
  deadlineAt : Option Time := none
  state : RawMessage
  events : List EventDraft := []
  deriving DecidableEq, Repr

/-- The replacement of a Run's feature state that a caller asks for. -/
structure Mutation where
  status : RunStatus
  state : RawMessage
  checkpoint : Option Checkpoint := none
  result : Option Result := none
  errorCode : GoString := []
  errorDetail : GoString := []
  events : List EventDraft := []
  deriving DecidableEq, Repr

/-- What a Store persists atomically with a Run. -/
structure Record where
  executionRequired : Bool := false
  run : Run
  state : RawMessage
  checkpoint : Option Checkpoint := none
  result : Option Result := none
  deriving DecidableEq, Repr

structure StoreMutation where
  record : Record
  events : List EventDraft
  deriving DecidableEq, Repr

/-! ### Execution authority -/

/-- A bearer token for one execution segment; `expiresAt` is informational. -/
structure ExecutionLease where
  runID : GoString
  ownerID : GoString
  leaseID : GoString
  epoch : UInt64
  expiresAt : Time
  deriving DecidableEq, Repr

/-- `kernel.ExecutionLease{}`. -/
def ExecutionLease.zero : ExecutionLease := ⟨[], [], [], 0, 0⟩

structure ExecutionAcquireRequest where
  runID : GoString
  ownerID : GoString
  leaseDuration : ℤ
  deriving DecidableEq, Repr

structure ExecutionRenewRequest where
  lease : ExecutionLease
  leaseDuration : ℤ
  deriving DecidableEq, Repr

structure ExecutionQuarantine where
  runID : GoString
  revision : UInt64
  generation : UInt64
  reason : GoString
  deriving DecidableEq, Repr

/-! ### Controls -/

inductive ControlKind where
  | approval
  | allowance
  | cancel
  | deadline
  | externalSignal
  | other (name : GoString)
  deriving DecidableEq, Repr

/-- `string(kind)`. -/
def ControlKind.text : ControlKind → GoString
  | approval => GoString.lit "approval"
  | allowance => GoString.lit "allowance"
  | cancel => GoString.lit "cancel"
  | deadline => GoString.lit "deadline"
  | externalSignal => GoString.lit "external_signal"
  | other name => name

/-- `featurecontrol.Proof`: a decision sealed by a Feature for one gate. -/
structure Proof where
  runID : GoString
  revision : UInt64
  kind : GoString
  source : GoString
  hash : GoString
  deriving DecidableEq, Repr

/-- The gate a control claims to open. -/
structure ControlGuard where
  kind : ControlKind
  checkpointID : GoString := []
  blockedCode : GoString := []
  waitID : GoString := []
  waitDeadlineAt : Option Time := none
  verified : Option Proof := none
  deriving DecidableEq, Repr

/-! ### The committed-transition outbox -/

structure CommittedTransition where
  id : GoString
  runID : GoString
  kind : GoString
  status : RunStatus
  revision : UInt64
  events : List EventDraft
  committedAt : Time
  attempts : UInt32 := 0
  deriving DecidableEq, Repr

structure TransitionClaimRequest where
  workerID : GoString
  limit : ℤ
  leaseDuration : ℤ
  now : Time
  deriving DecidableEq, Repr

structure TransitionClaim where
  transition : CommittedTransition
  leaseID : GoString
  workerID : GoString
  leaseUntil : Time
  deriving DecidableEq, Repr

structure TransitionLeaseRequest where
  transitionID : GoString
  leaseID : GoString
  workerID : GoString
  deriving DecidableEq, Repr

structure TransitionRetryRequest extends TransitionLeaseRequest where
  availableAt : Time
  deriving DecidableEq, Repr

/-! ### Errors -/

/-- The sentinel errors of the kernel and of its Stores, and the two wrappers
that say on which side of the Store boundary a control failed. -/
inductive KernelError where
  | invalidInput
  | notFound
  | alreadyExists
  | conflict
  | terminal
  | deadline
  | executionConflict
  | executionRequired
  | executionQuarantined
  | applyAlreadyCommitted
  | applyOutcomeUnknown
  /-- The system's entropy source failed. -/
  | entropy
  /-- `json.Marshal` failed. -/
  | marshal
  /-- `errors.Join`. -/
  | join (first second : KernelError)
  /-- `controlPreStoreFailure`. -/
  | preStore (cause : KernelError)
  /-- `controlStoreOutcomeError`. -/
  | storeOutcome (cause : KernelError)
  deriving DecidableEq, Repr

/-! ### Status predicates -/

/-- `terminalStatus`. -/
def RunStatus.terminal : RunStatus → Bool
  | completed | failed | cancelled => true
  | _ => false

/-- `NeedsTransitionProjection`: terminal transitions always, others when one of
their events asks for a wakeup. -/
def needsTransitionProjection (status : RunStatus) (events : List EventDraft) : Bool :=
  status.terminal || events.any EventDraft.wakeup

end Kernel
