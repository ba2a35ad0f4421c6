/-
The in-memory Store (`memory/store.go`, `memory/control.go`,
`memory/execution.go`, `memory/quarantine.go`).

Every method of the Store runs under its mutex, so each is one atomic function
from the Store to an answer and the next Store.  The Store's clock and its
entropy source are read inside a method; both readings are the method's `Env`.
The Go maps are functions to `Option` (to the zero value for `execution`, which
the source only ever reads with its default).  A cancelled context makes a
method return before it touches the Store, exactly as a call that is never made,
so contexts are left out.
-/
import AgentRuntime.KernelValidation
import Mathlib.Logic.Function.Basic

namespace Memory

open GoString Kernel Function

structure TransitionState where
  transition : CommittedTransition
  availableAt : Time := 0
  leaseID : GoString := []
  workerID : GoString := []
  leaseUntil : Time := 0
  deriving DecidableEq, Repr

structure MemoryExecutionState where
  epoch : UInt64 := 0
  lease : ExecutionLease := .zero
  quarantineRev : UInt64 := 0
  quarantineGen : UInt64 := 0
  quarantineCode : GoString := []
  deriving DecidableEq, Repr

structure Store where
  records : GoString → Option Snapshot := fun _ => none
  events : GoString → List Event := fun _ => []
  transitions : GoString → Option TransitionState := fun _ => none
  transitionOrder : List GoString := []
  execution : GoString → MemoryExecutionState := fun _ => {}

/-- `NewStore`. -/
def newStore : Store := {}

/-- What a method reads from outside the Store: the clock, and sixteen random
bytes unless the entropy source fails. -/
structure Env where
  now : Time
  entropy : Option (Fin 16 → UInt8) := none

/-! ### Committing -/

def appendEvents (current : List Event) : List EventDraft → Time → List Event
  | [], _ => current
  | d :: ds, createdAt =>
    appendEvents (current ++ [⟨current.length + 1, d.type, d.message, d.data, createdAt⟩])
      ds createdAt

def snapshotFromRecord (r : Record) (eventHead : ℕ) : Snapshot :=
  { run := r.run, state := r.state, checkpoint := r.checkpoint, result := r.result,
    eventHead := eventHead }

def committedTransitionID (runID : GoString) (revision : UInt64) : GoString :=
  runID ++ lit ":" ++ formatUint revision.toNat

def committedTransition (run : Run) (events : List EventDraft) : CommittedTransition :=
  { id := committedTransitionID run.id run.revision, runID := run.id, kind := run.kind,
    status := run.status, revision := run.revision, events := events,
    committedAt := run.updatedAt }

def appendCommittedTransition (s : Store) (run : Run) (events : List EventDraft) : Store :=
  if needsTransitionProjection run.status events then
    { s with
      transitions := update s.transitions (committedTransitionID run.id run.revision)
        (some { transition := committedTransition run events })
      transitionOrder := s.transitionOrder ++ [committedTransitionID run.id run.revision] }
  else s

def create (s : Store) (r : Record) (events : List EventDraft) :
    Except KernelError Snapshot × Store :=
  if (s.records r.run.id).isSome then (.error .alreadyExists, s)
  else
    let journal := appendEvents [] events r.run.updatedAt
    let snapshot := snapshotFromRecord r journal.length
    let execution :=
      if r.executionRequired then update s.execution r.run.id { epoch := 1 } else s.execution
    (.ok snapshot, appendCommittedTransition
      { s with
        records := update s.records r.run.id (some snapshot)
        events := update s.events r.run.id journal
        execution := execution } r.run events)

/-- `applyLocked`, reached only after the eligibility checks. -/
def applyLocked (s : Store) (runID : GoString) (expectedRevision : UInt64) (m : StoreMutation) :
    Except KernelError Snapshot × Store :=
  match s.records runID with
  | none => (.error .notFound, s)
  | some current =>
    if current.run.revision ≠ expectedRevision then (.error .conflict, s)
    else
      let journal := appendEvents (s.events runID) m.events m.record.run.updatedAt
      let next := snapshotFromRecord m.record journal.length
      (.ok next, appendCommittedTransition
        { s with
          records := update s.records runID (some next)
          events := update s.events runID journal } m.record.run m.events)

def apply (s : Store) (runID : GoString) (expectedRevision : UInt64) (m : StoreMutation) :
    Except KernelError Snapshot × Store :=
  if 0 < (s.execution runID).epoch then (.error .executionRequired, s)
  else applyLocked s runID expectedRevision m

/-! ### Reading -/

def load (s : Store) (runID : GoString) : Except KernelError Snapshot :=
  match s.records runID with
  | none => .error .notFound
  | some snapshot => .ok snapshot

def listEvents (s : Store) (runID : GoString) (afterSeq limit : ℤ) :
    Except KernelError (List Event) :=
  if trimSpace runID = [] ∨ afterSeq < 0 ∨ limit ≤ 0 ∨ 10000 < limit then .error .invalidInput
  else if (s.records runID).isNone then .error .notFound
  else .ok (((s.events runID).drop afterSeq.toNat).take limit.toNat)

/-! ### Controls -/

/-- `math.MaxUint64`. -/
def maxUint64 : UInt64 := 0xFFFFFFFFFFFFFFFF

def applyControl (H : Hashing) (s : Store) (now : Time) (runID : GoString)
    (expectedRevision : UInt64) (g : ControlGuard) (m : StoreMutation) :
    Except KernelError (Snapshot × Bool) × Store :=
  if runID = [] ∨ expectedRevision = 0 then (.error .invalidInput, s)
  else
    match s.records runID with
    | none => (.error .notFound, s)
    | some current =>
      if current.run.revision ≠ expectedRevision then (.error .conflict, s)
      else
        match validateControl H current g m now with
        | .error err => (.error err, s)
        | .ok _ =>
          let authority := s.execution runID
          if authority.quarantineRev ≠ 0 ∧ m.record.run.status = .running then
            (.error .executionQuarantined, s)
          else if authority.epoch = maxUint64 then (.error .executionConflict, s)
          else
            -- a control revokes the current owner before it commits
            let revoked := decide (0 < authority.epoch)
            let execution :=
              if revoked then
                update s.execution runID { authority with epoch := authority.epoch + 1, lease := .zero }
              else s.execution
            match applyLocked { s with execution := execution } runID expectedRevision m with
            | (.ok snapshot, s') => (.ok (snapshot, revoked), s')
            | (.error err, s') => (.error err, s')

/-! ### Execution leases -/

def millisecond : ℤ := 1000000

def maxLeaseDuration : ℤ := 24 * 3600 * 1000 * millisecond

def validLeaseDuration (d : ℤ) : Bool := millisecond ≤ d && d ≤ maxLeaseDuration

def validMemoryExecutionRequest (r : ExecutionAcquireRequest) : Bool :=
  trimSpace r.runID ≠ [] && trimSpace r.ownerID ≠ [] && validLeaseDuration r.leaseDuration

def validMemoryLease (l : ExecutionLease) : Bool :=
  l.runID ≠ [] && l.ownerID ≠ [] && l.leaseID ≠ [] && l.epoch ≠ 0 && !isZero l.expiresAt

def activeMemoryLease (state : MemoryExecutionState) (claimed : ExecutionLease) (now : Time) : Bool :=
  0 < state.epoch && state.lease.runID == claimed.runID && state.lease.ownerID == claimed.ownerID &&
    state.lease.leaseID == claimed.leaseID && state.lease.epoch == claimed.epoch &&
    now < state.lease.expiresAt

def acquireExecution (s : Store) (env : Env) (r : ExecutionAcquireRequest) :
    Except KernelError ExecutionLease × Store :=
  if ¬ validMemoryExecutionRequest r then (.error .invalidInput, s)
  else
    match s.records r.runID with
    | none => (.error .notFound, s)
    | some snap =>
      if snap.run.status.terminal then (.error .terminal, s)
      -- gated and unknown statuses are not executable
      else if snap.run.status ≠ .running then (.error .executionConflict, s)
      else
        let state := s.execution r.runID
        if state.quarantineRev ≠ 0 then (.error .executionQuarantined, s)
        else if state.epoch = 0 then (.error .executionRequired, s)
        else if 0 < state.epoch ∧ env.now < state.lease.expiresAt then (.error .executionConflict, s)
        else if state.epoch = maxUint64 then (.error .executionConflict, s)
        else
          match env.entropy with
          | none => (.error .entropy, s)
          | some token =>
            let lease : ExecutionLease :=
              { runID := r.runID, ownerID := trimSpace r.ownerID,
                leaseID := hexEncode (List.ofFn token), epoch := state.epoch + 1,
                expiresAt := env.now + r.leaseDuration }
            (.ok lease, { s with
              execution := update s.execution r.runID
                { state with epoch := lease.epoch, lease := lease } })

def renewExecution (s : Store) (now : Time) (r : ExecutionRenewRequest) :
    Except KernelError ExecutionLease × Store :=
  if ¬ (validMemoryLease r.lease ∧ validLeaseDuration r.leaseDuration) then (.error .invalidInput, s)
  else
    let state := s.execution r.lease.runID
    if ¬ activeMemoryLease state r.lease now then (.error .executionConflict, s)
    else
      let lease := { state.lease with expiresAt := now + r.leaseDuration }
      (.ok lease, { s with execution := update s.execution r.lease.runID { state with lease := lease } })

def releaseExecution (s : Store) (now : Time) (lease : ExecutionLease) :
    Except KernelError Unit × Store :=
  if ¬ validMemoryLease lease then (.error .invalidInput, s)
  else
    let state := s.execution lease.runID
    if ¬ activeMemoryLease state lease now then (.error .executionConflict, s)
    else
      -- the epoch stays, so the old token stays fenced
      (.ok (), { s with execution := update s.execution lease.runID { state with lease := .zero } })

def applyExecution (s : Store) (now : Time) (lease : ExecutionLease) (expectedRevision : UInt64)
    (m : StoreMutation) : Except KernelError Snapshot × Store :=
  if ¬ validMemoryLease lease ∨ expectedRevision = 0 ∨ m.record.run.id ≠ lease.runID ∨
      m.record.run.revision ≠ expectedRevision + 1 then (.error .invalidInput, s)
  else
    let state := s.execution lease.runID
    if state.quarantineRev ≠ 0 then (.error .executionQuarantined, s)
    else if ¬ activeMemoryLease state lease now then (.error .executionConflict, s)
    else
      match s.records lease.runID with
      | none => (.error .notFound, s)
      | some current =>
        -- even the incumbent owner cannot lift an approval or budget gate
        if current.run.status ≠ .running then (.error .executionRequired, s)
        else applyLocked s lease.runID expectedRevision m

def checkExecution (s : Store) (now : Time) (runID : GoString) (lease : Option ExecutionLease) :
    Except KernelError Unit :=
  if trimSpace runID = [] then .error .invalidInput
  else
    match s.records runID with
    | none => .error .notFound
    | some snap =>
      if snap.run.status.terminal then .error .terminal
      else
        let state := s.execution runID
        if state.quarantineRev ≠ 0 then .error .executionQuarantined
        else
          match lease with
          | none => if 0 < state.epoch then .error .executionRequired else .ok ()
          | some l =>
            if ¬ validMemoryLease l ∨ l.runID ≠ runID then .error .executionConflict
            else if snap.run.status ≠ .running then .error .executionRequired
            else if ¬ activeMemoryLease state l now then .error .executionConflict
            else .ok ()

/-! ### Quarantine -/

def validMemoryQuarantine (v : ExecutionQuarantine) : Bool :=
  v.runID ≠ [] && trimSpace v.runID == v.runID && 0 < v.revision && v.reason ≠ [] &&
    v.reason.length ≤ 64 && trimSpace v.reason == v.reason

def quarantineExecution (s : Store) (v : ExecutionQuarantine) : Except KernelError Unit × Store :=
  if ¬ validMemoryQuarantine v then (.error .invalidInput, s)
  else
    match s.records v.runID with
    | none => (.error .notFound, s)
    | some snapshot =>
      let state := s.execution v.runID
      if snapshot.run.revision ≠ v.revision then (.error .conflict, s)
      else if snapshot.run.status ≠ .running then (.error .executionRequired, s)
      else if state.epoch = 0 then (.error .executionRequired, s)
      else if state.quarantineRev ≠ 0 then
        if state.quarantineGen = v.generation ∧ state.quarantineCode = v.reason then (.ok (), s)
        else (.error .conflict, s)
      else if state.epoch = maxUint64 then (.error .executionConflict, s)
      else
        (.ok (), { s with
          execution := update s.execution v.runID
            { epoch := state.epoch + 1, lease := .zero, quarantineRev := v.revision,
              quarantineGen := v.generation, quarantineCode := v.reason } })

def repairExecutionQuarantine (s : Store) (v : ExecutionQuarantine) :
    Except KernelError Unit × Store :=
  if ¬ validMemoryQuarantine v then (.error .invalidInput, s)
  else
    match s.records v.runID with
    | none => (.error .notFound, s)
    | some snapshot =>
      let state := s.execution v.runID
      if snapshot.run.revision ≠ v.revision ∨ snapshot.run.status ≠ .running ∨
          state.quarantineRev ≠ v.revision ∨ state.quarantineGen ≠ v.generation ∨
          state.quarantineCode ≠ v.reason then (.error .conflict, s)
      else
        (.ok (), { s with
          execution := update s.execution v.runID
            { state with quarantineRev := 0, quarantineGen := 0, quarantineCode := [] } })

/-! ### The outbox -/

/-- The entry is not delayed and not leased to anybody. -/
def TransitionState.due (t : TransitionState) (now : Time) : Bool :=
  !(now < t.availableAt || (!isZero t.leaseUntil && now < t.leaseUntil))

/-- The entry `id` after it has been leased to the worker of `r`. -/
def TransitionState.claimed (t : TransitionState) (id : GoString) (r : TransitionClaimRequest) :
    TransitionState :=
  let attempts := t.transition.attempts + 1
  let workerID := trimSpace r.workerID
  { t with
    transition := { t.transition with attempts := attempts }
    workerID := workerID
    leaseID := workerID ++ lit ":" ++ id ++ lit ":" ++ formatUint attempts.toNat
    leaseUntil := r.now + r.leaseDuration }

def TransitionState.claim (t : TransitionState) : TransitionClaim :=
  { transition := t.transition, leaseID := t.leaseID, workerID := t.workerID,
    leaseUntil := t.leaseUntil }

/-- The loop of `ClaimTransitions` over the order slice. -/
def claimLoop (r : TransitionClaimRequest) :
    List GoString → List TransitionClaim → (GoString → Option TransitionState) →
      List TransitionClaim × (GoString → Option TransitionState)
  | [], claims, transitions => (claims, transitions)
  | id :: order, claims, transitions =>
    if r.limit ≤ claims.length then (claims, transitions)
    else
      match transitions id with
      | none => claimLoop r order claims transitions
      | some t =>
        if t.due r.now then
          let t' := t.claimed id r
          claimLoop r order (claims ++ [t'.claim]) (update transitions id (some t'))
        else claimLoop r order claims transitions

def claimTransitions (s : Store) (r : TransitionClaimRequest) :
    Except KernelError (List TransitionClaim) × Store :=
  if trimSpace r.workerID = [] ∨ r.limit ≤ 0 ∨ r.leaseDuration ≤ 0 ∨ isZero r.now then
    (.error .invalidInput, s)
  else
    let result := claimLoop r s.transitionOrder [] s.transitions
    (.ok result.1, { s with transitions := result.2 })

def validTransitionLease (r : TransitionLeaseRequest) : Bool :=
  trimSpace r.transitionID ≠ [] && trimSpace r.leaseID ≠ [] && trimSpace r.workerID ≠ []

def compactTransitionOrder (s : Store) : Store :=
  { s with transitionOrder := s.transitionOrder.dropWhile fun id => (s.transitions id).isNone }

def ackTransition (s : Store) (r : TransitionLeaseRequest) : Except KernelError Unit × Store :=
  if ¬ validTransitionLease r then (.error .invalidInput, s)
  else
    match s.transitions r.transitionID with
    | none => (.error .notFound, s)
    | some t =>
      if t.leaseID ≠ r.leaseID ∨ t.workerID ≠ r.workerID then (.error .conflict, s)
      else
        (.ok (), compactTransitionOrder
          { s with transitions := update s.transitions r.transitionID none })

def retryTransition (s : Store) (r : TransitionRetryRequest) : Except KernelError Unit × Store :=
  if ¬ validTransitionLease r.toTransitionLeaseRequest then (.error .invalidInput, s)
  else
    match s.transitions r.transitionID with
    | none => (.error .notFound, s)
    | some t =>
      if t.leaseID ≠ r.leaseID ∨ t.workerID ≠ r.workerID then (.error .conflict, s)
      else
        (.ok (), { s with
          transitions := update s.transitions r.transitionID
            (some { t with availableAt := r.availableAt, leaseID := [], workerID := [],
                           leaseUntil := 0 }) })

/-! ### The Store as one transition function -/

/-- The methods of the Store. -/
inductive StoreOp where
  | create (record : Record) (events : List EventDraft)
  | load (runID : GoString)
  | listEvents (runID : GoString) (afterSeq limit : ℤ)
  | apply (runID : GoString) (expectedRevision : UInt64) (mutation : StoreMutation)
  | applyExecution (lease : ExecutionLease) (expectedRevision : UInt64) (mutation : StoreMutation)
  | applyControl (runID : GoString) (expectedRevision : UInt64) (guard : ControlGuard)
      (mutation : StoreMutation)
  | acquireExecution (request : ExecutionAcquireRequest)
  | renewExecution (request : ExecutionRenewRequest)
  | releaseExecution (lease : ExecutionLease)
  | checkExecution (runID : GoString) (lease : Option ExecutionLease)
  | quarantineExecution (value : ExecutionQuarantine)
  | repairExecutionQuarantine (value : ExecutionQuarantine)
  | claimTransitions (request : TransitionClaimRequest)
  | ackTransition (request : TransitionLeaseRequest)
  | retryTransition (request : TransitionRetryRequest)
  deriving DecidableEq

/-- What a method answers when it succeeds. -/
abbrev StoreOp.Out : StoreOp → Type
  | create .. | load .. | apply .. | applyExecution .. => Snapshot
  | listEvents .. => List Event
  | applyControl .. => Snapshot × Bool
  | acquireExecution .. | renewExecution .. => ExecutionLease
  | claimTransitions .. => List TransitionClaim
  | releaseExecution .. | checkExecution .. | quarantineExecution .. | repairExecutionQuarantine ..
  | ackTransition .. | retryTransition .. => Unit

/-- The answer of a method. -/
abbrev StoreOp.Res (op : StoreOp) : Type := Except KernelError op.Out

/-- One call of a method. -/
def step (H : Hashing) (env : Env) (s : Store) : (op : StoreOp) → op.Res × Store
  | .create record events => create s record events
  | .load runID => (load s runID, s)
  | .listEvents runID afterSeq limit => (listEvents s runID afterSeq limit, s)
  | .apply runID expectedRevision m => apply s runID expectedRevision m
  | .applyExecution lease expectedRevision m => applyExecution s env.now lease expectedRevision m
  | .applyControl runID expectedRevision g m => applyControl H s env.now runID expectedRevision g m
  | .acquireExecution request => acquireExecution s env request
  | .renewExecution request => renewExecution s env.now request
  | .releaseExecution lease => releaseExecution s env.now lease
  | .checkExecution runID lease => (checkExecution s env.now runID lease, s)
  | .quarantineExecution value => quarantineExecution s value
  | .repairExecutionQuarantine value => repairExecutionQuarantine s value
  | .claimTransitions request => claimTransitions s request
  | .ackTransition request => ackTransition s request
  | .retryTransition request => retryTransition s request

end Memory
