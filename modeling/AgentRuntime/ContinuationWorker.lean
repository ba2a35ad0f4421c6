/-
Continuation Workers (`continuation/worker.go`).

A Worker claims one Job at a time, hands its payload to the handler while another
goroutine renews the lease, and completes or releases the Job.  A Job that has used
up its attempts may become a dead letter only after the host has quarantined the
Run in its authoritative Store.
-/
import AgentRuntime.ContinuationScheduler

namespace Scheduling

open GoString Kernel Interleaving Continuation FiniteMap
open Queue (Job Jobs QueueError LeaseRequest NackRequest ClaimRequest Delivery)

variable {host : Host}

/-! ### The Worker -/

structure Worker where
  workerID : GoString
  claimLimit : ℕ
  /-- `TerminalQuarantine` is configured. -/
  quarantines : Bool

/-- `Payload{}`. -/
def zeroPayload : Payload := ⟨0, [], 0, .other [], [], 0, 0⟩

def validTerminalQuarantinePayload (job : Job) (p : Payload) : Bool :=
  !(job.kind ≠ jobKind || p.runID = [] || p.expectedRevision = 0 || p.schemaVersion ≠ currentSchema)

/-- `dispatchRun`: the lane of the Run, then the handler. -/
def dispatchRun (delivery : LeaseRequest) (p : Payload) : CProg host (Option Failure) := do
  match ← perform (.awaitLane p.runID) with
  | some e => return some e
  | none => perform (.dispatch delivery p)

/-- The payload of a Job, and what is wrong with it. -/
def readJob (job : Job) : Payload × Option Failure :=
  match decodePayload job.payload with
  | .error e => (zeroPayload, some e)
  | .ok p => (p, if job.kind ≠ jobKind then some [.invalidInput] else none)

/-- A payload that could not be read is not dispatched. -/
def dispatchJob (delivery : LeaseRequest) (job : Payload × Option Failure) :
    CProg host (Option Failure) :=
  match job.2 with
  | none => dispatchRun delivery job.1
  | some e => return some e

/-- The last attempt of a protected Job has failed: ask for the fence.  The answer
says whether it stands, and how the failure reads now. -/
def fence (worker : Worker) (delivery : LeaseRequest) (job : Job) (p : Payload) (cause : Failure) :
    CProg host (Bool × Failure) :=
  if job.policy.requireTerminalFence ∧ job.policy.maxAttempts ≤ job.attempt then
    if ¬ validTerminalQuarantinePayload job p then
      return (false, cause ++ [.invalidInput] ++ [.terminalFenceRequired])
    else if ¬ worker.quarantines then return (false, cause ++ [.terminalFenceRequired])
    else do
      match ← perform (.quarantine delivery p cause) with
      | some fenceErr => return (false, cause ++ [.terminalFenceRequired] ++ fenceErr)
      | none => return (true, cause)
  else return (false, cause)

/-- The end of `consumeDelivery`: the renewal is stopped and the Job completed or
released, unless the Worker shuts down. -/
def settle (host : Host) (delivery : LeaseRequest) (terminalFenced : Bool) (err : Option Failure) :
    CProg host Unit := do
  let leaseErr ← perform .awaitRenewal
  match ← perform .contextErr with
  | some _ => return ()
  | none =>
    match errorsJoin err leaseErr with
    | none => do
      let _ ← perform (.ack delivery)
      return ()
    | some err => do
      let _ ← perform (.nack
        ⟨delivery, lit "continuation.dispatch_failed", host.errorText err, terminalFenced⟩)
      return ()

def consumeDelivery (worker : Worker) (delivery : Delivery) : CProg host Unit := do
  let request : LeaseRequest := ⟨delivery.job.id, delivery.lease.id, worker.workerID⟩
  match ← dispatchJob request (readJob delivery.job) with
  | none => settle host request false none
  | some cause =>
    let (terminalFenced, cause) ← fence worker request delivery.job (readJob delivery.job).1 cause
    settle host request terminalFenced (some cause)

def consumeDeliveries (worker : Worker) : List Delivery → CProg host Bool
  | [] => return true
  | delivery :: deliveries => do
    match ← perform .contextErr with
    | some _ => return false
    | none =>
      consumeDelivery worker delivery
      consumeDeliveries worker deliveries

/-- The loop of `consume`, with the deliveries left in this poll. -/
def consumeLoop (worker : Worker) : ℕ → CProg host Unit
  | 0 => return ()
  | n + 1 => do
    match ← perform .contextErr with
    | some _ => return ()
    | none =>
      match ← perform (.claim ⟨queueName, worker.workerID, 1⟩) with
      | .error _ => return ()
      | .ok [] => return ()
      | .ok deliveries =>
        if ← consumeDeliveries worker deliveries then consumeLoop worker n else return ()

def consume (worker : Worker) : CProg host Unit := consumeLoop worker worker.claimLimit

/-- `keepDeliveryLease`, for as many renewals as it lives. -/
def keepDeliveryLease (delivery : LeaseRequest) : ℕ → CProg host (Option Failure)
  | 0 => return none
  | n + 1 => do
    if ← perform .awaitTicker then
      match ← perform (.renew delivery) with
      | .ok _ => keepDeliveryLease delivery n
      | .error e =>
        match ← perform .contextErr with
        | some _ => return none
        | none => return some e
    else return none

/-! ### The system of all Workers and Schedulers -/

/-- Everything that goes on around one queue.  A renewal goroutine is a request of
its own, and may be started for any lease at any time; so may a Runtime's commit, a
new relation, a sweep and the replay of a dead letter. -/
inductive Request where
  | schedule (payload : Payload)
  | project (scheduler : Scheduler)
  | reconcile (scheduler : Scheduler) (st : ReconcileState)
  | consume (worker : Worker)
  | keepDeliveryLease (delivery : LeaseRequest) (renewals : ℕ)
  | reap (queueName : GoString)
  | requeueDeadLetter (jobID : GoString)
  | kernel
  | relate (relation : Relation)

def serveContinuation : Request → CProg host Unit
  | .schedule payload => do
    let _ ← schedule payload none
    return ()
  | .project scheduler => do
    let _ ← project scheduler
    return ()
  | .reconcile scheduler st => do
    let _ ← reconcile scheduler st
    return ()
  | .consume worker => consume worker
  | .keepDeliveryLease delivery renewals => do
    let _ ← keepDeliveryLease delivery renewals
    return ()
  | .reap queueName => do
    let _ ← perform (.reap queueName)
    return ()
  | .requeueDeadLetter jobID => do
    let _ ← perform (.requeueDeadLetter jobID)
    return ()
  | .kernel => perform .kernel
  | .relate relation => perform (.relate relation)

end Scheduling
