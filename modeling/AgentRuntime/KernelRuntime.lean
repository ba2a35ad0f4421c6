/-
The kernel Runtime as programs over the Store
(`kernel/runtime.go`, `kernel/control.go`, `kernel/execution.go`,
`kernel/quarantine.go`, `kernel/apply_evidence.go`).

A Runtime handle reads a snapshot, validates a mutation against it and then asks
the Store to commit; between the two calls everybody else may move.  Every method
is therefore a program (`KProg`) over one shared object, whose calls are the
methods of the Store, the Runtime's clock and its identifier source.  Readings of
the clock are arbitrary.  Identifiers are arbitrary strings without surrounding
blanks, as `randomIDSource` and every other source of the repository make them.
-/
import AgentRuntime.Interleaving
import AgentRuntime.StoreRuns

namespace Kernel

open GoString Memory Interleaving

/-! ### The shared object -/

/-- What a Runtime calls. -/
inductive KernelOp where
  | store (op : StoreOp)
  | now
  | newID (kind : GoString)

abbrev KernelOp.Res : KernelOp → Type
  | store op => op.Res
  | now => Time
  | newID _ => Except KernelError GoString

/-- The Store with its log, a clock and an identifier source. -/
def kernelObject (H : Hashing) : SharedObject World where
  Op := KernelOp
  Res := KernelOp.Res
  Exec w op := match op with
    | .store op => fun r w' => ∃ env, w.perform H env op = (r, w')
    | .now => fun _ w' => w' = w
    | .newID _ => fun r w' => w' = w ∧ ∀ id, r = .ok id → trimSpace id = id

abbrev KProg (H : Hashing) (α : Type) : Type := Prog (kernelObject H) α

variable {H : Hashing}

/-- One call of the Store. -/
def callStore (op : StoreOp) : KProg H op.Res := Prog.op (O := kernelObject H) (.store op)

def readClock : KProg H Time := Prog.op (O := kernelObject H) .now

def newID (kind : GoString) : KProg H (Except KernelError GoString) :=
  Prog.op (O := kernelObject H) (.newID (trimSpace kind))

/-- `randomIDSource.NewID` with the bytes it reads. -/
def randomID (kind : GoString) (bytes : Fin 16 → UInt8) : GoString :=
  if kind = [] then hexEncode (List.ofFn bytes)
  else kind ++ lit "_" ++ hexEncode (List.ofFn bytes)

/-- The default identifier source answers as `kernelObject` allows. -/
lemma randomID_trimmed {kind : GoString} (hkind : ∀ b ∈ kind, isGraphic b = true)
    (bytes : Fin 16 → UInt8) : trimSpace (randomID kind bytes) = randomID kind bytes := by
  refine trimSpace_of_graphic fun b hb => ?_
  rw [randomID] at hb
  split at hb
  · exact hexEncode_graphic hb
  simp only [List.mem_append] at hb
  rcases hb with (hb | hb) | hb
  · exact hkind b hb
  · revert b
    decide +kernel
  · exact hexEncode_graphic hb

/-! ### Creating and reading -/

def validRunKindByte (first : Bool) (b : UInt8) : Bool :=
  (0x61 ≤ b && b ≤ 0x7A) ||
    (!first && ((0x30 ≤ b && b ≤ 0x39) || b == 0x5F || b == 0x2D || b == 0x2E))

def validRunKind (kind : GoString) : Bool :=
  match kind with
  | [] => false
  | b :: rest => kind.length ≤ 64 && trimSpace kind == kind && validRunKindByte true b &&
      rest.all (validRunKindByte false)

def validActor (a : ActorRef) : Bool := trimSpace a.tenantID ≠ [] && trimSpace a.actorID ≠ []

def validThread (t : ThreadRef) : Bool := trimSpace t.kind ≠ [] && trimSpace t.id ≠ []

def validCreateRequest (r : CreateRequest) : Bool :=
  validRunKind r.kind && validActor r.actor && validThread r.thread && trimSpace r.goal ≠ [] &&
    validState r.state

/-- `identifiedApplyEventType`. -/
def identifiedApplyEventType : GoString := lit "kernel.apply.evidence"

def hasReservedApplyEvidence (events : List EventDraft) : Bool :=
  events.any fun e => e.type == identifiedApplyEventType

/-- The record `Create` submits. -/
def createRecord (r : CreateRequest) (runID : GoString) (now : Time) : Record where
  executionRequired := r.executionRequired
  run :=
    { id := runID, kind := r.kind, actor := r.actor, thread := r.thread
      requestID := trimSpace r.requestID, goal := trimSpace r.goal, status := .running
      revision := 1, deadlineAt := r.deadlineAt, createdAt := now, updatedAt := now }
  state := r.state

def createEvents (r : CreateRequest) : List EventDraft :=
  { type := lit "run.created", message := lit "Run created" } :: r.events

/-- The part of `Create` after the identifier is known. -/
def createWithID (r : CreateRequest) (runID : GoString) :
    KProg H (Except KernelError Snapshot) := do
  let now ← readClock
  match r.deadlineAt with
  | some deadlineAt =>
    if deadlineAt ≤ now then return .error .deadline
    else callStore (.create (createRecord r runID now) (createEvents r))
  | none => callStore (.create (createRecord r runID now) (createEvents r))

/-- `Runtime.Create` over a Store that supports execution. -/
def create (r : CreateRequest) : KProg H (Except KernelError Snapshot) :=
  if ¬ validCreateRequest r ∨ hasReservedApplyEvidence r.events then return .error .invalidInput
  else if trimSpace r.id = [] then do
    match ← newID (lit "run") with
    | .error e => return .error e
    | .ok runID => createWithID r runID
  else createWithID r (trimSpace r.id)

/-- `Runtime.Load`. -/
def loadRun (runID : GoString) : KProg H (Except KernelError Snapshot) :=
  if trimSpace runID = [] then return .error .invalidInput
  else callStore (.load (trimSpace runID))

/-- `Runtime.ListEvents`. -/
def listRunEvents (runID : GoString) (afterSeq limit : ℤ) :
    KProg H (Except KernelError (List Event)) :=
  if trimSpace runID = [] ∨ afterSeq < 0 ∨ limit ≤ 0 ∨ 10000 < limit then return .error .invalidInput
  else callStore (.listEvents (trimSpace runID) afterSeq limit)

/-! ### Applying mutations -/

/-- `makeStoreMutation`, with the clock reading it takes. -/
def makeStoreMutation (now : Time) (current : Snapshot) (m : Mutation) : StoreMutation where
  record :=
    { run :=
        { current.run with
          status := m.status
          revision := current.run.revision + 1
          errorCode := trimSpace m.errorCode
          errorDetail := trimSpace m.errorDetail
          updatedAt := now
          endedAt := if m.status.terminal then some now else current.run.endedAt }
      state := m.state
      checkpoint := m.checkpoint
      result := m.result }
  events := m.events

/-- A Runtime handle, bound to an execution lease by `WithExecution` or unbound. -/
structure Handle where
  execution : Option ExecutionLease := none

def validExecutionDuration (ttl : ℤ) : Bool := 1000000 ≤ ttl && ttl ≤ 24 * 3600 * 1000 * 1000000

def validExecutionAcquireRequest (r : ExecutionAcquireRequest) : Bool :=
  trimSpace r.runID ≠ [] && trimSpace r.ownerID ≠ [] && validExecutionDuration r.leaseDuration

def validExecutionLease (l : ExecutionLease) : Bool :=
  trimSpace l.runID ≠ [] && trimSpace l.ownerID ≠ [] && trimSpace l.leaseID ≠ [] && 0 < l.epoch &&
    !isZero l.expiresAt

/-- `Runtime.validBoundRun`. -/
def Handle.validBoundRun (handle : Handle) (runID : GoString) : Bool :=
  match handle.execution with
  | none => true
  | some lease => validExecutionLease lease && lease.runID == runID

/-- The write at the end of `Runtime.apply`: a bound handle is fenced.  An unbound
one passes the identifier on as it was given, not as it was loaded. -/
def commitMutation (handle : Handle) (runID : GoString) (expectedRevision : UInt64)
    (proposed : StoreMutation) : KProg H (Except KernelError Snapshot) :=
  match handle.execution with
  | some lease => callStore (.applyExecution lease expectedRevision proposed)
  | none => callStore (.apply runID expectedRevision proposed)

/-- `Runtime.apply`; only `ApplyIdentified` passes `evidence`. -/
def applyMutation (handle : Handle) (runID : GoString) (expectedRevision : UInt64) (m : Mutation)
    (evidence : Bool) : KProg H (Except KernelError Snapshot) :=
  if trimSpace runID = [] ∨ expectedRevision = 0 then return .error .invalidInput
  else if ¬ evidence ∧ hasReservedApplyEvidence m.events then return .error .invalidInput
  else if ¬ handle.validBoundRun (trimSpace runID) then return .error .executionConflict
  else do
    match ← callStore (.load (trimSpace runID)) with
    | .error e => return .error e
    | .ok current =>
      if current.run.revision ≠ expectedRevision then return .error .conflict
      else
        match validateMutation current m with
        | .error e => return .error e
        | .ok _ => do
          let now ← readClock
          commitMutation handle runID expectedRevision (makeStoreMutation now current m)

/-! ### Controls -/

/-- `controlNoEffectBeforeStore`. -/
def noEffect (e : KernelError) : KernelError := .preStore e

/-- `Runtime.ApplyControl` over a Store that supports controls. -/
def applyControl (handle : Handle) (runID : GoString) (expectedRevision : UInt64)
    (guard : ControlGuard) (m : Mutation) (permit : Option Proof) :
    KProg H (Except KernelError (Snapshot × Bool)) :=
  if handle.execution.isSome ∨ hasReservedApplyEvidence m.events then
    return .error (noEffect .invalidInput)
  else do
    match ← loadRun runID with
    | .error e => return .error (noEffect e)
    | .ok current =>
      if current.run.revision ≠ expectedRevision then return .error (noEffect .conflict)
      else
        match validateMutation current m with
        | .error e => return .error (noEffect e)
        | .ok _ => do
          let now ← readClock
          let next := makeStoreMutation now current m
          let guard := { guard with verified := permit }
          let storeNow ← readClock
          match validateControl H current guard next storeNow with
          | .error e => return .error (noEffect e)
          | .ok _ => do
            match ← callStore (.applyControl runID expectedRevision guard next) with
            | .error e => return .error (.storeOutcome e)
            | .ok committed => return .ok committed

/-- The mutation of `Runtime.Cancel`. -/
def cancelMutation (current : Snapshot) (reason : GoString) : Mutation where
  status := .cancelled
  state := current.state
  errorCode := lit "run.cancelled"
  errorDetail := trimSpace reason
  events := [{ type := lit "run.cancelled", message := trimSpace reason }]

/-- `Runtime.Cancel`; a bound handle cancels through its unbound copy. -/
def cancel (runID : GoString) (expectedRevision : UInt64) (reason : GoString) :
    KProg H (Except KernelError Snapshot) := do
  match ← loadRun runID with
  | .error e => return .error (noEffect e)
  | .ok current =>
    if current.run.revision ≠ expectedRevision then return .error (noEffect .conflict)
    else do
      match ← applyControl {} runID expectedRevision { kind := .cancel }
          (cancelMutation current reason) none with
      | .error e => return .error e
      | .ok (snapshot, _) => return .ok snapshot

/-- The text of `ErrDeadline`. -/
def deadlineText : GoString := lit "kernel run deadline exceeded"

/-- The mutation of `Runtime.Expire`. -/
def expireMutation (current : Snapshot) : Mutation where
  status := .failed
  state := current.state
  errorCode := lit "run.deadline_exceeded"
  errorDetail := deadlineText
  events := [{ type := lit "run.deadline_exceeded", message := deadlineText }]

/-- `Runtime.Expire`. -/
def expire (runID : GoString) (expectedRevision : UInt64) :
    KProg H (Except KernelError (Snapshot × Bool)) := do
  match ← loadRun runID with
  | .error e => return .error e
  | .ok current =>
    if current.run.revision ≠ expectedRevision then return .error .conflict
    else
      match current.run.deadlineAt with
      | none => return .ok (current, false)
      | some deadlineAt => do
        let now ← readClock
        if now < deadlineAt then return .ok (current, false)
        else do
          match ← applyControl {} runID expectedRevision { kind := .deadline }
              (expireMutation current) none with
          | .error e => return .error e
          | .ok (expired, _) => return .ok (expired, true)

/-! ### Commits with a stable identity -/

/-- `identifiedApplyProof`. -/
structure IdentifiedApplyProof where
  operationID : GoString
  sourceRevision : UInt64
  mutationDigest : GoString
  deriving DecidableEq, Repr

def validApplyOperation (id : GoString) (expectedRevision : UInt64) : Bool :=
  id ≠ [] && id.length ≤ 128 && trimSpace id == id &&
    !id.any (fun b => b == 0x0D || b == 0x0A || b == 0x00) &&
    expectedRevision ≠ 0 && expectedRevision ≠ maxUint64

variable (H) in
def digestApplyMutation (m : Mutation) : Except KernelError GoString :=
  if hasReservedApplyEvidence m.events then .error .invalidInput
  else
    match H.marshalMutation m (m.events.map EventDraft.wakeup) with
    | none => .error (.join .invalidInput .marshal)
    | some encoded => .ok (hexEncode (H.sha256 encoded))

/-- `json.Marshal(identifiedApplyProof{…})`. -/
def encodeApplyProof (p : IdentifiedApplyProof) : RawMessage :=
  GoJson.render (.object [
    (lit "operationID", .string p.operationID),
    (lit "sourceRevision", .number (formatUint p.sourceRevision.toNat)),
    (lit "mutationDigest", .string p.mutationDigest)])

/-- `json.Unmarshal` into an `identifiedApplyProof`. -/
def decodeApplyProof (data : RawMessage) : Option IdentifiedApplyProof :=
  match GoJson.parse data with
  | some .null => some ⟨[], 0, []⟩
  | some (.object members) => do
    let operationID ← GoJson.decodeString [] (GoJson.membersNamed (lit "operationID") members)
    let sourceRevision ← GoJson.decodeUint64 0 (GoJson.membersNamed (lit "sourceRevision") members)
    let mutationDigest ← GoJson.decodeString [] (GoJson.membersNamed (lit "mutationDigest") members)
    return ⟨operationID, sourceRevision, mutationDigest⟩
  | _ => none

inductive ApplyEvidenceStatus where
  | committed
  | retryableCAS
  deriving DecidableEq, Repr

structure ApplyEvidence where
  status : ApplyEvidenceStatus
  committedRevision : UInt64 := 0
  currentRevision : UInt64
  deriving DecidableEq, Repr

/-- What one retained proof says about the operation that is looked for. -/
inductive ProofReading where
  | foreign
  | hit
  | clash
  | damaged
  deriving DecidableEq, Repr

def readApplyProof (data : RawMessage) (operationID : GoString) (expectedRevision : UInt64)
    (hash : GoString) : ProofReading :=
  match decodeApplyProof data with
  | none => .damaged
  | some proof =>
    if data = [] ∨ ¬ validApplyOperation proof.operationID proof.sourceRevision ∨
        proof.mutationDigest.length ≠ 64 then .damaged
    else if proof.operationID ≠ operationID then .foreign
    else if proof.sourceRevision ≠ expectedRevision ∨ proof.mutationDigest ≠ hash then .clash
    else .hit

/-- The inner loop of `VerifyIdentifiedApply` over one page, up to `head`. -/
def scanEvents (head : ℕ) (operationID : GoString) (expectedRevision : UInt64) (hash : GoString) :
    List Event → ℕ → Bool → Except KernelError (ℕ × Bool)
  | [], after, matched => .ok (after, matched)
  | e :: events, after, matched =>
    if head < e.seq then .ok (after, matched)
    else if e.seq ≠ after + 1 then .error .applyOutcomeUnknown
    else if e.type ≠ identifiedApplyEventType then
      scanEvents head operationID expectedRevision hash events e.seq matched
    else
      match readApplyProof e.data operationID expectedRevision hash with
      | .damaged => .error .applyOutcomeUnknown
      | .foreign => scanEvents head operationID expectedRevision hash events e.seq matched
      | .clash => .error .conflict
      | .hit =>
        if matched then .error .conflict
        else scanEvents head operationID expectedRevision hash events e.seq true

/-- The outer loop over pages of 512 events.  Every page makes progress or ends
the loop, so `head + 1` rounds are always enough. -/
def scanPages (runID : GoString) (head : ℕ) (operationID : GoString) (expectedRevision : UInt64)
    (hash : GoString) : ℕ → ℕ → Bool → KProg H (Except KernelError Bool)
  | 0, _, _ => return .error .applyOutcomeUnknown
  | rounds + 1, after, matched =>
    if head ≤ after then return .ok matched
    else do
      match ← listRunEvents runID after 512 with
      | .error e => return .error (.join .applyOutcomeUnknown e)
      | .ok events =>
        if events.head?.map Event.seq ≠ some (after + 1) then return .error .applyOutcomeUnknown
        else
          match scanEvents head operationID expectedRevision hash events after matched with
          | .error e => return .error e
          | .ok (after, matched) =>
            scanPages runID head operationID expectedRevision hash rounds after matched

/-- `Runtime.VerifyIdentifiedApply`. -/
def verifyIdentifiedApply (runID : GoString) (expectedRevision : UInt64) (operationID : GoString)
    (m : Mutation) : KProg H (Except KernelError ApplyEvidence) :=
  if trimSpace runID = [] ∨ ¬ validApplyOperation operationID expectedRevision then
    return .error .invalidInput
  else
    match digestApplyMutation H m with
    | .error e => return .error e
    | .ok hash => do
      match ← loadRun runID with
      | .error e => return .error e
      | .ok current =>
        if current.run.revision < expectedRevision then return .error .conflict
        else do
          match ← scanPages runID current.eventHead operationID expectedRevision hash
              (current.eventHead + 1) 0 false with
          | .error e => return .error e
          | .ok true =>
            if current.run.revision ≤ expectedRevision then return .error .applyOutcomeUnknown
            else return .ok ⟨.committed, expectedRevision + 1, current.run.revision⟩
          | .ok false =>
            if current.run.revision ≠ expectedRevision then return .error .applyOutcomeUnknown
            else return .ok ⟨.retryableCAS, 0, current.run.revision⟩

/-- The mutation with the proof of its identity appended to its events. -/
def identifiedMutation (m : Mutation) (p : IdentifiedApplyProof) : Mutation :=
  { m with events := m.events ++ [{ type := identifiedApplyEventType, data := encodeApplyProof p }] }

/-- `Runtime.ApplyIdentified`. -/
def applyIdentified (handle : Handle) (runID : GoString) (expectedRevision : UInt64)
    (operationID : GoString) (m : Mutation) : KProg H (Except KernelError Snapshot) :=
  if trimSpace runID = [] ∨ ¬ validApplyOperation operationID expectedRevision then
    return .error .invalidInput
  else
    match digestApplyMutation H m with
    | .error e => return .error e
    | .ok digest => do
      match ← verifyIdentifiedApply runID expectedRevision operationID m with
      | .error e => return .error e
      | .ok ⟨.committed, _, _⟩ => return .error .applyAlreadyCommitted
      | .ok ⟨.retryableCAS, _, _⟩ =>
        applyMutation handle runID expectedRevision
          (identifiedMutation m ⟨operationID, expectedRevision, digest⟩) true

/-! ### Execution authority, and the system of all Runtimes -/

/-- `Runtime.AcquireExecution`. -/
def acquireExecution (r : ExecutionAcquireRequest) : KProg H (Except KernelError ExecutionLease) :=
  if ¬ validExecutionAcquireRequest r then return .error .invalidInput
  else callStore (.acquireExecution r)

/-- `Runtime.RenewExecution`. -/
def renewExecution (r : ExecutionRenewRequest) : KProg H (Except KernelError ExecutionLease) :=
  if ¬ (validExecutionLease r.lease ∧ validExecutionDuration r.leaseDuration) then
    return .error .invalidInput
  else callStore (.renewExecution r)

/-- `Runtime.ReleaseExecution`. -/
def releaseExecution (lease : ExecutionLease) : KProg H (Except KernelError Unit) :=
  if ¬ validExecutionLease lease then return .error .invalidInput
  else callStore (.releaseExecution lease)

/-- `Runtime.RequireExecution`. -/
def requireExecution (handle : Handle) (runID : GoString) : KProg H (Except KernelError Unit) :=
  if trimSpace runID = [] then return .error .invalidInput
  else if ¬ handle.validBoundRun runID then return .error .executionConflict
  else callStore (.checkExecution runID handle.execution)

/-- `math.MaxInt64`. -/
def maxInt64 : UInt64 := 0x7FFFFFFFFFFFFFFF

def validExecutionQuarantine (v : ExecutionQuarantine) : Bool :=
  v.runID ≠ [] && trimSpace v.runID == v.runID && v.runID.length ≤ 128 && 0 < v.revision &&
    v.revision ≤ maxInt64 && v.generation ≤ maxInt64 && v.reason ≠ [] && v.reason.length ≤ 64 &&
    trimSpace v.reason == v.reason

/-- `Runtime.QuarantineExecution`: not for a bound handle. -/
def quarantineExecution (handle : Handle) (v : ExecutionQuarantine) :
    KProg H (Except KernelError Unit) :=
  if ¬ validExecutionQuarantine v ∨ handle.execution.isSome then return .error .invalidInput
  else callStore (.quarantineExecution v)

/-- `Runtime.RepairExecutionQuarantine`: not for a bound handle. -/
def repairExecutionQuarantine (handle : Handle) (v : ExecutionQuarantine) :
    KProg H (Except KernelError Unit) :=
  if ¬ validExecutionQuarantine v ∨ handle.execution.isSome then return .error .invalidInput
  else callStore (.repairExecutionQuarantine v)

/-- One call of a Runtime method, or of the outbox by a projector worker. -/
inductive Request where
  | create (r : CreateRequest)
  | load (runID : GoString)
  | listEvents (runID : GoString) (afterSeq limit : ℤ)
  | apply (handle : Handle) (runID : GoString) (expectedRevision : UInt64) (m : Mutation)
  | applyIdentified (handle : Handle) (runID : GoString) (expectedRevision : UInt64)
      (operationID : GoString) (m : Mutation)
  | verifyIdentifiedApply (runID : GoString) (expectedRevision : UInt64) (operationID : GoString)
      (m : Mutation)
  | applyControl (handle : Handle) (runID : GoString) (expectedRevision : UInt64)
      (guard : ControlGuard) (m : Mutation) (permit : Option Proof)
  | cancel (runID : GoString) (expectedRevision : UInt64) (reason : GoString)
  | expire (runID : GoString) (expectedRevision : UInt64)
  | acquireExecution (r : ExecutionAcquireRequest)
  | renewExecution (r : ExecutionRenewRequest)
  | releaseExecution (lease : ExecutionLease)
  | requireExecution (handle : Handle) (runID : GoString)
  | quarantineExecution (handle : Handle) (v : ExecutionQuarantine)
  | repairExecutionQuarantine (handle : Handle) (v : ExecutionQuarantine)
  | claimTransitions (r : TransitionClaimRequest)
  | ackTransition (r : TransitionLeaseRequest)
  | retryTransition (r : TransitionRetryRequest)

/-- What a call answers. -/
inductive Answer where
  | snapshot (r : Except KernelError Snapshot)
  | control (r : Except KernelError (Snapshot × Bool))
  | events (r : Except KernelError (List Event))
  | evidence (r : Except KernelError ApplyEvidence)
  | lease (r : Except KernelError ExecutionLease)
  | claims (r : Except KernelError (List TransitionClaim))
  | done (r : Except KernelError Unit)

/-- The code that serves a call. -/
def serve : Request → KProg H Answer
  | .create r => return .snapshot (← create r)
  | .load runID => return .snapshot (← loadRun runID)
  | .listEvents runID afterSeq limit => return .events (← listRunEvents runID afterSeq limit)
  | .apply handle runID rev m => return .snapshot (← applyMutation handle runID rev m false)
  | .applyIdentified handle runID rev operationID m =>
    return .snapshot (← applyIdentified handle runID rev operationID m)
  | .verifyIdentifiedApply runID rev operationID m =>
    return .evidence (← verifyIdentifiedApply runID rev operationID m)
  | .applyControl handle runID rev guard m permit =>
    return .control (← applyControl handle runID rev guard m permit)
  | .cancel runID rev reason => return .snapshot (← cancel runID rev reason)
  | .expire runID rev => return .control (← expire runID rev)
  | .acquireExecution r => return .lease (← acquireExecution r)
  | .renewExecution r => return .lease (← renewExecution r)
  | .releaseExecution lease => return .done (← releaseExecution lease)
  | .requireExecution handle runID => return .done (← requireExecution handle runID)
  | .quarantineExecution handle v => return .done (← quarantineExecution handle v)
  | .repairExecutionQuarantine handle v => return .done (← repairExecutionQuarantine handle v)
  | .claimTransitions r => return .claims (← callStore (.claimTransitions r))
  | .ackTransition r => return .done (← callStore (.ackTransition r))
  | .retryTransition r => return .done (← callStore (.retryTransition r))

variable (H) in
/-- All Runtimes and workers over one Store: the Store's world with the threads
that serve the calls under way. -/
abbrev System : Type := Config (kernelObject H) Request Answer

/-- The systems reachable from an empty Store. -/
def System.Reachable (c : System H) : Prop := Interleaving.Reachable serve {} c

/-- The systems that can follow. -/
abbrev System.Later (c c' : System H) : Prop := Steps serve c c'

variable (H) in
/-- The answers of the shared object at one instant, with a failing entropy source. -/
def answerAt (now : Time) (w : World) : (op : KernelOp) → op.Res × World
  | .store op => w.perform H ⟨now, none⟩ op
  | .now => (now, w)
  | .newID _ => (.error .entropy, w)

/-- The system after the call `q` was served at the instant `now`, alone. -/
def System.serveAt (c : System H) (now : Time) (q : Request) : System H :=
  let served := Prog.run (O := kernelObject H) (answerAt H now) (serve q) c.shared
  ⟨served.2, ⟨q, c.shared, .ret served.1⟩ :: c.threads⟩

lemma answerAt_exec (now : Time) (w : World) (op : KernelOp) :
    (kernelObject H).Exec w op (answerAt H now w op).1 (answerAt H now w op).2 := by
  cases op with
  | store => exact ⟨_, rfl⟩
  | now => rfl
  | newID =>
    refine ⟨rfl, fun id h => ?_⟩
    simp [answerAt] at h

lemma System.later_serveAt (c : System H) (now : Time) (q : Request) :
    c.Later (c.serveAt now q) :=
  steps_run (answerAt_exec now) c.shared c.threads q

end Kernel
