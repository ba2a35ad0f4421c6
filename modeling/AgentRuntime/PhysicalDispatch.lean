/-
The physical boundary of the harness (`execution_dispatch.go` and `child_root_binding.go`).

Before a Feature is entered, a grant for the Invocation is committed and the Attempts that
the Invocation was sealed with are found live.  After the Feature has returned, the grant is
settled if the answer proves which Run was reached, or that none was.  Everything between
may fail: a call on the Store may be lost with or without its effect, reads may fail, and
the Feature may answer with any Run and any tree of errors.

* **`physical_dispatch`** — the Feature is called once at most and behind a grant, and a
  grant is settled only with a proof.
-/
import AgentRuntime.CallTraces
import AgentRuntime.DispatchArbitration

namespace Harness

open GoString GoJson Kernel FiniteMap MemoryStore Interleaving List Option

/-! ### Errors -/

/-- Errors that the harness compares with. -/
inductive Sentinel where
  | invalidRequest
  | conflict
  | notFound
  | executionNoEffect
  | outcomeUnknown
  deriving DecidableEq, Repr

/-- An error with all that it wraps.  The native proofs are private to the agent package and
the harness; a Feature cannot make them, but it may hand them on, wrapped or not. -/
inductive ErrorTree where
  | sentinel (s : Sentinel)
  | other (text : GoString)
  | featureStartNoEffect (cause : ErrorTree)
  | nativeControlNoEffect (cause : ErrorTree)
  | nativeStartNoEffect (cause : ErrorTree)
  | dispatchProvenNoEffect (cause : ErrorTree)
  | wrapped (cause : ErrorTree)
  | joined (causes : List ErrorTree)

namespace ErrorTree

mutual

/-- `errors.Is` for one of the sentinels. -/
def is (target : Sentinel) : ErrorTree → Bool
  | sentinel s => s = target
  | other _ => false
  | featureStartNoEffect cause => target = .executionNoEffect || is target cause
  | nativeControlNoEffect cause => is target cause
  | nativeStartNoEffect cause => is target cause
  | dispatchProvenNoEffect cause => is target cause
  | wrapped cause => is target cause
  | joined causes => isAny target causes

def isAny (target : Sentinel) : List ErrorTree → Bool
  | [] => false
  | cause :: causes => is target cause || isAny target causes

end

/-- `agent.IsNativeControlNoEffect` looks at the error itself, not at what it wraps. -/
def isNativeControlNoEffect : ErrorTree → Bool
  | nativeControlNoEffect _ => true
  | _ => false

def isNativeStartNoEffect : ErrorTree → Bool
  | nativeStartNoEffect _ => true
  | _ => false

/-- `errors.Join`, which is nil if all errors are. -/
def join (errors : List (Option ErrorTree)) : Option ErrorTree :=
  match errors.filterMap fun e => e with
  | [] => none
  | causes => some (joined causes)

end ErrorTree

/-! ### Calls -/

/-- What a dispatch asks of the world. -/
inductive DispatchOp where
  | newID
  | now
  | appendItem (item : Item)
  | getItem (id : GoString)
  | getInvocation (id : GoString)
  | loadRun (id : GoString)
  | observeLocalDelegation (id : GoString)
  | validateChildRuntimeOwnership (child : Invocation) (run : Run)
  | getByChild (id : GoString)
  | physical

def DispatchOp.Res : DispatchOp → Type
  | newID => Option GoString
  | now => Time
  | appendItem _ => Except ErrorTree (Item × Bool)
  | getItem _ => Except ErrorTree Item
  | getInvocation _ => Except ErrorTree Invocation
  | loadRun _ => Except ErrorTree Run
  | observeLocalDelegation _ => Except ErrorTree Run
  | validateChildRuntimeOwnership _ _ => Option ErrorTree
  | getByChild _ => Except ErrorTree Relation
  | physical => GoString × Option ErrorTree

/-- A read of the Store may fail, but it does not lie; a write that fails may have been
committed.  All else may answer anything: the Kernel moves on its own, and the Feature may
return any Run (an empty ID if it returns none) with any error. -/
def DispatchOp.Exec (sha256 : GoString → GoString) (s : MemoryStore) :
    (op : DispatchOp) → op.Res → MemoryStore → Prop
  | appendItem item, .ok (stored, fresh), s' => s.appendItem item = .ok (s', stored, fresh)
  | appendItem item, .error _, s' => s' = s ∨ s' = s.serve sha256 (.appendItem item)
  | getItem id, .ok item, s' => s' = s ∧ s.itemIDs.lookup (trimSpace id) = some item
  | getInvocation id, .ok v, s' => s' = s ∧ s.invocations.lookup (trimSpace id) = some v
  | _, _, s' => s' = s

/-- The Store of the harness with the world around it. -/
def dispatchWorld (sha256 : GoString → GoString) : SharedObject MemoryStore where
  Op := DispatchOp
  Res := DispatchOp.Res
  Exec := DispatchOp.Exec sha256

/-- The Runner, as far as a dispatch depends on it. -/
structure DispatchRunner where
  sha256 : GoString → GoString
  /-- The agent is the first-party one. -/
  nativeAgent : Bool
  /-- There is an index of relations. -/
  hasRelations : Bool
  /-- `validateRootRuntimeOwnership`. -/
  validRoot : Invocation → Run → Bool

/-- What a check says; the walks along Items and relations may go on for ever while others
write. -/
inductive Check where
  | ok
  | failed (e : ErrorTree)
  | hung

namespace DispatchRunner

variable (R : DispatchRunner)

abbrev Code (α : Type) := Prog (dispatchWorld R.sha256) α

/-- The errors that are checked for by name. -/
def conflict : ErrorTree := .sentinel .conflict

def terminalRuntimeStatus : RunStatus → Bool
  | .completed => true
  | .failed => true
  | .cancelled => true
  | _ => false

/-! ### Attempts that are live -/

/-- The loop of `requireRunDescendsFrom`. -/
def descends (owner : GoString) : ℕ → List GoString → GoString → R.Code Check
  | 0, _, _ => .ret .hung
  | fuel + 1, seen, current =>
    if current = owner then .ret .ok
    else if current ∈ seen then .ret (.failed conflict)
    else .call (.getByChild current) fun
      | .error e => .ret (.failed (.joined [conflict, e]))
      | .ok relation =>
        if relation.childRunID ≠ current || trimSpace relation.parentRunID = [] then
          .ret (.failed (.joined [conflict]))
        else descends owner fuel (current :: seen) relation.parentRunID

def requireRunDescendsFrom (fuel : ℕ) (runID ownerRunID : GoString) : R.Code Check :=
  if trimSpace runID = [] || trimSpace ownerRunID = [] then .ret (.failed conflict)
  else if runID = ownerRunID then .ret .ok
  else if !R.hasRelations then .ret (.failed conflict)
  else R.descends ownerRunID fuel [] runID

/-- The fields of a `delegationItemPayload`. -/
def delegationItemFields : List (GoString × (Value → Bool)) :=
  [(lit "delegationID", isText), (lit "memberID", isText), (lit "memberRevision", isText),
    (lit "childRunID", isText), (lit "goal", isText), (lit "status", isText),
    (lit "parentRunID", isText), (lit "roleID", isText), (lit "roleRevision", isUint64),
    (lit "roleName", isText), (lit "execution", isStruct delegationFields)]

/-- The child and the parent Run that the payload of a delegation names. -/
def delegationRuns (payload : RawMessage) : Option (GoString × GoString) :=
  match parse payload with
  | some (.object ms) =>
    if isStruct delegationItemFields (.object ms) then
      some (textMember (lit "childRunID") ms, textMember (lit "parentRunID") ms)
    else none
  | some .null => some ([], [])
  | _ => none

def requireItemOwnerAttempt (fuel : ℕ) (item : Item) (owner : ChildAttemptBinding) : R.Code Check :=
  if item.kind = .delegation then
    match delegationRuns item.payload with
    | none => .ret (.failed conflict)
    | some (child, parent) =>
      if child = [] || child ≠ item.runID || trimSpace parent = [] then .ret (.failed conflict)
      else R.requireRunDescendsFrom fuel parent owner.executionRefID
  else if item.kind = .invocation && item.runID ≠ [] && item.runID ≠ owner.executionRefID then
    .ret (.failed conflict)
  else if item.runID = [] then
    if item.invocationID ≠ [] then .ret (.failed conflict) else .ret .ok
  else R.requireRunDescendsFrom fuel item.runID owner.executionRefID

def unclaimedApplicationParent (parent : Invocation) : Bool :=
  parent.executionClass = .application && parent.status = .accepted

/-- An ancestor that may authorize its descendants: the very Attempt, in this Turn, and not
terminal. -/
def liveAttempt (turnID : GoString) (bound : ChildAttemptBinding) (parent : Invocation) : Bool :=
  parent.turnID = turnID && trimSpace parent.parentItemID ≠ [] &&
    invocationAttempt parent = bound && validExecutionClass parent.executionClass &&
    validInvocationStatus parent.status && !terminalInvocationStatus parent.status &&
    !unclaimedApplicationParent parent

/-- What `requireLiveParentAttempt` asks about the Run of a parent. -/
def requireParentRun (parent : Invocation) (r : Except ErrorTree Run) : R.Code Check :=
  match r with
  | .error e => .ret (.failed (.joined [conflict, e]))
  | .ok run =>
    if run.id ≠ parent.executionRefID || terminalRuntimeStatus run.status then
      .ret (.failed (.joined [conflict]))
    else if isHandoffDelegationInvocation R.sha256 parent then .ret .ok
    else .call (.validateChildRuntimeOwnership parent run) fun
      | some e => .ret (.failed e)
      | none => .ret .ok

def requireLiveParentAttempt (turnID : GoString) (bound : ChildAttemptBinding) : R.Code Check :=
  .call (.getInvocation bound.invocationID) fun
    | .error e => .ret (.failed (.joined [conflict, e]))
    | .ok parent =>
      if !liveAttempt turnID bound parent then .ret (.failed conflict)
      else if parent.executionClass = .application then .ret .ok
      -- a remote parent's local twin cannot authorize anything
      else if isHandoffDelegationInvocation R.sha256 parent then
        .call (.observeLocalDelegation parent.executionRefID) (R.requireParentRun parent)
      else .call (.loadRun parent.executionRefID) (R.requireParentRun parent)

/-- The root that the binding names: the very Attempt, in this Turn, and not terminal. -/
def liveRoot (child : Invocation) (bound : ChildAttemptBinding) (root : Invocation) : Bool :=
  root.id = bound.invocationID && root.id ≠ child.id && root.turnID = child.turnID &&
    trimSpace root.parentItemID = [] && invocationAttempt root = bound &&
    validExecutionClass root.executionClass && validInvocationStatus root.status &&
    !terminalInvocationStatus root.status

/-- `loadFrozenChildRoot`, and what follows it in `requireLiveInvocationParents`. -/
def requireLiveRoot (invocation : Invocation) (bound : ChildAttemptBinding) : R.Code Check :=
  .call (.getInvocation bound.invocationID) fun
    | .error e => .ret (.failed (.joined [conflict, e]))
    | .ok root =>
      if !liveRoot invocation bound root then .ret (.failed conflict)
      else if root.executionClass = .application then
        if unclaimedApplicationParent root then .ret (.failed conflict) else .ret .ok
      else if trimSpace root.executionRefID = [] then .ret (.failed conflict)
      else .call (.loadRun root.executionRefID) fun
        | .error e => .ret (.failed (.joined [conflict, e]))
        | .ok run =>
          if run.id ≠ root.executionRefID || terminalRuntimeStatus run.status then
            .ret (.failed (.joined [conflict]))
          else if R.validRoot root run then .ret .ok
          else .ret (.failed conflict)

/-- The owner that the sealed binding gives for an Item of the chain. -/
def boundOwner (proof : ChildRootBinding) (ownerID : GoString) : Option ChildAttemptBinding :=
  if ownerID = proof.root.invocationID then some proof.root
  else (proof.parents.filter fun b => b.invocationID = ownerID).getLast?

/-- The chain of parent Items, with the owner of each checked against the sealed binding. -/
def requireItemChain (invocation : Invocation) (proof : ChildRootBinding) :
    ℕ → List GoString → GoString → R.Code Check
  | 0, _, _ => .ret .hung
  | fuel + 1, seen, id =>
    if id = [] then .ret .ok
    else if id ∈ seen then .ret (.failed conflict)
    else .call (.getItem id) fun
      | .error e =>
        if e.is .notFound || e.is .invalidRequest then .ret (.failed conflict)
        else .ret (.failed e)
      | .ok item =>
        if item.id ≠ id || item.turnID ≠ invocation.turnID || item.seq = 0 then
          .ret (.failed conflict)
        else if item.invocationID = [] || item.invocationID = invocation.id then
          requireItemChain invocation proof fuel (id :: seen) item.parentItemID
        else match boundOwner proof item.invocationID with
          | none => .ret (.failed conflict)
          | some bound => do
            match ← R.requireItemOwnerAttempt fuel item bound with
            | .ok => requireItemChain invocation proof fuel (id :: seen) item.parentItemID
            | check => .ret check

/-- All inherited owners, in order. -/
def requireLiveParents (turnID : GoString) : List ChildAttemptBinding → R.Code Check
  | [] => .ret .ok
  | bound :: bounds => do
    match ← R.requireLiveParentAttempt turnID bound with
    | .ok => requireLiveParents turnID bounds
    | check => .ret check

def requireLiveInvocationParents (fuel : ℕ) (invocation : Invocation) : R.Code Check :=
  if invocation.parentItemID = [] then .ret .ok
  else match frozenChildRoot R.sha256 invocation with
    | none => .ret (.failed conflict)
    | some proof => do
      match ← R.requireItemChain invocation proof fuel [] invocation.parentItemID with
      | .ok => match ← R.requireLiveParents invocation.turnID proof.parents with
        | .ok => R.requireLiveRoot invocation proof.root
        | check => .ret check
      | check => .ret check

/-! ### The boundary -/

/-- The payload of a grant. -/
def grantPayload (phase physicalRunID : GoString) : RawMessage :=
  render (struct [(lit "phase", some (.string phase)),
    (lit "physicalRunID", omitEmpty physicalRunID)])

/-- The grant for one dispatch. -/
def grantFor (invocation : Invocation) (phase physicalRunID identifier : GoString) (now : Time) :
    Item where
  id := stableID R.sha256 (lit "hdispatch") [invocation.id, invocation.executionRefID, identifier]
  turnID := invocation.turnID
  invocationID := invocation.id
  runID := invocation.executionRefID
  kind := .diagnostic
  status := .started
  parentItemID := executionDispatchParentItemID
  payload := grantPayload phase physicalRunID
  createdAt := now
  updatedAt := now

def receiptPayload (boundary : Boundary) : RawMessage :=
  render (struct [(lit "boundary", some (.string boundary.text))])

/-- The receipt for a grant. -/
def receiptFor (grant : Item) (boundary : Boundary) (now : Time) : Item where
  id := stableID R.sha256 (lit "hdispatchdone") [grant.id]
  turnID := grant.turnID
  invocationID := grant.invocationID
  runID := grant.runID
  kind := .diagnostic
  status := .completed
  parentItemID := grant.id
  payload := receiptPayload boundary
  createdAt := now
  updatedAt := now

/-- `finishPhysicalDispatchGrant`; the bounded context may have expired even after the
commit, which is one more error that the Store answers with. -/
def finishPhysicalDispatchGrant (grant : Item) (boundary : Boundary) : R.Code (Option ErrorTree) :=
  .call .now fun now => .call (.appendItem (R.receiptFor grant boundary now)) fun
    | .error e => .ret (some e)
    | .ok _ => .ret none

/-- How the part before the call ends. -/
inductive Begun where
  | granted (grant : Item)
  | failed (e : Option ErrorTree)
  | hung

def beginPhysicalInvocationDispatch (fuel : ℕ) (invocation : Invocation)
    (phase physicalRunID : GoString) : R.Code Begun :=
  if trimSpace invocation.id = [] || invocation.turnID = [] || invocation.executionRefID = [] ||
      trimSpace physicalRunID = [] then .ret (.failed (some (.sentinel .invalidRequest)))
  else .call .newID fun
    | none => .ret (.failed (some (.other [])))
    | some identifier => .call .now fun now =>
      let grant := R.grantFor invocation phase physicalRunID identifier now
      .call (.appendItem grant) fun
        | .error e => .ret (.failed (ErrorTree.join [some conflict, some e]))
        | .ok (_, false) => .ret (.failed (some (.joined [conflict])))
        | .ok (_, true) => do
          match ← R.requireLiveInvocationParents fuel invocation with
          | .ok => .ret (.granted grant)
          | .hung => .ret .hung
          | .failed e => do
            let receiptErr ← R.finishPhysicalDispatchGrant grant .physicalDispatchRejected
            .ret (.failed (ErrorTree.join [some e, receiptErr]))

def isControlPhase (phase : GoString) : Bool :=
  phase = lit "resolve-approval" || phase = lit "resolve-subtask-approval" ||
    phase = lit "grant-call-allowance"

def isStartPhase (phase : GoString) : Bool := phase = lit "start" || phase = lit "start-retry"

/-- The boundary at which an answer of the Feature settles the grant, if it does. -/
def settles (invocation : Invocation) (phase resultRunID : GoString)
    (answer : GoString × Option ErrorTree) : Option Boundary :=
  if answer.1 = [] then
    if R.nativeAgent && isControlPhase phase && answer.2.any ErrorTree.isNativeControlNoEffect then
      some .nativeAgentControlNoEffect
    else if R.nativeAgent && isStartPhase phase && answer.2.any ErrorTree.isNativeStartNoEffect then
      some .nativeAgentStartNoEffect
    else if (!R.nativeAgent || invocation.executionClass ≠ .agent) && isStartPhase phase &&
        answer.2.any (ErrorTree.is .executionNoEffect) then some .featureStartNoEffect
    else none
  else if answer.1 = resultRunID then some .physicalDispatchReturned
  else none

/-- The error of the boundary, from that of the Feature and that of the receipt. -/
def resultError (answer : GoString × Option ErrorTree) (boundary : Option Boundary)
    (receiptErr : Option ErrorTree) : Option ErrorTree :=
  match boundary with
  | some .nativeAgentStartNoEffect | some .featureStartNoEffect =>
    match receiptErr with
    | none => answer.2.map ErrorTree.dispatchProvenNoEffect
    | some e => ErrorTree.join [some (.sentinel .outcomeUnknown), answer.2, some e]
  | some _ => ErrorTree.join [answer.2, receiptErr]
  | none =>
    if answer.1 = [] then ErrorTree.join [some (.sentinel .outcomeUnknown), answer.2]
    else ErrorTree.join [answer.2, some conflict]

/-- What follows the call: the receipt, if there is one. -/
def afterPhysical (grant : Item) (invocation : Invocation) (phase resultRunID : GoString)
    (answer : GoString × Option ErrorTree) : R.Code (GoString × Option ErrorTree) :=
  match R.settles invocation phase resultRunID answer with
  | none => .ret (answer.1, resultError answer none none)
  | some boundary => do
    let receiptErr ← R.finishPhysicalDispatchGrant grant boundary
    .ret (answer.1, resultError answer (some boundary) receiptErr)

/-- `withPhysicalInvocationDispatchFor`: the Run that was returned, and the error. -/
def withPhysicalInvocationDispatchFor (fuel : ℕ) (invocation : Invocation)
    (phase resultRunID : GoString) : R.Code (GoString × Option ErrorTree) := do
  match ← R.beginPhysicalInvocationDispatch fuel invocation phase resultRunID with
  | .hung => .ret ([], none)
  | .failed e => .ret ([], e)
  | .granted grant =>
    .call .physical (R.afterPhysical grant invocation phase resultRunID)

/-! ### What a run shows -/

section Statement

variable (invocation : Invocation) (phase resultRunID : GoString)

/-- One call of a dispatch. -/
abbrev Event := Performed (dispatchWorld R.sha256)

/-- The Feature was called, and gave this answer. -/
def Entered (e : R.Event) (answer : GoString × Option ErrorTree) : Prop :=
  ∃ before after, e = ⟨before, .physical, answer, after⟩

/-- An Item was handed to the Store. -/
def Wrote (e : R.Event) (item : Item) : Prop :=
  ∃ before answer after, e = ⟨before, .appendItem item, answer, after⟩

/-- A call was answered so. -/
def Told (u : List R.Event) (op : DispatchOp) (r : op.Res) : Prop :=
  ∃ before after, ⟨before, op, r, after⟩ ∈ u

/-- An Invocation was read from the Store. -/
def Read (u : List R.Event) (id : GoString) (v : Invocation) : Prop :=
  ∃ e ∈ u, e.before.invocations.lookup (trimSpace id) = some v

/-- The Run of a parent that is no Application was there under its ID, not terminal, and owned by
the parent; of a remote parent, its local twin. -/
def ParentRunLive (u : List R.Event) (parent : Invocation) : Prop :=
  parent.executionClass ≠ .application → ∃ run : Run, run.id = parent.executionRefID ∧
    terminalRuntimeStatus run.status = false ∧
    if isHandoffDelegationInvocation R.sha256 parent then
      R.Told u (.observeLocalDelegation parent.executionRefID) (.ok run)
    else R.Told u (.loadRun parent.executionRefID) (.ok run) ∧
      R.Told u (.validateChildRuntimeOwnership parent run) none

/-- The root is an Application that was claimed, or its Run was there under its ID, not terminal, and
owned by the root. -/
def RootRunLive (u : List R.Event) (root : Invocation) : Prop :=
  if root.executionClass = .application then unclaimedApplicationParent root = false
  else ∃ run : Run, R.Told u (.loadRun root.executionRefID) (.ok run) ∧
    run.id = root.executionRefID ∧ terminalRuntimeStatus run.status = false ∧
    R.validRoot root run = true

/-- The check succeeded in these calls: the chain of Items leads to the Attempts that the Invocation
was sealed with, and they were all live. -/
structure FoundLive (env : MemoryStore → MemoryStore → Prop) (fuel : ℕ) (u : List R.Event) :
    Prop where
  checked : ∃ m m', Runs env (R.requireLiveInvocationParents fuel invocation) m u .ok m'
  attempts : invocation.parentItemID ≠ [] → ∃ proof,
    frozenChildRoot R.sha256 invocation = some proof ∧
    (∀ bound ∈ proof.parents, ∃ parent, R.Read u bound.invocationID parent ∧
      liveAttempt invocation.turnID bound parent = true ∧ R.ParentRunLive u parent) ∧
    ∃ root, R.Read u proof.root.invocationID root ∧ liveRoot invocation proof.root root = true ∧
      R.RootRunLive u root

/-- A grant for the Invocation and its Run was committed, and after it everything was found
live. -/
def Granted (env : MemoryStore → MemoryStore → Prop) (fuel : ℕ) (u : List R.Event) : Prop :=
  ∃ u₁ e u₂ identifier now, u = u₁ ++ e :: u₂ ∧
    R.Wrote e (R.grantFor invocation phase resultRunID identifier now) ∧
    Admitted e.before
      (e.before.stored (R.grantFor invocation phase resultRunID identifier now)) ∧
    e.after.log invocation.turnID = e.before.log invocation.turnID ++
      [e.before.stored (R.grantFor invocation phase resultRunID identifier now)] ∧
    R.FoundLive invocation env fuel u₂

/-- The answer proves which Run was reached, or that none was. -/
def Proves (answer : GoString × Option ErrorTree) : Prop :=
  (answer.1 = resultRunID ∧ answer.1 ≠ []) ∨
    (answer.1 = [] ∧ ∃ e, answer.2 = some e ∧
      ((R.nativeAgent = true ∧ isControlPhase phase = true ∧ e.isNativeControlNoEffect = true) ∨
        (R.nativeAgent = true ∧ isStartPhase phase = true ∧ e.isNativeStartNoEffect = true) ∨
        ((R.nativeAgent = false ∨ invocation.executionClass ≠ .agent) ∧
          isStartPhase phase = true ∧ e.is .executionNoEffect = true)))

/-- The check for live Attempts failed. -/
def Rejected (env : MemoryStore → MemoryStore → Prop) (fuel : ℕ) (u : List R.Event) : Prop :=
  ∃ v₁ v₂ v₃ m m' err, u = v₁ ++ v₂ ++ v₃ ∧
    Runs env (R.requireLiveInvocationParents fuel invocation) m v₂ (.failed err) m'

/-- The Feature was called, and its answer is a proof. -/
def Answered (u : List R.Event) : Prop :=
  ∃ e ∈ u, ∃ answer, R.Entered e answer ∧ R.Proves invocation phase resultRunID answer

/-- What is written: the grant, and a receipt for it with a proof. -/
def WrittenWithProof (env : MemoryStore → MemoryStore → Prop) (fuel : ℕ) (u : List R.Event)
    (item : Item) : Prop :=
  ∃ identifier now, item = R.grantFor invocation phase resultRunID identifier now ∨
    ∃ boundary later,
      item = R.receiptFor (R.grantFor invocation phase resultRunID identifier now) boundary later ∧
      ((boundary = .physicalDispatchRejected ∧ R.Rejected invocation env fuel u ∧
          ∀ e ∈ u, ∀ answer, ¬ R.Entered e answer) ∨
        R.Answered invocation phase resultRunID u)

/-- **What each call of a dispatch has to meet**, given the calls before it. -/
structure Dispatched (env : MemoryStore → MemoryStore → Prop) (fuel : ℕ) (past : List R.Event)
    (e : R.Event) : Prop where
  /-- The Feature is called at most once. -/
  once : ∀ answer, R.Entered e answer → ∀ e' ∈ past, ∀ answer, ¬ R.Entered e' answer
  /-- It is called behind a grant. -/
  behind : ∀ answer, R.Entered e answer → R.Granted invocation phase resultRunID env fuel past
  /-- A receipt needs a proof. -/
  receipts : ∀ item, R.Wrote e item →
    R.WrittenWithProof invocation phase resultRunID env fuel past item

/-- A grant that holds up the Turn: in no call does an Attempt rotate, and the Invocation
gets no other grant. -/
structure HoldsUp (s : MemoryStore) (g : Item) : Prop where
  attempts : ∀ request id v v', s.invocations.lookup id = some v → v.turnID = g.turnID →
    (s.serve R.sha256 request).invocations.lookup id = some v' → v'.attempt = v.attempt
  grants : ∀ request t g', (s.serve R.sha256 request).log t = s.log t ++ [g'] →
    g'.isGrant = true → g'.invocationID ≠ g.invocationID

/-- The steps of others. -/
def Others (s s' : MemoryStore) : Prop := ∃ request, s' = s.serve R.sha256 request

/-- The step commits no receipt for the grant of this ID. -/
def Spares (id : GoString) (s s' : MemoryStore) : Prop :=
  ∀ t, ∀ i ∈ receiptsOf (s'.log t) id, i ∈ s.log t

/-- The grant was committed in this call of a run. -/
def Commits (e : R.Event) (g : Item) : Prop :=
  g.isGrant = true ∧ e.after.log g.turnID = e.before.log g.turnID ++ [g]

end Statement

/-! ### Reading -/

/-- Calls that do not enter the Feature. -/
def Outside : DispatchOp → Prop
  | .physical => False
  | _ => True

/-- Calls that neither write nor enter the Feature. -/
def Reads : DispatchOp → Prop
  | .appendItem _ => False
  | .physical => False
  | _ => True

variable {R}

lemma asks_descends (owner : GoString) :
    ∀ fuel seen current, Asks Reads (R.descends owner fuel seen current) := by
  intro fuel
  induction fuel with
  | zero => exact fun _ _ => trivial
  | succ _ ih =>
    intro _ _
    rw [descends]
    split
    · trivial
    split
    · trivial
    refine ⟨trivial, fun r => ?_⟩
    obtain e | _ := r
    · trivial
    dsimp only
    split
    · trivial
    · exact ih _ _

lemma asks_requireRunDescendsFrom (fuel : ℕ) (runID owner : GoString) :
    Asks Reads (R.requireRunDescendsFrom fuel runID owner) := by
  rw [requireRunDescendsFrom]
  split
  · trivial
  split
  · trivial
  split
  · trivial
  · exact asks_descends owner fuel [] runID

lemma asks_requireItemOwnerAttempt (fuel : ℕ) (item : Item) (owner : ChildAttemptBinding) :
    Asks Reads (R.requireItemOwnerAttempt fuel item owner) := by
  rw [requireItemOwnerAttempt]
  split
  · split
    · trivial
    split
    · trivial
    · exact asks_requireRunDescendsFrom _ _ _
  split
  · trivial
  split
  · split <;> trivial
  · exact asks_requireRunDescendsFrom _ _ _

lemma asks_requireParentRun (parent : Invocation) (r : Except ErrorTree Run) :
    Asks Reads (R.requireParentRun parent r) := by
  obtain e | _ := r
  · trivial
  rw [requireParentRun]
  split
  · trivial
  split
  · trivial
  · refine ⟨trivial, fun r => ?_⟩
    cases r <;> trivial

lemma asks_requireLiveParentAttempt (turnID : GoString) (bound : ChildAttemptBinding) :
    Asks Reads (R.requireLiveParentAttempt turnID bound) := by
  refine ⟨trivial, fun r => ?_⟩
  obtain e | parent := r
  · trivial
  dsimp only
  split
  · trivial
  split
  · trivial
  split
  all_goals exact ⟨trivial, asks_requireParentRun parent⟩

lemma asks_requireLiveRoot (invocation : Invocation) (bound : ChildAttemptBinding) :
    Asks Reads (R.requireLiveRoot invocation bound) := by
  refine ⟨trivial, fun r => ?_⟩
  obtain e | _ := r
  · trivial
  dsimp only
  split
  · trivial
  split
  · split <;> trivial
  split
  · trivial
  refine ⟨trivial, fun r => ?_⟩
  obtain e | _ := r
  · trivial
  dsimp only
  split
  · trivial
  split <;> trivial

lemma asks_requireItemChain (invocation : Invocation) (proof : ChildRootBinding) :
    ∀ fuel seen id, Asks Reads (R.requireItemChain invocation proof fuel seen id) := by
  intro fuel
  induction fuel with
  | zero => exact fun _ _ => trivial
  | succ _ ih =>
    intro _ _
    rw [requireItemChain]
    split
    · trivial
    split
    · trivial
    refine ⟨trivial, fun r => ?_⟩
    obtain e | _ := r
    · dsimp only
      split <;> trivial
    dsimp only
    split
    · trivial
    split
    · exact ih _ _
    split
    · trivial
    refine asks_bind (asks_requireItemOwnerAttempt _ _ _) fun check => ?_
    cases check with
    | ok => exact ih _ _
    | failed | hung => trivial

lemma asks_requireLiveParents (turnID : GoString) (bounds : List ChildAttemptBinding) :
    Asks Reads (R.requireLiveParents turnID bounds) := by
  induction bounds with
  | nil => trivial
  | cons bound _ ih =>
    refine asks_bind (asks_requireLiveParentAttempt turnID bound) fun check => ?_
    cases check with
    | ok => exact ih
    | failed | hung => trivial

/-- The check between the grant and the call only reads. -/
lemma asks_requireLiveInvocationParents (fuel : ℕ) (invocation : Invocation) :
    Asks Reads (R.requireLiveInvocationParents fuel invocation) := by
  rw [requireLiveInvocationParents]
  split
  · trivial
  split
  · trivial
  rename_i proof _
  refine asks_bind (asks_requireItemChain invocation proof fuel [] _) fun check => ?_
  cases check with
  | ok =>
    refine asks_bind (asks_requireLiveParents invocation.turnID proof.parents) fun check => ?_
    cases check with
    | ok => exact asks_requireLiveRoot invocation proof.root
    | failed | hung => trivial
  | failed | hung => trivial

/-! ### What the check has found -/

section Runs

variable {env : MemoryStore → MemoryStore → Prop} {s s' : MemoryStore} {u u' : List R.Event} {fuel : ℕ}
  {turnID : GoString} {bound : ChildAttemptBinding} {invocation : Invocation}

lemma Told.mono {op : DispatchOp} {r : op.Res} (h : R.Told u op r) (hsub : u ⊆ u') :
    R.Told u' op r := by
  obtain ⟨before, after, hmem⟩ := h
  exact ⟨before, after, hsub hmem⟩

lemma Read.mono {id : GoString} {v : Invocation} (h : R.Read u id v) (hsub : u ⊆ u') :
    R.Read u' id v := by
  obtain ⟨e, he, hread⟩ := h
  exact ⟨e, hsub he, hread⟩

lemma ParentRunLive.mono {parent : Invocation} (h : R.ParentRunLive u parent)
    (hsub : u ⊆ u') : R.ParentRunLive u' parent := by
  intro hclass
  obtain ⟨run, hid, hlive, htold⟩ := h hclass
  refine ⟨run, hid, hlive, ?_⟩
  split at htold
  · rw [if_pos ‹_›]
    exact htold.mono hsub
  · rw [if_neg ‹_›]
    exact ⟨htold.1.mono hsub, htold.2.mono hsub⟩

lemma RootRunLive.mono {root : Invocation} (h : R.RootRunLive u root)
    (hsub : u ⊆ u') : R.RootRunLive u' root := by
  rw [RootRunLive] at h ⊢
  split at h
  · rwa [if_pos ‹_›]
  · rw [if_neg ‹_›]
    obtain ⟨run, htold, hrun⟩ := h
    exact ⟨run, htold.mono hsub, hrun⟩

/-- An Invocation that was read and passed its check was in the Store. -/
lemma getInvocation_ok {id : GoString} {k : Except ErrorTree Invocation → R.Code Check}
    (check : Invocation → Bool) (h : Runs env (.call (.getInvocation id) k : R.Code Check) s u .ok s')
    (hread : ∀ e, ∃ e', k (.error e) = .ret (.failed e'))
    (hcheck : ∀ v, (!check v) = true → ∃ e, k (.ok v) = .ret (.failed e)) :
    ∃ v e u' m, u = e :: u' ∧ R.Read u id v ∧ check v = true ∧ Runs env (k (.ok v)) m u' .ok s' := by
  obtain ⟨_, r, _, _, rfl, -, hexec, hrest⟩ := runs_call.mp h
  obtain e | v := r
  · obtain ⟨_, heq⟩ := hread e
    simp [heq, runs_ret] at hrest
  refine ⟨v, _, _, _, rfl, ⟨_, mem_cons_self, hexec.2⟩, ?_, hrest⟩
  by_contra hnot
  obtain ⟨_, heq⟩ := hcheck v (by simpa using hnot)
  simp [heq, runs_ret] at hrest

/-- What is known of the Run of a parent when its check succeeds. -/
lemma requireParentRun_ok {parent : Invocation} {r : Except ErrorTree Run}
    (h : Runs env (R.requireParentRun parent r) s u .ok s') : ∃ run : Run, r = .ok run ∧
      run.id = parent.executionRefID ∧ terminalRuntimeStatus run.status = false ∧
      (isHandoffDelegationInvocation R.sha256 parent = false →
        R.Told u (.validateChildRuntimeOwnership parent run) none) := by
  obtain e | run := r
  · simp [requireParentRun, runs_ret] at h
  rw [requireParentRun] at h
  split at h
  · simp [runs_ret] at h
  rename_i hrun
  simp only [Bool.or_eq_true, decide_eq_true_eq, not_or, not_not, Bool.not_eq_true] at hrun
  refine ⟨run, rfl, hrun.1, hrun.2, fun hlocal => ?_⟩
  rw [if_neg (by simp [hlocal])] at h
  obtain ⟨_, r, _, _, rfl, -, -, h⟩ := runs_call.mp h
  obtain _ | e := r
  · exact ⟨_, _, mem_cons_self⟩
  · simp [runs_ret] at h

lemma requireLiveParentAttempt_ok
    (h : Runs env (R.requireLiveParentAttempt turnID bound) s u .ok s') : ∃ parent,
      R.Read u bound.invocationID parent ∧ liveAttempt turnID bound parent = true ∧
        R.ParentRunLive u parent := by
  obtain ⟨parent, e, u', m, rfl, hread, hlive, h⟩ := getInvocation_ok (liveAttempt turnID bound) h
    (fun _ => ⟨_, rfl⟩) fun _ hv => ⟨_, if_pos hv⟩
  refine ⟨parent, hread, hlive, fun hclass => ?_⟩
  dsimp only at h
  rw [if_neg (by simp [hlive]), if_neg hclass] at h
  split at h
  · -- a delegated parent runs elsewhere: its local twin is observed, and nobody asks who owns it
    rename_i hhandoff
    obtain ⟨_, r, _, _, rfl, -, -, h⟩ := runs_call.mp h
    obtain ⟨run, rfl, hid, hstatus, -⟩ := requireParentRun_ok h
    refine ⟨run, hid, hstatus, ?_⟩
    rw [if_pos hhandoff]
    exact ⟨_, _, mem_cons_of_mem _ mem_cons_self⟩
  · rename_i hlocal
    obtain ⟨_, r, _, _, rfl, -, -, h⟩ := runs_call.mp h
    obtain ⟨run, rfl, hid, hstatus, howned⟩ := requireParentRun_ok h
    refine ⟨run, hid, hstatus, ?_⟩
    rw [if_neg hlocal]
    refine ⟨⟨_, _, mem_cons_of_mem _ mem_cons_self⟩, ?_⟩
    exact (howned (by simpa using hlocal)).mono fun _ he => mem_cons_of_mem _ (mem_cons_of_mem _ he)

lemma requireLiveParents_ok {bounds : List ChildAttemptBinding} :
    ∀ {s u}, Runs env (R.requireLiveParents turnID bounds) s u .ok s' →
      ∀ bound ∈ bounds, ∃ parent, R.Read u bound.invocationID parent ∧
        liveAttempt turnID bound parent = true ∧ R.ParentRunLive u parent := by
  induction bounds with
  | nil => exact fun _ bound hbound => nomatch hbound
  | cons _ _ ih =>
    intro s u h
    obtain ⟨_, _, check, m, rfl, hfirst, hrest⟩ := runs_bind.mp h
    cases check with
    | ok =>
      refine forall_mem_cons.mpr ⟨?_, fun bound hbound => ?_⟩
      · obtain ⟨parent, hread, hlive, hrun⟩ := requireLiveParentAttempt_ok hfirst
        exact ⟨parent, hread.mono (subset_append_left _ _), hlive,
          hrun.mono (subset_append_left _ _)⟩
      · obtain ⟨parent, hread, hlive, hrun⟩ := ih hrest bound hbound
        exact ⟨parent, hread.mono (subset_append_right _ _), hlive,
          hrun.mono (subset_append_right _ _)⟩
    | failed | hung => simp [runs_ret] at hrest

lemma requireLiveRoot_ok (h : Runs env (R.requireLiveRoot invocation bound) s u .ok s') : ∃ root,
    R.Read u bound.invocationID root ∧ liveRoot invocation bound root = true ∧
      R.RootRunLive u root := by
  obtain ⟨root, e, u', m, rfl, hread, hlive, h⟩ := getInvocation_ok (liveRoot invocation bound) h
    (fun _ => ⟨_, rfl⟩) fun _ hv => ⟨_, if_pos hv⟩
  refine ⟨root, hread, hlive, ?_⟩
  rw [RootRunLive]
  dsimp only at h
  rw [if_neg (by simp [hlive])] at h
  split at h
  · rename_i happlication
    rw [if_pos happlication]
    split at h
    · simp [runs_ret] at h
    · rename_i hclaimed
      simpa using hclaimed
  rename_i hclass
  rw [if_neg hclass]
  -- every way out but the last one is a failure
  split at h
  · simp [runs_ret] at h
  obtain ⟨_, r, _, _, rfl, -, -, h⟩ := runs_call.mp h
  obtain e | run := r
  · simp [runs_ret] at h
  dsimp only at h
  split at h
  · simp [runs_ret] at h
  rename_i hrun
  simp only [Bool.or_eq_true, decide_eq_true_eq, not_or, not_not, Bool.not_eq_true] at hrun
  split at h
  · exact ⟨run, ⟨_, _, mem_cons_of_mem _ mem_cons_self⟩, hrun.1, hrun.2, ‹_›⟩
  · simp [runs_ret] at h

/-- **A check that succeeds has found everything live.** -/
theorem requireLiveInvocationParents_ok
    (h : Runs env (R.requireLiveInvocationParents fuel invocation) s u .ok s') :
    R.FoundLive invocation env fuel u := by
  refine ⟨⟨s, s', h⟩, fun hchild => ?_⟩
  rw [requireLiveInvocationParents, if_neg hchild] at h
  rcases hproof : frozenChildRoot R.sha256 invocation with _ | proof
  · simp [hproof, runs_ret] at h
  rw [hproof] at h
  obtain ⟨u₁, _, check, m, rfl, -, h⟩ := runs_bind.mp h
  cases check with
  | ok =>
    obtain ⟨u₂, u₃, check, _, rfl, hparents, h⟩ := runs_bind.mp h
    have hsub : u₂ ⊆ u₁ ++ (u₂ ++ u₃) ∧ u₃ ⊆ u₁ ++ (u₂ ++ u₃) := by simp
    cases check with
    | ok =>
      refine ⟨proof, rfl, fun bound hbound => ?_, ?_⟩
      · obtain ⟨parent, hread, hlive, hrun⟩ := requireLiveParents_ok hparents bound hbound
        exact ⟨parent, hread.mono hsub.1, hlive, hrun.mono hsub.1⟩
      · obtain ⟨root, hread, hlive, hrun⟩ := requireLiveRoot_ok h
        exact ⟨root, hread.mono hsub.2, hlive, hrun.mono hsub.2⟩
    | failed | hung => simp [runs_ret] at h
  | failed | hung => simp [runs_ret] at h

/-! ### The part before the call -/

variable {phase resultRunID : GoString} {item grant : Item} {e : R.Event}
  {before after : MemoryStore} {past : List R.Event} {boundary : Boundary}
  {a : GoString × Option ErrorTree} {g : Item} {op : DispatchOp}

lemma appendItem_fresh {stored : Item} (h : s.appendItem item = .ok (s', stored, true)) :
    s' = s.push (s.stored item) ∧ s.itemAdmitted item = true := by
  rw [appendItem] at h
  split at h
  · cases h
  split at h
  · split at h <;> cases h
  split at h
  · cases h
  rename_i hadmitted
  simp only [Bool.or_eq_true, Bool.not_eq_true', not_or, Bool.not_eq_false] at hadmitted
  cases h
  exact ⟨rfl, hadmitted.1⟩

lemma isGrant_grantFor (identifier : GoString) (now : Time) :
    (R.grantFor invocation phase resultRunID identifier now).isGrant = true := by
  rfl

/-- **A dispatch that goes on has its grant, and has found everything live.** -/
theorem begin_granted
    (h : Runs env (R.beginPhysicalInvocationDispatch fuel invocation phase resultRunID) s u
      (.granted grant) s') :
    R.Granted invocation phase resultRunID env fuel u ∧
      ∃ identifier now, grant = R.grantFor invocation phase resultRunID identifier now := by
  rw [beginPhysicalInvocationDispatch] at h
  split at h
  · simp [runs_ret] at h
  obtain ⟨_, identifier, _, _, rfl, -, -, h⟩ := runs_call.mp h
  obtain _ | identifier := identifier
  · simp [runs_ret] at h
  obtain ⟨_, now, _, _, rfl, -, -, h⟩ := runs_call.mp h
  obtain ⟨_, r, _, _, rfl, -, hexec, h⟩ := runs_call.mp h
  match r with
  | .error e | .ok (_, false) => simp [runs_ret] at h
  | .ok (_, true) =>
    obtain ⟨u4, _, check, m, rfl, hcheck, h⟩ := runs_bind.mp h
    cases check with
    | hung => simp [runs_ret] at h
    | failed =>
      obtain ⟨_, _, _, _, rfl, -, h⟩ := runs_bind.mp h
      simp [runs_ret] at h
    | ok =>
      obtain ⟨rfl, hgrant, -⟩ := runs_ret.mp h
      cases hgrant
      obtain ⟨rfl, hadmitted⟩ := appendItem_fresh hexec
      refine ⟨⟨[_, _], _, u4, identifier, now, by rw [append_nil]; rfl, ⟨_, _, _, rfl⟩,
        admitted_of_grant hadmitted (isGrant_grantFor identifier now),
        (log_push _ _ _).trans (if_pos rfl), requireLiveInvocationParents_ok hcheck⟩,
        identifier, now, rfl⟩

lemma not_entered_of_reads (h : Reads e.op) (answer : GoString × Option ErrorTree) :
    ¬ R.Entered e answer := by
  rintro ⟨_, _, rfl⟩
  exact h.elim

lemma not_entered_of_append
    {r : Except ErrorTree (Item × Bool)} (answer : GoString × Option ErrorTree) :
    ¬ R.Entered ⟨before, .appendItem item, r, after⟩ answer := by
  rintro ⟨_, _, heq⟩
  cases heq

lemma dispatched_of_reads (h : Reads e.op) :
    R.Dispatched invocation phase resultRunID env fuel past e := by
  refine ⟨fun answer he => absurd he (not_entered_of_reads h answer),
    fun answer he => absurd he (not_entered_of_reads h answer), ?_⟩
  rintro _ ⟨_, _, _, rfl⟩
  exact h.elim

lemma dispatched_of_wrote {answer : Except ErrorTree (Item × Bool)}
    (h : R.WrittenWithProof invocation phase resultRunID env fuel past item) :
    R.Dispatched invocation phase resultRunID env fuel past
      ⟨before, .appendItem item, answer, after⟩ := by
  refine ⟨fun answer he => absurd he (not_entered_of_append answer),
    fun answer he => absurd he (not_entered_of_append answer), ?_⟩
  rintro _ ⟨_, _, _, heq⟩
  cases heq
  exact h

lemma eachAfter_of_ret {α : Type} {b c : α} {P : List R.Event → R.Event → Prop}
    (h : Runs env (.ret b : R.Code α) s u c s') : EachAfter P u := by
  obtain ⟨rfl, -⟩ := runs_ret.mp h
  exact eachAfter_nil

/-- The receipt is the last call. -/
lemma finish_dispatched (past : List R.Event) (fuel : ℕ)
    {a : Option ErrorTree} (h : Runs env (R.finishPhysicalDispatchGrant grant boundary) s u a s')
    (hproof : ∀ e : R.Event, Reads e.op → ∀ later, R.WrittenWithProof invocation phase resultRunID
      env fuel (past ++ [e]) (R.receiptFor grant boundary later)) :
    EachAfter (fun past' => R.Dispatched invocation phase resultRunID env fuel (past ++ past')) u := by
  obtain ⟨s1, now, s2, _, rfl, -, -, h⟩ := runs_call.mp h
  obtain ⟨_, r, _, u₂, rfl, -, -, h⟩ := runs_call.mp h
  have hlast : u₂ = [] := by
    cases r with
    | error | ok => exact (runs_ret.mp h).1
  subst hlast
  refine eachAfter_cons.mpr ⟨dispatched_of_reads trivial, eachAfter_cons.mpr ⟨?_, eachAfter_nil⟩⟩
  exact dispatched_of_wrote (hproof ⟨s1, .now, now, s2⟩ trivial now)

/-- The Feature is not called before the grant. -/
lemma asks_begin (fuel : ℕ) (invocation : Invocation) (phase resultRunID : GoString) :
    Asks Outside (R.beginPhysicalInvocationDispatch fuel invocation phase resultRunID) := by
  have hreads : ∀ op, Reads op → Outside op := by
    intro op h
    cases op <;> first | exact h.elim | trivial
  rw [beginPhysicalInvocationDispatch]
  split
  · trivial
  refine ⟨trivial, fun identifier => ?_⟩
  obtain _ | _ := identifier
  · trivial
  refine ⟨trivial, fun now => ⟨trivial, fun r => ?_⟩⟩
  match r with
  | .error e | .ok (_, false) => trivial
  | .ok (_, true) =>
    refine asks_bind ((asks_requireLiveInvocationParents fuel invocation).mono hreads)
      fun check => ?_
    cases check with
    | ok | hung => trivial
    | failed =>
      refine asks_bind ⟨trivial, fun now => ⟨trivial, fun r => ?_⟩⟩ fun _ => trivial
      cases r <;> trivial

lemma not_entered_of_begin {b : Begun}
    (h : Runs env (R.beginPhysicalInvocationDispatch fuel invocation phase resultRunID) s u b s') :
    ∀ e ∈ u, ∀ answer, ¬ R.Entered e answer := by
  rintro e he _ ⟨_, _, rfl⟩
  exact h.asks (asks_begin fuel invocation phase resultRunID) _ he

lemma begin_dispatched {b : Begun}
    (h : Runs env (R.beginPhysicalInvocationDispatch fuel invocation phase resultRunID) s u b s') :
    EachAfter (R.Dispatched invocation phase resultRunID env fuel) u := by
  have hentered := not_entered_of_begin h
  rw [beginPhysicalInvocationDispatch] at h
  split at h
  · exact eachAfter_of_ret h
  obtain ⟨_, identifier, _, _, rfl, -, -, h⟩ := runs_call.mp h
  refine eachAfter_cons.mpr ⟨dispatched_of_reads trivial, ?_⟩
  obtain _ | identifier := identifier
  · exact eachAfter_of_ret h
  obtain ⟨_, now, _, _, rfl, -, -, h⟩ := runs_call.mp h
  obtain ⟨_, r, _, _, rfl, -, _, h⟩ := runs_call.mp h
  refine eachAfter_cons.mpr ⟨dispatched_of_reads trivial, eachAfter_cons.mpr
    ⟨dispatched_of_wrote ⟨identifier, now, .inl rfl⟩, ?_⟩⟩
  match r with
  | .error e | .ok (_, false) =>
    exact eachAfter_of_ret h
  | .ok (_, true) =>
    obtain ⟨u4, _, check, m, rfl, hcheck, h⟩ := runs_bind.mp h
    have hreads := hcheck.asks (asks_requireLiveInvocationParents fuel invocation)
    refine eachAfter_append.mpr ⟨eachAfter_of_forall fun e he _ =>
      dispatched_of_reads (hreads e he), ?_⟩
    cases check with
    | hung | ok =>
      exact eachAfter_of_ret h
    | failed err =>
      obtain ⟨u6, _, _, _, rfl, hfinish, h⟩ := runs_bind.mp h
      obtain ⟨rfl, -⟩ := runs_ret.mp h
      rw [append_nil]
      refine finish_dispatched (_ :: _ :: _ :: u4) fuel hfinish fun e he later => ⟨identifier, now,
        .inr ⟨_, later, rfl, .inl ⟨rfl, ⟨[_, _, _], u4, [e], _, _, err, rfl, hcheck⟩, ?_⟩⟩⟩
      intro e' he'
      rcases mem_append.mp he' with he' | he'
      · exact hentered e' (mem_append_left (u6 ++ []) he')
      · rw [mem_singleton.mp he']
        exact not_entered_of_reads he

/-! ### The part after the call -/

/-- **An answer that settles the grant is a proof.** -/
theorem proves_of_settles {answer : GoString × Option ErrorTree}
    (h : R.settles invocation phase resultRunID answer = some boundary) :
    R.Proves invocation phase resultRunID answer := by
  rw [settles] at h
  split at h
  · rename_i hnone
    refine .inr ⟨hnone, ?_⟩
    split at h
    · rename_i hcontrol
      simp only [Bool.and_eq_true, Option.any_eq_true] at hcontrol
      obtain ⟨⟨hnative, hphase⟩, e, he, herr⟩ := hcontrol
      exact ⟨e, he, .inl ⟨hnative, hphase, herr⟩⟩
    split at h
    · rename_i hstart
      simp only [Bool.and_eq_true, Option.any_eq_true] at hstart
      obtain ⟨⟨hnative, hphase⟩, e, he, herr⟩ := hstart
      exact ⟨e, he, .inr (.inl ⟨hnative, hphase, herr⟩)⟩
    split at h
    · rename_i hpublic
      simp only [Bool.and_eq_true, Option.any_eq_true, Bool.or_eq_true, Bool.not_eq_true',
        decide_eq_true_eq] at hpublic
      obtain ⟨⟨hclass, hphase⟩, e, he, herr⟩ := hpublic
      exact ⟨e, he, .inr (.inr ⟨hclass, hphase, herr⟩)⟩
    · cases h
  · rename_i hsome
    split at h
    · rename_i hrun
      exact .inl ⟨hrun, hsome⟩
    · cases h

/-- **Every call of a dispatch.** -/
theorem dispatch_dispatched
    (h : Runs env (R.withPhysicalInvocationDispatchFor fuel invocation phase resultRunID) s u a s') :
    EachAfter (R.Dispatched invocation phase resultRunID env fuel) u := by
  obtain ⟨u₁, _, b, m, rfl, hbegin, h⟩ := runs_bind.mp h
  refine eachAfter_append.mpr ⟨begin_dispatched hbegin, ?_⟩
  cases b with
  | hung | failed =>
    exact eachAfter_of_ret h
  | granted =>
    obtain ⟨_, identifier, now, rfl⟩ := begin_granted hbegin
    obtain ⟨s1, answer, s2, _, rfl, -, -, h⟩ := runs_call.mp h
    refine eachAfter_cons.mpr ⟨⟨fun _ _ => ?_, fun _ _ => ?_, ?_⟩, ?_⟩
    · rw [append_nil]
      exact not_entered_of_begin hbegin
    · rwa [append_nil]
    · rintro _ ⟨_, r, _, heq⟩
      cases heq
    unfold afterPhysical at h
    split at h
    · exact eachAfter_of_ret h
    rename_i boundary hsettles
    obtain ⟨_, _, _, _, rfl, hfinish, h⟩ := runs_bind.mp h
    obtain ⟨rfl, -⟩ := runs_ret.mp h
    have hentry : R.Entered ⟨s1, .physical, answer, s2⟩ answer := ⟨s1, s2, rfl⟩
    have hall := finish_dispatched (u₁ ++ [⟨s1, .physical, answer, s2⟩]) fuel hfinish
      fun e _ later => ⟨identifier, now, .inr ⟨boundary, later, rfl, .inr
        ⟨_, by simp, answer, hentry, proves_of_settles hsettles⟩⟩⟩
    simpa using hall

/-! ### A grant that nothing settles -/

/-- A grant without a receipt that comes after it. -/
structure Waits (s : MemoryStore) (g : Item) : Prop where
  grant : g.isGrant = true
  logged : g ∈ s.log g.turnID
  unclaimed : ∀ i ∈ receiptsOf (s.log g.turnID) g.id, i.seq ≤ g.seq

lemma Waits.unsettled (h : Waits s g) : Harness.unsettled (s.log g.turnID) g = true := by
  rw [Harness.unsettled, h.grant, Bool.true_and, isNone_iff_eq_none,
    eq_none_iff_forall_ne_some]
  intro b hb
  obtain ⟨receipt, hmem, hlater⟩ := exists_receipt_of_settlement hb
  exact absurd (h.unclaimed receipt hmem) (Nat.not_le.mpr hlater)

/-- **A grant that waits holds up its Turn.** -/
theorem Waits.holdsUp (h : Waits s g) (hs : Arbitrated s) : R.HoldsUp s g := by
  refine ⟨fun request id v v' hv hturn hv' => ?_, fun request t g' hlog hgrant hsame => ?_⟩
  · obtain ⟨w, hw, hstep⟩ := (serve_change R.sha256 s request).invocation hs hv
    rw [hv'] at hw
    cases hw
    by_contra hne
    have hsettled := (hstep.rotates hne).2.settled
    rw [hturn] at hsettled
    exact Bool.false_ne_true ((hsettled g h.logged).symm.trans h.unsettled)
  · obtain heq | ⟨_, happended, _, heq⟩ := (serve_change R.sha256 s request).log t
    · rw [heq] at hlog
      simp at hlog
    rw [heq, append_cancel_left_eq, cons.injEq] at hlog
    obtain rfl := hlog.1
    have hadmitted := admitted_of_grant happended.admitted hgrant
    -- both grants belong to the Turn of the Invocation
    obtain ⟨v, hv, hturn⟩ := hs.owned g.turnID g h.logged h.grant
    obtain ⟨w, hw, hturn', -⟩ := hadmitted.owner
    rw [hsame, hv, some.injEq] at hw
    have hfree := hadmitted.free
    rw [← hturn', ← hw, hturn, hsame] at hfree
    have hpending := any_eq_false.mp hfree g h.logged
    have hwaits := h.unsettled
    rw [Harness.unsettled, Bool.and_eq_true] at hwaits
    exact hpending (by simp [pendingGrant, h.grant, hwaits.2])

lemma waits_of_append (hs : Arbitrated s') (hgrant : g.isGrant = true)
    (hlog : s'.log g.turnID = s.log g.turnID ++ [g]) : Waits s' g := by
  refine ⟨hgrant, by simp [hlog], fun i hi => ?_⟩
  have hmem := (mem_receiptsOf.mp hi).1
  have hseqs := hs.numbered g.turnID
  have hi : i.seq ∈ range' 1 (s'.log g.turnID).length := hseqs ▸ mem_map_of_mem hmem
  have hg : g.seq = (s'.log g.turnID).length := by
    rw [hlog, map_append, length_append, map_singleton, length_singleton,
      range'_concat] at hseqs
    have hlast := (append_inj' hseqs rfl).2
    rw [cons.injEq] at hlast
    rw [hlog, length_append, length_singleton]
    omega
  rw [mem_range'_1] at hi
  omega

lemma Waits.step (h : Waits s g) (hstart : s.log g.turnID <+: s'.log g.turnID)
    (hspares : Spares g.id s s') : Waits s' g := by
  refine ⟨h.grant, hstart.subset h.logged, fun i hi => h.unclaimed i ?_⟩
  obtain ⟨-, hclaims, hid⟩ := mem_receiptsOf.mp hi
  exact mem_receiptsOf.mpr ⟨hspares g.turnID i hi, hclaims, hid⟩

lemma spares_refl (id : GoString) (s : MemoryStore) : Spares id s s :=
  fun _ _ hi => (mem_receiptsOf.mp hi).1

/-- A call of a dispatch is a call of the Store, or leaves it as it is. -/
lemma exec_cases {r : op.Res} (h : op.Exec R.sha256 s r s') :
    s' = s ∨ ∃ item, op = .appendItem item ∧ s' = s.serve R.sha256 (.appendItem item) := by
  cases op with
  | appendItem item =>
    cases r with
    | ok answer =>
      refine .inr ⟨item, rfl, ?_⟩
      have hok : s.appendItem item = .ok (s', answer.1, answer.2) := h
      rw [serve, hok]
      rfl
    | error => exact h.imp_right fun h => ⟨item, rfl, h⟩
  | getItem | getInvocation =>
    cases r with
    | ok => exact .inl h.1
    | error => exact .inl h
  | _ => exact .inl h

lemma exec_later {r : op.Res} (h : op.Exec R.sha256 s r s') : Later R.sha256 s s' := by
  obtain rfl | ⟨_, -, rfl⟩ := exec_cases h
  · exact .refl
  · exact later_serve s _

lemma serve_append_cases (sha256 : GoString → GoString) (s : MemoryStore) (item : Item) :
    s.serve sha256 (.appendItem item) = s ∨
      s.serve sha256 (.appendItem item) = s.push (s.stored item) := by
  rw [serve]
  rcases happend : s.appendItem item with e | r
  · exact .inl rfl
  obtain ⟨_, _, fresh⟩ := r
  cases fresh with
  | true => exact .inr (appendItem_fresh happend).1
  | false =>
    rw [appendItem] at happend
    split at happend
    · cases happend
    split at happend
    · split at happend <;> cases happend
      exact .inl rfl
    split at happend <;> cases happend

lemma spares_append (hgrant : item.isGrant = true) (id : GoString) :
    Spares id s (s.serve R.sha256 (.appendItem item)) := by
  obtain heq | heq := serve_append_cases R.sha256 s item
  · rw [heq]
    exact spares_refl id s
  rw [heq]
  intro t i hi
  obtain ⟨hmem, hclaims, -, hid⟩ := mem_receiptsOf.mp hi
  refine (mem_log_push hmem).resolve_right ?_
  rintro ⟨rfl, -⟩
  simp only [Item.isGrant, Item.claims, Bool.and_eq_true, decide_eq_true_eq] at hgrant hclaims
  exact hid (hclaims.2.symm.trans hgrant.2)

/-- **Without a proof no receipt is committed.** -/
theorem spares_of_unproven
    (h : Runs env (R.withPhysicalInvocationDispatchFor fuel invocation phase resultRunID) s u a s')
    (hunproven : ¬ (R.Rejected invocation env fuel u ∨ R.Answered invocation phase resultRunID u))
    (id : GoString) : ∀ e ∈ u, Spares id e.before e.after := by
  intro e he
  obtain ⟨u₁, u₂, rfl⟩ := append_of_mem he
  obtain heq | ⟨item, hop, heq⟩ := exec_cases (h.exec e he)
  · rw [heq]
    exact spares_refl id e.before
  obtain ⟨before, _, r, after⟩ := e
  cases hop
  have hwrote := (dispatch_dispatched h u₁ _ u₂ rfl).receipts item ⟨before, r, after, rfl⟩
  obtain ⟨identifier, now, rfl | ⟨_, _, rfl, ⟨-, hrejected, -⟩ | hanswered⟩⟩ := hwrote
  · rw [heq]
    exact spares_append (isGrant_grantFor identifier now) id
  · obtain ⟨v₁, v₂, v₃, m, m', err, rfl, hcheck⟩ := hrejected
    exact absurd (.inl ⟨v₁, v₂, v₃ ++ _, m, m', err, append_assoc _ _ _, hcheck⟩) hunproven
  · obtain ⟨e, he, hanswer⟩ := hanswered
    exact absurd (.inr ⟨e, mem_append_left _ he, hanswer⟩) hunproven

end Runs

/-- **A physical dispatch is never silently forgotten.**  Others may call the Store at any
moment.  Every call of the dispatch is what it has to be; and a grant that it committed holds
up the Turn from then on, unless a receipt is committed, by others or, with a proof, by the
dispatch itself. -/
theorem physical_dispatch (R : DispatchRunner) (fuel : ℕ) (invocation : Invocation)
    (phase resultRunID : GoString) (env : MemoryStore → MemoryStore → Prop)
    (hothers : ∀ x y, env x y → R.Others x y) (s : MemoryStore) (hs : Reachable R.sha256 s)
    (u : List R.Event) (a : GoString × Option ErrorTree) (s' : MemoryStore)
    (h : Runs env (R.withPhysicalInvocationDispatchFor fuel invocation phase resultRunID) s u a s') :
    EachAfter (R.Dispatched invocation phase resultRunID env fuel) u ∧
      ∀ e ∈ u, ∀ g, R.Commits e g → (∀ x y, env x y → Spares g.id x y) →
        (R.Rejected invocation env fuel u ∨ R.Answered invocation phase resultRunID u →
          ∀ e ∈ u, Spares g.id e.before e.after) →
        ∀ s'', Relation.ReflTransGen env s' s'' → R.HoldsUp s'' g := by
  refine ⟨dispatch_dispatched h, fun e he g hcommits hquiet hproof s'' hlater => ?_⟩
  have hspares : ∀ e ∈ u, Spares g.id e.before e.after := by
    by_cases hproven : R.Rejected invocation env fuel u ∨ R.Answered invocation phase resultRunID u
    · exact hproof hproven
    · exact spares_of_unproven h hproven g.id
  have henv : ∀ x y, env x y → Later R.sha256 x y := by
    intro x y hxy
    obtain ⟨request, rfl⟩ := hothers x y hxy
    exact later_serve x request
  -- a step of others or of the dispatch leaves the Store later, and the grant waiting
  have hstep : ∀ {x y}, Later R.sha256 x y → Spares g.id x y → Waits x g → Waits y g :=
    fun hlater hspares hwaits => hwaits.step (hlater.log_grows g.turnID) hspares
  obtain ⟨-, hstates⟩ := h.states (R := Later R.sha256) (fun _ => .refl)
    (fun _ _ _ => .trans) henv (fun e he hexec => exec_later hexec)
  obtain ⟨-, hwaits⟩ := h.states (R := fun x y => Waits x g → Waits y g) (fun _ h => h)
    (fun _ _ _ h h' hx => h' (h hx)) (fun x y hxy => hstep (henv x y hxy) (hquiet x y hxy))
    (fun e he hexec => hstep (exec_later hexec) (hspares e he))
  have hafter : Later R.sha256 s e.after := (hstates e he).1.trans (exec_later (h.exec e he))
  have hfirst : Waits e.after g :=
    waits_of_append (Later.arbitrated (hs.trans hafter) arbitrated_empty) hcommits.1 hcommits.2
  have hlast : Later R.sha256 s' s'' ∧ Waits s'' g := by
    induction hlater with
    | refl => exact ⟨.refl, (hwaits e he).2 hfirst⟩
    | tail _ hxy ih =>
      exact ⟨ih.1.trans (henv _ _ hxy), hstep (henv _ _ hxy) (hquiet _ _ hxy) ih.2⟩
  have hreach : Later R.sha256 {} s'' := (hs.trans hafter).trans ((hstates e he).2.trans hlast.1)
  exact hlast.2.holdsUp (hreach.arbitrated arbitrated_empty)

/-! ### A call that times out -/

lemma commits_push {R : DispatchRunner} {s : MemoryStore} {g : Item} (hgrant : g.isGrant = true)
    {op : DispatchOp} {r : op.Res} : R.Commits ⟨s, op, r, s.push (s.stored g)⟩ (s.stored g) :=
  ⟨hgrant, (log_push _ _ _).trans (if_pos rfl)⟩

/-- A Runner with a custom agent. -/
def customRunner : DispatchRunner where
  sha256 := id
  nativeAgent := false
  hasRelations := false
  validRoot _ _ := true

/-- An Item of the Turn that an Invocation owns. -/
def ownedItem (id owner run parent : GoString) : Item where
  id := id
  turnID := lit "t"
  invocationID := owner
  runID := run
  kind := .invocation
  status := .started
  parentItemID := parent
  payload := lit "\x7b\x7d"
  createdAt := 1
  updatedAt := 1

/-- An Invocation below the running one, with the Attempts between them. -/
def childInvocation (id item run parents : GoString) : Invocation :=
  let root := lit "\"invocationID\":\"i\",\"executionRefID\":\"r\",\"attempt\":1"
  let input := lit "\x7b\"harnessRoot\":\x7b" ++ root ++ lit ",\"parents\":[" ++ parents ++ lit "]\x7d\x7d"
  { runningInvocation with
    id := id, parentItemID := item, executionRefID := run, input := input
    inputHash := hashInvocationBytes customRunner.sha256 input }

def middleInvocation : Invocation := childInvocation (lit "m") (lit "p") (lit "s") []

def lowestInvocation : Invocation := childInvocation (lit "l") (lit "q") (lit "u")
  (lit "\x7b\"invocationID\":\"m\",\"executionRefID\":\"s\",\"attempt\":1\x7d")

def runningStore : MemoryStore :=
  let calls : List Request := [.createTurn runningTurn, .createInvocation runningInvocation,
    .appendItem (ownedItem (lit "p") (lit "i") (lit "r") []), .createInvocation middleInvocation,
    .appendItem (ownedItem (lit "q") (lit "m") (lit "s") (lit "p")), .createInvocation lowestInvocation]
  calls.foldl (serve id) {}

def startGrant : Item :=
  customRunner.grantFor lowestInvocation (lit "start") (lit "u") (lit "1") 1

def startedStore : MemoryStore := runningStore.push (runningStore.stored startGrant)

def runningRun (id : GoString) : Run where
  id := id
  kind := lit "agent"
  actor := ⟨[], []⟩
  thread := ⟨[], []⟩
  requestID := []
  goal := []
  status := .running
  revision := 1
  createdAt := 1
  updatedAt := 1

/-- The Feature returned no Run, and an error that says nothing. -/
def timedOut : GoString × Option ErrorTree := ([], some (.wrapped (.other (lit "timeout"))))

/-- A call that leaves the Store as it is. -/
def asked (s : MemoryStore) (op : DispatchOp) (r : op.Res) : customRunner.Event := ⟨s, op, r, s⟩

def grantCall : customRunner.Event :=
  ⟨runningStore, .appendItem startGrant, .ok (runningStore.stored startGrant, true), startedStore⟩

/-- The calls of the dispatch: the grant, the chain of Items, the parent, the root and the Feature. -/
def timedOutCalls : List customRunner.Event :=
  [asked runningStore .newID (some (lit "1")), asked runningStore .now (1 : Time), grantCall,
    asked startedStore (.getItem (lit "q"))
      (.ok { ownedItem (lit "q") (lit "m") (lit "s") (lit "p") with seq := 2 }),
    asked startedStore (.getItem (lit "p"))
      (.ok { ownedItem (lit "p") (lit "i") (lit "r") [] with seq := 1 }),
    asked startedStore (.getInvocation (lit "m")) (.ok middleInvocation),
    asked startedStore (.loadRun (lit "s")) (.ok (runningRun (lit "s"))),
    asked startedStore (.validateChildRuntimeOwnership middleInvocation (runningRun (lit "s"))) none,
    asked startedStore (.getInvocation (lit "i")) (.ok runningInvocation),
    asked startedStore (.loadRun (lit "r")) (.ok (runningRun (lit "r"))),
    asked startedStore .physical timedOut]

lemma appendItem_startGrant : runningStore.appendItem startGrant =
    .ok (startedStore, runningStore.stored startGrant, true) := by
  have hnew : runningStore.itemIDs.lookup startGrant.id = none := by decide +kernel
  rw [appendItem, if_neg (by decide +kernel), hnew]
  exact if_neg (by decide +kernel)

/-- The check behind the grant. -/
lemma runs_check : Runs (fun _ _ => False)
    (customRunner.requireLiveInvocationParents 3 lowestInvocation) startedStore
    ((timedOutCalls.drop 3).take 7) Check.ok startedStore := by
  have hproof : frozenChildRoot customRunner.sha256 lowestInvocation =
      some ⟨⟨lit "i", lit "r", 1⟩, [⟨lit "m", lit "s", 1⟩]⟩ := by
    decide +kernel
  rw [requireLiveInvocationParents, if_neg (by decide), hproof]
  refine runs_bind.mpr ⟨[_, _], _, Check.ok, startedStore, rfl, ?_, ?_⟩
  · -- both Items belong to an Attempt of the binding
    rw [requireItemChain, if_neg (by decide), if_neg (by decide)]
    refine .call .refl ⟨rfl, by decide +kernel⟩ ?_
    refine runs_bind.mpr ⟨[], _, Check.ok, startedStore, rfl, .ret Check.ok .refl, ?_⟩
    refine .call .refl ⟨rfl, by decide +kernel⟩ ?_
    exact runs_bind.mpr ⟨[], _, Check.ok, startedStore, rfl, .ret Check.ok .refl,
      .ret Check.ok .refl⟩
  refine runs_bind.mpr ⟨[_, _, _], _, Check.ok, startedStore, rfl, ?_, ?_⟩
  · refine runs_bind.mpr ⟨[_, _, _], [], Check.ok, startedStore, rfl, ?_, .ret Check.ok .refl⟩
    refine .call .refl ⟨rfl, by decide +kernel⟩ ?_
    dsimp only
    rw [if_neg (by decide +kernel), if_neg (by decide +kernel), if_neg (by decide +kernel)]
    refine .call .refl rfl ?_
    -- the parent has a Run of its own, which has to be owned
    rw [requireParentRun, if_neg (by decide +kernel), if_neg (by decide +kernel)]
    exact .call .refl rfl (.ret Check.ok .refl)
  · refine .call .refl ⟨rfl, by decide +kernel⟩ ?_
    dsimp only
    rw [if_neg (by decide +kernel), if_neg (by decide +kernel), if_neg (by decide +kernel)]
    exact .call .refl rfl (.ret Check.ok .refl)

lemma runs_timedOut : Runs (fun _ _ => False)
    (customRunner.withPhysicalInvocationDispatchFor 3 lowestInvocation (lit "start") (lit "u"))
    runningStore timedOutCalls ([], resultError timedOut none none) startedStore := by
  refine runs_bind.mpr ⟨timedOutCalls.take 10, [_], .granted startGrant, startedStore, rfl, ?_, ?_⟩
  · rw [beginPhysicalInvocationDispatch]
    refine .call .refl rfl (.call .refl rfl (.call .refl appendItem_startGrant ?_))
    exact runs_bind.mpr ⟨_, [], Check.ok, startedStore, rfl, runs_check, .ret _ .refl⟩
  refine .call .refl rfl ?_
  exact .ret _ .refl

/-- The parent and the root were found live, the Feature said nothing, and the grant holds up the
Turn. -/
theorem physical_dispatch_timedOut :
    EachAfter (customRunner.Dispatched lowestInvocation (lit "start") (lit "u")
        (fun _ _ => False) 3) timedOutCalls ∧
      customRunner.HoldsUp startedStore (runningStore.stored startGrant) := by
  have h := physical_dispatch customRunner 3 lowestInvocation (lit "start") (lit "u")
    (fun _ _ => False) (fun _ _ h => h.elim) runningStore (later_foldl _ _)
    timedOutCalls _ startedStore runs_timedOut
  have hgrant : startGrant.isGrant = true := isGrant_grantFor (lit "1") 1
  have hserve : runningStore.serve customRunner.sha256 (.appendItem startGrant) = startedStore := by
    rw [serve, appendItem_startGrant]
    rfl
  have hspares : ∀ e ∈ timedOutCalls,
      Spares (runningStore.stored startGrant).id e.before e.after := by
    have hgranted := spares_append (R := customRunner) (s := runningStore) hgrant
      (runningStore.stored startGrant).id
    rw [hserve] at hgranted
    simp [timedOutCalls, grantCall, asked, spares_refl, hgranted]
  have hcommits : customRunner.Commits grantCall (runningStore.stored startGrant) :=
    commits_push hgrant
  have hmem : grantCall ∈ timedOutCalls := mem_cons_of_mem _ (mem_cons_of_mem _ mem_cons_self)
  exact ⟨h.1, h.2 grantCall hmem _ hcommits (fun _ _ h => h.elim) (fun _ => hspares) _ .refl⟩

end DispatchRunner

end Harness
