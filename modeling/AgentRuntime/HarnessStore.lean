/-
The reference Store of the harness (`memory_store.go`): Turns, Invocations, Interactions and
the logs of Items, all behind one mutex.

The methods that decide who may act compete under that mutex.  Each rescans the log of the
Turn: a grant needs a live owner, no active fence and no other grant; a receipt needs its
grant; a fence admits no new work; and a retry needs a Turn in which nothing is pending.

* **`serve_change`** — all that one call can do.
-/
import AgentRuntime.DispatchLog
import AgentRuntime.FiniteMaps

namespace Harness

open GoString GoJson Kernel FiniteMap

structure MemoryStore where
  turns : Map GoString Turn := ∅
  invocations : Map GoString Invocation := ∅
  invocationExecutionRefs : Map GoString GoString := ∅
  interactions : Map GoString Interaction := ∅
  items : Map GoString (List Item) := ∅
  itemIDs : Map GoString Item := ∅

/-- One iteration over the Invocations of the map visits them in any order. -/
structure VisitOrder where
  visit : List Invocation → List Invocation
  perm : ∀ vs, (visit vs).Perm vs

namespace MemoryStore

/-- The log of a Turn. -/
def log (s : MemoryStore) (turnID : GoString) : List Item := (s.items.lookup turnID).getD []

def values {α : Type} (m : Map GoString α) : List α := m.entries.map fun e => e.2

/-! ### Turns -/

def createTurn (s : MemoryStore) (value : Turn) : Except StoreError (MemoryStore × Turn × Bool) :=
  if !validTurn value then .error .invalidRequest
  else match s.turns.lookup value.id with
    | some existing =>
      if sameTurnIdentity existing value then .ok (s, existing, false) else .error .conflict
    | none => .ok ({ s with turns := s.turns.insert value.id value }, value, true)

def updateTurn (s : MemoryStore) (value : Turn) (expectedRevision : UInt64) :
    Except StoreError (MemoryStore × Turn) :=
  if !validTurn value || expectedRevision = 0 then .error .invalidRequest
  else match s.turns.lookup value.id with
    | none => .error .notFound
    | some current =>
      if current.revision ≠ expectedRevision || !sameTurnIdentity current value then
        .error .conflict
      else
        let next := { value with revision := expectedRevision + 1 }
        .ok ({ s with turns := s.turns.insert value.id next }, next)

/-! ### Invocations -/

section Invocations

variable (sha256 : GoString → GoString)

/-- Another Invocation is the root of the Turn. -/
def otherRoot (s : MemoryStore) (value : Invocation) : Bool :=
  (values s.invocations).any fun existing => existing.turnID = value.turnID &&
    trimSpace existing.parentItemID = [] && existing.id ≠ value.id

/-- Another Invocation owns the execution reference. -/
def otherOwner (s : MemoryStore) (ref id : GoString) : Bool :=
  (s.invocationExecutionRefs.lookup ref).any fun owner => owner ≠ [] && owner ≠ id

/-- The Invocation enters the map and, if it has one, its execution reference the index. -/
def addInvocation (s : MemoryStore) (value : Invocation) : MemoryStore :=
  if trimSpace value.executionRefID = [] then
    { s with invocations := s.invocations.insert value.id value }
  else
    { s with
      invocations := s.invocations.insert value.id value
      invocationExecutionRefs :=
        s.invocationExecutionRefs.insert (trimSpace value.executionRefID) value.id }

def createInvocation (s : MemoryStore) (given : Invocation) :
    Except StoreError (MemoryStore × Invocation × Bool) :=
  let value := { given with parentItemID := trimSpace given.parentItemID }
  if !validInvocation sha256 value then .error .invalidRequest
  else if (s.invocations.lookup value.id).isNone &&
      activeCancellationFence (s.log value.turnID) then .error .conflict
  else if value.parentItemID = [] && s.otherRoot value then .error .conflict
  else match s.invocations.lookup value.id with
    | some existing =>
      if sameInvocationIdentity existing value then .ok (s, existing, false) else .error .conflict
    | none =>
      if trimSpace value.executionRefID ≠ [] &&
          s.otherOwner (trimSpace value.executionRefID) value.id then .error .conflict
      else .ok (s.addInvocation value, value, true)

def updateInvocation (s : MemoryStore) (value : Invocation) (expectedRevision : UInt64) :
    Except StoreError (MemoryStore × Invocation) :=
  if !validInvocation sha256 value || expectedRevision = 0 then .error .invalidRequest
  else match s.invocations.lookup value.id with
    | none => .error .notFound
    | some current =>
      if current.revision ≠ expectedRevision || !sameInvocationIdentity current value ||
          current.executionRefID ≠ value.executionRefID then .error .conflict
      else if terminalInvocationStatus current.status && current.status ≠ value.status then
        .error .conflict
      else if current.status ≠ .running && value.status = .running &&
          activeCancellationFence (s.log value.turnID) then .error .conflict
      else if value.status = .failed && pendingExecutionDispatch (s.log value.turnID) value.id then
        .error .conflict
      else
        let next := { value with revision := expectedRevision + 1 }
        .ok ({ s with invocations := s.invocations.insert value.id next }, next)

/-- The children that the fence of a retry looks at. -/
def childrenOf (s : MemoryStore) (current : Invocation) : List Invocation :=
  (values s.invocations).filter fun child => child.turnID = current.turnID &&
    child.parentItemID ≠ [] && child.id ≠ current.id

/-- The next Attempt of an Invocation. -/
def rotated (current : Invocation) (nextExecutionRefID : GoString) (now : Time) : Invocation :=
  { current with
    attempt := current.attempt + 1
    executionRefID := nextExecutionRefID
    status := .accepted
    outputRefs := []
    errorCode := []
    errorDetail := []
    revision := current.revision + 1
    updatedAt := now }

/-- The Turn runs again. -/
def reopened (turn : Turn) (now : Time) : Turn :=
  { turn with
    status := .running
    errorCode := []
    errorDetail := []
    revision := turn.revision + 1
    updatedAt := now }

/-- The Turns after a retry: that of a root runs again. -/
def reopenTurn (s : MemoryStore) (current : Invocation) (now : Time) : Map GoString Turn :=
  match s.turns.lookup current.turnID with
  | some turn =>
    if trimSpace current.parentItemID = [] && turn.id ≠ [] then
      s.turns.insert turn.id (reopened turn now)
    else s.turns
  | none => s.turns

def retryInvocation (order : VisitOrder) (s : MemoryStore) (invocationID : GoString)
    (expectedRevision : UInt64) (nextExecutionRefID : GoString) (now : Time) :
    Except StoreError (MemoryStore × Invocation) :=
  if trimSpace invocationID = [] || expectedRevision = 0 || trimSpace nextExecutionRefID = [] ||
      isZero now then .error .invalidRequest
  else match s.invocations.lookup (trimSpace invocationID) with
    | none => .error .notFound
    | some current =>
      if current.revision ≠ expectedRevision || !retryableInvocationStatus current.status ||
          current.input = [] || activeCancellationFence (s.log current.turnID) ||
          pendingExecutionDispatch (s.log current.turnID) [] then .error .conflict
      else match retryChildEffectFence sha256 (order.visit (s.childrenOf current))
          (s.log current.turnID) current with
        | some e => .error e
        | none =>
          if trimSpace current.parentItemID = [] &&
              !(s.turns.lookup current.turnID).any fun t => terminalTurnStatus t.status then
            .error .conflict
          else if s.otherOwner (trimSpace nextExecutionRefID) current.id then .error .conflict
          else
            let next := rotated current (trimSpace nextExecutionRefID) now
            .ok ({ s with
              turns := s.reopenTurn current now
              invocations := s.invocations.insert current.id next
              invocationExecutionRefs :=
                (s.invocationExecutionRefs.erase current.executionRefID).insert
                  (trimSpace nextExecutionRefID) current.id }, next)

end Invocations

/-! ### Interactions -/

def memoryInteractionOwnersCanWait (turn : Turn) (invocation : Invocation)
    (expectedTurnRevision expectedInvocationRevision : UInt64) : Bool :=
  turn.revision = expectedTurnRevision && invocation.revision = expectedInvocationRevision &&
    invocation.turnID = turn.id &&
    ((turn.status = .running &&
        (invocation.status = .accepted || invocation.status = .running)) ||
      (turn.status = .waitingInput && invocation.status = .waitingInput) ||
      ((turn.status = .accepted || turn.status = .running) &&
        invocation.status = .waitingInput && invocation.parentItemID ≠ []))

def memoryHasWaitingInteraction (s : MemoryStore) (turnID : GoString) : Bool :=
  (values s.interactions).any fun existing =>
    existing.turnID = turnID && existing.status = .waiting

def createInteraction (s : MemoryStore) (value : Interaction)
    (expectedTurnRevision expectedInvocationRevision : UInt64) :
    Except StoreError (MemoryStore × Interaction × Bool) :=
  if !validInteraction value || expectedTurnRevision = 0 || expectedInvocationRevision = 0 then
    .error .invalidRequest
  else match s.interactions.lookup value.id with
    | some existing =>
      if sameInteractionIdentity existing value then .ok (s, existing, false) else .error .conflict
    | none =>
      if activeCancellationFence (s.log value.turnID) then .error .conflict
      else match s.turns.lookup value.turnID, s.invocations.lookup value.invocationID with
        | some turn, some invocation =>
          if !memoryInteractionOwnersCanWait turn invocation expectedTurnRevision
                expectedInvocationRevision || s.memoryHasWaitingInteraction turn.id then
            .error .conflict
          else .ok ({ s with interactions := s.interactions.insert value.id value }, value, true)
        | _, _ => .error .conflict

/-- The plain update of an Interaction, which looks at no fence. -/
def updateInteraction (s : MemoryStore) (value : Interaction) (expectedRevision : UInt64) :
    Except StoreError (MemoryStore × Interaction) :=
  if !validInteraction value || expectedRevision = 0 then .error .invalidRequest
  else match s.interactions.lookup value.id with
    | none => .error .notFound
    | some current =>
      if current.revision ≠ expectedRevision || !sameInteractionIdentity current value then
        .error .conflict
      else
        let next := { value with revision := expectedRevision + 1 }
        .ok ({ s with interactions := s.interactions.insert value.id next }, next)

def memoryInteractionCanResolve (current resolved : Interaction) (turn : Turn)
    (invocation : Invocation) (expectedRevision : UInt64) : Bool :=
  current.revision = expectedRevision && current.status = .waiting &&
    sameInteractionIdentity current resolved && turn.status = .waitingInput &&
    invocation.turnID = turn.id && invocation.status = .waitingInput

def resolveInteraction (s : MemoryStore) (value : Interaction) (expectedRevision : UInt64) :
    Except StoreError (MemoryStore × Interaction × Invocation × Turn) :=
  if !validResolvedInteraction value expectedRevision then .error .invalidRequest
  else match s.interactions.lookup value.id, s.turns.lookup value.turnID,
      s.invocations.lookup value.invocationID with
    | some current, some turn, some invocation =>
      if !memoryInteractionCanResolve current value turn invocation expectedRevision ||
          activeCancellationFence (s.log value.turnID) then .error .conflict
      else
        let next := { value with revision := expectedRevision + 1 }
        .ok ({ s with interactions := s.interactions.insert value.id next }, next, invocation, turn)
    | _, _, _ => .error .conflict

/-! ### Items -/

/-- Who may hold a grant. -/
def grantAdmitted (s : MemoryStore) (value : Item) : Bool :=
  ((s.turns.lookup value.turnID).any fun turn => !terminalTurnStatus turn.status) &&
    ((s.invocations.lookup value.invocationID).any fun owner =>
      owner.turnID = value.turnID && owner.executionRefID = value.runID &&
        !terminalInvocationStatus owner.status) &&
    !activeCancellationFence (s.log value.turnID) &&
    !pendingExecutionDispatch (s.log value.turnID) value.invocationID

/-- The arbitration of fences and grants. -/
def itemAdmitted (s : MemoryStore) (value : Item) : Bool :=
  if value.isFence then !activeCancellationFence (s.log value.turnID)
  else if value.isGrant then s.grantAdmitted value
  else true

/-- An Item under a grant has to be its one receipt. -/
def receiptAdmitted (s : MemoryStore) (value : Item) : Bool :=
  match s.itemIDs.lookup value.parentItemID with
  | some grant =>
    !grant.isGrant || ((verifiedExecutionDispatchReceipt grant [value]).isSome &&
      !(s.log grant.turnID).any (Item.claims grant.id))
  | none => true

/-- The Item as it is stored. -/
def stored (s : MemoryStore) (given : Item) : Item :=
  { given with
    payload := normalizedItemPayload given.payload
    seq := (s.log given.turnID).length + 1 }

/-- The log with one more Item. -/
def push (s : MemoryStore) (value : Item) : MemoryStore :=
  { s with
    items := s.items.insert value.turnID (s.log value.turnID ++ [value])
    itemIDs := s.itemIDs.insert value.id value }

def appendItem (s : MemoryStore) (given : Item) : Except StoreError (MemoryStore × Item × Bool) :=
  if !validItem given then .error .invalidRequest
  else match s.itemIDs.lookup given.id with
    | some existing =>
      if sameItemIdentity existing { given with payload := normalizedItemPayload given.payload } then
        .ok (s, existing, false)
      else .error .conflict
    | none =>
      if !s.itemAdmitted given || !s.receiptAdmitted (s.stored given) then .error .conflict
      else .ok (s.push (s.stored given), s.stored given, true)

end MemoryStore

/-! ### Calls -/

/-- A call of a method, with its arguments. -/
inductive Request where
  | createTurn (value : Turn)
  | updateTurn (value : Turn) (expectedRevision : UInt64)
  | createInvocation (value : Invocation)
  | updateInvocation (value : Invocation) (expectedRevision : UInt64)
  | retryInvocation (order : VisitOrder) (invocationID : GoString) (expectedRevision : UInt64)
      (nextExecutionRefID : GoString) (now : Time)
  | createInteraction (value : Interaction)
      (expectedTurnRevision expectedInvocationRevision : UInt64)
  | resolveInteraction (value : Interaction) (expectedRevision : UInt64)
  | appendItem (value : Item)

namespace MemoryStore

/-- The store after a call, which a refused call leaves as it is. -/
def serve (sha256 : GoString → GoString) (s : MemoryStore) (request : Request) : MemoryStore :=
  let outcome : Except StoreError MemoryStore := match request with
    | .createTurn value => (s.createTurn value).map Prod.fst
    | .updateTurn value expected => (s.updateTurn value expected).map Prod.fst
    | .createInvocation value => (s.createInvocation sha256 value).map Prod.fst
    | .updateInvocation value expected => (s.updateInvocation sha256 value expected).map Prod.fst
    | .retryInvocation order id expected next now =>
      (retryInvocation sha256 order s id expected next now).map Prod.fst
    | .createInteraction value turnRevision invocationRevision =>
      (s.createInteraction value turnRevision invocationRevision).map Prod.fst
    | .resolveInteraction value expected => (s.resolveInteraction value expected).map Prod.fst
    | .appendItem value => (s.appendItem value).map Prod.fst
  outcome.toOption.getD s

/-! ### What a call can do -/

variable {sha256 : GoString → GoString} {s s' : MemoryStore} {expected : UInt64}
  {value : Interaction}

/-- All that one call can do to the store, with what was checked before. -/
inductive Change (sha256 : GoString → GoString) (s : MemoryStore) : MemoryStore → Prop
  | unchanged : Change sha256 s s
  | turns (turns : Map GoString Turn) : Change sha256 s { s with turns := turns }
  | created (value : Invocation) (hnew : s.invocations.lookup value.id = none)
      (hfence : activeCancellationFence (s.log value.turnID) = false) :
      Change sha256 s (s.addInvocation value)
  | updated (current value : Invocation) (hcurrent : s.invocations.lookup value.id = some current)
      (hidentity : sameInvocationIdentity current value = true)
      (hrunning : value.status = .running →
        current.status = .running ∨ activeCancellationFence (s.log value.turnID) = false) :
      Change sha256 s { s with invocations := s.invocations.insert value.id value }
  | retried (turns : Map GoString Turn) (refs : Map GoString GoString) (key ref : GoString)
      (now : Time) (current : Invocation) (hcurrent : s.invocations.lookup key = some current)
      (hfence : activeCancellationFence (s.log current.turnID) = false)
      (hpending : pendingExecutionDispatch (s.log current.turnID) [] = false)
      (hchildren : retryChildEffectFence sha256 (s.childrenOf current) (s.log current.turnID)
        current = none) :
      Change sha256 s { s with
        turns := turns
        invocations := s.invocations.insert current.id (rotated current ref now)
        invocationExecutionRefs := refs }
  | interactionCreated (value : Interaction) (hnew : s.interactions.lookup value.id = none)
      (hfence : activeCancellationFence (s.log value.turnID) = false) :
      Change sha256 s { s with interactions := s.interactions.insert value.id value }
  | interactionResolved (current value : Interaction)
      (hcurrent : s.interactions.lookup value.id = some current)
      (hidentity : sameInteractionIdentity current value = true)
      (hfence : activeCancellationFence (s.log value.turnID) = false) :
      Change sha256 s { s with interactions := s.interactions.insert value.id value }
  | appended (given : Item) (hnew : s.itemIDs.lookup given.id = none)
      (hadmitted : s.itemAdmitted given = true)
      (hreceipt : s.receiptAdmitted (s.stored given) = true) :
      Change sha256 s (s.push (s.stored given))

lemma createTurn_change {value : Turn} {r : Turn × Bool}
    (h : s.createTurn value = .ok (s', r)) : Change sha256 s s' := by
  rw [createTurn] at h
  split at h
  · cases h
  split at h
  · split at h
    · cases h
      exact .unchanged
    · cases h
  · cases h
    exact .turns _

lemma updateTurn_change {value r : Turn}
    (h : s.updateTurn value expected = .ok (s', r)) : Change sha256 s s' := by
  rw [updateTurn] at h
  split at h
  · cases h
  split at h
  · cases h
  split at h
  · cases h
  · cases h
    exact .turns _

lemma createInvocation_change {given : Invocation} {r : Invocation × Bool}
    (h : s.createInvocation sha256 given = .ok (s', r)) : Change sha256 s s' := by
  simp only [createInvocation] at h
  split at h
  · cases h
  split at h
  · cases h
  rename_i hfence
  split at h
  · cases h
  split at h
  · split at h
    · cases h
      exact .unchanged
    · cases h
  rename_i hnew
  split at h
  · cases h
  cases h
  refine .created _ hnew ?_
  rw [hnew] at hfence
  simpa using hfence

lemma updateInvocation_change {value r : Invocation}
    (h : s.updateInvocation sha256 value expected = .ok (s', r)) : Change sha256 s s' := by
  rw [updateInvocation] at h
  split at h
  · cases h
  split at h
  · cases h
  rename_i current hcurrent
  split at h
  · cases h
  rename_i hsame
  split at h
  · cases h
  split at h
  · cases h
  rename_i hrunning
  split at h
  · cases h
  cases h
  simp only [Bool.or_eq_true, Bool.not_eq_true', not_or, Bool.not_eq_false] at hsame
  refine .updated current { value with revision := expected + 1 } hcurrent hsame.1.2 fun hrun => ?_
  by_contra hnot
  rw [not_or] at hnot
  refine hrunning ?_
  have hactive : activeCancellationFence (s.log value.turnID) = true := by simpa using hnot.2
  simp [hnot.1, show value.status = .running from hrun, hactive]

lemma retryInvocation_change {order : VisitOrder} {id next : GoString}
    {now : Time} {r : Invocation}
    (h : retryInvocation sha256 order s id expected next now = .ok (s', r)) :
    Change sha256 s s' := by
  simp only [retryInvocation] at h
  split at h
  · cases h
  split at h
  · cases h
  rename_i current hcurrent
  split at h
  · cases h
  rename_i hready
  split at h
  · cases h
  rename_i hchildren
  split at h
  · cases h
  split at h
  · cases h
  cases h
  simp only [Bool.or_eq_true, not_or, Bool.not_eq_true] at hready
  exact .retried _ _ _ _ _ current hcurrent hready.1.2 hready.2
    ((retryChildEffectFence_perm sha256 (order.perm _) _ _).mp hchildren)

lemma createInteraction_change {r : Interaction × Bool} {turnRevision invocationRevision : UInt64}
    (h : s.createInteraction value turnRevision invocationRevision = .ok (s', r)) :
    Change sha256 s s' := by
  rw [createInteraction] at h
  split at h
  · cases h
  split at h
  · split at h
    · cases h
      exact .unchanged
    · cases h
  rename_i hnew
  split at h
  · cases h
  rename_i hfence
  split at h
  · split at h
    · cases h
    · cases h
      exact .interactionCreated value hnew (by simpa using hfence)
  · cases h

lemma resolveInteraction_change {r : Interaction × Invocation × Turn}
    (h : s.resolveInteraction value expected = .ok (s', r)) :
    Change sha256 s s' := by
  simp only [resolveInteraction] at h
  split at h
  · cases h
  split at h
  · rename_i current _ _ hcurrent _ _
    split at h
    · cases h
    rename_i hready
    cases h
    simp only [Bool.or_eq_true, Bool.not_eq_true', not_or, Bool.not_eq_false,
      Bool.not_eq_true, memoryInteractionCanResolve, Bool.and_eq_true] at hready
    exact .interactionResolved current { value with revision := expected + 1 } hcurrent
      hready.1.1.1.1.2 hready.2
  · cases h

lemma appendItem_change {given : Item} {r : Item × Bool}
    (h : s.appendItem given = .ok (s', r)) : Change sha256 s s' := by
  rw [appendItem] at h
  split at h
  · cases h
  split at h
  · split at h
    · cases h
      exact .unchanged
    · cases h
  rename_i hnew
  split at h
  · cases h
  rename_i hadmitted
  cases h
  simp only [Bool.or_eq_true, Bool.not_eq_true', not_or, Bool.not_eq_false] at hadmitted
  exact .appended given hnew hadmitted.1 hadmitted.2

lemma change_outcome {α : Type} {x : Except StoreError (MemoryStore × α)}
    (h : ∀ s' r, x = .ok (s', r) → Change sha256 s s') :
    Change sha256 s ((x.map Prod.fst).toOption.getD s) := by
  cases x with
  | error => exact .unchanged
  | ok r => exact h r.1 r.2 rfl

/-- **What one call can do.** -/
theorem serve_change (sha256 : GoString → GoString) (s : MemoryStore) (request : Request) :
    Change sha256 s (s.serve sha256 request) := by
  cases request with
  | createTurn => exact change_outcome fun _ _ => createTurn_change
  | updateTurn => exact change_outcome fun _ _ => updateTurn_change
  | createInvocation => exact change_outcome fun _ _ => createInvocation_change
  | updateInvocation => exact change_outcome fun _ _ => updateInvocation_change
  | retryInvocation =>
    exact change_outcome fun _ _ => retryInvocation_change
  | createInteraction =>
    exact change_outcome fun _ _ => createInteraction_change
  | resolveInteraction => exact change_outcome fun _ _ => resolveInteraction_change
  | appendItem => exact change_outcome fun _ _ => appendItem_change

end MemoryStore

end Harness
