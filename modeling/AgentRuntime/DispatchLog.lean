/-
What the log of a Turn says about physical executions and cancellations
(`execution_dispatch.go`, `cancellation_intent.go` and `retry_child_execution_fence.go`).

A grant is the fact that an Invocation may enter its physical executor.  It is settled by
one receipt, a completion with the same owner and Run that stands later in the log of the
Turn and names a known boundary.  A cancellation fence is active until a completion closes
it.  All of this is found by scanning the log, whose Items never change.

* **`settlement_append`** — what one more Item does to the settlement of a grant.
-/
import AgentRuntime.HarnessRecords

namespace Harness

open GoString GoJson Kernel List

/-! ### Grants and receipts -/

def executionDispatchParentItemID : GoString := lit "harness.execution.dispatch"

/-- The boundaries at which a grant may be settled. -/
inductive Boundary where
  | physicalDispatchRejected
  | featureStartNoEffect
  | nativeAgentStartNoEffect
  | nativeAgentControlNoEffect
  | physicalDispatchReturned
  | handoffStartReturned
  | nativeKernelEpochRecovered
  deriving DecidableEq, Repr

namespace Boundary

def text : Boundary → GoString
  | physicalDispatchRejected => lit "physical_dispatch_rejected"
  | featureStartNoEffect => lit "feature_start_no_effect"
  | nativeAgentStartNoEffect => lit "native_agent_start_no_effect"
  | nativeAgentControlNoEffect => lit "native_agent_control_no_effect"
  | physicalDispatchReturned => lit "physical_dispatch_returned"
  | handoffStartReturned => lit "handoff_start_returned"
  | nativeKernelEpochRecovered => lit "native_kernel_epoch_recovered"

def all : List Boundary :=
  [physicalDispatchRejected, featureStartNoEffect, nativeAgentStartNoEffect,
    nativeAgentControlNoEffect, physicalDispatchReturned, handoffStartReturned,
    nativeKernelEpochRecovered]

def ofText (s : GoString) : Option Boundary := all.find? fun b => b.text = s

end Boundary

/-- The boundary that the payload of a receipt names. -/
def boundaryOf (payload : RawMessage) : Option Boundary :=
  match parse payload with
  | some (.object ms) =>
    (decodeString [] (membersNamed (lit "boundary") ms)).bind Boundary.ofText
  | _ => none

namespace Item

def isDiagnostic (i : Item) : Bool := i.kind = .diagnostic

/-- A grant of a physical execution. -/
def isGrant (i : Item) : Bool :=
  i.isDiagnostic && i.status = .started && i.parentItemID = executionDispatchParentItemID

/-- The Item claims to settle the grant of this ID. -/
def claims (id : GoString) (i : Item) : Bool := i.isDiagnostic && i.parentItemID = id

end Item

/-- A grant that a receipt can name. -/
def usableGrant (grant : Item) : Bool :=
  !(grant.id = [] || grant.seq = 0 || !grant.isGrant || grant.turnID = [] ||
    grant.invocationID = [] || grant.runID = [])

/-- The receipt belongs to the grant. -/
def receiptMatches (grant receipt : Item) : Bool :=
  !(receipt.id = [] || receipt.status ≠ .completed || receipt.turnID ≠ grant.turnID ||
    receipt.invocationID ≠ grant.invocationID || receipt.runID ≠ grant.runID ||
    receipt.seq ≤ grant.seq)

def verifiedExecutionDispatchReceipt (grant : Item) (receipts : List Item) : Option Boundary :=
  if usableGrant grant then
    match receipts.filter (Item.claims grant.id) with
    | [receipt] => if receiptMatches grant receipt then boundaryOf receipt.payload else none
    | _ => none
  else none

/-- The entry of `executionDispatchReceiptIndex` for a grant. -/
def receiptsOf (items : List Item) (id : GoString) : List Item :=
  items.filter fun i => i.isDiagnostic && i.parentItemID ≠ [] &&
    i.parentItemID ≠ executionDispatchParentItemID && i.parentItemID = id

/-- The boundary at which the log settles the grant. -/
def settlement (items : List Item) (grant : Item) : Option Boundary :=
  verifiedExecutionDispatchReceipt grant (receiptsOf items grant.id)

/-- A grant of the Invocation, or of any if the ID is empty, that nothing settles. -/
def pendingGrant (items : List Item) (invocationID : GoString) (i : Item) : Bool :=
  i.isGrant && (invocationID = [] || i.invocationID = invocationID) && (settlement items i).isNone

def pendingExecutionDispatch (items : List Item) (invocationID : GoString) : Bool :=
  items.any (pendingGrant items invocationID)

/-! ### Cancellation fences -/

def cancellationFenceParentItemID : GoString := lit "harness.cancel.fence"

namespace Item

def isFence (i : Item) : Bool :=
  i.isDiagnostic && i.status = .started && i.parentItemID = cancellationFenceParentItemID

/-- The Item closes the fence of this ID. -/
def closes (id : GoString) (i : Item) : Bool :=
  i.isDiagnostic && i.status = .completed && i.parentItemID = id

end Item

/-- A fence that nothing closes. -/
def openFence (items : List Item) (i : Item) : Bool :=
  i.isFence && !items.any (Item.closes i.id)

def activeCancellationFence (items : List Item) : Bool := items.any (openFence items)

/-! ### Children that may still run -/

/-- Why a Store refuses a call. -/
inductive StoreError where
  | invalidRequest
  | conflict
  | notFound
  | applicationOutcomeUnknown
  deriving DecidableEq, Repr

section Fence

variable (sha256 : GoString → GoString)

/-- The grants of an Invocation. -/
def grantsOf (items : List Item) (invocationID : GoString) : List Item :=
  items.filter fun i => i.isGrant && i.invocationID = invocationID

/-- The grant was settled without an effect. -/
def provenUnstarted (items : List Item) (grant : Item) : Bool :=
  (settlement items grant).any fun b =>
    b = .physicalDispatchRejected || b = .featureStartNoEffect

def compositeRunMayHaveDescendants (items : List Item) (v : Invocation) : Bool :=
  match v.executionClass with
  | .agent => false
  | .application => false
  | .team | .workflow | .groupChat =>
    (grantsOf items v.id).isEmpty || (grantsOf items v.id).any fun g => !provenUnstarted items g
  | .other _ => true

def acceptedChildPhysicalEffectPossible (items : List Item) (child : Invocation) : Bool :=
  (grantsOf items child.id).any fun g =>
    g.runID ≠ child.executionRefID || settlement items g ≠ some .physicalDispatchRejected

/-- What one child says about a retry. -/
def childEffectFence (items : List Item) (rotating child : Invocation) : Option StoreError :=
  if child.id = rotating.id || child.parentItemID = [] then none
  else match child.status with
    | .running =>
      if child.executionClass = .application then some .applicationOutcomeUnknown
      else some .conflict
    | .waitingInput | .pausedBudget => some .conflict
    | .accepted =>
      -- effects of a remote child without a sealed root are not provably absent
      if isHandoffDelegationInvocation sha256 child && (frozenChildRoot sha256 child).isNone then
        some .conflict
      else if acceptedChildPhysicalEffectPossible items child then some .conflict
      else none
    | .completed | .failed | .cancelled =>
      if compositeRunMayHaveDescendants items child then some .conflict else none
    | .other _ => some .conflict

/-- `RetryChildEffectFence`: the first child that stands in the way. -/
def retryChildEffectFence (invocations : List Invocation) (items : List Item)
    (rotating : Invocation) : Option StoreError :=
  if compositeRunMayHaveDescendants items rotating then some .conflict
  else invocations.findSome? (childEffectFence sha256 items rotating)

/-- Whether children stand in the way does not depend on the order in which they are
visited; only the error does. -/
lemma retryChildEffectFence_perm {xs ys : List Invocation} (h : xs.Perm ys) (items : List Item)
    (rotating : Invocation) :
    retryChildEffectFence sha256 xs items rotating = none ↔
      retryChildEffectFence sha256 ys items rotating = none := by
  rw [retryChildEffectFence, retryChildEffectFence]
  split
  · rfl
  · rw [findSome?_eq_none_iff, findSome?_eq_none_iff]
    exact ⟨fun hxs v hv => hxs v (h.mem_iff.mpr hv), fun hys v hv => hys v (h.mem_iff.mp hv)⟩

end Fence

/-! ### Scanning a longer log -/

variable {items : List Item} {grant x : Item} {id : GoString} {b : Boundary}

lemma mem_receiptsOf : x ∈ receiptsOf items id ↔ x ∈ items ∧ x.claims id = true ∧ id ≠ [] ∧
    id ≠ executionDispatchParentItemID := by
  rw [receiptsOf, mem_filter]
  simp only [Item.claims, Bool.and_eq_true, decide_eq_true_eq]
  constructor
  · rintro ⟨hmem, ⟨⟨hkind, hne⟩, hnot⟩, rfl⟩
    exact ⟨hmem, ⟨hkind, rfl⟩, hne, hnot⟩
  · rintro ⟨hmem, ⟨hkind, rfl⟩, hne, hnot⟩
    exact ⟨hmem, ⟨⟨hkind, hne⟩, hnot⟩, rfl⟩

lemma receiptsOf_append_of_not (h : x.claims id = false) :
    receiptsOf (items ++ [x]) id = receiptsOf items id := by
  have hnone : receiptsOf [x] id = [] := by
    refine eq_nil_iff_forall_not_mem.mpr fun y hy => ?_
    obtain ⟨hmem, hclaims, -⟩ := mem_receiptsOf.mp hy
    rw [mem_singleton.mp hmem, h] at hclaims
    cases hclaims
  rw [receiptsOf, filter_append]
  exact (congrArg _ hnone).trans (append_nil _)

/-- A settled grant has a receipt that comes after it. -/
lemma exists_receipt_of_settlement (h : settlement items grant = some b) :
    ∃ receipt ∈ receiptsOf items grant.id, grant.seq < receipt.seq := by
  rw [settlement, verifiedExecutionDispatchReceipt] at h
  split at h
  · split at h
    · rename_i receipt hreceipt
      have hmem : receipt ∈ (receiptsOf items grant.id).filter (Item.claims grant.id) := by
        rw [hreceipt]
        exact mem_singleton_self _
      split at h
      · rename_i hmatches
        simp only [receiptMatches, Bool.not_eq_true', Bool.or_eq_false_iff,
          decide_eq_false_iff_not] at hmatches
        exact ⟨receipt, (mem_filter.mp hmem).1, Nat.not_le.mp hmatches.2⟩
      · cases h
    · cases h
  · cases h

lemma openFence_append (h : openFence (items ++ [x]) grant = true) :
    openFence items grant = true := by
  rw [openFence, Bool.and_eq_true, Bool.not_eq_true', any_append, Bool.or_eq_false_iff] at h
  rw [openFence, h.1, h.2.1]
  rfl

end Harness
