/-
Retried subworkflows (`workflow/subworkflow_executor.go`, `workflow/execution.go`,
`memory/runrelation.go`).

The child Run of a subworkflow effect is named after the effect alone, its owner in the relation
index after the attempt.  So the dispatch of the next attempt finds the child that has failed.

* **`retried_dispatch_ended`** — the next attempt starts no Run and resumes none.
-/
import AgentRuntime.ContinuationSystem
import AgentRuntime.WorkflowLedger

namespace Workflow.Subworkflow

open GoString GoJson FiniteMap
open Kernel (RawMessage ActorRef Time)
open Scheduling (Relation prepareRelation)

inductive DispatchError where
  | invalidExecution
  | notPublished
  | relationInvalid
  | relationConflict

/-! ### Relations -/

/-- What `RunRelationStore.Put` reads. -/
structure RelationStore where
  byChild : Map GoString Relation := ∅
  byOwner : Map GoString GoString := ∅

def equalIdentity (left right : Relation) : Bool :=
  left.parentRunID = right.parentRunID && left.childRunID = right.childRunID &&
    left.kind = right.kind && left.ownerNodeID = right.ownerNodeID

def runRelationOwnerKey (relation : Relation) : GoString :=
  relation.parentRunID ++ [0] ++ relation.kind ++ [0] ++ relation.ownerNodeID

/-- `RunRelationStore.Put`. -/
def RelationStore.put (store : RelationStore) (relation : Relation) :
    Except DispatchError RelationStore :=
  match prepareRelation relation with
  | none => .error .relationInvalid
  | some relation =>
    let reuse (existing : Option Relation) : Except DispatchError RelationStore :=
      if existing.any (equalIdentity · relation) then .ok store else .error .relationConflict
    match store.byOwner.lookup (runRelationOwnerKey relation) with
    | some childRunID => reuse (store.byChild.lookup childRunID)
    | none =>
      if (store.byChild.lookup relation.childRunID).isSome then
        reuse (store.byChild.lookup relation.childRunID)
      else .ok {
        byChild := store.byChild.insert relation.childRunID relation
        byOwner := store.byOwner.insert (runRelationOwnerKey relation) relation.childRunID }

def ensureEffectRelation (store : RelationStore) (now : Time) (parentRunID : GoString) (e : Effect) :
    Except DispatchError RelationStore :=
  if e.childRunID = [] then .ok store
  else
    -- what was recorded for the node of a fan-out is kept
    let historical := (e.outputKey ≠ [] ∨ e.mapped) ∧
      (store.byChild.lookup (trimSpace e.childRunID)).any fun existing =>
        existing.parentRunID = parentRunID && existing.kind = lit "workflow_effect" &&
          existing.ownerNodeID = e.nodeID
    -- `Registry.Ensure`
    match prepareRelation ⟨parentRunID, e.childRunID, lit "workflow_effect",
      if historical then e.nodeID else effectRelationOwnerID e, now⟩ with
    | none => .error .relationInvalid
    | some relation => store.put relation

/-! ### Dispatch -/

/-- A child Run as the Kernel has it. -/
structure Child extends Snapshot where
  kind : GoString
  requestID : GoString
  goal : GoString

/-- What a dispatch finds. -/
structure Backend where
  runs : GoString → Option Child
  recorder : Option RelationStore := none
  resolveExact : ActorRef → DefinitionReference → Option Definition
  now : Time

/-- What a dispatch comes to. -/
inductive Outcome where
  | starts (childID : GoString) (definition : Definition)
  | resumes (child : Child)
  | returns (result : EffectResult)

/-- The child of an effect, whatever the attempt. -/
def childID (effectID : GoString) : GoString := trimSpace effectID ++ lit "-child"

def ensureSubworkflowRelation (B : Backend) (q : EffectRequest) :
    Except DispatchError (Option RelationStore) :=
  match B.recorder with
  | none => .ok none
  | some store =>
    let intent : Effect := {
      id := q.effectID, nodeID := q.nodeID, childRunID := childID q.effectID, attempt := q.attempt
      outputKey := q.outputKey, mapped := q.mapped, effectClass := q.effectClass, kind := []
      input := [], maxCostUnits := 0, nestedDepth := 0, retry := { maxAttempts := 0 } }
    if trimSpace q.runID = [] ∨ trimSpace q.ownerNodeID = [] ∨
        effectRelationOwnerID intent ≠ q.ownerNodeID then .error .invalidExecution
    else (ensureEffectRelation store B.now q.runID intent).map some

def verifiedSubworkflowChildOrigin (q : EffectRequest) (child : Child) : Bool :=
  q.definition.any fun reference =>
    validDefinitionReference reference && trimSpace q.effectID ≠ [] && 0 < q.nestedDepth &&
      valid q.input && child.kind = lit "workflow" &&
      child.runID = childID q.effectID && child.actor = q.actor &&
      child.thread = q.thread && child.requestID = trimSpace q.effectID &&
      child.goal = trimSpace (lit "subworkflow:" ++ reference.id) &&
      child.state.definition.id = reference.id &&
      child.state.definition.revision = reference.revision &&
      child.state.definition.hash = reference.hash && child.state.nestedDepth = q.nestedDepth &&
      normalizeJSON child.state.input = normalizeJSON q.input

/-- The outcome of a child that has ended without a result. -/
def endedResult (child : Child) : EffectResult where
  disposition := .failed
  childRunID := child.runID
  errorCode := child.errorCode
  errorDetail := child.errorDetail

def subworkflowEffectResult (child : Child) : Except DispatchError EffectResult :=
  match child.status with
  | .completed =>
    match child.result with
    | some content =>
      if valid content then .ok {
        disposition := .completed, childRunID := child.runID, receiptID := child.runID
        output := content }
      else .error .invalidExecution
    | none => .error .invalidExecution
  | .failed | .cancelled => .ok (endedResult child)
  | .running | .waitingInput | .pausedBudget => .ok { disposition := .pending, childRunID := child.runID }
  | .other _ => .error .invalidExecution

/-- `executeSubworkflowEffect`, with `startSubworkflowChild` and `advanceSubworkflowChild` up to
their calls of `StartRun` and `Resume`. -/
def executeSubworkflowEffect (B : Backend) (q : EffectRequest) :
    Except DispatchError (Outcome × Option RelationStore) :=
  match q.definition with
  | none => .error .invalidExecution
  | some reference =>
    if q.effectClass ≠ .subworkflow ∨ ¬ validDefinitionReference reference ∨ ¬ valid q.input ∨
        q.nestedDepth ≤ 0 then .error .invalidExecution
    else match B.runs (childID q.effectID) with
      | none =>
        match B.resolveExact q.actor reference with
        | none => .error .notPublished
        | some definition =>
          (ensureSubworkflowRelation B q).map fun recorder =>
            (.starts (childID q.effectID) definition, recorder)
      | some child =>
        if ¬ verifiedSubworkflowChildOrigin q child then .error .invalidExecution
        else match ensureSubworkflowRelation B q with
          | .error e => .error e
          | .ok recorder =>
            if child.status = .running then .ok (.resumes child, recorder)
            else (subworkflowEffectResult child).map fun result => (.returns result, recorder)

/-! ### The next attempt -/

variable {B : Backend} {q : EffectRequest} {parent parent' : Snapshot} {definition : Definition}
  {e e' : Effect} {child : Child} {code childRunID : GoString} {cause : GoError}

/-- The checks of a dispatch are among those of the origin. -/
lemma checks_of_verified (h : verifiedSubworkflowChildOrigin q child = true) :
    ∃ reference, q.definition = some reference ∧ validDefinitionReference reference = true ∧
      valid q.input = true ∧ 0 < q.nestedDepth := by
  rw [verifiedSubworkflowChildOrigin] at h
  cases href : q.definition with
  | none => simp [href] at h
  | some reference =>
    refine ⟨reference, rfl, ?_⟩
    simp only [href, Option.any_some, Bool.and_eq_true, decide_eq_true_eq] at h
    tauto

lemma dispatch_ended (hclass : q.effectClass = .subworkflow)
    (hverified : verifiedSubworkflowChildOrigin q child = true)
    (hended : child.status = .failed ∨ child.status = .cancelled)
    (hchild : B.runs (childID q.effectID) = some child) : executeSubworkflowEffect B q =
      (ensureSubworkflowRelation B q).map fun recorder => (.returns (endedResult child), recorder) := by
  obtain ⟨_, href, hvalid, hinput, hdepth⟩ := checks_of_verified hverified
  obtain ⟨hresult, hstopped⟩ : subworkflowEffectResult child = .ok (endedResult child) ∧
      child.status ≠ .running := by
    rcases hended with h | h
    all_goals simp [subworkflowEffectResult, h]
  simp only [executeSubworkflowEffect, href, hclass, hvalid, hinput, hchild, hverified, hresult, hstopped,
    not_le.mpr hdepth]
  cases ensureSubworkflowRelation B q with
  | error | ok => rfl

/-- **The next attempt.**  Let the child of an attempt have failed or be cancelled.  The next attempt
returns the outcome of that child, or the error of recording its relation; it never starts a Run nor
resumes one. -/
theorem retried_dispatch_ended (hclass : e.effectClass = .subworkflow)
    (hverified : verifiedSubworkflowChildOrigin (buildEffectRequest parent definition e) child = true)
    (hended : child.status = .failed ∨ child.status = .cancelled)
    (hretry : scheduleEffectRetry { e with childRunID } code cause = some e')
    (hactor : parent'.actor = parent.actor) (hthread : parent'.thread = parent.thread)
    (hq : buildEffectRequest parent' definition e' = q) (hchild : B.runs (childID e.id) = some child) :
    executeSubworkflowEffect B q =
      (ensureSubworkflowRelation B q).map (fun recorder => (.returns (endedResult child), recorder)) ∧
    ¬ ∃ out recorder, executeSubworkflowEffect B q = .ok (out, recorder) ∧
      ∀ result, out ≠ .returns result := by
  rw [scheduleEffectRetry] at hretry
  split at hretry
  · cases hretry
  -- the two requests differ in the attempt and in its owner only
  obtain ⟨hclass, hid, hverified⟩ : q.effectClass = .subworkflow ∧ q.effectID = e.id ∧
      verifiedSubworkflowChildOrigin q child = true := by
    rw [← hq, ← Option.some.inj hretry]
    refine ⟨hclass, rfl, ?_⟩
    rw [← hverified]
    simp only [verifiedSubworkflowChildOrigin, buildEffectRequest, hactor, hthread]
    rfl
  rw [← hid] at hchild
  have hdispatch := dispatch_ended hclass hverified hended hchild
  refine ⟨hdispatch, ?_⟩
  rintro ⟨out, recorder, hok, hout⟩
  rw [hdispatch] at hok
  cases hrel : ensureSubworkflowRelation B q with
  | error => simp [hrel, Except.map] at hok
  | ok =>
    simp only [hrel, Except.map, Except.ok.injEq, Prod.mk.injEq] at hok
    exact hout _ hok.1.symm

/-! ### A child that has failed -/

def sampleEffect : Effect where
  id := lit "x"
  nodeID := lit "n"
  effectClass := .subworkflow
  kind := lit "workflow.run"
  definition := some ⟨lit "d", 1, lit "h"⟩
  input := lit "1"
  maxCostUnits := 0
  nestedDepth := 1
  retry := { maxAttempts := 2, retryableErrorCodes := [lit "*"] }

def sampleParent : Snapshot where
  runID := lit "r"
  actor := ⟨[], []⟩
  thread := ⟨[], []⟩
  revision := 3
  status := .running
  state := { definition := sampleDefinition, input := lit "1", nestedDepth := 1 }

def sampleChild : Child where
  toSnapshot := { sampleParent with runID := lit "x-child", status := .failed }
  kind := lit "workflow"
  requestID := lit "x"
  goal := lit "subworkflow:d"

def sampleBackend (child : Child) : Backend where
  runs _ := some child
  resolveExact _ _ := some sampleDefinition
  now := 1

/-- The second attempt. -/
def sampleRetry : EffectRequest := buildEffectRequest sampleParent sampleDefinition
  ((scheduleEffectRetry sampleEffect [] { text := [] }).getD sampleEffect)

/-- The second attempt returns what the first one did, or its relation is refused. -/
theorem retried_dispatch_stale :
    executeSubworkflowEffect (sampleBackend sampleChild) sampleRetry =
      .ok (.returns (endedResult sampleChild), none) ∧
    ∃ store, ensureEffectRelation {} 1 (lit "r") { sampleEffect with childRunID := lit "x-child" } =
        .ok store ∧
      executeSubworkflowEffect { sampleBackend sampleChild with recorder := some store } sampleRetry =
        .error .relationConflict :=
  ⟨rfl, _, rfl, rfl⟩

/-- With a recorder that has the relation of the first attempt as well. -/
theorem retried_dispatch_recorded : ∃ store,
    ensureEffectRelation {} 1 (lit "r") { sampleEffect with childRunID := lit "x-child" } = .ok store ∧
    ¬ ∃ out recorder, executeSubworkflowEffect { sampleBackend sampleChild with recorder := some store }
        sampleRetry = .ok (out, recorder) ∧ ∀ result, out ≠ .returns result := by
  have hverified : verifiedSubworkflowChildOrigin
      (buildEffectRequest sampleParent sampleDefinition sampleEffect) sampleChild = true := by
    decide +kernel
  exact ⟨_, rfl, (retried_dispatch_ended rfl hverified (.inl rfl) rfl rfl rfl rfl rfl).2⟩

end Workflow.Subworkflow
