/-
The pure checks of the kernel.

`validateMutation` guards every ordinary transition and `validateControl` every
gate and every termination (`kernel/runtime.go`, `kernel/control.go`,
`internal/featurecontrol/proof.go`).  Both run twice: once in the Runtime on a
snapshot it loaded, and `validateControl` a second time in the Store, under the
lock of the commit.

* `validateMutation_ok` — what an accepted mutation looks like;
* `validateControl_ok` — what an accepted control looks like, for all kinds;
* `controlShape_ok` — the transitions a control can make, by kind.
-/
import AgentRuntime.Json
import AgentRuntime.KernelTypes

namespace Kernel

open GoString

/-! ### Transitions and their data -/

/-- `validTransition`: the edges of the Run state machine. -/
def validTransition (current next : RunStatus) : Bool :=
  match current with
  | .running =>
    next == .running || next == .waitingInput || next == .pausedBudget || next.terminal
  | .waitingInput => next == .running || next.terminal
  | .pausedBudget => next == .running || next.terminal
  | .completed | .failed | .cancelled => false
  | .other _ => false

def validState (state : RawMessage) : Bool := !state.isEmpty && GoJson.valid state

def validCheckpoint (c : Checkpoint) : Bool :=
  if trimSpace c.id = [] ∨ trimSpace c.kind = [] ∨ ¬ GoJson.valid c.payload ∨ isZero c.createdAt then
    false
  else if c.status = .pending then c.resolvedAt.isNone && c.response.isEmpty
  else c.status == .resolved && c.resolvedAt.isSome && GoJson.valid c.response

def validResult (r : Result) : Bool :=
  trimSpace r.contentType ≠ [] && !r.content.isEmpty && GoJson.valid r.content

def validMutationCheckpoint (m : Mutation) : Bool :=
  if m.status = .waitingInput then
    match m.checkpoint with
    | some c => c.status == .pending && validCheckpoint c
    | none => false
  else
    match m.checkpoint with
    | some c => validCheckpoint c
    | none => true

def validMutationResult (m : Mutation) : Bool :=
  if m.status = .completed then
    match m.result with
    | some r => validResult r
    | none => false
  else m.result.isNone

/-- `validateMutation`. -/
def validateMutation (current : Snapshot) (m : Mutation) : Except KernelError Unit :=
  if current.run.status.terminal then .error .terminal
  else if ¬ (validTransition current.run.status m.status ∧ validState m.state) then
    .error .invalidInput
  else if ¬ (validMutationCheckpoint m ∧ validMutationResult m) then .error .invalidInput
  else .ok ()

/-! ### Sealed decisions -/

/-- The parts of the standard library that turn values into digests:
`json.Marshal` of the two structs that are hashed, and SHA-256. -/
structure Hashing where
  /-- The text of `struct{Mutation; Wakeups}`; `none` if it cannot be encoded. -/
  marshalMutation : Mutation → List Bool → Option GoString
  /-- The text of `struct{State; Checkpoint}`; `none` if it cannot be encoded. -/
  marshalControl : RawMessage → Option Checkpoint → Option GoString
  sha256 : GoString → GoString
  sha256_length : ∀ s, (sha256 s).length = 32

/-- A hashing for concrete runs: a digest is the beginning of the state's text. -/
def Hashing.sample : Hashing where
  marshalMutation m _ := some m.state
  marshalControl state _ := some state
  sha256 s := (s ++ List.replicate 32 0).take 32
  sha256_length s := by simp

variable (H : Hashing)

/-- `featurecontrol.digest`. -/
def Hashing.digest (state : RawMessage) (checkpoint : Option Checkpoint) : Option GoString :=
  (H.marshalControl state checkpoint).map H.sha256

/-- `featurecontrol.Seal`. -/
def sealProof (runID : GoString) (revision : UInt64) (kind source : GoString) (state : RawMessage)
    (checkpoint : Option Checkpoint) : Option Proof :=
  if runID = [] ∨ revision = 0 ∨ kind = [] ∨ source = [] ∨ ¬ GoJson.valid state then none
  else (H.digest state checkpoint).map fun hash => ⟨runID, revision, kind, source, hash⟩

/-- `(*Proof).Matches`. -/
def proofMatches (proof : Option Proof) (runID : GoString) (revision : UInt64)
    (kind source : GoString) (state : RawMessage) (checkpoint : Option Checkpoint) : Bool :=
  match proof with
  | none => false
  | some p =>
    if p.runID ≠ runID ∨ p.revision ≠ revision ∨ p.kind ≠ kind ∨ p.source ≠ source then false
    else H.digest state checkpoint == some p.hash

/-! ### Controls -/

/-- The controls that need a decision sealed by a Feature. -/
def ControlKind.sealed : ControlKind → Bool
  | .approval | .allowance | .externalSignal => true
  | _ => false

/-- What the sealed decision is about. -/
def ControlGuard.source (g : ControlGuard) : GoString :=
  match g.kind with
  | .allowance => g.blockedCode
  | .externalSignal => g.waitID
  | _ => g.checkpointID

/-- `json.Unmarshal` of a checkpoint response into `struct{Decision string}`. -/
def answerDecision (response : RawMessage) : Option GoString :=
  match GoJson.parse response with
  | some .null => some []
  | some (.object members) =>
    GoJson.decodeString [] (GoJson.membersNamed (lit "decision") members)
  | _ => none

/-- The `ControlApproval` case: a pending checkpoint is answered. -/
def approvalControl (current : Snapshot) (g : ControlGuard) (next : Record) :
    Except KernelError Unit :=
  if g.waitID ≠ [] ∨ g.waitDeadlineAt.isSome then .error .invalidInput
  else
    match current.checkpoint, next.checkpoint with
    | some c, some d =>
      if trimSpace g.checkpointID = [] ∨ g.blockedCode ≠ [] ∨
          current.run.status ≠ .waitingInput ∨ c.id ≠ g.checkpointID ∨ c.status ≠ .pending ∨
          next.run.status ≠ .running then .error .invalidInput
      else if d.id ≠ c.id ∨ d.kind ≠ c.kind ∨ d.status ≠ .resolved ∨ d.payload ≠ c.payload then
        .error .invalidInput
      else if answerDecision d.response = some (lit "approve") ∨
          answerDecision d.response = some (lit "reject") then .ok ()
      else .error .invalidInput
    | _, _ => .error .invalidInput

/-- The `ControlAllowance` case: a budget gate is lifted by a changed state. -/
def allowanceControl (current : Snapshot) (g : ControlGuard) (next : Record) :
    Except KernelError Unit :=
  if g.waitID ≠ [] ∨ g.waitDeadlineAt.isSome then .error .invalidInput
  else if g.checkpointID ≠ [] ∨ trimSpace g.blockedCode = [] ∨
      current.run.status ≠ .pausedBudget ∨ current.run.errorCode ≠ g.blockedCode ∨
      next.run.status ≠ .running ∨ next.state = current.state then .error .invalidInput
  else .ok ()

/-- The `ControlExternalSignal` case: a persisted wait is woken before its limit. -/
def externalSignalControl (current : Snapshot) (g : ControlGuard) (next : Record) (storeNow : Time) :
    Except KernelError Unit :=
  match g.waitDeadlineAt with
  | none => .error .invalidInput
  | some limit =>
    if g.checkpointID ≠ [] ∨ g.blockedCode ≠ [] ∨ trimSpace g.waitID = [] ∨ isZero storeNow ∨
        limit ≤ storeNow ∨ current.run.status ≠ .running ∨ next.run.status ≠ .running ∨
        next.state = current.state ∨ next.checkpoint ≠ current.checkpoint ∨
        next.run.errorCode ≠ current.run.errorCode ∨
        next.run.errorDetail ≠ current.run.errorDetail then
      if limit ≤ storeNow then .error .deadline else .error .invalidInput
    else .ok ()

/-- The `ControlCancel` case. -/
def cancelControl (current : Snapshot) (g : ControlGuard) (next : Record) : Except KernelError Unit :=
  if g.waitID ≠ [] ∨ g.waitDeadlineAt.isSome then .error .invalidInput
  else if g.checkpointID ≠ [] ∨ g.blockedCode ≠ [] ∨ next.run.status ≠ .cancelled ∨
      next.run.errorCode ≠ lit "run.cancelled" ∨ next.state ≠ current.state then .error .invalidInput
  else .ok ()

/-- The `ControlDeadline` case. -/
def deadlineControl (current : Snapshot) (g : ControlGuard) (next : Record) (storeNow : Time) :
    Except KernelError Unit :=
  if g.waitID ≠ [] ∨ g.waitDeadlineAt.isSome then .error .invalidInput
  else
    match current.run.deadlineAt with
    | none => .error .deadline
    | some limit =>
      if g.checkpointID ≠ [] ∨ g.blockedCode ≠ [] ∨ next.run.status ≠ .failed ∨
          next.run.errorCode ≠ lit "run.deadline_exceeded" ∨ next.state ≠ current.state ∨
          isZero storeNow ∨ storeNow < limit then .error .deadline
      else .ok ()

/-- The `switch` over the control kinds. -/
def controlShape (current : Snapshot) (g : ControlGuard) (next : Record) (storeNow : Time) :
    Except KernelError Unit :=
  match g.kind with
  | .approval => approvalControl current g next
  | .allowance => allowanceControl current g next
  | .externalSignal => externalSignalControl current g next storeNow
  | .cancel => cancelControl current g next
  | .deadline => deadlineControl current g next storeNow
  | .other _ => .error .invalidInput

/-- The fields of a Run that no control may rewrite. -/
def sameRunIdentity (a b : Run) : Prop :=
  a.kind = b.kind ∧ a.actor = b.actor ∧ a.thread = b.thread ∧ a.goal = b.goal ∧
    a.requestID = b.requestID ∧ a.createdAt = b.createdAt ∧ a.deadlineAt = b.deadlineAt

instance (a b : Run) : Decidable (sameRunIdentity a b) := by
  unfold sameRunIdentity; infer_instance

lemma sameRunIdentity.refl (a : Run) : sameRunIdentity a a := by simp [sameRunIdentity]

lemma sameRunIdentity.symm {a b : Run} (h : sameRunIdentity a b) : sameRunIdentity b a := by
  obtain ⟨h1, h2, h3, h4, h5, h6, h7⟩ := h
  exact ⟨h1.symm, h2.symm, h3.symm, h4.symm, h5.symm, h6.symm, h7.symm⟩

lemma sameRunIdentity.trans {a b c : Run} (h : sameRunIdentity a b) (h' : sameRunIdentity b c) :
    sameRunIdentity a c := by
  obtain ⟨h1, h2, h3, h4, h5, h6, h7⟩ := h
  obtain ⟨k1, k2, k3, k4, k5, k6, k7⟩ := h'
  exact ⟨h1.trans k1, h2.trans k2, h3.trans k3, h4.trans k4, h5.trans k5, h6.trans k6, h7.trans k7⟩

/-- `DeadlineAt` is present and not after `now`. -/
def deadlineDue (run : Run) (now : Time) : Bool :=
  match run.deadlineAt with
  | some limit => limit ≤ now
  | none => false

/-- `ValidateControl`. -/
def validateControl (current : Snapshot) (g : ControlGuard) (m : StoreMutation) (storeNow : Time) :
    Except KernelError Unit :=
  let next := m.record
  if current.run.id = [] ∨ next.run.id ≠ current.run.id ∨
      next.run.revision ≠ current.run.revision + 1 then .error .conflict
  else if ¬ sameRunIdentity next.run current.run then .error .invalidInput
  else if current.run.status.terminal then .error .terminal
  else if ¬ (validTransition current.run.status next.run.status ∧ validState next.state) then
    .error .invalidInput
  else if next.result.isSome then .error .invalidInput
  else if g.kind.sealed ∧ deadlineDue current.run storeNow then .error .deadline
  else if g.kind.sealed ∧ ¬ proofMatches H g.verified current.run.id current.run.revision
      g.kind.text g.source next.state next.checkpoint then .error .invalidInput
  else controlShape current g next storeNow

/-! ### What the checks establish -/

variable {H} {current : Snapshot} {m : Mutation} {sm : StoreMutation} {g : ControlGuard}
  {next : Record} {now : Time} {runID kind source : GoString} {revision : UInt64}
  {state : RawMessage} {checkpoint : Option Checkpoint}

/-- What is known about a mutation that `validateMutation` accepts. -/
structure MutationAccepted (current : Snapshot) (m : Mutation) : Prop where
  active : current.run.status.terminal = false
  transition : validTransition current.run.status m.status = true
  state : validState m.state = true
  checkpoint : validMutationCheckpoint m = true
  result : validMutationResult m = true

theorem validateMutation_ok (h : validateMutation current m = .ok ()) :
    MutationAccepted current m := by
  rw [validateMutation] at h
  split_ifs at h with hterm htrans hdata
  exact ⟨by simpa using hterm, htrans.1, htrans.2, hdata.1, hdata.2⟩

lemma MutationAccepted.result_iff (h : MutationAccepted current m) :
    m.result.isSome ↔ m.status = .completed := by
  have hr := h.result
  rw [validMutationResult] at hr
  split at hr
  · rename_i hc
    split at hr
    · rename_i r hsome; simp [hsome, hc]
    · simp at hr
  rename_i hc
  simp [hr, hc]

lemma MutationAccepted.pending (h : MutationAccepted current m) (hw : m.status = .waitingInput) :
    ∃ c, m.checkpoint = some c ∧ c.status = .pending := by
  have hc := h.checkpoint
  rw [validMutationCheckpoint, if_pos hw] at hc
  split at hc
  · rename_i c hsome
    simp only [Bool.and_eq_true, beq_iff_eq] at hc
    exact ⟨c, hsome, hc.1⟩
  · simp at hc

/-- What is known about a control that `validateControl` accepts. -/
structure ControlAccepted (H : Hashing) (current : Snapshot) (g : ControlGuard)
    (sm : StoreMutation) (now : Time) : Prop where
  id_ne : current.run.id ≠ []
  id_eq : sm.record.run.id = current.run.id
  revision : sm.record.run.revision = current.run.revision + 1
  identity : sameRunIdentity sm.record.run current.run
  active : current.run.status.terminal = false
  transition : validTransition current.run.status sm.record.run.status = true
  state : validState sm.record.state = true
  result : sm.record.result = none
  notDue : g.kind.sealed = true → deadlineDue current.run now = false
  proof : g.kind.sealed = true → proofMatches H g.verified current.run.id current.run.revision
    g.kind.text g.source sm.record.state sm.record.checkpoint = true
  shape : controlShape current g sm.record now = .ok ()

theorem validateControl_ok (h : validateControl H current g sm now = .ok ()) :
    ControlAccepted H current g sm now := by
  simp only [validateControl] at h
  split_ifs at h with hid hident hterm htrans hres hdue hproof
  simp only [not_or, not_not, ne_eq] at hid
  refine ⟨hid.1, hid.2.1, hid.2.2, hident, by simpa using hterm, htrans.1, htrans.2,
    by simpa using hres, ?_, ?_, h⟩
  · intro hs
    simpa [hs] using hdue
  · intro hs
    simpa [hs] using hproof

lemma proofMatches_some {p : Proof}
    (h : proofMatches H (some p) runID revision kind source state checkpoint = true) :
    p.runID = runID ∧ p.revision = revision ∧ p.kind = kind ∧ p.source = source ∧
      H.digest state checkpoint = some p.hash := by
  simp only [proofMatches] at h
  split_ifs at h with hne
  simp only [not_or, not_not, ne_eq] at hne
  exact ⟨hne.1, hne.2.1, hne.2.2.1, hne.2.2.2, by simpa using h⟩

/-- What a sealed decision was sealed for. -/
lemma sealProof_eq_some {p : Proof} :
    sealProof H runID revision kind source state checkpoint = some p ↔
      (runID ≠ [] ∧ revision ≠ 0 ∧ kind ≠ [] ∧ source ≠ [] ∧ GoJson.valid state = true) ∧
      p.runID = runID ∧ p.revision = revision ∧ p.kind = kind ∧ p.source = source ∧
      H.digest state checkpoint = some p.hash := by
  rw [sealProof]
  split
  · rename_i h
    refine ⟨fun hp => absurd hp (by simp), ?_⟩
    rintro ⟨⟨_, _, _, _, _⟩, -⟩
    rcases h with h | h | h | h | h
    all_goals contradiction
  · rename_i h
    simp only [not_or, not_not] at h
    obtain ⟨_, _, _, _, phash⟩ := p
    simp only [Option.map_eq_some_iff, Proof.mk.injEq]
    constructor
    · rintro ⟨_, hdigest, rfl, rfl, rfl, rfl, rfl⟩
      exact ⟨h, rfl, rfl, rfl, rfl, hdigest⟩
    · rintro ⟨-, rfl, rfl, rfl, rfl, hdigest⟩
      exact ⟨phash, hdigest, rfl, rfl, rfl, rfl, rfl⟩

/-- The two states have different digests unless they are the same. -/
def Hashing.CollisionFree (H : Hashing) (a b : RawMessage × Option Checkpoint) : Prop :=
  H.digest a.1 a.2 = H.digest b.1 b.2 → a = b

/-- The transitions a control can make, by kind. -/
inductive ControlTransition (current : Snapshot) (g : ControlGuard) (next : Record) (now : Time) :
    Prop
  | approval (c : Checkpoint) (hkind : g.kind = .approval)
      (hcur : current.run.status = .waitingInput) (hcheck : current.checkpoint = some c)
      (hpending : c.status = .pending) (hid : c.id = g.checkpointID) (hne : trimSpace c.id ≠ [])
      (hnext : next.run.status = .running)
  | allowance (hkind : g.kind = .allowance) (hcur : current.run.status = .pausedBudget)
      (hcode : current.run.errorCode = g.blockedCode) (hne : trimSpace g.blockedCode ≠ [])
      (hnext : next.run.status = .running)
  | externalSignal (hkind : g.kind = .externalSignal) (hcur : current.run.status = .running)
      (hnext : next.run.status = .running)
  | cancel (hkind : g.kind = .cancel) (hstate : next.state = current.state)
      (hnext : next.run.status = .cancelled)
  | deadline (hkind : g.kind = .deadline) (hstate : next.state = current.state)
      (hdue : deadlineDue current.run now = true) (hnext : next.run.status = .failed)

lemma approvalControl_ok (hkind : g.kind = .approval)
    (h : approvalControl current g next = .ok ()) : ControlTransition current g next now := by
  rw [approvalControl] at h
  split_ifs at h with hwait
  split at h
  · rename_i c _ hc _
    split_ifs at h with hgate hsame hdec
    simp only [not_or, not_not, ne_eq] at hgate
    obtain ⟨hne, -, hcur, hid, hpending, hnext⟩ := hgate
    exact .approval c hkind hcur hc hpending hid (hid ▸ hne) hnext
  · simp at h

lemma allowanceControl_ok (hkind : g.kind = .allowance)
    (h : allowanceControl current g next = .ok ()) : ControlTransition current g next now := by
  rw [allowanceControl] at h
  split_ifs at h with hwait hgate
  simp only [not_or, not_not, ne_eq] at hgate
  obtain ⟨-, hne, hcur, hcode, hnext, -⟩ := hgate
  exact .allowance hkind hcur hcode hne hnext

lemma externalSignalControl_ok (hkind : g.kind = .externalSignal)
    (h : externalSignalControl current g next now = .ok ()) :
    ControlTransition current g next now := by
  rw [externalSignalControl] at h
  split at h
  · simp at h
  split_ifs at h with hgate
  simp only [not_or, not_not, ne_eq] at hgate
  obtain ⟨-, -, -, -, -, hcur, hnext, -⟩ := hgate
  exact .externalSignal hkind hcur hnext

lemma cancelControl_ok (hkind : g.kind = .cancel) (h : cancelControl current g next = .ok ()) :
    ControlTransition current g next now := by
  rw [cancelControl] at h
  split_ifs at h with hwait hgate
  simp only [not_or, not_not, ne_eq] at hgate
  exact .cancel hkind hgate.2.2.2.2 hgate.2.2.1

lemma deadlineControl_ok (hkind : g.kind = .deadline)
    (h : deadlineControl current g next now = .ok ()) : ControlTransition current g next now := by
  rw [deadlineControl] at h
  split_ifs at h with hwait
  split at h
  · simp at h
  rename_i hlimit
  split_ifs at h with hgate
  simp only [not_or, not_not, ne_eq, not_lt] at hgate
  obtain ⟨-, -, hnext, -, hstate, -, hle⟩ := hgate
  exact .deadline hkind hstate (by simp [deadlineDue, hlimit, hle]) hnext

theorem controlShape_ok (h : controlShape current g next now = .ok ()) :
    ControlTransition current g next now := by
  rw [controlShape] at h
  split at h
  · exact approvalControl_ok ‹_› h
  · exact allowanceControl_ok ‹_› h
  · exact externalSignalControl_ok ‹_› h
  · exact cancelControl_ok ‹_› h
  · exact deadlineControl_ok ‹_› h
  · simp at h

end Kernel
