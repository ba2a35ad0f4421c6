/-
What one call can do to the Store.

`StoreStep` lists the possible outcomes of a call with everything its checks
have established: a call either fails and changes nothing, or succeeds in one of
the listed ways.  Every invariant of the Store is proved by cases on it, and
nothing else unfolds the methods.

* **`step_sound`** — every call is one of the listed outcomes.
-/
import AgentRuntime.MemoryStore

namespace Memory

open GoString Kernel Function

/-- The Store after a commit of `record` for `runID` with the new journal. -/
def committed (s : Store) (runID : GoString) (journal : List Event) (r : Record)
    (events : List EventDraft) : Store :=
  appendCommittedTransition
    { s with
      records := update s.records runID (some (snapshotFromRecord r journal.length))
      events := update s.events runID journal } r.run events

section Committed

variable (s : Store) (runID : GoString) (journal : List Event) (r : Record)
  (events : List EventDraft)

@[simp] lemma committed_records : (committed s runID journal r events).records =
    update s.records runID (some (snapshotFromRecord r journal.length)) := by
  rw [committed, appendCommittedTransition]
  split <;> rfl

@[simp] lemma committed_events : (committed s runID journal r events).events =
    update s.events runID journal := by
  rw [committed, appendCommittedTransition]
  split <;> rfl

@[simp] lemma committed_execution : (committed s runID journal r events).execution =
    s.execution := by
  rw [committed, appendCommittedTransition]
  split <;> rfl

end Committed

/-- The authorities after the creation of `r`. -/
def createdExecution (s : Store) (r : Record) : GoString → MemoryExecutionState :=
  if r.executionRequired then update s.execution r.run.id { epoch := 1 } else s.execution

variable {id runID : GoString}

lemma createdExecution_of_ne {s : Store} {r : Record} (hne : id ≠ r.run.id) :
    createdExecution s r id = s.execution id := by
  rw [createdExecution]
  split
  · exact update_of_ne hne _ _
  · rfl

lemma createdExecution_self (s : Store) (r : Record) : createdExecution s r r.run.id =
    if r.executionRequired then { epoch := 1 } else s.execution r.run.id := by
  rw [createdExecution]
  split
  · exact update_self ..
  · rfl

/-- The authorities after a control of `runID`: an owner is revoked. -/
def revokedExecution (s : Store) (runID : GoString) : GoString → MemoryExecutionState :=
  if 0 < (s.execution runID).epoch then
    update s.execution runID
      { s.execution runID with epoch := (s.execution runID).epoch + 1, lease := .zero }
  else s.execution

lemma revokedExecution_of_ne {s : Store} (hne : id ≠ runID) :
    revokedExecution s runID id = s.execution id := by
  rw [revokedExecution]
  split
  · exact update_of_ne hne _ _
  · rfl

lemma revokedExecution_self {s : Store}
    (hpos : 0 < (s.execution runID).epoch) : revokedExecution s runID runID =
      { s.execution runID with epoch := (s.execution runID).epoch + 1, lease := .zero } := by
  rw [revokedExecution, if_pos hpos, update_self]

lemma revokedExecution_idle {s : Store}
    (hidle : ¬ 0 < (s.execution runID).epoch) : revokedExecution s runID = s.execution := by
  rw [revokedExecution, if_neg hidle]

/-- The journal of `runID` with the events of a commit appended. -/
abbrev nextJournal (s : Store) (runID : GoString) (m : StoreMutation) : List Event :=
  appendEvents (s.events runID) m.events m.record.run.updatedAt

/-- The possible outcomes of one call. -/
inductive StoreStep (H : Hashing) (env : Env) (s : Store) : (op : StoreOp) → op.Res → Store → Prop
  | fail (op : StoreOp) (e : KernelError) : StoreStep H env s op (.error e) s
  | create (r : Record) (events : List EventDraft) (hnew : s.records r.run.id = none) :
      StoreStep H env s (.create r events)
        (.ok (snapshotFromRecord r (appendEvents [] events r.run.updatedAt).length))
        (committed { s with execution := createdExecution s r } r.run.id
          (appendEvents [] events r.run.updatedAt) r events)
  | load (runID : GoString) (snap : Snapshot) (hrec : s.records runID = some snap) :
      StoreStep H env s (.load runID) (.ok snap) s
  | listEvents (runID : GoString) (afterSeq limit : ℤ) (page : List Event)
      (hpage : listEvents s runID afterSeq limit = .ok page) :
      StoreStep H env s (.listEvents runID afterSeq limit) (.ok page) s
  | apply (runID : GoString) (rev : UInt64) (m : StoreMutation) (cur : Snapshot)
      (hepoch : (s.execution runID).epoch = 0) (hrec : s.records runID = some cur)
      (hrev : cur.run.revision = rev) :
      StoreStep H env s (.apply runID rev m)
        (.ok (snapshotFromRecord m.record (nextJournal s runID m).length))
        (committed s runID (nextJournal s runID m) m.record m.events)
  | applyExecution (lease : ExecutionLease) (rev : UInt64) (m : StoreMutation) (cur : Snapshot)
      (hvalid : validMemoryLease lease = true) (hne : rev ≠ 0)
      (hid : m.record.run.id = lease.runID) (hnext : m.record.run.revision = rev + 1)
      (hclear : (s.execution lease.runID).quarantineRev = 0)
      (hactive : activeMemoryLease (s.execution lease.runID) lease env.now = true)
      (hrec : s.records lease.runID = some cur) (hrun : cur.run.status = .running)
      (hrev : cur.run.revision = rev) :
      StoreStep H env s (.applyExecution lease rev m)
        (.ok (snapshotFromRecord m.record (nextJournal s lease.runID m).length))
        (committed s lease.runID (nextJournal s lease.runID m) m.record m.events)
  | applyControl (runID : GoString) (rev : UInt64) (g : ControlGuard) (m : StoreMutation)
      (cur : Snapshot) (hne : rev ≠ 0) (hrec : s.records runID = some cur)
      (hrev : cur.run.revision = rev) (hctl : ControlAccepted H cur g m env.now)
      (hclear : ¬ ((s.execution runID).quarantineRev ≠ 0 ∧ m.record.run.status = .running))
      (hmax : (s.execution runID).epoch ≠ maxUint64) :
      StoreStep H env s (.applyControl runID rev g m)
        (.ok (snapshotFromRecord m.record (nextJournal s runID m).length,
          decide (0 < (s.execution runID).epoch)))
        (committed { s with execution := revokedExecution s runID } runID
          (nextJournal s runID m) m.record m.events)
  | acquireExecution (r : ExecutionAcquireRequest) (cur : Snapshot) (lease : ExecutionLease)
      (hrec : s.records r.runID = some cur) (hrun : cur.run.status = .running)
      (hclear : (s.execution r.runID).quarantineRev = 0)
      (hepoch : (s.execution r.runID).epoch ≠ 0)
      (hfree : ¬ env.now < (s.execution r.runID).lease.expiresAt)
      (hmax : (s.execution r.runID).epoch ≠ maxUint64) (hrunID : lease.runID = r.runID)
      (hnext : lease.epoch = (s.execution r.runID).epoch + 1) :
      StoreStep H env s (.acquireExecution r) (.ok lease)
        { s with
          execution := update s.execution r.runID
            { s.execution r.runID with epoch := lease.epoch, lease := lease } }
  | renewExecution (r : ExecutionRenewRequest) (hvalid : validMemoryLease r.lease = true)
      (hactive : activeMemoryLease (s.execution r.lease.runID) r.lease env.now = true) :
      StoreStep H env s (.renewExecution r)
        (.ok { (s.execution r.lease.runID).lease with expiresAt := env.now + r.leaseDuration })
        { s with
          execution := update s.execution r.lease.runID
            { s.execution r.lease.runID with
              lease := { (s.execution r.lease.runID).lease with
                expiresAt := env.now + r.leaseDuration } } }
  | releaseExecution (lease : ExecutionLease) (hvalid : validMemoryLease lease = true)
      (hactive : activeMemoryLease (s.execution lease.runID) lease env.now = true) :
      StoreStep H env s (.releaseExecution lease) (.ok ())
        { s with
          execution := update s.execution lease.runID
            { s.execution lease.runID with lease := .zero } }
  | checkExecution (runID : GoString) (lease : Option ExecutionLease)
      (hcheck : checkExecution s env.now runID lease = .ok ()) :
      StoreStep H env s (.checkExecution runID lease) (.ok ()) s
  | quarantineAgain (v : ExecutionQuarantine) (cur : Snapshot)
      (hvalid : validMemoryQuarantine v = true)
      (hrec : s.records v.runID = some cur) (hrev : cur.run.revision = v.revision)
      (hrun : cur.run.status = .running) (hblocked : (s.execution v.runID).quarantineRev ≠ 0)
      (hgen : (s.execution v.runID).quarantineGen = v.generation)
      (hcode : (s.execution v.runID).quarantineCode = v.reason) :
      StoreStep H env s (.quarantineExecution v) (.ok ()) s
  | quarantineExecution (v : ExecutionQuarantine) (cur : Snapshot)
      (hvalid : validMemoryQuarantine v = true)
      (hrec : s.records v.runID = some cur) (hrev : cur.run.revision = v.revision)
      (hrun : cur.run.status = .running) (hepoch : (s.execution v.runID).epoch ≠ 0)
      (hclear : (s.execution v.runID).quarantineRev = 0)
      (hmax : (s.execution v.runID).epoch ≠ maxUint64) :
      StoreStep H env s (.quarantineExecution v) (.ok ())
        { s with
          execution := update s.execution v.runID
            { epoch := (s.execution v.runID).epoch + 1, lease := .zero,
              quarantineRev := v.revision, quarantineGen := v.generation,
              quarantineCode := v.reason } }
  | repairExecutionQuarantine (v : ExecutionQuarantine) (cur : Snapshot)
      (hrec : s.records v.runID = some cur) (hrev : cur.run.revision = v.revision)
      (hrun : cur.run.status = .running)
      (hblock : (s.execution v.runID).quarantineRev = v.revision)
      (hgen : (s.execution v.runID).quarantineGen = v.generation)
      (hcode : (s.execution v.runID).quarantineCode = v.reason) :
      StoreStep H env s (.repairExecutionQuarantine v) (.ok ())
        { s with
          execution := update s.execution v.runID
            { s.execution v.runID with
              quarantineRev := 0, quarantineGen := 0, quarantineCode := [] } }
  | claimTransitions (r : TransitionClaimRequest) (hlimit : 0 < r.limit)
      (hduration : 0 < r.leaseDuration) (hnow : r.now ≠ 0) :
      StoreStep H env s (.claimTransitions r)
        (.ok (claimLoop r s.transitionOrder [] s.transitions).1)
        { s with transitions := (claimLoop r s.transitionOrder [] s.transitions).2 }
  | ackTransition (r : TransitionLeaseRequest) (t : TransitionState)
      (hvalid : validTransitionLease r = true)
      (hentry : s.transitions r.transitionID = some t) (hlease : t.leaseID = r.leaseID)
      (hworker : t.workerID = r.workerID) :
      StoreStep H env s (.ackTransition r) (.ok ())
        (compactTransitionOrder { s with transitions := update s.transitions r.transitionID none })
  | retryTransition (r : TransitionRetryRequest) (t : TransitionState)
      (hvalid : validTransitionLease r.toTransitionLeaseRequest = true)
      (hentry : s.transitions r.transitionID = some t) (hlease : t.leaseID = r.leaseID)
      (hworker : t.workerID = r.workerID) :
      StoreStep H env s (.retryTransition r) (.ok ())
        { s with
          transitions := update s.transitions r.transitionID
            (some { t with availableAt := r.availableAt, leaseID := [], workerID := [],
                           leaseUntil := 0 }) }

/-! ### Every call is one of the outcomes -/

section Soundness

variable {H : Hashing} {env : Env} {s s' : Store} {rev : UInt64} {m : StoreMutation}
  {res : Except KernelError Unit}

lemma StoreStep.of_error {op : StoreOp} {e : KernelError} {res : op.Res}
    (h : ((.error e : op.Res), s) = (res, s')) : StoreStep H env s op res s' := by
  cases h
  exact .fail op e

lemma applyLocked_cases
    {res : Except KernelError Snapshot} (h : applyLocked s runID rev m = (res, s')) :
    (∃ e, res = .error e ∧ s' = s) ∨
    ∃ cur, s.records runID = some cur ∧ cur.run.revision = rev ∧
      res = .ok (snapshotFromRecord m.record (nextJournal s runID m).length) ∧
      s' = committed s runID (nextJournal s runID m) m.record m.events := by
  rw [applyLocked] at h
  split at h
  · cases h
    exact .inl ⟨_, rfl, rfl⟩
  rename_i cur hrec
  split at h
  · cases h
    exact .inl ⟨_, rfl, rfl⟩
  rename_i hrev
  cases h
  exact .inr ⟨cur, hrec, by simpa using hrev, rfl, rfl⟩

lemma apply_sound {res : Except KernelError Snapshot} (h : apply s runID rev m = (res, s')) :
    StoreStep H env s (.apply runID rev m) res s' := by
  rw [apply] at h
  split at h
  · exact .of_error h
  rename_i hepoch
  rcases applyLocked_cases h with ⟨e, rfl, rfl⟩ | ⟨cur, hrec, hrev, rfl, rfl⟩
  · exact .fail _ _
  refine .apply runID rev m cur ?_ hrec hrev
  rw [UInt64.lt_iff_toNat_lt] at hepoch
  exact UInt64.toNat_inj.mp (by simpa using hepoch)

lemma applyExecution_sound {lease : ExecutionLease}
    {res : Except KernelError Snapshot} (h : applyExecution s env.now lease rev m = (res, s')) :
    StoreStep H env s (.applyExecution lease rev m) res s' := by
  simp only [applyExecution] at h
  split at h
  · exact .of_error h
  rename_i hinput
  split at h
  · exact .of_error h
  rename_i hclear
  split at h
  · exact .of_error h
  rename_i hactive
  split at h
  · exact .of_error h
  rename_i cur hrec
  split at h
  · exact .of_error h
  rename_i hrun
  rcases applyLocked_cases h with ⟨e, rfl, rfl⟩ | ⟨cur', hrec', hrev, rfl, rfl⟩
  · exact .fail _ _
  obtain rfl : cur = cur' := Option.some.inj (hrec.symm.trans hrec')
  simp only [not_or, not_not, ne_eq] at hinput hclear hactive hrun
  obtain ⟨hvalid, hne, hid, hnext⟩ := hinput
  exact .applyExecution lease rev m cur hvalid hne hid hnext hclear hactive hrec hrun hrev

lemma applyControl_sound {g : ControlGuard} {res : Except KernelError (Snapshot × Bool)}
    (h : applyControl H s env.now runID rev g m = (res, s')) :
    StoreStep H env s (.applyControl runID rev g m) res s' := by
  simp only [applyControl] at h
  split at h
  · exact .of_error h
  rename_i hinput
  split at h
  · exact .of_error h
  rename_i cur hrec
  split at h
  · exact .of_error h
  rename_i hrev
  split at h
  · exact .of_error h
  rename_i hctl
  split at h
  · exact .of_error h
  rename_i hclear
  split at h
  · exact .of_error h
  rename_i hmax
  simp only [not_or, not_not, ne_eq] at hinput hrev
  -- the record was found at the expected revision, so the commit below it succeeds
  have hcommit : ∀ e, applyLocked { s with execution := e } runID rev m =
      (.ok (snapshotFromRecord m.record (nextJournal s runID m).length),
        committed { s with execution := e } runID (nextJournal s runID m) m.record m.events) := by
    intro e
    simp only [applyLocked, hrec, hrev, ne_eq, not_true_eq_false, if_false]
    rfl
  rw [hcommit] at h
  cases h
  simp only [decide_eq_true_eq]
  exact .applyControl runID rev g m cur hinput.2 hrec hrev (validateControl_ok hctl) hclear hmax

lemma acquireExecution_sound {r : ExecutionAcquireRequest}
    {res : Except KernelError ExecutionLease} (h : acquireExecution s env r = (res, s')) :
    StoreStep H env s (.acquireExecution r) res s' := by
  simp only [acquireExecution] at h
  split at h
  · exact .of_error h
  split at h
  · exact .of_error h
  rename_i cur hrec
  split at h
  · exact .of_error h
  split at h
  · exact .of_error h
  rename_i hrun
  split at h
  · exact .of_error h
  rename_i hclear
  split at h
  · exact .of_error h
  rename_i hepoch
  split at h
  · exact .of_error h
  rename_i hfree
  split at h
  · exact .of_error h
  rename_i hmax
  split at h
  · exact .of_error h
  cases h
  simp only [not_not, ne_eq] at hrun hclear
  have hpos : 0 < (s.execution r.runID).epoch := UInt64.pos_iff_ne_zero.mpr hepoch
  exact .acquireExecution r cur _ hrec hrun hclear hepoch (fun hlt => hfree ⟨hpos, hlt⟩) hmax rfl rfl

lemma renewExecution_sound {r : ExecutionRenewRequest}
    {res : Except KernelError ExecutionLease} (h : renewExecution s env.now r = (res, s')) :
    StoreStep H env s (.renewExecution r) res s' := by
  simp only [renewExecution] at h
  split at h
  · exact .of_error h
  rename_i hvalid
  split at h
  · exact .of_error h
  rename_i hactive
  cases h
  simp only [not_not] at hvalid hactive
  exact .renewExecution r hvalid.1 hactive

lemma releaseExecution_sound {lease : ExecutionLease}
    (h : releaseExecution s env.now lease = (res, s')) :
    StoreStep H env s (.releaseExecution lease) res s' := by
  simp only [releaseExecution] at h
  split at h
  · exact .of_error h
  rename_i hvalid
  split at h
  · exact .of_error h
  rename_i hactive
  cases h
  simp only [not_not] at hvalid hactive
  exact .releaseExecution lease hvalid hactive

lemma quarantineExecution_sound {v : ExecutionQuarantine}
    (h : quarantineExecution s v = (res, s')) :
    StoreStep H env s (.quarantineExecution v) res s' := by
  simp only [quarantineExecution] at h
  split at h
  · exact .of_error h
  rename_i hvalid
  split at h
  · exact .of_error h
  rename_i cur hrec
  split at h
  · exact .of_error h
  rename_i hrev
  split at h
  · exact .of_error h
  rename_i hrun
  split at h
  · exact .of_error h
  rename_i hepoch
  simp only [not_not, ne_eq] at hvalid hrev hrun
  split at h
  · rename_i hblocked
    split at h
    · rename_i hsame
      cases h
      exact .quarantineAgain v cur hvalid hrec hrev hrun hblocked hsame.1 hsame.2
    · exact .of_error h
  rename_i hclear
  split at h
  · exact .of_error h
  rename_i hmax
  cases h
  exact .quarantineExecution v cur hvalid hrec hrev hrun hepoch (by simpa using hclear) hmax

lemma repairExecutionQuarantine_sound {v : ExecutionQuarantine}
    (h : repairExecutionQuarantine s v = (res, s')) :
    StoreStep H env s (.repairExecutionQuarantine v) res s' := by
  simp only [repairExecutionQuarantine] at h
  split at h
  · exact .of_error h
  split at h
  · exact .of_error h
  rename_i cur hrec
  split at h
  · exact .of_error h
  rename_i hexact
  cases h
  simp only [not_or, not_not, ne_eq] at hexact
  obtain ⟨hrev, hrun, hblock, hgen, hcode⟩ := hexact
  exact .repairExecutionQuarantine v cur hrec hrev hrun hblock hgen hcode

lemma claimTransitions_sound {r : TransitionClaimRequest}
    {res : Except KernelError (List TransitionClaim)} (h : claimTransitions s r = (res, s')) :
    StoreStep H env s (.claimTransitions r) res s' := by
  simp only [claimTransitions] at h
  split at h
  · exact .of_error h
  rename_i hinput
  cases h
  simp only [not_or, not_le] at hinput
  exact .claimTransitions r hinput.2.1 hinput.2.2.1 (by simpa [isZero] using hinput.2.2.2)

lemma ackTransition_sound {r : TransitionLeaseRequest}
    (h : ackTransition s r = (res, s')) : StoreStep H env s (.ackTransition r) res s' := by
  simp only [ackTransition] at h
  split at h
  · exact .of_error h
  rename_i hvalid
  split at h
  · exact .of_error h
  rename_i t hentry
  split at h
  · exact .of_error h
  rename_i hlease
  cases h
  simp only [not_or, not_not, ne_eq] at hvalid hlease
  exact .ackTransition r t hvalid hentry hlease.1 hlease.2

lemma retryTransition_sound {r : TransitionRetryRequest}
    (h : retryTransition s r = (res, s')) : StoreStep H env s (.retryTransition r) res s' := by
  simp only [retryTransition] at h
  split at h
  · exact .of_error h
  rename_i hvalid
  split at h
  · exact .of_error h
  rename_i t hentry
  split at h
  · exact .of_error h
  rename_i hlease
  cases h
  simp only [not_or, not_not, ne_eq] at hvalid hlease
  exact .retryTransition r t hvalid hentry hlease.1 hlease.2

/-- **Every call is one of the listed outcomes.** -/
theorem step_sound {op : StoreOp} {res : op.Res} (h : step H env s op = (res, s')) :
    StoreStep H env s op res s' := by
  cases op with
  | create r events =>
    rw [step, create] at h
    split at h
    · exact .of_error h
    rename_i hnew
    cases h
    exact .create r events (by simpa using hnew)
  | load runID =>
    cases h
    rw [load]
    split
    · exact .fail _ _
    · exact .load runID _ ‹_›
  | listEvents runID afterSeq limit =>
    cases h
    cases hpage : listEvents s runID afterSeq limit with
    | error e => exact .fail _ e
    | ok page => exact .listEvents runID afterSeq limit page hpage
  | apply => exact apply_sound h
  | applyExecution => exact applyExecution_sound h
  | applyControl => exact applyControl_sound h
  | acquireExecution => exact acquireExecution_sound h
  | renewExecution => exact renewExecution_sound h
  | releaseExecution => exact releaseExecution_sound h
  | checkExecution runID lease =>
    cases h
    cases hcheck : checkExecution s env.now runID lease with
    | error e => exact .fail _ e
    | ok => exact .checkExecution runID lease hcheck
  | quarantineExecution => exact quarantineExecution_sound h
  | repairExecutionQuarantine => exact repairExecutionQuarantine_sound h
  | claimTransitions => exact claimTransitions_sound h
  | ackTransition => exact ackTransition_sound h
  | retryTransition => exact retryTransition_sound h

end Soundness

end Memory
