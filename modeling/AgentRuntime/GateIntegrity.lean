/-
Gates of fenced Runs.

A Run that waits for an approval or for budget can be moved only by a control,
and back to `running` only by a control whose decision a Feature sealed for
exactly this gate, this revision and this outcome.  The argument is in two parts.
`leaves_gate_by_control` is what one call can do to a gated Run; `FencedHistory` is
what the commits of the Run look like as a whole: every commit raises the revision
by one and none follows revision 0, so no two of them meet the same revision, and
with it the same sealed decision.

* **`gate_integrity`** — leaving a gate, single use of a sealed decision,
  revocation of the owner, and the deadline.
-/
import AgentRuntime.ExecutionFencing

namespace Memory

open GoString Kernel Function Relation WordCounters List Option

variable {H : Hashing} {env : Env} {s s' : Store} {op : StoreOp} {res : op.Res} {id : GoString}
  {w w' : World} {rev : UInt64} {g : ControlGuard} {m : StoreMutation} {out : Snapshot × Bool}
  {cur : Snapshot}

/-! ### The commits of a Run -/

/-- The revisions of a Run, newest first. -/
def World.revisions (w : World) (id : GoString) : List UInt64 :=
  (w.commitsOf id).map fun c => c.snapshot.run.revision

/-- The commit used the sealed decision `p`. -/
def Commit.Consumes (c : Commit) (p : Proof) : Prop :=
  ∃ g, c.control = some g ∧ g.kind.sealed = true ∧ g.verified = some p

instance (c : Commit) (p : Proof) : Decidable (c.Consumes p) := by
  unfold Commit.Consumes
  cases hc : c.control with
  | none => exact isFalse (by simp)
  | some g =>
    exact decidable_of_iff (g.kind.sealed = true ∧ g.verified = some p) (by simp)

/-- The shape of the history of a fenced Run. -/
structure FencedHistory (w : World) (id : GoString) : Prop where
  descending : Descending (w.revisions id)
  run_id : ∀ c ∈ w.commitsOf id, c.snapshot.run.id = id
  consumed : ∀ c ∈ w.commitsOf id, ∀ p, c.Consumes p →
    p.runID = id ∧ c.snapshot.run.revision = p.revision + 1

/-- Everything a committed control has been checked for. -/
theorem control_commit {runID : GoString}
    (hs : StoreStep H env s (.applyControl runID rev g m) (.ok out) s') :
    ∃ cur, s.records runID = some cur ∧ cur.run.revision = rev ∧ rev ≠ 0 ∧
      ControlAccepted H cur g m env.now ∧
      out.1 = snapshotFromRecord m.record (nextJournal s runID m).length ∧
      s'.execution = revokedExecution s runID ∧ (s.execution runID).epoch ≠ maxUint64 := by
  cases hs with
  | applyControl _ _ _ _ cur hne hrec hrev hctl _ hmax =>
    exact ⟨cur, hrec, hrev, hne, hctl, rfl, by rw [committed_execution], hmax⟩

/-- A commit to a fenced Run is fenced itself, or a control. -/
lemma fenced_commit {c : Commit} (hpos : 0 < (s.execution id).epoch) (hold : s.records id ≠ none)
    (hs : StoreStep H env s op res s') (hc : commitOf op res = some c) (hid : c.runID = id) :
    ∃ cur, s.records id = some cur ∧ c.snapshot.run.revision = cur.run.revision + 1 ∧
      cur.run.revision ≠ 0 ∧ (c.snapshot.run.id = id ∨ c.snapshot.run.id = cur.run.id) ∧
      ∀ p, c.Consumes p → p.runID = cur.run.id ∧ p.revision = cur.run.revision := by
  cases hs with
  | create _ _ hnew =>
    cases hc
    exact absurd (hid ▸ hnew) hold
  | apply runID _ _ _ hepoch =>
    cases hc
    obtain rfl : runID = id := hid
    rw [hepoch] at hpos
    cases hpos
  | applyExecution lease _ m cur _ hne hrid hnext _ _ hrec _ hrev =>
    cases hc
    obtain rfl : lease.runID = id := hid
    refine ⟨cur, hrec, ?_, hrev ▸ hne, .inl hrid, ?_⟩
    · show m.record.run.revision = _
      rw [hnext, hrev]
    · rintro p ⟨g, hg, -⟩
      simp at hg
  | applyControl runID _ _ _ cur hne hrec hrev hctl =>
    cases hc
    obtain rfl : runID = id := hid
    refine ⟨cur, hrec, hctl.revision, hrev ▸ hne, .inr hctl.id_eq, ?_⟩
    rintro p ⟨_, hg', hsealed, hverified⟩
    cases hg'
    have hmatch := hctl.proof hsealed
    rw [hverified] at hmatch
    obtain ⟨hrunID, hprev, -⟩ := proofMatches_some hmatch
    exact ⟨hrunID, hprev⟩
  | _ => simp [commitOf] at hc

/-- The first commit of a fenced Run is its creation. -/
lemma fencedHistory_created {r : Record} {events : List EventDraft} {snap : Snapshot}
    (hw : World.Reachable H w) (hs : StoreStep H env w.store (.create r events) (.ok snap) s') :
    FencedHistory ⟨s', ⟨.create r events, .ok snap⟩ :: w.log⟩ r.run.id := by
  have hnew : w.store.records r.run.id = none ∧ snap.run = r.run := by
    cases hs with
    | create _ _ hnew => exact ⟨hnew, rfl⟩
  have hempty : w.commitsOf r.run.id = [] := by
    have hhead := records_eq_head hw r.run.id
    rw [hnew.1, eq_comm, map_eq_none_iff] at hhead
    exact head?_eq_none_iff.mp hhead
  have hlist : (⟨s', ⟨.create r events, .ok snap⟩ :: w.log⟩ : World).commitsOf r.run.id =
      [⟨r.run.id, true, snap, events, none⟩] := by
    rw [World.commitsOf_of_commit (c := ⟨r.run.id, true, snap, events, none⟩) rfl, hempty]
  refine ⟨?_, ?_, ?_⟩
  · rw [World.revisions, hlist]
    exact List.IsChain.singleton _
  · rw [hlist]
    exact forall_mem_singleton.mpr (congrArg Run.id hnew.2)
  rw [hlist]
  refine forall_mem_singleton.mpr ?_
  rintro p ⟨g, hg, -⟩
  simp at hg

theorem FencedHistory.reachable (hw : World.Reachable H w) (hf : w.Fenced id) :
    FencedHistory w id := by
  refine World.invariant (P := fun w => w.Fenced id → FencedHistory w id) ?_ ?_ hw hf
  · rintro ⟨r, _, _, -, -, hmem⟩
    simp at hmem
  rintro w _ op res _ hreach hinv hs ⟨r, events, snap, hreq, hid, hmem⟩
  rcases mem_cons.mp hmem with hnow | hbefore
  · obtain ⟨rfl, hres⟩ := Call.mk.inj hnow
    obtain rfl := eq_of_heq hres
    subst hid
    exact fencedHistory_created hreach hs
  have hfenced : w.Fenced id := ⟨r, events, snap, hreq, hid, hbefore⟩
  have hold := hinv hfenced
  rcases commit_or_same op res id with ⟨c, hc, hcid⟩ | hne
  · obtain ⟨_, hcur, hrev, hne, hrid, hproof⟩ := fenced_commit (fenced_epoch_pos hreach hfenced)
      ((AuthorityInv.reachable hreach _).exists (fenced_epoch_pos hreach hfenced)) hs hc hcid
    subst hcid
    -- the record is the newest commit, which the new one succeeds
    have hhead := records_eq_head hreach c.runID
    rw [hcur] at hhead
    obtain ⟨last, hlast, hsnap⟩ := map_eq_some_iff.mp hhead.symm
    obtain ⟨_, hrest⟩ := head?_eq_some_iff.mp hlast
    have hlastid : last.snapshot.run.id = c.runID := hold.run_id last (by rw [hrest]; simp)
    refine ⟨?_, ?_, ?_⟩
    · have hd := hold.descending
      rw [World.revisions, hrest] at hd
      rw [World.revisions, World.commitsOf_of_commit hc, hrest]
      subst hsnap
      exact Descending.cons hd hrev hne
    · rw [World.commitsOf_of_commit hc]
      rintro d (_ | ⟨_, hd⟩)
      · rcases hrid with hrid | hrid
        · exact hrid
        · rw [hrid, ← hsnap, hlastid]
      · exact hold.run_id d hd
    · rw [World.commitsOf_of_commit hc]
      rintro d (_ | ⟨_, hd⟩) p hp
      · obtain ⟨hprun, hprev⟩ := hproof p hp
        exact ⟨by rw [hprun, ← hsnap, hlastid], by rw [hrev, hprev]⟩
      · exact hold.consumed d hd p hp
  · refine ⟨?_, ?_, ?_⟩
    · rw [World.revisions, World.commitsOf_of_ne hne]
      exact hold.descending
    · rw [World.commitsOf_of_ne hne]
      exact hold.run_id
    · rw [World.commitsOf_of_ne hne]
      exact hold.consumed

/-- A sealed decision is consumed by at most one commit of its Run. -/
lemma FencedHistory.single_use (h : FencedHistory w id) (p : Proof) :
    ((w.commitsOf id).filter fun c => c.Consumes p).length ≤ 1 := by
  set users := (w.commitsOf id).filter fun c => c.Consumes p with husers
  have hsub : List.Sublist (users.map fun c => c.snapshot.run.revision) (w.revisions id) :=
    List.Sublist.map _ filter_sublist
  -- all of them would have been committed at the one revision the decision names
  have hsame : ∀ r ∈ users.map (fun c => c.snapshot.run.revision), r = p.revision + 1 := by
    refine forall_mem_map.mpr fun c hc => ?_
    obtain ⟨hmem, hconsumes⟩ := mem_filter.mp hc
    exact (h.consumed c hmem p (by simpa using hconsumes)).2
  have hrepl := eq_replicate_of_mem hsame
  have hone := h.descending.nodup.sublist hsub
  rwa [hrepl, nodup_replicate, length_map] at hone

/-! ### Leaving a gate -/

/-- The control resumed the Run at `cur` with a decision sealed for exactly this
gate, this revision and the committed outcome. -/
def SealedResume (H : Hashing) (id : GoString) (cur : Snapshot) (g : ControlGuard)
    (next : Snapshot) : Prop :=
  ∃ p source, g.verified = some p ∧
    sealProof H id cur.run.revision g.kind.text source next.state next.checkpoint = some p ∧
    (cur.run.status = .waitingInput → g.kind = .approval ∧
      ∃ c, cur.checkpoint = some c ∧ c.status = .pending ∧ source = c.id) ∧
    (cur.run.status = .pausedBudget → g.kind = .allowance ∧ source = cur.run.errorCode) ∧
    ∀ runID rev kind source' state checkpoint,
      sealProof H runID rev kind source' state checkpoint = some p →
      runID = id ∧ rev = cur.run.revision ∧ kind = g.kind.text ∧ source' = source ∧
      (H.CollisionFree (state, checkpoint) (next.state, next.checkpoint) →
        state = next.state ∧ checkpoint = next.checkpoint)

lemma trimSpace_nil : trimSpace [] = [] := by decide

/-- A control that resumes a gated Run carries the matching sealed decision. -/
lemma sealedResume_of_control {head : ℕ}
    (hid : cur.run.id = id) (hne : cur.run.revision ≠ 0) (hctl : ControlAccepted H cur g m env.now)
    (hgate : cur.run.status = .waitingInput ∨ cur.run.status = .pausedBudget)
    (hrun : m.record.run.status = .running) :
    SealedResume H id cur g (snapshotFromRecord m.record head) := by
  -- the kind is sealed, its source is not blank, and it belongs to this gate
  obtain ⟨hsealed, htext, hsource, hwait, hpaused⟩ :
      g.kind.sealed = true ∧ g.kind.text ≠ [] ∧ g.source ≠ [] ∧
      (cur.run.status = .waitingInput → g.kind = .approval ∧
        ∃ c, cur.checkpoint = some c ∧ c.status = .pending ∧ g.source = c.id) ∧
      (cur.run.status = .pausedBudget → g.kind = .allowance ∧ g.source = cur.run.errorCode) := by
    cases controlShape_ok hctl.shape with
    | approval c hkind hcur hcheck hpending hcid hcne =>
      have hsrc : g.source = c.id := by rw [ControlGuard.source, hkind]; exact hcid.symm
      refine ⟨by rw [hkind]; rfl, by rw [hkind]; decide, ?_, fun _ => ⟨hkind, c, hcheck, hpending, hsrc⟩,
        fun h => ?_⟩
      · rw [hsrc]
        intro hnil
        exact hcne (by rw [hnil]; exact trimSpace_nil)
      · rw [hcur] at h
        simp at h
    | allowance hkind hcur hcode hcne =>
      have hsrc : g.source = cur.run.errorCode := by
        rw [ControlGuard.source, hkind]; exact hcode.symm
      refine ⟨by rw [hkind]; rfl, by rw [hkind]; decide, ?_, fun h => ?_, fun _ => ⟨hkind, hsrc⟩⟩
      · rw [hsrc, hcode]
        intro hnil
        exact hcne (by rw [hnil]; exact trimSpace_nil)
      · rw [hcur] at h
        simp at h
    | externalSignal _ hcur =>
      rw [hcur] at hgate
      simp at hgate
    | cancel _ _ hnext | deadline _ _ _ hnext =>
      rw [hrun] at hnext; exact absurd hnext (by simp)
  have hmatch := hctl.proof hsealed
  rcases hver : g.verified with _ | p
  · rw [hver] at hmatch; simp [proofMatches] at hmatch
  rw [hver] at hmatch
  obtain ⟨hprun, hprev, hpkind, hpsource, hdigest⟩ := proofMatches_some hmatch
  have hstate := hctl.state
  simp only [validState, Bool.and_eq_true] at hstate
  refine ⟨p, g.source, hver, ?_, hwait, hpaused, ?_⟩
  · exact sealProof_eq_some.mpr ⟨⟨hid ▸ hctl.id_ne, hne, htext, hsource, hstate.2⟩,
      hprun.trans hid, hprev, hpkind, hpsource, hdigest⟩
  intro _ _ _ _ _ _ hseal
  obtain ⟨-, hrun', hrev', hkind', hsource', hdigest'⟩ := sealProof_eq_some.mp hseal
  refine ⟨hrun'.symm.trans (hprun.trans hid), hrev'.symm.trans hprev, hkind'.symm.trans hpkind,
    hsource'.symm.trans hpsource, fun hfree => ?_⟩
  have heq := hfree (hdigest'.trans hdigest.symm)
  exact ⟨congrArg Prod.fst heq, congrArg Prod.snd heq⟩

lemma fenced_run_id (hw : World.Reachable H w) (hf : w.Fenced id)
    (hcur : w.store.records id = some cur) : cur.run.id = id := by
  have hhead := records_eq_head hw id
  rw [hcur] at hhead
  obtain ⟨last, hlast, rfl⟩ := map_eq_some_iff.mp hhead.symm
  exact (FencedHistory.reachable hw hf).run_id last (mem_of_head? hlast)

/-- A gated fenced Run changes only by a control. -/
theorem leaves_gate_by_control (hw : World.Reachable H w) (hf : w.Fenced id)
    (hcur : w.store.records id = some cur)
    (hgate : cur.run.status = .waitingInput ∨ cur.run.status = .pausedBudget)
    (hs : StoreStep H env w.store op res s') (hchange : s'.records id ≠ some cur) :
    ∃ rev g m snap revoked, (⟨op, res⟩ : Call) = ⟨.applyControl id rev g m, .ok (snap, revoked)⟩ ∧
      s'.records id = some snap ∧
      (snap.run.status = .running → SealedResume H id cur g snap) := by
  rcases commit_or_same op res id with ⟨c, hc, hcid⟩ | hsame
  swap
  · exact absurd ((hs.records_of_ne hsame).trans hcur) hchange
  have hrec' := hs.records_of_commit hc
  have hpos := fenced_epoch_pos hw hf
  cases hs with
  | create r _ hnew =>
    cases hc
    obtain rfl : r.run.id = id := hcid
    rw [hcur] at hnew
    simp at hnew
  | apply runID _ _ _ hepoch =>
    cases hc
    obtain rfl : runID = id := hcid
    rw [hepoch] at hpos
    cases hpos
  | applyExecution lease _ _ cur' _ _ _ _ _ _ hrec hrun =>
    -- even the owner of the current lease cannot move a gated Run
    cases hc
    obtain rfl : lease.runID = id := hcid
    obtain rfl : cur = cur' := some.inj (hcur.symm.trans hrec)
    rw [hrun] at hgate
    simp at hgate
  | applyControl runID rev g m cur' hne hrec hrev hctl =>
    cases hc
    obtain rfl : runID = id := hcid
    obtain rfl : cur = cur' := some.inj (hcur.symm.trans hrec)
    refine ⟨rev, g, m, _, _, rfl, hrec', fun hrunning => ?_⟩
    exact sealedResume_of_control (fenced_run_id hw hf hcur) (hrev ▸ hne) hctl hgate hrunning
  | _ => simp [commitOf] at hc

/-- A committed control of a fenced Run raises its epoch and leaves no live lease. -/
lemma control_revokes (hpos : 0 < (s.execution id).epoch)
    (hs : StoreStep H env s (.applyControl id rev g m) (.ok out) s') :
    (s.execution id).epoch < (s'.execution id).epoch ∧
      ∀ now t, t.runID = id → ¬ Honoured s' now t := by
  obtain ⟨_, -, -, -, -, -, hexec, hmax⟩ := control_commit hs
  have hafter := congrFun hexec id
  rw [revokedExecution_self hpos] at hafter
  constructor
  · rw [hafter]
    exact lt_add_one_of_ne_max hmax
  · rintro _ t rfl hh
    exact (honoured_token H hh).2 (by rw [hafter])

/-- **Gate integrity.**  Let a Run be created with `ExecutionRequired`, and let any
call be made in any reachable world.  If the Run leaves `waiting_input` or
`paused_budget`, the call is a committed control, and if it returns to `running`
the control carries a decision sealed for exactly this gate, revision and outcome.
No sealed decision is consumed twice, nor by a Run it was not sealed for.  A committed
control raises the epoch, leaves no live lease and, unless it cancels or expires the
Run, finds the deadline still ahead. -/
theorem gate_integrity (H : Hashing) (w w' : World) (id : GoString) (env : Env) (op : StoreOp)
    (res : op.Res) (hw : World.Reachable H w) (hf : w.Fenced id)
    (hstep : w.perform H env op = (res, w')) :
    (∀ cur, w.store.records id = some cur →
      (cur.run.status = .waitingInput ∨ cur.run.status = .pausedBudget) →
      w'.store.records id ≠ some cur →
      ∃ rev g m snap revoked,
        (⟨op, res⟩ : Call) = ⟨.applyControl id rev g m, .ok (snap, revoked)⟩ ∧
        w'.store.records id = some snap ∧
        (snap.run.status = .running → SealedResume H id cur g snap)) ∧
    (∀ p, ((w'.commitsOf id).filter fun c => c.Consumes p).length ≤ 1 ∧
      ∀ c ∈ w'.commitsOf id, c.Consumes p → p.runID = id) ∧
    (∀ rev g m out, (⟨op, res⟩ : Call) = ⟨.applyControl id rev g m, .ok out⟩ →
      (w.store.execution id).epoch < (w'.store.execution id).epoch ∧
      (∀ now t, t.runID = id → ¬ Honoured w'.store now t) ∧
      (g.kind.sealed = true → ∀ cur, w.store.records id = some cur →
        deadlineDue cur.run env.now = false)) := by
  have hs := World.perform_sound hstep
  have hreach' : World.Reachable H w' := hw.tail ⟨env, op, congrArg Prod.snd hstep.symm⟩
  have hlog : w'.log = ⟨op, res⟩ :: w.log := by
    cases hstep
    rfl
  have hf' : w'.Fenced id := by
    obtain ⟨r, events, snap, hreq, hid, hmem⟩ := hf
    exact ⟨r, events, snap, hreq, hid, by rw [hlog]; exact mem_cons_of_mem _ hmem⟩
  refine ⟨?_, ?_, ?_⟩
  · intro _ hcur hgate hchange
    exact leaves_gate_by_control hw hf hcur hgate hs hchange
  · intro p
    have hhistory := FencedHistory.reachable hreach' hf'
    exact ⟨hhistory.single_use p, fun c hc hp => (hhistory.consumed c hc p hp).1⟩
  intro _ g m _ hcall
  obtain ⟨rfl, hres⟩ := Call.mk.inj hcall
  obtain rfl := eq_of_heq hres
  obtain ⟨hepoch, hdead⟩ := control_revokes (fenced_epoch_pos hw hf) hs
  refine ⟨hepoch, hdead, fun hsealed cur hcur => ?_⟩
  obtain ⟨cur', hrec, -, -, hctl, -⟩ := control_commit hs
  obtain rfl : cur = cur' := some.inj (hcur.symm.trans hrec)
  exact hctl.notDue hsealed

/-- A fenced Run that waits for budget. -/
def samplePaused : World :=
  World.runAll .sample
    [(⟨1, none⟩, .create
      { sampleRecord true with
        run := { (sampleRecord true).run with status := .pausedBudget, errorCode := lit "b" } } [])] {}

/-- The allowance that lifts the gate, sealed for the state it commits. -/
def sampleAllowance : StoreOp :=
  .applyControl (lit "r") 1
    { kind := .allowance, blockedCode := lit "b",
      verified := sealProof .sample (lit "r") 1 (lit "allowance") (lit "b") (lit "1") none }
    { record := { run := { (sampleRecord true).run with revision := 2 }, state := lit "1" }, events := [] }

/-- The allowance commits, the Run is running again, and every further use of
the same decision would be a second one. -/
theorem gate_integrity_allowance :
    (samplePaused.perform .sample ⟨2, none⟩ sampleAllowance).2.store.records (lit "r") ≠
      samplePaused.store.records (lit "r") ∧
    ∀ p, (((samplePaused.perform .sample ⟨2, none⟩ sampleAllowance).2.commitsOf (lit "r")).filter
      fun c => c.Consumes p).length ≤ 1 := by
  have hreach : World.Reachable .sample samplePaused := World.runAll_later _ _
  have hfenced : samplePaused.Fenced (lit "r") :=
    ⟨_, _, _, rfl, rfl, mem_singleton.mpr rfl⟩
  refine ⟨by decide, fun p => ?_⟩
  exact ((gate_integrity .sample samplePaused _ (lit "r") ⟨2, none⟩ sampleAllowance _ hreach hfenced
    rfl).2.1 p).1

end Memory
