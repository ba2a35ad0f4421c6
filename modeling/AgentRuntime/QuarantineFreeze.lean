/-
Quarantine freezes a Run.

A quarantine revokes the current lease and blocks the Run at its revision.  While
the block stands, no path of the Store writes to the Run: acquisition, fenced
commits and every control that leads back to `running` refuse it, the unfenced
path refuses all fenced Runs, and the only controls that apply to a running Run
beside the refused one are its cancellation and its expiry.

* **`quarantine_freeze`** — the whole life of a quarantine.
-/
import AgentRuntime.ExecutionFencing

namespace Memory

open GoString Kernel Function Relation Option

variable {H : Hashing} {env : Env} {s s' : Store} {op : StoreOp} {res : op.Res} {id : GoString}
  {w w' : World} {v : ExecutionQuarantine} {cur : Snapshot} {journal : List Event}

/-- The Run of `v` is blocked by `v`, at the snapshot `cur` and with `journal`. -/
structure Frozen (s : Store) (v : ExecutionQuarantine) (cur : Snapshot) (journal : List Event) :
    Prop where
  valid : validMemoryQuarantine v = true
  record : s.records v.runID = some cur
  journal : s.events v.runID = journal
  running : cur.run.status = .running
  revision : cur.run.revision = v.revision
  block : (s.execution v.runID).quarantineRev = v.revision
  generation : (s.execution v.runID).quarantineGen = v.generation
  reason : (s.execution v.runID).quarantineCode = v.reason
  epoch : 0 < (s.execution v.runID).epoch
  lease : (s.execution v.runID).lease = .zero

lemma Frozen.block_ne (h : Frozen s v cur journal) : (s.execution v.runID).quarantineRev ≠ 0 := by
  have hvalid := h.valid
  simp only [validMemoryQuarantine, Bool.and_eq_true, decide_eq_true_eq] at hvalid
  rw [h.block]
  exact UInt64.pos_iff_ne_zero.mp hvalid.1.1.1.2

lemma Frozen.of_eq (h : Frozen s v cur journal) (hrec : s'.records v.runID = s.records v.runID)
    (hev : s'.events v.runID = s.events v.runID)
    (hex : s'.execution v.runID = s.execution v.runID) : Frozen s' v cur journal :=
  ⟨h.valid, hrec ▸ h.record, hev ▸ h.journal, h.running, h.revision, hex ▸ h.block,
    hex ▸ h.generation, hex ▸ h.reason, hex ▸ h.epoch, hex ▸ h.lease⟩

/-- A repair with exactly the data of `v`, or a cancel or deadline control that
made the Run terminal. -/
def Unblocks (v : ExecutionQuarantine) (call : Call) : Prop :=
  match call with
  | ⟨.repairExecutionQuarantine v', _⟩ => v' = v
  | ⟨.applyControl runID _ g _, .ok (snap, _)⟩ =>
    runID = v.runID ∧ (g.kind = .cancel ∨ g.kind = .deadline) ∧ snap.run.status.terminal = true
  | _ => False

/-- A blocked Run survives every call that does not unblock it. -/
theorem Frozen.step (h : Frozen s v cur journal) (hs : StoreStep H env s op res s')
    (hkeep : ¬ Unblocks v ⟨op, res⟩) : Frozen s' v cur journal := by
  rcases hs.elsewhere v.runID with hid | ⟨hrec, hev, hex⟩
  swap
  · exact h.of_eq hrec hev hex
  cases hs with
  | create _ _ hnew =>
    rw [some.inj hid, h.record] at hnew
    cases hnew
  | apply _ _ _ _ hepoch =>
    have hpos := h.epoch
    rw [← some.inj hid, hepoch] at hpos
    cases hpos
  | applyExecution _ _ _ _ _ _ _ _ hclear | acquireExecution _ _ _ _ _ hclear
  | quarantineExecution _ _ _ _ _ _ _ hclear =>
    exact absurd (some.inj hid ▸ hclear) h.block_ne
  | applyControl _ _ g m cur' _ hrec _ hctl hclear =>
    -- of all controls only the terminating ones apply to a blocked running Run
    exfalso
    cases hid
    obtain rfl : cur = cur' := some.inj (h.record.symm.trans hrec)
    have hterminal : ∀ status : RunStatus, m.record.run.status = status →
        status.terminal = true → (g.kind = .cancel ∨ g.kind = .deadline) → False :=
      fun status hst hterm hkind => hkeep ⟨rfl, hkind, by rw [snapshotFromRecord, hst]; exact hterm⟩
    cases controlShape_ok hctl.shape with
    | approval _ _ hcur | allowance _ hcur =>
      rw [h.running] at hcur; simp at hcur
    | externalSignal _ _ hnext => exact hclear ⟨h.block_ne, hnext⟩
    | cancel hkind _ hnext => exact hterminal _ hnext rfl (.inl hkind)
    | deadline hkind _ _ hnext => exact hterminal _ hnext rfl (.inr hkind)
  | renewExecution _ hvalid hactive | releaseExecution _ hvalid hactive =>
    exact absurd h.lease (lease_ne_zero hvalid (some.inj hid ▸ hactive))
  | repairExecutionQuarantine v' _ _ _ _ hblock hgen hcode =>
    refine absurd ?_ hkeep
    rw [some.inj hid] at hblock hgen hcode
    obtain ⟨_, _, _, _⟩ := v'
    obtain ⟨_, _, _, _⟩ := v
    simp only [Unblocks, ExecutionQuarantine.mk.injEq]
    exact ⟨some.inj hid, hblock.symm.trans h.block, hgen.symm.trans h.generation,
      hcode.symm.trans h.reason⟩
  | _ => exact h.of_eq rfl rfl rfl

/-! ### Every block belongs to a running Run at that revision, or to an ended one -/

/-- Whoever is blocked has an epoch, and either has ended or is still running at
the revision of the block. -/
def BlockInv (s : Store) (id : GoString) : Prop :=
  (s.execution id).quarantineRev ≠ 0 → 0 < (s.execution id).epoch ∧ ∃ cur, s.records id = some cur ∧
    (cur.run.status.terminal = true ∨
      cur.run.status = .running ∧ cur.run.revision = (s.execution id).quarantineRev)

lemma BlockInv.of_eq (h : BlockInv s id) (hrec : s'.records id = s.records id)
    (hex : s'.execution id = s.execution id) : BlockInv s' id := by
  rwa [BlockInv, hrec, hex]

theorem BlockInv.step (h : BlockInv s id) (hs : StoreStep H env s op res s') : BlockInv s' id := by
  rcases hs.elsewhere id with hid | ⟨hrec, -, hex⟩
  swap
  · exact h.of_eq hrec hex
  cases hs with
  | create r _ hnew =>
    cases hid
    intro hblocked
    rw [committed_execution] at hblocked
    change (createdExecution s r r.run.id).quarantineRev ≠ 0 at hblocked
    rw [createdExecution_self] at hblocked
    split at hblocked
    · exact absurd rfl hblocked
    obtain ⟨-, _, hrec, -⟩ := h hblocked
    rw [hnew] at hrec
    simp at hrec
  | apply _ _ _ _ hepoch =>
    cases hid
    intro hblocked
    rw [committed_execution] at hblocked
    obtain ⟨hpos, -⟩ := h hblocked
    rw [hepoch] at hpos
    cases hpos
  | applyExecution _ _ _ _ _ _ _ _ hclear =>
    cases hid
    intro hblocked
    rw [committed_execution] at hblocked
    exact absurd hclear hblocked
  | applyControl runID _ _ m cur _ hrec _ hctl hclear hmax =>
    obtain rfl := some.inj hid
    intro hblocked
    rw [committed_execution] at hblocked ⊢
    change (revokedExecution s runID runID).quarantineRev ≠ 0 at hblocked
    have hold : (s.execution runID).quarantineRev ≠ 0 := by
      by_cases hpos : 0 < (s.execution runID).epoch
      · rwa [revokedExecution_self hpos] at hblocked
      · rwa [revokedExecution_idle hpos] at hblocked
    obtain ⟨hpos, cur', hrec', hstatus⟩ := h hold
    obtain rfl : cur = cur' := some.inj (hrec.symm.trans hrec')
    refine ⟨?_, snapshotFromRecord m.record (nextJournal s runID m).length, by simp, .inl ?_⟩
    · show 0 < (revokedExecution s runID runID).epoch
      rw [revokedExecution_self hpos]
      exact UInt64.lt_trans hpos (lt_add_one_of_ne_max hmax)
    have hnot : cur.run.status.terminal ≠ true := by simp [hctl.active]
    have hrunning := (hstatus.resolve_left hnot).1
    show m.record.run.status.terminal = true
    cases controlShape_ok hctl.shape with
    | approval _ _ hcur | allowance _ hcur =>
      rw [hrunning] at hcur; simp at hcur
    | externalSignal _ _ hnext => exact absurd ⟨hold, hnext⟩ hclear
    | cancel _ _ hnext | deadline _ _ _ hnext => rw [hnext]; rfl
  | acquireExecution _ _ _ _ _ hclear =>
    cases hid
    intro hblocked
    simp only [update_self] at hblocked
    exact absurd hclear hblocked
  | renewExecution | releaseExecution =>
    cases hid
    simpa [BlockInv] using h
  | quarantineExecution _ cur _ hrec hrev hrun hepoch _ hmax =>
    cases hid
    intro _
    simp only [update_self]
    have hpos := UInt64.pos_iff_ne_zero.mpr hepoch
    exact ⟨UInt64.lt_trans hpos (lt_add_one_of_ne_max hmax), cur, hrec, .inr ⟨hrun, hrev⟩⟩
  | repairExecutionQuarantine =>
    cases hid
    intro hblocked
    simp only [update_self] at hblocked
    exact absurd rfl hblocked
  | _ => exact h

lemma BlockInv.reachable (hw : World.Reachable H w) (id : GoString) : BlockInv w.store id :=
  World.invariant (P := fun w => BlockInv w.store id) (absurd rfl)
    (fun _ hinv hs => hinv.step hs) hw

/-! ### The life of a quarantine -/

/-- A successful quarantine freezes the Run, also when it repeats an earlier one. -/
lemma frozen_of_quarantine (hw : World.Reachable H w)
    (h : w.perform H env (.quarantineExecution v) = (.ok (), w')) :
    ∃ cur, w.store.records v.runID = some cur ∧
      Frozen w'.store v cur (w.store.events v.runID) := by
  have hs := World.perform_sound h
  have hblock := BlockInv.reachable hw v.runID
  have hauth := AuthorityInv.reachable hw v.runID
  generalize w'.store = s' at hs ⊢
  cases hs with
  | quarantineAgain _ cur hvalid hrec hrev hrun hblocked hgen hcode =>
    obtain ⟨hpos, cur', hrec', hstatus⟩ := hblock hblocked
    obtain rfl : cur = cur' := some.inj (hrec.symm.trans hrec')
    have hat : cur.run.revision = (w.store.execution v.runID).quarantineRev := by
      rcases hstatus with hterm | ⟨-, hat⟩
      · rw [hrun] at hterm
        cases hterm
      · exact hat
    exact ⟨cur, hrec, hvalid, hrec, rfl, hrun, hrev, hat.symm.trans hrev, hgen, hcode, hpos,
      hauth.blocked hblocked⟩
  | quarantineExecution _ cur hvalid hrec hrev hrun hepoch _ hmax =>
    have hpos := UInt64.lt_trans (UInt64.pos_iff_ne_zero.mpr hepoch) (lt_add_one_of_ne_max hmax)
    refine ⟨cur, hrec, hvalid, hrec, rfl, hrun, hrev, ?_, ?_, ?_, ?_, ?_⟩ <;>
      simp
    exact hpos

lemma Frozen.later (h : Frozen w.store v cur journal)
    (hl : World.LaterAvoiding H (Unblocks v) w w') : Frozen w'.store v cur journal := by
  induction hl with
  | refl => exact h
  | tail _ hlast ih =>
    obtain ⟨_, _, rfl, hkeep⟩ := hlast
    exact ih.step (step_sound rfl) hkeep

lemma Frozen.not_honoured (H : Hashing) (h : Frozen s v cur journal) {now : Time}
    {t : ExecutionLease} (hrun : t.runID = v.runID) : ¬ Honoured s now t := by
  intro hh
  have hlease := h.lease
  rw [← hrun] at hlease
  exact (honoured_token H hh).2 hlease

lemma Frozen.quarantine_again (h : Frozen s v cur journal) :
    quarantineExecution s v = (.ok (), s) := by
  have hpos : (s.execution v.runID).epoch ≠ 0 := UInt64.pos_iff_ne_zero.mp h.epoch
  simp [quarantineExecution, h.valid, h.record, h.revision, h.running, hpos, h.block_ne,
    h.generation, h.reason]

/-- A diagnosis other than the one that blocks the Run is refused. -/
lemma Frozen.quarantine_other (h : Frozen s v cur journal) {v' : ExecutionQuarantine}
    (hrun : v'.runID = v.runID) (hne : v' ≠ v) {res : Except KernelError Unit}
    (hstep : StoreStep H env s (.quarantineExecution v') res s') :
    (∃ e, res = .error e) ∧ s' = s := by
  cases hstep with
  | fail _ e => exact ⟨⟨e, rfl⟩, rfl⟩
  | quarantineAgain _ cur' _ hrec hrev _ _ hgen hcode =>
    rw [hrun] at hrec hgen hcode
    obtain rfl : cur = cur' := some.inj (h.record.symm.trans hrec)
    refine absurd ?_ hne
    obtain ⟨_, _, _, _⟩ := v
    obtain ⟨_, _, _, _⟩ := v'
    simp only [ExecutionQuarantine.mk.injEq]
    exact ⟨hrun, hrev.symm.trans h.revision, hgen.symm.trans h.generation,
      hcode.symm.trans h.reason⟩
  | quarantineExecution _ _ _ _ _ _ _ hclear =>
    exact absurd (hrun ▸ hclear) h.block_ne

/-- **Quarantine freeze.**  Let `QuarantineExecution` succeed with `v`.  As long as
no repair with exactly `v` is called and no cancel or deadline control ends the
Run, its snapshot and journal stay as they are, its execution cannot be acquired,
no token of it is honoured, repeating `v` is a no-op and any other diagnosis is
refused.  A lease handed out before is never honoured again, repair or not. -/
theorem quarantine_freeze (H : Hashing) (w w₁ : World) (env : Env) (v : ExecutionQuarantine)
    (hw : World.Reachable H w) (h : w.perform H env (.quarantineExecution v) = (.ok (), w₁)) :
    ∃ cur, w.store.records v.runID = some cur ∧ cur.run.revision = v.revision ∧
      (∀ w₂, World.LaterAvoiding H (Unblocks v) w₁ w₂ →
        w₂.store.records v.runID = some cur ∧
        w₂.store.events v.runID = w.store.events v.runID ∧
        (∀ env r lease w₃, r.runID = v.runID →
          w₂.perform H env (.acquireExecution r) ≠ (.ok lease, w₃)) ∧
        (∀ now t, t.runID = v.runID → ¬ Honoured w₂.store now t) ∧
        (∀ env, (w₂.perform H env (.quarantineExecution v)).1 = .ok () ∧
          (w₂.perform H env (.quarantineExecution v)).2.store = w₂.store) ∧
        ∀ env v', v'.runID = v.runID → v' ≠ v →
          (∃ e, (w₂.perform H env (.quarantineExecution v')).1 = .error e) ∧
          (w₂.perform H env (.quarantineExecution v')).2.store = w₂.store) ∧
      ∀ w₂ now, World.Later H w₁ w₂ → ∀ l ∈ w.issued, l.runID = v.runID →
        ¬ Honoured w₂.store now l := by
  obtain ⟨cur, hrec, hfrozen⟩ := frozen_of_quarantine hw h
  refine ⟨cur, hrec, hfrozen.revision, ?_, ?_⟩
  · intro w₂ hl
    have hf := hfrozen.later hl
    refine ⟨hf.record, hf.journal, ?_, ?_, ?_, ?_⟩
    · intro _ r _ w₃ hrun hok
      have hs := World.perform_sound hok
      generalize w₃.store = s' at hs
      cases hs with
      | acquireExecution _ _ _ _ _ hclear => exact hf.block_ne (hrun ▸ hclear)
    · intro _ t hrun
      exact hf.not_honoured H hrun
    · intro _
      have hagain := hf.quarantine_again
      exact ⟨congrArg Prod.fst hagain, congrArg Prod.snd hagain⟩
    intro env v' hrun hne
    have hs : StoreStep H env w₂.store (.quarantineExecution v') _ _ := step_sound rfl
    exact hf.quarantine_other hrun hne hs
  · intro _ _ hl l hissued hrun
    have hretires : Retires H l w w₁ := .quarantined ⟨l, hissued, rfl⟩ hrun.symm h
    have hreach : World.Reachable H w₁ := hw.tail ⟨env, _, congrArg Prod.snd h.symm⟩
    exact ((hretires.retired hw).later hreach hl).not_honoured H

/-- The diagnosis of the concrete run below. -/
def sampleQuarantine : ExecutionQuarantine := ⟨lit "r", 1, 5, lit "poison"⟩

/-- The lease of the concrete run is dead after quarantine and repair. -/
theorem quarantine_freeze_repaired :
    Honoured sampleAcquired.store 3 sampleLease ∧
    ¬ Honoured (sampleAcquired.runAll .sample
      [(⟨3, none⟩, .quarantineExecution sampleQuarantine),
       (⟨3, none⟩, .repairExecutionQuarantine sampleQuarantine)]).store 3 sampleLease := by
  have hreach : World.Reachable .sample sampleAcquired := World.runAll_later _ _
  have hok : sampleAcquired.perform .sample ⟨3, none⟩ (.quarantineExecution sampleQuarantine) =
      (.ok (), sampleAcquired.runAll .sample
        [(⟨3, none⟩, .quarantineExecution sampleQuarantine)]) := Prod.ext rfl rfl
  refine ⟨.inr (.inl ⟨lit "r", by rfl⟩), ?_⟩
  obtain ⟨_, -, -, -, hdead⟩ := quarantine_freeze .sample sampleAcquired _ _ _ hreach hok
  exact hdead _ 3
    (World.runAll_later [(⟨3, none⟩, .repairExecutionQuarantine sampleQuarantine)] _)
    sampleLease (by decide) rfl

end Memory
