/-
The life of a Run under concurrent Runtimes.

Every Runtime validates on a snapshot it has read and commits later, through one
of four paths; between the two anybody may have committed.  The proof is
rely–guarantee: each thread promises that its calls are `Guarded`, and may rely on
everybody else's calls being guarded too.  A thread that reads `cur` knows from
then on that `cur` is one of the Run's committed snapshots; if its commit succeeds
then the revision is still that of `cur`, so `cur` is still the current snapshot,
and what was validated on it is valid.

* **`serve_safe`** — so does the whole system;
* **`run_lifecycle`** — the invariants of every Run in every interleaving.
-/
import AgentRuntime.RunHistory

namespace Kernel

open GoString Memory Interleaving Relation List

/-! ### Disciplines -/

/-- What the Runtimes agree on: the mutations they may commit to a Run, and an
invariant that guarded calls maintain. -/
structure Discipline (H : Hashing) where
  Permits : World → GoString → Mutation → Prop
  /-- Mutations without retained proofs are always permitted. -/
  plain : ∀ w id m, hasReservedApplyEvidence m.events = false → Permits w id m
  Holds : World → Prop
  holds_step : ∀ {w : World} {env : Env} {op : StoreOp} {res : op.Res} {s' : Store}, Coherent w →
    Holds w → Guarded Permits w op → StoreStep H env w.store op res s' →
    Holds ⟨s', ⟨op, res⟩ :: w.log⟩

variable {H : Hashing}

/-- The discipline as a protocol of threads. -/
def Discipline.protocol (D : Discipline H) : Protocol World where
  Inv w := Coherent w ∧ D.Holds w
  Guar w w' := w' = w ∨ ∃ env op, Guarded D.Permits w op ∧ w' = (w.perform H env op).2
  inv_of_guar := by
    rintro w w' ⟨hcoherent, hholds⟩ (rfl | ⟨env, op, hguarded, rfl⟩)
    · exact ⟨hcoherent, hholds⟩
    have hs : StoreStep H env w.store op (w.perform H env op).1 (w.perform H env op).2.store :=
      step_sound rfl
    exact ⟨hcoherent.step hguarded hs, D.holds_step hcoherent hholds hguarded hs⟩

/-- Only the stories. -/
def Discipline.free (H : Hashing) : Discipline H where
  Permits _ _ _ := True
  plain _ _ _ _ := trivial
  Holds _ := True
  holds_step _ _ _ _ := trivial

variable {D : Discipline H} {α β : Type} {Q : α → World → Prop} {K : World → Prop} {w w' : World}
  {id runID : GoString} {op : StoreOp} {k : Except KernelError Snapshot → KProg H α} {m : Mutation}
  {rev : UInt64}

lemma stable_known (D : Discipline H) (id : GoString) (snap : Snapshot) :
    D.protocol.Stable (Known id snap) := by
  rintro w _ - ⟨c, hc, hsnap⟩ (rfl | ⟨_, _, -, rfl⟩)
  · exact ⟨c, hc, hsnap⟩
  · exact ⟨c, (commitsOf_suffix w _ _ id).subset hc, hsnap⟩

lemma stable_true (D : Discipline H) : D.protocol.Stable fun _ => True := fun _ _ _ _ _ => trivial

/-! ### Rules for the calls of a Runtime -/

/-- The program keeps to the discipline, whatever it returns. -/
abbrev Quiet (D : Discipline H) (p : KProg H α) (w : World) : Prop :=
  Safe D.protocol (fun _ _ => True) p w

lemma quiet_pure (a : α) : Quiet D (pure a) w := fun _ _ _ => trivial

lemma quiet_bind {p : KProg H α} {f : α → KProg H β} (hI : D.protocol.Inv w) (hp : Quiet D p w)
    (hf : ∀ a w, D.protocol.Inv w → Quiet D (f a) w) : Quiet D (p >>= f) w :=
  Safe.bind hI hp fun a w hI _ => hf a w hI

section Knowing

variable (hK : D.protocol.Stable K) (hI : D.protocol.Inv w) (hw : K w)

include hK hI hw

/-- A call of the Store, with the knowledge `K` gathered before. -/
lemma safe_perform {k : op.Res → KProg H α}
    (hguarded : ∀ w, D.protocol.Inv w → K w → Guarded D.Permits w op)
    (hk : ∀ w env, D.protocol.Inv w → K w → D.protocol.Inv (w.perform H env op).2 →
      K (w.perform H env op).2 →
      Safe D.protocol Q (k (w.perform H env op).1) (w.perform H env op).2) :
    Safe D.protocol Q (callStore op >>= k) w := by
  refine Safe.call hK hI hw ?_
  rintro w1 hI1 hw1 _ _ ⟨env, hperform⟩
  cases hperform
  have hguar : D.protocol.Guar w1 (w1.perform H env op).2 :=
    .inr ⟨env, op, hguarded w1 hI1 hw1, rfl⟩
  exact ⟨hguar, hk w1 env hI1 hw1 (D.protocol.inv_of_guar hI1 hguar) (hK hI1 hw1 hguar)⟩

lemma quiet_callStore (hguarded : ∀ w, D.protocol.Inv w → K w → Guarded D.Permits w op) :
    Quiet D (callStore op) w :=
  safe_perform hK hI hw hguarded fun _ _ _ _ _ _ => quiet_pure _

lemma safe_readClock {k : Time → KProg H α}
    (hk : ∀ now w, D.protocol.Inv w → K w → Safe D.protocol Q (k now) w) :
    Safe D.protocol Q (readClock >>= k) w := by
  refine Safe.call hK hI hw ?_
  rintro _ hI1 hw1 now w2 rfl
  exact ⟨.inl rfl, hk now w2 hI1 hw1⟩

/-- Loading a Run teaches one of its committed snapshots. -/
lemma safe_load
    (herr : ∀ e w, D.protocol.Inv w → K w → Safe D.protocol Q (k (.error e)) w)
    (hok : ∀ cur w, D.protocol.Inv w → K w → Known id cur w → Safe D.protocol Q (k (.ok cur)) w) :
    Safe D.protocol Q (callStore (.load id) >>= k) w := by
  refine safe_perform hK hI hw (fun _ _ _ => trivial) ?_
  intro w1 _ hI1 _ hI2 hw2
  show Safe D.protocol Q (k (load w1.store id)) _
  rcases hrec : w1.store.records id with _ | cur
  · rw [load, hrec]
    exact herr _ _ hI2 hw2
  rw [load, hrec]
  refine hok cur _ hI2 hw2 ?_
  obtain ⟨c, hc, hsnap⟩ := hI1.1.known hrec
  exact ⟨c, (commitsOf_suffix w1 _ _ id).subset hc, hsnap⟩

lemma safe_loadRun
    (herr : ∀ e w, D.protocol.Inv w → K w → Safe D.protocol Q (k (.error e)) w)
    (hok : ∀ cur w, D.protocol.Inv w → K w → Known (trimSpace runID) cur w →
      Safe D.protocol Q (k (.ok cur)) w) :
    Safe D.protocol Q (loadRun runID >>= k) w := by
  by_cases hblank : trimSpace runID = []
  · rw [loadRun, if_pos hblank]
    exact herr _ w hI hw
  · rw [loadRun, if_neg hblank]
    exact safe_load hK hI hw herr hok

end Knowing

lemma quiet_free (hI : D.protocol.Inv w)
    (hfree : ∀ w, Guarded D.Permits w op) : Quiet D (callStore op) w :=
  quiet_callStore (stable_true D) hI trivial fun w _ _ => hfree w

/-! ### The methods keep to the discipline -/

/-- A replacement made from a snapshot that was read is derived from the current
one whenever it can be committed. -/
lemma derived_of_known {cur : Snapshot} {now : Time}
    (hI : D.protocol.Inv w) (hknown : Known id cur w) (hvalid : validateMutation cur m = .ok ())
    (hpermits : ∀ cur', w.store.records id = some cur' →
      cur'.run.revision = cur.run.revision → D.Permits w id m) :
    Derived D.Permits w id cur.run.revision (makeStoreMutation now cur m) := by
  intro _ hcur' hrev
  obtain rfl := hknown.eq hI.1 hcur' hrev
  exact ⟨now, m, validateMutation_ok hvalid, rfl, hpermits _ hcur' rfl⟩

/-- An identifier may be passed on as given: only trimmed ones name a Run. -/
lemma Derived.untrimmed {sm : StoreMutation} (h : Derived D.Permits w (trimSpace runID) rev sm)
    (hI : D.protocol.Inv w) : Derived D.Permits w runID rev sm := by
  intro cur hcur
  obtain ⟨p, l, hl, -⟩ := hI.1.newest hcur
  have htrim : trimSpace runID = runID := hI.1.trimmed runID (by simp [hl])
  rw [htrim] at h
  exact h cur hcur

theorem applyMutation_quiet {handle : Handle}
    {evidence : Bool} (hK : D.protocol.Stable K) (hI : D.protocol.Inv w) (hw : K w)
    (hpermits : evidence = true → ∀ w cur, D.protocol.Inv w → K w →
      w.store.records (trimSpace runID) = some cur → cur.run.revision = rev →
      D.Permits w (trimSpace runID) m) :
    Quiet D (applyMutation handle runID rev m evidence) w := by
  rw [applyMutation]
  split
  · exact quiet_pure _
  rename_i hinput
  split
  · exact quiet_pure _
  rename_i hevidence
  split
  · exact quiet_pure _
  rename_i hbound
  simp only [not_or] at hinput
  refine safe_load hK hI hw (fun e w _ _ => quiet_pure _) ?_
  intro cur _ hI1 hw1 hknown
  dsimp only
  split
  · exact quiet_pure _
  rename_i hrev
  obtain rfl : cur.run.revision = rev := by simpa using hrev
  split
  · exact quiet_pure _
  rename_i hvalid
  have hK2 := hK.and (stable_known D (trimSpace runID) cur)
  refine safe_readClock hK2 hI1 ⟨hw1, hknown⟩ ?_
  rintro now _ hI2 ⟨hw2, hknown2⟩
  -- if the commit succeeds, the snapshot that was validated is the current one
  have hderived : ∀ w, D.protocol.Inv w → K w ∧ Known (trimSpace runID) cur w →
      Derived D.Permits w (trimSpace runID) cur.run.revision (makeStoreMutation now cur m) := by
    rintro w hI ⟨hw, hknown⟩
    refine derived_of_known hI hknown hvalid fun cur' hcur' hrev' => ?_
    cases evidence with
    | true => exact hpermits rfl w cur' hI hw hcur' hrev'
    | false => exact D.plain _ _ _ (by simpa using hevidence)
  rw [commitMutation]
  split
  · rename_i lease hlease
    have hrun : lease.runID = trimSpace runID := by
      simp [Handle.validBoundRun, hlease] at hbound
      exact hbound.2
    refine quiet_callStore hK2 hI2 ⟨hw2, hknown2⟩ fun w hI hw => ?_
    show Derived D.Permits w lease.runID _ _
    rw [hrun]
    exact hderived w hI hw
  · exact quiet_callStore hK2 hI2 ⟨hw2, hknown2⟩ fun w hI hw =>
      ⟨hinput.2, (hderived w hI hw).untrimmed hI⟩

theorem applyControl_quiet (handle : Handle) (runID : GoString) (rev : UInt64)
    (guard : ControlGuard) (m : Mutation) (permit : Option Proof) (hI : D.protocol.Inv w) :
    Quiet D (applyControl handle runID rev guard m permit) w := by
  rw [applyControl]
  split
  · exact quiet_pure _
  rename_i hinput
  simp only [not_or, Bool.not_eq_true] at hinput
  refine safe_loadRun (stable_true D) hI trivial (fun e w _ _ => quiet_pure _) ?_
  intro cur _ hI1 _ hknown
  dsimp only
  split
  · exact quiet_pure _
  rename_i hrev
  obtain rfl : cur.run.revision = rev := by simpa using hrev
  split
  · exact quiet_pure _
  rename_i hvalid
  have hK := stable_known D (trimSpace runID) cur
  refine safe_readClock hK hI1 hknown fun now w2 hI2 hknown2 => ?_
  refine safe_readClock hK hI2 hknown2 fun storeNow w3 hI3 hknown3 => ?_
  split
  · exact quiet_pure _
  refine quiet_bind hI3 (quiet_callStore hK hI3 hknown3 fun w hI hknown => ?_) ?_
  · exact (derived_of_known hI hknown hvalid fun _ _ _ => D.plain w _ m hinput.2).untrimmed hI
  · rintro (e | _) w _
    all_goals exact quiet_pure _

lemma cancel_quiet (runID : GoString) (rev : UInt64) (reason : GoString)
    (hI : D.protocol.Inv w) : Quiet D (cancel runID rev reason) w := by
  refine safe_loadRun (stable_true D) hI trivial (fun e w _ _ => quiet_pure _) ?_
  intro _ _ hI1 _ _
  dsimp only
  split
  · exact quiet_pure _
  refine quiet_bind hI1 (applyControl_quiet _ _ _ _ _ _ hI1) ?_
  rintro (e | _) w _
  all_goals exact quiet_pure _

lemma expire_quiet (runID : GoString) (rev : UInt64) (hI : D.protocol.Inv w) :
    Quiet D (expire runID rev) w := by
  refine safe_loadRun (stable_true D) hI trivial (fun e w _ _ => quiet_pure _) ?_
  intro _ _ hI1 _ _
  dsimp only
  split
  · exact quiet_pure _
  split
  · exact quiet_pure _
  refine safe_readClock (stable_true D) hI1 trivial fun now w2 hI2 _ => ?_
  split
  · exact quiet_pure _
  refine quiet_bind hI2 (applyControl_quiet _ _ _ _ _ _ hI2) ?_
  rintro (e | _) w _
  all_goals exact quiet_pure _

lemma createWithID_quiet {r : CreateRequest} (htrim : trimSpace runID = runID)
    (hevents : hasReservedApplyEvidence r.events = false) (hI : D.protocol.Inv w) :
    Quiet D (createWithID r runID) w := by
  refine safe_readClock (stable_true D) hI trivial fun now w1 hI1 _ => ?_
  have hcall : Quiet D (callStore (.create (createRecord r runID now) (createEvents r))) w1 := by
    refine quiet_free hI1 fun w => ⟨htrim, ?_, r, runID, now, rfl⟩
    have hfirst : (lit "run.created" == identifiedApplyEventType) = false := by decide
    rwa [createEvents, hasReservedApplyEvidence, any_cons, hfirst]
  split
  · split
    · exact quiet_pure _
    · exact hcall
  · exact hcall

lemma create_quiet (r : CreateRequest) (hI : D.protocol.Inv w) : Quiet D (create r) w := by
  rw [create]
  split
  · exact quiet_pure _
  rename_i hinput
  simp only [not_or, Bool.not_eq_true] at hinput
  split
  · refine Safe.call (stable_true D) hI trivial ?_
    rintro _ hI1 - res _ ⟨rfl, htrim⟩
    refine ⟨.inl rfl, ?_⟩
    cases res with
    | error => exact quiet_pure _
    | ok runID => exact createWithID_quiet (htrim runID rfl) hinput.2 hI1
  · exact createWithID_quiet (trimSpace_idem _) hinput.2 hI

lemma loadRun_quiet (runID : GoString) (hI : D.protocol.Inv w) : Quiet D (loadRun runID) w := by
  rw [loadRun]
  split
  · exact quiet_pure _
  · exact quiet_free hI fun _ => trivial

lemma listRunEvents_quiet (runID : GoString) (afterSeq limit : ℤ) (hI : D.protocol.Inv w) :
    Quiet D (listRunEvents runID afterSeq limit) w := by
  rw [listRunEvents]
  split
  · exact quiet_pure _
  · exact quiet_free hI fun _ => trivial

lemma scanPages_quiet {operationID hash : GoString} {head : ℕ} (rounds : ℕ)
    {after : ℕ} {matched : Bool} (hI : D.protocol.Inv w) :
    Quiet D (scanPages runID head operationID rev hash rounds after matched) w := by
  induction rounds generalizing after matched w with
  | zero => exact quiet_pure _
  | succ _ ih =>
    rw [scanPages]
    split
    · exact quiet_pure _
    refine quiet_bind hI (listRunEvents_quiet _ _ _ hI) ?_
    rintro (e | _) w hI'
    · exact quiet_pure _
    dsimp only
    split
    · exact quiet_pure _
    split
    · exact quiet_pure _
    · exact ih hI'

lemma verifyIdentifiedApply_quiet (runID : GoString) (rev : UInt64) (operationID : GoString)
    (m : Mutation) (hI : D.protocol.Inv w) :
    Quiet D (verifyIdentifiedApply runID rev operationID m) w := by
  rw [verifyIdentifiedApply]
  split
  · exact quiet_pure _
  split
  · exact quiet_pure _
  refine quiet_bind hI (loadRun_quiet _ hI) ?_
  rintro (e | _) _ hI1
  · exact quiet_pure _
  dsimp only
  split
  · exact quiet_pure _
  refine quiet_bind hI1 (scanPages_quiet _ hI1) ?_
  rintro (e | matched) _ _
  · exact quiet_pure _
  cases matched with
  | true | false => dsimp only; split <;> exact quiet_pure _

lemma applyIdentified_quiet (handle : Handle) (runID : GoString) (rev : UInt64)
    (operationID : GoString) (m : Mutation) (hpermits : ∀ w id m, D.Permits w id m)
    (hI : D.protocol.Inv w) : Quiet D (applyIdentified handle runID rev operationID m) w := by
  rw [applyIdentified]
  split
  · exact quiet_pure _
  split
  · exact quiet_pure _
  refine quiet_bind hI (verifyIdentifiedApply_quiet _ _ _ _ hI) ?_
  rintro (e | ⟨status, _, _⟩) _ hI1
  · exact quiet_pure _
  cases status with
  | committed => exact quiet_pure _
  | retryableCAS =>
    exact applyMutation_quiet (stable_true D) hI1 trivial fun _ w _ _ _ _ _ => hpermits w _ _

/-! ### The whole system -/

/-- Every call keeps to the discipline, if identified commits do. -/
lemma serve_quiet {q : Request} (hidentified : ∀ handle runID rev operationID m,
      q = .applyIdentified handle runID rev operationID m →
      Quiet D (applyIdentified handle runID rev operationID m) w)
    (hI : D.protocol.Inv w) : Quiet D (serve q) w := by
  have hanswer : ∀ {γ : Type} {p : KProg H γ} {f : γ → Answer}, Quiet D p w →
      Quiet D (do return f (← p)) w :=
    fun hp => quiet_bind hI hp fun _ _ _ => quiet_pure _
  -- a check in front of one call of the Store
  have hchecked : ∀ {c : Prop} [Decidable c] {op : StoreOp} {e : KernelError},
      (∀ w, Guarded D.Permits w op) →
      Quiet D (if c then pure (.error e) else callStore op : KProg H op.Res) w := by
    intro c _ _ e hfree
    split
    · exact quiet_pure _
    · exact quiet_free hI hfree
  cases q with
  | create r => exact hanswer (create_quiet r hI)
  | load runID => exact hanswer (loadRun_quiet runID hI)
  | listEvents => exact hanswer (listRunEvents_quiet _ _ _ hI)
  | apply =>
    exact hanswer (applyMutation_quiet (stable_true D) hI trivial (by simp))
  | applyIdentified handle runID rev operationID m =>
    exact hanswer (hidentified handle runID rev operationID m rfl)
  | verifyIdentifiedApply =>
    exact hanswer (verifyIdentifiedApply_quiet _ _ _ _ hI)
  | applyControl =>
    exact hanswer (applyControl_quiet _ _ _ _ _ _ hI)
  | cancel => exact hanswer (cancel_quiet _ _ _ hI)
  | expire => exact hanswer (expire_quiet _ _ hI)
  | acquireExecution | renewExecution | releaseExecution | quarantineExecution
  | repairExecutionQuarantine =>
    exact hanswer (hchecked fun _ => trivial)
  | requireExecution =>
    refine hanswer ?_
    rw [requireExecution]
    split
    · exact quiet_pure _
    · exact hchecked fun _ => trivial
  | claimTransitions | ackTransition | retryTransition =>
    exact hanswer (quiet_free hI fun _ => trivial)

/-- A discipline without restrictions on mutations holds in every interleaving. -/
lemma Discipline.sound (hpermits : ∀ w id m, D.Permits w id m)
    (hempty : D.Holds {}) {c c' : System H} (hreach : c.Reachable) (hlater : c.Later c') :
    D.protocol.Inv c.shared ∧ D.protocol.Later c.shared c'.shared := by
  have hcode : ∀ (q : Request) (w : World), D.protocol.Inv w →
      Safe D.protocol ((fun _ _ _ _ => True : Request → World → Answer → World → Prop) q w)
        (serve q) w :=
    fun q w hI => serve_quiet (fun _ _ _ _ _ _ => applyIdentified_quiet _ _ _ _ _ hpermits hI) hI
  obtain ⟨-, hsafe⟩ := reachable_safe hcode ⟨coherent_empty, hempty⟩ hreach
  exact ⟨hsafe.inv, (hsafe.steps hcode hlater).1⟩

lemma commitsOf_suffix_of_later {w : World} (h : D.protocol.Later w w')
    (id : GoString) : w.commitsOf id <:+ w'.commitsOf id := by
  induction h with
  | refl => exact suffix_refl _
  | tail _ hguar ih =>
    rcases hguar with rfl | ⟨_, _, -, rfl⟩
    · exact ih
    · exact ih.trans (commitsOf_suffix _ _ _ id)

/-- Nothing is committed to a Run after a terminal commit. -/
lemma terminal_final {w : World} (hw : Coherent w) (hw' : Coherent w')
    (hgrow : w.commitsOf id <:+ w'.commitsOf id) {snap : Snapshot}
    (hcur : w.store.records id = some snap) (hterminal : snap.run.status.terminal = true) :
    w'.commitsOf id = w.commitsOf id := by
  obtain ⟨p, l, hl, rfl⟩ := hw.newest hcur
  rw [hl] at hgrow ⊢
  obtain ⟨newer, hnewer⟩ := hgrow
  obtain _ | ⟨d, _⟩ := newer
  · exact hnewer.symm
  -- the terminal commit would have a successor
  have hstory := hw'.story id
  rw [← hnewer] at hstory
  have hactive : p.snapshot.run.status.terminal = false := hstory.active (by simp)
  rw [hactive] at hterminal
  simp at hterminal

lemma LifeStory.numbering {l : List Commit} (h : LifeStory id l) (hlen : l.length < 2 ^ 64) :
    l.reverse.map (fun k => k.snapshot.run.revision.toNat) = range' 1 l.length := by
  induction l with
  | nil => rfl
  | cons c l ih =>
    simp only [length_cons] at hlen
    have hrev : c.snapshot.run.revision.toNat = 1 + l.length := by
      rw [h.revision, UInt64.toNat_ofNat', Nat.mod_eq_of_lt hlen, Nat.add_comm]
    rw [reverse_cons, map_append, ih h.tail (by omega), map_singleton, hrev,
      length_cons, range'_1_concat]

/-- **The life of a Run.**  Whatever Runtimes and workers do, in whatever order:
the commits of a Run number its revisions from 1 on, one by one; they all carry
the same identity; each has a result exactly when it completes the Run, an end
exactly when it is terminal, and a pending checkpoint when it waits for input.
The Store shows the newest commit and the journal of all of them, and a terminal
Run never changes again. -/
theorem run_lifecycle (H : Hashing) (c c' : System H) (id : GoString) (hreach : c.Reachable)
    (hlater : c.Later c') :
    ((c.shared.commitsOf id).length < 2 ^ 64 →
      (c.shared.commitsOf id).reverse.map (fun k => k.snapshot.run.revision.toNat) =
        List.range' 1 (c.shared.commitsOf id).length) ∧
    c.shared.store.records id = (c.shared.commitsOf id).head?.map Commit.snapshot ∧
    c.shared.store.events id = journalOf (c.shared.commitsOf id) ∧
    (∀ k ∈ c.shared.commitsOf id, k.snapshot.run.id = id ∧
      (∀ k' ∈ c.shared.commitsOf id, sameRunIdentity k.snapshot.run k'.snapshot.run) ∧
      (k.snapshot.result.isSome ↔ k.snapshot.run.status = .completed) ∧
      (k.snapshot.run.endedAt.isSome ↔ k.snapshot.run.status.terminal = true) ∧
      (k.snapshot.run.status = .waitingInput →
        ∃ checkpoint, k.snapshot.checkpoint = some checkpoint ∧ checkpoint.status = .pending)) ∧
    c.shared.commitsOf id <:+ c'.shared.commitsOf id ∧
    (∀ snap, c.shared.store.records id = some snap → snap.run.status.terminal = true →
      c'.shared.store.records id = some snap ∧
      c'.shared.store.events id = c.shared.store.events id) := by
  have hsound := @Discipline.sound H (.free H) (fun _ _ _ => trivial) trivial
  obtain ⟨⟨hw, -⟩, hgrow⟩ := hsound hreach hlater
  obtain ⟨⟨hw', -⟩, -⟩ := hsound (hreach.trans hlater) .refl
  have hsuffix := commitsOf_suffix_of_later hgrow id
  refine ⟨(hw.story id).numbering, hw.records id, hw.events id, ?_, hsuffix, ?_⟩
  · intro k hk
    obtain ⟨_, hstory, -⟩ := (hw.story id).of_mem hk
    have hwf := hstory.wellFormed
    exact ⟨(hw.story id).run_id hk, fun k' hk' => (hw.story id).identity hk hk', hwf.result_iff,
      hwf.ended_iff, hwf.pending⟩
  intro _ hcur hterminal
  have hsame := terminal_final hw hw' hsuffix hcur hterminal
  refine ⟨?_, ?_⟩
  · rw [hw'.records, hsame, ← hw.records, hcur]
  · rw [hw'.events, hsame, ← hw.events]

/-- A Run that is created and cancelled. -/
def sampleCancelled : System .sample :=
  let created : System .sample := System.serveAt ⟨{}, []⟩ 1 (.create
    { id := lit "r", kind := lit "agent", actor := ⟨lit "t", lit "a"⟩, thread := ⟨lit "k", lit "i"⟩,
      goal := lit "g", state := lit "0" })
  created.serveAt 2 (.cancel (lit "r") 1 (lit "enough"))

/-- Two commits, the second terminal; an `Apply` at its revision changes nothing. -/
theorem run_lifecycle_cancelled :
    (sampleCancelled.shared.commitsOf (lit "r")).reverse.map
      (fun k => k.snapshot.run.revision.toNat) = [1, 2] ∧
    (sampleCancelled.serveAt 3 (.apply {} (lit "r") 2 { status := .running, state := lit "1" })
      ).shared.store.records (lit "r") = sampleCancelled.shared.store.records (lit "r") := by
  have hreach : sampleCancelled.Reachable :=
    (System.later_serveAt _ _ _).trans (System.later_serveAt _ _ _)
  have hlater := System.later_serveAt sampleCancelled 3
    (.apply {} (lit "r") 2 { status := .running, state := lit "1" })
  obtain ⟨hnumbers, _, -, -, -, hfinal⟩ :=
    run_lifecycle .sample sampleCancelled _ (lit "r") hreach hlater
  refine ⟨hnumbers (by decide), ?_⟩
  obtain ⟨snap, hsnap, hterminal⟩ : ∃ snap, sampleCancelled.shared.store.records (lit "r") = some snap ∧
      snap.run.status.terminal = true := ⟨_, rfl, by decide⟩
  rw [(hfinal snap hsnap hterminal).1, hsnap]

end Kernel
