/-
The revisions of Workflow Runs, over all interleavings of all callers.

A Runner computes the next state from a snapshot, and its commit counts only if that
snapshot is still the newest one.  So the revisions of a Run form a chain in which every
revision comes from the one before it by one change, whatever other callers did in
between.

* `Commits`, `History` — the chain of revisions; `History.induct` is its induction rule;
* `Sane`, `runnerProtocol` — the invariant of the whole system, and what its threads do;
* `safe_apply`, `safe_newID`, `safe_execute`, `safe_load`, `safe_create` — the rules for the
  calls of a Runner;
* `Observes` — what the loop over the observations of a batch does to the state;
* `Change.cases` — everything that a commit does, it does after observations.
-/
import AgentRuntime.WorkflowMoves

namespace Workflow

open GoString GoJson Relation Interleaving List
open Kernel (RawMessage RunStatus)

/-! ### Chains of revisions -/

/-- How a commit leaves the Run. -/
inductive Ends (m : Mutation) : Prop
  | running (h : m.status = .running)
  | waiting (h : m.status = .waitingInput)
  | completed (h : m.status = .completed) (hfailure : m.state.failure = none)
  /-- The Run ends as its failure asks for: everything is undone, or an undo has failed. -/
  | failed (f : FailureIntent) (hf : m.state.failure = some f) (hstatus : m.status = f.terminalStatus)
      (hcode : m.errorCode = f.code)
      (hdone : f.code = lit "workflow.compensation_failed" ∨
        ∀ c ∈ m.state.compensations, c.status = .completed)

/-- One commit. -/
structure Commits (current : Snapshot) (m : Mutation) : Prop where
  transition : Kernel.validTransition current.status m.status = true
  change : Change current.state m.state
  ends : Ends m

/-- The state of a new Run. -/
def Started (s : State) : Prop :=
  ∃ (definition : Definition) (input : RawMessage) (depth : ℤ),
    definition.toDefinitionDraft.Sound ∧ s = { definition, input, nestedDepth := depth }

/-- The revisions of one Run, newest first. -/
inductive History (runID : GoString) : List Snapshot → Prop
  | nil : History runID []
  | create (r : CreateRequest) (h : Started r.state) : History runID [r.snapshot runID]
  | commit {current : Snapshot} {older : List Snapshot} (m : Mutation)
      (h : History runID (current :: older)) (hcommit : Commits current m) :
      History runID (current.commit m :: current :: older)

namespace History

variable {runID : GoString} {l : List Snapshot} {snap other : Snapshot}

lemma tail (h : History runID (snap :: l)) : History runID l := by
  cases h with
  | create => exact .nil
  | commit _ h => exact h

lemma runID_eq (h : History runID l) (hmem : snap ∈ l) : snap.runID = runID := by
  induction h generalizing snap with
  | nil => cases hmem
  | create =>
    obtain rfl := mem_singleton.mp hmem
    rfl
  | @commit current _ _ _ _ ih =>
    rcases mem_cons.mp hmem with rfl | hmem
    · exact (ih mem_cons_self : current.runID = runID)
    · exact ih hmem

/-- What a new Run has, and every commit, the newest revision has. -/
@[elab_as_elim]
theorem newest {P : Snapshot → List Snapshot → Prop} (h : History runID (snap :: l))
    (hstart : ∀ r : CreateRequest, Started r.state → P (r.snapshot runID) [])
    (hcommit : ∀ {current older} m, History runID (current :: older) → Commits current m →
      P current older → P (current.commit m) (current :: older)) : P snap l := by
  generalize hl : snap :: l = all at h
  induction h generalizing snap l with
  | nil => cases hl
  | create r hr =>
    cases hl
    exact hstart r hr
  | commit m h hm ih =>
    cases hl
    exact hcommit m h hm (ih rfl)

lemma revision_lt (h : History runID (snap :: l)) : ∀ old ∈ l, old.revision < snap.revision := by
  refine h.newest (by simp) fun {current _} m _ _ ih => ?_
  have hnext : (current.commit m).revision = current.revision + 1 := rfl
  refine forall_mem_cons.mpr ⟨by omega, fun old hold => ?_⟩
  have := ih old hold
  omega

lemma newest_of_revision (h : History runID (snap :: l)) (hmem : other ∈ snap :: l)
    (hrev : snap.revision = other.revision) : snap = other := by
  rcases mem_cons.mp hmem with rfl | hmem
  · rfl
  · have := h.revision_lt other hmem
    omega

/-- A property that new Runs have and every commit keeps, all revisions have. -/
theorem induct {P : State → Prop} (hstart : ∀ r : CreateRequest, Started r.state →
      P { r.state.stored with definition := r.state.definition.stored })
    (hcommit : ∀ current m, P current.state → Commits current m → P m.state.stored)
    (h : History runID l) : ∀ snap ∈ l, P snap.state := by
  induction h with
  | nil => simp
  | create r hr => exact forall_mem_singleton.mpr (hstart r hr)
  | commit m _ hm ih => exact forall_mem_cons.mpr ⟨hcommit _ m (ih _ mem_cons_self) hm, ih⟩

lemma of_isSuffix {l' : List Snapshot} (h : History runID l)
    (hl : l' <:+ l) : History runID l' :=
  Interleaving.of_suffix (fun _ _ => tail) h hl

lemma shape (h : History runID l) : ∀ snap ∈ l, Shape snap.state := by
  refine h.induct (fun r hr => ?_) fun current m hshape hm => (hm.change.shape hshape).stored
  obtain ⟨_, _, _, -, heq⟩ := hr
  rw [heq]
  exact shape_start _ _ _

end History

/-! ### The invariant of the system -/

/-- The identifiers that a state uses. -/
def State.names (s : State) : List GoString :=
  s.effects.map Effect.id ++ s.activations.map Activation.id

/-- Every Run is a history, its identifiers were given out, and executors were asked about
effects that are pending in some revision. -/
structure Sane (w : World) : Prop where
  history : ∀ runID, History runID (w.runs runID)
  issued : ∀ runID, ∀ snap ∈ w.runs runID, ∀ id ∈ snap.state.names, id ∈ w.issued
  requests : ∀ q ∈ w.requests, ∃ snap ∈ w.runs q.runID, ∃ e ∈ snap.state.effects,
    e.id = q.effectID ∧ e.attempt = q.attempt ∧ e.status = .pending

/-- What the threads do to the world. -/
inductive Moves (w : World) : World → Prop
  | stay : Moves w w
  | issue (id : GoString) : Moves w { w with issued := id :: w.issued }
  | request (q : EffectRequest) (h : ∃ snap ∈ w.runs q.runID, ∃ e ∈ snap.state.effects,
      e.id = q.effectID ∧ e.attempt = q.attempt ∧ e.status = .pending) :
      Moves w { w with requests := q :: w.requests }
  | create (r : CreateRequest) (runID : GoString) (hfree : w.runs runID = []) (h : Started r.state) :
      Moves w (w.push (r.snapshot runID))
  | commit {current : Snapshot} (m : Mutation) (hcurrent : (w.runs current.runID).head? = some current)
      (h : Commits current m) (hnames : ∀ id ∈ m.state.names, id ∈ w.issued) :
      Moves w (w.push (current.commit m))

lemma names_stored (s : State) : s.stored.names = s.names := by
  simp [State.names, State.stored, Effect.stored, Activation.stored, Function.comp_def]

lemma runs_push (w : World) (snap : Snapshot) (runID : GoString) :
    (w.push snap).runs runID = if runID = snap.runID then snap :: w.runs runID else w.runs runID := rfl

variable {w w' : World} {snap : Snapshot} {runID : GoString}

lemma mem_runs_push {old : Snapshot} (h : old ∈ w.runs runID) :
    old ∈ (w.push snap).runs runID := by
  rw [runs_push]
  split
  · exact mem_cons_of_mem _ h
  · exact h

lemma Moves.runs (h : Moves w w') (hmem : snap ∈ w.runs runID) : snap ∈ w'.runs runID := by
  cases h with
  | stay | issue | request => exact hmem
  | create | commit => exact mem_runs_push hmem

lemma Moves.issued (h : Moves w w') {id : GoString} (hmem : id ∈ w.issued) : id ∈ w'.issued := by
  cases h with
  | stay | request | create | commit => exact hmem
  | issue => exact mem_cons_of_mem _ hmem

lemma Sane.push (h : Sane w) (hhistory : History snap.runID (snap :: w.runs snap.runID))
    (hnames : ∀ id ∈ snap.state.names, id ∈ w.issued) : Sane (w.push snap) := by
  refine ⟨fun runID => ?_, fun runID old hold => ?_, fun q hq => ?_⟩
  · rw [runs_push]
    split
    · rename_i heq
      subst heq
      exact hhistory
    · exact h.history runID
  · rw [runs_push] at hold
    split at hold
    · rcases mem_cons.mp hold with rfl | hold
      · exact hnames
      · exact h.issued runID old hold
    · exact h.issued runID old hold
  · obtain ⟨old, hold, hrest⟩ := h.requests q hq
    exact ⟨old, mem_runs_push hold, hrest⟩

lemma Sane.moves (h : Sane w) (hm : Moves w w') : Sane w' := by
  cases hm with
  | stay => exact h
  | issue =>
    exact ⟨h.history, fun runID snap hsnap x hx => mem_cons_of_mem _ (h.issued runID snap hsnap x hx),
      h.requests⟩
  | request _ hq =>
    exact ⟨h.history, h.issued, forall_mem_cons.mpr ⟨hq, h.requests⟩⟩
  | create r runID hfree hr =>
    refine h.push ?_ ?_
    · show History runID (r.snapshot runID :: w.runs runID)
      rw [hfree]
      exact .create r hr
    · obtain ⟨_, _, _, -, heq⟩ := hr
      simp [CreateRequest.snapshot, State.names, State.stored, heq]
  | @commit current m hcurrent hc =>
    obtain ⟨_, hruns⟩ := head?_eq_some_iff.mp hcurrent
    have hhistory := h.history current.runID
    rw [hruns] at hhistory
    refine h.push ?_ ?_
    · show History current.runID (current.commit m :: w.runs current.runID)
      rw [hruns]
      exact .commit m hhistory hc
    show ∀ id ∈ m.state.stored.names, id ∈ w.issued
    rwa [names_stored]

/-- The protocol of the Runner's threads. -/
def runnerProtocol : Protocol World where
  Inv := Sane
  Guar := Moves
  inv_of_guar := Sane.moves

/-- The program keeps to the protocol. -/
abbrev Quiet {α : Type} (p : RProg α) (w : World) : Prop := Safe runnerProtocol (fun _ _ => True) p w

/-- What a thread holds on to: a revision that it has read, and identifiers that it got. -/
def Held (snap : Snapshot) (ids : List GoString) (w : World) : Prop :=
  snap ∈ w.runs snap.runID ∧ ∀ id ∈ ids, id ∈ w.issued

variable {ids : List GoString} {α β : Type} {Q : α → World → Prop}
  {k : Except GoError Snapshot → RProg α} {m : Mutation}

lemma stable_held (snap : Snapshot) (ids : List GoString) : runnerProtocol.Stable (Held snap ids) :=
  fun _ _ _ h hguar => ⟨Moves.runs hguar h.1, fun id hid => Moves.issued hguar (h.2 id hid)⟩

lemma stable_true : runnerProtocol.Stable fun _ => True := fun _ _ _ _ _ => trivial

lemma quiet_ret (a : α) : Quiet (.ret a) w := fun _ _ _ => trivial

lemma quiet_pure (a : α) : Quiet (pure a) w := quiet_ret a

/-- What a thread knows between two of its calls. -/
structure Holding (snap : Snapshot) (ids : List GoString) (w : World) : Prop where
  sane : Sane w
  held : Held snap ids w

lemma Holding.shape (h : Holding snap ids w) : Shape snap.state :=
  (h.sane.history snap.runID).shape snap h.held.1

lemma Holding.moves (h : Holding snap ids w) (hm : Moves w w') : Holding snap ids w' :=
  ⟨h.sane.moves hm, stable_held snap ids h.sane h.held hm⟩

/-- A thread that returns still holds on to what it got. -/
lemma Holding.safe_ret {a : α} (h : Holding snap ids w) (hQ : ∀ w', Held snap ids w' → Q a w') :
    Safe runnerProtocol Q (.ret a : RProg α) w :=
  Safe.ret (stable_held snap ids) h.sane h.held fun w' _ => hQ w'

lemma Holding.ret {P : α → Prop} {a : α} (h : Holding snap ids w) (ha : P a) :
    Safe runnerProtocol (fun r w' => P r ∧ Held snap ids w') (.ret a : RProg α) w :=
  h.safe_ret fun _ hheld => ⟨ha, hheld⟩

/-! ### The calls -/

/-- The names in a state were in the revision that was read, or were got since. -/
abbrev Named (snap : Snapshot) (ids : List GoString) (s : State) : Prop :=
  ∀ id ∈ s.names, id ∈ snap.state.names ∨ id ∈ ids

/-- A commit at the revision that was read. -/
theorem safe_apply (held : Holding snap ids w)
    (hnames : Named snap ids m.state)
    (hchange : Change snap.state m.state) (hends : Ends m)
    (herror : ∀ e w', Holding snap ids w' → Safe runnerProtocol Q (k (.error e)) w')
    (hok : ∀ w', Holding (snap.commit m) [] w' →
      Safe runnerProtocol Q (k (.ok (snap.commit m))) w') :
    Safe runnerProtocol Q (applyRun snap m >>= k) w := by
  refine Safe.call (stable_held snap ids) held.sane held.held fun w1 hw1 hheld1 r w2 hexec => ?_
  rcases hexec with ⟨rfl, e, rfl⟩ | ⟨current, hcurrent, hrev, htransition, rfl, hr⟩
  · exact ⟨.stay, herror e w2 ⟨hw1, hheld1⟩⟩
  -- nobody has committed since: the newest revision is the one that was read
  obtain ⟨_, hruns⟩ := head?_eq_some_iff.mp hcurrent
  have hhistory := hw1.history snap.runID
  have hmem := hheld1.1
  rw [hruns] at hhistory hmem
  obtain rfl := hhistory.newest_of_revision hmem hrev
  have hmove : Moves w1 (w1.push (current.commit m)) :=
    .commit m hcurrent ⟨htransition, hchange, hends⟩ fun id hid =>
      (hnames id hid).elim (hw1.issued _ current hheld1.1 id) (hheld1.2 id)
  refine ⟨hmove, ?_⟩
  rcases hr with rfl | ⟨e, rfl⟩
  · refine hok _ ⟨hw1.moves hmove, ?_, by simp⟩
    rw [runs_push, if_pos rfl]
    exact mem_cons_self
  · exact herror e _ (.moves ⟨hw1, hheld1⟩ hmove)

lemma quiet_commit {f : Except GoError Snapshot → β} (held : Holding snap ids w)
    (hnames : Named snap ids m.state)
    (hchange : Change snap.state m.state) (hends : Ends m) :
    Quiet (do return f (← applyRun snap m)) w :=
  safe_apply held hnames hchange hends (fun _ _ _ => quiet_ret _) fun _ _ => quiet_ret _

/-- An identifier is new to the revision that was read and to those that were got before. -/
theorem safe_newID {k : Except GoError GoString → RProg α} (held : Holding snap ids w)
    (herror : ∀ e w', Holding snap ids w' → Safe runnerProtocol Q (k (.error e)) w')
    (hok : ∀ id w', Holding snap (id :: ids) w' → id ∉ snap.state.names → id ∉ ids →
      Safe runnerProtocol Q (k (.ok id)) w') :
    Safe runnerProtocol Q (newID >>= k) w := by
  refine Safe.call (stable_held snap ids) held.sane held.held fun w1 hw1 hheld1 r w2 hexec => ?_
  rcases hexec with ⟨rfl, e, rfl⟩ | ⟨id, hfresh, -, rfl, rfl⟩
  · exact ⟨.stay, herror e w2 ⟨hw1, hheld1⟩⟩
  have hmove : Moves w1 { w1 with issued := id :: w1.issued } := .issue id
  have held2 : Holding snap ids _ := .moves ⟨hw1, hheld1⟩ hmove
  refine ⟨hmove, hok id _ ⟨held2.sane, held2.held.1,
    forall_mem_cons.mpr ⟨mem_cons_self, held2.held.2⟩⟩ ?_ ?_⟩
  · exact fun hmem => hfresh (hw1.issued _ snap hheld1.1 id hmem)
  · exact fun hmem => hfresh (hheld1.2 id hmem)

/-- An executor is asked about an effect that is pending in the revision that was read. -/
theorem safe_execute {s : State} {e : Effect} {k : Except GoError EffectResult → RProg α}
    (held : Holding snap ids w) (he : e ∈ snap.state.effects) (hpending : e.status = .pending)
    (hk : ∀ r w', Holding snap ids w' → Safe runnerProtocol Q (k r) w') :
    Safe runnerProtocol Q (executeEffect snap s e >>= k) w := by
  refine Safe.call (stable_held snap ids) held.sane held.held fun w1 hw1 hheld1 r w2 hexec => ?_
  obtain rfl := hexec
  have hmove : Moves w1 { w1 with requests := buildEffectRequest snap s.definition e :: w1.requests } :=
    .request _ ⟨snap, hheld1.1, e, he, rfl, rfl, hpending⟩
  exact ⟨hmove, hk r _ (.moves ⟨hw1, hheld1⟩ hmove)⟩

/-- Reading the newest revision. -/
theorem safe_load (hw : Sane w) (herror : ∀ e w', Sane w' → Safe runnerProtocol Q (k (.error e)) w')
    (hok : ∀ snap w', Holding snap [] w' → Safe runnerProtocol Q (k (.ok snap)) w') :
    Safe runnerProtocol Q (ask (.load runID) >>= k) w := by
  refine Safe.call stable_true hw trivial fun w1 hw1 _ r w2 hexec => ?_
  obtain ⟨rfl, ⟨e, rfl⟩ | ⟨snap, hsnap, rfl⟩⟩ := hexec
  · exact ⟨.stay, herror e w2 hw1⟩
  have hmem := mem_of_mem_head? (Option.mem_def.mpr hsnap)
  have hown := (hw1.history _).runID_eq hmem
  exact ⟨.stay, hok snap w2 ⟨hw1, by rw [hown]; exact hmem, by simp⟩⟩

/-- A new Run. -/
theorem safe_create {r : CreateRequest} (hw : Sane w)
    (hr : Started r.state) (herror : ∀ e w', Sane w' → Safe runnerProtocol Q (k (.error e)) w')
    (hok : ∀ snap w', Holding snap [] w' → Safe runnerProtocol Q (k (.ok snap)) w') :
    Safe runnerProtocol Q (ask (.create r) >>= k) w := by
  refine Safe.call stable_true hw trivial fun w1 hw1 _ x w2 hexec => ?_
  rcases hexec with ⟨rfl, e, rfl⟩ | ⟨runID, -, hfree, rfl, hx⟩
  · exact ⟨.stay, herror e w2 hw1⟩
  have hmove : Moves w1 (w1.push (r.snapshot runID)) := .create r runID hfree hr
  refine ⟨hmove, ?_⟩
  rcases hx with rfl | ⟨e, rfl⟩
  · refine hok _ _ ⟨hw1.moves hmove, ?_, by simp⟩
    rw [runs_push, if_pos rfl]
    exact mem_cons_self
  · exact herror e _ (hw1.moves hmove)

/-! ### Settling observations -/

section Settling

variable {s t s₀ : State} {i : ℕ} {e e' : Effect} {result : EffectResult}

/-- Observations touch the effects and the ledger only. -/
structure SameFrame (s t : State) : Prop where
  definition : t.definition = s.definition
  currentNode : t.currentNode = s.currentNode
  activations : t.activations = s.activations
  compensations : t.compensations = s.compensations
  failure : t.failure = s.failure
  names : t.names = s.names

lemma SameFrame.refl (s : State) : SameFrame s s := ⟨rfl, rfl, rfl, rfl, rfl, rfl⟩

lemma SameFrame.trans {u : State} (h : SameFrame s t) (h' : SameFrame t u) : SameFrame s u :=
  ⟨h'.definition.trans h.definition, h'.currentNode.trans h.currentNode,
    h'.activations.trans h.activations, h'.compensations.trans h.compensations,
    h'.failure.trans h.failure, h'.names.trans h.names⟩

lemma Settle.frame {undo : Bool} (h : Settle undo s t i e e') : SameFrame s t := by
  obtain ⟨hfound, -, -, hfollows, rfl⟩ := h
  refine ⟨rfl, rfl, rfl, rfl, rfl, ?_⟩
  rw [State.names, State.names, State.settled, map_set_eq hfound (bare_id hfollows.bare)]

lemma Settles.frame (h : Settles s t) : SameFrame s t := by
  induction h with
  | refl => exact .refl s
  | tail _ hstep ih =>
    obtain ⟨i, e, _, hsettle⟩ := hstep
    exact ih.trans hsettle.frame

lemma Begun.frame (h : Begun s₀ s) : SameFrame s₀ s := by
  rcases h with rfl | ⟨rfl, -⟩
  · exact .refl _
  · exact ⟨rfl, rfl, rfl, rfl, rfl, rfl⟩

lemma Begun.effects (h : Begun s₀ s) : s.effects = s₀.effects := by
  rcases h with rfl | ⟨rfl, -⟩ <;> rfl

/-- A version of a pending effect that is pending leaves the ledger alone. -/
lemma updateEffect_eq (hfound : s.effects[i]? = some e) {f : Effect → Effect}
    (hpending : (f e).status = .pending) : s.updateEffect i f = s.settled i (f e) := by
  rw [State.updateEffect, State.settled, modify_of_getElem? f hfound, Budget.settle, hpending]

lemma failEffect_eq (hfound : s.effects[i]? = some e) (code text : GoString) :
    s.failEffect i code text = s.settled i (e.fail code text) := by
  rw [State.failEffect, hfound]
  dsimp only
  rw [State.updateEffect, modify_of_getElem? _ hfound]
  rfl

lemma completeEffect_eq (hfound : s.effects[i]? = some e) {receive : Effect → Effect} {cost : Int64}
    (hstatus : (receive e).status = .completed) (hcost : (receive e).costUnits = cost)
    (hmax : (receive e).maxCostUnits = e.maxCostUnits) :
    s.completeEffect i receive cost = s.settled i (receive e) := by
  rw [State.completeEffect, hfound]
  dsimp only
  rw [State.updateEffect, State.release, State.charge, State.settled, modify_of_getElem? _ hfound,
    Budget.settle, hstatus]
  rw [hmax, hcost]

lemma follows_fail (code text : GoString) : e.Follows (e.fail code text) :=
  ⟨rfl, ⟨le_rfl, .inl rfl⟩, nofun⟩

lemma follows_child (child : GoString) (hpending : e.status = .pending) :
    e.Follows { e with childRunID := child } :=
  ⟨rfl, ⟨le_rfl, .inl rfl⟩, fun h => by rw [hpending] at h; cases h⟩

/-- A retry is one more attempt, within the policy. -/
lemma follows_retry {code : GoString} {cause : GoError}
    (h : scheduleEffectRetry e code cause = some e') : e.Follows e' ∧ e'.status = .pending := by
  rw [scheduleEffectRetry] at h
  split at h
  · cases h
  rename_i hallowed
  cases h
  simp only [not_or, not_le, Decidable.not_not] at hallowed
  refine ⟨⟨rfl, ⟨?_, .inr ?_⟩, fun hc => ?_⟩, hallowed.1⟩
  · show e.attempt ≤ e.attempt + 1
    omega
  · show e.attempt + 1 ≤ e.retry.maxAttempts
    omega
  · exact absurd (hallowed.1.symm.trans hc) (by decide)

lemma validReceipt_iff (h : validReceipt result e = true) :
    valid result.output = true ∧ 0 ≤ result.costUnits ∧ result.costUnits ≤ e.maxCostUnits := by
  simp only [validReceipt, Bool.and_eq_true, decide_eq_true_eq] at h
  exact ⟨h.1.1.2, h.1.2, h.2⟩

/-- A pending effect of an activation. -/
structure Open (s : State) (i : ℕ) : Prop where
  pending : ∃ e, s.effects[i]? = some e ∧ e.status = .pending ∧ e.compensation = false

lemma Open.settled {j : ℕ} (h : Open s j) (hij : i ≠ j) (e' : Effect) : Open (s.settled i e') j := by
  obtain ⟨e, he, hrest⟩ := h.pending
  refine ⟨e, ?_, hrest⟩
  rw [State.settled, getElem?_set, if_neg hij, he]

/-- What the observation of one effect may do. -/
structure Observes (s t : State) (i : ℕ) : Prop where
  settles : Settles s t
  others : ∀ j, i ≠ j → Open s j → Open t j

lemma Observes.refl (s : State) (i : ℕ) : Observes s s i := ⟨.refl, fun _ _ h => h⟩

lemma Observes.trans {u : State} (h : Observes s t i) (h' : Observes t u i) : Observes s u i :=
  ⟨ReflTransGen.trans h.settles h'.settles, fun j hij hopen => h'.others j hij (h.others j hij hopen)⟩

lemma Settle.observes (h : Settle false s t i e e') : Observes s t i := by
  refine ⟨.single ⟨i, e, e', h⟩, fun j hij hopen => ?_⟩
  rw [h.eq]
  exact hopen.settled hij e'

end Settling

section Batches

variable {b : Batch} {i : ℕ} {e : Effect} {s : State} {a : Activation}

lemma retryOrFail_observes (h : Open b.state i) (code : GoString) (error : GoError)
    (failure : BatchFailure) : Observes b.state (b.retryOrFail i code error failure).state i := by
  obtain ⟨e, hfound, hpending, hkind⟩ := h.pending
  rw [Batch.retryOrFail, hfound]
  cases hretry : scheduleEffectRetry e code error with
  | some =>
    obtain ⟨hfollows, hpending'⟩ := follows_retry hretry
    simp only [Option.bind_some, hretry]
    exact Settle.observes ⟨hfound, hpending, hkind, hfollows, updateEffect_eq hfound hpending'⟩
  | none =>
    simp only [Option.bind_some, hretry]
    exact Settle.observes ⟨hfound, hpending, hkind, follows_fail _ _, failEffect_eq hfound _ _⟩

lemma refuse_observes (h : Open b.state i) (code : GoString) :
    Observes b.state (b.refuse i code).state i := by
  obtain ⟨e, hfound, hpending, hkind⟩ := h.pending
  exact Settle.observes ⟨hfound, hpending, hkind, follows_fail _ _, failEffect_eq hfound _ _⟩

lemma noteChild_observes (h : Open b.state i) (result : EffectResult) :
    Observes b.state (b.noteChild i result).state i ∧ Open (b.noteChild i result).state i := by
  obtain ⟨e, hfound, hpending, hkind⟩ := h.pending
  have heq : (b.noteChild i result).state =
      b.state.settled i { e with childRunID := trimSpace result.childRunID } :=
    updateEffect_eq hfound hpending
  refine ⟨Settle.observes ⟨hfound, hpending, hkind, follows_child _ hpending, heq⟩, ?_⟩
  refine ⟨{ e with childRunID := trimSpace result.childRunID }, ?_, hpending, hkind⟩
  rw [heq, State.settled, getElem?_set, if_pos rfl,
    if_pos (List.getElem?_eq_some_iff.mp hfound).1]

lemma settleEffect_observes (h : Open b.state i) (result : EffectResult) :
    Observes b.state (b.settleEffect i result).state i := by
  rw [Batch.settleEffect]
  split
  · exact .refl _ _
  · split
    · rename_i hreceipt
      obtain ⟨e, hfound, hpending, hkind⟩ := h.pending
      rw [hfound] at hreceipt
      exact Settle.observes ⟨hfound, hpending, hkind,
        (⟨rfl, ⟨le_rfl, .inl rfl⟩, fun _ => validReceipt_iff hreceipt⟩ : e.Follows (e.complete result)),
        completeEffect_eq hfound rfl rfl rfl⟩
    · exact refuse_observes h _
  · exact retryOrFail_observes h _ _ _
  · exact refuse_observes h _

lemma abortEffect_settles {id : GoString}
    (hkind : ∀ e ∈ s.effects, e.id = id → e.compensation = false) : Settles s (abortEffect s id) := by
  rw [abortEffect]
  split
  · exact .refl
  split
  · exact .refl
  rename_i i hi
  split
  · rename_i hpending
    obtain ⟨hlt, hid, -⟩ := findIdx?_eq_some_iff_getElem.mp hi
    have hfound : s.effects[i]? = some s.effects[i] := getElem?_eq_getElem hlt
    rw [hfound] at hpending
    exact .single ⟨i, _, _, hfound, by simpa using hpending,
      hkind _ (getElem_mem hlt) (by simpa using hid), follows_fail _ _, failEffect_eq hfound _ _⟩
  · exact .refl

lemma abortEffects_settles {ids : List GoString} (hs : Shape s)
    (ha : a ∈ s.activations) (hids : ∀ id ∈ ids, id ∈ a.effectIDs) :
    Settles s (ids.foldl abortEffect s) := by
  induction ids generalizing s with
  | nil => exact .refl
  | cons id _ ih =>
    obtain ⟨e, he, hid, _⟩ := (hs.owned a ha).2 id (hids id mem_cons_self)
    have hfirst : Settles s (abortEffect s id) := abortEffect_settles fun x hx hxid => by
      rwa [inj_on_of_nodup_map hs.effectIDs hx he (hxid.trans hid.symm)]
    refine ReflTransGen.trans hfirst (ih (hs.settles hfirst) ?_ (forall_mem_cons.mp hids).2)
    rwa [hfirst.frame.activations]

lemma abortEffect_updateActivation (s : State) (id : GoString) (position : ℕ)
    (f : Activation → Activation) :
    abortEffect (s.updateActivation position f) id = (abortEffect s id).updateActivation position f := by
  have hindex : effectIndexByID (s.updateActivation position f) id = effectIndexByID s id := rfl
  rw [abortEffect, abortEffect, hindex]
  split
  · rfl
  split
  · rfl
  have heffects : (s.updateActivation position f).effects = s.effects := rfl
  rw [heffects]
  split
  · rw [State.failEffect, State.failEffect, heffects]
    split <;> rfl
  · rfl

lemma failActivation_eq {position : ℕ} (code text : GoString)
    (h : s.activations[position]? = some a) :
    failActivation s position code text =
      (abortActivationEffects s a).updateActivation position (Activation.fail code text) := by
  rw [failActivation, h]
  show a.effectIDs.foldl abortEffect (s.updateActivation position _) = _
  rw [abortActivationEffects]
  generalize a.effectIDs = ids
  induction ids generalizing s with
  | nil => rfl
  | cons id _ ih =>
    have hkeep : (abortEffect s id).activations = s.activations := by
      rw [abortEffect]
      split
      · rfl
      split
      · rfl
      split
      · rw [State.failEffect]
        split <;> rfl
      · rfl
    rw [foldl_cons, abortEffect_updateActivation]
    exact ih (hkeep ▸ h)

end Batches

/-! ### One commit -/

section OneCommit

variable {s t : State}

/-- Everything that a commit does, it does after observations. -/
theorem Change.cases {P : Prop} (hc : Change s t)
    (hstay : ∀ v, SameFrame s v → v.effects.length = s.effects.length → t = v → P)
    (hclose : ∀ v, SameFrame s v → v.effects.length = s.effects.length → (Shape s → Shape v) →
      Close v t → P) : P := by
  obtain ⟨u, v, hbegun, hsettles, h⟩ := hc
  have hframe := hbegun.frame.trans hsettles.frame
  have hlength : v.effects.length = s.effects.length := by
    have hids := congrArg length hframe.names
    simp only [State.names, length_append, length_map, hframe.activations] at hids
    omega
  rcases h with rfl | h
  · exact hstay t hframe hlength rfl
  · exact hclose v hframe hlength (fun hs => (hs.begun hbegun).settles hsettles) h

lemma Close.definition (h : Close s t) : t.definition = s.definition := by
  cases h with
  | resolve _ _ _ ht =>
    obtain ⟨a, _, _, -, -, -, rfl⟩ := resolveWaitState_spec ht
    rfl
  | retryUndo _ _ _ hsettle | completeUndo _ _ _ hsettle
  | failUndo _ _ _ hsettle => exact hsettle.frame.definition
  | _ => rfl

/-- The Definition of a Run never changes. -/
lemma Change.definition (h : Change s t) : t.definition = s.definition := by
  refine h.cases (fun v hframe _ ht => ?_) fun v hframe _ _ hclose => ?_
  · rw [ht, hframe.definition]
  · rw [hclose.definition, hframe.definition]

/-- How an activation came to be completed. -/
inductive CompletedBy (s t : State) (p : ℕ) (b : Activation) : Prop
  | before (h : s.activations[p]? = some b)
  /-- Its node has no effects. -/
  | plain {node : Node} (hnode : s.definition.nodes[b.nodeIndex]? = some node)
      (heffects : nodeHasEffects node.body = false)
  /-- Its effects are completed, and its undo is registered or the Run fails. -/
  | effects {node : Node} {a : Activation} {output : RawMessage} (standing : Standing s node p a)
      (houtput : aggregateEffectOutputs s node.body a = .ok output)
      (hb : b = { a with status := .completed, output }) (heffects : t.effects = s.effects)
      (hundo : (∃ registered, Registers node registered ∧
          t.compensations = s.compensations ++ registered) ∨
        ∃ cause, t = (completeActivation s p output).intend .failed
          (lit "workflow.compensation_register") cause)

/-- **What completes an activation.** -/
theorem Close.completed {p : ℕ} {b : Activation} (h : Close s t) (hs : Shape s)
    (hb : t.activations[p]? = some b) (hcompleted : b.status = .completed) : CompletedBy s t p b := by
  have happend : ∀ {a : Activation}, t.activations = s.activations ++ [a] →
      s.activations[p]? = some b ∨ b = a := by
    intro a hactivations
    rw [hactivations, getElem?_append] at hb
    split at hb
    · exact .inl hb
    · exact .inr (mem_singleton.mp (mem_of_getElem? hb))
  have hmodify : ∀ {position : ℕ} {f : Activation → Activation},
      t.activations = s.activations.modify position f → s.activations[p]? = some b ∨
        ∃ a, position = p ∧ s.activations[p]? = some a ∧ f a = b := by
    intro _ f hactivations
    rw [hactivations, getElem?_modify] at hb
    obtain ⟨a, ha, heq⟩ := Option.map_eq_some_iff.mp hb
    split at heq
    · exact .inr ⟨a, ‹_›, ha, heq⟩
    · exact .inl (heq ▸ ha)
  cases h with
  | prepare | wait =>
    rcases happend rfl with hb | rfl
    · exact .before hb
    · cases hcompleted
  | finish standing houtput hregistered | stuck standing houtput hregistered =>
    rcases hmodify rfl with hb | ⟨a, rfl, ha, rfl⟩
    · exact .before hb
    cases standing.found.symm.trans ha
    exact .effects standing houtput rfl rfl (.inl ⟨_, hregistered, rfl⟩)
  | unregistered standing houtput =>
    rcases hmodify rfl with hb | ⟨a, rfl, ha, rfl⟩
    · exact .before hb
    cases standing.found.symm.trans ha
    exact .effects standing houtput rfl rfl (.inr ⟨_, rfl⟩)
  | collapse =>
    rcases hmodify rfl with hb | ⟨a, -, -, rfl⟩
    · exact .before hb
    · cases hcompleted
  | activate ready heffects =>
    rcases happend rfl with hb | rfl
    · exact .before hb
    · exact .plain ready.here heffects
  | resolve hw _ hj ht =>
    obtain ⟨a, node, _, ha, -, -, rfl⟩ := resolveWaitState_spec ht
    obtain ⟨_, hnode, heffects, -⟩ := hs.wait (mem_of_getElem? hw) (mem_of_getElem? ha)
      (activationIndexByID_spec hj ha)
    rcases hmodify rfl with hb | ⟨_, rfl, ha', rfl⟩
    · exact .before hb
    cases ha.symm.trans ha'
    exact .plain hnode heffects
  | retryUndo _ _ _ hsettle | completeUndo _ _ _ hsettle
  | failUndo _ _ _ hsettle => exact .before (hsettle.frame.activations ▸ hb)
  | intend | startUndo | refuseUndo | abandon => exact .before hb

end OneCommit

end Workflow
