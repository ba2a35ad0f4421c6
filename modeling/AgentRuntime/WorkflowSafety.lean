/-
The Workflow Runner keeps to its protocol.

Every method of the Runner is a program whose calls may be interleaved with those of any
other caller.  Here each of them is shown, at whatever moment it runs, to commit nothing
but changes of the revision that it replaces, and to pass nothing to an executor but
effects that are pending in a committed revision.

* **`serveRunner_safe`** — every request;
* **`sane_of_reachable`** — so the revisions of every Run are a history, in every
  configuration that the system can reach.
-/
import AgentRuntime.WorkflowHistory

namespace Workflow

open GoString GoJson Relation Interleaving List Option
open Kernel (RawMessage RunStatus)

variable {snap : Snapshot} {ids : List GoString} {w : World}

/-! ### The way to a failed Run -/

section Failing

variable {s t : State} {c : Compensation}

lemma begun_refl (s : State) : Begun s s := .inl rfl

lemma change_stay (h : Begun snap.state s) : Change snap.state s := ⟨s, s, h, .refl, .inl rfl⟩

lemma change_close {u : State} (h : Begun snap.state s) (hs : Settles s u) (hc : Close u t) :
    Change snap.state t := ⟨s, u, h, hs, .inr hc⟩

/-- Names that are among those of the revision that was read. -/
lemma names_of_frame (h : SameFrame snap.state s) : Named snap ids s :=
  fun _ hid => .inl (h.names ▸ hid)

lemma yield_quiet (held : Holding snap ids w) (hbegun : Begun snap.state s) :
    Quiet (yield snap s) w :=
  quiet_commit held (names_of_frame hbegun.frame) (change_stay hbegun) (.running rfl)

/-- The program keeps to the protocol and returns an error. -/
abbrev Fails (p : RProg Returned) (w : World) : Prop :=
  Safe runnerProtocol (fun r _ => r.err ≠ none) p w

lemma Fails.quiet {p : RProg Returned} (h : Fails p w) : Quiet p w := h.mono fun _ _ _ _ => trivial

lemma joinErrors_ne_none (a : GoError) (b : Option GoError) : joinErrors (some a) b ≠ none := by
  cases b <;> simp [joinErrors]

lemma of_err_ne_none (a : GoError) (r : Except GoError Snapshot) :
    (Returned.of (some a) r).err ≠ none := by
  cases r with
  | ok => simp [Returned.of]
  | error e => exact joinErrors_ne_none a (some e)

lemma terminalizeFailure_fails {cause : Option GoError} (held : Holding snap ids w)
    (hchange : Change snap.state s) (hnames : Named snap ids s)
    (hdone : ∀ f, s.failure = some f → f.code = lit "workflow.compensation_failed" ∨
      ∀ c ∈ s.compensations, c.status = .completed) : Fails (terminalizeFailure snap s cause) w := by
  rw [terminalizeFailure]
  split
  · exact fun _ _ _ => joinErrors_ne_none _ _
  rename_i f hf
  exact safe_apply held hnames hchange (.failed f hf rfl rfl (hdone f hf))
    (fun _ _ _ _ _ _ => of_err_ne_none _ _) fun _ _ _ _ _ => of_err_ne_none _ _

lemma terminalizeCompensationFailure_quiet (held : Holding snap ids w)
    (hchange : Change snap.state { s with failure := some (compensationFailure s c) })
    (hnames : Named snap ids s) :
    Quiet (terminalizeCompensationFailure snap s c) w :=
  (terminalizeFailure_fails held hchange hnames fun f hf => .inl (by
    cases hf
    rfl)).quiet

lemma completed_of_nextCompensationPosition (h : nextCompensationPosition s = none) :
    ∀ c ∈ s.compensations, c.status = .completed := by
  intro c hc
  have hmiss := findIdx?_eq_none_iff.mp (map_eq_none_iff.mp h) c (mem_reverse.mpr hc)
  simpa using hmiss

lemma undoEffect_spec {i : ℕ} {e : Effect} (h : undoEffect s c = some (i, e)) :
    s.effects[i]? = some e ∧ e.id = c.effectID ∧ e.status = .pending := by
  rw [undoEffect] at h
  obtain ⟨j, hj, h⟩ := bind_eq_some_iff.mp h
  obtain ⟨x, hx, h⟩ := bind_eq_some_iff.mp h
  split at h
  · rename_i hpending
    obtain ⟨rfl, rfl⟩ : j = i ∧ x = e := by simpa using h
    obtain ⟨_, hid, -⟩ := findIdx?_eq_some_iff_getElem.mp hj
    obtain ⟨_, rfl⟩ := List.getElem?_eq_some_iff.mp hx
    exact ⟨hx, by simpa using hid, hpending⟩
  · cases h

section Undo

variable {position i : ℕ} {e : Effect} {segment : SegmentBudget} {code : GoString} {cause : GoError}

section Running

variable (held : Holding snap ids w) (hbegun : Begun snap.state s)
  (undoing : Undoing s position c) (hrunning : c.status = .running)
  (hfound : s.effects[i]? = some e) (hid : e.id = c.effectID) (hpending : e.status = .pending)

include held hbegun undoing hrunning hfound hid hpending

lemma markCompensationFailed_quiet :
    Quiet (markCompensationFailed snap s position i c code cause) w := by
  have hsettle : Settle e.compensation s (s.settled i (e.fail (trimSpace code) cause.text)) i e
      (e.fail (trimSpace code) cause.text) := ⟨hfound, hpending, rfl, follows_fail _ _, rfl⟩
  have heq : (s.updateCompensation position (Compensation.fail (trimSpace code) cause.text)).failEffect i
      (trimSpace code) cause.text =
      (s.settled i (e.fail (trimSpace code) cause.text)).updateCompensation position
        (Compensation.fail (trimSpace code) cause.text) :=
    failEffect_eq (s := s.updateCompensation position _) hfound _ _
  rw [markCompensationFailed, heq]
  refine terminalizeCompensationFailure_quiet held ?_
    (names_of_frame (s := s.settled i _) (hbegun.frame.trans hsettle.frame))
  exact change_close hbegun .refl (.failUndo undoing hrunning hid hsettle rfl)

lemma retryCompensation_quiet : Quiet (retryCompensation snap s position i c e code cause) w := by
  rw [retryCompensation]
  split
  · rename_i e' hretry
    obtain ⟨hfollows, hpending'⟩ := follows_retry hretry
    have hsettle : Settle e.compensation s (s.updateEffect i fun _ => e') i e e' :=
      ⟨hfound, hpending, rfl, hfollows, updateEffect_eq hfound hpending'⟩
    exact quiet_commit held (names_of_frame (hbegun.frame.trans hsettle.frame))
      (change_close hbegun .refl (.retryUndo undoing hrunning hid hsettle hpending')) (.running rfl)
  · exact markCompensationFailed_quiet held hbegun undoing hrunning hfound hid hpending

/-- What follows when an undo has completed: the Run ends, or the next undo is left to the
next segment. -/
lemma observeCompensation_quiet {r : Except GoError EffectResult} :
    Quiet (observeCompensation snap s position i c e r) w := by
  cases r with
  | error => exact retryCompensation_quiet held hbegun undoing hrunning hfound hid hpending
  | ok result =>
    rw [observeCompensation]
    split
    · exact yield_quiet held hbegun
    · exact retryCompensation_quiet held hbegun undoing hrunning hfound hid hpending
    · split
      · rename_i hreceipt
        have hsettle : Settle e.compensation s (s.settled i (e.receive result)) i e (e.receive result) :=
          ⟨hfound, hpending, rfl,
            ⟨rfl, ⟨le_rfl, .inl rfl⟩, fun _ => validReceipt_iff hreceipt⟩, rfl⟩
        have heq : completeCompensation s position i result =
            (s.settled i (e.receive result)).updateCompensation position fun c =>
              { c with status := .completed, receiptID := trimSpace result.receiptID } := by
          rw [completeCompensation]
          exact congrArg (fun t => State.updateCompensation t position _)
            (completeEffect_eq hfound rfl rfl rfl)
        have hchange : Change snap.state (completeCompensation s position i result) := by
          rw [heq]
          exact change_close hbegun .refl (.completeUndo undoing hrunning hid hsettle rfl)
        have hnames : Named snap ids (completeCompensation s position i result) := by
          rw [heq]
          exact names_of_frame (s := s.settled i _) (hbegun.frame.trans hsettle.frame)
        refine safe_apply held hnames hchange (.running rfl) (fun _ _ _ => quiet_ret _)
          fun w' held' => ?_
        dsimp only
        split
        · rename_i hnext
          exact (terminalizeFailure_fails held' (change_stay (begun_refl _))
            (names_of_frame (.refl _))
            fun _ _ => .inr (completed_of_nextCompensationPosition hnext)).quiet
        · exact yield_quiet held' (begun_refl _)
      · exact markCompensationFailed_quiet held hbegun undoing hrunning hfound hid hpending
    · exact markCompensationFailed_quiet held hbegun undoing hrunning hfound hid hpending

end Running

lemma dispatchCompensation_quiet (held : Holding snap ids w)
    (hbegun : Begun snap.state s) (undoing : Undoing s position c) (hrunning : c.status = .running) :
    Quiet (dispatchCompensation snap s position c segment) w := by
  rw [dispatchCompensation]
  split
  · exact yield_quiet held hbegun
  split
  · exact terminalizeCompensationFailure_quiet held
      (change_close hbegun .refl (.abandon undoing.failure)) (names_of_frame hbegun.frame)
  rename_i hundo
  obtain ⟨hfound, hid, hpending⟩ := undoEffect_spec hundo
  refine safe_execute held (hbegun.effects ▸ mem_of_getElem? hfound) hpending
    fun r w' held' => ?_
  exact observeCompensation_quiet held' hbegun undoing hrunning hfound hid hpending

/-- Which compensation is next depends on which are completed only. -/
lemma nextCompensationPosition_congr
    (h : t.compensations.map (fun c => decide (c.status ≠ .completed)) =
      s.compensations.map fun c => decide (c.status ≠ .completed)) :
    nextCompensationPosition t = nextCompensationPosition s := by
  have hfind : ∀ l : List Compensation, l.reverse.findIdx? (fun c => c.status ≠ .completed) =
      (l.map fun c => decide (c.status ≠ .completed)).reverse.findIdx? id := by
    intro l
    rw [← map_reverse, findIdx?_map]
    rfl
  have hlength : t.compensations.length = s.compensations.length := by
    simpa using congrArg List.length h
  rw [nextCompensationPosition, nextCompensationPosition, hfind, hfind, h, hlength]

/-- The undo whose intent was committed is still the next one. -/
lemma Undoing.start {id : GoString} {started : Compensation} (undoing : Undoing s position c)
    (hpending : c.status = .pending)
    (h : (startCompensation s position c id).stored.compensations[position]? = some started) :
    Undoing (startCompensation s position c id).stored position started ∧ started.status = .running := by
  have hlist : (startCompensation s position c id).stored.compensations =
      (s.compensations.set position { c with status := .running, effectID := id }).map
        Compensation.stored :=
    congrArg (map Compensation.stored) (modify_of_getElem?
      (fun c : Compensation => { c with status := .running, effectID := id }) undoing.found)
  have hlt := (List.getElem?_eq_some_iff.mp undoing.found).1
  refine ⟨⟨?_, ?_, h⟩, ?_⟩
  · exact fun hnone => undoing.failure (map_eq_none_iff.mp hnone)
  · rw [nextCompensationPosition_congr]
    · exact undoing.next
    rw [hlist, List.map_map]
    rw [map_set_eq undoing.found]
    · rfl
    show true = decide (c.status ≠ .completed)
    rw [hpending]
    rfl
  · rw [hlist, getElem?_map, getElem?_set, if_pos rfl, if_pos hlt] at h
    cases h
    rfl

lemma prepareCompensation_quiet (held : Holding snap ids w)
    (hbegun : Begun snap.state s) (undoing : Undoing s position c) (hpending : c.status = .pending) :
    Quiet (prepareCompensation snap s position c segment) w := by
  rw [prepareCompensation]
  split
  · exact terminalizeCompensationFailure_quiet held
      (change_close hbegun .refl (.refuseUndo undoing hpending)) (names_of_frame (s := s) hbegun.frame)
  rename_i hbudget
  refine safe_newID held (fun _ _ _ => quiet_ret _) fun id w1 held1 hfresh _ => ?_
  have hfresh' : id ∉ s.effects.map Effect.id := fun hmem =>
    hfresh (hbegun.frame.names ▸ mem_append_left _ hmem)
  have hnames : Named snap (id :: ids) (startCompensation s position c id) := by
    intro x hx
    rw [← hbegun.frame.names]
    simp only [State.names, startCompensation, State.updateCompensation, undoIntent, map_append,
      map_cons, map_nil, mem_append, mem_cons, not_mem_nil, or_false] at hx ⊢
    tauto
  refine safe_apply held1 hnames (change_close hbegun .refl
    (.startUndo undoing hpending (by simpa using hbudget) hfresh')) (.running rfl)
    (fun _ _ _ => quiet_ret _) fun w2 held2 => ?_
  dsimp only
  split
  · exact quiet_ret _
  rename_i hstarted
  obtain ⟨undoing', hrunning⟩ := undoing.start hpending hstarted
  exact dispatchCompensation_quiet held2 (begun_refl _) undoing' hrunning

theorem runCompensations_quiet (held : Holding snap ids w)
    (hbegun : Begun snap.state s) (hfailure : s.failure ≠ none) :
    Quiet (runCompensations snap s segment) w := by
  rw [runCompensations]
  split
  · rename_i hnone
    exact (terminalizeFailure_fails held (change_stay hbegun) (names_of_frame hbegun.frame)
      fun _ _ => .inr (completed_of_nextCompensationPosition hnone)).quiet
  rename_i position hposition
  split
  · exact quiet_pure _
  rename_i c hc
  have undoing : Undoing s position c := ⟨hfailure, hposition, hc⟩
  split
  · rename_i hpending
    exact prepareCompensation_quiet held hbegun undoing hpending
  · rename_i hrunning
    exact dispatchCompensation_quiet held hbegun undoing hrunning
  all_goals
    exact terminalizeCompensationFailure_quiet held
      (change_close hbegun .refl (.abandon hfailure)) (names_of_frame hbegun.frame)

/-- The way to a failed or cancelled Run. -/
theorem beginFailure_fails {status : RunStatus} {k : GoString} {e : GoError}
    (held : Holding snap ids w) (hchange : Change snap.state (s.intend status k e))
    (hnames : Named snap ids s) :
    Fails (beginFailure snap s status k e) w := by
  rw [beginFailure]
  split
  · rename_i hnil
    refine terminalizeFailure_fails held hchange hnames fun _ _ => .inr ?_
    show ∀ c ∈ s.compensations, c.status = .completed
    simp [hnil]
  refine safe_apply held hnames hchange (.running rfl) (fun _ _ _ _ _ _ => by simp)
    fun w' held' => ?_
  refine Safe.map (Safe.mono (runCompensations_quiet held' (begun_refl _) ?_)
    fun _ _ _ _ => joinErrors_ne_none _ _)
  show (s.intend status k e).failure.map FailureIntent.stored ≠ none
  rw [ne_eq, map_eq_none_iff]
  exact intend_failure_ne

lemma fail_fails (held : Holding snap ids w)
    (hbegun : Begun snap.state s) : Fails (fail snap s code cause) w :=
  beginFailure_fails held (change_close hbegun .refl (.intend (.inl rfl)))
    (names_of_frame hbegun.frame)

end Undo

end Failing

/-! ### Nodes with effects -/

section Nodes

variable {s t : State} {node : Node} {position : ℕ} {a : Activation} {segment : SegmentBudget}
  {definition : Definition} {R : Runner} {p : RProg Returned} {id : GoString}
  {f : Activation → Activation} {output : RawMessage} {b : Batch} {indices : List ℕ}
  {outcomes : List EffectOutcome}

/-- What a round of a segment leaves for the next one. -/
def Goes (definition : Definition) (r : Advanced) (w : World) : Prop :=
  r.err = none → r.done = false → ∀ next, r.snapshot = some next →
    Held next [] w ∧ next.state.definition = definition

/-- The program keeps to the protocol, and the segment may go on after it. -/
abbrev GoesOn (definition : Definition) (p : RProg Advanced) (w : World) : Prop :=
  Safe runnerProtocol (Goes definition) p w

lemma goes_ret {r : Advanced} (h : r.err ≠ none ∨ r.done = true) :
    GoesOn definition (.ret r) w := by
  intro _ _ _ herr hdone
  rcases h with h | h
  · exact absurd herr h
  · rw [h] at hdone
    cases hdone

lemma goes_finished (h : Quiet p w) : GoesOn definition (do return Advanced.finished (← p)) w :=
  Safe.map (h.mono (by rintro _ _ _ _ _ ⟨⟩))

/-- The commit after which the next round starts. -/
lemma goes_commit {m : Mutation} (held : Holding snap ids w)
    (hnames : Named snap ids m.state)
    (hchange : Change snap.state m.state) (hends : Ends m)
    (hdefinition : m.state.definition = definition) :
    GoesOn definition (do
      let r := Returned.of none (← applyRun snap m)
      return { snapshot := r.snapshot, done := false, err := r.err, segment }) w := by
  refine safe_apply held hnames hchange hends (fun e _ _ => goes_ret (.inl ?_))
    fun w' held' => ?_
  · simp [Returned.of, joinErrors]
  refine held'.safe_ret fun w'' hheld'' _ _ next hnext => ?_
  cases hnext
  exact ⟨hheld'', hdefinition⟩

/-- Several identifiers. -/
def Gave (snap : Snapshot) (ids : List GoString) (n : ℕ) :
    Except GoError (List GoString) → World → Prop
  | .error _, _ => True
  | .ok new, w => Held snap (new ++ ids) w ∧ new.length = n ∧ new.Nodup ∧
      ∀ id ∈ new, id ∉ snap.state.names ∧ id ∉ ids

lemma newIDs_safe (n : ℕ) (held : Holding snap ids w) :
    Safe runnerProtocol (Gave snap ids n) (newIDs n) w := by
  induction n generalizing w ids with
  | zero =>
    exact held.safe_ret fun w' hheld' =>
      ⟨hheld', rfl, nodup_nil, by simp⟩
  | succ _ ih =>
    rw [newIDs]
    refine safe_newID held (fun _ _ _ _ _ _ => trivial) fun id w1 held1 hnew hother => ?_
    refine Safe.bind held1.sane (ih held1) fun r w2 hw2 hgave => ?_
    obtain e | _ := r
    · exact fun _ _ _ => trivial
    obtain ⟨hheld2, hlength, hnodup, hfresh⟩ := hgave
    refine Holding.safe_ret ⟨hw2, hheld2⟩ fun w3 hheld3 => ?_
    refine ⟨⟨hheld3.1, fun x hx => hheld3.2 x ?_⟩, by simp [hlength], ?_, fun x hx => ?_⟩
    · simp only [cons_append, mem_cons, mem_append] at hx ⊢
      tauto
    · refine nodup_cons.mpr ⟨fun hmem => ?_, hnodup⟩
      exact (hfresh id hmem).2 mem_cons_self
    rcases mem_cons.mp hx with rfl | hx
    · exact ⟨hnew, hother⟩
    · exact ⟨(hfresh x hx).1, fun hmem => (hfresh x hx).2 (mem_cons_of_mem _ hmem)⟩

/-- What `prepareNodeEffects` returns without an error. -/
def Prepared (s : State) (r : Returned) (w : World) : Prop :=
  r.err = none → ∀ next, r.snapshot = some next → Held next [] w ∧ next.state.failure = none ∧
    next.state.definition = s.definition ∧ next.state.currentNode = s.currentNode

lemma Fails.prepared (h : Fails p w) : Safe runnerProtocol (Prepared s) p w :=
  h.mono fun _ _ _ hne herr => absurd herr hne

lemma fresh_of_names (hbegun : Begun snap.state s) {n : List GoString}
    (hid : id ∉ snap.state.names) (hnew : ∀ x ∈ n, x ∉ snap.state.names) (hnodup : n.Nodup) :
    Fresh s id n := by
  rw [← hbegun.frame.names] at hid
  refine ⟨fun hmem => hid (mem_append_right _ hmem), fun x hx hmem => ?_, hnodup⟩
  refine hnew x hx ?_
  rw [← hbegun.frame.names]
  exact mem_append_left _ hmem

lemma preparePlans_safe {plans : List EffectPlan} (held : Holding snap ids w)
    (hbegun : Begun snap.state s) (ready : Ready s node) (heffects : nodeHasEffects node.body = true)
    (hplans : effectPlansForNode s node.body = .ok plans) :
    Safe runnerProtocol (Prepared s) (preparePlans snap s node plans) w := by
  rw [preparePlans]
  split
  · exact (fail_fails held hbegun).prepared
  split
  · exact (fail_fails held hbegun).prepared
  rename_i reserved hreserve
  split
  · exact (fail_fails held hbegun).prepared
  rename_i hcost
  refine safe_newID held (by rintro _ _ _ _ _ _ ⟨⟩) fun id w1 held1 hnew _ => ?_
  refine Safe.bind held1.sane (newIDs_safe plans.length held1) fun r w2 hw2 hgave => ?_
  obtain e | effectIDs := r
  · rintro _ _ _ ⟨⟩
  obtain ⟨hheld2, hlength, hnodup, hfresh⟩ := hgave
  have hafford : Affordable s plans reserved :=
    ⟨by push_cast; omega, hreserve, hcost⟩
  have hclose := Close.prepare ready heffects hplans hafford hlength
    (fresh_of_names hbegun hnew (fun x hx => (hfresh x hx).1) hnodup)
  have hnames : Named snap (effectIDs ++ id :: ids)
      (prepareActivation s node plans reserved id effectIDs) := by
    intro x hx
    rw [← hbegun.frame.names]
    simp only [State.names, prepareActivation, map_append, zipWith_intent_ids hlength,
      map_cons, map_nil, mem_append, mem_cons, not_mem_nil,
      or_false] at hx ⊢
    tauto
  refine safe_apply ⟨hw2, hheld2⟩ hnames (change_close hbegun .refl hclose) (.running rfl)
    (by rintro _ _ _ _ _ _ ⟨⟩) fun w3 held3 => ?_
  refine held3.safe_ret fun w4 hheld4 _ next hnext => ?_
  cases hnext
  refine ⟨hheld4, ?_, rfl, rfl⟩
  show s.failure.map FailureIntent.stored = none
  rw [ready.failure]
  rfl

lemma prepareNodeEffects_safe (held : Holding snap ids w)
    (hbegun : Begun snap.state s) (ready : Ready s node)
    (heffects : nodeHasEffects node.body = true) :
    Safe runnerProtocol (Prepared s) (prepareNodeEffects snap s node) w := by
  rw [prepareNodeEffects]
  split
  · exact (fail_fails held hbegun).prepared
  split
  · exact (fail_fails held hbegun).prepared
  · rename_i hplans _
    exact preparePlans_safe held hbegun ready heffects hplans

/-! #### Completing an activation -/

/-- What a program holds on to while it works on an activation: observations since the
revision that was read. -/
structure Observed (snap : Snapshot) (s : State) : Prop where
  change : ∃ s₁, Begun snap.state s₁ ∧ Settles s₁ s

lemma Observed.of_begun (h : Begun snap.state s) : Observed snap s := ⟨s, h, .refl⟩

lemma Observed.settles (h : Observed snap s) (hs : Settles s t) : Observed snap t := by
  obtain ⟨s₁, hbegun, hsettles⟩ := h.change
  exact ⟨s₁, hbegun, ReflTransGen.trans hsettles hs⟩

lemma Observed.close (h : Observed snap s) (hc : Close s t) : Change snap.state t := by
  obtain ⟨_, hbegun, hsettles⟩ := h.change
  exact change_close hbegun hsettles hc

lemma Observed.frame (h : Observed snap s) : SameFrame snap.state s := by
  obtain ⟨_, hbegun, hsettles⟩ := h.change
  exact hbegun.frame.trans hsettles.frame

lemma Observed.shape (h : Observed snap s) (hs : Shape snap.state) : Shape s := by
  obtain ⟨_, hbegun, hsettles⟩ := h.change
  exact (hs.begun hbegun).settles hsettles

lemma names_updateActivation (hf : ∀ a, (f a).id = a.id) :
    (s.updateActivation position f).names = s.names := by
  rw [State.names, State.names, State.updateActivation, map_modify_eq hf]

lemma Observed.names (h : Observed snap s) (hf : ∀ a, (f a).id = a.id) :
    Named snap ids (s.updateActivation position f) := by
  rw [Named, names_updateActivation hf, h.frame.names]
  exact fun id hid => .inl hid

lemma names_completeActivation (h : Observed snap s) (output : RawMessage) :
    Named snap ids (completeActivation s position output) := by
  refine h.names fun a => ?_
  rfl

/-- The next node, or a failure. -/
lemma moveOn_goes {r : List Compensation}
    (held : Holding snap ids w) (hobserved : Observed snap s) (standing : Standing s node position a)
    (houtput : aggregateEffectOutputs s node.body a = .ok output)
    (hregistered : Registers node r) (segment : SegmentBudget) :
    GoesOn s.definition (moveOn snap { completeActivation s position output with
      compensations := s.compensations ++ r } node segment) w := by
  rw [moveOn]
  split
  · refine goes_finished (Fails.quiet (beginFailure_fails held ?_ ?_))
    · exact hobserved.close (.stuck standing houtput hregistered)
    · exact names_completeActivation hobserved output
  rename_i hnext
  exact goes_commit held (names_completeActivation hobserved output)
    (hobserved.close (.finish standing houtput hregistered hnext)) (.running rfl) rfl

/-- What `registerCompensation` answers. -/
def Registered (s : State) (node : Node) : Except GoError State → Prop
  | .error _ => True
  | .ok t => ∃ registered, Registers node registered ∧
      t = { s with compensations := s.compensations ++ registered }

lemma registerCompensation_safe {undo : EffectCall}
    (held : Holding snap ids w) (hundo : node.body.undo = some undo) :
    Safe runnerProtocol (fun r w' => Registered s node r ∧ Held snap ids w')
      (registerCompensation s node undo output) w := by
  rw [registerCompensation]
  split
  · exact held.ret trivial
  refine safe_newID held (fun _ _ held1 => ?_) fun id w1 held1 _ _ => ?_
  · exact held1.ret trivial
  refine held1.safe_ret fun _ hheld' =>
    ⟨⟨_, ?_, rfl⟩, hheld'.1, fun x hx => hheld'.2 x (mem_cons_of_mem _ hx)⟩
  simp [Registers, hundo]

lemma finishEffectActivation_goes (held : Holding snap ids w)
    (hobserved : Observed snap s) (standing : Standing s node position a)
    (houtput : aggregateEffectOutputs s node.body a = .ok output) :
    GoesOn s.definition (finishEffectActivation snap s node position output segment) w := by
  rw [finishEffectActivation]
  split
  · rename_i hundo
    have hmove := moveOn_goes (r := []) held hobserved standing houtput
      (by simp [Registers, hundo]) segment
    rwa [append_nil] at hmove
  rename_i hundo
  refine Safe.bind held.sane (registerCompensation_safe held hundo) fun r w1 hw1 hr => ?_
  obtain ⟨hregistered, hheld1⟩ := hr
  cases r with
  | error =>
    exact goes_finished (beginFailure_fails ⟨hw1, hheld1⟩
      (hobserved.close (.unregistered standing houtput))
      (names_completeActivation hobserved output)).quiet
  | ok =>
    obtain ⟨_, hreg, rfl⟩ := hregistered
    exact moveOn_goes ⟨hw1, hheld1⟩ hobserved standing houtput hreg segment

lemma Standing.frame (h : Standing s node position a) (hf : SameFrame s t) :
    Standing t node position a :=
  ⟨hf.failure ▸ h.failure, hf.activations ▸ h.found, hf.currentNode ▸ h.current,
    by rw [hf.definition, hf.currentNode]; exact h.here, h.effects⟩

/-- An activation fails with everything that is pending in it. -/
lemma failActivation_fails {code text code' : GoString} {cause : GoError}
    (held : Holding snap ids w) (hobserved : Observed snap s) (standing : Standing s node position a) :
    Fails (beginFailure snap (failActivation s position code text) .failed code' cause) w := by
  have habort : Settles s (abortActivationEffects s a) :=
    abortEffects_settles (hobserved.shape (held.shape)) standing.mem fun _ hid => hid
  have hobserved' := hobserved.settles habort
  rw [failActivation_eq code text standing.found]
  refine beginFailure_fails held (hobserved'.close (.collapse (standing.frame habort.frame))) ?_
  refine hobserved'.names fun a => ?_
  rfl

lemma concludeBatch_goes (held : Holding snap ids w)
    (hobserved : Observed snap b.state) (standing : Standing b.state node position a)
    (segment : SegmentBudget) :
    GoesOn b.state.definition (concludeBatch snap b node position segment) w := by
  rw [concludeBatch]
  split
  · exact goes_finished (failActivation_fails held hobserved standing).quiet
  rw [standing.found]
  dsimp only
  split
  · exact goes_ret (.inl (by simp))
  · refine goes_finished (quiet_commit held (names_of_frame hobserved.frame) ?_ (.running rfl))
    obtain ⟨s₁, hbegun, hsettles⟩ := hobserved.change
    exact ⟨s₁, b.state, hbegun, hsettles, .inl rfl⟩
  split
  · exact goes_finished (failActivation_fails held hobserved standing).quiet
  · rename_i houtput
    exact finishEffectActivation_goes held hobserved standing houtput

/-! #### Asking the executors -/

lemma effectIndexByID_spec {i : ℕ} (h : effectIndexByID s id = some i) :
    ∃ e, s.effects[i]? = some e ∧ e.id = id := by
  obtain ⟨hlt, hid, -⟩ := findIdx?_eq_some_iff_getElem.mp h
  exact ⟨s.effects[i], getElem?_eq_getElem hlt, by simpa using hid⟩

lemma mapM_some {α β : Type} {f : α → Option β} {l : List α} {r : List β} (h : l.mapM f = some r) :
    List.Forall₂ (fun x y => f x = some y) l r := by
  induction l generalizing r with
  | nil =>
    obtain rfl : r = [] := by simpa using h.symm
    exact .nil
  | cons _ _ ih =>
    rw [mapM_cons] at h
    obtain ⟨y, hy, h⟩ := bind_eq_some_iff.mp h
    obtain ⟨_, hys, ⟨⟩⟩ := bind_eq_some_iff.mp h
    exact .cons hy (ih hys)

lemma nodup_indices {ids : List GoString} (hids : ids.Nodup)
    (h : List.Forall₂ (fun id i => effectIndexByID s id = some i) ids indices) : indices.Nodup := by
  induction h with
  | nil => exact nodup_nil
  | @cons _ _ _ _ hid hrest ih =>
    obtain ⟨hnot, hids⟩ := nodup_cons.mp hids
    refine nodup_cons.mpr ⟨fun hmem => hnot ?_, ih hids⟩
    obtain ⟨_, _, hindex⟩ := exists_of_forall₂ hrest hmem
    obtain ⟨e, he, heid⟩ := effectIndexByID_spec hid
    obtain ⟨_, he', heid'⟩ := effectIndexByID_spec hindex
    cases he.symm.trans he'
    rwa [← heid, heid']

/-- The pending effects of an activation, each at its own position. -/
lemma pendingEffectIndices_spec (hs : Shape s) (ha : a ∈ s.activations)
    (h : pendingEffectIndices s a = some indices) : indices.Nodup ∧ ∀ i ∈ indices, Open s i := by
  rw [pendingEffectIndices] at h
  obtain ⟨_, hall, ⟨⟩⟩ := bind_eq_some_iff.mp h
  have hfound := mapM_some hall
  refine ⟨(nodup_indices (hs.owned a ha).1 hfound).filter _, fun i hi => ?_⟩
  obtain ⟨himem, hpending⟩ := mem_filter.mp hi
  obtain ⟨id, hid, hindex⟩ := exists_of_forall₂ hfound himem
  obtain ⟨e, he, heid⟩ := effectIndexByID_spec hindex
  obtain ⟨owned, howned, hownedid, hkind⟩ := (hs.owned a ha).2 id hid
  have hsame : e = owned :=
    inj_on_of_nodup_map hs.effectIDs (mem_of_getElem? he) howned (heid.trans hownedid.symm)
  exact ⟨e, he, by simpa [he] using hpending, hsame ▸ hkind⟩

section Outcomes

variable (held : Holding snap ids w)

include held

/-- Every pending effect is asked about once, in order. -/
lemma executeEffectBatch_safe (hbegun : Begun snap.state s) (hopen : ∀ i ∈ indices, Open s i) :
    Safe runnerProtocol
      (fun outcomes w' => outcomes.map EffectOutcome.effectIndex = indices ∧ Held snap ids w')
      (executeEffectBatch snap s indices) w := by
  induction indices generalizing w with
  | nil => exact held.ret rfl
  | cons i _ ih =>
    obtain ⟨e, he, hpending, -⟩ := (hopen i mem_cons_self).pending
    rw [executeEffectBatch, he]
    refine safe_execute held (hbegun.effects ▸ mem_of_getElem? he) hpending
      fun r w1 held1 => ?_
    refine Safe.map (Safe.mono (ih held1 (forall_mem_cons.mp hopen).2) ?_)
    rintro _ _ - ⟨hindices, hheld2⟩
    exact ⟨by rw [map_cons, hindices], hheld2⟩

lemma ensureEffectRelation_safe {e : Effect} {runID : GoString} :
    Safe runnerProtocol (fun _ w' => Held snap ids w') (ensureEffectRelation R runID e) w := by
  rw [ensureEffectRelation]
  split
  · exact held.safe_ret fun _ hheld' => hheld'
  refine Safe.call (stable_held snap ids) held.sane held.held fun w1 hw1 hheld1 r w2 hexec => ?_
  obtain rfl := hexec
  exact ⟨.stay, Holding.safe_ret ⟨hw1, hheld1⟩ fun _ hheld' => hheld'⟩

/-- One round of the loop over the outcomes observes one effect. -/
lemma settleOutcome_safe {o : EffectOutcome} (hopen : Open b.state o.effectIndex) :
    Safe runnerProtocol
      (fun b' w' => Observes b.state b'.state o.effectIndex ∧ Held snap ids w')
      (settleOutcome R snap b o) w := by
  rw [settleOutcome]
  split
  · exact held.ret (retryOrFail_observes hopen _ _ _)
  rename_i result _
  obtain ⟨hnoted, hopen'⟩ := noteChild_observes hopen result
  dsimp only
  split
  · exact held.ret hnoted
  refine Safe.bind held.sane (ensureEffectRelation_safe held) fun r w1 hw1 hheld1 => ?_
  have held1 : Holding snap ids w1 := ⟨hw1, hheld1⟩
  cases r with
  | some => exact held1.ret (hnoted.trans (retryOrFail_observes hopen' _ _ _))
  | none => exact held1.ret (hnoted.trans (settleEffect_observes hopen' _))

lemma settleOutcomes_safe (hnodup : (outcomes.map EffectOutcome.effectIndex).Nodup)
    (hopen : ∀ o ∈ outcomes, Open b.state o.effectIndex) :
    Safe runnerProtocol
      (fun r w' => (∀ b', r = some b' → Settles b.state b'.state) ∧ Held snap ids w')
      (settleOutcomes R snap b outcomes) w := by
  induction outcomes generalizing b w with
  | nil =>
    refine held.ret (fun b' hb' => ?_)
    cases hb'
    exact .refl
  | cons o outcomes ih =>
    obtain ⟨e, he, -⟩ := (hopen o mem_cons_self).pending
    obtain ⟨hnot, hnodup⟩ := nodup_cons.mp hnodup
    rw [settleOutcomes, he]
    refine Safe.bind held.sane (settleOutcome_safe held (hopen o mem_cons_self))
      fun b1 w1 hw1 hobs => ?_
    obtain ⟨hobserves, hheld1⟩ := hobs
    refine (ih ⟨hw1, hheld1⟩ hnodup fun o' ho' => ?_).mono fun r w2 _ hr => ?_
    · -- the outcomes that are left are about other effects
      refine hobserves.others _ (fun heq => hnot ?_) (hopen o' (mem_cons_of_mem _ ho'))
      rw [heq]
      exact mem_map_of_mem ho'
    · exact ⟨fun b' hb' => ReflTransGen.trans hobserves.settles (hr.1 b' hb'), hr.2⟩

lemma applyEffectOutcomes_goes (hbegun : Begun snap.state s) (standing : Standing s node position a)
    (hnodup : (outcomes.map EffectOutcome.effectIndex).Nodup)
    (hopen : ∀ o ∈ outcomes, Open s o.effectIndex) :
    GoesOn s.definition (applyEffectOutcomes R snap s node position outcomes segment) w := by
  rw [applyEffectOutcomes]
  refine Safe.bind held.sane (settleOutcomes_safe held hnodup hopen)
    fun r w1 hw1 hr => ?_
  obtain _ | b := r
  · exact goes_ret (.inl (by simp))
  have hsettles := hr.1 b rfl
  have hgoes := concludeBatch_goes ⟨hw1, hr.2⟩
    ((Observed.of_begun hbegun).settles hsettles) (standing.frame hsettles.frame) segment
  rwa [hsettles.frame.definition] at hgoes

lemma advanceActivation_goes (hbegun : Begun snap.state s) (standing : Standing s node position a) :
    GoesOn s.definition (advanceActivation R snap s node position a segment) w := by
  rw [advanceActivation]
  split
  · exact goes_ret (.inl (by simp))
  · split
    · exact goes_ret (.inl (by simp))
    · rename_i houtput
      exact finishEffectActivation_goes held (.of_begun hbegun) standing houtput
  rename_i hindices
  split
  · exact goes_finished (yield_quiet held hbegun)
  obtain ⟨hnodup, hopen⟩ := pendingEffectIndices_spec
    ((Observed.of_begun hbegun).shape (held.shape)) standing.mem hindices
  refine Safe.bind held.sane (executeEffectBatch_safe held hbegun hopen) fun outcomes w1 hw1 h => ?_
  obtain ⟨hmap, hheld1⟩ := h
  refine applyEffectOutcomes_goes ⟨hw1, hheld1⟩ hbegun standing (hmap ▸ hnodup) fun o ho => ?_
  exact hopen _ (hmap ▸ mem_map_of_mem ho)

end Outcomes

lemma activationIndex_spec {n : ℕ} (h : activationIndex s n = some position) :
    ∃ a, s.activations[position]? = some a ∧ a.nodeIndex = n := by
  obtain ⟨hlt, hindex, -⟩ := findIdx?_eq_some_iff_getElem.mp h
  exact ⟨s.activations[position], getElem?_eq_getElem hlt, by simpa using hindex⟩

lemma advanceNodeEffects_goes (held : Holding snap ids w)
    (hbegun : Begun snap.state s) (hfailure : s.failure = none)
    (hnode : s.definition.nodes[s.currentNode]? = some node)
    (heffects : nodeHasEffects node.body = true) :
    GoesOn s.definition (advanceNodeEffects R snap s node segment) w := by
  rw [advanceNodeEffects]
  split
  · exact goes_ret (.inl (by simp))
  rename_i hposition
  obtain ⟨a, ha, hindex⟩ := activationIndex_spec hposition
  rw [ha]
  exact advanceActivation_goes held hbegun ⟨hfailure, ha, hindex, hnode, heffects⟩

end Nodes

/-! ### Rounds and segments -/

section Segments

variable {s : State} {node : Node} {segment : SegmentBudget} {R : Runner}

lemma names_activated {activation : Activation} {n : ℕ} (hbegun : Begun snap.state s) :
    Named snap (activation.id :: ids) (activated s activation n) := by
  intro x hx
  rw [← hbegun.frame.names]
  simp only [State.names, activated, map_append, map_cons, map_nil, mem_append,
    mem_cons, not_mem_nil, or_false] at hx ⊢
  tauto

section Active

variable (held : Holding snap ids w) (hbegun : Begun snap.state s)

include held hbegun

lemma executeIf_goes {body : IfNode} (ready : Ready s node) (hbody : node.body = .branch body) :
    GoesOn s.definition (executeIf snap s node body segment) w := by
  rw [executeIf]
  split
  · exact goes_finished (fail_fails held hbegun).quiet
  split
  · exact goes_finished (fail_fails held hbegun).quiet
  split
  · exact goes_ret (.inl (by simp))
  rename_i matched _ _ next hnext
  refine safe_newID held (fun _ _ _ => goes_ret (.inl (by simp)))
    fun id w1 held1 hnew _ => ?_
  have hlt : s.currentNode < next := by
    refine ready.valid.branch _ node body _ next ready.here hbody ?_ hnext
    cases matched
    · exact .inr rfl
    · exact .inl rfl
  have hfresh := fresh_of_names hbegun hnew (by simp) nodup_nil
  exact goes_commit held1 (names_activated hbegun) (change_close hbegun .refl
    (.activate ready (by rw [hbody]; rfl) hlt hfresh)) (.running rfl) rfl

lemma prepareWait_quiet {body : WaitNode} (ready : Ready s node) (hbody : node.body = .wait body) :
    Quiet (prepareWait snap s node body) w := by
  rw [prepareWait]
  split
  · exact (fail_fails held hbegun).quiet
  refine safe_newID held (fun _ _ _ => quiet_ret _) fun id w1 held1 hnew _ => ?_
  refine safe_newID held1 (fun _ _ _ => quiet_ret _) fun waitID w2 held2 _ _ => ?_
  have hfresh := fresh_of_names hbegun hnew (by simp) nodup_nil
  refine quiet_commit held2 (fun x hx => ?_)
    (change_close hbegun .refl (.wait ready hbody hfresh)) (.waiting rfl)
  have hnames : x ∈ snap.state.names ∨ x ∈ id :: ids :=
    names_activated (n := s.currentNode) hbegun x hx
  refine hnames.imp_right fun hmem => ?_
  exact mem_cons_of_mem _ hmem

lemma complete_quiet {body : ReturnNode} (ready : Ready s node) (hbody : node.body = .ret body) :
    Quiet (complete R snap s node body) w := by
  rw [complete]
  split
  · exact (fail_fails held hbegun).quiet
  split
  · exact (fail_fails held hbegun).quiet
  refine safe_newID held (fun _ _ _ => quiet_ret _) fun id w1 held1 hnew _ => ?_
  have hfresh := fresh_of_names hbegun hnew (by simp) nodup_nil
  exact quiet_commit held1 (names_activated hbegun) (change_close hbegun .refl
    (.activate ready (by rw [hbody]; rfl) (Nat.lt_succ_self s.currentNode) hfresh))
    (.completed rfl ready.failure)

lemma activateEffects_goes (ready : Ready s node) (heffects : nodeHasEffects node.body = true) :
    GoesOn s.definition (activateEffects R snap s node segment) w := by
  rw [activateEffects]
  refine Safe.bind held.sane (prepareNodeEffects_safe held hbegun ready heffects)
    fun r w1 hw1 hprepared => ?_
  split
  · rename_i next herr hnext
    obtain ⟨hheld1, hfailure, hdefinition, hcurrent⟩ := hprepared herr next hnext
    have hnode : next.state.definition.nodes[next.state.currentNode]? = some node := by
      rw [hdefinition, hcurrent]
      exact ready.here
    rw [← hdefinition]
    exact advanceNodeEffects_goes ⟨hw1, hheld1⟩ (begun_refl _) hfailure hnode heffects
  · exact goes_ret (.inr rfl)

lemma activateNode_goes (hfailure : s.failure = none) (hvalid : s.definition.Valid)
    (hnode : s.definition.nodes[s.currentNode]? = some node)
    (hfree : activationIndex s s.currentNode = none) :
    GoesOn s.definition (activateNode R snap s node segment) w := by
  rw [activateNode]
  split
  · exact goes_finished (yield_quiet held hbegun)
  split
  · exact goes_finished (fail_fails held hbegun).quiet
  rename_i hroom
  have ready : Ready s node := ⟨hfailure, hvalid, hnode, hfree, not_le.mp hroom⟩
  split
  · rename_i hbody
    exact executeIf_goes held hbegun ready hbody
  · rename_i hbody
    exact goes_finished (prepareWait_quiet held hbegun ready hbody)
  · rename_i hbody
    exact goes_finished (complete_quiet held hbegun ready hbody)
  rename_i hbranch hwait hret
  refine activateEffects_goes held hbegun ready ?_
  cases hbody : node.body with
  | branch body => exact absurd hbody (hbranch body)
  | wait body => exact absurd hbody (hwait body)
  | ret body => exact absurd hbody (hret body)
  | _ => rfl

/-- **One round of a segment.** -/
theorem advance_goes (hfailure : s.failure = none) (hvalid : s.definition.Valid) :
    GoesOn s.definition (advance R snap s segment) w := by
  rw [advance]
  split
  · exact goes_finished (fail_fails held hbegun).quiet
  rename_i hnode
  split
  · rename_i hfree
    exact activateNode_goes held hbegun hfailure hvalid hnode hfree
  split
  · rename_i heffects
    exact advanceNodeEffects_goes held hbegun hfailure hnode heffects
  · exact goes_ret (.inl (by simp))

end Active

/-- **All rounds of a segment**: only the first one works on a state that is not the one of
its revision. -/
theorem segmentRounds_quiet (rounds : ℕ) (held : Holding snap ids w)
    (hbegun : Begun snap.state s) (hvalid : s.definition.Valid) :
    Quiet (segmentRounds R rounds snap s segment) w := by
  induction rounds generalizing w snap s segment ids with
  | zero => exact quiet_ret _
  | succ _ ih =>
    rw [segmentRounds]
    split
    · exact quiet_ret _
    split
    · rename_i hf
      exact runCompensations_quiet held hbegun (by simp [hf])
    rename_i hfailure
    refine Safe.bind held.sane (advance_goes held hbegun hfailure hvalid) fun r w1 hw1 hgoes => ?_
    split
    · rename_i next herr hdone hnext
      obtain ⟨hheld1, hdefinition⟩ := hgoes herr hdone next hnext
      exact ih ⟨hw1, hheld1⟩ (begun_refl _) (hdefinition ▸ hvalid)
    · exact quiet_ret _

lemma runSegment_quiet (rounds : ℕ) (held : Holding snap ids w) :
    Quiet (runSegment R rounds snap) w := by
  rw [runSegment]
  split
  · exact quiet_ret _
  rename_i hvalid
  split
  · exact (fail_fails held (begun_refl _)).quiet
  rename_i hsegments
  have hvalid' : snap.state.definition.Valid :=
    validateDefinition_valid (by simpa using hvalid)
  exact segmentRounds_quiet rounds held (.inr ⟨rfl, not_le.mp hsegments⟩) hvalid'

end Segments

/-! ### Requests -/

section Requests

variable {R : Runner} {rounds : ℕ} {runID reason : GoString} {expectedRevision : ℕ}
  {response : RawMessage} {request : StartRequest}

lemma resume_quiet (hw : Sane w) : Quiet (resume R rounds runID expectedRevision) w := by
  refine safe_load hw (fun _ _ _ => quiet_ret _) fun snap w1 held1 => ?_
  dsimp only
  split
  · exact quiet_ret _
  split
  · exact quiet_ret _
  split
  · exact quiet_ret _
  · exact runSegment_quiet rounds held1

lemma pendingWait_spec {i j : ℕ} (h : pendingWait snap = some (i, j)) :
    ∃ wait, snap.state.waits[i]? = some wait ∧ wait.status = .pending ∧
      activationIndexByID snap.state wait.activationID = some j := by
  rw [pendingWait] at h
  obtain ⟨_, -, h⟩ := bind_eq_some_iff.mp h
  split at h
  · cases h
  obtain ⟨k, -, h⟩ := bind_eq_some_iff.mp h
  obtain ⟨wait, hwait, h⟩ := bind_eq_some_iff.mp h
  split at h
  · cases h
  rename_i hpending
  obtain ⟨l, hl, h⟩ := bind_eq_some_iff.mp h
  obtain ⟨rfl, rfl⟩ : k = i ∧ l = j := by simpa using h
  exact ⟨wait, hwait, by simpa using hpending, hl⟩

lemma names_resolveWaitState {s t : State} {i j : ℕ} (h : resolveWaitState s i j response = some t) :
    t.names = s.names := by
  obtain ⟨a, _, _, -, -, -, rfl⟩ := resolveWaitState_spec h
  show (s.updateActivation j _).names = s.names
  refine names_updateActivation fun a => ?_
  rfl

lemma resolveWait_quiet (hw : Sane w) :
    Quiet (resolveWait R rounds runID expectedRevision response) w := by
  rw [resolveWait]
  split
  · exact quiet_ret _
  refine safe_load hw (fun _ _ _ => quiet_ret _) fun snap w1 held1 => ?_
  dsimp only
  split
  · exact quiet_ret _
  split
  · exact quiet_ret _
  rename_i hpending
  obtain ⟨_, hwait, hstatus, hj⟩ := pendingWait_spec hpending
  split
  · exact quiet_ret _
  rename_i resolved hresolved
  have hnames : Named snap [] resolved :=
    fun id hid => .inl (names_resolveWaitState hresolved ▸ hid)
  refine safe_apply held1 hnames (change_close (begun_refl _) .refl
    (.resolve hwait hstatus hj hresolved)) (.running rfl) (fun _ _ _ => quiet_ret _)
    fun w2 held2 => ?_
  dsimp only
  split
  · exact quiet_ret _
  · exact runSegment_quiet rounds held2

lemma cancel_quiet (hw : Sane w) : Quiet (cancel runID expectedRevision reason) w := by
  refine safe_load hw (fun _ _ _ => quiet_ret _) fun snap w1 held1 => ?_
  dsimp only
  split
  · exact quiet_ret _
  split
  · exact quiet_ret _
  have hfails := beginFailure_fails (k := lit "workflow.cancelled") (e := ⟨orElse (trimSpace reason)
      errCancellationRequested.text, false, false⟩) held1
    (change_close (begun_refl _) .refl (.intend (.inr rfl))) (names_of_frame (.refl _))
  refine Safe.bind held1.sane hfails fun r w2 _ _ => ?_
  split
  all_goals exact quiet_ret _

lemma startRun_quiet (hw : Sane w)
    (hcompiled : ∃ draft, compileDefinition R.contracts draft = some request.definition) :
    Quiet (startRun R rounds request) w := by
  obtain ⟨_, hdraft⟩ := hcompiled
  rw [startRun]
  split
  · exact quiet_ret _
  split
  · exact quiet_ret _
  refine safe_create hw ⟨_, _, _,
      DefinitionDraft.Sound.cloned (.cloned (compileDefinition_sound hdraft)), rfl⟩
    (fun _ _ _ => quiet_ret _) fun snap w1 held1 => ?_
  exact runSegment_quiet rounds held1

/-- **Every request keeps to the protocol**, if the Definitions it starts are compiled. -/
theorem serveRunner_safe (q : Request) (hcompiled : q.Compiled) (hw : Sane w) :
    Quiet (serveRunner q) w := by
  cases q with
  | startRun => exact startRun_quiet hw hcompiled
  | resume => exact resume_quiet hw
  | resolveWait => exact resolveWait_quiet hw
  | cancel => exact cancel_quiet hw

end Requests

/-! ### The whole system -/

/-- Requests as callers may make them: what is started was compiled. -/
abbrev Call : Type := { q : Request // q.Compiled }

def serveCall (q : Call) : RProg Returned := serveRunner q.1

/-- The configurations that the system can reach, whatever its callers, executors and stores
do. -/
abbrev Running (c : Config runnerObject Call Returned) : Prop := Reachable serveCall {} c

variable {c : Config runnerObject Call Returned}

/-- **The revisions of every Run are a history**, in every configuration that the system can
reach. -/
theorem sane_of_reachable (h : Running c) : Sane c.shared := by
  have hempty : Sane {} := ⟨fun _ => .nil, by simp, by simp⟩
  exact (reachable_safe (fun q _ hw => serveRunner_safe q.1 q.2 hw) hempty h).2.inv

/-! ### Requests that are served alone -/

/-- A store that does what it is asked for, with an executor that is a function. -/
def calmRunner (executor : EffectRequest → Except GoError EffectResult) (w : World) :
    (op : RunnerOp) → op.Res × World
  | .create r =>
    let snap := r.snapshot (trimSpace r.id)
    if w.runs snap.runID = [] then (.ok snap, w.push snap) else (.error errConflict, w)
  | .load runID =>
    match (w.runs (trimSpace runID)).head? with
    | some snap => (.ok snap, w)
    | none => (.error errConflict, w)
  | .apply runID expectedRevision m =>
    match (w.runs runID).head? with
    | some current =>
      if current.revision = expectedRevision ∧ Kernel.validTransition current.status m.status then
        (.ok (current.commit m), w.push (current.commit m))
      else (.error errConflict, w)
    | none => (.error errConflict, w)
  | .newID =>
    let id := formatInt w.issued.length
    if id ∉ w.issued ∧ validUTF8 id then (.ok id, { w with issued := id :: w.issued })
    else (.error errConflict, w)
  | .execute q => (executor q, { w with requests := q :: w.requests })
  | .ensureRelation _ _ => (none, w)

lemma calmRunner_exec (executor : EffectRequest → Except GoError EffectResult) (w : World)
    (op : RunnerOp) :
    runnerObject.Exec w op (calmRunner executor w op).1 (calmRunner executor w op).2 := by
  cases op with
  | create r =>
    simp only [calmRunner]
    split
    · rename_i hfree
      exact .inr ⟨trimSpace r.id, fun _ => rfl, hfree, rfl, .inl rfl⟩
    · exact .inl ⟨rfl, _, rfl⟩
  | load =>
    simp only [calmRunner]
    split
    · rename_i snap hsnap
      exact ⟨rfl, .inr ⟨snap, hsnap, rfl⟩⟩
    · exact ⟨rfl, .inl ⟨_, rfl⟩⟩
  | apply =>
    simp only [calmRunner]
    split
    · rename_i current hcurrent
      split
      · rename_i hallowed
        exact .inr ⟨current, hcurrent, hallowed.1, hallowed.2, rfl, .inl rfl⟩
      · exact .inl ⟨rfl, _, rfl⟩
    · exact .inl ⟨rfl, _, rfl⟩
  | newID =>
    simp only [calmRunner]
    split
    · rename_i hfresh
      exact .inr ⟨_, hfresh.1, hfresh.2, rfl, rfl⟩
    · exact .inl ⟨rfl, _, rfl⟩
  | execute | ensureRelation => rfl

/-- The configuration after one more request was served. -/
def served (executor : EffectRequest → Except GoError EffectResult) (q : Call)
    (c : Config runnerObject Call Returned) : Config runnerObject Call Returned :=
  let out := (serveCall q).run (calmRunner executor) c.shared
  ⟨out.2, ⟨q, c.shared, .ret out.1⟩ :: c.threads⟩

lemma Running.served (h : Running c)
    (executor : EffectRequest → Except GoError EffectResult) (q : Call) :
    Running (served executor q c) :=
  ReflTransGen.trans h (steps_run (calmRunner_exec executor) c.shared c.threads q)

end Workflow
