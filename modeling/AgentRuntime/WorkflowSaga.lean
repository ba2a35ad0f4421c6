/-
The saga of a Workflow Run: undoing what was done.

When the activation of a compensation node completes, its undo is registered.  When the
Run fails or is cancelled, the registered undos are carried out, one effect after the
other, the latest first.  A failure may start from many places and at any moment, and the
undos go on over many segments, callers and crashes; what holds is a matter of the
revisions of the Run only.

* **`saga_of_reachable`** — what holds of every revision of every Run.
-/
import AgentRuntime.ValidStrings
import AgentRuntime.WorkflowLedger

namespace Workflow

open GoString GoJson Relation Interleaving List Option Activation
open Kernel (RawMessage RunStatus)

/-! ### One state -/

/-- The activation is one of a compensation node with that undo. -/
def Undoes (s : State) (a : Activation) (undo : EffectCall) : Prop :=
  ∃ node, s.definition.nodes[a.nodeIndex]? = some node ∧ a.nodeID = node.id ∧
    node.body.undo = some undo

/-- All effects of the activation are completed. -/
def EffectsDone (s : State) (a : Activation) : Prop :=
  ∀ id ∈ a.effectIDs, ∃ e ∈ s.effects, e.id = id ∧ e.status = .completed

/-- A failure as `beginFailure` records it. -/
def FailureIntent.Proper (f : FailureIntent) : Prop :=
  (f.status = .failed ∨ f.status = .cancelled) ∧ trimSpace f.code = f.code

/-- The undos that are registered, and how far they got. -/
structure Saga (s : State) : Prop where
  /-- Every undo belongs to a completed node whose effects are completed. -/
  only : ∀ c ∈ s.compensations, ∃ a ∈ s.activations, a.nodeID = c.nodeID ∧ a.status = .completed ∧
    Undoes s a c.call ∧ EffectsDone s a
  once : (s.compensations.map Compensation.nodeID).Nodup
  /-- No undo starts before the Run fails. -/
  calm : s.failure = none → ∀ c ∈ s.compensations, c.status = .pending
  /-- An undo starts after all that were registered later are completed. -/
  order : ∀ (i j : ℕ) (c c' : Compensation), i < j → s.compensations[i]? = some c →
    s.compensations[j]? = some c' → c.status ≠ .pending → c'.status = .completed
  /-- An undo that has started has its effect, and is completed with it. -/
  undone : ∀ c ∈ s.compensations, c.status = .running ∨ c.status = .completed →
    ∃ e ∈ s.effects, e.id = c.effectID ∧ e.compensation = true ∧
      (c.status = .completed → e.status = .completed)
  intent : ∀ f, s.failure = some f → f.Proper

variable {s t : State} {e e' : Effect} {a b : Activation} {undo : EffectCall} {position i : ℕ}
  {output : RawMessage} {c : Compensation} {node : Node} {runID code : GoString} {snap : Snapshot}
  {older : List Snapshot} {body : NodeBody}

/-! ### Effects that are kept -/

/-- Effects stay, and stay completed. -/
def Keeps (s t : State) : Prop :=
  ∀ e ∈ s.effects, ∃ e' ∈ t.effects, e'.id = e.id ∧ e'.compensation = e.compensation ∧
    (e.status = .completed → e'.status = .completed)

lemma keeps_of_mem (h : ∀ e ∈ s.effects, e ∈ t.effects) : Keeps s t :=
  fun e he => ⟨e, h e he, rfl, rfl, id⟩

lemma Settle.keeps {undo : Bool} (h : Settle undo s t i e e') : Keeps s t := by
  obtain ⟨hfound, hpending, -, hfollows, rfl⟩ := h
  intro x hx
  rcases mem_set_of_mem hfound hx with hx | ⟨rfl, hx⟩
  · exact ⟨x, hx, rfl, rfl, id⟩
  refine ⟨e', hx, bare_id hfollows.bare, bare_compensation hfollows.bare, fun hcompleted => ?_⟩
  rw [hpending] at hcompleted
  cases hcompleted

lemma EffectsDone.keep {a' : Activation} (h : EffectsDone s a) (hkeeps : Keeps s t)
    (hids : a'.effectIDs = a.effectIDs) : EffectsDone t a' := by
  intro id hid
  obtain ⟨e, he, heid, hcompleted⟩ := h id (hids ▸ hid)
  obtain ⟨e', he', hid', -, hkeep⟩ := hkeeps e he
  exact ⟨e', he', hid'.trans heid, hkeep hcompleted⟩

lemma Undoes.keep {a' : Activation} (h : Undoes s a undo)
    (hdefinition : t.definition = s.definition) (hindex : a'.nodeIndex = a.nodeIndex)
    (hid : a'.nodeID = a.nodeID) : Undoes t a' undo := by
  obtain ⟨node, hnode, hnodeID, hundo⟩ := h
  exact ⟨node, by rw [hdefinition, hindex]; exact hnode, hid.trans hnodeID, hundo⟩

/-- A completed activation is still there. -/
def Stays (s t : State) : Prop :=
  ∀ a ∈ s.activations, a.status = .completed → ∃ a' ∈ t.activations, a'.status = .completed ∧
    a'.nodeIndex = a.nodeIndex ∧ a'.nodeID = a.nodeID ∧ a'.effectIDs = a.effectIDs

lemma stays_of_mem (h : ∀ a ∈ s.activations, a ∈ t.activations) : Stays s t :=
  fun a ha hcompleted => ⟨a, h a ha, hcompleted, rfl, rfl, rfl⟩

lemma stays_complete
    (h : t.activations = (completeActivation s position output).activations) : Stays s t := by
  intro a ha hcompleted
  rw [h]
  rcases mem_modify_of_mem ha
    with ha | ha
  · exact ⟨a, ha, hcompleted, rfl, rfl, rfl⟩
  · exact ⟨_, ha, rfl, rfl, rfl, rfl⟩

/-- What belongs to an undo is still there. -/
lemma Saga.only_keep (h : Saga s) (hdefinition : t.definition = s.definition) (hkeeps : Keeps s t)
    (hstays : Stays s t) {c' : Compensation} (hc : c ∈ s.compensations)
    (hid : c'.nodeID = c.nodeID) (hcall : c'.call = c.call) :
    ∃ a ∈ t.activations, a.nodeID = c'.nodeID ∧ a.status = .completed ∧ Undoes t a c'.call ∧
      EffectsDone t a := by
  obtain ⟨a, ha, hnodeID, hcompleted, hundoes, hdone⟩ := h.only c hc
  obtain ⟨a', ha', hcompleted', hindex, hnodeID', hids⟩ := hstays a ha hcompleted
  refine ⟨a', ha', ?_, hcompleted', ?_, hdone.keep hkeeps hids⟩
  · rw [hnodeID', hnodeID, hid]
  · rw [hcall]
    exact hundoes.keep hdefinition hindex hnodeID'

lemma Saga.undone_keep (h : Saga s) (hkeeps : Keeps s t)
    (hc : c ∈ s.compensations) (hstatus : c.status = .running ∨ c.status = .completed) :
    ∃ e ∈ t.effects, e.id = c.effectID ∧ e.compensation = true ∧
      (c.status = .completed → e.status = .completed) := by
  obtain ⟨e, he, hid, hkind, hcompleted⟩ := h.undone c hc hstatus
  obtain ⟨e', he', hid', hkind', hkeep⟩ := hkeeps e he
  exact ⟨e', he', hid'.trans hid, hkind'.trans hkind, fun hc => hkeep (hcompleted hc)⟩

/-- A change that concerns no undo. -/
lemma Saga.keep (h : Saga s) (hdefinition : t.definition = s.definition)
    (hcompensations : t.compensations = s.compensations) (hkeeps : Keeps s t) (hstays : Stays s t)
    (hcalm : t.failure = none → s.failure = none)
    (hintent : ∀ f, t.failure = some f → f.Proper) : Saga t := by
  refine ⟨fun c hc => ?_, ?_, fun hnone => ?_, ?_, fun c hc hstatus => ?_, hintent⟩
  · rw [hcompensations] at hc
    exact h.only_keep hdefinition hkeeps hstays hc rfl rfl
  · rw [hcompensations]
    exact h.once
  · rw [hcompensations]
    exact h.calm (hcalm hnone)
  · rw [hcompensations]
    exact h.order
  · rw [hcompensations] at hc
    exact h.undone_keep hkeeps hc hstatus

lemma Saga.settle {undo : Bool} (h : Saga s) (hs : Settle undo s t i e e') : Saga t := by
  have hframe := hs.frame
  refine h.keep hframe.definition hframe.compensations hs.keeps (stays_of_mem fun a ha => ?_)
    (fun hnone => hframe.failure ▸ hnone) (hframe.failure ▸ h.intent)
  rwa [hframe.activations]

lemma Saga.settles (h : Saga s) (hs : Settles s t) : Saga t := hs.keeps h Saga.settle

lemma Saga.begun {s0 : State} (h : Saga s0) (hb : Begun s0 s) : Saga s := by
  rcases hb with rfl | ⟨rfl, -⟩
  · exact h
  · exact { h with }

/-! ### Registering -/

lemma Standing.mem_complete (standing : Standing s node position a) (output : RawMessage) :
    { a with status := .completed, output } ∈ (completeActivation s position output).activations := by
  refine mem_of_getElem? (i := position) ?_
  rw [completeActivation, State.updateActivation, getElem?_modify, standing.found]
  simp

/-- An activation is completed with the outputs of completed effects. -/
lemma effectsDone_of_aggregate
    (h : aggregateEffectOutputs s body a = .ok output) : EffectsDone s a := by
  rw [aggregateEffectOutputs] at h
  split at h
  · cases h
  rename_i hbind
  obtain ⟨_, hmap, -⟩ := bind_eq_some_iff.mp hbind
  intro _ hid
  obtain ⟨e, -, he⟩ := exists_of_forall₂ (mapM_some hmap).flip hid
  obtain ⟨hfind, hcompleted⟩ := filter_eq_some_iff.mp he
  refine ⟨e, mem_of_find?_eq_some hfind, ?_, ?_⟩
  · simpa using find?_some hfind
  · simp only [decide_eq_true_eq] at hcompleted
    exact hcompleted.1

lemma Registers.spec {registered : List Compensation} (h : Registers node registered)
    (hc : c ∈ registered) :
    c.nodeID = node.id ∧ node.body.undo = some c.call ∧ c.status = .pending := by
  have hmem : (c.nodeID, c.call, c.status) ∈ registered.map fun c => (c.nodeID, c.call, c.status) :=
    mem_map_of_mem hc
  rw [h] at hmem
  obtain ⟨undo, hundo, heq⟩ := mem_map.mp hmem
  obtain ⟨hid, hcall, hstatus⟩ : node.id = c.nodeID ∧ undo = c.call ∧ .pending = c.status := by
    simpa using heq
  exact ⟨hid.symm, hcall ▸ by simpa using hundo, hstatus.symm⟩

lemma Registers.nodeIDs {registered : List Compensation} (h : Registers node registered) :
    (registered.map Compensation.nodeID).Nodup := by
  have hids : registered.map Compensation.nodeID = node.body.undo.toList.map fun _ => node.id := by
    have hmap := congrArg (map Prod.fst) h
    simpa [List.map_map, Function.comp_def] using hmap
  rw [hids]
  cases node.body.undo <;> simp

/-- The undo of the current node was not registered before: its activation was not
completed. -/
lemma Standing.unregistered (standing : Standing s node position a) (hs : Shape s) (h : Saga s) :
    node.id ∉ s.compensations.map Compensation.nodeID := by
  intro hmem
  obtain ⟨c, hc, hid⟩ := mem_map.mp hmem
  obtain ⟨a', ha', hnodeID, hcompleted, ⟨other, hother, hotherID, -⟩, -⟩ := h.only c hc
  -- nodes have different names, so the activation is one of the current node
  have hsame : other.id = node.id := by rw [← hotherID, hnodeID, hid]
  have hids := (standing.valid hs).ids
  have hlt : a'.nodeIndex < (s.definition.nodes.map Node.id).length := by
    rw [length_map]
    exact (List.getElem?_eq_some_iff.mp hother).1
  have hindex : a'.nodeIndex = s.currentNode := by
    refine (getElem?_inj hlt hids).mp ?_
    rw [getElem?_map, getElem?_map, hother, standing.here, map_some, map_some,
      hsame]
  rcases hs.current standing.failure a' ha' hindex with hrunning | hwaiting
  · rw [hrunning] at hcompleted
    cases hcompleted
  · rw [hwaiting] at hcompleted
    cases hcompleted

/-- **A node completes and its undo is registered.** -/
theorem Saga.register
    {registered : List Compensation} (h : Saga s) (hs : Shape s) (standing : Standing s node position a)
    (houtput : aggregateEffectOutputs s node.body a = .ok output)
    (hregistered : Registers node registered) (hdefinition : t.definition = s.definition)
    (hactivations : t.activations = (completeActivation s position output).activations)
    (heffects : t.effects = s.effects)
    (hcompensations : t.compensations = s.compensations ++ registered)
    (hintent : ∀ f, t.failure = some f → f.Proper) : Saga t := by
  have hkeeps : Keeps s t := keeps_of_mem fun e he => heffects ▸ he
  have hstays : Stays s t := stays_complete hactivations
  have hpending : ∀ c ∈ t.compensations, c.status = .pending := by
    intro c hc
    rw [hcompensations] at hc
    rcases mem_append.mp hc with hc | hc
    · exact h.calm standing.failure c hc
    · exact (hregistered.spec hc).2.2
  refine ⟨fun c hc => ?_, ?_, fun _ => hpending, fun i j c c' _ hc _ hne => ?_, fun c hc hstatus => ?_,
    hintent⟩
  · rw [hcompensations] at hc
    rcases mem_append.mp hc with hc | hc
    · exact h.only_keep hdefinition hkeeps hstays hc rfl rfl
    obtain ⟨hid, hundo, -⟩ := hregistered.spec hc
    obtain ⟨_, hnode', hnodeID⟩ := hs.node a standing.mem
    rw [standing.current, standing.here] at hnode'
    cases hnode'
    refine ⟨{ a with status := .completed, output }, ?_, hnodeID.trans hid.symm, rfl, ?_, ?_⟩
    · rw [hactivations]
      exact standing.mem_complete output
    · refine ⟨node, ?_, hnodeID, hundo⟩
      rw [hdefinition]
      exact standing.current ▸ standing.here
    · exact (effectsDone_of_aggregate houtput).keep hkeeps rfl
  · rw [hcompensations, map_append]
    refine nodup_append'.mpr ⟨h.once, hregistered.nodeIDs, fun id hold hnew => ?_⟩
    obtain ⟨c, hc, rfl⟩ := mem_map.mp hnew
    rw [(hregistered.spec hc).1] at hold
    exact standing.unregistered hs h hold
  · exact absurd (hpending c (mem_of_getElem? hc)) hne
  · rw [hpending c hc] at hstatus
    rcases hstatus with hstatus | hstatus <;> cases hstatus

/-! ### Undoing -/

/-- The next undo is the last one that is not completed. -/
lemma nextCompensationPosition_spec (h : nextCompensationPosition s = some position) :
    (∀ c, s.compensations[position]? = some c → c.status ≠ .completed) ∧
    ∀ j c, position < j → s.compensations[j]? = some c → c.status = .completed := by
  obtain ⟨i, hi, rfl⟩ := map_eq_some_iff.mp h
  obtain ⟨hlt, hopen, hbefore⟩ := findIdx?_eq_some_iff_getElem.mp hi
  refine ⟨fun c hc => ?_, fun j c hj hc => ?_⟩
  · obtain ⟨_, rfl⟩ := List.getElem?_eq_some_iff.mp hc
    simpa using hopen
  obtain ⟨_, rfl⟩ := List.getElem?_eq_some_iff.mp hc
  -- what stands behind the position comes first in the reversed list
  have hmiss := hbefore (s.compensations.length - 1 - j) (by omega)
  have hindex : s.compensations.length - 1 - (s.compensations.length - 1 - j) = j := by omega
  simpa [hindex] using hmiss

section Undoing

/-- One undo goes on: the others keep their order. -/
lemma Undoing.order (undoing : Undoing s position c) (h : Saga s) (c' : Compensation) :
    ∀ (i j : ℕ) (d d' : Compensation), i < j → (s.compensations.set position c')[i]? = some d →
      (s.compensations.set position c')[j]? = some d' → d.status ≠ .pending →
      d'.status = .completed := by
  obtain ⟨hopen, hlater⟩ := nextCompensationPosition_spec undoing.next
  intro i j d d' hij hd hd' hne
  rw [getElem?_set] at hd hd'
  by_cases hj : position = j
  · -- nothing that was registered earlier has started
    subst hj
    rw [if_neg (by omega)] at hd
    exact absurd (h.order i position d c hij hd undoing.found hne) (hopen c undoing.found)
  rw [if_neg hj] at hd'
  by_cases hi : position = i
  · exact hlater j d' (hi ▸ hij) hd'
  · rw [if_neg hi] at hd
    exact h.order i j d d' hij hd hd' hne

/-- **One undo goes on.** -/
theorem Saga.advance {c' : Compensation} (h : Saga s) (undoing : Undoing s position c)
    (hdefinition : t.definition = s.definition) (hactivations : t.activations = s.activations)
    (hcompensations : t.compensations = s.compensations.set position c') (hkeeps : Keeps s t)
    (hid : c'.nodeID = c.nodeID) (hcall : c'.call = c.call) (hfailure : t.failure ≠ none)
    (hundone : c'.status = .running ∨ c'.status = .completed → ∃ e ∈ t.effects, e.id = c'.effectID ∧
      e.compensation = true ∧ (c'.status = .completed → e.status = .completed))
    (hintent : ∀ f, t.failure = some f → f.Proper) : Saga t := by
  have hstays : Stays s t := stays_of_mem fun a ha => hactivations ▸ ha
  refine ⟨fun d hd => ?_, ?_, fun hnone => absurd hnone hfailure, ?_, fun d hd hstatus => ?_, hintent⟩
  · rw [hcompensations] at hd
    rcases mem_or_eq_of_mem_set hd with hd | rfl
    · exact h.only_keep hdefinition hkeeps hstays hd rfl rfl
    · exact h.only_keep hdefinition hkeeps hstays (mem_of_getElem? undoing.found) hid hcall
  · rw [hcompensations, map_set_eq undoing.found hid]
    exact h.once
  · rw [hcompensations]
    exact undoing.order h c'
  rw [hcompensations] at hd
  rcases mem_or_eq_of_mem_set hd with hd | rfl
  · exact h.undone_keep hkeeps hd hstatus
  · exact hundone hstatus

lemma Undoing.update_eq (undoing : Undoing s position c) {u : State}
    (hu : u.compensations = s.compensations) (f : Compensation → Compensation) :
    (u.updateCompensation position f).compensations = s.compensations.set position (f c) := by
  rw [State.updateCompensation, hu]
  exact modify_of_getElem? f undoing.found

end Undoing

lemma intent_of_intend {status : RunStatus} {cause : GoError}
    (h : ∀ f, s.failure = some f → f.Proper) (hstatus : status = .failed ∨ status = .cancelled) :
    ∀ f, (s.intend status code cause).failure = some f → f.Proper := by
  intro f hf
  cases hs : s.failure with
  | none =>
    rw [intend_of_none hs] at hf
    cases hf
    exact ⟨hstatus, trimSpace_idem code⟩
  | some =>
    rw [intend_of_some hs] at hf
    exact h f (hs.trans hf)

lemma intent_compensation_failed {detail : GoString} : ∀ f,
    some (⟨.failed, lit "workflow.compensation_failed", detail⟩ : FailureIntent) = some f →
      f.Proper := by
  intro f hf
  cases hf
  have hcode : trimSpace (lit "workflow.compensation_failed") = lit "workflow.compensation_failed" := by
    decide +kernel
  exact ⟨.inl rfl, hcode⟩

lemma Standing.stays_fail {text : GoString} (standing : Standing s node position a) (hs : Shape s)
    (h : t.activations = (s.updateActivation position (Activation.fail code text)).activations) :
    Stays s t := by
  intro b hb hcompleted
  refine ⟨b, ?_, hcompleted, rfl, rfl, rfl⟩
  obtain ⟨j, hj⟩ := mem_iff_getElem?.mp hb
  have hne : position ≠ j := by
    rintro rfl
    cases standing.found.symm.trans hj
    rcases hs.current standing.failure a standing.mem standing.current with hstatus | hstatus
    all_goals
      rw [hstatus] at hcompleted
      cases hcompleted
  refine mem_of_getElem? (i := j) ?_
  rw [h, State.updateActivation, getElem?_modify, hj]
  simp [hne]

lemma Saga.undo_effect (h : Saga s) (hs : Shape s)
    (hc : c ∈ s.compensations) (hrunning : c.status = .running) (he : s.effects[i]? = some e)
    (hid : e.id = c.effectID) : e.compensation = true := by
  obtain ⟨x, hx, hxid, _, -⟩ := h.undone c hc (.inl hrunning)
  have hsame : e = x :=
    inj_on_of_nodup_map hs.effectIDs (mem_of_getElem? he) hx (hid.trans hxid.symm)
  rwa [hsame]

/-- **Whatever moves a Run keeps the saga.** -/
theorem Saga.close (h : Saga s) (hs : Shape s) (hc : Close s t) : Saga t := by
  have hall : ∀ u : State, u.effects = s.effects → Keeps s u :=
    fun u hu => keeps_of_mem fun e he => hu ▸ he
  cases hc with
  | prepare =>
    exact h.keep rfl rfl (keeps_of_mem fun e he => mem_append_left _ he)
      (stays_of_mem fun a ha => mem_append_left _ ha) id h.intent
  | finish standing houtput hregistered =>
    exact h.register hs standing houtput hregistered rfl rfl rfl rfl h.intent
  | unregistered =>
    exact h.keep rfl rfl (hall _ rfl) (stays_complete rfl) (fun hnone => absurd hnone intend_failure_ne)
      (intent_of_intend h.intent (.inl rfl))
  | stuck standing houtput hregistered =>
    exact h.register hs standing houtput hregistered rfl rfl rfl rfl
      (intent_of_intend h.intent (.inl rfl))
  | collapse standing =>
    exact h.keep rfl rfl (hall _ rfl) (standing.stays_fail hs rfl)
      (fun hnone => absurd hnone intend_failure_ne) (intent_of_intend h.intent (.inl rfl))
  | intend hstatus =>
    exact h.keep rfl rfl (hall _ rfl) (stays_of_mem fun a ha => ha)
      (fun hnone => absurd hnone intend_failure_ne) (intent_of_intend h.intent hstatus)
  | activate | wait =>
    exact h.keep rfl rfl (hall _ rfl) (stays_of_mem fun a ha => mem_append_left _ ha) id h.intent
  | resolve _ _ _ ht =>
    obtain ⟨a, _, _, -, -, -, rfl⟩ := resolveWaitState_spec ht
    exact h.keep rfl rfl (hall _ rfl) (stays_complete rfl) id h.intent
  | @startUndo _ c effectID undoing =>
    refine h.advance undoing rfl rfl (undoing.update_eq rfl _)
      (keeps_of_mem fun e he => mem_append_left _ he) rfl rfl undoing.failure (fun _ => ?_) h.intent
    exact ⟨undoIntent s c effectID, by simp [startCompensation], rfl, rfl, by simp⟩
  | retryUndo _ _ _ hsettle => exact h.settle hsettle
  | @completeUndo u _ i _ _ e' _ undoing hrunning heffect hsettle hcompleted =>
    have hframe := hsettle.frame
    have hkind := h.undo_effect hs (mem_of_getElem? undoing.found) hrunning hsettle.found heffect
    have hmem : e' ∈ u.effects := by
      rw [hsettle.eq]
      refine mem_of_getElem? (i := i) ?_
      rw [State.settled, getElem?_set, if_pos rfl,
        if_pos (List.getElem?_eq_some_iff.mp hsettle.found).1]
    refine h.advance undoing hframe.definition hframe.activations
      (undoing.update_eq hframe.compensations _) hsettle.keeps rfl rfl ?_ (fun _ => ?_)
      (hframe.failure ▸ h.intent)
    · show u.failure ≠ none
      rw [hframe.failure]
      exact undoing.failure
    · exact ⟨e', hmem, (bare_id hsettle.follows.bare).trans heffect,
        (bare_compensation hsettle.follows.bare).trans hkind, fun _ => hcompleted⟩
  | failUndo undoing _ _ hsettle =>
    have hframe := hsettle.frame
    refine h.advance undoing hframe.definition hframe.activations
      (undoing.update_eq hframe.compensations _) hsettle.keeps rfl rfl (by simp) (fun hstatus => ?_)
      intent_compensation_failed
    rcases hstatus with hstatus | hstatus <;> cases hstatus
  | refuseUndo undoing =>
    refine h.advance undoing rfl rfl (undoing.update_eq rfl _) (hall _ rfl) rfl rfl
      (by simp) (fun hstatus => ?_) intent_compensation_failed
    rcases hstatus with hstatus | hstatus <;> cases hstatus
  | abandon =>
    exact h.keep rfl rfl (hall _ rfl) (stays_of_mem fun a ha => ha) (by simp)
      intent_compensation_failed

lemma Saga.stored (h : Saga s) : Saga s.stored := by
  refine ⟨fun x hx => ?_, ?_, fun hnone x hx => ?_, fun i j c c' hij hc hc' hne => ?_,
    fun x hx hstatus => ?_, fun f hf => ?_⟩
  · obtain ⟨c, hc, rfl⟩ := mem_map.mp hx
    obtain ⟨a, ha, hid, hcompleted, hundoes, hdone⟩ := h.only c hc
    refine ⟨a.stored, mem_map_of_mem ha, hid, hcompleted, hundoes, fun id hid => ?_⟩
    obtain ⟨e, he, heid, hstatus⟩ := hdone id hid
    exact ⟨e.stored, mem_map_of_mem he, heid, hstatus⟩
  · simpa [State.stored, Compensation.stored, Function.comp_def] using h.once
  · obtain ⟨c, hc, rfl⟩ := mem_map.mp hx
    exact h.calm (map_eq_none_iff.mp hnone) c hc
  · simp only [State.stored, getElem?_map, map_eq_some_iff] at hc hc'
    obtain ⟨d, hd, rfl⟩ := hc
    obtain ⟨d', hd', rfl⟩ := hc'
    exact h.order i j d d' hij hd hd' hne
  · obtain ⟨c, hc, rfl⟩ := mem_map.mp hx
    obtain ⟨e, he, hrest⟩ := h.undone c hc hstatus
    exact ⟨e.stored, mem_map_of_mem he, hrest⟩
  · obtain ⟨g, hg, rfl⟩ := map_eq_some_iff.mp hf
    exact ⟨(h.intent g hg).1, trimSpace_toValidUTF8 (h.intent g hg).2⟩

lemma Change.saga (hc : Change s t) (hs : Shape s) (h : Saga s) : Saga t := by
  obtain ⟨u, v, hbegun, hsettles, rfl | hclose⟩ := hc
  · exact (h.begun hbegun).settles hsettles
  · exact ((h.begun hbegun).settles hsettles).close ((hs.begun hbegun).settles hsettles) hclose

/-! ### One commit -/

/-- Once a failure is intended, nothing is activated any more. -/
theorem Close.halted (h : Close s t) (hfailure : s.failure ≠ none) :
    t.activations.map nodeIndex = s.activations.map nodeIndex := by
  have hmodify : ∀ (f : Activation → Activation) (i : ℕ), (∀ a, (f a).nodeIndex = a.nodeIndex) →
      (s.activations.modify i f).map nodeIndex = s.activations.map nodeIndex :=
    fun f i hf => map_modify_eq hf _ _
  cases h with
  | prepare ready | activate ready | wait ready => exact absurd ready.failure hfailure
  | finish standing | unregistered standing | stuck standing | collapse standing =>
    exact absurd standing.failure hfailure
  | resolve _ _ _ ht =>
    obtain ⟨a, _, _, -, -, -, rfl⟩ := resolveWaitState_spec ht
    exact hmodify _ _ fun a => rfl
  | retryUndo _ _ _ hsettle | completeUndo _ _ _ hsettle
  | failUndo _ _ _ hsettle =>
    exact congrArg (map nodeIndex) hsettle.frame.activations
  | intend | startUndo | refuseUndo | abandon => rfl

theorem Change.halted (h : Change s t) (hfailure : s.failure ≠ none) :
    t.activations.map nodeIndex = s.activations.map nodeIndex := by
  refine h.cases (fun v hframe _ ht => ?_) fun v hframe _ _ hclose => ?_
  · rw [ht, hframe.activations]
  · rw [hclose.halted (hframe.failure ▸ hfailure), hframe.activations]

/-- A failure is kept, or it is the failure of an undo from then on. -/
def Blames (s t : State) : Prop :=
  t.failure = s.failure ∨
  s.failure = none ∧ t.failure ≠ none ∨
  ∃ f, s.failure ≠ none ∧ t.failure = some f ∧ f.code = lit "workflow.compensation_failed"

theorem Close.failure (h : Close s t) : Blames s t := by
  have hintend : ∀ (u : State) (status : RunStatus) (code : GoString) (cause : GoError),
      u.failure = s.failure → (u.intend status code cause).failure = s.failure ∨
        s.failure = none ∧ (u.intend status code cause).failure ≠ none := by
    intro u _ _ _ hu
    cases hs : s.failure with
    | none => exact .inr ⟨rfl, intend_failure_ne⟩
    | some => exact .inl (intend_of_some (hu.trans hs))
  cases h with
  | prepare | finish | activate | wait | startUndo => exact .inl rfl
  | unregistered | stuck | collapse | intend => exact (hintend _ _ _ _ rfl).imp_right .inl
  | resolve _ _ _ ht =>
    obtain ⟨a, _, _, -, -, -, rfl⟩ := resolveWaitState_spec ht
    exact .inl rfl
  | retryUndo _ _ _ hsettle | completeUndo _ _ _ hsettle =>
    exact .inl hsettle.frame.failure
  | failUndo undoing | refuseUndo undoing => exact .inr (.inr ⟨_, undoing.failure, rfl, rfl⟩)
  | abandon hfailure => exact .inr (.inr ⟨_, hfailure, rfl, rfl⟩)

theorem Change.failure (h : Change s t) : Blames s t := by
  refine h.cases (fun v hframe _ ht => ?_) fun v hframe _ _ hclose => ?_
  · exact .inl (ht ▸ hframe.failure)
  · rw [Blames, ← hframe.failure]
    exact hclose.failure

/-- Registered undos are kept. -/
def KeepsUndos (s t : State) : Prop :=
  ∀ c ∈ s.compensations, ∃ c' ∈ t.compensations,
    c'.nodeID = c.nodeID ∧ c'.call = c.call

lemma Close.registered (h : Close s t) : KeepsUndos s t := by
  have hmodify : ∀ (position : ℕ) (f : Compensation → Compensation),
      (∀ c, (f c).nodeID = c.nodeID ∧ (f c).call = c.call) → ∀ c ∈ s.compensations,
      ∃ c' ∈ s.compensations.modify position f, c'.nodeID = c.nodeID ∧ c'.call = c.call := by
    intro position f hf c hc
    rcases mem_modify_of_mem hc with hc | hc
    · exact ⟨c, hc, rfl, rfl⟩
    · exact ⟨f c, hc, hf c⟩
  intro d hd
  cases h with
  | prepare | unregistered | collapse | intend | activate | wait | abandon => exact ⟨d, hd, rfl, rfl⟩
  | finish | stuck => exact ⟨d, mem_append_left _ hd, rfl, rfl⟩
  | resolve _ _ _ ht =>
    obtain ⟨a, _, _, -, -, -, rfl⟩ := resolveWaitState_spec ht
    exact ⟨d, hd, rfl, rfl⟩
  | startUndo | refuseUndo =>
    refine hmodify _ _ (fun _ => ?_) d hd
    exact ⟨rfl, rfl⟩
  | retryUndo _ _ _ hsettle =>
    exact ⟨d, hsettle.frame.compensations ▸ hd, rfl, rfl⟩
  | completeUndo _ _ _ hsettle | failUndo _ _ _ hsettle =>
    rw [State.updateCompensation, hsettle.frame.compensations]
    refine hmodify _ _ (fun _ => ?_) d hd
    exact ⟨rfl, rfl⟩

lemma Change.registered (h : Change s t) : KeepsUndos s t := by
  intro c hc
  refine h.cases (fun v hframe _ ht => ?_) fun v hframe _ _ hclose => ?_
  · exact ⟨c, by rw [ht, hframe.compensations]; exact hc, rfl, rfl⟩
  · exact hclose.registered c (hframe.compensations ▸ hc)

/-- What becomes of the undo of a node that is completed. -/
def Answered (s t : State) (a : Activation) (undo : EffectCall) : Prop :=
  (∃ old ∈ s.activations, old.status = .completed ∧ old.nodeIndex = a.nodeIndex ∧
    old.nodeID = a.nodeID) ∨
  (∃ c ∈ t.compensations, c.nodeID = a.nodeID ∧ c.call = undo) ∨
  (s.failure = none ∧ (∃ f, t.failure = some f ∧ f.code = lit "workflow.compensation_register") ∧
    ∀ b ∈ t.activations, b.nodeIndex ≤ a.nodeIndex)

lemma undo_of_no_effects (h : nodeHasEffects body = false) : body.undo = none := by
  cases body with
  | wait | branch | ret => rfl
  | _ => cases h

/-- What is registered answers for the node. -/
lemma Registers.exists {registered : List Compensation} (h : Registers node registered)
    (hundo : node.body.undo = some undo) :
    ∃ c ∈ registered, c.nodeID = node.id ∧ c.call = undo := by
  have hmem : (node.id, undo, CompensationStatus.pending) ∈
      registered.map fun c => (c.nodeID, c.call, c.status) := by
    rw [h, hundo]
    simp
  obtain ⟨c, hc, heq⟩ := mem_map.mp hmem
  obtain ⟨hid, hcall, -⟩ : c.nodeID = node.id ∧ c.call = undo ∧ c.status = .pending := by
    simpa using heq
  exact ⟨c, hc, hid, hcall⟩

/-- The node of an activation with an undo is the one the Run stands at. -/
lemma Standing.undoes
    (standing : Standing s node position a) (hdefinition : t.definition = s.definition)
    (hindex : b.nodeIndex = a.nodeIndex) (h : Undoes t b undo) :
    b.nodeID = node.id ∧ node.body.undo = some undo := by
  obtain ⟨_, hother, hid, hundo⟩ := h
  rw [hdefinition, hindex, standing.current, standing.here] at hother
  cases hother
  exact ⟨hid, hundo⟩

/-- **A node that is completed has its undo**, or the Run fails because it has not. -/
theorem Close.completes (h : Close s t) (hs : Shape s)
    (hb : b ∈ t.activations) (hcompleted : b.status = .completed) (hundoes : Undoes t b undo) :
    Answered s t b undo := by
  obtain ⟨p, hp⟩ := mem_iff_getElem?.mp hb
  rcases h.completed hs hp hcompleted with hold | ⟨hnode, heffects⟩ | ⟨standing, -, rfl, -, hundo⟩
  · exact .inl ⟨b, mem_of_getElem? hold, hcompleted, rfl, rfl⟩
  · obtain ⟨_, hother, -, hundo⟩ := hundoes
    rw [h.definition, hnode] at hother
    cases hother
    rw [undo_of_no_effects heffects] at hundo
    cases hundo
  right
  obtain ⟨hid, hnode⟩ := standing.undoes h.definition rfl hundoes
  rcases hundo with ⟨_, hregistered, heq⟩ | ⟨_, rfl⟩
  · obtain ⟨c, hc, hcid, hcall⟩ := hregistered.exists hnode
    exact .inl ⟨c, heq ▸ List.mem_append_right _ hc, hcid.trans hid.symm, hcall⟩
  have hcode : trimSpace (lit "workflow.compensation_register") =
      lit "workflow.compensation_register" := by decide +kernel
  refine .inr ⟨standing.failure, ⟨_, intend_of_none standing.failure, hcode⟩, fun x hx => ?_⟩
  rw [standing.current]
  obtain ⟨y, hy, rfl | rfl⟩ := mem_modify hx
  · exact hs.past x hy
  · exact hs.past y hy

theorem Change.completes (h : Change s t) (hs : Shape s)
    (hb : b ∈ t.activations) (hcompleted : b.status = .completed) (hundoes : Undoes t b undo) :
    Answered s t b undo := by
  refine h.cases (fun v hframe _ ht => ?_) fun v hframe _ hshape hclose => ?_
  · rw [ht, hframe.activations] at hb
    exact .inl ⟨b, hb, hcompleted, rfl, rfl⟩
  rcases hclose.completes (hshape hs) hb hcompleted hundoes with hold | hnew | ⟨hnone, hrest⟩
  · exact .inl (hframe.activations ▸ hold)
  · exact .inr (.inl hnew)
  · exact .inr (.inr ⟨hframe.failure ▸ hnone, hrest⟩)

/-- An effect is created, that of the last undo that is not completed. -/
def StartsUndo (s t : State) (e : Effect) : Prop :=
  t.effects.length = s.effects.length + 1 ∧ ∃ position c, Undoing s position c ∧
    c.status = .pending ∧
    t.compensations[position]? = some { c with status := .running, effectID := e.id }

/-- **Undo effects are created one at a time.** -/
theorem Close.creates (h : Close s t) {k : ℕ} (hk : s.effects.length ≤ k)
    (he : t.effects[k]? = some e) (hkind : e.compensation = true) : StartsUndo s t e := by
  have hnone : ∀ u : State, u.effects.length = s.effects.length → u.effects[k]? ≠ some e :=
    fun u hu heq => by
      have hlt := (List.getElem?_eq_some_iff.mp heq).1
      omega
  have hsettled : ∀ {undo : Bool} {u : State} {i : ℕ} {x x' : Effect}, Settle undo s u i x x' →
      u.effects.length = s.effects.length := by
    rintro _ u i x _ ⟨-, -, -, -, rfl⟩
    exact length_set ..
  cases h with
  | prepare _ _ hplans =>
    -- the effects of a node are no undos
    rw [prepareActivation, getElem?_append_right hk] at he
    obtain ⟨plan, hplan, _, -, rfl⟩ := mem_zipWith_intent (mem_of_getElem? he)
    have hforward := (effectPlansForNode_of hplans plan hplan).forward
    exact absurd (hforward.symm.trans hkind) (by decide)
  | @startUndo position c effectID undoing hpending =>
    have hlength : (startCompensation s position c effectID).effects.length = s.effects.length + 1 := by
      simp [startCompensation]
    have heq : e = undoIntent s c effectID := by
      rw [startCompensation, getElem?_append_right hk] at he
      exact mem_singleton.mp (mem_of_getElem? he)
    refine ⟨hlength, position, c, undoing, hpending, ?_⟩
    show (s.compensations.modify position _)[position]? = _
    rw [getElem?_modify, undoing.found, heq]
    simp [undoIntent]
  | resolve _ _ _ ht =>
    obtain ⟨a, _, _, -, -, -, rfl⟩ := resolveWaitState_spec ht
    exact absurd he (hnone s rfl)
  | retryUndo _ _ _ hsettle => exact absurd he (hnone _ (hsettled hsettle))
  | @completeUndo u _ _ _ _ _ _ _ _ _ hsettle
  | @failUndo u _ _ _ _ _ _ _ _ _ _ _ hsettle =>
    exact absurd he (hnone u (hsettled hsettle))
  | _ => exact absurd he (hnone s rfl)

theorem Change.creates (h : Change s t) {k : ℕ} (hk : s.effects.length ≤ k)
    (he : t.effects[k]? = some e) (hkind : e.compensation = true) : StartsUndo s t e := by
  refine h.cases (fun v hframe hlength ht => ?_) fun v hframe hlength _ hclose => ?_
  · have hlt := (List.getElem?_eq_some_iff.mp he).1
    rw [ht] at hlt
    omega
  obtain ⟨_, position, c, undoing, hpending, hstarted⟩ :=
    hclose.creates (hlength ▸ hk) he hkind
  refine ⟨by omega, position, c, ⟨hframe.failure ▸ undoing.failure, ?_, hframe.compensations ▸
    undoing.found⟩, hpending, hstarted⟩
  rw [← undoing.next, nextCompensationPosition, nextCompensationPosition, hframe.compensations]

/-! ### Whole Runs -/

/-- The failure that was committed first; the newest revision comes first in the list. -/
def firstFailure : List Snapshot → Option FailureIntent
  | [] => none
  | snap :: older => (firstFailure older).or snap.state.failure

/-- The failure of a revision, compared with the first one. -/
structure Remembers (l : List Snapshot) (s : State) : Prop where
  none : s.failure = none → firstFailure l = none
  some : ∀ f, s.failure = some f → f.stored = f ∧
    ∃ f₀, firstFailure l = some f₀ ∧ (f = f₀ ∨ f.code = lit "workflow.compensation_failed")

lemma FailureIntent.stored_stored (f : FailureIntent) : f.stored.stored = f.stored := by
  simp [FailureIntent.stored]

lemma Remembers.of_some {l : List Snapshot} {f f₀ : FailureIntent} (hf : s.failure = .some f)
    (hstored : f.stored = f) (hfirst : firstFailure l = .some f₀)
    (hcode : f = f₀ ∨ f.code = lit "workflow.compensation_failed") : Remembers l s := by
  refine ⟨fun hn => ?_, fun g hg => ?_⟩
  · rw [hf] at hn
    cases hn
  rw [hf] at hg
  cases hg
  exact ⟨hstored, f₀, hfirst, hcode⟩

/-- **The first failure of a Run is never forgotten.** -/
theorem History.remembers
    (h : History runID (snap :: older)) : Remembers (snap :: older) snap.state := by
  refine h.newest (fun r hr => ?_) fun {current older'} m _ hm hold => ?_
  · obtain ⟨_, _, _, -, heq⟩ := hr
    have hnone : (r.snapshot runID).state.failure = none := by
      rw [CreateRequest.snapshot, heq]
      rfl
    refine ⟨fun _ => by rw [firstFailure, hnone]; rfl, fun f hf => ?_⟩
    rw [hnone] at hf
    cases hf
  have hnew : (current.commit m).state.failure = m.state.failure.map FailureIntent.stored := rfl
  have hfirst : firstFailure (current.commit m :: current :: older') =
      (firstFailure (current :: older')).or (m.state.failure.map FailureIntent.stored) := rfl
  rcases hm.change.failure with hsame | ⟨hnone, hsome⟩ | ⟨f, hne, hf, hcode⟩
  · rw [hsame] at hnew hfirst
    rcases hfailure : current.state.failure with _ | f
    · rw [hfailure] at hnew hfirst
      rw [hold.none hfailure] at hfirst
      exact ⟨fun _ => hfirst, fun g hg => by rw [hnew] at hg; cases hg⟩
    obtain ⟨hstored, f₀, hf0, hrel⟩ := hold.some f hfailure
    rw [hfailure, map_some, hstored] at hnew
    rw [hf0] at hfirst
    exact .of_some hnew hstored hfirst hrel
  · obtain ⟨f, hf⟩ := ne_none_iff_exists'.mp hsome
    rw [hold.none hnone, hf] at hfirst
    rw [hf] at hnew
    exact .of_some hnew f.stored_stored hfirst (.inl rfl)
  · obtain ⟨g, hg⟩ := ne_none_iff_exists'.mp hne
    obtain ⟨-, f₀, hf0, -⟩ := hold.some g hg
    rw [hf0] at hfirst
    rw [hf] at hnew
    refine .of_some hnew f.stored_stored hfirst (.inr ?_)
    show toValidUTF8 f.code = _
    rw [hcode]
    decide +kernel

lemma History.saga {l : List Snapshot} (h : History runID l) : ∀ snap ∈ l, Saga snap.state := by
  have hboth : ∀ snap ∈ l, Shape snap.state ∧ Saga snap.state := by
    refine h.induct (P := fun s => Shape s ∧ Saga s) (fun r hr => ?_) fun current m hold hm =>
      ⟨(hm.change.shape hold.1).stored, (hm.change.saga hold.1 hold.2).stored⟩
    obtain ⟨_, _, _, -, heq⟩ := hr
    rw [heq]
    exact ⟨shape_start _ _ _, by constructor <;> simp [State.stored]⟩
  exact fun snap hsnap => (hboth snap hsnap).2

/-- The undo of a completed node is registered, unless the Run has failed at that node because
it could not be. -/
def Accounted (l : List Snapshot) (s : State) : Prop :=
  ∀ a ∈ s.activations, a.status = .completed → ∀ undo, Undoes s a undo →
    (∃ c ∈ s.compensations, c.nodeID = a.nodeID ∧ c.call = undo) ∨
    (firstFailure l).map FailureIntent.code = some (lit "workflow.compensation_register") ∧
      ∀ b ∈ s.activations, b.nodeIndex ≤ a.nodeIndex

/-- The last node stays the last one once a failure is intended. -/
lemma Change.last (h : Change s t) (hfailure : s.failure ≠ none) {n : ℕ}
    (hlast : ∀ b ∈ s.activations, b.nodeIndex ≤ n) : ∀ b ∈ t.activations, b.nodeIndex ≤ n := by
  intro b hb
  have hmem : b.nodeIndex ∈ t.activations.map Activation.nodeIndex := mem_map_of_mem hb
  rw [h.halted hfailure] at hmem
  obtain ⟨a, ha, heq⟩ := mem_map.mp hmem
  rw [← heq]
  exact hlast a ha

/-- What was accounted for stays so. -/
lemma Accounted.commit {current : Snapshot} {m : Mutation}
    (h : Accounted (current :: older) current.state) (hs : Shape current.state)
    (hremembers : Remembers (current :: older) current.state) (hm : Commits current m) :
    Accounted (current.commit m :: current :: older) (current.commit m).state := by
  have hfirst : firstFailure (current.commit m :: current :: older) =
      (firstFailure (current :: older)).or (m.state.failure.map FailureIntent.stored) := rfl
  have hkept : KeepsUndos m.state (current.commit m).state :=
    fun c hc => ⟨c.stored, mem_map_of_mem hc, rfl, rfl⟩
  have hlast : ∀ n, (∀ b ∈ m.state.activations, b.nodeIndex ≤ n) →
      ∀ b ∈ (current.commit m).state.activations, b.nodeIndex ≤ n :=
    fun n hn => forall_mem_map.mpr hn
  intro x hx hcompleted undo hundoes
  obtain ⟨a, ha, rfl⟩ := mem_map.mp hx
  rcases hm.change.completes hs ha hcompleted hundoes with
    ⟨old, hold, holdCompleted, hindex, hid⟩ | ⟨c, hc, hid, hcall⟩ | ⟨hnone, ⟨f, hf, hcode⟩, hmax⟩
  · -- the node was completed before
    obtain ⟨node, _, hnodeID, hundo⟩ := hundoes
    have hundoes' : Undoes current.state old undo := by
      refine ⟨node, ?_, hid.trans hnodeID, hundo⟩
      rwa [← hm.change.definition, hindex]
    rcases h old hold holdCompleted undo hundoes' with ⟨c, hc, hcid, hcall⟩ | ⟨hcode, hmax⟩
    · obtain ⟨c', hc', hid', hcall'⟩ := hm.change.registered c hc
      obtain ⟨c'', hc'', hid'', hcall''⟩ := hkept c' hc'
      exact .inl ⟨c'', hc'', by rw [hid'', hid', hcid, hid]; rfl, by rw [hcall'', hcall', hcall]⟩
    have hfailure : current.state.failure ≠ none := by
      intro hnone
      rw [hremembers.none hnone] at hcode
      cases hcode
    obtain ⟨_, hf0, hcode0⟩ := map_eq_some_iff.mp hcode
    refine .inr ⟨?_, hlast _ (hm.change.last hfailure ?_)⟩
    · rw [hfirst, hf0]
      exact congrArg some hcode0
    intro b hb
    show b.nodeIndex ≤ a.nodeIndex
    rw [← hindex]
    exact hmax b hb
  · obtain ⟨c', hc', hid', hcall'⟩ := hkept c hc
    exact .inl ⟨c', hc', by rw [hid', hid]; rfl, by rw [hcall', hcall]⟩
  refine .inr ⟨?_, hlast _ hmax⟩
  rw [hfirst, hremembers.none hnone, hf]
  show some (toValidUTF8 f.code) = _
  rw [hcode]
  decide +kernel

lemma History.accounted
    (h : History runID (snap :: older)) : Accounted (snap :: older) snap.state := by
  refine h.newest (fun _ hr a ha => ?_) fun {current _} _ hhistory hm ih => ?_
  · obtain ⟨_, _, _, -, heq⟩ := hr
    rw [CreateRequest.snapshot, heq] at ha
    cases ha
  · exact ih.commit (hhistory.shape current mem_cons_self) hhistory.remembers hm

/-- The activated nodes are those that were activated before the Run failed. -/
theorem History.halted
    (h : History runID (snap :: older)) : ∀ old ∈ older, old.state.failure ≠ none →
      snap.state.failure ≠ none ∧ snap.state.activations.map nodeIndex =
        old.state.activations.map nodeIndex := by
  refine h.newest (by simp) fun {current _} m _ hm ih => ?_
  intro old hold hfailure
  obtain ⟨hcurrent, hsame⟩ : current.state.failure ≠ none ∧
      current.state.activations.map nodeIndex =
        old.state.activations.map nodeIndex := by
    rcases mem_cons.mp hold with rfl | hold
    · exact ⟨hfailure, rfl⟩
    · exact ih old hold hfailure
  refine ⟨fun hnone => hcurrent ?_, ?_⟩
  · have hm' : m.state.failure = none := map_eq_none_iff.mp hnone
    rcases hm.change.failure with heq | ⟨hnone', -⟩ | ⟨f, -, hf, -⟩
    · rw [← heq, hm']
    · exact hnone'
    · rw [hm'] at hf
      cases hf
  · show (m.state.activations.map stored).map nodeIndex = _
    rw [List.map_map, ← hsame]
    exact hm.change.halted hcurrent

/-- A revision and the one before it: undo effects are created one at a time, for the last
undo that is not completed. -/
def Creates (old new : State) : Prop :=
  ∀ k e, old.effects.length ≤ k → new.effects[k]? = some e → e.compensation = true →
    new.effects.length = old.effects.length + 1 ∧ ∃ (position : ℕ) (c c' : Compensation),
      old.compensations[position]? = some c ∧ c.status = .pending ∧
      (∀ j d, position < j → old.compensations[j]? = some d → d.status = .completed) ∧
      new.compensations[position]? = some c' ∧ c'.status = .running ∧ c'.effectID = e.id

lemma Change.creates_stored (h : Change s t) : Creates s t.stored := by
  intro k x hk hx hkind
  obtain ⟨e, he, rfl⟩ : ∃ e, t.effects[k]? = some e ∧ e.stored = x := by
    simpa [State.stored] using hx
  obtain ⟨hlength, position, c, undoing, hpending, hstarted⟩ := h.creates hk he hkind
  refine ⟨by simpa [State.stored] using hlength, position, c,
    { c with status := .running, effectID := e.id }.stored, undoing.found, hpending,
    fun j d hj hd => (nextCompensationPosition_spec undoing.next).2 j d hj hd, ?_, rfl, rfl⟩
  show (t.compensations.map Compensation.stored)[position]? = _
  rw [getElem?_map, hstarted]
  rfl

/-- How a Run ends: everything is undone, and the failure is the first one. -/
def Ended (snap : Snapshot) (older : List Snapshot) : Prop :=
  snap.status = .failed ∨ snap.status = .cancelled →
    snap.errorCode ≠ lit "workflow.compensation_failed" →
    (∀ c ∈ snap.state.compensations, c.status = .completed) ∧
    ∃ f, firstFailure (snap :: older) = some f ∧ snap.status = f.status ∧
      toValidUTF8 snap.errorCode = f.code

lemma Commits.ended {current : Snapshot} {m : Mutation}
    (hm : Commits current m) (hsaga : Saga m.state)
    (hremembers : Remembers (current :: older) current.state) :
    Ended (current.commit m) (current :: older) := by
  intro hstatus hcode
  have hfirst : firstFailure (current.commit m :: current :: older) =
      (firstFailure (current :: older)).or (m.state.failure.map FailureIntent.stored) := rfl
  change m.status = .failed ∨ m.status = .cancelled at hstatus
  change trimSpace m.errorCode ≠ _ at hcode
  cases hm.ends with
  | running h | waiting h | completed h => rw [h] at hstatus; rcases hstatus with h | h <;> cases h
  | failed f hf hterminal hmcode hdone =>
    obtain ⟨hproper, htrim⟩ := hsaga.intent f hf
    rw [hmcode, htrim] at hcode
    have hstatus' : m.status = f.status := by rw [hterminal, FailureIntent.terminalStatus, if_pos hproper]
    -- the failure that ends the Run is the one that was committed first
    have hfirst' : firstFailure (current.commit m :: current :: older) = some f.stored := by
      rw [hfirst, hf]
      rcases hm.change.failure with hsame | ⟨hnone, -⟩ | ⟨g, -, hg, hgcode⟩
      · obtain ⟨hstored, _, hf0, rfl | hbad⟩ := hremembers.some f (hsame ▸ hf)
        · rw [hf0, hstored]
          rfl
        · exact absurd hbad hcode
      · rw [hremembers.none hnone]
        rfl
      · cases hf.symm.trans hg
        exact absurd hgcode hcode
    refine ⟨fun x hx => ?_, f.stored, hfirst', hstatus', ?_⟩
    · obtain ⟨c, hc, rfl⟩ := mem_map.mp hx
      exact (hdone.resolve_left hcode) c hc
    · show toValidUTF8 (trimSpace m.errorCode) = toValidUTF8 f.code
      rw [hmcode, htrim]

lemma History.ended (h : History runID (snap :: older)) : Ended snap older := by
  cases h with
  | create => exact fun hstatus => by rcases hstatus with h | h <;> cases h
  | @commit current _ _ hhistory hm =>
    have hshape := hhistory.shape current mem_cons_self
    have hsaga := hhistory.saga current mem_cons_self
    exact hm.ended (hm.change.saga hshape hsaga) hhistory.remembers

/-- The saga of a Run up to one of its revisions. -/
structure Told (snap : Snapshot) (older : List Snapshot) : Prop where
  /-- Undos are registered for nodes that are completed, with their effects. -/
  only : ∀ c ∈ snap.state.compensations, ∃ a ∈ snap.state.activations, a.nodeID = c.nodeID ∧
    a.status = .completed ∧ Undoes snap.state a c.call ∧ EffectsDone snap.state a
  once : (snap.state.compensations.map Compensation.nodeID).Nodup
  accounted : Accounted (snap :: older) snap.state
  halted : ∀ old ∈ older, old.state.failure ≠ none →
    snap.state.activations.map Activation.nodeIndex = old.state.activations.map Activation.nodeIndex
  /-- An undo starts after all that were registered later are completed. -/
  order : ∀ (i j : ℕ) (c c' : Compensation), i < j → snap.state.compensations[i]? = some c →
    snap.state.compensations[j]? = some c' → c.status ≠ .pending → c'.status = .completed
  undone : ∀ c ∈ snap.state.compensations, c.status = .completed → ∃ e ∈ snap.state.effects,
    e.id = c.effectID ∧ e.compensation = true ∧ e.status = .completed
  creates : ∀ old ∈ older.head?, Creates old.state snap.state
  ended : Ended snap older

lemma History.told (h : History runID (snap :: older)) : Told snap older := by
  have hsaga := h.saga snap mem_cons_self
  refine ⟨hsaga.only, hsaga.once, h.accounted, fun old hold hf => (h.halted old hold hf).2, hsaga.order,
    fun c hc hcompleted => ?_, fun old hold => ?_, h.ended⟩
  · obtain ⟨e, he, hid, hkind, hdone⟩ := hsaga.undone c hc (.inr hcompleted)
    exact ⟨e, he, hid, hkind, hdone hcompleted⟩
  cases h with
  | create => cases hold
  | commit _ _ hm =>
    cases hold
    exact hm.change.creates_stored

/-- **The saga of every Run**, whatever callers, executors and stores do.  Undos are
registered for completed nodes, at most once each, and always unless the Run has failed at
the last node because the undo could not be registered.  After a failure was committed no
node is activated.  Undos are carried out one at a time, the latest first, each after the
one before it is completed.  A Run that ends without the failure of an undo has undone
everything, and ends as its first failure asks for. -/
theorem saga_of_reachable {c : Config runnerObject Call Returned} (h : Running c)
    (runID : GoString) (snap : Snapshot) (older : List Snapshot)
    (hsuffix : (snap :: older) <:+ c.shared.runs runID) : Told snap older :=
  (((sane_of_reachable h).history runID).of_isSuffix hsuffix).told

/-- The payment is made, and its caller gives up before the return.  Another caller then
cancels the Run. -/
def sampleCancelled : Config runnerObject Call Returned :=
  served (sampleExecutor (lit "[1]")) ⟨.cancel sampleRunID 3 (lit "changed my mind"), trivial⟩
    (served (sampleExecutor (lit "[1]")) (sampleStart 1) ⟨{}, []⟩)

lemma sampleCancelled_running : Running sampleCancelled :=
  Running.served (Running.served .refl _ _) _ _

/-- The undo of the payment is registered, started after the failure was committed, and
completed before the Run is cancelled. -/
theorem sampleCancelled_told :
    (sampleCancelled.shared.runs sampleRunID).map (fun snap =>
      (snap.status, snap.state.compensations.map Compensation.status, snap.state.failure.isSome)) =
      [(.cancelled, [.completed], true), (.running, [.completed], true),
        (.running, [.running], true), (.running, [.pending], true),
        (.running, [.pending], false), (.running, [], false), (.running, [], false)] ∧
    ∀ snap older, (snap :: older) <:+ sampleCancelled.shared.runs sampleRunID → Told snap older :=
  ⟨by decide +kernel, saga_of_reachable sampleCancelled_running sampleRunID⟩

/-- The executor refuses the payment, with an error code that is no UTF-8. -/
def sampleRefused : Config runnerObject Call Returned :=
  served (fun _ => .ok { disposition := .failed, errorCode := [0xff] }) (sampleStart 4) ⟨{}, []⟩

/-- A payment whose output has nothing that the undo asks for: the node is completed, and no
undo is registered for it.  And a payment that is refused: the Run ends with the code of the
executor, and the failure has been stored with another one. -/
theorem sampleUnregistered : (Running (samplePaid (lit "[]")) ∧
    ¬ ∀ snap ∈ (samplePaid (lit "[]")).shared.runs sampleRunID, ∀ a ∈ snap.state.activations,
      a.status = .completed → EffectsDone snap.state a → ∀ undo, Undoes snap.state a undo →
      ∃ c ∈ snap.state.compensations, c.nodeID = a.nodeID) ∧
    Running sampleRefused ∧ ∃ snap ∈ (sampleRefused.shared.runs sampleRunID).head?,
      snap.status = .failed ∧ snap.errorCode = [0xff] ∧
      (firstFailure (sampleRefused.shared.runs sampleRunID)).map FailureIntent.code =
        some GoString.replacement := by
  have hmissing : ¬ ∀ snap ∈ (samplePaid (lit "[]")).shared.runs sampleRunID,
      ∀ a ∈ snap.state.activations, a.status = .completed →
      (∀ id ∈ a.effectIDs, ∃ e ∈ snap.state.effects, e.id = id ∧ e.status = .completed) →
      ∀ node ∈ snap.state.definition.nodes[a.nodeIndex]?, a.nodeID = node.id →
      ∀ _undo ∈ node.body.undo, ∃ c ∈ snap.state.compensations, c.nodeID = a.nodeID := by
    decide +kernel
  -- `EffectsDone` and `Undoes` are not decidable; the run is evaluated with what they unfold to
  refine ⟨⟨samplePaid_running _, fun hall => ?_⟩, Running.served .refl _ _, by decide +kernel⟩
  refine hmissing fun snap hsnap a ha hcompleted hdone node hnode hid undo hundo => ?_
  exact hall snap hsnap a ha hcompleted hdone undo ⟨node, hnode, hid, hundo⟩

end Workflow
