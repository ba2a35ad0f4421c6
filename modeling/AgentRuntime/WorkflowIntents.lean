/-
Intents and receipts of a Workflow Run.

Executors run outside of any transaction, and several callers may pass the same pending
effect to them at the same time.  Which observation counts is decided by the revision of
the Run alone.  So an executor is asked about nothing that is not committed as pending; an
effect leaves its pending status once and does not come back; and what an activation is
completed with is put together from its own effects, in the order of the Definition.

* **`intents_of_reachable`** — what holds of every revision of every Run.
* **`forward_of_reachable`** — a Run goes forward through one Definition until it ends.
-/
import AgentRuntime.WorkflowLedger

namespace Workflow

open GoString GoJson Relation Interleaving List
open Kernel (RawMessage RunStatus)

/-! ### The effects of an activation -/

/-- The effects of an activation, in the order of their intents. -/
def State.own (s : State) (a : Activation) : List Effect :=
  s.effects.filter fun e => e.activationID = a.id ∧ e.compensation = false

/-- The effects are those of the node, in its order. -/
def InOrder (body : NodeBody) (own : List Effect) : Prop :=
  match body with
  | .parallel node => own.map Effect.outputKey = node.branches.map ParallelBranch.id
  | .map _ => own.map Effect.mapIndex = List.range own.length
  | .wait _ | .branch _ | .ret _ => own = []
  | _ => own.length = 1

/-- Activations own the effects that they name. -/
structure Owned (s : State) : Prop where
  ids : ∀ a ∈ s.activations, (s.own a).map Effect.id = a.effectIDs
  order : ∀ a ∈ s.activations, ∃ node, s.definition.nodes[a.nodeIndex]? = some node ∧
    InOrder node.body (s.own a)
  parents : ∀ e ∈ s.effects, e.compensation = false → e.activationID ∈ s.activations.map Activation.id

variable {s t : State} {body : NodeBody} {a b : Activation} {plans : List EffectPlan} {undo : Bool}
  {i : ℕ} {e' : Effect} {n : List Effect} {activationID runID : GoString} {ids : List GoString}
  {snap : Snapshot} {older : List Snapshot} {position p : ℕ}

/-- The order of effects is a matter of their intents. -/
lemma InOrder.congr {own own' : List Effect} (h : InOrder body own)
    (hbare : own'.map Effect.bare = own.map Effect.bare) : InOrder body own' := by
  have hkeys : own'.map Effect.outputKey = own.map Effect.outputKey := by
    have hmap := congrArg (map Effect.outputKey) hbare
    rwa [List.map_map, List.map_map] at hmap
  have hindices : own'.map Effect.mapIndex = own.map Effect.mapIndex := by
    have hmap := congrArg (map Effect.mapIndex) hbare
    rwa [List.map_map, List.map_map] at hmap
  have hlength : own'.length = own.length := by simpa using congrArg length hbare
  cases body with
  | parallel => exact hkeys.trans h
  | map =>
    show own'.map Effect.mapIndex = range own'.length
    rwa [hindices, hlength]
  | wait | branch | ret =>
    have hnil : own = [] := h
    rw [hnil] at hlength
    exact length_eq_zero_iff.mp hlength
  | _ => exact hlength.trans h

/-- The effects of an activation are a matter of the intents. -/
lemma own_bare (s : State) (a : Activation) : (s.own a).map Effect.bare =
    (s.effects.map Effect.bare).filter fun e => e.activationID = a.id ∧ e.compensation = false := by
  rw [filter_map]
  rfl

lemma own_congr {a' : Activation} (hid : a'.id = a.id)
    (h : t.effects.map Effect.bare = s.effects.map Effect.bare) :
    (t.own a').map Effect.bare = (s.own a).map Effect.bare := by
  rw [own_bare, own_bare, h, hid]

/-- A change that concerns no intent. -/
lemma Owned.keep (h : Owned s) (hdefinition : t.definition = s.definition)
    (hbare : t.effects.map Effect.bare = s.effects.map Effect.bare)
    (hids : t.activations.map Activation.id = s.activations.map Activation.id)
    (hactivations : ∀ a' ∈ t.activations, ∃ a ∈ s.activations, a'.id = a.id ∧
      a'.nodeIndex = a.nodeIndex ∧ a'.effectIDs = a.effectIDs) : Owned t := by
  refine ⟨fun a' ha' => ?_, fun a' ha' => ?_, fun e' he' hkind => ?_⟩
  · obtain ⟨a, ha, hid, -, heffects⟩ := hactivations a' ha'
    rw [heffects, ← h.ids a ha]
    have hmap := congrArg (map Effect.id) (own_congr hid hbare)
    rwa [List.map_map, List.map_map] at hmap
  · obtain ⟨a, ha, hid, hindex, -⟩ := hactivations a' ha'
    obtain ⟨node, hnode, horder⟩ := h.order a ha
    exact ⟨node, by rw [hdefinition, hindex]; exact hnode, horder.congr (own_congr hid hbare)⟩
  have hmem : e'.bare ∈ s.effects.map Effect.bare := hbare ▸ mem_map_of_mem he'
  obtain ⟨e, he, heq⟩ := mem_map.mp hmem
  have hparent : e.activationID = e'.activationID := congrArg (fun x => x.activationID) heq
  have hkind' : e.compensation = e'.compensation := congrArg (fun x => x.compensation) heq
  rw [hids, ← hparent]
  exact h.parents e he (hkind'.trans hkind)

variable {e : Effect}

lemma Settle.bare (h : Settle undo s t i e e') :
    t.effects.map Effect.bare = s.effects.map Effect.bare := by
  obtain ⟨hfound, -, -, hfollows, rfl⟩ := h
  exact map_set_eq hfound hfollows.bare

lemma Owned.settle (h : Owned s) (hs : Settle undo s t i e e') : Owned t := by
  have hframe := hs.frame
  refine h.keep hframe.definition hs.bare (by rw [hframe.activations]) fun a ha => ?_
  rw [hframe.activations] at ha
  exact ⟨a, ha, rfl, rfl, rfl⟩

lemma Owned.settles (h : Owned s) (hs : Settles s t) : Owned t := hs.keeps h Owned.settle

lemma Owned.begun {s0 : State} (h : Owned s0) (hb : Begun s0 s) : Owned s := by
  rcases hb with rfl | ⟨rfl, -⟩
  · exact h
  · exact { h with }

/-! ### New activations -/

lemma Owned.own_nil (h : Owned s) (ha : a.id ∉ s.activations.map Activation.id) :
    s.own a = [] := by
  refine filter_eq_nil_iff.mpr fun e he hown => ha ?_
  obtain ⟨hid, hkind⟩ := of_decide_eq_true hown
  rw [← hid]
  exact h.parents e he hkind

lemma own_append (h : t.effects = s.effects ++ n) :
    t.own a = s.own a ++ n.filter fun e => e.activationID = a.id ∧ e.compensation = false := by
  rw [State.own, h, filter_append]
  rfl

variable {node : Node}

/-- A node is activated, with its effects. -/
lemma Owned.append {new : List Effect} (h : Owned s)
    (ready : Ready s node) (hdefinition : t.definition = s.definition)
    (hactivations : t.activations = s.activations ++ [a]) (heffects : t.effects = s.effects ++ new)
    (hindex : a.nodeIndex = s.currentNode) (hfresh : a.id ∉ s.activations.map Activation.id)
    (hnew : ∀ e ∈ new, e.activationID = a.id ∧ e.compensation = false)
    (hids : new.map Effect.id = a.effectIDs) (horder : InOrder node.body new) : Owned t := by
  have hown : t.own a = new := by
    rw [own_append heffects, h.own_nil hfresh]
    exact filter_eq_self.mpr fun e he => decide_eq_true (hnew e he)
  have hold : ∀ b ∈ s.activations, t.own b = s.own b := by
    intro b hb
    rw [own_append heffects, filter_eq_nil_iff.mpr, append_nil]
    intro e he hown
    refine hfresh (mem_map.mpr ⟨b, hb, ?_⟩)
    rw [← (hnew e he).1]
    exact (of_decide_eq_true hown).1.symm
  refine ⟨?_, ?_, fun e he hkind => ?_⟩
  · rw [hactivations]
    refine forall_mem_append.mpr ⟨fun b hb => ?_, forall_mem_singleton.mpr (by rw [hown, hids])⟩
    rw [hold b hb]
    exact h.ids b hb
  · rw [hactivations, hdefinition]
    refine forall_mem_append.mpr ⟨fun b hb => ?_, forall_mem_singleton.mpr ?_⟩
    · rw [hold b hb]
      exact h.order b hb
    · exact ⟨node, hindex ▸ ready.here, by rw [hown]; exact horder⟩
  · rw [hactivations, map_append, mem_append]
    rw [heffects] at he
    rcases mem_append.mp he with he | he
    · exact .inl (h.parents e he hkind)
    · exact .inr (by simp [(hnew e he).1])

variable {α β : Type} {xs : List α}

lemma forall₂_map_eq {γ : Type} {R : α → β → Prop} {f : α → γ} {g : β → γ}
    {ys : List β} (h : List.Forall₂ R xs ys) (hR : ∀ x y, R x y → g y = f x) :
    ys.map g = xs.map f := by
  induction h with
  | nil => rfl
  | cons hxy _ ih => rw [map_cons, map_cons, ih, hR _ _ hxy]

/-- The plans are those of the node, in its order. -/
def PlansInOrder (body : NodeBody) (plans : List EffectPlan) : Prop :=
  match body with
  | .parallel node => plans.map EffectPlan.outputKey = node.branches.map ParallelBranch.id
  | .map _ => plans.map EffectPlan.mapIndex = List.range plans.length
  | .wait _ | .branch _ | .ret _ => False
  | _ => plans.length = 1

lemma effectPlansForNode_order
    (h : effectPlansForNode s body = .ok plans) : PlansInOrder body plans := by
  cases body with
  | parallel =>
    have hmap := forall₂_map_eq (plansFromCalls_spec h) fun x y hxy => hxy.2.1
    rwa [List.map_map] at hmap
  | map =>
    obtain ⟨values, hall⟩ := mapPlans_spec h
    have hmap := forall₂_map_eq hall fun x y hxy => hxy.2.1
    have hlength : plans.length = values.length := by
      rw [← hall.length_eq, length_zipIdx]
    show plans.map EffectPlan.mapIndex = range plans.length
    rw [hmap, hlength, zipIdx_map_snd, range_eq_range']
  | effect node => exact (single_of (.effect node) (by simp [NodeBody.calls]) h).1
  | agentTask | applicationEffect | mediaEffect =>
    exact (plansFromCalls_spec h).length_eq.symm
  | subworkflow node =>
    rw [effectPlansForNode] at h
    split at h
    · cases h
    · exact (single_of (.subworkflow node) (by simp [NodeBody.calls]) h).1
  | compensation node => exact (single_of (.compensation node) (by simp [NodeBody.calls]) h).1
  | wait | branch | ret => cases h

/-- The intents of a node stand in its order. -/
lemma inOrder_intents (h : effectPlansForNode s node.body = .ok plans)
    (hlength : ids.length = plans.length) : InOrder node.body
      (zipWith (fun plan id => plan.intent s node activationID id) plans ids) := by
  have horder := effectPlansForNode_order h
  have hcount : (zipWith (fun plan id => plan.intent s node activationID id) plans ids).length =
      plans.length := by
    rw [length_zipWith, hlength, min_self]
  cases hbody : node.body with
  | parallel =>
    rw [hbody] at horder
    show map Effect.outputKey _ = _
    rwa [zipWith_intent_map (fun _ _ => rfl) hlength]
  | map =>
    rw [hbody] at horder
    show map Effect.mapIndex _ = range _
    rwa [zipWith_intent_map (fun _ _ => rfl) hlength, hcount]
  | wait | branch | ret =>
    rw [hbody] at horder
    exact horder.elim
  | effect | agentTask | applicationEffect | mediaEffect | subworkflow
  | compensation =>
    rw [hbody] at horder
    exact hcount.trans horder

lemma inOrder_nil (h : nodeHasEffects body = false) : InOrder body [] := by
  cases body with
  | wait | branch | ret => rfl
  | _ => cases h

/-- **Whatever moves a Run keeps to whom its effects belong.** -/
theorem Owned.close (h : Owned s) (hc : Close s t) : Owned t := by
  have hmodify : ∀ (u : State) (position : ℕ) (f : Activation → Activation),
      (∀ a, (f a).id = a.id ∧ (f a).nodeIndex = a.nodeIndex ∧ (f a).effectIDs = a.effectIDs) →
      u.definition = s.definition → u.effects = s.effects →
      u.activations = s.activations.modify position f → Owned u := by
    intro u _ f hf hdefinition heffects hactivations
    refine h.keep hdefinition (by rw [heffects]) ?_ fun a' ha' => ?_
    · rw [hactivations, map_modify_eq fun a => (hf a).1]
    rw [hactivations] at ha'
    obtain ⟨a, ha, rfl | rfl⟩ := mem_modify ha'
    · exact ⟨a', ha, rfl, rfl, rfl⟩
    · exact ⟨a, ha, hf a⟩
  cases hc with
  | @prepare _ _ _ _ _ ready _ hplans _ hlength fresh =>
    refine h.append ready rfl rfl rfl rfl fresh.activation (fun e he => ?_) (zipWith_intent_ids hlength)
      (inOrder_intents hplans hlength)
    obtain ⟨plan, hplan, _, -, rfl⟩ := mem_zipWith_intent he
    exact ⟨rfl, (effectPlansForNode_of hplans plan hplan).forward⟩
  | finish | unregistered | stuck =>
    exact hmodify _ _ (fun a => { a with status := .completed, output := _ })
      (fun _ => ⟨rfl, rfl, rfl⟩) rfl rfl rfl
  | collapse => exact hmodify _ _ (Activation.fail _ _) (fun _ => ⟨rfl, rfl, rfl⟩) rfl rfl rfl
  | activate ready heffects _ fresh =>
    exact h.append ready rfl rfl (append_nil _).symm rfl fresh.activation (by simp) rfl
      (inOrder_nil heffects)
  | wait ready hbody fresh =>
    exact h.append ready rfl rfl (append_nil _).symm rfl fresh.activation (by simp) rfl
      (inOrder_nil (by rw [hbody]; rfl))
  | resolve _ _ _ ht =>
    obtain ⟨a, _, _, -, -, -, rfl⟩ := resolveWaitState_spec ht
    exact hmodify _ _ (fun a => { a with status := .completed, output := _ })
      (fun _ => ⟨rfl, rfl, rfl⟩) rfl rfl rfl
  | @startUndo position c effectID =>
    -- an undo belongs to no activation
    have hown : ∀ a, (startCompensation s position c effectID).own a = s.own a := by
      intro a
      rw [own_append rfl]
      simp [undoIntent]
    refine ⟨fun a ha => by rw [hown]; exact h.ids a ha, fun a ha => by rw [hown]; exact h.order a ha,
      fun e he hkind => ?_⟩
    rcases mem_append.mp he with he | he
    · exact h.parents e he hkind
    · obtain rfl := mem_singleton.mp he
      cases hkind
  | retryUndo _ _ _ hsettle => exact h.settle hsettle
  | completeUndo _ _ _ hsettle | failUndo _ _ _ hsettle =>
    exact { h.settle hsettle with }
  | intend | refuseUndo | abandon => exact h.keep rfl rfl rfl fun a ha => ⟨a, ha, rfl, rfl, rfl⟩

lemma Change.owned (hc : Change s t) (h : Owned s) : Owned t := by
  obtain ⟨u, v, hbegun, hsettles, rfl | hclose⟩ := hc
  · exact (h.begun hbegun).settles hsettles
  · exact ((h.begun hbegun).settles hsettles).close hclose

lemma Owned.stored (h : Owned s) : Owned s.stored := by
  refine h.keep rfl ?_ ?_ fun x hx => ?_
  · show (s.effects.map Effect.stored).map Effect.bare = _
    rw [List.map_map]
    rfl
  · show (s.activations.map Activation.stored).map Activation.id = _
    rw [List.map_map]
    rfl
  · obtain ⟨a, ha, rfl⟩ := mem_map.mp hx
    exact ⟨a, ha, rfl, rfl, rfl⟩

/-! ### Receipts -/

/-- Effects stay where they are, and are settled once. -/
def Receipts (s t : State) : Prop :=
  ∀ (i : ℕ) (e : Effect), s.effects[i]? = some e → ∃ e', t.effects[i]? = some e' ∧ e'.id = e.id ∧
    (e.status ≠ .pending → e'.status = e.status)

lemma Receipts.of_append (h : t.effects = s.effects ++ n) : Receipts s t := by
  intro i e he
  refine ⟨e, ?_, rfl, fun _ => rfl⟩
  rw [h, List.getElem?_append_left (List.getElem?_eq_some_iff.mp he).1, he]

lemma Receipts.of_eq (h : t.effects = s.effects) : Receipts s t :=
  .of_append (by rw [h, append_nil])

lemma Receipts.trans {u : State} (h : Receipts s t) (h' : Receipts t u) : Receipts s u := by
  intro i e he
  obtain ⟨e', he', hid, hstatus⟩ := h i e he
  obtain ⟨e'', he'', hid', hstatus'⟩ := h' i e' he'
  refine ⟨e'', he'', hid'.trans hid, fun hne => ?_⟩
  have hsame := hstatus hne
  exact (hstatus' (hsame ▸ hne)).trans hsame

theorem Settle.receipts (h : Settle undo s t i e e') : Receipts s t := by
  obtain ⟨hfound, hpending, -, hfollows, rfl⟩ := h
  intro j x hx
  rw [State.settled, getElem?_set]
  by_cases hij : i = j
  · subst hij
    cases hfound.symm.trans hx
    rw [if_pos rfl, if_pos (List.getElem?_eq_some_iff.mp hfound).1]
    exact ⟨e', rfl, bare_id hfollows.bare, absurd hpending⟩
  · rw [if_neg hij]
    exact ⟨x, hx, rfl, fun _ => rfl⟩

theorem Settles.receipts (h : Settles s t) : Receipts s t := by
  induction h with
  | refl => exact .of_eq rfl
  | tail _ hstep ih =>
    obtain ⟨i, e, _, hsettle⟩ := hstep
    exact ih.trans hsettle.receipts

theorem Close.receipts (h : Close s t) : Receipts s t := by
  cases h with
  | prepare | startUndo => exact .of_append rfl
  | resolve _ _ _ ht =>
    obtain ⟨a, _, _, -, -, -, rfl⟩ := resolveWaitState_spec ht
    exact .of_eq rfl
  | retryUndo _ _ _ hsettle | completeUndo _ _ _ hsettle
  | failUndo _ _ _ hsettle => exact hsettle.receipts
  | _ => exact .of_eq rfl

/-- **One commit settles an effect once, and nothing that was settled.** -/
theorem Change.receipts (h : Change s t) : Receipts s t := by
  obtain ⟨u, v, hbegun, hsettles, hrest⟩ := h
  have hfirst : Receipts s v := (Receipts.of_eq hbegun.effects).trans hsettles.receipts
  rcases hrest with rfl | hclose
  · exact hfirst
  · exact hfirst.trans hclose.receipts

lemma receipts_stored (s : State) : Receipts s s.stored := by
  intro i e he
  refine ⟨e.stored, ?_, rfl, fun _ => rfl⟩
  show (s.effects.map Effect.stored)[i]? = _
  rw [getElem?_map, he]
  rfl

theorem History.receipts
    (h : History runID (snap :: older)) : ∀ old ∈ older, Receipts old.state snap.state := by
  refine h.newest (by simp) fun {current _} m _ hm ih => ?_
  have hstep : Receipts current.state (current.commit m).state :=
    hm.change.receipts.trans (receipts_stored m.state)
  exact forall_mem_cons.mpr ⟨hstep, fun old hold => (ih old hold).trans hstep⟩

/-! ### Outputs -/

lemma eq_of_map_eq {f : α → β} {l ys : List α} (hinj : (l.map f).Nodup)
    (hxs : ∀ x ∈ xs, x ∈ l) (hys : ∀ y ∈ ys, y ∈ l) (h : xs.map f = ys.map f) : xs = ys := by
  induction xs generalizing ys with
  | nil => exact (map_eq_nil_iff.mp h.symm).symm
  | cons x _ ih =>
    cases ys with
    | nil => cases h
    | cons y =>
      obtain ⟨hxy, hrest⟩ := cons.inj h
      rw [inj_on_of_nodup_map hinj (hxs x mem_cons_self) (hys y mem_cons_self) hxy,
        ih (forall_mem_cons.mp hxs).2 (forall_mem_cons.mp hys).2
          hrest]

lemma completedEffect_spec {id : GoString} (h : completedEffect s id = some e) :
    e ∈ s.effects ∧ e.id = id ∧ e.status = .completed ∧ valid e.output = true := by
  obtain ⟨hfind, hcompleted⟩ := Option.filter_eq_some_iff.mp h
  refine ⟨mem_of_find?_eq_some hfind, by simpa using find?_some hfind, ?_⟩
  simpa using hcompleted

/-- The output is put together from the completed effects of the activation. -/
def BuiltFrom (body : NodeBody) (own : List Effect) (output : RawMessage) : Prop :=
  (∀ e ∈ own, e.status = .completed ∧ valid e.output = true) ∧ combineOutputs body own = some output

variable {output : RawMessage}

/-- **What is aggregated are the activation's own effects.** -/
theorem aggregate_own (hs : Shape s)
    (h : Owned s) (ha : a ∈ s.activations) (haggregate : aggregateEffectOutputs s body a = .ok output) :
    BuiltFrom body (s.own a) output := by
  rw [aggregateEffectOutputs] at haggregate
  split at haggregate
  · cases haggregate
  rename_i hbind
  obtain ⟨effects, hmap, hcombine⟩ := Option.bind_eq_some_iff.mp hbind
  cases haggregate
  have hall := mapM_some hmap
  have hspec : ∀ e ∈ effects, e ∈ s.effects ∧ e.status = .completed ∧ valid e.output = true := by
    intro e he
    obtain ⟨_, -, hid⟩ := exists_of_forall₂ hall he
    obtain ⟨hmem, -, hrest⟩ := completedEffect_spec hid
    exact ⟨hmem, hrest⟩
  have hids : effects.map Effect.id = (s.own a).map Effect.id := by
    rw [h.ids a ha, forall₂_map_eq (f := id) hall fun x y hxy => (completedEffect_spec hxy).2.1,
      map_id]
  have hown : effects = s.own a :=
    eq_of_map_eq hs.effectIDs (fun e he => (hspec e he).1) (fun e he => mem_of_mem_filter he) hids
  rw [← hown]
  exact ⟨fun e he => (hspec e he).2, hcombine⟩

/-- What an activation is completed with: the outputs of its effects, if its node has any. -/
def Outputs (t : State) (a : Activation) : Prop :=
  ∃ node, t.definition.nodes[a.nodeIndex]? = some node ∧ InOrder node.body (t.own a) ∧
    (nodeHasEffects node.body = true → BuiltFrom node.body (t.own a) a.output)

/-- The activation of a node with effects is completed with their outputs. -/
theorem Standing.outputs (standing : Standing s node position a) (hs : Shape s) (h : Owned s)
    (hdefinition : t.definition = s.definition) (heffects : t.effects = s.effects)
    (houtput : aggregateEffectOutputs s node.body a = .ok output) :
    Outputs t { a with status := .completed, output } := by
  have hown : t.own { a with status := .completed, output } = s.own a := by
    rw [State.own, heffects]
    rfl
  obtain ⟨node', hnode', horder⟩ := h.order a standing.mem
  have hsame : node' = node := by
    rw [standing.current, standing.here] at hnode'
    exact (Option.some.inj hnode').symm
  subst hsame
  refine ⟨node', by rw [hdefinition]; exact hnode', by rw [hown]; exact horder, fun _ => ?_⟩
  rw [hown]
  exact aggregate_own hs h standing.mem houtput

/-- **What an activation is completed with.** -/
theorem Close.outputs (hc : Close s t) (hs : Shape s) (h : Owned s)
    (hb : t.activations[p]? = some b) (hcompleted : b.status = .completed) :
    (∃ old, s.activations[p]? = some old ∧ old.status = .completed) ∨ Outputs t b := by
  rcases hc.completed hs hb hcompleted with hold | ⟨hnode, heffects⟩ | ⟨standing, houtput, rfl, heffects⟩
  · exact .inl ⟨b, hold, hcompleted⟩
  · obtain ⟨_, hnode', horder⟩ := (h.close hc).order b (mem_of_getElem? hb)
    rw [← hc.definition] at hnode
    cases hnode.symm.trans hnode'
    refine .inr ⟨_, hnode, horder, fun heffects' => ?_⟩
    rw [heffects] at heffects'
    cases heffects'
  · exact .inr (standing.outputs hs h hc.definition heffects houtput)

theorem Change.outputs (hc : Change s t) (hs : Shape s) (h : Owned s)
    (hb : t.activations[p]? = some b) (hcompleted : b.status = .completed) :
    (∃ old, s.activations[p]? = some old ∧ old.status = .completed) ∨ Outputs t b := by
  obtain ⟨u, v, hbegun, hsettles, hrest⟩ := hc
  have hframe := (hbegun.frame.trans hsettles.frame).activations
  rcases hrest with rfl | hclose
  · exact .inl ⟨b, hframe ▸ hb, hcompleted⟩
  rw [← hframe]
  exact hclose.outputs ((hs.begun hbegun).settles hsettles) ((h.begun hbegun).settles hsettles) hb
    hcompleted

/-! ### Whole Runs -/

lemma History.owned {l : List Snapshot} (h : History runID l) : ∀ snap ∈ l, Owned snap.state := by
  refine h.induct (fun r hr => ?_) fun current m hold hm => (hm.change.owned hold).stored
  obtain ⟨_, _, _, -, heq⟩ := hr
  rw [heq]
  constructor <;> simp [State.stored]

/-- The intents and receipts of a Run up to one of its revisions. -/
structure Receipted (snap : Snapshot) (older : List Snapshot) : Prop where
  effectIDs : (snap.state.effects.map Effect.id).Nodup
  /-- An effect that is completed or failed in an older revision is so in this one. -/
  receipts : ∀ old ∈ older, Receipts old.state snap.state
  /-- Every node has at most one activation. -/
  single : (snap.state.activations.map Activation.nodeIndex).Nodup
  /-- An activation that was not completed in the revision before this one: what it is
  completed with was put together from the effects in the state that was encoded. -/
  outputs : ∀ old ∈ older.head?, ∀ (p : ℕ) (a : Activation), snap.state.activations[p]? = some a →
    a.status = .completed →
    (∃ b, old.state.activations[p]? = some b ∧ b.status = .completed) ∨
    ∃ (t : State) (b : Activation), snap.state = t.stored ∧ a = b.stored ∧ b ∈ t.activations ∧
      Outputs t b

lemma History.receipted (h : History runID (snap :: older)) : Receipted snap older := by
  have hshape := h.shape snap mem_cons_self
  refine ⟨hshape.effectIDs, h.receipts, hshape.indices, fun old hold p x hx hcompleted => ?_⟩
  cases h with
  | create => cases hold
  | commit m hhistory hm =>
    cases hold
    change (m.state.activations.map Activation.stored)[p]? = some x at hx
    rw [getElem?_map] at hx
    obtain ⟨b, hb, rfl⟩ := Option.map_eq_some_iff.mp hx
    rcases hm.change.outputs (hhistory.shape _ mem_cons_self)
      (hhistory.owned _ mem_cons_self) hb hcompleted with hold | hnew
    · exact .inl hold
    · exact .inr ⟨m.state, b, rfl, rfl, mem_of_getElem? hb, hnew⟩

/-- **Intent before effect, receipt at most once**, whatever callers, executors and stores do.
Executors are asked about effects that are pending in a committed revision.  Effects are
settled once.  Every node is activated at most once, and an activation is completed with what
its own effects, in the order of the Definition, were completed with. -/
theorem intents_of_reachable {c : Config runnerObject Call Returned} (h : Running c) :
    (∀ q ∈ c.shared.requests, ∃ snap ∈ c.shared.runs q.runID, ∃ e ∈ snap.state.effects,
      e.id = q.effectID ∧ e.attempt = q.attempt ∧ e.status = .pending) ∧
    ∀ (runID : GoString) (snap : Snapshot) (older : List Snapshot),
      (snap :: older) <:+ c.shared.runs runID → Receipted snap older :=
  ⟨(sane_of_reachable h).requests, fun runID _ _ hsuffix =>
    (((sane_of_reachable h).history runID).of_isSuffix hsuffix).receipted⟩

/-- The payment was asked for once. -/
theorem samplePaid_intents :
    (samplePaid (lit "[1]")).shared.requests.map (fun q => (q.runID, q.kind, q.attempt)) =
      [(sampleRunID, lit "charge", 1)] ∧
    (∀ q ∈ (samplePaid (lit "[1]")).shared.requests,
      ∃ snap ∈ (samplePaid (lit "[1]")).shared.runs q.runID, ∃ e ∈ snap.state.effects,
      e.id = q.effectID ∧ e.attempt = q.attempt ∧ e.status = .pending) ∧
    ∀ (runID : GoString) (snap : Snapshot) (older : List Snapshot),
      (snap :: older) <:+ (samplePaid (lit "[1]")).shared.runs runID → Receipted snap older :=
  ⟨by decide +kernel, intents_of_reachable (samplePaid_running _)⟩

/-! ### The way through the Definition -/

/-- The nodes that were activated, in order. -/
def State.path (s : State) : List ℕ := s.activations.map Activation.nodeIndex

/-- The path stays, or goes on to a node behind all of its nodes. -/
structure Walks (s t : State) : Prop where
  current : s.currentNode ≤ t.currentNode
  path : t.path = s.path ∨ ∃ n, t.path = s.path ++ [n] ∧ ∀ i ∈ s.path, i < n

lemma Ready.walks (hs : Shape s) (ready : Ready s node) (hcurrent : s.currentNode ≤ t.currentNode)
    (hpath : t.path = s.path ++ [s.currentNode]) : Walks s t := by
  refine ⟨hcurrent, .inr ⟨_, hpath, forall_mem_map.mpr fun a ha => ?_⟩⟩
  exact lt_of_le_of_ne (hs.past a ha) (not_mem_of_activationIndex ready.free a ha)

lemma Walks.update {f : Activation → Activation} (hcurrent : s.currentNode ≤ t.currentNode)
    (ht : t.activations = s.activations.modify i f) (hf : ∀ a, (f a).nodeIndex = a.nodeIndex) :
    Walks s t :=
  ⟨hcurrent, .inl ((congrArg (map _) ht).trans (map_modify_eq hf _ _))⟩

lemma Close.walks (hs : Shape s) (h : Close s t) : Walks s t := by
  cases h with
  | prepare ready | wait ready => exact ready.walks hs le_rfl map_append
  | activate ready _ hnext => exact ready.walks hs hnext.le map_append
  | finish standing _ _ hnext =>
    have hlt := nextNodeIndex_lt (standing.valid hs) standing.here hnext
    exact .update hlt.le rfl fun _ => rfl
  | unregistered | stuck | collapse => exact .update le_rfl rfl fun _ => rfl
  | resolve hw hpending hj ht =>
    obtain ⟨a, node, next, ha, hnode, hnext, rfl⟩ := resolveWaitState_spec ht
    have hmem := mem_of_getElem? ha
    obtain ⟨-, -, -, hcurrent⟩ := hs.wait (mem_of_getElem? hw) hmem (activationIndexByID_spec hj ha)
    rw [hcurrent hpending] at hnode
    have hlt := nextNodeIndex_lt (hs.valid (ne_nil_of_mem hmem)) hnode hnext
    exact .update hlt.le rfl fun _ => rfl
  | retryUndo _ _ _ hsettle | completeUndo _ _ _ hsettle | failUndo _ _ _ hsettle =>
    exact ⟨hsettle.frame.currentNode.ge, .inl (congrArg (map _) hsettle.frame.activations)⟩
  | _ => exact ⟨le_rfl, .inl rfl⟩

lemma Change.walks (hs : Shape s) (h : Change s t) : Walks s t := by
  refine h.cases (fun v hframe _ ht => ?_) fun v hframe _ hshape hclose => ?_
  · exact ht ▸ ⟨hframe.currentNode.ge, .inl (congrArg (map _) hframe.activations)⟩
  · have hpath : v.path = s.path := congrArg (map _) hframe.activations
    have hwalks := hclose.walks (hshape hs)
    exact ⟨hframe.currentNode ▸ hwalks.current, hpath ▸ hwalks.path⟩

/-- The way of a Run up to one of its revisions. -/
structure Forward (snap : Snapshot) (older : List Snapshot) : Prop where
  sorted : snap.state.path.Pairwise (· < ·)
  within : ∀ n ∈ snap.state.path, n < snap.state.definition.nodes.length
  path : ∀ old ∈ older, old.state.path <+: snap.state.path
  current : ∀ old ∈ older, old.state.currentNode ≤ snap.state.currentNode
  definition : ∀ old ∈ older, old.state.definition = snap.state.definition
  live : ∀ old ∈ older, old.status.terminal = false

lemma Shape.within (h : Shape s) : ∀ n ∈ s.path, n < s.definition.nodes.length := by
  refine forall_mem_map.mpr fun a ha => ?_
  obtain ⟨_, hnode, -⟩ := h.node a ha
  exact (List.getElem?_eq_some_iff.mp hnode).1

lemma Forward.commit {m : Mutation} (h : Forward snap older) (hs : Shape snap.state)
    (hs' : Shape (snap.commit m).state) (hm : Commits snap m) :
    Forward (snap.commit m) (snap :: older) := by
  have hstored : (snap.commit m).state.path = m.state.path := map_map
  obtain ⟨hcurrent, hpath⟩ := hm.change.walks hs
  rw [← hstored] at hpath
  have hgrows : snap.state.path <+: (snap.commit m).state.path := by
    rcases hpath with heq | ⟨n, heq, -⟩
    · rw [heq]
    · exact ⟨[n], heq.symm⟩
  have hsame : snap.state.definition = (snap.commit m).state.definition :=
    hm.change.definition.symm
  have hlive : snap.status.terminal = false := by
    have htransition := hm.transition
    cases hstatus : snap.status <;>
      simp [hstatus, Kernel.validTransition, RunStatus.terminal] at htransition ⊢
  refine ⟨?_, hs'.within, forall_mem_cons.mpr ⟨hgrows, fun old hold => (h.path old hold).trans hgrows⟩,
    forall_mem_cons.mpr ⟨hcurrent, fun old hold => (h.current old hold).trans hcurrent⟩,
    forall_mem_cons.mpr ⟨hsame, fun old hold => (h.definition old hold).trans hsame⟩,
    forall_mem_cons.mpr ⟨hlive, h.live⟩⟩
  rcases hpath with heq | ⟨n, heq, hlt⟩ <;> rw [heq]
  · exact h.sorted
  · exact pairwise_append.mpr ⟨h.sorted, pairwise_singleton _ _, by simpa using hlt⟩

/-- **A Run goes forward**, whatever callers, executors and stores do.  It activates later and
later nodes of the Definition that it was started with, it never takes one back or stands at an
earlier node again, and nothing is committed after a terminal revision. -/
theorem forward_of_reachable {c : Config runnerObject Call Returned} (h : Running c)
    (runID : GoString) (snap : Snapshot) (older : List Snapshot)
    (hsuffix : (snap :: older) <:+ c.shared.runs runID) : Forward snap older := by
  refine (((sane_of_reachable h).history runID).of_isSuffix hsuffix).newest (fun r hr => ?_)
    fun m hhistory hm ih => ih.commit (hhistory.shape _ mem_cons_self)
      ((History.commit m hhistory hm).shape _ mem_cons_self) hm
  obtain ⟨_, _, _, -, heq⟩ := hr
  constructor <;> simp [CreateRequest.snapshot, heq, State.stored, State.path]

/-- The payment is the first node, and the Run ends behind it. -/
theorem samplePaid_forward :
    ((samplePaid (lit "[1]")).shared.runs sampleRunID).map (fun snap => snap.state.path) =
      [[0, 1], [0], [0], []] ∧
    ∀ snap older, (snap :: older) <:+ (samplePaid (lit "[1]")).shared.runs sampleRunID →
      Forward snap older :=
  ⟨by decide +kernel, forward_of_reachable (samplePaid_running _) sampleRunID⟩

end Workflow
