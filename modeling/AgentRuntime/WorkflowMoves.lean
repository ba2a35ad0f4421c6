/-
What one commit of a Workflow Runner can do to the state of a Run.

Every state that the Runner commits comes from the state it has read in the same way: one
more segment is counted, or not; observations settle any number of pending effects; and
then at most one thing happens that moves the Run (`Close`): a node is activated, an
activation is completed or fails, a Wait is resolved, a failure is intended, or an undo is
started, retried, completed or given up.  Everything that is proved about Runs is proved
about these few changes.

* `Shape`, **`Change.shape`** — the identities in a state: effects, activations and Waits
  have different identifiers, every node has at most one activation, and the node the Run
  stands at has not been left.
-/
import AgentRuntime.WorkflowRunner
import Mathlib.Data.List.Nodup

namespace Workflow

open GoString GoJson Relation List
open Kernel (RawMessage RunStatus)

/-! ### Observations -/

/-- What an effect keeps from its intent on. -/
def Effect.bare (e : Effect) : Effect :=
  { e with
    input := [], costUnits := 0, attempt := 0, status := .pending, childRunID := [], receiptID := [],
    output := [], errorCode := [], error := [] }

/-- What an observation may make of a pending effect. -/
structure Effect.Follows (e e' : Effect) : Prop where
  bare : e'.bare = e.bare
  attempt : e.attempt ≤ e'.attempt ∧ (e'.attempt = e.attempt ∨ e'.attempt ≤ e.retry.maxAttempts)
  receipt : e'.status = .completed →
    valid e'.output = true ∧ 0 ≤ e'.costUnits ∧ e'.costUnits ≤ e.maxCostUnits

/-- What becomes of the reservation of an effect. -/
def Budget.settle (b : Budget) (e : Effect) : Budget :=
  match e.status with
  | .pending => b
  | .failed => { b with costUnitsReserved := b.costUnitsReserved - e.maxCostUnits }
  | .completed =>
    { b with
      costUnitsReserved := b.costUnitsReserved - e.maxCostUnits
      costUnitsUsed := b.costUnitsUsed + e.costUnits }

/-- The state with another version of the effect at a position. -/
def State.settled (s : State) (i : ℕ) (e : Effect) : State :=
  { s with effects := s.effects.set i e, budget := s.budget.settle e }

/-- One pending effect is observed. -/
structure Settle (undo : Bool) (s t : State) (i : ℕ) (e e' : Effect) : Prop where
  found : s.effects[i]? = some e
  pending : e.status = .pending
  kind : e.compensation = undo
  follows : e.Follows e'
  eq : t = s.settled i e'

/-- Effects of activations are observed, any number of times. -/
abbrev Settles : State → State → Prop := ReflTransGen fun s t => ∃ i e e', Settle false s t i e e'

/-! ### Definitions that lead forward -/

/-- What the interpreter relies on when it moves through a Definition. -/
structure Definition.Valid (definition : Definition) : Prop where
  ids : (definition.nodes.map Node.id).Nodup
  next : ∀ i node j, definition.nodes[i]? = some node → node.next ≠ [] →
    nodeIndexByID definition node.next = some j → i < j
  branch : ∀ i node body target j, definition.nodes[i]? = some node → node.body = .branch body →
    target = body.thenNodeID ∨ target = body.elseNodeID → nodeIndexByID definition target = some j → i < j

variable {nodes : List Node} {j : ℕ}

lemma position_eq_some {id : GoString}
    (h : position nodes id = some j) : ∃ node, nodes[j]? = some node ∧ node.id = id := by
  obtain ⟨hlt, hid, -⟩ := findIdx?_eq_some_iff_getElem.mp h
  exact ⟨nodes[j], getElem?_eq_getElem hlt, by simpa using hid⟩

variable {node : Node} {e e' : Effect} {s t : State} {a : Activation} {plans : List EffectPlan}
  {i : ℕ} {activationID code : GoString} {ids : List GoString} {status : RunStatus}
  {cause : GoError} {response : RawMessage}

lemma position_of_nodup (h : (nodes.map Node.id).Nodup)
    (hj : nodes[j]? = some node) : position nodes node.id = some j := by
  rcases hfound : position nodes node.id with _ | k
  · have hmiss := findIdx?_eq_none_iff.mp hfound node (mem_of_getElem? hj)
    simp at hmiss
  obtain ⟨_, hk, hid⟩ := position_eq_some hfound
  have hsame : (nodes.map Node.id)[k]? = (nodes.map Node.id)[j]? := by
    rw [getElem?_map, getElem?_map, hk, hj, Option.map_some, Option.map_some, hid]
  have hlt : k < (nodes.map Node.id).length := by
    rw [length_map]
    exact (List.getElem?_eq_some_iff.mp hk).1
  rw [(getElem?_inj hlt h).mp hsame]

section Normalized

variable {C : Contracts} {definition : Definition}

/-- The nodes that validation looks at. -/
def Definition.normalizedNodes (definition : Definition) : List Node :=
  (normalizeDefinitionDraft definition.toDefinitionDraft).nodes

lemma normalizedNodes_getElem? {i : ℕ} {node : Node} (h : definition.nodes[i]? = some node) :
    definition.normalizedNodes[i]? = some (normalizeNode (normalizeNode node)) := by
  rw [Definition.normalizedNodes, normalizeDefinitionDraft, cloneNodes, getElem?_map,
    getElem?_map, h]
  rfl

lemma validateDefinition_nodes (h : validateDefinition C definition = true) :
    (∀ node ∈ definition.normalizedNodes, node.id ≠ []) ∧
    (definition.normalizedNodes.map Node.id).Nodup ∧
    ∀ i node, definition.normalizedNodes[i]? = some node →
      validNode definition.normalizedNodes
        (normalizeDefinitionDraft definition.toDefinitionDraft).limits i node = true := by
  simp only [validateDefinition, validateDefinitionDraft, validateDefinitionNodes, Bool.and_eq_true,
    decide_eq_true_eq, all_eq_true] at h
  obtain ⟨⟨-, ⟨⟨⟨hne, hnodup⟩, -⟩, -⟩, hvalid⟩, -⟩ := h
  exact ⟨hne, hnodup, fun i node hi => hvalid (node, i) (mem_zipIdx_iff_getElem?.mpr hi)⟩

/-- A target that the raw names lead to is the one that was validated. -/
lemma forward_of_valid (h : validateDefinition C definition = true) {i j : ℕ} {optional : Bool}
    {target : GoString} (hj : nodeIndexByID definition target = some j)
    (hvalid : validForwardTarget definition.normalizedNodes i optional (trimSpace target) = true) :
    i < j := by
  obtain ⟨hne, hnodup, -⟩ := validateDefinition_nodes h
  obtain ⟨node, hnode, rfl⟩ := position_eq_some hj
  have hnormal := normalizedNodes_getElem? hnode
  have hid : (normalizeNode (normalizeNode node)).id = trimSpace node.id := trimSpace_idem _
  have htarget : trimSpace node.id ≠ [] := hid ▸ hne _ (mem_of_getElem? hnormal)
  have hposition := position_of_nodup hnodup hnormal
  rw [hid] at hposition
  rw [validForwardTarget, if_neg htarget, hposition] at hvalid
  simpa using hvalid

/-- **A Definition that passes validation leads forward.** -/
theorem validateDefinition_valid (h : validateDefinition C definition = true) : definition.Valid := by
  obtain ⟨-, -, hnodes⟩ := validateDefinition_nodes h
  refine ⟨validateDefinition_ids h, fun i node j hi _ hj => ?_,
    fun i node body target j hi hbody htarget hj => ?_⟩
  · have hvalid := hnodes i _ (normalizedNodes_getElem? hi)
    rw [validNode, Bool.and_eq_true] at hvalid
    have htarget := hvalid.1
    simp only [normalizeNode, trimSpace_idem] at htarget
    exact forward_of_valid h hj htarget
  have hvalid := hnodes i _ (normalizedNodes_getElem? hi)
  obtain ⟨_, _, nodeBody⟩ := node
  obtain rfl : nodeBody = .branch body := hbody
  simp only [validNode, normalizeNode, normalizeBody, Bool.and_eq_true, trimSpace_idem] at hvalid
  rcases htarget with rfl | rfl
  · exact forward_of_valid h hj hvalid.2.1.2
  · exact forward_of_valid h hj hvalid.2.2

end Normalized

/-! ### Changes -/

/-- The identifiers of a new activation are new. -/
structure Fresh (s : State) (activationID : GoString) (effectIDs : List GoString) : Prop where
  activation : activationID ∉ s.activations.map Activation.id
  effects : ∀ id ∈ effectIDs, id ∉ s.effects.map Effect.id
  distinct : effectIDs.Nodup

/-- A new segment has begun, or the state is the one that was read. -/
def Begun (s₀ s : State) : Prop :=
  s = s₀ ∨ s = s₀.tick ∧ (s₀.budget.segments : ℤ) < s₀.definition.limits.maxSegments

/-- The Run stands at a node that it may activate. -/
structure Ready (s : State) (node : Node) : Prop where
  failure : s.failure = none
  valid : s.definition.Valid
  here : s.definition.nodes[s.currentNode]? = some node
  free : activationIndex s s.currentNode = none
  room : (s.budget.nodeActivations : ℤ) < s.definition.limits.maxNodeActivations

/-- The Run stands at an activation of a node with effects. -/
structure Standing (s : State) (node : Node) (position : ℕ) (a : Activation) : Prop where
  failure : s.failure = none
  found : s.activations[position]? = some a
  current : a.nodeIndex = s.currentNode
  here : s.definition.nodes[s.currentNode]? = some node
  effects : nodeHasEffects node.body = true

/-- What is registered when the activation of a node is completed. -/
def Registers (node : Node) (registered : List Compensation) : Prop :=
  registered.map (fun c => (c.nodeID, c.call, c.status)) =
    node.body.undo.toList.map fun undo => (node.id, undo, CompensationStatus.pending)

/-- The plans of a node fit into the budget. -/
structure Affordable (s : State) (plans : List EffectPlan) (reserved : Int64) : Prop where
  effects : ((s.budget.effects + plans.length : ℕ) : ℤ) ≤ s.definition.limits.maxEffects
  reserve : reserve s.definition.policy.maxCostUnits 0 plans = some reserved
  cost : ¬ s.definition.policy.maxCostUnits - reserved <
    s.budget.costUnitsUsed + s.budget.costUnitsReserved

/-- The undo that is next is the one at a position. -/
structure Undoing (s : State) (position : ℕ) (c : Compensation) : Prop where
  failure : s.failure ≠ none
  next : nextCompensationPosition s = some position
  found : s.compensations[position]? = some c

/-- The Run moves. -/
inductive Close : State → State → Prop
  /-- A node with effects is activated. -/
  | prepare {s : State} {node : Node} {plans : List EffectPlan} {reserved : Int64}
      {activationID : GoString} {effectIDs : List GoString} (ready : Ready s node)
      (heffects : nodeHasEffects node.body = true)
      (hplans : effectPlansForNode s node.body = .ok plans) (hafford : Affordable s plans reserved)
      (hlength : effectIDs.length = plans.length) (fresh : Fresh s activationID effectIDs) :
      Close s (prepareActivation s node plans reserved activationID effectIDs)
  /-- The activation of a node with effects is completed, its undo is registered. -/
  | finish {s : State} {node : Node} {position next : ℕ} {a : Activation} {output : RawMessage}
      {registered : List Compensation} (standing : Standing s node position a)
      (houtput : aggregateEffectOutputs s node.body a = .ok output)
      (hregistered : Registers node registered) (hnext : nextNodeIndex s node = some next) :
      Close s { completeActivation s position output with
        compensations := s.compensations ++ registered, currentNode := next }
  /-- The activation is completed, but its undo could not be registered. -/
  | unregistered {s : State} {node : Node} {position : ℕ} {a : Activation} {output : RawMessage}
      {cause : GoError} (standing : Standing s node position a)
      (houtput : aggregateEffectOutputs s node.body a = .ok output) :
      Close s ((completeActivation s position output).intend .failed
        (lit "workflow.compensation_register") cause)
  /-- The activation is completed, but there is no next node. -/
  | stuck {s : State} {node : Node} {position : ℕ} {a : Activation} {output : RawMessage}
      {registered : List Compensation} {code : GoString} {cause : GoError}
      (standing : Standing s node position a)
      (houtput : aggregateEffectOutputs s node.body a = .ok output)
      (hregistered : Registers node registered) :
      Close s ({ completeActivation s position output with
        compensations := s.compensations ++ registered }.intend .failed code cause)
  /-- An activation fails. -/
  | collapse {s : State} {node : Node} {position : ℕ} {a : Activation} {code text code' : GoString}
      {cause : GoError} (standing : Standing s node position a) :
      Close s ((s.updateActivation position (Activation.fail code text)).intend .failed code' cause)
  /-- A failure is intended, or was intended before. -/
  | intend {s : State} {status : RunStatus} {code : GoString} {cause : GoError}
      (hstatus : status = .failed ∨ status = .cancelled) : Close s (s.intend status code cause)
  /-- A node without effects is activated and completed. -/
  | activate {s : State} {node : Node} {id : GoString} {output : RawMessage} {next : ℕ}
      (ready : Ready s node) (heffects : nodeHasEffects node.body = false)
      (hnext : s.currentNode < next) (fresh : Fresh s id []) :
      Close s (activated s (completedActivation s node id output) next)
  /-- A Wait is created. -/
  | wait {s : State} {node : Node} {body : WaitNode} {payload : RawMessage} {id waitID : GoString}
      (ready : Ready s node) (hbody : node.body = .wait body) (fresh : Fresh s id []) :
      Close s (waitState s node body payload id waitID)
  /-- A Wait is resolved. -/
  | resolve {s t : State} {i j : ℕ} {w : Wait} {response : RawMessage} (hw : s.waits[i]? = some w)
      (hpending : w.status = .pending) (hj : activationIndexByID s w.activationID = some j)
      (ht : resolveWaitState s i j response = some t) : Close s t
  /-- The intent to undo is recorded. -/
  | startUndo {s : State} {position : ℕ} {c : Compensation} {effectID : GoString}
      (undoing : Undoing s position c) (hpending : c.status = .pending)
      (hbudget : undoExceeds s c = false) (hfresh : effectID ∉ s.effects.map Effect.id) :
      Close s (startCompensation s position c effectID)
  /-- The undo is tried again. -/
  | retryUndo {s t : State} {position i : ℕ} {c : Compensation} {e e' : Effect}
      (undoing : Undoing s position c) (hrunning : c.status = .running) (heffect : e.id = c.effectID)
      (hsettle : Settle e.compensation s t i e e') (hpending : e'.status = .pending) : Close s t
  /-- The undo has completed. -/
  | completeUndo {s t : State} {position i : ℕ} {c : Compensation} {e e' : Effect} {receipt : GoString}
      (undoing : Undoing s position c) (hrunning : c.status = .running) (heffect : e.id = c.effectID)
      (hsettle : Settle e.compensation s t i e e') (hcompleted : e'.status = .completed) :
      Close s (t.updateCompensation position fun c =>
        { c with status := .completed, receiptID := receipt })
  /-- The undo has failed. -/
  | failUndo {s t : State} {position i : ℕ} {c : Compensation} {e e' : Effect} {code text detail : GoString}
      (undoing : Undoing s position c) (hrunning : c.status = .running) (heffect : e.id = c.effectID)
      (hsettle : Settle e.compensation s t i e e') (hfailed : e'.status = .failed) :
      Close s { t.updateCompensation position (Compensation.fail code text) with
        failure := some ⟨.failed, lit "workflow.compensation_failed", detail⟩ }
  /-- The undo is too expensive. -/
  | refuseUndo {s : State} {position : ℕ} {c : Compensation} {code text detail : GoString}
      (undoing : Undoing s position c) (hpending : c.status = .pending) :
      Close s { s.updateCompensation position (Compensation.fail code text) with
        failure := some ⟨.failed, lit "workflow.compensation_failed", detail⟩ }
  /-- A compensation has failed before. -/
  | abandon {s : State} {detail : GoString} (hfailure : s.failure ≠ none) :
      Close s { s with failure := some ⟨.failed, lit "workflow.compensation_failed", detail⟩ }

/-- The changes of one commit. -/
def Change (s₀ t : State) : Prop := ∃ s u, Begun s₀ s ∧ Settles s u ∧ (t = u ∨ Close u t)

/-! ### Lists of which one element changes -/

section Lists

variable {α β : Type} {l : List α} {g : α → β}

lemma modify_of_getElem? {a : α} (f : α → α) (h : l[i]? = some a) :
    l.modify i f = l.set i (f a) := by
  rw [modify_eq_set_getElem?, h]
  rfl

lemma map_modify_eq {f : α → α} (hf : ∀ a, g (f a) = g a) (l : List α) (i : ℕ) :
    (l.modify i f).map g = l.map g := by
  refine ext_getElem? fun j => ?_
  rw [getElem?_map, getElem?_map, getElem?_modify]
  obtain _ | a := l[j]?
  · rfl
  refine congrArg some ?_
  by_cases hij : i = j
  · simp [hij, hf]
  · simp [hij]

lemma mem_modify {f : α → α} {b : α} (h : b ∈ l.modify i f) : ∃ a ∈ l, b = a ∨ b = f a := by
  obtain ⟨j, hj⟩ := mem_iff_getElem?.mp h
  rw [getElem?_modify] at hj
  obtain ⟨a, ha, hb⟩ := Option.map_eq_some_iff.mp hj
  refine ⟨a, mem_of_getElem? ha, ?_⟩
  by_cases hij : i = j
  · exact .inr (by simpa [hij] using hb.symm)
  · exact .inl (by simpa [hij] using hb.symm)

lemma mem_modify_of_mem {f : α → α} {a : α} (h : a ∈ l) :
    a ∈ l.modify i f ∨ f a ∈ l.modify i f := by
  obtain ⟨j, hj⟩ := mem_iff_getElem?.mp h
  have hget : (l.modify i f)[j]? = some (if i = j then f a else a) := by
    rw [getElem?_modify, hj]
    rfl
  have hmem := mem_of_getElem? hget
  by_cases hij : i = j
  · rw [if_pos hij] at hmem
    exact .inr hmem
  · rw [if_neg hij] at hmem
    exact .inl hmem

lemma map_set_eq {a b : α} (h : l[i]? = some a) (hg : g b = g a) :
    (l.set i b).map g = l.map g := by
  refine ext_getElem? fun j => ?_
  rw [getElem?_map, getElem?_map, getElem?_set]
  by_cases hij : i = j
  · subst hij
    rw [if_pos rfl, if_pos (List.getElem?_eq_some_iff.mp h).1, h]
    exact congrArg some hg
  · rw [if_neg hij]

lemma mem_set_of_mem {a b x : α} (h : l[i]? = some a) (hx : x ∈ l) :
    x ∈ l.set i b ∨ x = a ∧ b ∈ l.set i b := by
  obtain ⟨j, hj⟩ := mem_iff_getElem?.mp hx
  by_cases hij : i = j
  · subst hij
    obtain rfl : a = x := Option.some.inj (h.symm.trans hj)
    refine .inr ⟨rfl, mem_of_getElem? (i := i) ?_⟩
    rw [List.getElem?_set, if_pos rfl, if_pos (List.getElem?_eq_some_iff.mp h).1]
  · refine .inl (mem_of_getElem? (i := j) ?_)
    rw [getElem?_set, if_neg hij, hj]

end Lists

/-! ### Identities -/

/-- The identities in a state. -/
structure Shape (s : State) : Prop where
  effectIDs : (s.effects.map Effect.id).Nodup
  activationIDs : (s.activations.map Activation.id).Nodup
  indices : (s.activations.map Activation.nodeIndex).Nodup
  /-- Every activation names its own effects. -/
  owned : ∀ a ∈ s.activations, a.effectIDs.Nodup ∧
    ∀ id ∈ a.effectIDs, ∃ e ∈ s.effects, e.id = id ∧ e.compensation = false
  valid : s.activations ≠ [] → s.definition.Valid
  node : ∀ a ∈ s.activations, ∃ node, s.definition.nodes[a.nodeIndex]? = some node ∧ a.nodeID = node.id
  past : ∀ a ∈ s.activations, a.nodeIndex ≤ s.currentNode
  /-- The node the Run stands at has not been left. -/
  current : s.failure = none → ∀ a ∈ s.activations, a.nodeIndex = s.currentNode →
    a.status = .running ∨ a.status = .waiting
  waitIDs : (s.waits.map Wait.activationID).Nodup
  /-- Every Wait belongs to an activation without effects, of the current node if it is pending. -/
  waits : ∀ w ∈ s.waits, ∃ a ∈ s.activations, ∃ node, a.id = w.activationID ∧
    s.definition.nodes[a.nodeIndex]? = some node ∧ nodeHasEffects node.body = false ∧
    (w.status = .pending → a.nodeIndex = s.currentNode)

lemma shape_start (definition : Definition) (input : RawMessage) (depth : ℤ) :
    Shape { definition, input, nestedDepth := depth } := by
  constructor <;> simp

lemma bare_id (h : e'.bare = e.bare) : e'.id = e.id := congrArg (fun x => x.id) h

lemma bare_compensation (h : e'.bare = e.bare) : e'.compensation = e.compensation :=
  congrArg (fun x => x.compensation) h

lemma bare_maxCostUnits (h : e'.bare = e.bare) : e'.maxCostUnits = e.maxCostUnits :=
  congrArg (fun x => x.maxCostUnits) h

/-- The effects that activations own are still there when one effect is observed. -/
lemma Shape.settle {undo : Bool} (h : Shape s) (hs : Settle undo s t i e e') : Shape t := by
  obtain ⟨hfound, -, -, hfollows, rfl⟩ := hs
  have hids : (s.effects.set i e').map Effect.id = s.effects.map Effect.id :=
    map_set_eq hfound (bare_id hfollows.bare)
  refine { h with effectIDs := ?_, owned := fun a ha => ⟨(h.owned a ha).1, fun id hid => ?_⟩ }
  · show ((s.effects.set i e').map Effect.id).Nodup
    rw [hids]
    exact h.effectIDs
  obtain ⟨x, hx, hxid, hkind⟩ := (h.owned a ha).2 id hid
  rcases mem_set_of_mem hfound hx with hx' | ⟨rfl, hx'⟩
  · exact ⟨x, hx', hxid, hkind⟩
  · exact ⟨e', hx', (bare_id hfollows.bare).trans hxid,
      (bare_compensation hfollows.bare).trans hkind⟩

/-- What every observation keeps, all of them keep. -/
lemma Settles.keeps {P : State → Prop} (hs : Settles s t) (h : P s)
    (hsettle : ∀ {s t i e e'}, P s → Settle false s t i e e' → P t) : P t := by
  induction hs with
  | refl => exact h
  | tail _ hstep ih =>
    obtain ⟨i, e, _, hstep⟩ := hstep
    exact hsettle ih hstep

lemma Shape.settles (h : Shape s) (hs : Settles s t) : Shape t := hs.keeps h Shape.settle

lemma Shape.begun {s₀ : State} (h : Shape s₀) (hb : Begun s₀ s) : Shape s := by
  rcases hb with rfl | ⟨rfl, -⟩
  · exact h
  · exact { h with }

lemma not_mem_of_activationIndex {n : ℕ} (h : activationIndex s n = none) :
    ∀ a ∈ s.activations, a.nodeIndex ≠ n := by
  intro a ha heq
  have hmiss := findIdx?_eq_none_iff.mp h a ha
  simp [heq] at hmiss

lemma nodup_append_singleton {α : Type} {l : List α} {a : α} (h : l.Nodup) (ha : a ∉ l) :
    (l ++ [a]).Nodup :=
  nodup_append'.mpr ⟨h, nodup_singleton a, by simpa using ha⟩

lemma Shape.no_wait (h : Shape s) (ready : Ready s node) :
    ∀ w ∈ s.waits, w.status ≠ .pending := by
  intro w hw hpending
  obtain ⟨a, ha, -, -, -, -, hcurrent⟩ := h.waits w hw
  exact not_mem_of_activationIndex ready.free a ha (hcurrent hpending)

/-- A new activation of the current node. -/
lemma Shape.append {new : List Effect} (h : Shape s)
    (ready : Ready s node) (hdefinition : t.definition = s.definition)
    (hactivations : t.activations = s.activations ++ [a]) (heffects : t.effects = s.effects ++ new)
    (hindex : a.nodeIndex = s.currentNode) (hid : a.nodeID = node.id)
    (fresh : Fresh s a.id (new.map Effect.id)) (howned : a.effectIDs = new.map Effect.id)
    (hkind : ∀ e ∈ new, e.compensation = false) (hpast : s.currentNode ≤ t.currentNode)
    (hcurrent : t.currentNode = s.currentNode → a.status = .running ∨ a.status = .waiting)
    (hwaitIDs : (t.waits.map Wait.activationID).Nodup)
    (hwaits : ∀ w ∈ t.waits, w ∈ s.waits ∨ w.activationID = a.id ∧ nodeHasEffects node.body = false ∧
      t.currentNode = s.currentNode) : Shape t := by
  have hother := not_mem_of_activationIndex ready.free
  have hmem : ∀ b ∈ t.activations, b ∈ s.activations ∨ b = a := by
    rw [hactivations]
    exact fun b hb => by simpa using hb
  have hnode : t.definition.nodes[a.nodeIndex]? = some node := by
    rw [hdefinition, hindex]
    exact ready.here
  refine ⟨?_, ?_, ?_, ?_, fun _ => hdefinition ▸ ready.valid, ?_, ?_, ?_, hwaitIDs, ?_⟩
  · rw [heffects, map_append]
    refine nodup_append'.mpr ⟨h.effectIDs, fresh.distinct, ?_⟩
    exact fun id hold hnew => fresh.effects id hnew hold
  · rw [hactivations, map_append]
    exact nodup_append_singleton h.activationIDs fresh.activation
  · rw [hactivations, map_append]
    refine nodup_append_singleton h.indices fun hmem => ?_
    obtain ⟨b, hb, hindex'⟩ := mem_map.mp hmem
    exact hother b hb (hindex'.trans hindex)
  · intro b hb
    rw [heffects]
    rcases hmem b hb with hb | rfl
    · refine ⟨(h.owned b hb).1, fun id hid => ?_⟩
      obtain ⟨e, he, hrest⟩ := (h.owned b hb).2 id hid
      exact ⟨e, mem_append_left _ he, hrest⟩
    refine ⟨howned ▸ fresh.distinct, fun id hid => ?_⟩
    rw [howned] at hid
    obtain ⟨e, he, rfl⟩ := mem_map.mp hid
    exact ⟨e, mem_append_right _ he, rfl, hkind e he⟩
  · intro b hb
    rcases hmem b hb with hb | rfl
    · rw [hdefinition]
      exact h.node b hb
    · exact ⟨node, hnode, hid⟩
  · intro b hb
    rcases hmem b hb with hb | rfl
    · exact (h.past b hb).trans hpast
    · exact hindex.le.trans hpast
  · intro _ b hb hbcurrent
    rcases hmem b hb with hb | rfl
    · -- the older activations stand at earlier nodes
      have hle := h.past b hb
      exact absurd (by omega) (hother b hb)
    · exact hcurrent (hbcurrent.symm.trans hindex)
  · intro w hw
    rcases hwaits w hw with hw | ⟨hwid, hbody, hstay⟩
    · obtain ⟨b, hb, n, hbid, hn, hbody, -⟩ := h.waits w hw
      refine ⟨b, ?_, n, hbid, hdefinition ▸ hn, hbody, fun hp => absurd hp (h.no_wait ready w hw)⟩
      rw [hactivations]
      exact mem_append_left _ hb
    refine ⟨a, ?_, node, hwid.symm, hnode, hbody, fun _ => hindex.trans hstay.symm⟩
    rw [hactivations]
    exact mem_append_right _ (mem_singleton_self a)

/-- One activation changes, but for its identity. -/
lemma Shape.update {position : ℕ} {f : Activation → Activation} (h : Shape s)
    (hdefinition : t.definition = s.definition) (heffects : t.effects = s.effects)
    (hactivations : t.activations = s.activations.modify position f)
    (hf : ∀ a, (f a).id = a.id ∧ (f a).nodeIndex = a.nodeIndex ∧ (f a).nodeID = a.nodeID ∧
      (f a).effectIDs = a.effectIDs) (hpast : s.currentNode ≤ t.currentNode)
    (hcurrent : t.failure = none → s.currentNode < t.currentNode)
    (hwaitIDs : t.waits.map Wait.activationID = s.waits.map Wait.activationID)
    (hwaits : ∀ w ∈ t.waits, w.status = .pending → w ∈ s.waits ∧ t.currentNode = s.currentNode) :
    Shape t := by
  have hmem : ∀ b ∈ t.activations, ∃ a ∈ s.activations, b.id = a.id ∧ b.nodeIndex = a.nodeIndex ∧
      b.nodeID = a.nodeID ∧ b.effectIDs = a.effectIDs := by
    intro b hb
    rw [hactivations] at hb
    obtain ⟨a, ha, rfl | rfl⟩ := mem_modify hb
    · exact ⟨b, ha, rfl, rfl, rfl, rfl⟩
    · exact ⟨a, ha, hf a⟩
  refine ⟨heffects ▸ h.effectIDs, ?_, ?_, ?_, ?_, ?_, ?_, ?_, hwaitIDs ▸ h.waitIDs, ?_⟩
  · rw [hactivations, map_modify_eq fun a => (hf a).1]
    exact h.activationIDs
  · rw [hactivations, map_modify_eq fun a => (hf a).2.1]
    exact h.indices
  · intro b hb
    obtain ⟨a, ha, -, -, -, hids⟩ := hmem b hb
    rw [hids, heffects]
    exact h.owned a ha
  · intro hne
    refine hdefinition ▸ h.valid fun hnil => hne ?_
    rw [hactivations, hnil, modify_nil]
  · intro b hb
    obtain ⟨a, ha, -, hindex, hnodeID, -⟩ := hmem b hb
    rw [hdefinition, hindex, hnodeID]
    exact h.node a ha
  · intro b hb
    obtain ⟨a, ha, -, hindex, -⟩ := hmem b hb
    exact hindex ▸ (h.past a ha).trans hpast
  · intro hnone b hb _
    obtain ⟨a, ha, -, _, -⟩ := hmem b hb
    have hle := h.past a ha
    have hlt := hcurrent hnone
    omega
  intro w hw
  have hold : w.activationID ∈ s.waits.map Wait.activationID :=
    hwaitIDs ▸ mem_map_of_mem hw
  obtain ⟨w0, hw0, hid⟩ := mem_map.mp hold
  obtain ⟨a, ha, node, haid, _, hbody, -⟩ := h.waits w0 hw0
  have hkeep : ∃ b ∈ t.activations, b.id = a.id ∧ b.nodeIndex = a.nodeIndex := by
    rw [hactivations]
    rcases mem_modify_of_mem ha with hb | hb
    · exact ⟨a, hb, rfl, rfl⟩
    · exact ⟨f a, hb, (hf a).1, (hf a).2.1⟩
  obtain ⟨b, hb, hbid, hbindex⟩ := hkeep
  refine ⟨b, hb, node, hbid.trans (haid.trans hid), ?_, hbody, fun hpending => ?_⟩
  · rwa [hdefinition, hbindex]
  obtain ⟨hwold, hstay⟩ := hwaits w hw hpending
  obtain ⟨a', ha', -, haid', -, -, hcur⟩ := h.waits w hwold
  -- the activation of a Wait is found by its identifier
  have hsame : a' = a := inj_on_of_nodup_map h.activationIDs ha' ha
    (haid'.trans (hid.symm.trans haid.symm))
  rw [hbindex, hstay, ← hsame]
  exact hcur hpending

/-! ### Plans -/

lemma mapM_ok {α β ε : Type} {f : α → Except ε β} {l : List α} {r : List β}
    (h : l.mapM f = .ok r) : List.Forall₂ (fun x y => f x = .ok y) l r := by
  induction l generalizing r with
  | nil =>
    obtain rfl : r = [] := by simpa [pure, Except.pure] using h.symm
    exact .nil
  | cons _ _ ih =>
    rw [mapM_cons] at h
    obtain ⟨_, hx, h⟩ := bind_eq_ok h
    obtain ⟨_, hl, h⟩ := bind_eq_ok h
    cases h
    exact .cons hx (ih hl)

/-- What every plan of a node is made from. -/
structure EffectPlan.Of (body : NodeBody) (plan : EffectPlan) : Prop where
  call : plan.call ∈ body.calls
  forward : plan.compensation = false

lemma map_ok {α β ε : Type} {x : Except ε α} {f : α → β} {b : β}
    (h : (do let a ← x; return f a) = Except.ok b) : ∃ a, x = .ok a ∧ f a = b := by
  obtain ⟨a, ha, hb⟩ := bind_eq_ok h
  exact ⟨a, ha, Except.ok.inj hb⟩

/-- The plans of a list of calls, in the order of the calls. -/
lemma plansFromCalls_spec {calls : List (GoString × EffectCall)}
    (h : plansFromCalls s calls = .ok plans) :
    List.Forall₂ (fun c p => p.call = c.2 ∧ p.outputKey = c.1 ∧ p.compensation = false) calls plans := by
  refine (mapM_ok h).imp fun c p hp => ?_
  obtain ⟨_, -, rfl⟩ := map_ok hp
  exact ⟨rfl, rfl, rfl⟩

lemma exists_of_forall₂ {α β : Type} {R : α → β → Prop} {xs : List α} {ys : List β}
    (h : List.Forall₂ R xs ys) {y : β} (hy : y ∈ ys) : ∃ x ∈ xs, R x y := by
  induction h with
  | nil => cases hy
  | @cons x _ _ _ hxz _ ih =>
    rcases mem_cons.mp hy with rfl | hy
    · exact ⟨x, mem_cons_self, hxz⟩
    · obtain ⟨x', hx', hR⟩ := ih hy
      exact ⟨x', mem_cons_of_mem _ hx', hR⟩

lemma plansFromCalls_of {body : NodeBody} {calls : List (GoString × EffectCall)}
    (h : plansFromCalls s calls = .ok plans)
    (hcalls : ∀ c ∈ calls, c.2 ∈ body.calls) : ∀ p ∈ plans, p.Of body := by
  intro p hp
  obtain ⟨c, hc, hcall, -, hforward⟩ := exists_of_forall₂ (plansFromCalls_spec h) hp
  exact ⟨hcall ▸ hcalls c hc, hforward⟩

/-- The plans of a map node, one for each item. -/
lemma mapPlans_spec {node : MapNode} (h : effectPlansForNode s (.map node) = .ok plans) :
    ∃ values : List RawMessage, List.Forall₂ (fun v p => p.call = node.call ∧ p.mapIndex = v.2 ∧
      p.mapped = true ∧ p.compensation = false) values.zipIdx plans := by
  obtain ⟨items, -, hplans⟩ := bind_eq_ok h
  rcases hitems : arrayItems items with _ | values
  · rw [hitems] at hplans
    cases hplans
  simp only [hitems] at hplans
  split at hplans
  · cases hplans
  refine ⟨values, (mapM_ok hplans).imp fun v p hp => ?_⟩
  obtain ⟨_, -, rfl⟩ := map_ok hp
  exact ⟨rfl, rfl, rfl, rfl⟩

/-- A node whose one call is planned as it stands. -/
lemma single_of (body : NodeBody) {call : EffectCall} {x : Except GoError RawMessage}
    (hcall : call ∈ body.calls)
    (h : (do return [{ call := call, input := ← x }]) = Except.ok plans) :
    plans.length = 1 ∧ ∀ p ∈ plans, p.Of body := by
  obtain ⟨_, -, rfl⟩ := map_ok h
  refine ⟨rfl, fun p hp => ?_⟩
  obtain rfl := mem_singleton.mp hp
  exact ⟨hcall, rfl⟩

/-- Every plan of a node makes one of its calls. -/
lemma effectPlansForNode_of {body : NodeBody}
    (h : effectPlansForNode s body = .ok plans) : ∀ p ∈ plans, p.Of body := by
  cases body with
  | effect | compensation => exact (single_of _ (by simp [NodeBody.calls]) h).2
  | agentTask | applicationEffect | mediaEffect =>
    exact plansFromCalls_of h (by simp [NodeBody.calls])
  | parallel =>
    exact plansFromCalls_of h (forall_mem_map.mpr fun _ => mem_map_of_mem)
  | map =>
    obtain ⟨_, hall⟩ := mapPlans_spec h
    intro p hp
    obtain ⟨v, -, hcall, -, -, hforward⟩ := exists_of_forall₂ hall hp
    exact ⟨by simp [NodeBody.calls, hcall], hforward⟩
  | subworkflow =>
    rw [effectPlansForNode] at h
    split at h
    · cases h
    · exact (single_of _ (by simp [NodeBody.calls]) h).2
  | wait | branch | ret => cases h

/-! ### Every change keeps the identities -/

lemma zipWith_intent_map {f : Effect → α} {g : EffectPlan → α}
    (hfg : ∀ (plan : EffectPlan) id, f (plan.intent s node activationID id) = g plan)
    (h : ids.length = plans.length) :
    (zipWith (fun plan id => plan.intent s node activationID id) plans ids).map f = plans.map g := by
  induction plans generalizing ids with
  | nil =>
    rfl
  | cons _ _ ih =>
    obtain ⟨_, _, rfl⟩ := exists_cons_of_length_eq_add_one h
    rw [zipWith_cons_cons, map_cons, map_cons, ih (Nat.succ.inj h), hfg]

lemma zipWith_intent_ids (h : ids.length = plans.length) :
    (zipWith (fun plan id => plan.intent s node activationID id) plans ids).map Effect.id = ids := by
  induction plans generalizing ids with
  | nil =>
    rw [eq_nil_of_length_eq_zero h]
    rfl
  | cons _ _ ih =>
    obtain ⟨_, _, rfl⟩ := exists_cons_of_length_eq_add_one h
    rw [zipWith_cons_cons, map_cons, ih (Nat.succ.inj h)]
    rfl

lemma mem_zipWith_intent
    (h : e ∈ zipWith (fun plan id => plan.intent s node activationID id) plans ids) :
    ∃ plan ∈ plans, ∃ id ∈ ids, e = plan.intent s node activationID id := by
  rw [mem_iff_getElem?] at h
  obtain ⟨i, hi⟩ := h
  obtain ⟨plan, id, hplan, hid, heq⟩ := getElem?_zipWith_eq_some.mp hi
  exact ⟨plan, mem_of_getElem? hplan, id, mem_of_getElem? hid, heq.symm⟩

/-- The next node of a valid Definition stands behind the current one. -/
lemma nextNodeIndex_lt {next : ℕ} (hvalid : s.definition.Valid)
    (hnode : s.definition.nodes[s.currentNode]? = some node) (h : nextNodeIndex s node = some next) :
    s.currentNode < next := by
  rw [nextNodeIndex] at h
  split at h
  · cases h
    exact Nat.lt_succ_self _
  · rename_i hne
    exact hvalid.next _ node next hnode hne h

section Standing

variable {position : ℕ}

lemma Standing.mem (h : Standing s node position a) : a ∈ s.activations :=
  mem_of_getElem? h.found

lemma Standing.valid (h : Standing s node position a) (hs : Shape s) : s.definition.Valid :=
  hs.valid (ne_nil_of_mem h.mem)

lemma Standing.no_wait (h : Standing s node position a) (hs : Shape s) :
    ∀ w ∈ s.waits, w.status ≠ .pending := by
  intro w hw hpending
  obtain ⟨b, _, n, -, hn, hbody, hcurrent⟩ := hs.waits w hw
  rw [hcurrent hpending, h.here] at hn
  cases hn
  exact absurd h.effects (by simp [hbody])

end Standing

/-- A change that concerns no activation. -/
lemma Shape.keep (h : Shape s) (hdefinition : t.definition = s.definition)
    (hactivations : t.activations = s.activations) (heffects : t.effects = s.effects)
    (hwaits : t.waits = s.waits) (hcurrent : t.currentNode = s.currentNode)
    (hfailure : t.failure = none → s.failure = none) : Shape t := by
  obtain ⟨definition, input, depth, current, activations, effects, waits, waitID, compensations,
    failure, budget⟩ := t
  subst hdefinition hactivations heffects hwaits hcurrent
  exact { h with current := fun hnone => h.current (hfailure hnone) }

lemma intend_failure_ne : (s.intend status code cause).failure ≠ none := by
  rw [State.intend]
  cases s.failure <;> simp

lemma intend_of_some
    {f : FailureIntent} (h : s.failure = some f) : (s.intend status code cause).failure = some f := by
  rw [State.intend, h]
  rfl

lemma intend_of_none (h : s.failure = none) :
    (s.intend status code cause).failure = some ⟨status, trimSpace code, cause.text⟩ := by
  rw [State.intend, h]
  rfl

/-- What the resolution of a Wait does. -/
lemma resolveWaitState_spec
    (h : resolveWaitState s i j response = some t) : ∃ a node next, s.activations[j]? = some a ∧
      s.definition.nodes[a.nodeIndex]? = some node ∧ nextNodeIndex s node = some next ∧
      t = { completeActivation s j response with
        waits := s.waits.modify i fun w => { w with status := .resolved, response }
        currentNode := next
        currentWaitID := [] } := by
  rw [resolveWaitState] at h
  obtain ⟨a, ha, h⟩ := Option.bind_eq_some_iff.mp h
  obtain ⟨node, hnode, h⟩ := Option.bind_eq_some_iff.mp h
  obtain ⟨next, hnext, h⟩ := Option.bind_eq_some_iff.mp h
  exact ⟨a, node, next, ha, hnode, hnext, (Option.some.inj h).symm⟩

lemma activationIndexByID_spec {id : GoString}
    (h : activationIndexByID s id = some j) (ha : s.activations[j]? = some a) : a.id = id := by
  obtain ⟨_, hid, -⟩ := findIdx?_eq_some_iff_getElem.mp h
  obtain ⟨_, rfl⟩ := List.getElem?_eq_some_iff.mp ha
  simpa using hid

/-- The activation that a Wait belongs to. -/
lemma Shape.wait {w : Wait} (h : Shape s) (hw : w ∈ s.waits)
    (ha : a ∈ s.activations) (hid : a.id = w.activationID) :
    ∃ node, s.definition.nodes[a.nodeIndex]? = some node ∧ nodeHasEffects node.body = false ∧
      (w.status = .pending → a.nodeIndex = s.currentNode) := by
  obtain ⟨b, hb, node, hbid, hrest⟩ := h.waits w hw
  rw [inj_on_of_nodup_map h.activationIDs ha hb (hid.trans hbid.symm)]
  exact ⟨node, hrest⟩

lemma Shape.resolve {w : Wait} (h : Shape s)
    (hw : s.waits[i]? = some w) (hpending : w.status = .pending)
    (hj : activationIndexByID s w.activationID = some j)
    (ht : resolveWaitState s i j response = some t) : Shape t := by
  obtain ⟨a, node, next, ha, hnode, hnext, rfl⟩ := resolveWaitState_spec ht
  have haid := activationIndexByID_spec hj ha
  have hmem : a ∈ s.activations := mem_of_getElem? ha
  -- the Wait belongs to the activation of the current node
  have hcurrent : a.nodeIndex = s.currentNode := by
    obtain ⟨-, -, -, hcur⟩ := h.wait (mem_of_getElem? hw) hmem haid
    exact hcur hpending
  rw [hcurrent] at hnode
  have hlt : s.currentNode < next :=
    nextNodeIndex_lt (h.valid (ne_nil_of_mem hmem)) hnode hnext
  have hids : (s.waits.modify i fun w => { w with status := .resolved, response }).map
      Wait.activationID = s.waits.map Wait.activationID := by
    refine map_modify_eq (fun _ => ?_) _ _
    rfl
  refine h.update rfl rfl rfl (fun _ => ⟨rfl, rfl, rfl, rfl⟩) hlt.le (fun _ => hlt) hids
    fun w' hw' hp => ?_
  -- no other Wait is pending: it would belong to the same activation
  exfalso
  obtain ⟨k, hk⟩ := mem_iff_getElem?.mp hw'
  rw [getElem?_modify] at hk
  obtain ⟨w0, hw0, heq⟩ := Option.map_eq_some_iff.mp hk
  by_cases hik : i = k
  · rw [if_pos hik] at heq
    rw [← heq] at hp
    cases hp
  rw [if_neg hik] at heq
  subst heq
  obtain ⟨b, hb, -, hbid, -, -, hcur⟩ := h.waits w0 (mem_of_getElem? hw0)
  have hsame : b = a :=
    inj_on_of_nodup_map h.indices hb hmem ((hcur hp).trans hcurrent.symm)
  have hids : (s.waits.map Wait.activationID)[i]? = (s.waits.map Wait.activationID)[k]? := by
    rw [getElem?_map, getElem?_map, hw, hw0, Option.map_some, Option.map_some,
      ← hbid, hsame, haid]
  have hltw : i < (s.waits.map Wait.activationID).length := by
    rw [length_map]
    exact (List.getElem?_eq_some_iff.mp hw).1
  exact hik ((getElem?_inj hltw h.waitIDs).mp hids)

/-- **Whatever moves a Run keeps the identities in its state.** -/
theorem Shape.close (h : Shape s) (hc : Close s t) : Shape t := by
  cases hc with
  | prepare ready _ hplans _ hlength =>
    refine h.append ready rfl rfl rfl rfl rfl ?_ (zipWith_intent_ids hlength).symm ?_ le_rfl
      (fun _ => .inl rfl) h.waitIDs fun w hw => .inl hw
    · rwa [zipWith_intent_ids hlength]
    intro e he
    obtain ⟨plan, hplan, _, -, rfl⟩ := mem_zipWith_intent he
    exact (effectPlansForNode_of hplans plan hplan).forward
  | finish standing _ _ hnext =>
    have hlt := nextNodeIndex_lt (standing.valid h) standing.here hnext
    exact h.update rfl rfl rfl (fun _ => ⟨rfl, rfl, rfl, rfl⟩) hlt.le (fun _ => hlt) rfl
      fun w hw hpending => absurd hpending (standing.no_wait h w hw)
  | unregistered standing | stuck standing | collapse standing =>
    exact h.update rfl rfl rfl (fun _ => ⟨rfl, rfl, rfl, rfl⟩) le_rfl
      (fun hnone => absurd hnone intend_failure_ne) rfl
      fun w hw hpending => absurd hpending (standing.no_wait h w hw)
  | intend =>
    exact h.keep rfl rfl rfl rfl rfl fun hnone => absurd hnone intend_failure_ne
  | activate ready _ hnext fresh =>
    refine h.append ready rfl rfl (append_nil _).symm rfl rfl fresh rfl (by simp) hnext.le
      (fun hstay => ?_) h.waitIDs fun w hw => .inl hw
    exact absurd hstay (Nat.ne_of_gt hnext)
  | @wait _ _ _ _ _ ready hbody fresh =>
    refine h.append ready rfl rfl (append_nil _).symm rfl rfl fresh rfl (by simp) le_rfl
      (fun _ => .inr rfl) ?_ fun w hw => ?_
    · show ((s.waits ++ _).map Wait.activationID).Nodup
      rw [map_append]
      refine nodup_append_singleton h.waitIDs fun hmem => fresh.activation ?_
      obtain ⟨w, hw, hid⟩ := mem_map.mp hmem
      obtain ⟨a, ha, -, haid, -⟩ := h.waits w hw
      exact mem_map.mpr ⟨a, ha, haid.trans hid⟩
    · rcases mem_append.mp hw with hw | hw
      · exact .inl hw
      · obtain rfl := mem_singleton.mp hw
        exact .inr ⟨rfl, by rw [hbody]; rfl, rfl⟩
  | resolve hw hpending hj ht => exact h.resolve hw hpending hj ht
  | @startUndo _ c effectID _ _ _ hfresh =>
    refine { h with effectIDs := ?_, owned := fun a ha => ⟨(h.owned a ha).1, fun id hid => ?_⟩ }
    · show ((s.effects ++ [undoIntent s c effectID]).map Effect.id).Nodup
      rw [map_append]
      exact nodup_append_singleton h.effectIDs hfresh
    · obtain ⟨e, he, hrest⟩ := (h.owned a ha).2 id hid
      exact ⟨e, mem_append_left _ he, hrest⟩
  | retryUndo _ _ _ hsettle => exact h.settle hsettle
  | completeUndo _ _ _ hsettle =>
    exact (h.settle hsettle).keep rfl rfl rfl rfl rfl id
  | failUndo _ _ _ hsettle =>
    exact (h.settle hsettle).keep rfl rfl rfl rfl rfl nofun
  | refuseUndo | abandon => exact h.keep rfl rfl rfl rfl rfl nofun

lemma Shape.stored (h : Shape s) : Shape s.stored := by
  refine ⟨?_, ?_, ?_, ?_, ?_, ?_, ?_, ?_, ?_, ?_⟩
  · simpa [State.stored, Effect.stored, Function.comp_def] using h.effectIDs
  · simpa [State.stored, Activation.stored, Function.comp_def] using h.activationIDs
  · simpa [State.stored, Activation.stored, Function.comp_def] using h.indices
  · refine forall_mem_map.mpr fun a ha => ⟨(h.owned a ha).1, fun id hid => ?_⟩
    obtain ⟨e, he, hrest⟩ := (h.owned a ha).2 id hid
    exact ⟨e.stored, mem_map_of_mem he, hrest⟩
  · intro hne
    exact h.valid fun hnil => hne (by simp [State.stored, hnil])
  · exact forall_mem_map.mpr h.node
  · exact forall_mem_map.mpr h.past
  · exact fun hnone => forall_mem_map.mpr (h.current (Option.map_eq_none_iff.mp hnone))
  · simpa [State.stored, Wait.stored, Function.comp_def] using h.waitIDs
  refine forall_mem_map.mpr fun w hw => ?_
  obtain ⟨a, ha, hrest⟩ := h.waits w hw
  exact ⟨a.stored, mem_map_of_mem ha, hrest⟩

/-- **Every commit keeps the identities.** -/
theorem Change.shape (hc : Change s t) (h : Shape s) : Shape t := by
  obtain ⟨u, v, hbegun, hsettles, rfl | hclose⟩ := hc
  · exact (h.begun hbegun).settles hsettles
  · exact ((h.begun hbegun).settles hsettles).close hclose

end Workflow
