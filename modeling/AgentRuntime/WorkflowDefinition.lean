/-
Workflow Definitions (`workflow/definition.go`, `workflow/nodes.go`).

A Definition is data: a list of nodes, each with one payload that matches its type,
together with the hard bounds of an execution and a cost policy.  Compiling a draft
trims and normalizes it, validates it and freezes its hash.  The interpreter relies on
what validation guarantees: names are unique, branches lead forward, no call has a
negative price, and every call may be attempted at least once.

A node's type and its payload are one thing here (`NodeBody`), since validation refuses
every other combination; so are the kinds of value sources and the classes of effects.
JSON Schema and the hash of a Definition are given from outside (`Contracts`).

* `EffectCall.Sound`, **`compileDefinition_sound`** — what a compiled Definition
  guarantees about every call that it can make.
-/
import AgentRuntime.JsonCanonical
import AgentRuntime.KernelTypes
import Mathlib.Data.List.Sort

namespace Workflow

open GoString GoJson List Bool
open Kernel (RawMessage)

/-! ### Definitions as data -/

inductive ValueSourceKind where
  | literal
  | workflowInput
  | nodeOutput
  | waitResponse
  | mapItem
  | mapIndex
  deriving DecidableEq, Repr

/-- Selects JSON without executing code; the pointer is one of RFC 6901. -/
structure ValueSource where
  kind : ValueSourceKind
  value : RawMessage := []
  nodeID : GoString := []
  pointer : GoString := []
  deriving DecidableEq, Repr

inductive EffectClass where
  | generic
  | agent
  | application
  | media
  | subworkflow
  | compensation
  deriving DecidableEq, Repr

/-- Bounds the retries of one stable Effect intent. -/
structure RetryPolicy where
  maxAttempts : ℤ
  retryableErrorCodes : List GoString := []
  deriving DecidableEq, Repr

structure DefinitionReference where
  id : GoString
  revision : ℤ
  hash : GoString
  deriving DecidableEq, Repr

/-- One closed, data-only external call. -/
structure EffectCall where
  effectClass : EffectClass
  kind : GoString
  revision : GoString := []
  input : ValueSource
  definition : Option DefinitionReference := none
  maxCostUnits : Int64
  retry : RetryPolicy
  deriving DecidableEq, Repr

structure EffectNode where
  kind : GoString
  input : RawMessage := []
  fromInput : Bool := false
  source : Option ValueSource := none
  maxCostUnits : Int64
  retry : RetryPolicy
  deriving DecidableEq, Repr

/-- `AgentTaskNode`, `ApplicationEffectNode` and `MediaEffectNode`: one exact revision of
what is called. -/
structure CallNode where
  key : GoString
  revision : GoString
  input : ValueSource
  maxCostUnits : Int64
  retry : RetryPolicy
  deriving DecidableEq, Repr

structure WaitNode where
  kind : GoString
  payload : RawMessage := []
  source : Option ValueSource := none
  deriving DecidableEq, Repr

structure IfNode where
  condition : ValueSource
  thenNodeID : GoString
  elseNodeID : GoString
  deriving DecidableEq, Repr

structure ParallelBranch where
  id : GoString
  call : EffectCall
  deriving DecidableEq, Repr

structure ParallelNode where
  branches : List ParallelBranch
  maxConcurrency : ℤ
  deriving DecidableEq, Repr

structure MapNode where
  items : ValueSource
  call : EffectCall
  maxConcurrency : ℤ
  deriving DecidableEq, Repr

structure SubworkflowNode where
  definition : DefinitionReference
  input : ValueSource
  maxCostUnits : Int64
  retry : RetryPolicy
  deriving DecidableEq, Repr

/-- Registers `undo` once `do` has completed. -/
structure CompensationNode where
  doCall : EffectCall
  undo : EffectCall
  deriving DecidableEq, Repr

structure ReturnNode where
  value : RawMessage := []
  fromNode : GoString := []
  source : Option ValueSource := none
  deriving DecidableEq, Repr

/-- The type of a node with the one payload that matches it. -/
inductive NodeBody where
  | effect (node : EffectNode)
  | agentTask (node : CallNode)
  | applicationEffect (node : CallNode)
  | mediaEffect (node : CallNode)
  | wait (node : WaitNode)
  | branch (node : IfNode)
  | parallel (node : ParallelNode)
  | map (node : MapNode)
  | subworkflow (node : SubworkflowNode)
  | compensation (node : CompensationNode)
  | ret (node : ReturnNode)
  deriving DecidableEq, Repr

structure Node where
  id : GoString
  next : GoString := []
  body : NodeBody
  deriving DecidableEq, Repr

/-- The frozen hard bounds of one execution. -/
structure Limits where
  maxNodeActivations : ℤ
  maxEffects : ℤ
  maxSegments : ℤ
  maxActivationsPerSegment : ℤ
  maxStateBytes : ℤ
  maxFanOut : ℤ
  maxConcurrency : ℤ
  maxNestedDepth : ℤ
  maxAttemptsPerEffect : ℤ
  deriving DecidableEq, Repr

inductive CostClass where
  | none
  | low
  | medium
  | high
  | external
  deriving DecidableEq, Repr

inductive SideEffectClass where
  | none
  | read
  | write
  | destructive
  deriving DecidableEq, Repr

structure DefinitionPolicy where
  requiredPermissions : List GoString := []
  costClass : CostClass := .none
  maxCostUnits : Int64
  sideEffectClass : SideEffectClass := .none
  deriving DecidableEq, Repr

structure DefinitionDraft where
  id : GoString
  revision : ℤ
  name : GoString
  inputSchema : RawMessage := []
  outputSchema : RawMessage := []
  nodes : List Node
  limits : Limits
  policy : DefinitionPolicy
  deriving DecidableEq, Repr

/-- One compiled immutable revision. -/
structure Definition extends DefinitionDraft where
  hash : GoString
  deriving DecidableEq, Repr

/-- What is given from outside: which texts are JSON schemas, and the hash of a
Definition's encoding. -/
structure Contracts where
  compiles : RawMessage → Bool
  /-- The value violates the schema, with the text of the error. -/
  violation : RawMessage → RawMessage → Option GoString
  definitionHash : DefinitionDraft → Option GoString

/-! ### Normalization -/

/-- `normalizeJSON`. -/
def normalizeJSON (value : RawMessage) : RawMessage := (canonical value).getD value

/-- Trimmed, without empty and repeated names, in ascending order. -/
def normalizeNames (names : List GoString) : List GoString :=
  (((names.map trimSpace).filter (· ≠ [])).dedup).insertionSort (· ≤ ·)

def normalizeValueSource (source : ValueSource) : ValueSource :=
  { source with
    value := normalizeJSON source.value
    nodeID := trimSpace source.nodeID
    pointer := trimSpace source.pointer }

def normalizeRetryPolicy (policy : RetryPolicy) : RetryPolicy where
  maxAttempts := if policy.maxAttempts ≤ 0 then 1 else policy.maxAttempts
  retryableErrorCodes := normalizeNames policy.retryableErrorCodes

def normalizeReference (reference : DefinitionReference) : DefinitionReference :=
  { reference with id := trimSpace reference.id, hash := trimSpace reference.hash }

def normalizeEffectCall (call : EffectCall) : EffectCall :=
  { call with
    kind := trimSpace call.kind
    revision := trimSpace call.revision
    input := normalizeValueSource call.input
    definition := call.definition.map normalizeReference
    retry := normalizeRetryPolicy call.retry }

def normalizeCallNode (node : CallNode) : CallNode :=
  { node with
    key := trimSpace node.key
    revision := trimSpace node.revision
    input := normalizeValueSource node.input
    retry := normalizeRetryPolicy node.retry }

def normalizeBody : NodeBody → NodeBody
  | .effect node => .effect { node with
      kind := trimSpace node.kind
      input := normalizeJSON node.input
      source := node.source.map normalizeValueSource
      retry := normalizeRetryPolicy node.retry }
  | .agentTask node => .agentTask (normalizeCallNode node)
  | .applicationEffect node => .applicationEffect (normalizeCallNode node)
  | .mediaEffect node => .mediaEffect (normalizeCallNode node)
  | .wait node => .wait {
      kind := trimSpace node.kind
      payload := normalizeJSON node.payload
      source := node.source.map normalizeValueSource }
  | .branch node => .branch {
      condition := normalizeValueSource node.condition
      thenNodeID := trimSpace node.thenNodeID
      elseNodeID := trimSpace node.elseNodeID }
  | .parallel node => .parallel { node with
      branches := node.branches.map fun branch =>
        ⟨trimSpace branch.id, normalizeEffectCall branch.call⟩ }
  | .map node => .map { node with
      items := normalizeValueSource node.items
      call := normalizeEffectCall node.call }
  | .subworkflow node => .subworkflow { node with
      definition := normalizeReference node.definition
      input := normalizeValueSource node.input
      retry := normalizeRetryPolicy node.retry }
  | .compensation node =>
      .compensation ⟨normalizeEffectCall node.doCall, normalizeEffectCall node.undo⟩
  | .ret node => .ret {
      value := normalizeJSON node.value
      fromNode := trimSpace node.fromNode
      source := node.source.map normalizeValueSource }

/-- `normalizeNode`. -/
def normalizeNode (node : Node) : Node where
  id := trimSpace node.id
  next := trimSpace node.next
  body := normalizeBody node.body

/-- `cloneNodes` normalizes what it copies. -/
def cloneNodes (nodes : List Node) : List Node := nodes.map normalizeNode

def cloneDefinition (definition : Definition) : Definition :=
  { definition with nodes := cloneNodes definition.nodes }

def orDefault (n fallback : ℤ) : ℤ := if n ≤ 0 then fallback else n

def normalizeLimits (limits : Limits) : Limits where
  maxNodeActivations := orDefault limits.maxNodeActivations 256
  maxEffects := orDefault limits.maxEffects 64
  maxSegments := orDefault limits.maxSegments 256
  maxActivationsPerSegment := orDefault limits.maxActivationsPerSegment 32
  maxStateBytes := orDefault limits.maxStateBytes (2 ^ 20)
  maxFanOut := orDefault limits.maxFanOut 64
  maxConcurrency := orDefault limits.maxConcurrency 8
  maxNestedDepth := orDefault limits.maxNestedDepth 8
  maxAttemptsPerEffect := orDefault limits.maxAttemptsPerEffect 3

def normalizeDefinitionPolicy (policy : DefinitionPolicy) : DefinitionPolicy :=
  { policy with requiredPermissions := normalizeNames policy.requiredPermissions }

def normalizeSchema (schema : RawMessage) : RawMessage :=
  if schema = [] then lit "true" else normalizeJSON schema

/-- `normalizeDefinitionDraft`; the nodes are normalized by the copy already. -/
def normalizeDefinitionDraft (draft : DefinitionDraft) : DefinitionDraft where
  id := trimSpace draft.id
  revision := draft.revision
  name := trimSpace draft.name
  inputSchema := normalizeSchema draft.inputSchema
  outputSchema := normalizeSchema draft.outputSchema
  nodes := (cloneNodes draft.nodes).map normalizeNode
  limits := normalizeLimits draft.limits
  policy := normalizeDefinitionPolicy draft.policy

/-! ### Validation -/

/-- The map from names to positions that validation builds. -/
def position (nodes : List Node) (id : GoString) : Option ℕ := nodes.findIdx? fun node => node.id = id

def validRetryPolicy (policy : RetryPolicy) (limits : Limits) : Bool :=
  0 < policy.maxAttempts && policy.maxAttempts ≤ limits.maxAttemptsPerEffect &&
    (policy.maxAttempts = 1 || policy.retryableErrorCodes ≠ [])

def validDefinitionReference (reference : DefinitionReference) : Bool :=
  reference.id ≠ [] && 0 < reference.revision && reference.hash ≠ []

/-- `validValueSource`: another node is named only if it stands earlier, or is this one
where that is allowed. -/
def validValueSource (nodes : List Node) (index : ℕ) (allowMap allowCurrent : Bool)
    (source : ValueSource) : Bool :=
  (source.pointer = [] || (lit "/").isPrefixOf source.pointer) &&
  match source.kind with
  | .literal => source.value ≠ [] && valid source.value && source.nodeID = []
  | .workflowInput => source.value = [] && source.nodeID = []
  | .nodeOutput | .waitResponse =>
    match position nodes source.nodeID with
    | none => false
    | some target => source.value = [] && (target < index || (allowCurrent && target = index))
  | .mapItem | .mapIndex => allowMap && source.value = [] && source.nodeID = []

def validForwardTarget (nodes : List Node) (index : ℕ) (optional : Bool) (target : GoString) : Bool :=
  if target = [] then optional
  else match position nodes target with
    | none => false
    | some i => index < i

def validEffectCall (nodes : List Node) (limits : Limits) (index : ℕ) (allowMap allowCurrent : Bool)
    (call : EffectCall) : Bool :=
  call.kind ≠ [] && 0 ≤ call.maxCostUnits && validRetryPolicy call.retry limits &&
    validValueSource nodes index allowMap allowCurrent call.input &&
  match call.effectClass with
  | .generic | .compensation => call.revision = [] && call.definition = none
  | .agent | .application | .media => call.revision ≠ [] && call.definition = none
  | .subworkflow => call.revision = [] && call.definition.any validDefinitionReference

/-- Exactly one of the three is there. -/
def exactlyOne (a b c : Bool) : Bool := a.toNat + b.toNat + c.toNat == 1

def validEffectNode (nodes : List Node) (limits : Limits) (index : ℕ) (node : EffectNode) : Bool :=
  node.kind ≠ [] && 0 ≤ node.maxCostUnits && validRetryPolicy node.retry limits &&
    exactlyOne (node.input ≠ [] && valid node.input) node.fromInput
      (node.source.any (validValueSource nodes index false false))

def validCallNode (nodes : List Node) (limits : Limits) (index : ℕ) (node : CallNode) : Bool :=
  node.key ≠ [] && node.revision ≠ [] && 0 ≤ node.maxCostUnits && validRetryPolicy node.retry limits &&
    validValueSource nodes index false false node.input

def validWaitNode (nodes : List Node) (index : ℕ) (node : WaitNode) : Bool :=
  node.kind ≠ [] && (node.payload ≠ [] && valid node.payload) !=
    node.source.any (validValueSource nodes index false false)

/-- `validReturnNode`; a name that is not there reads as position 0. -/
def validReturnNode (nodes : List Node) (index : ℕ) (node : ReturnNode) : Bool :=
  exactlyOne (node.value ≠ [] && valid node.value)
    (node.fromNode ≠ [] && (position nodes node.fromNode).getD 0 < index)
    (node.source.any (validValueSource nodes index false false))

def validParallelNode (nodes : List Node) (limits : Limits) (index : ℕ) (node : ParallelNode) : Bool :=
  node.branches ≠ [] && node.branches.length ≤ limits.maxFanOut &&
    0 < node.maxConcurrency && node.maxConcurrency ≤ limits.maxConcurrency &&
    node.maxConcurrency ≤ node.branches.length &&
    node.branches.all (fun branch => branch.id ≠ [] &&
      validEffectCall nodes limits index false false branch.call) &&
    (node.branches.map ParallelBranch.id).Nodup

def validMapNode (nodes : List Node) (limits : Limits) (index : ℕ) (node : MapNode) : Bool :=
  0 < node.maxConcurrency && node.maxConcurrency ≤ limits.maxConcurrency &&
    validValueSource nodes index false false node.items &&
    validEffectCall nodes limits index true false node.call

def validSubworkflowNode (nodes : List Node) (limits : Limits) (index : ℕ) (node : SubworkflowNode) :
    Bool :=
  0 ≤ node.maxCostUnits && validDefinitionReference node.definition &&
    validRetryPolicy node.retry limits && validValueSource nodes index false false node.input

def validCompensationNode (nodes : List Node) (limits : Limits) (id : GoString) (index : ℕ)
    (node : CompensationNode) : Bool :=
  validEffectCall nodes limits index false false node.doCall &&
    node.doCall.effectClass ≠ .compensation && node.doCall.effectClass ≠ .subworkflow &&
    validEffectCall nodes limits index false true node.undo &&
    node.undo.effectClass ≠ .agent && node.undo.effectClass ≠ .compensation &&
    (node.undo.input.nodeID = [] || node.undo.input.nodeID = id ||
      (position nodes node.undo.input.nodeID).getD 0 < index)

def isReturn : NodeBody → Bool
  | .ret _ => true
  | _ => false

/-- `validNode`: the last node returns, and no other one does. -/
def validNode (nodes : List Node) (limits : Limits) (index : ℕ) (node : Node) : Bool :=
  let last := index + 1 = nodes.length
  validForwardTarget nodes index true node.next &&
  match node.body with
  | .effect body => !last && validEffectNode nodes limits index body
  | .agentTask body | .applicationEffect body | .mediaEffect body =>
    !last && validCallNode nodes limits index body
  | .wait body => !last && validWaitNode nodes index body
  | .branch body => !last && node.next = [] &&
      validValueSource nodes index false false body.condition &&
      validForwardTarget nodes index false body.thenNodeID &&
      validForwardTarget nodes index false body.elseNodeID
  | .parallel body => !last && validParallelNode nodes limits index body
  | .map body => !last && validMapNode nodes limits index body
  | .subworkflow body => !last && validSubworkflowNode nodes limits index body
  | .compensation body => !last && validCompensationNode nodes limits node.id index body
  | .ret body => last && node.next = [] && validReturnNode nodes index body

/-- `validateDefinitionNodes`. -/
def validateDefinitionNodes (nodes : List Node) (limits : Limits) : Bool :=
  nodes.all (fun node => node.id ≠ []) && (nodes.map Node.id).Nodup &&
    (nodes.filter fun node => isReturn node.body).length = 1 &&
    (nodes.getLast?.any fun node => isReturn node.body) &&
    nodes.zipIdx.all fun entry => validNode nodes limits entry.2 entry.1

def validLimits (limits : Limits) : Bool :=
  0 < limits.maxNodeActivations && 0 < limits.maxEffects && 0 < limits.maxSegments &&
    0 < limits.maxActivationsPerSegment &&
    limits.maxActivationsPerSegment ≤ limits.maxNodeActivations && 1024 ≤ limits.maxStateBytes &&
    0 < limits.maxFanOut && 0 < limits.maxConcurrency && limits.maxConcurrency ≤ limits.maxFanOut &&
    0 < limits.maxNestedDepth && 0 < limits.maxAttemptsPerEffect

def validDefinitionEnvelope (draft : DefinitionDraft) : Bool :=
  draft.id ≠ [] && 0 < draft.revision && draft.name ≠ [] && valid draft.inputSchema &&
    valid draft.outputSchema && draft.nodes ≠ [] && validLimits draft.limits &&
    0 ≤ draft.policy.maxCostUnits

/-- `validateDefinitionDraft`. -/
def validateDefinitionDraft (C : Contracts) (draft : DefinitionDraft) : Bool :=
  validDefinitionEnvelope draft && C.compiles draft.inputSchema && C.compiles draft.outputSchema &&
    validateDefinitionNodes draft.nodes draft.limits

/-- `CompileDefinition`. -/
def compileDefinition (C : Contracts) (draft : DefinitionDraft) : Option Definition :=
  let normalized := normalizeDefinitionDraft draft
  if validateDefinitionDraft C normalized then
    let frozen := { normalized with nodes := cloneNodes normalized.nodes }
    (C.definitionHash frozen).map fun hash => { frozen with hash }
  else none

/-- `ValidateDefinition`: the compiled Definition still matches its hash. -/
def validateDefinition (C : Contracts) (definition : Definition) : Bool :=
  let draft := normalizeDefinitionDraft definition.toDefinitionDraft
  validateDefinitionDraft C draft &&
    C.definitionHash { draft with nodes := cloneNodes draft.nodes } = some (trimSpace definition.hash)

/-! ### The calls of a node -/

/-- The call of an effect node, whose input is found in its own way. -/
def EffectNode.call (node : EffectNode) : EffectCall where
  effectClass := .generic
  kind := node.kind
  input := { kind := .literal }
  maxCostUnits := node.maxCostUnits
  retry := node.retry

def CallNode.call (effectClass : EffectClass) (node : CallNode) : EffectCall where
  effectClass := effectClass
  kind := node.key
  revision := node.revision
  input := node.input
  maxCostUnits := node.maxCostUnits
  retry := node.retry

def SubworkflowNode.call (node : SubworkflowNode) : EffectCall where
  effectClass := .subworkflow
  kind := lit "workflow.run"
  definition := some node.definition
  input := node.input
  maxCostUnits := node.maxCostUnits
  retry := node.retry

/-- Every call that a node can make. -/
def NodeBody.calls : NodeBody → List EffectCall
  | .effect node => [node.call]
  | .agentTask node => [node.call .agent]
  | .applicationEffect node => [node.call .application]
  | .mediaEffect node => [node.call .media]
  | .parallel node => node.branches.map ParallelBranch.call
  | .map node => [node.call]
  | .subworkflow node => [node.call]
  | .compensation node => [node.doCall, node.undo]
  | .wait _ | .branch _ | .ret _ => []

/-- A price that is not negative, and at least one attempt. -/
structure EffectCall.Sound (call : EffectCall) : Prop where
  price : 0 ≤ call.maxCostUnits
  attempts : 1 ≤ call.retry.maxAttempts

def NodeBody.Sound (body : NodeBody) : Prop := ∀ call ∈ body.calls, call.Sound

variable {limits : Limits} {draft : DefinitionDraft} {policy : RetryPolicy} {nodes : List Node}
  {index : ℕ} {call : EffectCall} {C : Contracts} {definition : Definition}

lemma validRetryPolicy_pos
    (h : validRetryPolicy policy limits = true) : 1 ≤ policy.maxAttempts := by
  simp only [validRetryPolicy, and_eq_true, decide_eq_true_eq] at h
  exact h.1.1

lemma validEffectCall_sound {m c : Bool}
    (h : validEffectCall nodes limits index m c call = true) : call.Sound := by
  simp only [validEffectCall, and_eq_true, decide_eq_true_eq] at h
  exact ⟨h.1.1.1.2, validRetryPolicy_pos h.1.1.2⟩

lemma validCallNode_sound {node : CallNode}
    (h : validCallNode nodes limits index node = true) (effectClass : EffectClass) :
    (node.call effectClass).Sound := by
  simp only [validCallNode, and_eq_true, decide_eq_true_eq] at h
  exact ⟨h.1.1.2, validRetryPolicy_pos h.1.2⟩

lemma validNode_sound {node : Node}
    (h : validNode nodes limits index node = true) : node.body.Sound := by
  obtain ⟨_, _, body⟩ := node
  intro call hcall
  rw [validNode, and_eq_true] at h
  replace h := h.2
  cases body with
  | effect =>
    obtain rfl := mem_singleton.mp hcall
    simp only [and_eq_true, validEffectNode, decide_eq_true_eq] at h
    exact ⟨h.2.1.1.2, validRetryPolicy_pos h.2.1.2⟩
  | agentTask | applicationEffect | mediaEffect =>
    obtain rfl := mem_singleton.mp hcall
    exact validCallNode_sound (and_eq_true_iff.mp h).2 _
  | parallel =>
    obtain ⟨branch, hbranch, rfl⟩ := mem_map.mp hcall
    simp only [and_eq_true, validParallelNode, all_eq_true] at h
    exact validEffectCall_sound (h.2.1.2 branch hbranch).2
  | map =>
    obtain rfl := mem_singleton.mp hcall
    simp only [and_eq_true, validMapNode] at h
    exact validEffectCall_sound h.2.2
  | subworkflow =>
    obtain rfl := mem_singleton.mp hcall
    simp only [and_eq_true, validSubworkflowNode, decide_eq_true_eq] at h
    exact ⟨h.2.1.1.1, validRetryPolicy_pos h.2.1.2⟩
  | compensation =>
    simp only [and_eq_true, validCompensationNode] at h
    rcases mem_pair.mp hcall with rfl | rfl
    · exact validEffectCall_sound h.2.1.1.1.1.1.1
    · exact validEffectCall_sound h.2.1.1.1.2
  | wait | branch | ret => simp [NodeBody.calls] at hcall

/-- A change of the calls of a node that keeps their prices, and one attempt, keeps it sound. -/
lemma NodeBody.Sound.of_calls {body body' : NodeBody} (g : ℤ → ℤ) (hg : ∀ n, 1 ≤ n → 1 ≤ g n)
    (h : body.Sound) (hcalls : body'.calls.map (fun c => (c.maxCostUnits, c.retry.maxAttempts)) =
      body.calls.map fun c => (c.maxCostUnits, g c.retry.maxAttempts)) : body'.Sound := by
  have hterms : ∀ p ∈ body'.calls.map fun c => (c.maxCostUnits, c.retry.maxAttempts),
      0 ≤ p.1 ∧ 1 ≤ p.2 := by
    rw [hcalls]
    exact forall_mem_map.mpr fun c hc => ⟨(h c hc).price, hg _ (h c hc).attempts⟩
  intro call hcall
  obtain ⟨hprice, hattempts⟩ := hterms _ (mem_map_of_mem hcall)
  exact ⟨hprice, hattempts⟩

/-- Normalizing a node once more does not touch its prices and attempts. -/
lemma NodeBody.Sound.normalize {body : NodeBody} (h : body.Sound) : (normalizeBody body).Sound := by
  refine h.of_calls (fun n => if n ≤ 0 then 1 else n) (fun n hn => ?_) ?_
  · rwa [if_neg (by omega)]
  cases body with
  | parallel => simp [normalizeBody, NodeBody.calls, normalizeEffectCall, normalizeRetryPolicy]
  | _ => rfl

/-- What the interpreter relies on in a Definition. -/
structure DefinitionDraft.Sound (draft : DefinitionDraft) : Prop where
  calls : ∀ node ∈ draft.nodes, node.body.Sound
  cost : 0 ≤ draft.policy.maxCostUnits
  activations : 0 < draft.limits.maxNodeActivations
  effects : 0 < draft.limits.maxEffects
  segments : 0 < draft.limits.maxSegments

lemma validateDefinitionDraft_sound
    (h : validateDefinitionDraft C draft = true) : draft.Sound := by
  simp only [validateDefinitionDraft, validDefinitionEnvelope, validateDefinitionNodes, validLimits,
    and_eq_true, decide_eq_true_eq, all_eq_true] at h
  obtain ⟨⟨⟨⟨⟨-, _⟩, hcost⟩, -⟩, -⟩, -, hnodes⟩ := h
  refine ⟨fun node hnode => ?_, hcost, by omega, by omega, by omega⟩
  obtain ⟨i, hi⟩ := mem_iff_getElem?.mp hnode
  exact validNode_sound (hnodes (node, i) (mem_zipIdx_iff_getElem?.mpr hi))

lemma DefinitionDraft.Sound.cloned (h : draft.Sound) :
    ({ draft with nodes := cloneNodes draft.nodes } : DefinitionDraft).Sound := by
  exact { h with calls := forall_mem_map.mpr fun node hnode => (h.calls node hnode).normalize }

/-- **A compiled Definition is sound**: every call it can make has a price that is not
negative and at least one attempt, and its bounds are positive. -/
theorem compileDefinition_sound
    (h : compileDefinition C draft = some definition) : definition.toDefinitionDraft.Sound := by
  rw [compileDefinition] at h
  split at h
  · rename_i hvalid
    obtain ⟨_, -, rfl⟩ := Option.map_eq_some_iff.mp h
    exact (validateDefinitionDraft_sound hvalid).cloned
  · cases h

theorem validateDefinition_ids
    (h : validateDefinition C definition = true) : (definition.nodes.map Node.id).Nodup := by
  simp only [validateDefinition, validateDefinitionDraft, validateDefinitionNodes, and_eq_true,
    decide_eq_true_eq] at h
  have hnames : ((normalizeDefinitionDraft definition.toDefinitionDraft).nodes.map Node.id) =
      (definition.nodes.map Node.id).map trimSpace := by
    simp [normalizeDefinitionDraft, cloneNodes, normalizeNode, Function.comp_def]
  have hnodup := h.1.2.1.1.1.2
  rw [hnames] at hnodup
  exact hnodup.of_map _

end Workflow
