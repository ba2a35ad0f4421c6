/-
The cost ledger of a Workflow Run.

An effect reserves its price when its intent is committed.  When it completes, the
reservation becomes what it cost; when it fails, the reservation is given back.  That
happens in many places of the Runner: a batch of observations, the abort of the siblings
of a failed effect, the start, the retry, the completion and the failure of an undo.  All
of them are changes of the kinds in `Close` and `Settle`, so the books are looked at once
for each kind.

* **`ledger_of_reachable`** — so the books of every committed state are right, whatever
  callers, executors and stores do;
* **`nested_depth_iff`** — how deep the Runs lie that its effects start.
-/
import AgentRuntime.WordCounters
import AgentRuntime.WorkflowSafety
import Mathlib.Algebra.Order.BigOperators.Group.List

namespace Workflow

open GoString GoJson Relation Interleaving WordCounters List Effect Int64
open Kernel (RawMessage RunStatus)

/-! ### The books -/

/-- What is reserved for an effect. -/
def Effect.reserves (e : Effect) : ℤ := if e.status = .pending then e.maxCostUnits.toInt else 0

/-- What an effect has cost. -/
def Effect.charges (e : Effect) : ℤ := if e.status = .completed then e.costUnits.toInt else 0

/-- The books of a state are right and within the bounds of its Definition. -/
structure Ledger (s : State) : Prop where
  reserved : s.budget.costUnitsReserved.toInt = (s.effects.map Effect.reserves).sum
  used : s.budget.costUnitsUsed.toInt = (s.effects.map Effect.charges).sum
  /-- The sum is one of integers: nothing has wrapped around. -/
  cost : s.budget.costUnitsUsed.toInt + s.budget.costUnitsReserved.toInt ≤
    s.definition.policy.maxCostUnits.toInt
  effects : s.budget.effects = s.effects.length
  maxEffects : (s.budget.effects : ℤ) ≤ s.definition.limits.maxEffects
  activations : s.budget.nodeActivations = s.activations.length
  maxActivations : (s.budget.nodeActivations : ℤ) ≤ s.definition.limits.maxNodeActivations
  segments : (s.budget.segments : ℤ) ≤ s.definition.limits.maxSegments
  attempts : ∀ e ∈ s.effects, e.attempt ≤ e.retry.maxAttempts

/-- An effect has a price that is not negative, and has not cost more. -/
structure Effect.Priced (e : Effect) : Prop where
  price : 0 ≤ e.maxCostUnits.toInt
  cost : e.status = .completed → 0 ≤ e.costUnits.toInt

/-- The books are right, and will be after the next change. -/
structure Balanced (s : State) : Prop extends Ledger s where
  definition : s.definition.toDefinitionDraft.Sound
  prices : ∀ e ∈ s.effects, e.Priced
  undos : ∀ c ∈ s.compensations, c.call.Sound

variable {e e' : Effect}

lemma Effect.Priced.reserves (h : e.Priced) : 0 ≤ e.reserves := by
  rw [Effect.reserves]
  split
  · exact h.price
  · exact le_rfl

lemma Effect.Priced.charges (h : e.Priced) : 0 ≤ e.charges := by
  rw [Effect.charges]
  split
  · rename_i hcompleted
    exact h.cost hcompleted
  · exact le_rfl

/-! ### Sums -/

variable {α : Type} {f : α → ℤ} {l : List α} {i : ℕ}

lemma sum_map_set {a b : α} (h : l[i]? = some a) :
    ((l.set i b).map f).sum = (l.map f).sum - f a + f b := by
  induction l generalizing i with
  | nil => cases h
  | cons _ _ ih =>
    cases i with
    | zero =>
      cases h
      simp only [set_cons_zero, map_cons, sum_cons]
      omega
    | succ =>
      simp only [set_cons_succ, map_cons, sum_cons, ih h]
      omega

lemma sum_map_nonneg (h : ∀ a ∈ l, 0 ≤ f a) : 0 ≤ (l.map f).sum := by
  exact sum_nonneg (forall_mem_map.mpr h)

lemma le_sum_map (h : ∀ a ∈ l, 0 ≤ f a) {a : α} (ha : a ∈ l) : f a ≤ (l.map f).sum := by
  exact single_le_sum (forall_mem_map.mpr h) _ (mem_map_of_mem ha)

section Balanced

variable {s t : State} {node : Node} {plans : List EffectPlan}

lemma Balanced.reserved_nonneg (h : Balanced s) : 0 ≤ s.budget.costUnitsReserved.toInt := by
  rw [h.reserved]
  exact sum_map_nonneg fun e he => (h.prices e he).reserves

lemma Balanced.used_nonneg (h : Balanced s) : 0 ≤ s.budget.costUnitsUsed.toInt := by
  rw [h.used]
  exact sum_map_nonneg fun e he => (h.prices e he).charges

/-! ### Observations -/

/-- The costs of a completed effect stay within its price. -/
lemma follows_cost (h : e.Follows e') (hcompleted : e'.status = .completed) :
    0 ≤ e'.costUnits.toInt ∧ e'.costUnits.toInt ≤ e.maxCostUnits.toInt := by
  obtain ⟨-, hlow, hhigh⟩ := h.receipt hcompleted
  rw [le_iff_toInt_le] at hlow hhigh
  exact ⟨hlow, hhigh⟩

/-- What one observation does to the sums. -/
lemma Balanced.settle_books (h : Balanced s)
    (hfound : s.effects[i]? = some e) (hpending : e.status = .pending) (hfollows : e.Follows e') :
    (s.budget.settle e').costUnitsReserved.toInt = ((s.effects.set i e').map reserves).sum ∧
    (s.budget.settle e').costUnitsUsed.toInt = ((s.effects.set i e').map charges).sum ∧
    (s.budget.settle e').costUnitsUsed.toInt + (s.budget.settle e').costUnitsReserved.toInt ≤
      s.definition.policy.maxCostUnits.toInt := by
  have hmem := mem_of_getElem? hfound
  have hmax : e'.maxCostUnits = e.maxCostUnits := bare_maxCostUnits hfollows.bare
  have hreserves : e.reserves = e.maxCostUnits.toInt := if_pos hpending
  have hcharges : e.charges = 0 := if_neg (by rw [hpending]; decide)
  have hle : e.maxCostUnits.toInt ≤ s.budget.costUnitsReserved.toInt := by
    rw [h.reserved, ← hreserves]
    exact le_sum_map (fun x hx => (h.prices x hx).reserves) hmem
  have hprice := (h.prices e hmem).price
  have hupper := toInt_lt s.definition.policy.maxCostUnits
  have hnonneg := h.used_nonneg
  have hbound := h.cost
  have hsub : (s.budget.costUnitsReserved - e.maxCostUnits).toInt =
      s.budget.costUnitsReserved.toInt - e.maxCostUnits.toInt :=
    toInt_sub_of_fits (by omega) (by omega)
  rw [sum_map_set hfound, sum_map_set hfound, ← h.reserved, ← h.used]
  cases hstatus : e'.status with
  | pending =>
    have hr : e'.reserves = e.maxCostUnits.toInt := by rw [reserves, if_pos hstatus, hmax]
    have hc : e'.charges = 0 := if_neg (by rw [hstatus]; decide)
    simp only [Budget.settle, hstatus, hr, hc]
    omega
  | failed =>
    -- the reservation is given back
    have hr : e'.reserves = 0 := if_neg (by rw [hstatus]; decide)
    have hc : e'.charges = 0 := if_neg (by rw [hstatus]; decide)
    simp only [Budget.settle, hstatus, hr, hc, hmax, hsub]
    omega
  | completed =>
    -- the reservation becomes what the effect cost, which is not more
    obtain ⟨_, _⟩ := follows_cost hfollows hstatus
    have hr : e'.reserves = 0 := if_neg (by rw [hstatus]; decide)
    have hc : e'.charges = e'.costUnits.toInt := if_pos hstatus
    have hadd : (s.budget.costUnitsUsed + e'.costUnits).toInt =
        s.budget.costUnitsUsed.toInt + e'.costUnits.toInt :=
      toInt_add_of_fits (by omega) (by omega)
    simp only [Budget.settle, hstatus, hr, hc, hmax, hsub, hadd]
    omega

lemma settle_counts (b : Budget) (e : Effect) : (b.settle e).effects = b.effects ∧
    (b.settle e).nodeActivations = b.nodeActivations ∧ (b.settle e).segments = b.segments := by
  rw [Budget.settle]
  split <;> exact ⟨rfl, rfl, rfl⟩

/-- **An observation keeps the books right.** -/
theorem Balanced.settle {undo : Bool} (h : Balanced s)
    (hs : Settle undo s t i e e') : Balanced t := by
  obtain ⟨hfound, hpending, -, hfollows, rfl⟩ := hs
  obtain ⟨hreserved, hused, hcost⟩ := h.settle_books hfound hpending hfollows
  obtain ⟨heffects, hactivations, hsegments⟩ := settle_counts s.budget e'
  have hmem := mem_of_getElem? hfound
  refine ⟨⟨hreserved, hused, hcost, ?_, ?_, ?_, ?_, ?_, fun x hx => ?_⟩, h.definition,
    fun x hx => ?_, h.undos⟩
  · show (s.budget.settle e').effects = (s.effects.set i e').length
    rw [heffects, length_set, h.effects]
  · show ((s.budget.settle e').effects : ℤ) ≤ _
    rw [heffects]
    exact h.maxEffects
  · show (s.budget.settle e').nodeActivations = _
    rw [hactivations]
    exact h.activations
  · show ((s.budget.settle e').nodeActivations : ℤ) ≤ _
    rw [hactivations]
    exact h.maxActivations
  · show ((s.budget.settle e').segments : ℤ) ≤ _
    rw [hsegments]
    exact h.segments
  · rcases mem_or_eq_of_mem_set hx with hx | rfl
    · exact h.attempts x hx
    rw [show x.retry = _ from congrArg (·.retry) hfollows.bare]
    rcases hfollows.attempt.2 with heq | hle
    · rw [heq]
      exact h.attempts e hmem
    · exact hle
  · rcases mem_or_eq_of_mem_set hx with hx | rfl
    · exact h.prices x hx
    refine ⟨?_, fun hcompleted => (follows_cost hfollows hcompleted).1⟩
    rw [bare_maxCostUnits hfollows.bare]
    exact (h.prices e hmem).price

lemma Balanced.settles (h : Balanced s) (hs : Settles s t) : Balanced t :=
  hs.keeps h Balanced.settle

lemma Balanced.begun {s0 : State} (h : Balanced s0) (hb : Begun s0 s) : Balanced s := by
  rcases hb with rfl | ⟨rfl, _⟩
  · exact h
  refine { h with segments := ?_ }
  show ((s0.budget.segments + 1 : ℕ) : ℤ) ≤ s0.definition.limits.maxSegments
  omega

/-! ### Moves -/

/-- A change that concerns neither the effects nor the books. -/
lemma Balanced.keep (h : Balanced s) (hdefinition : t.definition = s.definition)
    (heffects : t.effects = s.effects) (hbudget : t.budget = s.budget)
    (hactivations : t.activations.length = s.activations.length)
    (hundos : ∀ c ∈ t.compensations, c.call.Sound) : Balanced t := by
  refine ⟨⟨?_, ?_, ?_, ?_, ?_, ?_, ?_, ?_, ?_⟩, ?_, ?_, hundos⟩
  all_goals simp only [hdefinition, heffects, hbudget, hactivations]
  exacts [h.reserved, h.used, h.cost, h.effects, h.maxEffects, h.activations, h.maxActivations,
    h.segments, h.attempts, h.definition, h.prices]

lemma Balanced.activated {a : Activation} {n : ℕ} (h : Balanced s)
    (ready : Ready s node) : Balanced (activated s a n) := by
  have hroom := ready.room
  refine { h with activations := ?_, maxActivations := ?_ }
  · show s.budget.nodeActivations + 1 = (s.activations ++ [a]).length
    rw [length_append, h.activations]
    rfl
  show ((s.budget.nodeActivations + 1 : ℕ) : ℤ) ≤ s.definition.limits.maxNodeActivations
  push_cast
  omega

/-- What a new intent has to satisfy. -/
structure Effect.New (e : Effect) : Prop where
  pending : e.status = .pending
  attempt : e.attempt ≤ e.retry.maxAttempts
  price : 0 ≤ e.maxCostUnits.toInt

lemma sum_charges_new {new : List Effect} (h : ∀ e ∈ new, e.New) :
    (new.map charges).sum = 0 := by
  refine sum_eq_zero (forall_mem_map.mpr fun e he => ?_)
  exact if_neg (by rw [(h e he).pending]; decide)

variable {r : Int64}

/-- **New intents keep the books right** if there is room for them. -/
theorem Balanced.reserve {n : List Effect} (h : Balanced s)
    (hdefinition : t.definition = s.definition) (heffects : t.effects = s.effects ++ n)
    (hbudget : t.budget = { s.budget with
      nodeActivations := t.activations.length
      effects := s.budget.effects + n.length
      costUnitsReserved := s.budget.costUnitsReserved + r })
    (hundos : ∀ c ∈ t.compensations, c.call.Sound) (hnew : ∀ e ∈ n, e.New)
    (hreserved : r.toInt = (n.map reserves).sum)
    (hcost : s.budget.costUnitsUsed.toInt + s.budget.costUnitsReserved.toInt + r.toInt ≤
      s.definition.policy.maxCostUnits.toInt)
    (hroom : ((s.budget.effects + n.length : ℕ) : ℤ) ≤ s.definition.limits.maxEffects)
    (hactivations : (t.activations.length : ℤ) ≤ s.definition.limits.maxNodeActivations) :
    Balanced t := by
  have hupper := toInt_lt s.definition.policy.maxCostUnits
  have hused := h.used_nonneg
  have hold := h.reserved_nonneg
  have hnonneg : 0 ≤ r.toInt := by
    rw [hreserved]
    refine sum_map_nonneg fun e he => ?_
    rw [reserves, if_pos (hnew e he).pending]
    exact (hnew e he).price
  have hadd : (s.budget.costUnitsReserved + r).toInt =
      s.budget.costUnitsReserved.toInt + r.toInt := toInt_add_of_fits (by omega) (by omega)
  refine ⟨⟨?_, ?_, ?_, ?_, ?_, ?_, ?_, ?_, ?_⟩, ?_, ?_, hundos⟩
  · rwa [hbudget, heffects, map_append, sum_append, ← hreserved, ← h.reserved]
  · rw [hbudget, heffects, map_append, sum_append, sum_charges_new hnew, add_zero]
    exact h.used
  · rw [hbudget, hdefinition]
    dsimp only
    omega
  · rw [hbudget, heffects, length_append, ← h.effects]
  · rwa [hbudget, hdefinition]
  · rw [hbudget]
  · rwa [hbudget, hdefinition]
  · rw [hbudget, hdefinition]
    exact h.segments
  · rw [heffects]
    exact forall_mem_append.mpr ⟨h.attempts, fun e he => (hnew e he).attempt⟩
  · rw [hdefinition]
    exact h.definition
  rw [heffects]
  refine forall_mem_append.mpr ⟨h.prices, fun e he => ⟨(hnew e he).price, fun hcompleted => ?_⟩⟩
  rw [(hnew e he).pending] at hcompleted
  cases hcompleted

/-- The loop over the plans adds their prices, within the maximum. -/
lemma reserve_spec {maximum r' : Int64} (hmax : 0 ≤ maximum.toInt)
    (hr : 0 ≤ r.toInt) (hle : r.toInt ≤ maximum.toInt) (h : reserve maximum r plans = some r') :
    r'.toInt = r.toInt + (plans.map fun p => p.call.maxCostUnits.toInt).sum ∧
      0 ≤ r'.toInt ∧ r'.toInt ≤ maximum.toInt := by
  induction plans generalizing r with
  | nil =>
    cases h
    exact ⟨by simp, hr, hle⟩
  | cons plan _ ih =>
    rw [Workflow.reserve] at h
    split at h
    · cases h
    rename_i hfits
    obtain ⟨hprice, hfits⟩ := not_or.mp hfits
    have hzero : (0 : Int64).toInt = 0 := rfl
    have hupper := toInt_lt maximum
    have hword := toInt_lt plan.call.maxCostUnits
    rw [lt_iff_toInt_lt, not_lt] at hprice
    rw [lt_iff_toInt_lt, toInt_sub_of_fits (by omega) (by omega)] at hfits
    have hadd : (r + plan.call.maxCostUnits).toInt = r.toInt + plan.call.maxCostUnits.toInt :=
      toInt_add_of_fits (by omega) (by omega)
    obtain ⟨hsum, hrest⟩ := ih (by omega) (by omega) h
    refine ⟨?_, hrest⟩
    rw [hsum, map_cons, sum_cons]
    omega

lemma undo_mem_calls {body : NodeBody} {undo : EffectCall} (h : body.undo = some undo) :
    undo ∈ body.calls := by
  cases body with
  | compensation =>
    cases h
    simp [NodeBody.calls]
  | _ => cases h

/-- What is registered can be afforded. -/
lemma Balanced.registered {registered : List Compensation} (h : Balanced s)
    (hnode : node ∈ s.definition.nodes) (hr : Registers node registered) :
    ∀ c ∈ s.compensations ++ registered, c.call.Sound := by
  intro c hc
  rcases mem_append.mp hc with hc | hc
  · exact h.undos c hc
  have hmem : (c.nodeID, c.call, c.status) ∈ registered.map fun c => (c.nodeID, c.call, c.status) :=
    mem_map_of_mem hc
  rw [hr] at hmem
  obtain ⟨undo, hundo, heq⟩ := mem_map.mp hmem
  have hcall : c.call = undo := congrArg (fun x => x.2.1) heq.symm
  rw [hcall]
  exact h.definition.calls node hnode undo (undo_mem_calls (by simpa using hundo))

/-- A compensation that changes keeps its call. -/
lemma Balanced.modified {position : ℕ} {f : Compensation → Compensation} (h : Balanced s)
    (hf : ∀ c, (f c).call = c.call) : ∀ c ∈ s.compensations.modify position f, c.call.Sound := by
  intro c hc
  obtain ⟨a, ha, rfl | rfl⟩ := mem_modify hc
  · exact h.undos c ha
  · rw [hf]
    exact h.undos a ha

/-- **Whatever moves a Run keeps the books right.** -/
theorem Balanced.close (h : Balanced s) (hc : Close s t) : Balanced t := by
  have hmaximum : 0 ≤ s.definition.policy.maxCostUnits.toInt := by
    have hcost := h.definition.cost
    rwa [Int64.le_iff_toInt_le] at hcost
  have hupper := Int64.toInt_lt s.definition.policy.maxCostUnits
  have hused := h.used_nonneg
  have hold := h.reserved_nonneg
  have hbound := h.cost
  have htotal : (s.budget.costUnitsUsed + s.budget.costUnitsReserved).toInt =
      s.budget.costUnitsUsed.toInt + s.budget.costUnitsReserved.toInt :=
    toInt_add_of_fits (by omega) (by omega)
  cases hc with
  | @prepare node plans reserved activationID effectIDs ready _ hplans hafford hlength =>
    obtain ⟨hsum, _, _⟩ := reserve_spec (r := 0) hmaximum le_rfl hmaximum hafford.reserve
    have hfits := hafford.cost
    rw [Int64.lt_iff_toInt_lt, toInt_sub_of_fits (by omega) (by omega), not_lt] at hfits
    have hcount : (zipWith (fun plan id => plan.intent s node activationID id) plans
        effectIDs).length = plans.length := by
      rw [length_zipWith, hlength, min_self]
    refine h.reserve (r := reserved) rfl rfl ?_ h.undos ?_ ?_ ?_ ?_ ?_
    · simp [prepareActivation, hcount, h.activations]
    · intro e he
      obtain ⟨plan, hplan, _, -, rfl⟩ := mem_zipWith_intent he
      have hsound := h.definition.calls node (mem_of_getElem? ready.here) _
        (effectPlansForNode_of hplans plan hplan).call
      refine ⟨rfl, hsound.attempts, ?_⟩
      have hprice := hsound.price
      rwa [Int64.le_iff_toInt_le] at hprice
    · rw [zipWith_intent_map (g := fun p => p.call.maxCostUnits.toInt) (fun _ _ => rfl) hlength, hsum]
      exact zero_add _
    · omega
    · rw [hcount]
      exact hafford.effects
    have hroom := ready.room
    simp only [prepareActivation, length_append, length_cons, length_nil,
      ← h.activations]
    omega
  | finish standing _ hregistered | stuck standing _ hregistered =>
    exact h.keep rfl rfl rfl (length_modify ..)
      (h.registered (mem_of_getElem? standing.here) hregistered)
  | unregistered | collapse =>
    exact h.keep rfl rfl rfl (length_modify ..) h.undos
  | intend | abandon => exact h.keep rfl rfl rfl rfl h.undos
  | activate ready => exact h.activated ready
  | wait ready => exact { h.activated (n := s.currentNode) ready with }
  | resolve _ _ _ ht =>
    obtain ⟨a, _, _, -, -, -, rfl⟩ := resolveWaitState_spec ht
    exact h.keep rfl rfl rfl (length_modify ..) h.undos
  | @startUndo _ c effectID undoing _ hbudget =>
    have hsound := h.undos c (mem_of_getElem? undoing.found)
    have hprice := hsound.price
    simp only [undoExceeds, Bool.or_eq_false_iff, decide_eq_false_iff_not, not_le] at hbudget
    obtain ⟨_, hfits⟩ := hbudget
    have hword := Int64.toInt_lt c.call.maxCostUnits
    have hzero : (0 : Int64).toInt = 0 := rfl
    rw [Int64.le_iff_toInt_le] at hprice
    rw [Int64.lt_iff_toInt_lt, toInt_sub_of_fits (by omega) (by omega), not_lt] at hfits
    refine h.reserve (r := c.call.maxCostUnits) rfl rfl ?_
      (h.modified fun _ => rfl) ?_ ?_ ?_ ?_ ?_
    · simp [startCompensation, State.updateCompensation, ← h.activations]
    · intro e he
      obtain rfl := mem_singleton.mp he
      exact ⟨rfl, hsound.attempts, hprice⟩
    · simp [Effect.reserves, undoIntent]
    · omega
    · simp only [length_cons, length_nil]
      omega
    show (s.activations.length : ℤ) ≤ _
    rw [← h.activations]
    exact h.maxActivations
  | retryUndo _ _ _ hsettle => exact h.settle hsettle
  | completeUndo _ _ _ hsettle
  | failUndo _ _ _ hsettle =>
    have hbalanced := h.settle hsettle
    exact hbalanced.keep rfl rfl rfl rfl (hbalanced.modified fun _ => rfl)
  | refuseUndo => exact h.keep rfl rfl rfl rfl (h.modified fun _ => rfl)

/-! ### Runs -/

lemma Balanced.stored (h : Balanced s) : Balanced s.stored := by
  refine ⟨⟨?_, ?_, h.cost, ?_, h.maxEffects, ?_, h.maxActivations, h.segments,
    forall_mem_map.mpr h.attempts⟩, h.definition,
    forall_mem_map.mpr fun e he => ⟨(h.prices e he).price, (h.prices e he).cost⟩,
    forall_mem_map.mpr h.undos⟩
  · show _ = ((s.effects.map Effect.stored).map Effect.reserves).sum
    rw [List.map_map]
    exact h.reserved
  · show _ = ((s.effects.map Effect.stored).map Effect.charges).sum
    rw [List.map_map]
    exact h.used
  · show _ = (s.effects.map Effect.stored).length
    rw [length_map]
    exact h.effects
  · show _ = (s.activations.map Activation.stored).length
    rw [length_map]
    exact h.activations

/-- **Every commit keeps the books right.** -/
theorem Change.balanced (hc : Change s t) (h : Balanced s) : Balanced t := by
  obtain ⟨u, v, hbegun, hsettles, rfl | hclose⟩ := hc
  · exact (h.begun hbegun).settles hsettles
  · exact ((h.begun hbegun).settles hsettles).close hclose

lemma balanced_start {definition : Definition} (h : definition.toDefinitionDraft.Sound)
    (input : RawMessage) (depth : ℤ) : Balanced { definition, input, nestedDepth := depth } := by
  have hcost := h.cost
  have heffects := h.effects
  have hactivations := h.activations
  have hsegments := h.segments
  rw [le_iff_toInt_le] at hcost
  exact ⟨⟨rfl, rfl, hcost, rfl, heffects.le, rfl, hactivations.le, hsegments.le, by simp⟩, h, by simp,
    by simp⟩

end Balanced

theorem History.balanced {runID : GoString} {l : List Snapshot} (h : History runID l) :
    ∀ snap ∈ l, Balanced snap.state := by
  refine h.induct (fun r hr => ?_) fun current m hb hm => (hm.change.balanced hb).stored
  obtain ⟨_, _, _, hsound, heq⟩ := hr
  rw [heq]
  exact balanced_start hsound.stored _ _

/-- **The books of every committed state are right**: whatever callers, executors and stores
do, in every revision of every Run the reservations are the prices of the pending effects,
the costs are those of the completed ones, both together stay within the policy, and the
counters count and stay within their limits. -/
theorem ledger_of_reachable {c : Config runnerObject Call Returned} (h : Running c)
    (runID : GoString) : ∀ snap ∈ c.shared.runs runID, Ledger snap.state :=
  fun snap hsnap => (((sane_of_reachable h).history runID).balanced snap hsnap).toLedger

/-! ### A Run that charges -/

def sampleContracts : Contracts where
  compiles _ := true
  violation _ _ := none
  definitionHash _ := some (lit "h")

def sampleRunner : Runner where
  contracts := sampleContracts
  ceiling := ⟨0, 0, 0, 0, 0, 0, 0, 0, 0⟩
  relations := false
  deferResume := false

/-- A payment whose undo needs the receipt in its output, and a return. -/
def sampleDraft : DefinitionDraft where
  id := lit "d"
  revision := 1
  name := lit "n"
  nodes := [
    { id := lit "pay"
      body := .compensation {
        doCall := {
          effectClass := .generic, kind := lit "charge", input := { kind := .literal, value := lit "1" }
          maxCostUnits := 5, retry := { maxAttempts := 1 } }
        undo := {
          effectClass := .generic, kind := lit "refund"
          input := { kind := .nodeOutput, nodeID := lit "pay", pointer := lit "/0" }
          maxCostUnits := 5, retry := { maxAttempts := 1 } } } },
    { id := lit "end", body := .ret { value := lit "2" } }]
  limits := ⟨0, 0, 0, 0, 0, 0, 0, 0, 0⟩
  policy := { maxCostUnits := 9 }

lemma sampleDraft_compiles : (compileDefinition sampleContracts sampleDraft).isSome = true := by
  decide +kernel

def sampleDefinition : Definition :=
  (compileDefinition sampleContracts sampleDraft).get sampleDraft_compiles

def sampleRunID : GoString := lit "r"

/-- A start by a caller that gives up after this many rounds. -/
def sampleStart (rounds : ℕ) : Call where
  val := .startRun sampleRunner rounds {
    id := sampleRunID
    actor := { tenantID := [], actorID := [] }
    thread := { kind := [], id := [] }
    goal := lit "g"
    definition := sampleDefinition }
  property := ⟨sampleDraft, (Option.some_get sampleDraft_compiles).symm⟩

/-- An executor that completes everything with the same output, for three units. -/
def sampleExecutor (output : RawMessage) : EffectRequest → Except GoError EffectResult :=
  fun _ => .ok { disposition := .completed, receiptID := lit "c", output, costUnits := 3 }

def samplePaid (output : RawMessage) : Config runnerObject Call Returned :=
  served (sampleExecutor output) (sampleStart 4) ⟨{}, []⟩

lemma samplePaid_running (output : RawMessage) : Running (samplePaid output) :=
  Running.served .refl _ _

/-- Five units are reserved for the payment; it costs three. -/
theorem samplePaid_ledger :
    ((samplePaid (lit "[1]")).shared.runs sampleRunID).map (fun snap =>
      (snap.state.budget.costUnitsReserved, snap.state.budget.costUnitsUsed)) =
      [(0, 3), (0, 3), (5, 0), (0, 0)] ∧
    ∀ snap ∈ (samplePaid (lit "[1]")).shared.runs sampleRunID, Ledger snap.state :=
  ⟨by decide +kernel, ledger_of_reachable (samplePaid_running _) sampleRunID⟩

/-! ### Nested Runs -/

section Deepens

variable {s t : State} {i : ℕ} {e e' : Effect}

/-- The depth that is kept for a Run that an effect starts: an undo stays at the depth of its Run. -/
def Deepens (s : State) : Prop := ∀ e ∈ s.effects, e.effectClass = .subworkflow →
  e.nestedDepth = if e.compensation then s.nestedDepth else s.nestedDepth + 1

theorem Deepens.settle {undo : Bool} (h : Deepens s) (hs : Settle undo s t i e e') : Deepens t := by
  obtain ⟨hfound, -, -, hfollows, rfl⟩ := hs
  intro x hx hclass
  rcases mem_or_eq_of_mem_set hx with hx | rfl
  · exact h x hx hclass
  have hsame : x.bare.effectClass = e.bare.effectClass := by rw [hfollows.bare]
  have hdepth : x.bare.nestedDepth = e.bare.nestedDepth := by rw [hfollows.bare]
  rw [bare_compensation hfollows.bare]
  exact hdepth.trans (h e (mem_of_getElem? hfound) (hsame.symm.trans hclass))

/-- Only two kinds of moves create effects. -/
theorem Deepens.close (h : Deepens s) (hc : Close s t) : Deepens t := by
  cases hc with
  | prepare _ _ hplans =>
    intro x hx hclass
    rcases mem_append.mp hx with hx | hx
    · exact h x hx hclass
    obtain ⟨plan, hplan, _, -, rfl⟩ := mem_zipWith_intent hx
    have hforward := (effectPlansForNode_of hplans plan hplan).forward
    show _ = if plan.compensation then s.nestedDepth else s.nestedDepth + 1
    rw [hforward]
    exact if_pos hclass
  | startUndo =>
    intro x hx hclass
    rcases mem_append.mp hx with hx | hx
    · exact h x hx hclass
    · obtain rfl := mem_singleton.mp hx
      rfl
  | resolve _ _ _ ht =>
    obtain ⟨a, _, _, -, -, -, rfl⟩ := resolveWaitState_spec ht
    exact h
  | retryUndo _ _ _ hsettle | completeUndo _ _ _ hsettle
  | failUndo _ _ _ hsettle =>
    have ht := h.settle hsettle
    exact ht
  | _ => exact h

lemma Change.deepens (hc : Change s t) (h : Deepens s) : Deepens t := by
  obtain ⟨u, v, hbegun, hsettles, hclose⟩ := hc
  have hu : Deepens u := by
    rcases hbegun with rfl | ⟨rfl, -⟩
    all_goals exact h
  have hv : Deepens v := hsettles.keeps hu Deepens.settle
  rcases hclose with rfl | hclose
  · exact hv
  · exact hv.close hclose

end Deepens

/-- **How deep nested Runs lie.**  In every committed state of every Run, an effect that starts a
subworkflow lies one level below its Run and within the limit exactly if it is no undo and the Run
itself lies below the limit. -/
theorem nested_depth_iff {c : Config runnerObject Call Returned} (h : Running c) (runID : GoString) :
    ∀ snap ∈ c.shared.runs runID, ∀ e ∈ snap.state.effects, e.effectClass = .subworkflow →
      (e.nestedDepth = snap.state.nestedDepth + 1 ∧
          e.nestedDepth ≤ snap.state.definition.limits.maxNestedDepth ↔
        e.compensation = false ∧
          snap.state.nestedDepth < snap.state.definition.limits.maxNestedDepth) := by
  have hdeepens : ∀ snap ∈ c.shared.runs runID, Deepens snap.state := by
    refine ((sane_of_reachable h).history runID).induct (fun r hr => ?_) fun current m hb hm => ?_
    · obtain ⟨_, _, _, -, heq⟩ := hr
      rw [heq]
      exact forall_mem_nil _
    · exact forall_mem_map.mpr (hm.change.deepens hb)
  intro snap hsnap e he hclass
  rw [hdeepens snap hsnap e he hclass]
  cases e.compensation with
  | false =>
    simp only [Bool.false_eq_true, if_false, true_and]
    omega
  | true =>
    simp only [if_true, Bool.true_eq_false, false_and, iff_false]
    omega

/-- A branch that starts a subworkflow. -/
def nestedDraft : DefinitionDraft :=
  { sampleDraft with nodes := [
    { id := lit "fan"
      body := .parallel {
        branches := [⟨lit "b", {
          effectClass := .subworkflow, kind := lit "k", definition := some ⟨lit "d", 1, lit "h"⟩
          input := { kind := .literal, value := lit "1" }
          maxCostUnits := 5, retry := { maxAttempts := 1 } }⟩]
        maxConcurrency := 1 } },
    { id := lit "end", body := .ret { value := lit "2" } }] }

lemma nestedDraft_compiles : (compileDefinition sampleContracts nestedDraft).isSome = true := by
  decide +kernel

/-- A Run of it that itself lies at a depth. -/
def sampleNested (depth : ℤ) : Config runnerObject Call Returned :=
  served (sampleExecutor (lit "1")) ⟨.startRun sampleRunner 4 {
    id := sampleRunID
    actor := { tenantID := [], actorID := [] }
    thread := { kind := [], id := [] }
    goal := lit "g"
    definition := (compileDefinition sampleContracts nestedDraft).get nestedDraft_compiles
    nestedDepth := depth }, nestedDraft, (Option.some_get nestedDraft_compiles).symm⟩ ⟨{}, []⟩

theorem nested_depth_first : ∃ snap ∈ (sampleNested 0).shared.runs sampleRunID,
    ∃ e ∈ snap.state.effects, e.nestedDepth = snap.state.nestedDepth + 1 ∧
      e.nestedDepth ≤ snap.state.definition.limits.maxNestedDepth := by
  have hsome : ∃ snap ∈ (sampleNested 0).shared.runs sampleRunID, ∃ e ∈ snap.state.effects,
      e.effectClass = .subworkflow ∧ e.compensation = false ∧
        snap.state.nestedDepth < snap.state.definition.limits.maxNestedDepth := by
    decide +kernel
  obtain ⟨snap, hsnap, e, he, hclass, hbelow⟩ := hsome
  exact ⟨snap, hsnap, e, he,
    (nested_depth_iff (.served .refl _ _) sampleRunID snap hsnap e he hclass).mpr hbelow⟩

/-- A Run at the limit starts another one below it. -/
theorem nested_depth_exceeded : Running (sampleNested 8) ∧
    ∃ snap ∈ (sampleNested 8).shared.runs sampleRunID, ∃ e ∈ snap.state.effects,
      e.effectClass = .subworkflow ∧ snap.state.definition.limits.maxNestedDepth < e.nestedDepth :=
  ⟨.served .refl _ _, by decide +kernel⟩

end Workflow
