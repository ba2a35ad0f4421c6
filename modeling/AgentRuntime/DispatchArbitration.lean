/-
Dispatch grants, receipts, cancellation fences and retries on one harness Store.

Grants and fences are facts in the log of a Turn, statuses and Attempts are in a table of
Invocations, and every method rescans the log under the mutex of the Store.  Two things make
the arbitration work: an Item under a grant is refused unless it is the first one and a valid
receipt, so that settled grants stay settled; and fences are closed, but never opened again.

* `Arbitrated` — the invariant of the Store, **`Change.arbitrated`** — every call keeps it;
* **`dispatch_arbitration`** — it holds in every reachable Store.
-/
import AgentRuntime.HarnessStore
import Mathlib.Logic.Relation

namespace Harness

open GoString GoJson Kernel FiniteMap MemoryStore List Bool

/-! ### Runs -/

section Runs

variable (sha256 : GoString → GoString)

/-- One store comes after another in some interleaving of calls. -/
def Later : MemoryStore → MemoryStore → Prop :=
  Relation.ReflTransGen fun s s' => ∃ request, s' = s.serve sha256 request

/-- The stores that calls on an empty one lead to. -/
def Reachable (s : MemoryStore) : Prop := Later sha256 {} s

end Runs

/-- Nothing settles the grant. -/
def unsettled (items : List Item) (g : Item) : Bool := g.isGrant && (settlement items g).isNone

/-- The grant belongs to a Turn and an Invocation that are not terminal, and nothing is in
its way. -/
structure Admitted (s : MemoryStore) (g : Item) : Prop where
  turn : ∃ turn, s.turns.lookup g.turnID = some turn ∧ terminalTurnStatus turn.status = false
  owner : ∃ v, s.invocations.lookup g.invocationID = some v ∧ v.turnID = g.turnID ∧
    v.executionRefID = g.runID ∧ terminalInvocationStatus v.status = false
  fence : activeCancellationFence (s.log g.turnID) = false
  free : pendingExecutionDispatch (s.log g.turnID) g.invocationID = false

/-- What a Turn with an active fence does not do in one call. -/
structure Fenced (turnID : GoString) (s s' : MemoryStore) : Prop where
  invocations : ∀ id v, s.invocations.lookup id = none → s'.invocations.lookup id = some v →
    v.turnID ≠ turnID
  grants : ∀ g, s'.log turnID = s.log turnID ++ [g] → g.isGrant = false
  interactions : ∀ id i, s.interactions.lookup id = none → s'.interactions.lookup id = some i →
    i.turnID ≠ turnID
  resolved : ∀ id i, s.interactions.lookup id = some i → i.turnID = turnID →
    s'.interactions.lookup id = some i
  running : ∀ id v v', s.invocations.lookup id = some v → v.turnID = turnID →
    s'.invocations.lookup id = some v' → v'.status = .running → v.status = .running
  attempts : ∀ id v v', s.invocations.lookup id = some v → v.turnID = turnID →
    s'.invocations.lookup id = some v' → v'.attempt = v.attempt

/-- When an Attempt rotates. -/
structure Rotates (sha256 : GoString → GoString) (s : MemoryStore) (v : Invocation) : Prop where
  settled : ∀ g ∈ s.log v.turnID, unsettled (s.log v.turnID) g = false
  children : retryChildEffectFence sha256 (s.childrenOf v) (s.log v.turnID) v = none

/-- The grant was admitted at the moment it was appended. -/
def AdmittedBefore (sha256 : GoString → GoString) (s : MemoryStore) (t : GoString) (g : Item) :
    Prop :=
  ∃ before request, Reachable sha256 before ∧ Admitted before g ∧
    (before.serve sha256 request).log t = before.log t ++ [g] ∧
    Later sha256 (before.serve sha256 request) s

/-- **What the Store guarantees** in a state, and for all calls from it on. -/
structure Arbitration (sha256 : GoString → GoString) (s : MemoryStore) : Prop where
  /-- The Items of a Turn are numbered from one. -/
  numbered : ∀ t, (s.log t).map Item.seq = List.range' 1 (s.log t).length
  /-- Items never change. -/
  kept : ∀ s', Later sha256 s s' → ∀ t, s.log t <+: s'.log t
  /-- An Invocation has at most one grant that is not settled. -/
  single : ∀ t t' g g', g ∈ s.log t → g' ∈ s.log t' → unsettled (s.log t) g = true →
    unsettled (s.log t') g' = true → g.invocationID = g'.invocationID → t = t' ∧ g = g'
  /-- Every grant was admitted at the moment it was appended. -/
  admitted : ∀ t, ∀ g ∈ s.log t, g.isGrant = true → AdmittedBefore sha256 s t g
  /-- A grant that is settled stays so, at the same boundary. -/
  settled : ∀ s', Later sha256 s s' → ∀ t, ∀ g ∈ s.log t, ∀ b, settlement (s.log t) g = some b →
    settlement (s'.log t) g = some b
  /-- At most one fence of a Turn is active. -/
  fence : ∀ t, ∀ f ∈ s.log t, ∀ f' ∈ s.log t, openFence (s.log t) f = true →
    openFence (s.log t) f' = true → f = f'
  /-- An active fence keeps new work out. -/
  fenced : ∀ t, activeCancellationFence (s.log t) = true → ∀ request,
    Fenced t s (s.serve sha256 request)
  /-- An Attempt rotates only where nothing can still run. -/
  rotates : ∀ request id v v', s.invocations.lookup id = some v →
    (s.serve sha256 request).invocations.lookup id = some v' → v'.attempt ≠ v.attempt →
      Rotates sha256 s v

/-! ### The invariant -/

/-- The invariant of the Store. -/
structure Arbitrated (s : MemoryStore) : Prop where
  numbered : ∀ t, (s.log t).map Item.seq = List.range' 1 (s.log t).length
  located : ∀ t, ∀ i ∈ s.log t, i.turnID = t ∧ s.itemIDs.lookup i.id = some i
  keyed : ∀ id v, s.invocations.lookup id = some v → v.id = id
  owned : ∀ t, ∀ g ∈ s.log t, g.isGrant = true →
    ∃ v, s.invocations.lookup g.invocationID = some v ∧ v.turnID = t
  single : ∀ t t' g g', g ∈ s.log t → g' ∈ s.log t' → unsettled (s.log t) g = true →
    unsettled (s.log t') g' = true → g.invocationID = g'.invocationID → t = t' ∧ g = g'
  fence : ∀ t, ∀ f ∈ s.log t, ∀ f' ∈ s.log t, openFence (s.log t) f = true →
    openFence (s.log t) f' = true → f = f'

variable {sha256 : GoString → GoString} {s s' : MemoryStore} {g given : Item} {b : Boundary}
  {i : Interaction}

lemma arbitrated_empty : Arbitrated {} where
  numbered _ := rfl
  located _ _ hi := nomatch hi
  keyed _ _ h := nomatch h
  owned _ _ hg := nomatch hg
  single _ _ _ _ hg := nomatch hg
  fence _ _ hf := nomatch hf

/-! ### Logs -/

lemma log_push (s : MemoryStore) (x : Item) (t : GoString) :
    (s.push x).log t = if t = x.turnID then s.log t ++ [x] else s.log t := by
  rw [log, push]
  split
  · rename_i ht
    rw [ht, AList.lookup_insert, Option.getD_some]
  · rename_i ht
    rw [lookup_insert_of_ne ht, log]

lemma log_addInvocation (s : MemoryStore) (value : Invocation) (t : GoString) :
    (s.addInvocation value).log t = s.log t := by
  rw [addInvocation]
  split <;> rfl

/-- The Item that is appended is new, and was admitted. -/
structure Appended (s : MemoryStore) (given : Item) : Prop where
  new : s.itemIDs.lookup given.id = none
  admitted : s.itemAdmitted given = true
  receipt : s.receiptAdmitted (s.stored given) = true

/-- A call appends at most one Item to at most one log. -/
lemma MemoryStore.Change.logs (h : Change sha256 s s') :
    (∀ t, s'.log t = s.log t) ∨ ∃ given, Appended s given ∧ s' = s.push (s.stored given) := by
  cases h with
  | created value => exact .inl (log_addInvocation s value)
  | appended given hnew hadmitted hreceipt => exact .inr ⟨given, ⟨hnew, hadmitted, hreceipt⟩, rfl⟩
  | _ => exact .inl fun _ => rfl

lemma MemoryStore.Change.log (h : Change sha256 s s') (t : GoString) :
    s'.log t = s.log t ∨ ∃ given, Appended s given ∧ given.turnID = t ∧
      s'.log t = s.log t ++ [s.stored given] := by
  obtain hsame | ⟨given, happended, rfl⟩ := h.logs
  · exact .inl (hsame t)
  rw [log_push]
  split
  · rename_i ht
    exact .inr ⟨given, happended, ht.symm, rfl⟩
  · exact .inl rfl

lemma MemoryStore.Change.log_grows (h : Change sha256 s s') (t : GoString) : s.log t <+: s'.log t := by
  obtain heq | ⟨_, -, -, heq⟩ := h.log t
  · rw [heq]
  · rw [heq]
    exact prefix_append _ _

lemma isFence_of_isGrant {i : Item} (h : i.isGrant = true) : i.isFence = false := by
  simp only [Item.isGrant, and_eq_true, decide_eq_true_eq] at h
  rw [Item.isFence, h.2, Bool.and_eq_false_iff]
  exact .inr (by decide +kernel)

/-- What was checked when a grant was appended. -/
lemma admitted_of_grant (h : s.itemAdmitted given = true)
    (hgrant : given.isGrant = true) : Admitted s (s.stored given) := by
  rw [itemAdmitted, isFence_of_isGrant hgrant, if_neg Bool.false_ne_true, if_pos hgrant,
    grantAdmitted] at h
  simp only [and_eq_true, not_eq_true'] at h
  obtain ⟨⟨⟨hturn, howner⟩, hfence⟩, hfree⟩ := h
  obtain ⟨turn, hlookup, hturn⟩ := (Option.any_eq_true _ _).mp hturn
  obtain ⟨v, hv, howner⟩ := (Option.any_eq_true _ _).mp howner
  simp only [and_eq_true, decide_eq_true_eq, not_eq_true'] at howner hturn
  exact ⟨⟨turn, hlookup, hturn⟩, ⟨v, hv, howner.1.1, howner.1.2, howner.2⟩, hfence, hfree⟩

variable {t : GoString}

/-- A receipt is the first Item that claims its grant. -/
lemma claims_stored (h : Arbitrated s) (hg : g ∈ s.log t)
    (hgrant : g.isGrant = true) (hreceipt : s.receiptAdmitted (s.stored given) = true)
    (hclaims : (s.stored given).claims g.id = true) :
    ∀ receipt ∈ s.log t, receipt.claims g.id = false := by
  obtain ⟨hturn, hlookup⟩ := h.located t g hg
  have hparent : (s.stored given).parentItemID = g.id := by
    simp only [Item.claims, and_eq_true, decide_eq_true_eq] at hclaims
    exact hclaims.2
  rw [receiptAdmitted, hparent, hlookup] at hreceipt
  simp only [hgrant, Bool.not_true, Bool.false_or, Bool.and_eq_true, Bool.not_eq_true', hturn]
    at hreceipt
  exact fun receipt hmem => by simpa using any_eq_false.mp hreceipt.2 receipt hmem

/-- **A settled grant stays settled.** -/
theorem MemoryStore.Change.settlement (h : Change sha256 s s') (hs : Arbitrated s)
    (hg : g ∈ s.log t) (hgrant : g.isGrant = true)
    (hb : settlement (s.log t) g = some b) : settlement (s'.log t) g = some b := by
  obtain heq | ⟨_, happended, -, heq⟩ := h.log t
  · rw [heq, hb]
  rw [heq, Harness.settlement, receiptsOf_append_of_not]
  · exact hb
  by_contra hclaims
  obtain ⟨receipt, hof, -⟩ := exists_receipt_of_settlement hb
  obtain ⟨hmem, hreceipt', -⟩ := mem_receiptsOf.mp hof
  rw [claims_stored hs hg hgrant happended.receipt (by simpa using hclaims) receipt hmem]
    at hreceipt'
  cases hreceipt'

lemma isGrant_of_settlement {items : List Item}
    (h : Harness.settlement items g = some b) : g.isGrant = true := by
  rw [Harness.settlement, verifiedExecutionDispatchReceipt] at h
  split at h
  · rename_i hgrant
    simp only [usableGrant, not_eq_true', or_eq_false_iff] at hgrant
    simpa using hgrant.1.1.1.2
  · cases h

/-- No grant of a log becomes unsettled. -/
lemma MemoryStore.Change.unsettled (h : Change sha256 s s') (hs : Arbitrated s)
    (hg : g ∈ s.log t) (hnew : Harness.unsettled (s'.log t) g = true) :
    Harness.unsettled (s.log t) g = true := by
  rw [Harness.unsettled, Bool.and_eq_true] at hnew ⊢
  refine ⟨hnew.1, ?_⟩
  cases hb : Harness.settlement (s.log t) g with
  | none => rfl
  | some =>
    rw [h.settlement hs hg hnew.1 hb] at hnew
    cases hnew.2

/-! ### Invocations -/

/-- What one call may do to an Invocation. -/
structure InvocationStep (sha256 : GoString → GoString) (s : MemoryStore) (v v' : Invocation) :
    Prop where
  id : v'.id = v.id
  turnID : v'.turnID = v.turnID
  running : v'.status = .running →
    v.status = .running ∨ activeCancellationFence (s.log v.turnID) = false
  rotates : v'.attempt ≠ v.attempt →
    activeCancellationFence (s.log v.turnID) = false ∧ Rotates sha256 s v

lemma InvocationStep.refl (v : Invocation) : InvocationStep sha256 s v v :=
  ⟨rfl, rfl, .inl, absurd rfl⟩

lemma invocations_addInvocation (s : MemoryStore) (value : Invocation) :
    (s.addInvocation value).invocations = s.invocations.insert value.id value := by
  rw [addInvocation]
  split <;> rfl

/-- The Invocations after a call. -/
theorem MemoryStore.Change.invocation (h : Change sha256 s s') (hs : Arbitrated s) {id : GoString}
    {v : Invocation} (hv : s.invocations.lookup id = some v) :
    ∃ v', s'.invocations.lookup id = some v' ∧ InvocationStep sha256 s v v' := by
  cases h with
  | created value hnew =>
    have hne : id ≠ value.id := by
      rintro rfl
      rw [hnew] at hv
      cases hv
    exact ⟨v, by rw [invocations_addInvocation, lookup_insert_of_ne hne, hv], .refl v⟩
  | updated current value hcurrent hidentity =>
    by_cases hid : id = value.id
    · obtain rfl : current = v := by
        rw [hid, hcurrent] at hv
        exact Option.some.inj hv
      simp only [sameInvocationIdentity, and_eq_true, decide_eq_true_eq] at hidentity
      have hturn : value.turnID = current.turnID := hidentity.1.1.1.1.1.1.1.2.symm
      refine ⟨value, hid ▸ AList.lookup_insert _, hidentity.1.1.1.1.1.1.1.1.symm, hturn, ?_,
        absurd hidentity.2.symm⟩
      rwa [← hturn]
    · exact ⟨v, by rw [← hv]; exact lookup_insert_of_ne hid, .refl v⟩
  | retried _ _ key ref now current hcurrent hfence hpending hchildren =>
    obtain rfl := hs.keyed key current hcurrent
    by_cases hid : id = current.id
    · obtain rfl : current = v := by
        rw [hid, hcurrent] at hv
        exact Option.some.inj hv
      refine ⟨rotated current ref now, hid ▸ AList.lookup_insert _, rfl, rfl,
        fun hrun => (nomatch hrun), ?_⟩
      refine fun _ => ⟨hfence, fun g hg => ?_, hchildren⟩
      have hnot := any_eq_false.mp hpending g hg
      rw [not_eq_true, pendingGrant, decide_eq_true rfl, Bool.true_or, Bool.and_true] at hnot
      exact hnot
    · exact ⟨v, by rw [← hv]; exact lookup_insert_of_ne hid, .refl v⟩
  | _ => exact ⟨v, hv, .refl v⟩

/-- New Invocations have no fence in their way, and their own key. -/
lemma MemoryStore.Change.newInvocation (h : Change sha256 s s') (hs : Arbitrated s) {id : GoString}
    {v' : Invocation} (hnone : s.invocations.lookup id = none)
    (hv' : s'.invocations.lookup id = some v') :
    v'.id = id ∧ activeCancellationFence (s.log v'.turnID) = false := by
  have habsurd : s.invocations.lookup id = some v' →
      v'.id = id ∧ activeCancellationFence (s.log v'.turnID) = false := by
    intro hv
    rw [hnone] at hv
    cases hv
  cases h with
  | created _ _ hfence =>
    rw [invocations_addInvocation] at hv'
    obtain ⟨rfl, rfl⟩ | ⟨-, hv⟩ := lookup_insert_cases hv'
    · exact ⟨rfl, hfence⟩
    · exact habsurd hv
  | updated _ _ hcurrent =>
    obtain ⟨rfl, rfl⟩ | ⟨-, hv⟩ := lookup_insert_cases hv'
    · rw [hcurrent] at hnone
      cases hnone
    · exact habsurd hv
  | retried _ _ key _ _ current hcurrent =>
    obtain rfl := hs.keyed key current hcurrent
    obtain ⟨rfl, rfl⟩ | ⟨-, hv⟩ := lookup_insert_cases hv'
    · rw [hcurrent] at hnone
      cases hnone
    · exact habsurd hv
  | _ => exact habsurd hv'

/-! ### Interactions -/

lemma interactions_addInvocation (s : MemoryStore) (value : Invocation) :
    (s.addInvocation value).interactions = s.interactions := by
  rw [addInvocation]
  split <;> rfl

/-- New Interactions have no fence in their way. -/
lemma MemoryStore.Change.newInteraction (h : Change sha256 s s') {id : GoString}
    (hnone : s.interactions.lookup id = none)
    (hi : s'.interactions.lookup id = some i) :
    activeCancellationFence (s.log i.turnID) = false := by
  have habsurd : s.interactions.lookup id = some i →
      activeCancellationFence (s.log i.turnID) = false := by
    intro hold
    rw [hnone] at hold
    cases hold
  cases h with
  | created =>
    rw [interactions_addInvocation] at hi
    exact habsurd hi
  | interactionCreated _ _ hfence
  | interactionResolved _ _ _ _ hfence =>
    obtain ⟨-, rfl⟩ | ⟨-, hold⟩ := lookup_insert_cases hi
    · exact hfence
    · exact habsurd hold
  | _ => exact habsurd hi

/-- An Interaction stays as it is behind a fence. -/
lemma MemoryStore.Change.interaction (h : Change sha256 s s') {id : GoString}
    (hi : s.interactions.lookup id = some i) :
    s'.interactions.lookup id = some i ∨ activeCancellationFence (s.log i.turnID) = false := by
  cases h with
  | created =>
    rw [interactions_addInvocation]
    exact .inl hi
  | interactionCreated value hnew =>
    have hne : id ≠ value.id := by
      rintro rfl
      rw [hnew] at hi
      cases hi
    exact .inl ((lookup_insert_of_ne hne).trans hi)
  | interactionResolved _ value hcurrent hidentity hfence =>
    by_cases hid : id = value.id
    · rw [hid, hcurrent] at hi
      cases hi
      simp only [sameInteractionIdentity, and_eq_true, decide_eq_true_eq] at hidentity
      rw [hidentity.1.1.1.1.1.1.1.1.2]
      exact .inr hfence
    · exact .inl ((lookup_insert_of_ne hid).trans hi)
  | _ => exact .inl hi

/-! ### Every call keeps the invariant -/

variable {x : Item}

lemma mem_log_push {i : Item} (hi : i ∈ (s.push x).log t) :
    i ∈ s.log t ∨ i = x ∧ x.turnID = t := by
  rw [log_push] at hi
  split at hi
  · rename_i ht
    rcases mem_append.mp hi with hi | hi
    · exact .inl hi
    · exact .inr ⟨mem_singleton.mp hi, ht.symm⟩
  · exact .inl hi

lemma new_grant_alone (hs : Arbitrated s)
    (hadmitted : Admitted s x) (hg : g ∈ s.log t) (hopen : unsettled (s.log t) g = true)
    (hsame : g.invocationID = x.invocationID) : False := by
  obtain ⟨hgrant, hnone⟩ := (and_eq_true _ _).mp hopen
  obtain ⟨v, hv, hturn⟩ := hs.owned t g hg hgrant
  obtain ⟨w, hw, hwturn, -⟩ := hadmitted.owner
  rw [hsame, hw] at hv
  cases hv
  have hnot := any_eq_false.mp hadmitted.free g (by rwa [← hwturn, hturn])
  rw [← hwturn, hturn] at hnot
  exact hnot (by simp [pendingGrant, hgrant, hsame, hnone])

lemma new_fence_alone {f : Item} (happended : Appended s given)
    (hfence : given.isFence = true) (hf : f ∈ s.log given.turnID)
    (hopen : openFence (s.log given.turnID) f = true) : False := by
  have hadmitted := happended.admitted
  rw [itemAdmitted, if_pos hfence, not_eq_true'] at hadmitted
  exact any_eq_false.mp hadmitted f hf hopen

section Step

variable (h : Change sha256 s s') (hs : Arbitrated s)

include h hs

lemma MemoryStore.Change.keyed :
    ∀ id v, s'.invocations.lookup id = some v → v.id = id := by
  intro id _ hv'
  rcases hv : s.invocations.lookup id with _ | v
  · exact (h.newInvocation hs hv hv').1
  obtain ⟨w, hw, hstep⟩ := h.invocation hs hv
  rw [hv'] at hw
  cases hw
  exact hstep.id.trans (hs.keyed id v hv)

lemma MemoryStore.Change.numbered (t : GoString) :
    (s'.log t).map Item.seq = range' 1 (s'.log t).length := by
  obtain heq | ⟨given, -, ht, heq⟩ := h.log t
  · rw [heq]
    exact hs.numbered t
  have hseq : (s.stored given).seq = 1 + (s.log t).length := by
    rw [← ht, Nat.add_comm]
    rfl
  rw [heq, map_append, hs.numbered t, length_append, length_singleton,
    range'_concat, map_singleton, hseq, Nat.one_mul]

lemma MemoryStore.Change.located :
    ∀ t, ∀ i ∈ s'.log t, i.turnID = t ∧ s'.itemIDs.lookup i.id = some i := by
  cases h with
  | created value =>
    intro t i hi
    rw [log_addInvocation] at hi
    have hids : (s.addInvocation value).itemIDs = s.itemIDs := by
      rw [addInvocation]
      split <;> rfl
    rw [hids]
    exact hs.located t i hi
  | appended given hnew =>
    intro t i hi
    obtain hi | ⟨rfl, ht⟩ := mem_log_push hi
    · obtain ⟨hturn, hlookup⟩ := hs.located t i hi
      have hne : i.id ≠ given.id := by
        intro heq
        rw [heq, hnew] at hlookup
        cases hlookup
      exact ⟨hturn, (lookup_insert_of_ne hne).trans hlookup⟩
    · exact ⟨ht, AList.lookup_insert _⟩
  | _ => exact hs.located

lemma MemoryStore.Change.owned :
    ∀ t, ∀ g ∈ s'.log t, g.isGrant = true →
      ∃ v, s'.invocations.lookup g.invocationID = some v ∧ v.turnID = t := by
  intro t g hg hgrant
  obtain ⟨v, hv, hturn⟩ : ∃ v, s.invocations.lookup g.invocationID = some v ∧ v.turnID = t := by
    obtain hsame | ⟨_, happended, rfl⟩ := h.logs
    · rw [hsame] at hg
      exact hs.owned t g hg hgrant
    obtain hg | ⟨rfl, ht⟩ := mem_log_push hg
    · exact hs.owned t g hg hgrant
    · obtain ⟨v, hv, hturn, -⟩ := (admitted_of_grant happended.admitted hgrant).owner
      exact ⟨v, hv, hturn.trans ht⟩
  obtain ⟨v', hv', hstep⟩ := h.invocation hs hv
  exact ⟨v', hv', hstep.turnID.trans hturn⟩

lemma MemoryStore.Change.single :
    ∀ t t' g g', g ∈ s'.log t → g' ∈ s'.log t' → Harness.unsettled (s'.log t) g = true →
      Harness.unsettled (s'.log t') g' = true → g.invocationID = g'.invocationID →
        t = t' ∧ g = g' := by
  intro t t' g g' hg hg' hopen hopen' hsame
  have hgrant := ((and_eq_true _ _).mp hopen).1
  have hgrant' := ((and_eq_true _ _).mp hopen').1
  have hboth : g ∈ s.log t → g' ∈ s.log t' → t = t' ∧ g = g' := fun hold hold' =>
    hs.single t t' g g' hold hold' (h.unsettled hs hold hopen) (h.unsettled hs hold' hopen') hsame
  obtain hlogs | ⟨_, happended, rfl⟩ := h.logs
  · rw [hlogs] at hg hg'
    exact hboth hg hg'
  obtain hold | ⟨rfl, ht⟩ := mem_log_push hg
  · obtain hold' | ⟨rfl, _⟩ := mem_log_push hg'
    · exact hboth hold hold'
    · exact (new_grant_alone hs (admitted_of_grant happended.admitted hgrant') hold
        (h.unsettled hs hold hopen) hsame).elim
  obtain hold' | ⟨rfl, ht'⟩ := mem_log_push hg'
  · exact (new_grant_alone hs (admitted_of_grant happended.admitted hgrant) hold'
      (h.unsettled hs hold' hopen') hsame.symm).elim
  · exact ⟨ht.symm.trans ht', rfl⟩

lemma MemoryStore.Change.fence :
    ∀ t, ∀ f ∈ s'.log t, ∀ f' ∈ s'.log t, openFence (s'.log t) f = true →
      openFence (s'.log t) f' = true → f = f' := by
  intro t f hf f' hf' hopen hopen'
  obtain heq | ⟨given, happended, rfl, heq⟩ := h.log t
  · rw [heq] at hf hf' hopen hopen'
    exact hs.fence t f hf f' hf' hopen hopen'
  rw [heq] at hf hf' hopen hopen'
  have hisFence : ∀ x ∈ [s.stored given], openFence (s.log given.turnID ++ [s.stored given]) x = true →
      given.isFence = true := by
    intro x hx hx'
    rw [mem_singleton.mp hx] at hx'
    exact ((and_eq_true _ _).mp hx').1
  rcases mem_append.mp hf with hold | hnew
  · rcases mem_append.mp hf' with hold' | hnew'
    · exact hs.fence _ f hold f' hold' (openFence_append hopen) (openFence_append hopen')
    · exact (new_fence_alone happended (hisFence f' hnew' hopen') hold
        (openFence_append hopen)).elim
  rcases mem_append.mp hf' with hold' | hnew'
  · exact (new_fence_alone happended (hisFence f hnew hopen) hold'
      (openFence_append hopen')).elim
  · rw [mem_singleton.mp hnew, mem_singleton.mp hnew']

/-- **Every call keeps the invariant.** -/
theorem MemoryStore.Change.arbitrated : Arbitrated s' where
  numbered := h.numbered hs
  located := h.located hs
  keyed := h.keyed hs
  owned := h.owned hs
  single := h.single hs
  fence := h.fence hs

end Step

/-! ### Runs -/

lemma later_serve (s : MemoryStore) (request : Request) :
    Later sha256 s (s.serve sha256 request) := .single ⟨request, rfl⟩

lemma later_foldl (requests : List Request) :
    ∀ s, Later sha256 s (requests.foldl (serve sha256) s) := by
  induction requests with
  | nil => exact fun _ => .refl
  | cons request _ ih => exact fun s => (later_serve s request).trans (ih _)

theorem Later.arbitrated (h : Later sha256 s s') (hs : Arbitrated s) : Arbitrated s' := by
  induction h with
  | refl => exact hs
  | tail _ hstep ih =>
    obtain ⟨request, rfl⟩ := hstep
    exact (serve_change sha256 _ request).arbitrated ih

lemma Later.log_grows (h : Later sha256 s s') (t : GoString) : s.log t <+: s'.log t := by
  induction h with
  | refl => exact prefix_rfl
  | tail _ hstep ih =>
    obtain ⟨request, rfl⟩ := hstep
    exact ih.trans ((serve_change sha256 _ request).log_grows t)

theorem Later.settlement (h : Later sha256 s s') (hs : Arbitrated s)
    (hg : g ∈ s.log t) (hb : settlement (s.log t) g = some b) :
    settlement (s'.log t) g = some b := by
  induction h with
  | refl => exact hb
  | tail hlater hstep ih =>
    obtain ⟨request, rfl⟩ := hstep
    exact (serve_change sha256 _ request).settlement (Later.arbitrated hlater hs)
      ((Later.log_grows hlater t).subset hg) (isGrant_of_settlement hb) ih

/-- Where a grant of a log comes from. -/
lemma Reachable.admitted (h : Reachable sha256 s) (hg : g ∈ s.log t)
    (hgrant : g.isGrant = true) : AdmittedBefore sha256 s t g := by
  induction h with
  | refl => cases hg
  | @tail before _ hlater hstep ih =>
    obtain ⟨request, rfl⟩ := hstep
    have hold : g ∈ before.log t → AdmittedBefore sha256 (before.serve sha256 request) t g := by
      intro hg
      obtain ⟨first, call, hfirst, hadmitted, hlog, hrest⟩ := ih hg
      exact ⟨first, call, hfirst, hadmitted, hlog, hrest.trans (later_serve _ _)⟩
    obtain heq | ⟨_, happended, -, heq⟩ := (serve_change sha256 before request).log t
    · rw [heq] at hg
      exact hold hg
    rw [heq] at hg
    rcases mem_append.mp hg with hg | hg
    · exact hold hg
    · obtain rfl := mem_singleton.mp hg
      exact ⟨before, request, hlater, admitted_of_grant happended.admitted hgrant, heq, .refl⟩

/-- **Nothing starts behind an active fence.** -/
theorem MemoryStore.Change.fenced (h : Change sha256 s s') (hs : Arbitrated s)
    (hactive : activeCancellationFence (s.log t) = true) : Fenced t s s' := by
  have hclosed : ∀ {t'}, activeCancellationFence (s.log t') = false → t' ≠ t := by
    rintro _ hfalse rfl
    rw [hfalse] at hactive
    cases hactive
  refine ⟨fun id v hnone hv => hclosed (h.newInvocation hs hnone hv).2, fun g hlog => ?_,
    fun id i hnone hi => ?_, fun id i hi ht => ?_, fun id v v' hv ht hv' hrun => ?_,
    fun id v v' hv ht hv' => ?_⟩
  · by_contra hgrant
    rw [not_eq_false] at hgrant
    obtain heq | ⟨_, happended, ht, heq⟩ := h.log t
    · rw [heq] at hlog
      simp at hlog
    rw [heq, append_cancel_left_eq, cons.injEq] at hlog
    obtain rfl := hlog.1
    exact hclosed (admitted_of_grant happended.admitted hgrant).fence ht
  · exact hclosed (h.newInteraction hnone hi)
  · exact (h.interaction hi).resolve_right fun hfalse => hclosed hfalse ht
  · obtain ⟨w, hw, hstep⟩ := h.invocation hs hv
    rw [hv'] at hw
    cases hw
    exact (hstep.running hrun).resolve_right fun hfalse => hclosed hfalse ht
  obtain ⟨w, hw, hstep⟩ := h.invocation hs hv
  rw [hv'] at hw
  cases hw
  by_contra hne
  exact hclosed (hstep.rotates hne).1 ht

/-- **The arbitration of dispatches and cancellations** holds in every reachable Store. -/
theorem dispatch_arbitration (sha256 : GoString → GoString) (s : MemoryStore)
    (h : Reachable sha256 s) : Arbitration sha256 s := by
  have hs : Arbitrated s := Later.arbitrated h arbitrated_empty
  refine ⟨hs.numbered, fun s' hlater => Later.log_grows hlater, hs.single,
    fun t g hg => Reachable.admitted h hg, fun s' hlater t g hg b => Later.settlement hlater hs hg,
    hs.fence, fun t hactive request => (serve_change sha256 s request).fenced hs hactive, ?_⟩
  intro request _ v _ hv hv' hne
  obtain ⟨w, hw, hstep⟩ := (serve_change sha256 s request).invocation hs hv
  rw [hv'] at hw
  cases hw
  exact (hstep.rotates hne).2

/-! ### Fences over whole runs -/

/-- A call of the Store: one that the fence of a Turn arbitrates, or the plain update of an
Interaction. -/
inductive StoreCall where
  | arbitrated (request : Request)
  | updateInteraction (value : Interaction) (expectedRevision : UInt64)

def MemoryStore.perform (sha256 : GoString → GoString) (s : MemoryStore) : StoreCall → MemoryStore
  | .arbitrated request => s.serve sha256 request
  | .updateInteraction value expected =>
    ((s.updateInteraction value expected).map Prod.fst).toOption.getD s

/-- One store comes after another in some interleaving of all calls. -/
def Follows (sha256 : GoString → GoString) : MemoryStore → MemoryStore → Prop :=
  Relation.ReflTransGen fun s s' => ∃ call, s' = s.perform sha256 call

/-- What the plain update of an Interaction does: at most, it gives one that is there another
content under the same identity. -/
inductive Updated (s : MemoryStore) : MemoryStore → Prop
  | unchanged : Updated s s
  | changed {id : GoString} {i i' : Interaction} (hi : s.interactions.lookup id = some i)
      (hsame : sameInteractionIdentity i i' = true) :
      Updated s { s with interactions := s.interactions.insert id i' }

/-- What a call may do to a Turn whose fence is active. -/
def StoreCall.Behind (sha256 : GoString → GoString) (t : GoString) (s : MemoryStore) :
    StoreCall → Prop
  | .arbitrated request => Fenced t s (s.perform sha256 (.arbitrated request))
  | .updateInteraction value expected =>
    Updated s (s.perform sha256 (.updateInteraction value expected))

lemma updateInteraction_updated {value r : Interaction} {expected : UInt64}
    (h : s.updateInteraction value expected = .ok (s', r)) : Updated s s' := by
  rw [updateInteraction] at h
  split at h
  · cases h
  split at h
  · cases h
  rename_i current hcurrent
  split at h
  · cases h
  rename_i hsame
  cases h
  obtain ⟨-, hsame⟩ : _ ∧ sameInteractionIdentity current value = true := by simpa using hsame
  exact .changed hcurrent hsame

lemma perform_updateInteraction (s : MemoryStore) (value : Interaction) (expected : UInt64) :
    Updated s (s.perform sha256 (.updateInteraction value expected)) := by
  rw [perform]
  cases h : s.updateInteraction value expected with
  | error => exact .unchanged
  | ok r => exact updateInteraction_updated h

lemma Updated.log (h : Updated s s') (t : GoString) : s'.log t = s.log t := by
  cases h with
  | unchanged | changed => rfl

lemma Updated.itemIDs (h : Updated s s') : s'.itemIDs = s.itemIDs := by
  cases h with
  | unchanged | changed => rfl

lemma Updated.arbitrated (h : Updated s s') (hs : Arbitrated s) : Arbitrated s' := by
  cases h with
  | unchanged => exact hs
  | changed => exact ⟨hs.numbered, hs.located, hs.keyed, hs.owned, hs.single, hs.fence⟩

/-- A call keeps the invariant, and the Items. -/
lemma perform_spec (s : MemoryStore) (call : StoreCall) (hs : Arbitrated s) :
    Arbitrated (s.perform sha256 call) ∧ ∀ t, s.log t <+: (s.perform sha256 call).log t := by
  cases call with
  | arbitrated request =>
    have hchange := serve_change sha256 s request
    exact ⟨hchange.arbitrated hs, hchange.log_grows⟩
  | updateInteraction value expected =>
    have hupdated := @perform_updateInteraction sha256 s value expected
    refine ⟨hupdated.arbitrated hs, fun t => ?_⟩
    rw [hupdated.log]

lemma Follows.spec (h : Follows sha256 s s') (hs : Arbitrated s) :
    Arbitrated s' ∧ ∀ t, s.log t <+: s'.log t := by
  induction h with
  | refl => exact ⟨hs, fun _ => prefix_rfl⟩
  | tail _ hstep ih =>
    obtain ⟨call, rfl⟩ := hstep
    obtain ⟨hnext, hgrows⟩ := @perform_spec sha256 _ call ih.1
    exact ⟨hnext, fun t => (ih.2 t).trans (hgrows t)⟩

lemma follows_foldl (calls : List StoreCall) :
    ∀ s, Follows sha256 s (calls.foldl (perform sha256) s) := by
  induction calls with
  | nil => exact fun _ => .refl
  | cons call _ ih => exact fun s => Relation.ReflTransGen.trans (.single ⟨call, rfl⟩) (ih _)

/-- **A fence holds until it is closed.**  If it is still open at the end of a run, none of the calls
that it arbitrates has started anything in its Turn, nor resolved an Interaction of it.  The plain
update of an Interaction is not among them: it may resolve one, but changes nothing else. -/
theorem fence_holds (h : Follows sha256 {} s) {f : Item} (hf : f ∈ s.log t) {m : MemoryStore}
    (hlater : Follows sha256 s m) (call : StoreCall) (hrest : Follows sha256 (m.perform sha256 call) s')
    (hopen : openFence (s'.log t) f = true) : call.Behind sha256 t m := by
  have hs : Arbitrated s := (h.spec arbitrated_empty).1
  obtain ⟨hm, hgrows⟩ := hlater.spec hs
  -- no Item that was appended later closes the fence
  have hbefore : openFence (m.log t) f = true := by
    obtain ⟨hnext, hlog⟩ := @perform_spec sha256 m call hm
    obtain ⟨_, heq⟩ := (hlog t).trans ((hrest.spec hnext).2 t)
    rw [← heq, openFence, and_eq_true, not_eq_true', any_append, or_eq_false_iff] at hopen
    rw [openFence, hopen.1, hopen.2.1]
    rfl
  cases call with
  | arbitrated request =>
    refine (serve_change sha256 m request).fenced hm (any_eq_true.mpr ⟨f, ?_, hbefore⟩)
    exact (hgrows t).subset hf
  | updateInteraction value expected => exact perform_updateInteraction m value expected

/-- A running Turn with one Invocation. -/
def runningTurn : Turn where
  id := lit "t"
  sessionID := lit "s"
  hostTurn := ⟨lit "turn", lit "1"⟩
  configSnapshotID := lit "c"
  status := .running
  revision := 1
  createdAt := 1
  updatedAt := 1

def runningInvocation : Invocation where
  id := lit "i"
  turnID := lit "t"
  capabilityKey := capabilityAgent
  executionClass := .agent
  executionRefID := lit "r"
  status := .running
  attempt := 1
  revision := 1
  createdAt := 1
  updatedAt := 1

def runningGrant : Item where
  id := lit "g"
  turnID := lit "t"
  kind := .diagnostic
  status := .started
  runID := lit "r"
  invocationID := lit "i"
  parentItemID := executionDispatchParentItemID

def runningReceipt : Item where
  id := lit "d"
  turnID := lit "t"
  kind := .diagnostic
  status := .completed
  runID := lit "r"
  invocationID := lit "i"
  parentItemID := lit "g"
  payload := lit "\x7b\"boundary\":\"physical_dispatch_returned\"\x7d"

def runningFence : Item where
  id := lit "f"
  turnID := lit "t"
  kind := .diagnostic
  status := .started
  runID := lit "r"
  parentItemID := cancellationFenceParentItemID

/-- A dispatch that returned, and then a cancellation. -/
def cancelledStore : MemoryStore :=
  let calls : List Request := [.createTurn runningTurn, .createInvocation runningInvocation,
    .appendItem runningGrant, .appendItem runningReceipt, .appendItem runningFence]
  calls.foldl (serve id) {}

theorem dispatch_arbitration_cancelled :
    activeCancellationFence (cancelledStore.log (lit "t")) = true ∧
      (cancelledStore.log (lit "t")).map (settlement (cancelledStore.log (lit "t"))) =
        [some .physicalDispatchReturned, none, none] ∧
      Arbitration id cancelledStore :=
  ⟨by decide +kernel, by decide +kernel, dispatch_arbitration id _ (later_foldl _ _)⟩

def runningQuestion : Interaction where
  id := lit "q"
  turnID := lit "t"
  invocationID := lit "i"
  key := lit "k"
  kind := .confirmation
  schema := lit "true"
  status := .waiting
  revision := 1
  createdAt := 1
  updatedAt := 1

/-- A Turn that is cancelled while it waits for an answer. -/
def askingStore : MemoryStore :=
  let calls : List StoreCall := [.arbitrated (.createTurn runningTurn),
    .arbitrated (.createInvocation runningInvocation),
    .arbitrated (.createInteraction runningQuestion 1 1), .arbitrated (.appendItem runningFence)]
  calls.foldl (perform id) {}

/-- The plain update resolves the Interaction behind the fence, and the fence still holds. -/
theorem fence_holds_cancelled :
    let answer := StoreCall.updateInteraction { runningQuestion with status := .resolved } 1
    let answered := askingStore.perform id answer
    (askingStore.interactions.lookup (lit "q")).map Interaction.status = some .waiting ∧
      (answered.interactions.lookup (lit "q")).map Interaction.status = some .resolved ∧
      Updated askingStore answered ∧
      Fenced (lit "t") answered (answered.perform id (.arbitrated (.appendItem runningGrant))) := by
  intro answer answered
  have hstart : Follows id {} askingStore := follows_foldl _ _
  refine ⟨by decide +kernel, by decide +kernel, ?_, ?_⟩
  · exact @fence_holds _ _ _ (lit "t") hstart _ (getLast_mem (by decide +kernel)) _ .refl answer .refl
      (by decide +kernel)
  · exact fence_holds hstart (getLast_mem (by decide +kernel)) (.single ⟨answer, rfl⟩)
      (.arbitrated (.appendItem runningGrant)) .refl (by decide +kernel)

end Harness
