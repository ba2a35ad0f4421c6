/-
The outbox of committed transitions.

The entries live in a map, and the order in which they are offered to projectors in
a separate slice that is compacted from the front only.  `Outbox` ties both to the
log: an entry is in the map exactly when its transition was committed, needs
projection and has not been acknowledged; every entry of the map is somewhere in
the slice, and nothing is in the slice twice; and the lease of an entry, if it has
one, is that of the newest claim that returned it.

The Store takes the identifier and the revision of a mutation as they come; a mutation that repeats a
revision brings an acknowledged entry back (`acked_again`).

* **`transition_outbox`** — where mutations keep their identifiers and count their revisions, no
  entry is lost, duplicated or acknowledged by a worker that does not hold it.
-/
import AgentRuntime.RunLifecycle
import Mathlib.Data.List.TakeWhile

namespace Kernel

open GoString Memory Function Interleaving List Option

/-! ### What the log says about an entry -/

/-- The entry a commit has in the outbox, if it needs one. -/
def commitID (k : Commit) : GoString :=
  committedTransitionID k.snapshot.run.id k.snapshot.run.revision

/-- `NeedsTransitionProjection` of a commit. -/
def projected (k : Commit) : Bool := needsTransitionProjection k.snapshot.run.status k.events

/-- The claims a call has returned. -/
def claimsOf : (op : StoreOp) → op.Res → List TransitionClaim
  | .claimTransitions _, .ok claims => claims
  | _, _ => []

/-- The entry a call has acknowledged. -/
def ackOf : (op : StoreOp) → op.Res → Option GoString
  | .ackTransition r, .ok _ => some r.transitionID
  | _, _ => none

/-- The entry was acknowledged. -/
def Acked (w : World) (txid : GoString) : Prop :=
  ∃ call ∈ w.log, ackOf call.op call.res = some txid

/-- The newest claim of an entry. -/
def latestClaim (w : World) (txid : GoString) : Option TransitionClaim :=
  w.log.findSome? fun call => (claimsOf call.op call.res).find? fun claim =>
    claim.transition.id = txid

lemma committedTransitionID_inj {id id' : GoString} {rev rev' : UInt64}
    (h : committedTransitionID id rev = committedTransitionID id' rev') : id = id' ∧ rev = rev' :=
  (colon_formatUint_inj h).imp_right UInt64.toNat_inj.mp

/-! ### One pass over the order slice -/

/-- An entry is left alone by a pass, or claimed. -/
def ClaimedOrSame (r : TransitionClaimRequest) (new : List TransitionClaim) (txid : GoString)
    (before after : Option TransitionState) : Prop :=
  (after = before ∧ ∀ claim ∈ new, claim.transition.id ≠ txid) ∨
  ∃ t, before = some t ∧ t.due r.now = true ∧ after = some (t.claimed txid r) ∧
    (t.claimed txid r).claim ∈ new

section Update

variable {α : Type} {f : GoString → Option α} {k x : GoString}

lemma update_eq_some {v : Option α} {y : α} (h : update f k v x = some y) :
    x = k ∧ v = some y ∨ x ≠ k ∧ f x = some y := by
  by_cases hx : x = k
  · rw [hx, update_self] at h
    exact .inl ⟨hx, h⟩
  · rw [update_of_ne hx] at h
    exact .inr ⟨hx, h⟩

lemma isSome_update {v : α} (h : (f x).isSome) : (update f k (some v) x).isSome := by
  rw [update_apply]
  split
  · rfl
  · exact h

end Update

/-- A pass over a slice without repetitions claims due entries, each once, and all
of them if the limit allows. -/
theorem claimLoop_spec (r : TransitionClaimRequest) {order : List GoString} (hnodup : order.Nodup)
    {transitions : GoString → Option TransitionState}
    (hids : ∀ txid t, transitions txid = some t → t.transition.id = txid)
    (claims : List TransitionClaim) :
    ∃ new, (claimLoop r order claims transitions).1 = claims ++ new ∧
      List.Sublist (new.map fun claim => claim.transition.id) order ∧
      (∀ txid, ClaimedOrSame r new txid (transitions txid)
        ((claimLoop r order claims transitions).2 txid)) ∧
      (claims.length + order.length ≤ r.limit → ∀ txid ∈ order, ∀ t, transitions txid = some t →
        t.due r.now = true → (t.claimed txid r).claim ∈ new) := by
  induction order generalizing transitions claims with
  | nil =>
    refine ⟨[], by simp [claimLoop], by simp, fun txid => .inl ⟨rfl, by simp⟩, by simp⟩
  | cons id order ih =>
    obtain ⟨hid, hnodup⟩ := nodup_cons.mp hnodup
    rw [claimLoop]
    by_cases hfull : r.limit ≤ claims.length
    · rw [if_pos hfull]
      refine ⟨[], by simp, by simp, fun txid => .inl ⟨rfl, by simp⟩, fun hlimit => ?_⟩
      simp only [length_cons] at hlimit
      omega
    rw [if_neg hfull]
    obtain ⟨rest, hrest, hrestsub, hkept, hall⟩ := ih hnodup hids claims
    -- an entry that is passed over stays as it is
    have hskip : (∀ t, transitions id = some t → t.due r.now = false) →
        claims.length + (id :: order).length ≤ r.limit → ∀ txid ∈ id :: order, ∀ t,
          transitions txid = some t → t.due r.now = true → (t.claimed txid r).claim ∈ rest := by
      intro hnot hlimit txid htxid t ht hdue
      simp only [length_cons] at hlimit
      rcases mem_cons.mp htxid with rfl | htxid
      · rw [hnot t ht] at hdue
        simp at hdue
      · exact hall (by omega) txid htxid t ht hdue
    rcases ht : transitions id with _ | t
    · exact ⟨rest, hrest, hrestsub.cons _, hkept, hskip (by simp [ht])⟩
    dsimp only
    by_cases hdue : t.due r.now = true
    · rw [if_pos hdue]
      have hids' : ∀ txid t', update transitions id (some (t.claimed id r)) txid = some t' →
          t'.transition.id = txid := by
        intro txid t' ht'
        rcases update_eq_some ht' with ⟨rfl, ⟨⟩⟩ | ⟨-, ht'⟩
        · exact hids txid t ht
        · exact hids txid t' ht'
      obtain ⟨new, hnew, hsub, hsame, hall⟩ := ih hnodup hids' (claims ++ [(t.claimed id r).claim])
      have hclaimid : (t.claimed id r).claim.transition.id = id := hids id t ht
      refine ⟨(t.claimed id r).claim :: new, by simpa using hnew, ?_, ?_, ?_⟩
      · rw [map_cons, hclaimid]
        exact hsub.cons_cons _
      · intro txid
        by_cases htxid : txid = id
        · -- the entry just claimed does not occur in the rest of the slice
          subst htxid
          rcases hsame txid with ⟨hrest, -⟩ | ⟨_, ht', -, -, hmem⟩
          · rw [update_self] at hrest
            exact .inr ⟨t, ht, hdue, hrest, mem_cons_self⟩
          have hclaim := hsub.subset (mem_map_of_mem hmem)
          rw [update_self] at ht'
          cases ht'
          exact absurd (hclaimid ▸ hclaim) hid
        · rcases hsame txid with ⟨hrest, hother⟩ | ⟨t', ht', hdue', hrest, hmem⟩
          · rw [update_of_ne htxid] at hrest
            refine .inl ⟨hrest, ?_⟩
            rintro claim (_ | ⟨_, hclaim⟩)
            · rw [hclaimid]
              exact fun h => htxid h.symm
            · exact hother claim hclaim
          · rw [update_of_ne htxid] at ht'
            exact .inr ⟨t', ht', hdue', hrest, mem_cons_of_mem _ hmem⟩
      · intro hlimit txid htxid t' ht' hdue'
        simp only [length_cons, length_append, length_nil] at hlimit hall
        rcases mem_cons.mp htxid with rfl | hin
        · cases ht.symm.trans ht'
          exact mem_cons_self
        have hne : txid ≠ id := by
          rintro rfl
          exact hid hin
        refine mem_cons_of_mem _ (hall (by push_cast at hlimit ⊢; omega) txid hin t' ?_ hdue')
        rwa [update_of_ne hne]
    · rw [if_neg hdue]
      refine ⟨rest, hrest, hrestsub.cons _, hkept, hskip fun t' ht' => ?_⟩
      cases ht.symm.trans ht'
      simpa using hdue

/-! ### What one call does to the outbox -/

/-- The things a call can do to the outbox. -/
inductive OutboxChange (s : Store) (op : StoreOp) (res : op.Res) (s' : Store) : Prop
  | same (hmap : s'.transitions = s.transitions) (horder : s'.transitionOrder = s.transitionOrder)
      (hcommit : commitOf op res = none) (hack : ackOf op res = none) (hclaims : claimsOf op res = [])
  | commit (k : Commit) (hcommit : commitOf op res = some k)
      (hmap : s'.transitions = if projected k then
        update s.transitions (commitID k)
          (some { transition := committedTransition k.snapshot.run k.events })
        else s.transitions)
      (horder : s'.transitionOrder = if projected k then
        s.transitionOrder ++ [commitID k] else s.transitionOrder)
      (hack : ackOf op res = none) (hclaims : claimsOf op res = [])
  | claim (r : TransitionClaimRequest)
      (hmap : s'.transitions = (claimLoop r s.transitionOrder [] s.transitions).2)
      (horder : s'.transitionOrder = s.transitionOrder) (hcommit : commitOf op res = none)
      (hack : ackOf op res = none)
      (hclaims : claimsOf op res = (claimLoop r s.transitionOrder [] s.transitions).1)
  | ack (txid : GoString) (t : TransitionState) (hentry : s.transitions txid = some t)
      (hmap : s'.transitions = update s.transitions txid none)
      (horder : s'.transitionOrder =
        s.transitionOrder.dropWhile fun id => (s'.transitions id).isNone)
      (hcommit : commitOf op res = none) (hack : ackOf op res = some txid)
      (hclaims : claimsOf op res = [])
  | retry (txid : GoString) (t : TransitionState) (availableAt : Time)
      (hentry : s.transitions txid = some t)
      (hmap : s'.transitions = update s.transitions txid
        (some { t with availableAt := availableAt, leaseID := [], workerID := [], leaseUntil := 0 }))
      (horder : s'.transitionOrder = s.transitionOrder) (hcommit : commitOf op res = none)
      (hack : ackOf op res = none) (hclaims : claimsOf op res = [])

lemma committed_outbox (s : Store) (runID : GoString) (journal : List Event) (r : Record)
    (events : List EventDraft) :
    (committed s runID journal r events).transitions =
      (if needsTransitionProjection r.run.status events then
        update s.transitions (committedTransitionID r.run.id r.run.revision)
          (some { transition := committedTransition r.run events })
        else s.transitions) ∧
    (committed s runID journal r events).transitionOrder =
      if needsTransitionProjection r.run.status events then
        s.transitionOrder ++ [committedTransitionID r.run.id r.run.revision]
      else s.transitionOrder := by
  rw [committed, appendCommittedTransition]
  split
  all_goals exact ⟨rfl, rfl⟩

variable {H : Hashing} {env : Env} {s s' : Store} {op : StoreOp} {res : op.Res} {w : World}
  {t : TransitionState} {k : Commit}

lemma StoreStep.outbox (hs : StoreStep H env s op res s') : OutboxChange s op res s' := by
  cases hs with
  | fail op e => exact .same rfl rfl (commitOf_error op e) (by cases op <;> rfl) (by cases op <;> rfl)
  | create | apply | applyExecution | applyControl =>
    exact .commit _ rfl (committed_outbox ..).1 (committed_outbox ..).2 rfl rfl
  | claimTransitions r => exact .claim r rfl rfl rfl rfl rfl
  | ackTransition r t _ hentry => exact .ack r.transitionID t hentry rfl rfl rfl rfl rfl
  | retryTransition r t _ hentry =>
    exact .retry r.transitionID t r.availableAt hentry rfl rfl rfl rfl rfl
  | _ => exact .same rfl rfl rfl rfl rfl

/-! ### The invariant -/

/-- What the log, the map and the order slice say about each other. -/
structure Outbox (w : World) : Prop where
  /-- An entry is a commit that needs projection, with its attempts counted. -/
  sound : ∀ txid t, w.store.transitions txid = some t → ∃ k ∈ w.commits, projected k ∧
    txid = commitID k ∧ t.transition =
      { committedTransition k.snapshot.run k.events with attempts := t.transition.attempts }
  unacked : ∀ txid t, w.store.transitions txid = some t → ¬ Acked w txid
  complete : ∀ k ∈ w.commits, projected k →
    (w.store.transitions (commitID k)).isSome ∨ Acked w (commitID k)
  ordered : ∀ txid, (w.store.transitions txid).isSome → txid ∈ w.store.transitionOrder
  order_nodup : w.store.transitionOrder.Nodup
  order_sub : ∀ txid ∈ w.store.transitionOrder, ∃ k ∈ w.commits, txid = commitID k
  acked_sub : ∀ txid, Acked w txid → ∃ k ∈ w.commits, txid = commitID k
  leased : ∀ txid t, w.store.transitions txid = some t → t.leaseID = [] ∨
    ∃ claim, latestClaim w txid = some claim ∧ claim.leaseID = t.leaseID ∧ claim.workerID = t.workerID

lemma outbox_empty : Outbox {} where
  sound _ _ h := absurd h (by simp [newStore])
  unacked _ _ h := absurd h (by simp [newStore])
  complete k hk := absurd hk (by simp [World.commits])
  ordered _ h := absurd h (by simp [newStore])
  order_nodup := nodup_nil
  order_sub _ h := absurd h (by simp [newStore])
  acked_sub _ h := absurd h (by simp [Acked])
  leased _ _ h := absurd h (by simp [newStore])

lemma Outbox.entry_id (h : Outbox w) {txid : GoString}
    (ht : w.store.transitions txid = some t) : t.transition.id = txid := by
  obtain ⟨k, -, -, hk, htrans⟩ := h.sound txid t ht
  rw [htrans, hk]
  rfl

section Cons

variable (s' : Store) (op : StoreOp) (res : op.Res) {txid : GoString}

lemma commits_cons : (⟨s', ⟨op, res⟩ :: w.log⟩ : World).commits =
    (commitOf op res).toList ++ w.commits := by
  rw [World.commits, filterMap_cons]
  cases commitOf op res <;> rfl

lemma acked_cons : Acked ⟨s', ⟨op, res⟩ :: w.log⟩ txid ↔
    ackOf op res = some txid ∨ Acked w txid := by
  simp [Acked]

lemma latestClaim_cons : latestClaim ⟨s', ⟨op, res⟩ :: w.log⟩ txid =
    ((claimsOf op res).find? fun claim => claim.transition.id = txid).or (latestClaim w txid) := by
  rw [latestClaim, findSome?_cons]
  cases (claimsOf op res).find? fun claim => claim.transition.id = txid <;> rfl

end Cons

/-- The commits of a Run have its identifier, and their revisions are counted. -/
def Counted (w : World) : Prop :=
  ∀ id, (∀ k ∈ w.commitsOf id, k.snapshot.run.id = id) ∧
    WordCounters.Descending ((w.commitsOf id).map fun k => k.snapshot.run.revision)

lemma Coherent.counted (hw : Coherent w) : Counted w :=
  fun id => ⟨fun _ hk => (hw.story id).run_id hk, (hw.story id).descending⟩

lemma Counted.mem (hw : Counted w) (hk : k ∈ w.commits) : k ∈ w.commitsOf k.snapshot.run.id := by
  have hmem : k ∈ w.commitsOf k.runID := mem_filter.mpr ⟨hk, by simp⟩
  rwa [(hw k.runID).1 k hmem]

/-- A commit gets an identifier that no earlier commit had. -/
lemma commitID_fresh (hw : Counted ⟨s', ⟨op, res⟩ :: w.log⟩) (hk : commitOf op res = some k) :
    ∀ k' ∈ w.commits, commitID k' ≠ commitID k := by
  intro k' hk' heq
  obtain ⟨hid, hrev⟩ := committedTransitionID_inj heq
  have hold : k' ∈ (⟨s', ⟨op, res⟩ :: w.log⟩ : World).commits := by
    rw [commits_cons]
    exact mem_append_right _ hk'
  have hrun : k'.runID = k.runID := by
    have hmem : k' ∈ (⟨s', ⟨op, res⟩ :: w.log⟩ : World).commitsOf k'.runID :=
      mem_filter.mpr ⟨hold, by simp⟩
    rw [← (hw k'.runID).1 k' hmem, hid]
    exact (hw k.runID).1 k (World.commitsOf_of_commit hk ▸ mem_cons_self)
  -- the two commits would be of one Run, at the same revision
  have hnodup := (hw k.runID).2.nodup
  rw [World.commitsOf_of_commit hk, map_cons, nodup_cons] at hnodup
  exact hnodup.1 (hrev ▸ mem_map_of_mem (mem_filter.mpr ⟨hk', by simp [hrun]⟩))

/-- The lease of an entry after a call that returns no claims. -/
lemma leased_of_no_claims {s' : Store} {op : StoreOp} {res : op.Res} (hclaims : claimsOf op res = [])
    (txid : GoString) : latestClaim ⟨s', ⟨op, res⟩ :: w.log⟩ txid = latestClaim w txid := by
  rw [latestClaim_cons, hclaims]
  rfl

/-- The key that a call puts at the end of the order. -/
def keysOf (op : StoreOp) (res : op.Res) : List GoString :=
  ((commitOf op res).toList.filter projected).map commitID

/-- A commit that is projected gets an entry; an old entry stays, with its attempts counted
and its lease moved, unless it is acknowledged. -/
lemma Outbox.advance (h : Outbox w) (hcommit : ∀ k, commitOf op res = some k →
      (∀ k' ∈ w.commits, commitID k' ≠ commitID k) ∧
      (projected k → (s'.transitions (commitID k)).isSome))
    (hack : ∀ txid, ackOf op res = some txid →
      (w.store.transitions txid).isSome ∧ s'.transitions txid = none)
    (hkeep : ∀ txid, (w.store.transitions txid).isSome →
      (s'.transitions txid).isSome ∨ ackOf op res = some txid)
    (horder : ∃ kept, kept <:+ w.store.transitionOrder ∧ s'.transitionOrder = kept ++ keysOf op res)
    (hordered : ∀ txid ∈ w.store.transitionOrder, (s'.transitions txid).isSome →
      txid ∈ s'.transitionOrder)
    (hentry : ∀ txid t', s'.transitions txid = some t' →
      (∃ k, commitOf op res = some k ∧ projected k ∧ txid = commitID k ∧
        t' = { transition := committedTransition k.snapshot.run k.events }) ∨
      ∃ t, w.store.transitions txid = some t ∧
        t'.transition = { t.transition with attempts := t'.transition.attempts } ∧
        (t'.leaseID = [] ∨ ∃ claim, latestClaim ⟨s', ⟨op, res⟩ :: w.log⟩ txid = some claim ∧
          claim.leaseID = t'.leaseID ∧ claim.workerID = t'.workerID)) :
    Outbox ⟨s', ⟨op, res⟩ :: w.log⟩ := by
  obtain ⟨kept, hkept, horder⟩ := horder
  have hcommits : ∀ k, k ∈ (⟨s', ⟨op, res⟩ :: w.log⟩ : World).commits ↔
      commitOf op res = some k ∨ k ∈ w.commits := by
    intro k
    rw [commits_cons, mem_append, mem_toList]
  have hkeys : ∀ txid ∈ keysOf op res, ∃ k, commitOf op res = some k ∧ projected k ∧
      txid = commitID k := by
    intro txid htxid
    obtain ⟨k, hk, rfl⟩ := mem_map.mp htxid
    exact ⟨k, mem_toList.mp (mem_filter.mp hk).1, (mem_filter.mp hk).2, rfl⟩
  refine ⟨?_, ?_, ?_, ?_, ?_, ?_, ?_, ?_⟩
  · intro txid t' ht'
    rcases hentry txid t' ht' with ⟨k, hk, hproj, hid, rfl⟩ | ⟨t, ht, htrans, -⟩
    · exact ⟨k, (hcommits k).mpr (.inl hk), hproj, hid, rfl⟩
    · obtain ⟨k, hk, hproj, hid, htrans'⟩ := h.sound txid t ht
      refine ⟨k, (hcommits k).mpr (.inr hk), hproj, hid, ?_⟩
      rw [htrans, htrans']
  · intro txid t' ht' hacked
    rcases (acked_cons s' op res).mp hacked with hnew | hold
    · cases (hack txid hnew).2.symm.trans ht'
    rcases hentry txid t' ht' with ⟨k, hk, -, rfl, -⟩ | ⟨t, ht, -⟩
    · obtain ⟨k', hk', heq⟩ := h.acked_sub _ hold
      exact (hcommit k hk).1 k' hk' heq.symm
    · exact h.unacked txid t ht hold
  · intro k hk hproj
    rw [acked_cons]
    rcases (hcommits k).mp hk with hnew | hold
    · exact .inl ((hcommit k hnew).2 hproj)
    rcases h.complete k hold hproj with hsome | hacked
    · exact (hkeep _ hsome).imp_right .inl
    · exact .inr (.inr hacked)
  · intro txid htxid
    obtain ⟨t', ht'⟩ := isSome_iff_exists.mp htxid
    show txid ∈ s'.transitionOrder
    rcases hentry txid t' ht' with ⟨k, hk, hproj, rfl, -⟩ | ⟨t, ht, -⟩
    · rw [horder, keysOf, hk]
      simp [hproj]
    · exact hordered txid (h.ordered txid (by rw [ht]; rfl)) htxid
  · show s'.transitionOrder.Nodup
    rw [horder]
    refine nodup_append.mpr ⟨h.order_nodup.sublist hkept.sublist, ?_, ?_⟩
    · rw [keysOf]
      cases commitOf op res with
      | none => exact nodup_nil
      | some => exact ((nodup_singleton _).filter _).map_on (by simp +contextual)
    · rintro txid htxid _ htxid' rfl
      obtain ⟨k, hk, -, heq⟩ := hkeys txid htxid'
      obtain ⟨k', hk', heq'⟩ := h.order_sub txid (hkept.subset htxid)
      exact (hcommit k hk).1 k' hk' (heq'.symm.trans heq)
  · intro txid htxid
    rcases mem_append.mp (horder ▸ htxid) with hold | hnew
    · obtain ⟨k, hk, heq⟩ := h.order_sub txid (hkept.subset hold)
      exact ⟨k, (hcommits k).mpr (.inr hk), heq⟩
    · obtain ⟨k, hk, -, heq⟩ := hkeys txid hnew
      exact ⟨k, (hcommits k).mpr (.inl hk), heq⟩
  · intro txid htxid
    have hold : ∃ k ∈ w.commits, txid = commitID k := by
      rcases (acked_cons s' op res).mp htxid with hnew | hold
      · obtain ⟨t, ht⟩ := isSome_iff_exists.mp (hack txid hnew).1
        obtain ⟨k, hk, -, heq, -⟩ := h.sound txid t ht
        exact ⟨k, hk, heq⟩
      · exact h.acked_sub txid hold
    obtain ⟨k, hk, heq⟩ := hold
    exact ⟨k, (hcommits k).mpr (.inr hk), heq⟩
  · intro txid t' ht'
    rcases hentry txid t' ht' with ⟨k, -, -, -, rfl⟩ | ⟨t, -, -, hlease⟩
    · exact .inl rfl
    · exact hlease

/-- A pass of claims moves the leases it returns. -/
lemma Outbox.claim (h : Outbox w) {r : TransitionClaimRequest}
    (hmap : s'.transitions = (claimLoop r w.store.transitionOrder [] w.store.transitions).2)
    (horder : s'.transitionOrder = w.store.transitionOrder) (hcommit : commitOf op res = none)
    (hack : ackOf op res = none)
    (hclaims : claimsOf op res = (claimLoop r w.store.transitionOrder [] w.store.transitions).1) :
    Outbox ⟨s', ⟨op, res⟩ :: w.log⟩ := by
  obtain ⟨new, hnew, hsub, hsame, -⟩ :=
    claimLoop_spec r h.order_nodup (fun txid t ht => h.entry_id ht) []
  rw [nil_append] at hnew
  have hunique := h.order_nodup.sublist hsub
  rw [← hmap] at hsame
  have hlatest : ∀ txid, latestClaim ⟨s', ⟨op, res⟩ :: w.log⟩ txid =
      (new.find? fun claim => claim.transition.id = txid).or (latestClaim w txid) := by
    intro _
    rw [latestClaim_cons, hclaims, hnew]
  refine h.advance (by simp [hcommit]) (by simp [hack]) (fun txid hsome => .inl ?_)
    ⟨_, suffix_rfl, by simp [keysOf, hcommit, horder]⟩ (fun _ hin _ => horder ▸ hin)
    fun txid t' ht' => .inr ?_
  · rcases hsame txid with ⟨heq, -⟩ | ⟨t, -, -, heq, -⟩
    · rwa [heq]
    · rw [heq]
      rfl
  rcases hsame txid with ⟨heq, hother⟩ | ⟨t, ht, -, heq, hmem⟩
  · rw [heq] at ht'
    refine ⟨t', ht', rfl, ?_⟩
    have hnone : (new.find? fun claim => claim.transition.id = txid) = none := by
      rw [find?_eq_none]
      intro claim hclaim
      simpa using hother claim hclaim
    rw [hlatest, hnone]
    exact h.leased txid t' ht'
  · rw [heq] at ht'
    cases ht'
    refine ⟨t, ht, rfl, .inr ⟨(t.claimed txid r).claim, ?_, rfl, rfl⟩⟩
    -- the pass returned exactly one claim of this entry
    have hid : (t.claimed txid r).claim.transition.id = txid := by
      show t.transition.id = txid
      exact h.entry_id ht
    obtain ⟨claim, hfind⟩ : ∃ claim, (new.find? fun claim => claim.transition.id = txid) =
        some claim := by
      rw [← isSome_iff_exists, find?_isSome]
      exact ⟨_, hmem, by simpa using hid⟩
    have hclaim : claim = (t.claimed txid r).claim := by
      refine inj_on_of_nodup_map hunique (mem_of_find?_eq_some hfind) hmem ?_
      rw [hid]
      simpa using find?_some hfind
    rw [hlatest, hfind, hclaim]
    rfl

/-- An acknowledgement removes its entry, and nothing else. -/
lemma Outbox.ack (h : Outbox w) {txid0 : GoString} {t0 : TransitionState}
    (hentry : w.store.transitions txid0 = some t0)
    (hmap : s'.transitions = update w.store.transitions txid0 none) (horder : s'.transitionOrder =
      w.store.transitionOrder.dropWhile fun id => (s'.transitions id).isNone)
    (hcommit : commitOf op res = none) (hack : ackOf op res = some txid0)
    (hclaims : claimsOf op res = []) : Outbox ⟨s', ⟨op, res⟩ :: w.log⟩ := by
  refine h.advance (by simp [hcommit]) (fun txid heq => ?_) (fun txid hsome => ?_)
    ⟨_, horder ▸ dropWhile_suffix _, by simp [keysOf, hcommit]⟩ (fun txid hin hsome => ?_)
    fun txid t ht => .inr ?_
  · obtain rfl := some.inj (hack.symm.trans heq)
    rw [hentry, hmap, update_self]
    exact ⟨rfl, rfl⟩
  · by_cases heq : txid = txid0
    · exact .inr (heq ▸ hack)
    · rw [hmap, update_of_ne heq]
      exact .inl hsome
  · -- compaction drops only keys that are no longer in the map
    rw [← takeWhile_append_dropWhile (p := fun id => (s'.transitions id).isNone)
      (l := w.store.transitionOrder), mem_append] at hin
    rcases hin with hdropped | _
    · have hgone := mem_takeWhile_imp hdropped
      rw [← not_isSome, hsome] at hgone
      cases hgone
    rwa [horder]
  · rw [hmap] at ht
    rw [leased_of_no_claims hclaims]
    have hold := ((update_eq_some ht).resolve_left (by simp)).2
    exact ⟨t, hold, rfl, h.leased txid t hold⟩

/-- Calls that keep the revisions counted maintain the outbox. -/
lemma Outbox.step (h : Outbox w) (hw : Counted ⟨s', ⟨op, res⟩ :: w.log⟩)
    (hs : StoreStep H env w.store op res s') : Outbox ⟨s', ⟨op, res⟩ :: w.log⟩ := by
  cases StoreStep.outbox hs with
  | same hmap horder hcommit hack hclaims =>
    refine h.advance (by simp [hcommit]) (by simp [hack]) (fun _ hsome => .inl (hmap ▸ hsome))
      ⟨_, suffix_rfl, by simp [keysOf, hcommit, horder]⟩ (fun _ hin _ => horder ▸ hin)
      fun txid t ht => .inr ?_
    rw [hmap] at ht
    rw [leased_of_no_claims hclaims]
    exact ⟨t, ht, rfl, h.leased txid t ht⟩
  | commit k hcommit hmap horder hack hclaims =>
    refine h.advance ?_ (by simp [hack]) (fun txid hsome => .inl ?_) ⟨_, suffix_rfl, ?_⟩
      (fun _ hin _ => ?_) fun txid t ht => ?_
    · intro k' hk'
      obtain rfl := some.inj (hcommit.symm.trans hk')
      refine ⟨commitID_fresh hw hcommit, fun hproj => ?_⟩
      rw [hmap, if_pos hproj, update_self]
      rfl
    · rw [hmap]
      split
      · exact isSome_update hsome
      · exact hsome
    · rw [horder, keysOf, hcommit]
      cases hproj : projected k <;> simp [hproj]
    · rw [horder]
      split
      · exact mem_append_left _ hin
      · exact hin
    rw [leased_of_no_claims hclaims]
    rw [hmap] at ht
    split at ht
    · rename_i hproj
      rcases update_eq_some ht with ⟨rfl, ⟨⟩⟩ | ⟨-, ht⟩
      · exact .inl ⟨k, hcommit, hproj, rfl, rfl⟩
      · exact .inr ⟨t, ht, rfl, h.leased txid t ht⟩
    · exact .inr ⟨t, ht, rfl, h.leased txid t ht⟩
  | claim _ hmap horder hcommit hack hclaims => exact h.claim hmap horder hcommit hack hclaims
  | ack _ _ hentry hmap horder hcommit hack hclaims =>
    exact h.ack hentry hmap horder hcommit hack hclaims
  | retry txid0 t0 _ hentry hmap horder hcommit hack hclaims =>
    refine h.advance (by simp [hcommit]) (by simp [hack]) (fun txid hsome => .inl ?_)
      ⟨_, suffix_rfl, by simp [keysOf, hcommit, horder]⟩ (fun _ hin _ => horder ▸ hin)
      fun txid t ht => .inr ?_
    · rw [hmap]
      exact isSome_update hsome
    · rw [leased_of_no_claims hclaims]
      rw [hmap] at ht
      rcases update_eq_some ht with ⟨rfl, ⟨⟩⟩ | ⟨-, ht⟩
      · exact ⟨t0, hentry, rfl, .inl rfl⟩
      · exact ⟨t, ht, rfl, h.leased txid t ht⟩

/-! ### All interleavings -/

/-- Runtimes and workers maintain the outbox. -/
def outboxDiscipline (H : Hashing) : Discipline H where
  Permits _ _ _ := True
  plain _ _ _ _ := trivial
  Holds := Outbox
  holds_step hw h hg hs := h.step (hw.step hg hs).counted hs

/-- A mutation that changes the identifier of its Run, or does not count its revision.
`ApplyExecution` refuses such ones. -/
def Misnumbered (call : Call) : Prop :=
  match call.op with
  | .apply id rev m | .applyControl id rev _ m =>
    ¬ (rev ≠ 0 ∧ m.record.run.id = id ∧ m.record.run.revision = rev + 1)
  | _ => False

/-- What a call that is not misnumbered commits. -/
lemma commit_numbered (hs : StoreStep H env w.store op res s') (hnum : ¬ Misnumbered ⟨op, res⟩)
    (hk : commitOf op res = some k) : k.snapshot.run.id = k.runID ∧
      ∀ cur, w.store.records k.runID = some cur →
        k.snapshot.run.revision = cur.run.revision + 1 ∧ cur.run.revision ≠ 0 := by
  cases hs with
  | create _ _ hnew =>
    cases hk
    refine ⟨rfl, fun cur hcur => ?_⟩
    cases hnew.symm.trans hcur
  | apply _ _ _ _ _ hrec hrev | applyControl _ _ _ _ _ _ hrec hrev =>
    cases hk
    -- the Store compares the current revision only; the new one is the caller's
    obtain ⟨hne, hid, hnext⟩ := not_not.mp hnum
    refine ⟨hid, fun cur hcur => ?_⟩
    cases hrec.symm.trans hcur
    rw [hrev]
    exact ⟨hnext, hne⟩
  | applyExecution _ _ _ _ _ hne hid hnext _ _ hrec _ hrev =>
    cases hk
    refine ⟨hid, fun cur hcur => ?_⟩
    cases hrec.symm.trans hcur
    rw [hrev]
    exact ⟨hnext, hne⟩
  | _ => simp [commitOf] at hk

lemma Counted.step (hw : Counted w) (hreach : World.Reachable H w)
    (hs : StoreStep H env w.store op res s') (hnum : ¬ Misnumbered ⟨op, res⟩) :
    Counted ⟨s', ⟨op, res⟩ :: w.log⟩ := by
  intro id
  rcases commit_or_same op res id with ⟨k, hk, rfl⟩ | hne
  · obtain ⟨hid, hnext⟩ := commit_numbered hs hnum hk
    obtain ⟨hids, hold⟩ := hw k.runID
    have hrecord := records_eq_head hreach k.runID
    rw [World.commitsOf_of_commit hk]
    refine ⟨forall_mem_cons.mpr ⟨hid, hids⟩, ?_⟩
    cases hl : w.commitsOf k.runID with
    | nil => exact List.IsChain.singleton _
    | cons p l =>
      -- the record that the mutation was applied to is the newest commit
      rw [hl] at hrecord hold
      obtain ⟨hrev, hne⟩ := hnext p.snapshot hrecord
      exact hold.cons hrev hne
  · rw [World.commitsOf_of_ne hne]
    exact hw id

/-- **Every run** without misnumbered mutations keeps the outbox. -/
theorem outbox_of_numbered (hrun : World.LaterAvoiding H Misnumbered {} w) :
    World.Reachable H w ∧ Counted w ∧ Outbox w := by
  induction hrun with
  | refl => exact ⟨.refl, coherent_empty.counted, outbox_empty⟩
  | @tail prev _ _ hlast ih =>
    obtain ⟨env, op, rfl, hnum⟩ := hlast
    obtain ⟨hreach, hcounted, houtbox⟩ := ih
    have hs : StoreStep H env prev.store op _ _ := step_sound rfl
    have hnext := hcounted.step hreach hs hnum
    exact ⟨hreach.tail ⟨env, op, rfl⟩, hnext, houtbox.step hnext hs⟩

/-- An acknowledged or retried entry was held by the caller. -/
lemma Outbox.holder (h : Outbox w) {r : TransitionLeaseRequest}
    (hvalid : validTransitionLease r = true) (hentry : w.store.transitions r.transitionID = some t)
    (hlease : t.leaseID = r.leaseID) (hworker : t.workerID = r.workerID) :
    ∃ claim, latestClaim w r.transitionID = some claim ∧ claim.leaseID = r.leaseID ∧
      claim.workerID = r.workerID := by
  rcases h.leased _ t hentry with hnone | ⟨claim, hclaim, hid, hby⟩
  · -- a free entry has a blank lease, which no valid request names
    rw [validTransitionLease, ← hlease, hnone] at hvalid
    exact absurd hvalid (by simp [show trimSpace [] = [] by decide])
  · exact ⟨claim, hclaim, hid.trans hlease, hby.trans hworker⟩

/-- Every due entry is claimed by a request with room for the whole slice. -/
lemma Outbox.claims_due (h : Outbox w) (r : TransitionClaimRequest)
    (hworker : trimSpace r.workerID ≠ []) (hduration : 0 < r.leaseDuration) (hnow : r.now ≠ 0)
    (hpos : 0 < r.limit) (hlimit : w.store.transitionOrder.length ≤ r.limit) :
    ∃ claims, (w.perform H env (.claimTransitions r)).1 = .ok claims ∧
      (claims.map fun claim => claim.transition.id).Nodup ∧
      ∀ txid t, w.store.transitions txid = some t → t.availableAt ≤ r.now → t.leaseUntil ≤ r.now →
        ∃ claim ∈ claims, claim.transition = { t.transition with attempts := t.transition.attempts + 1 } ∧
          claim.workerID = trimSpace r.workerID := by
  obtain ⟨new, hnew, hsub, -, hall⟩ :=
    claimLoop_spec r h.order_nodup (fun txid t ht => h.entry_id ht) []
  refine ⟨new, ?_, h.order_nodup.sublist hsub, ?_⟩
  · have hinput : ¬ (trimSpace r.workerID = [] ∨ r.limit ≤ 0 ∨ r.leaseDuration ≤ 0 ∨
        isZero r.now = true) := by
      simp only [not_or, isZero, beq_iff_eq]
      exact ⟨hworker, by omega, by omega, hnow⟩
    show (claimTransitions w.store r).1 = .ok new
    rw [claimTransitions, if_neg hinput]
    exact congrArg Except.ok (by simpa using hnew)
  · intro txid t ht havailable hlease
    have hdue : t.due r.now = true := by
      simp [TransitionState.due, not_lt.mpr havailable, not_lt.mpr hlease]
    have hin := h.ordered txid (by rw [ht]; rfl)
    exact ⟨_, hall (by simpa using hlimit) txid hin t ht hdue, rfl, rfl⟩

/-- **The outbox loses nothing and duplicates nothing.**  Whatever callers and
workers have done, as long as no mutation is misnumbered: the entries are the
transitions that were committed, need projection and were not acknowledged; each
carries what was committed; a claim with room enough returns every entry that is
free, once; and only the holder of the newest claim can acknowledge or retry an
entry. -/
theorem transition_outbox (H : Hashing) (w : World) (hrun : World.LaterAvoiding H Misnumbered {} w) :
    (∀ id rev, (w.store.transitions (committedTransitionID id rev)).isSome ↔
      (∃ k ∈ w.commitsOf id, k.snapshot.run.revision = rev ∧
        needsTransitionProjection k.snapshot.run.status k.events = true) ∧
      ¬ Acked w (committedTransitionID id rev)) ∧
    (∀ txid t, w.store.transitions txid = some t →
      txid = committedTransitionID t.transition.runID t.transition.revision ∧
      ∀ k ∈ w.commitsOf t.transition.runID,
        k.snapshot.run.revision = t.transition.revision →
        t.transition.events = k.events ∧ t.transition.status = k.snapshot.run.status ∧
        t.transition.kind = k.snapshot.run.kind ∧
        t.transition.committedAt = k.snapshot.run.updatedAt) ∧
    (∃ enough : ℤ, ∀ env r, trimSpace r.workerID ≠ [] → 0 < r.leaseDuration → r.now ≠ 0 →
      0 < r.limit → enough ≤ r.limit →
      ∃ claims, (w.perform H env (.claimTransitions r)).1 = .ok claims ∧
        (claims.map fun claim => claim.transition.id).Nodup ∧
        ∀ txid t, w.store.transitions txid = some t → t.availableAt ≤ r.now →
          t.leaseUntil ≤ r.now → ∃ claim ∈ claims,
            claim.transition = { t.transition with attempts := t.transition.attempts + 1 } ∧
            claim.workerID = trimSpace r.workerID) ∧
    (∀ env r, (w.perform H env (.ackTransition r)).1 = .ok () →
      ∃ claim, latestClaim w r.transitionID = some claim ∧ claim.leaseID = r.leaseID ∧
        claim.workerID = r.workerID) ∧
    (∀ env r, (w.perform H env (.retryTransition r)).1 = .ok () →
      ∃ claim, latestClaim w r.transitionID = some claim ∧ claim.leaseID = r.leaseID ∧
        claim.workerID = r.workerID) := by
  obtain ⟨-, hw, h⟩ := outbox_of_numbered hrun
  refine ⟨?_, ?_, ?_, ?_, ?_⟩
  · intro id _
    constructor
    · intro hsome
      obtain ⟨t, ht⟩ := isSome_iff_exists.mp hsome
      obtain ⟨k, hk, hproj, heq, -⟩ := h.sound _ t ht
      obtain ⟨rfl, rfl⟩ := committedTransitionID_inj heq
      exact ⟨⟨k, hw.mem hk, rfl, hproj⟩, h.unacked _ t ht⟩
    rintro ⟨⟨k, hk, rfl, hproj⟩, hunacked⟩
    obtain rfl := (hw id).1 k hk
    exact (h.complete k (mem_of_mem_filter hk) hproj).resolve_right hunacked
  · intro txid t ht
    obtain ⟨k, hk, -, rfl, htrans⟩ := h.sound txid t ht
    rw [htrans]
    refine ⟨rfl, fun k' hk' hrev => ?_⟩
    obtain rfl := inj_on_of_nodup_map (hw _).2.nodup hk' (hw.mem hk) hrev
    exact ⟨rfl, rfl, rfl, rfl⟩
  · exact ⟨w.store.transitionOrder.length, fun env r hworker hduration hnow hpos hlimit =>
      h.claims_due r hworker hduration hnow hpos hlimit⟩
  · intro _ r hok
    obtain ⟨_, hs⟩ := World.answer_sound hok
    cases hs with
    | ackTransition _ _ hvalid hentry hlease hworker => exact h.holder hvalid hentry hlease hworker
  intro _ r hok
  obtain ⟨_, hs⟩ := World.answer_sound hok
  cases hs with
  | retryTransition _ _ hvalid hentry hlease hworker => exact h.holder hvalid hentry hlease hworker

/-- A Run is created, and completed at its next revision. -/
def sampleEnded : World :=
  let running := sampleRecord false
  let ended := { running with run := { running.run with status := .completed, revision := 2 } }
  World.runAll .sample [(⟨1, none⟩, .create running []), (⟨2, none⟩, .apply (lit "r") 1 ⟨ended, []⟩)] {}

/-- The completed Run has left one entry, and the first worker gets it. -/
theorem transition_outbox_ended :
    (sampleEnded.store.transitions (lit "r:2")).isSome ∧
    ∃ claims, (sampleEnded.perform .sample ⟨3, none⟩
      (.claimTransitions ⟨lit "w", 10, 5, 3⟩)).1 = .ok claims ∧ claims ≠ [] := by
  have hrun : World.LaterAvoiding .sample Misnumbered {} sampleEnded :=
    (Relation.ReflTransGen.single ⟨_, _, rfl, id⟩).tail ⟨_, _, rfl, fun h => h ⟨by decide, rfl, rfl⟩⟩
  obtain ⟨hentries, -, -⟩ := transition_outbox .sample sampleEnded hrun
  have hsome := (hentries (lit "r") 2).mpr
    ⟨⟨_, mem_cons_self, by decide, by decide⟩, by rintro ⟨call, hcall, hack⟩; revert call; decide⟩
  exact ⟨hsome, _, rfl, by decide⟩

/-- A Run is created as failed; its entry is claimed and acknowledged; and it is committed again, at
the revision that it has. -/
def sampleRepeated : World :=
  let failed := { sampleRecord false with run := { (sampleRecord false).run with status := .failed } }
  let claimed := World.runAll .sample [(⟨1, none⟩, .create failed []),
    (⟨2, none⟩, .claimTransitions ⟨lit "w", 10, 5, 2⟩)] {}
  let lease := ((claimed.store.transitions (lit "r:1")).map TransitionState.leaseID).getD []
  World.runAll .sample [(⟨3, none⟩, .ackTransition ⟨lit "r:1", lease, lit "w"⟩),
    (⟨4, none⟩, .apply (lit "r") 1 ⟨failed, []⟩)] claimed

/-- The acknowledged entry is there again. -/
theorem acked_again : World.Reachable .sample sampleRepeated ∧ Acked sampleRepeated (lit "r:1") ∧
    (sampleRepeated.store.transitions (lit "r:1")).isSome = true := by
  refine ⟨(World.runAll_later _ _).trans (World.runAll_later _ _), ?_, by decide +kernel⟩
  exact ⟨_, mem_cons_of_mem _ mem_cons_self, by decide +kernel⟩

end Kernel
