/-
Execution fencing: at most one owner per Run, and no way back for a token that
lost its authority.

The authority over a Run is the epoch, the current lease and the quarantine
block kept by the Store.  `AuthorityChange` lists what a call can do to it; the
rest follows from three facts about every reachable Store (`AuthorityInv`): a
current lease names its own Run and carries the current epoch, a quarantined Run
has no current lease, and a Run that does not exist has no authority at all.
Nothing here depends on the clock: its readings may be arbitrary.

* **`execution_fencing`** — uniqueness, monotone epochs, no revival, and no
  unfenced commit to a Run that requires execution authority.
-/
import AgentRuntime.StoreRuns
import AgentRuntime.WordCounters

namespace Memory

open GoString Kernel Function World

variable {H : Hashing} {env : Env} {s s' : Store} {op : StoreOp} {res : op.Res} {id : GoString}
  {w w' : World} {a : MemoryExecutionState} {now : Time} {t l : ExecutionLease} {runID : GoString}

/-! ### What a call can do to the authority over a Run -/

/-- The changes of the authority over the Run `id`. -/
inductive AuthorityChange (s s' : Store) (id : GoString) (a : MemoryExecutionState) :
    MemoryExecutionState → Prop
  | same : AuthorityChange s s' id a a
  | created (hnew : s.records id = none) (hrec : s'.records id ≠ none) :
      AuthorityChange s s' id a { epoch := 1 }
  | acquired (lease : ExecutionLease) (hrec : s.records id ≠ none) (hclear : a.quarantineRev = 0)
      (hmax : a.epoch ≠ maxUint64) (hid : lease.runID = id) (hnext : lease.epoch = a.epoch + 1) :
      AuthorityChange s s' id a { a with epoch := lease.epoch, lease := lease }
  | renewed (expiresAt : Time) (hpos : 0 < a.epoch) (hlease : a.lease ≠ .zero) :
      AuthorityChange s s' id a { a with lease := { a.lease with expiresAt := expiresAt } }
  | released (hpos : 0 < a.epoch) : AuthorityChange s s' id a { a with lease := .zero }
  | revoked (hpos : 0 < a.epoch) (hmax : a.epoch ≠ maxUint64) :
      AuthorityChange s s' id a { a with epoch := a.epoch + 1, lease := .zero }
  | quarantined (v : ExecutionQuarantine) (hpos : a.epoch ≠ 0) (hmax : a.epoch ≠ maxUint64) :
      AuthorityChange s s' id a
        { epoch := a.epoch + 1, lease := .zero, quarantineRev := v.revision,
          quarantineGen := v.generation, quarantineCode := v.reason }
  | repaired (hrec : s.records id ≠ none) :
      AuthorityChange s s' id a { a with quarantineRev := 0, quarantineGen := 0, quarantineCode := [] }

/-- What an active lease has in common with the lease the Store keeps. -/
lemma activeMemoryLease_iff :
    activeMemoryLease a l now = true ↔ 0 < a.epoch ∧ a.lease.runID = l.runID ∧
      a.lease.ownerID = l.ownerID ∧ a.lease.leaseID = l.leaseID ∧ a.lease.epoch = l.epoch ∧
      now < a.lease.expiresAt := by
  simp [activeMemoryLease, and_assoc]

lemma lease_ne_zero
    (hvalid : validMemoryLease l = true) (hactive : activeMemoryLease a l now = true) :
    a.lease ≠ .zero := by
  intro hzero
  have hrun := (activeMemoryLease_iff.mp hactive).2.1
  rw [hzero] at hrun
  simp only [validMemoryLease, Bool.and_eq_true, decide_eq_true_eq] at hvalid
  exact hvalid.1.1.1.1 hrun.symm

lemma update_same_or {α : Type*} {f : GoString → α} {k id : GoString} {v : α} {P : α → Prop}
    (hsame : P (f id)) (hnew : k = id → P v) : P (update f k v id) := by
  by_cases hk : k = id
  · subst hk
    rw [update_self]
    exact hnew rfl
  · rwa [update_of_ne (Ne.symm hk)]

/-- Every call changes the authority over a Run in one of the listed ways. -/
lemma StoreStep.authority (h : StoreStep H env s op res s') (id : GoString) :
    AuthorityChange s s' id (s.execution id) (s'.execution id) := by
  cases h with
  | fail | load | listEvents | checkExecution | quarantineAgain | claimTransitions
  | ackTransition | retryTransition => exact .same
  | create r _ hnew =>
    rw [committed_execution]
    by_cases hne : id = r.run.id
    · subst hne
      show AuthorityChange _ _ _ _ (createdExecution s r r.run.id)
      rw [createdExecution_self]
      split
      · exact .created hnew (by simp)
      · exact .same
    · show AuthorityChange _ _ _ _ (createdExecution s r id)
      rw [createdExecution_of_ne hne]
      exact .same
  | apply | applyExecution =>
    rw [committed_execution]; exact .same
  | applyControl runID _ _ _ _ hne _ _ _ _ hmax =>
    rw [committed_execution]
    show AuthorityChange _ _ _ _ (revokedExecution s runID id)
    by_cases hne : id = runID
    · subst hne
      by_cases hpos : 0 < (s.execution id).epoch
      · rw [revokedExecution_self hpos]
        exact .revoked hpos hmax
      · rw [revokedExecution_idle hpos]
        exact .same
    · rw [revokedExecution_of_ne hne]
      exact .same
  | acquireExecution _ _ lease hrec _ hclear _ _ hmax hrunID hnext =>
    refine update_same_or .same ?_
    rintro rfl
    exact .acquired lease (by simp [hrec]) hclear hmax hrunID hnext
  | renewExecution _ hvalid hactive =>
    refine update_same_or .same ?_
    rintro rfl
    exact .renewed _ (activeMemoryLease_iff.mp hactive).1 (lease_ne_zero hvalid hactive)
  | releaseExecution _ _ hactive =>
    refine update_same_or .same ?_
    rintro rfl
    exact .released (activeMemoryLease_iff.mp hactive).1
  | quarantineExecution v _ _ _ _ _ hepoch _ hmax =>
    refine update_same_or .same ?_
    rintro rfl
    exact .quarantined v hepoch hmax
  | repairExecutionQuarantine _ _ hrec =>
    refine update_same_or .same ?_
    rintro rfl
    exact .repaired (by simp [hrec])

/-! ### The invariant -/

lemma lt_add_one_of_ne_max {e : UInt64} (h : e ≠ maxUint64) : e < e + 1 :=
  WordCounters.lt_add_one h

/-- What holds of the authority over `id` in every reachable Store. -/
structure AuthorityInv (s : Store) (id : GoString) : Prop where
  lease : (s.execution id).lease = .zero ∨
    (s.execution id).lease.runID = id ∧ (s.execution id).lease.epoch = (s.execution id).epoch
  blocked : (s.execution id).quarantineRev ≠ 0 → (s.execution id).lease = .zero
  idle : ¬ 0 < (s.execution id).epoch → (s.execution id).lease = .zero
  fresh : s.records id = none → s.execution id = {}

lemma StoreStep.records_ne_none (h : StoreStep H env s op res s') (hrec : s.records id ≠ none) :
    s'.records id ≠ none := by
  rw [h.records_eq]
  split
  · exact update_same_or (P := (· ≠ none)) hrec fun _ => by simp
  · exact hrec

lemma AuthorityInv.exists (h : AuthorityInv s id) (hpos : 0 < (s.execution id).epoch) :
    s.records id ≠ none := by
  intro hnone
  rw [h.fresh hnone] at hpos
  cases hpos

lemma AuthorityInv.step (h : AuthorityInv s id) (hs : StoreStep H env s op res s') :
    AuthorityInv s' id := by
  have hkeep : s'.records id = none → s.records id = none := fun hnone =>
    by_contra fun hne => hs.records_ne_none hne hnone
  -- whoever has an epoch exists, before and after the call
  have hexists : 0 < (s.execution id).epoch → s'.records id ≠ none :=
    fun hpos => hs.records_ne_none (h.exists hpos)
  have hzero : (s'.execution id).lease = .zero → s'.records id ≠ none → AuthorityInv s' id :=
    fun hz hrec => ⟨.inl hz, fun _ => hz, fun _ => hz, fun hnone => absurd hnone hrec⟩
  have hchange := hs.authority id
  generalize hb : s'.execution id = b at hchange
  cases hchange with
  | same => exact ⟨hb ▸ h.lease, hb ▸ h.blocked, hb ▸ h.idle, fun hnone => hb.trans (h.fresh (hkeep hnone))⟩
  | created _ hrec =>
    exact hzero (by rw [hb]) hrec
  | acquired _ hrec hclear hmax hid hnext =>
    refine ⟨.inr (by rw [hb]; exact ⟨hid, rfl⟩), ?_, ?_, fun hnone => absurd (hkeep hnone) hrec⟩
    · rw [hb]; exact absurd hclear
    rw [hb]
    intro hidle
    refine absurd (UInt64.lt_of_le_of_lt ?_ (lt_add_one_of_ne_max hmax)) (hnext ▸ hidle)
    exact UInt64.le_iff_toNat_le.mpr (Nat.zero_le _)
  | renewed _ hpos hlease =>
    have howned := h.lease.resolve_left hlease
    refine ⟨.inr (by rw [hb]; exact howned), ?_, ?_, fun hnone => absurd hnone (hexists hpos)⟩
    · rw [hb]; exact fun hne => absurd (h.blocked hne) hlease
    · rw [hb]; exact absurd hpos
  | released hpos | revoked hpos =>
    exact hzero (by rw [hb]) (hexists hpos)
  | quarantined _ hpos =>
    exact hzero (by rw [hb]) (hexists (UInt64.pos_iff_ne_zero.mpr hpos))
  | repaired hrec =>
    refine ⟨?_, ?_, ?_, fun hnone => absurd (hkeep hnone) hrec⟩
    · rw [hb]; exact h.lease
    · rw [hb]; exact absurd rfl
    · rw [hb]; exact h.idle

theorem AuthorityInv.reachable (h : World.Reachable H w) (id : GoString) :
    AuthorityInv w.store id :=
  World.invariant (P := fun w => AuthorityInv w.store id)
    ⟨.inl rfl, fun _ => rfl, fun _ => rfl, fun _ => rfl⟩ (fun _ hinv hs => hinv.step hs) h

lemma AuthorityInv.epoch_le (h : AuthorityInv s id) (hs : StoreStep H env s op res s') :
    (s.execution id).epoch ≤ (s'.execution id).epoch := by
  have hchange := hs.authority id
  generalize s'.execution id = b at hchange
  cases hchange with
  | same | renewed | released | repaired => exact UInt64.le_refl _
  | created hnew =>
    rw [h.fresh hnew]
    decide
  | acquired _ _ _ hmax _ hnext =>
    rw [hnext]
    exact UInt64.le_of_lt (lt_add_one_of_ne_max hmax)
  | revoked _ hmax | quarantined _ _ hmax => exact UInt64.le_of_lt (lt_add_one_of_ne_max hmax)

lemma epoch_le_of_later (hw : World.Reachable H w) (h : World.Later H w w') :
    (w.store.execution id).epoch ≤ (w'.store.execution id).epoch := by
  induction h with
  | refl => exact UInt64.le_refl _
  | tail hprev hlast ih =>
    obtain ⟨_, _, _, _, hs, rfl⟩ := hlast.cases
    exact UInt64.le_trans ih ((AuthorityInv.reachable (World.Later.reachable hprev hw) id).epoch_le hs)

/-! ### Tokens -/

/-- The stable identity of a lease; its expiry is not part of it. -/
def token (l : ExecutionLease) : GoString × UInt64 × GoString × GoString :=
  (l.runID, l.epoch, l.ownerID, l.leaseID)

/-- The leases that were handed out. -/
def World.issued (w : World) : List ExecutionLease :=
  w.log.filterMap fun call =>
    match call with
    | ⟨.acquireExecution _, .ok lease⟩ => some lease
    | _ => none

/-- The Store would still commit with `t`, check it or renew it. -/
def Honoured (s : Store) (now : Time) (t : ExecutionLease) : Prop :=
  (∃ rev m snap s', applyExecution s now t rev m = (.ok snap, s')) ∨
  (∃ runID, checkExecution s now runID (some t) = .ok ()) ∨
  ∃ d l s', renewExecution s now ⟨t, d⟩ = (.ok l, s')

lemma token_eq_of_active (h : activeMemoryLease a t now = true) : token a.lease = token t := by
  obtain ⟨-, hrun, howner, hlease, hepoch, -⟩ := activeMemoryLease_iff.mp h
  simp [token, hrun, howner, hlease, hepoch]

lemma checkExecution_ok (h : checkExecution s now runID (some t) = .ok ()) :
    t.runID = runID ∧ validMemoryLease t = true ∧ (s.execution runID).quarantineRev = 0 ∧
      activeMemoryLease (s.execution runID) t now = true ∧
      ∃ cur, s.records runID = some cur ∧ cur.run.status = .running := by
  simp only [checkExecution] at h
  split at h
  · simp at h
  split at h
  · simp at h
  rename_i cur hrec
  split_ifs at h with hterm hclear hvalid hrun hactive
  simp only [not_or, not_not, ne_eq] at hclear hvalid hrun
  exact ⟨hvalid.2, hvalid.1, hclear, hactive, cur, hrec, hrun⟩

/-- Only the token of the current lease is honoured. -/
theorem honoured_token (H : Hashing) (h : Honoured s now t) :
    token (s.execution t.runID).lease = token t ∧ (s.execution t.runID).lease ≠ .zero := by
  have hactive : validMemoryLease t = true ∧
      activeMemoryLease (s.execution t.runID) t now = true := by
    rcases h with ⟨rev, m, snap, s', h⟩ | ⟨_, h⟩ | ⟨d, l, s', h⟩
    · have hs : StoreStep H ⟨now, none⟩ s (.applyExecution t rev m) (.ok snap) s' :=
        applyExecution_sound h
      cases hs with
      | applyExecution _ _ _ _ hvalid _ _ _ _ hactive => exact ⟨hvalid, hactive⟩
    · obtain ⟨rfl, hvalid, -, hactive, -⟩ := checkExecution_ok h
      exact ⟨hvalid, hactive⟩
    have hs : StoreStep H ⟨now, none⟩ s (.renewExecution ⟨t, d⟩) (.ok l) s' :=
      renewExecution_sound h
    cases hs with
    | renewExecution _ hvalid hactive => exact ⟨hvalid, hactive⟩
  exact ⟨token_eq_of_active hactive.2, lease_ne_zero hactive.1 hactive.2⟩

/-- `t` has been fenced off: its epoch is not in the future, and it is not the
token of the current lease. -/
def Retired (s : Store) (t : ExecutionLease) : Prop :=
  t.epoch ≤ (s.execution t.runID).epoch ∧ ((s.execution t.runID).lease = .zero ∨
    token (s.execution t.runID).lease ≠ token t)

lemma Retired.not_honoured (H : Hashing) (h : Retired s t) : ¬ Honoured s now t := by
  intro hh
  obtain ⟨htoken, hne⟩ := honoured_token H hh
  rcases h.2 with hzero | hother
  · exact hne hzero
  · exact hother htoken

lemma Retired.step (h : Retired s t) (hinv : AuthorityInv s t.runID)
    (hs : StoreStep H env s op res s') : Retired s' t := by
  have hle : t.epoch ≤ (s'.execution t.runID).epoch := UInt64.le_trans h.1 (hinv.epoch_le hs)
  refine ⟨hle, ?_⟩
  have hchange := hs.authority t.runID
  generalize s'.execution t.runID = b at hchange
  cases hchange with
  | same | repaired => exact h.2
  | created | released | revoked | quarantined => exact .inl rfl
  | acquired lease _ _ hmax _ hnext =>
    -- the new lease carries an epoch that did not exist when `t` was fenced off
    refine .inr fun htoken => ?_
    have hepoch : lease.epoch = t.epoch := congrArg (fun x => x.2.1) htoken
    have hlt := lt_add_one_of_ne_max hmax
    rw [← hnext, hepoch] at hlt
    exact absurd h.1 (UInt64.not_le.mpr hlt)
  | renewed _ _ hlease => exact .inr (h.2.resolve_left hlease)

theorem Retired.later (h : Retired w.store t) (hw : World.Reachable H w)
    (hl : World.Later H w w') : Retired w'.store t := by
  induction hl with
  | refl => exact h
  | tail hprev hlast ih =>
    obtain ⟨_, _, _, _, hs, rfl⟩ := hlast.cases
    exact ih.step (AuthorityInv.reachable (World.Later.reachable hprev hw) t.runID) hs

lemma issued_epoch_le (hw : World.Reachable H w) :
    ∀ l ∈ w.issued, l.epoch ≤ (w.store.execution l.runID).epoch := by
  refine invariant
    (P := fun w => ∀ l ∈ w.issued, l.epoch ≤ (w.store.execution l.runID).epoch) ?_ ?_ hw
  · exact fun l hl => absurd hl (by simp [issued])
  intro w _ op _ s' hreach hinv hs
  have hold : ∀ l ∈ w.issued, l.epoch ≤ (s'.execution l.runID).epoch := fun l hl =>
    UInt64.le_trans (hinv l hl) ((AuthorityInv.reachable hreach l.runID).epoch_le hs)
  intro l hl
  cases hs with
  | acquireExecution _ _ _ _ _ _ _ _ _ hrunID =>
    rcases List.mem_cons.mp hl with rfl | hl
    · simp only [hrunID, update_self]
      exact UInt64.le_refl _
    · exact hold l hl
  | fail op => cases op <;> exact hold l hl
  | _ => exact hold l hl

/-! ### The fencing theorem -/

/-- The calls that take its authority from the token `t`: its release, a later
acquisition, a committed control, a quarantine. -/
inductive Retires (H : Hashing) (t : ExecutionLease) (w : World) : World → Prop
  | released {env : Env} {l : ExecutionLease} {w' : World} (htoken : token l = token t)
      (h : w.perform H env (.releaseExecution l) = (.ok (), w')) : Retires H t w w'
  | takenOver {env : Env} {r : ExecutionAcquireRequest} {l : ExecutionLease} {w' : World}
      (hissued : ∃ l ∈ w.issued, token l = token t) (hrun : r.runID = t.runID)
      (h : w.perform H env (.acquireExecution r) = (.ok l, w')) : Retires H t w w'
  | controlled {env : Env} {rev : UInt64} {g : ControlGuard} {m : StoreMutation}
      {out : Snapshot × Bool} {w' : World} (hissued : ∃ l ∈ w.issued, token l = token t)
      (h : w.perform H env (.applyControl t.runID rev g m) = (.ok out, w')) : Retires H t w w'
  | quarantined {env : Env} {v : ExecutionQuarantine} {w' : World}
      (hissued : ∃ l ∈ w.issued, token l = token t) (hrun : v.runID = t.runID)
      (h : w.perform H env (.quarantineExecution v) = (.ok (), w')) : Retires H t w w'

/-- The Run `id` was created with `ExecutionRequired`. -/
def World.Fenced (w : World) (id : GoString) : Prop :=
  ∃ r events snap, r.executionRequired = true ∧ r.run.id = id ∧
    (⟨.create r events, .ok snap⟩ : Call) ∈ w.log

lemma issued_token_epoch_le (hw : World.Reachable H w)
    (hissued : ∃ l ∈ w.issued, token l = token t) :
    t.epoch ≤ (w.store.execution t.runID).epoch := by
  obtain ⟨l, hl, htoken⟩ := hissued
  have hrun : l.runID = t.runID := congrArg (fun x => x.1) htoken
  have hepoch : l.epoch = t.epoch := congrArg (fun x => x.2.1) htoken
  rw [← hrun, ← hepoch]
  exact issued_epoch_le hw l hl

lemma Retires.retired (hw : World.Reachable H w) (h : Retires H t w w') : Retired w'.store t := by
  have hinv := AuthorityInv.reachable hw t.runID
  cases h with
  | @released _ l w' htoken h =>
    have hs := perform_sound h
    have hrun : l.runID = t.runID := congrArg (fun x => x.1) htoken
    have hepoch : l.epoch = t.epoch := congrArg (fun x => x.2.1) htoken
    have hle := hinv.epoch_le hs
    generalize w'.store = s' at hs hle ⊢
    cases hs with
    | releaseExecution _ hvalid hactive =>
      have hzero : (w.store.execution l.runID).lease ≠ .zero := lease_ne_zero hvalid hactive
      rw [hrun] at hzero hactive
      have hcur := (hinv.lease.resolve_left hzero).2
      rw [(activeMemoryLease_iff.mp hactive).2.2.2.2.1, hepoch] at hcur
      refine ⟨UInt64.le_trans (UInt64.le_of_eq hcur) hle, .inl ?_⟩
      simp [hrun]
  | @takenOver _ _ l w' hissued hrun h =>
    have hs := perform_sound h
    have hle := issued_token_epoch_le hw hissued
    generalize w'.store = s' at hs ⊢
    cases hs with
    | acquireExecution _ _ _ _ _ _ _ _ hmax _ hnext =>
      rw [hrun] at hmax hnext
      have hlt : t.epoch < l.epoch := by
        rw [hnext]
        exact UInt64.lt_of_le_of_lt hle (lt_add_one_of_ne_max hmax)
      refine ⟨?_, .inr ?_⟩
      · simp only [hrun, update_self]
        exact UInt64.le_of_lt hlt
      simp only [hrun, update_self]
      intro htoken
      have hepoch' : l.epoch = t.epoch := congrArg (fun x => x.2.1) htoken
      rw [hepoch'] at hlt
      exact UInt64.lt_irrefl _ hlt
  | @controlled _ _ _ _ _ w' hissued h =>
    have hs := perform_sound h
    have hle := issued_token_epoch_le hw hissued
    have hgrow := hinv.epoch_le hs
    refine ⟨UInt64.le_trans hle hgrow, ?_⟩
    generalize w'.store = s' at hs ⊢
    cases hs with
    | applyControl =>
      rw [committed_execution]
      by_cases hpos : 0 < (w.store.execution t.runID).epoch
      · exact .inl (congrArg MemoryExecutionState.lease (revokedExecution_self hpos))
      -- a Run without an epoch has no lease to revoke
      refine .inl ?_
      show (revokedExecution w.store t.runID t.runID).lease = .zero
      rw [revokedExecution_idle hpos]
      exact hinv.idle hpos
  | @quarantined _ _ w' hissued hrun h =>
    have hs := perform_sound h
    have hle := issued_token_epoch_le hw hissued
    have hgrow := hinv.epoch_le hs
    refine ⟨UInt64.le_trans hle hgrow, .inl ?_⟩
    generalize w'.store = s' at hs ⊢
    cases hs with
    | quarantineAgain _ _ _ _ _ _ hblocked =>
      exact hinv.blocked (hrun ▸ hblocked)
    | quarantineExecution =>
      simp [hrun]

lemma fenced_epoch_pos (hw : World.Reachable H w) (hf : w.Fenced id) :
    0 < (w.store.execution id).epoch := by
  refine invariant (P := fun w => w.Fenced id → 0 < (w.store.execution id).epoch) ?_ ?_ hw hf
  · rintro ⟨r, _, _, -, -, hmem⟩
    simp at hmem
  rintro w _ _ _ _ hreach hinv hs ⟨r, events, snap, hreq, hid, hmem⟩
  rcases List.mem_cons.mp hmem with hnow | hbefore
  · -- the Run is created by this very call
    obtain ⟨rfl, hres⟩ := Call.mk.inj hnow
    obtain rfl := eq_of_heq hres
    subst hid
    cases hs with
    | create =>
      rw [committed_execution]
      show 0 < (createdExecution w.store r r.run.id).epoch
      rw [createdExecution_self, if_pos hreq]
      decide
  · exact UInt64.lt_of_lt_of_le (hinv ⟨r, events, snap, hreq, hid, hbefore⟩)
      ((AuthorityInv.reachable hreach id).epoch_le hs)

/-- The unfenced `Apply` leaves a fenced Run alone. -/
lemma apply_keeps_fenced (hpos : 0 < (s.execution id).epoch) {rev : UInt64}
    {m : StoreMutation} {res : Except KernelError Snapshot} (h : apply s runID rev m = (res, s')) :
    s'.records id = s.records id ∧ s'.events id = s.events id ∧
      s'.execution id = s.execution id := by
  have hs : StoreStep ⟨fun _ _ => none, fun _ _ => none, fun _ => List.replicate 32 0, by simp⟩
      ⟨0, none⟩ s (.apply runID rev m) res s' := apply_sound h
  cases hs with
  | fail => exact ⟨rfl, rfl, rfl⟩
  | apply _ _ _ _ hepoch =>
    have hne : id ≠ runID := by
      rintro rfl
      rw [hepoch] at hpos
      cases hpos
    simp [update_of_ne hne]

/-- **Execution fencing.**  In every reachable world: at most one token per Run
is honoured; epochs never decrease, and a new lease has a larger epoch than every
lease handed out before for its Run; a token whose authority was taken is never
honoured again; and an unfenced `Apply` changes nothing of a Run that was created
with `ExecutionRequired`. -/
theorem execution_fencing (H : Hashing) (w : World) (hw : World.Reachable H w) :
    (∀ now now' t t', t.runID = t'.runID → Honoured w.store now t → Honoured w.store now' t' →
      token t = token t') ∧
    (∀ w', World.Later H w w' → ∀ id,
      (w.store.execution id).epoch ≤ (w'.store.execution id).epoch) ∧
    (∀ env r lease w', w.perform H env (.acquireExecution r) = (.ok lease, w') →
      ∀ l ∈ w.issued, l.runID = lease.runID → l.epoch < lease.epoch) ∧
    (∀ t w' w'' now, Retires H t w w' → World.Later H w' w'' → ¬ Honoured w''.store now t) ∧
    (∀ id env runID rev m res w', w.Fenced id →
      w.perform H env (.apply runID rev m) = (res, w') →
      w'.store.records id = w.store.records id ∧ w'.store.events id = w.store.events id ∧
        w'.store.execution id = w.store.execution id) := by
  refine ⟨?_, ?_, ?_, ?_, ?_⟩
  · intro _ _ t _ hrun ht ht'
    have h := (honoured_token H ht).1
    have h' := (honoured_token H ht').1
    rw [hrun] at h
    exact h.symm.trans h'
  · intro _ hl _
    exact epoch_le_of_later hw hl
  · intro _ r _ w' h l hl hrun
    have hs := World.perform_sound h
    generalize w'.store = s' at hs
    cases hs with
    | acquireExecution _ _ _ _ _ _ _ _ hmax hrunID hnext =>
      have hle := issued_epoch_le hw l hl
      rw [hrun, hrunID] at hle
      rw [hnext]
      exact UInt64.lt_of_le_of_lt hle (lt_add_one_of_ne_max hmax)
  · intro t w' _ _ hr hl
    have hstep : World.Step H w w' := by
      cases hr with
      | released _ h | takenOver _ _ h | controlled _ h | quarantined _ _ h =>
        exact ⟨_, _, congrArg Prod.snd h.symm⟩
    exact ((hr.retired hw).later (hw.tail hstep) hl).not_honoured H
  · intro _ _ _ _ m _ _ hf h
    cases h
    exact apply_keeps_fenced (fenced_epoch_pos hw hf) rfl

/-- A fenced Run is created and its execution acquired. -/
def sampleAcquired : World :=
  World.runAll .sample
    [(⟨1, none⟩, .create (sampleRecord true) []),
     (⟨2, some fun _ => 7⟩, .acquireExecution ⟨lit "r", lit "o", millisecond⟩)] {}

/-- The lease of that acquisition. -/
def sampleLease : ExecutionLease :=
  ⟨lit "r", lit "o", hexEncode (List.replicate 16 7), 2, millisecond + 2⟩

/-- After its release the lease is dead, whatever the next owner does. -/
theorem execution_fencing_released :
    Honoured sampleAcquired.store 3 sampleLease ∧
    ¬ Honoured (sampleAcquired.runAll .sample
      [(⟨3, none⟩, .releaseExecution sampleLease),
       (⟨4, some fun _ => 8⟩, .acquireExecution ⟨lit "r", lit "o", millisecond⟩)]).store
      5 sampleLease := by
  have hreach : World.Reachable .sample sampleAcquired := World.runAll_later _ _
  have hrelease : sampleAcquired.perform .sample ⟨3, none⟩ (.releaseExecution sampleLease) =
      (.ok (), sampleAcquired.runAll .sample [(⟨3, none⟩, .releaseExecution sampleLease)]) :=
    Prod.ext rfl rfl
  refine ⟨.inr (.inl ⟨lit "r", by rfl⟩), ?_⟩
  exact (execution_fencing .sample sampleAcquired hreach).2.2.2.1 sampleLease _ _ 5
    (.released rfl hrelease)
    (World.runAll_later [(⟨4, some fun _ => 8⟩, .acquireExecution ⟨lit "r", lit "o", millisecond⟩)] _)

end Memory
