/-
Shared budget ceilings hold under contention
(`budget/ledger.go`, `budget/receipt_transfer.go`, `budget/memory_ledger.go`).

Every entry of the history of a ledger was computed from an earlier entry, so a
property of ledgers that every round of every method keeps holds of all of them, no
matter how the Coordinators interleave.  Rounds come in three kinds: those after
which no scope is charged more and no slot is taken (`Lighter`), those that write
one admitted reservation (`Ceilings.withReservation`), and the registration of a Run
(`Ceilings.withRun`).

* **`budget_ceilings`** — they hold in every reachable ledger, and no sum overflows.
-/
import AgentRuntime.BudgetCoordinator
import AgentRuntime.LedgerTotals

namespace Budget

open GoString FiniteMap List

variable {L L' : Ledger} {order : RangeOrder} {s id runID x : GoString} {r : Reservation}
  {binding : RunBudget} {c : Change}

/-! ### The property -/

/-- The ceilings of all scopes of a ledger, and room for the sums. -/
structure Ceilings (L : Ledger) : Prop where
  metered : ∀ s, L.IsScope s → ∀ p ∈ metered, L.limitsOf s p.1 ≠ 0 →
    L.occupied s p.2 ≤ L.limitsOf s p.1
  running : ∀ s, L.IsScope s → L.limitsOf s .concurrentRuns ≠ 0 →
    ((L.activeRuns s).card : ℤ) ≤ L.limitsOf s .concurrentRuns
  descendants : ∀ s, L.IsScope s → L.limitsOf s .concurrentDescendants ≠ 0 →
    (L.unfinishedDescendants s : ℤ) ≤ L.limitsOf s .concurrentDescendants
  room : ∀ m, L.occupied [] m ≤ maxInt

/-- Nothing is settled for more than was requested, in the ledger in which the method
does its work. -/
def Change.Affordable (L : Ledger) : Change → Prop
  | settle id usage _ => ∀ r ∈ L.reservations.lookup id, usage ≤ r.requested
  | settleWithReceipts id usage _ related => ∀ r ∈ L.reservations.lookup id,
      usage + (related.map Reservation.requested).sum ≤ r.requested
  | _ => True

instance (u v : Usage) : Decidable (u ≤ v) := inferInstanceAs (Decidable (∀ m, u m ≤ v m))

instance (L : Ledger) : (c : Change) → Decidable (c.Affordable L)
  | .settle id usage _ =>
    inferInstanceAs (Decidable (∀ r ∈ L.reservations.lookup id, usage ≤ r.requested))
  | .settleWithReceipts id usage _ related =>
    inferInstanceAs (Decidable (∀ r ∈ L.reservations.lookup id,
      usage + (related.map Reservation.requested).sum ≤ r.requested))
  | .registerRun _ _ | .finishRuns _ | .reserve _ _ | .dispatch _ | .requeueProvenUnsent _ _
  | .suspend _ | .release _ | .cancel | .cancelRun _ => inferInstanceAs (Decidable True)

/-- A save by a call that meets what is assumed of the callers. -/
def LedgerWrite.Moderate (write : LedgerWrite) : Prop :=
  ∀ change ∈ write.change, change.CallerIDs ∧ change.Affordable write.before

instance : DecidablePred LedgerWrite.Moderate := fun write =>
  inferInstanceAs (Decidable (∀ change ∈ write.change, _ ∧ change.Affordable write.before))

/-! ### Rounds that charge nothing -/

/-- No scope is charged more, no slot is taken, and no Run is registered. -/
structure Lighter (L' L : Ledger) : Prop where
  runs : L'.runs = L.runs
  limits : L'.limits = L.limits
  finished : L.finishedRuns ⊆ L'.finishedRuns
  occupied : ∀ s, L'.occupied s ≤ L.occupied s
  slots : ∀ s, L'.activeRuns s ⊆ L.activeRuns s

lemma contains_of_runs (h : L'.runs = L.runs) : L'.contains s runID = L.contains s runID := by
  have hparent : L'.parentOf = L.parentOf := by
    funext x
    simp [Ledger.parentOf, h]
  have hlineage : L'.lineage runID = L.lineage runID := by
    simp [Ledger.lineage, hparent, h]
  unfold Ledger.contains
  rw [hlineage]

lemma Lighter.unfinished_le (h : Lighter L' L) :
    L'.unfinishedDescendants s ≤ L.unfinishedDescendants s := by
  unfold Ledger.unfinishedDescendants
  rw [h.runs]
  refine countP_mono_left fun e _ he => ?_
  simp only [Ledger.isUnfinished, Bool.and_eq_true, decide_eq_true_eq,
    contains_of_runs h.runs] at he ⊢
  exact ⟨⟨he.1.1, fun hmem => he.1.2 (h.finished hmem)⟩, he.2⟩

lemma Ceilings.lighter (h : Ceilings L) (hl : Lighter L' L) : Ceilings L' := by
  have hscope : ∀ s, L'.IsScope s → L.IsScope s := fun s hs => by
    rwa [Ledger.IsScope, hl.runs] at hs
  have hlimits : ∀ s, L'.limitsOf s = L.limitsOf s := fun s => by
    simp [Ledger.limitsOf, hl.runs, hl.limits]
  refine ⟨fun s hs p hp hlimit => ?_, fun s hs hlimit => ?_, fun s hs hlimit => ?_, fun m => ?_⟩
  · rw [hlimits] at hlimit ⊢
    exact (hl.occupied s p.2).trans (h.metered s (hscope s hs) p hp hlimit)
  · rw [hlimits] at hlimit ⊢
    have hcard := Finset.card_le_card (hl.slots s)
    have hold := h.running s (hscope s hs) hlimit
    omega
  · rw [hlimits] at hlimit ⊢
    have hcount := hl.unfinished_le (s := s)
    have hold := h.descendants s (hscope s hs) hlimit
    omega
  · exact (hl.occupied [] m).trans (h.room m)

/-- Writing one reservation that takes no more than what it replaces. -/
theorem Lighter.withReservation
    (hcharge : ∀ s, L.charge s r + (L.withoutReservation id).occupied s ≤ L.occupied s)
    (hslot : ∀ s x, L.slot s r = some x → x ∈ L.activeRuns s) :
    Lighter (L.withReservation id r) L where
  runs := rfl
  limits := rfl
  finished := Finset.Subset.refl _
  occupied s := Ledger.occupied_withReservation.trans_le (hcharge s)
  slots s x hx := by
    rcases Ledger.mem_activeRuns_withReservation.mp hx with hself | hrest
    · exact hslot s x hself
    · exact Ledger.activeRuns_withoutReservation_subset hrest

lemma charge_of_open (hheld : r.status ≠ .held) (hsettled : r.status ≠ .settled) :
    L.charge s r = 0 := by
  simp [Ledger.charge, Ledger.settledAmount, Ledger.heldAmount, hheld, hsettled]

lemma charge_of_not_contains (h : L.contains s r.runID = false) : L.charge s r = 0 := by
  simp [Ledger.charge, Ledger.settledAmount, Ledger.heldAmount, h]

lemma charge_of_held (hheld : r.status = .held) (h : L.contains s r.runID = true) :
    L.charge s r = r.requested := by
  simp [Ledger.charge, Ledger.settledAmount, Ledger.heldAmount, h, hheld]

lemma charge_of_settled (hsettled : r.status = .settled) (h : L.contains s r.runID = true) :
    L.charge s r = r.usage := by
  simp [Ledger.charge, Ledger.settledAmount, Ledger.heldAmount, h, hsettled]

lemma slot_eq_some : L.slot s r = some x ↔
    L.contains s r.runID = true ∧ r.status = .held ∧ r.active = true ∧ r.runID = x := by
  unfold Ledger.slot
  split_ifs with hguard
  · simp only [Bool.and_eq_true, decide_eq_true_eq] at hguard
    simp [hguard]
  simp only [Bool.and_eq_true, decide_eq_true_eq] at hguard
  tauto

lemma Touch.lighter {old new : Reservation} (hsound : Sound L)
    (hold : L.reservations.lookup id = some old) (htouch : Touch L c id old new)
    (hafford : c.Affordable L) : Lighter (L.withReservation id new) L := by
  have hactive : ∀ s x, L.slot s old = some x → x ∈ L.activeRuns s :=
    fun s x hslot => Ledger.mem_activeRuns.mpr ⟨id, old, hold, hslot⟩
  refine Lighter.withReservation (fun s => ?_) (fun s x hslot => ?_)
  · rw [Ledger.occupied_of_lookup hold]
    refine add_le_add_left ?_ _
    have hnonneg : 0 ≤ L.charge s old := (hsound.fits id old hold).charge_nonneg
    cases htouch with
    | kept | dispatch | suspend => exact le_refl _
    | requeue | release =>
      exact le_of_eq_of_le (charge_of_open (by simp) (by simp)) hnonneg
    | settle hheld =>
      cases hcontains : L.contains s old.runID with
      | false => exact le_of_eq_of_le (charge_of_not_contains hcontains) hnonneg
      | true =>
        rw [charge_of_held hheld hcontains]
        exact le_of_eq_of_le (charge_of_settled rfl hcontains) (hafford old hold)
  · obtain ⟨hcontains, hheld, hon, rfl⟩ := slot_eq_some.mp hslot
    cases htouch with
    | kept => exact hactive s _ hslot
    | dispatch => exact hactive s _ (slot_eq_some.mpr ⟨hcontains, hheld, hon, rfl⟩)
    | requeue | suspend | settle | release => cases hon

lemma Lighter.mapReservations (hsound : Sound L) {g : Reservation → Reservation}
    (hg : ∀ r, g r = r ∨ ((g r).status = .released ∧ (g r).active = false ∧ r.status ≠ .settled))
    {cancelled : Bool} {cancelledRuns : Finset GoString} :
    Lighter { L with
      cancelled := cancelled, cancelledRuns := cancelledRuns
      reservations := mapValues g L.reservations } L where
  runs := rfl
  limits := rfl
  finished := Finset.Subset.refl _
  occupied s := by
    show total (L.charge s) (mapValues g L.reservations) ≤ _
    rw [total_mapValues]
    refine total_le fun id r hlookup => ?_
    rcases hg r with heq | ⟨hreleased, -, -⟩
    · exact le_of_eq (congrArg (L.charge s) heq)
    have hzero : L.charge s (g r) = 0 :=
      charge_of_open (by rw [hreleased]; nofun) (by rw [hreleased]; nofun)
    exact hzero.trans_le (hsound.fits id r hlookup).charge_nonneg
  slots s x hx := by
    obtain ⟨id, r, hlookup, hslot⟩ := Ledger.mem_activeRuns.mp hx
    have hmap : (L.reservations.lookup id).map g = some r := (lookup_mapValues g).symm.trans hlookup
    obtain ⟨old, hold, rfl⟩ := Option.map_eq_some_iff.mp hmap
    rcases hg old with heq | ⟨-, hinactive, -⟩
    · rw [heq] at hslot
      exact Ledger.mem_activeRuns.mpr ⟨id, old, hold, hslot⟩
    have hon : (g old).active = true := (slot_eq_some.mp hslot).2.2.1
    rw [hinactive] at hon
    cases hon

lemma releaseUnsent_released (r : Reservation) : Ledger.releaseUnsent r = r ∨
    ((Ledger.releaseUnsent r).status = .released ∧ (Ledger.releaseUnsent r).active = false ∧
      r.status ≠ .settled) := by
  rcases releaseUnsent_cases r with heq | ⟨-, hopen, heq⟩
  · exact .inl heq
  · rw [heq]
    exact .inr ⟨rfl, rfl, hopen⟩

/-! ### Transferred receipts -/

section Transfer

variable {seen : List GoString} {related : List Reservation} {m m' : Map GoString Reservation}

lemma Related.charge_le (h : Related runID seen r) :
    L.charge x r ≤ if L.contains x runID then r.requested else 0 := by
  rw [← h.run]
  cases hcontains : L.contains x r.runID with
  | false => exact (charge_of_not_contains hcontains).le
  | true =>
    rcases h.status with hheld | hsettled
    · exact (charge_of_held hheld hcontains).le
    · rw [charge_of_settled hsettled hcontains, h.usage]
      exact h.requested.nonneg

/-- The receipts charge at most what they request together. -/
lemma Transferred.total_le (h : Transferred runID seen related m m')
    {runs : Map GoString RunBudget} (hrun : runID ∈ runs)
    (hm : ∀ id r, m.lookup id = some r → Fits runs id r) :
    total (L.charge s) m' ≤ total (L.charge s) m +
      if L.contains s runID then (related.map Reservation.requested).sum else 0 := by
  induction h with
  | done => simp
  | @skip _ _ _ _ _ _ hrelated _ _ _ ih =>
    refine (ih hm).trans (add_le_add_right ?_ _)
    split_ifs
    · rw [map_cons]
      exact le_add_of_nonneg_left hrelated.requested.nonneg
    · exact le_refl _
  | @write _ related r m _ hrelated _ _ ih =>
    have herase : total (L.charge s) (m.erase r.id) ≤ total (L.charge s) m :=
      total_erase_le fun id r' hlookup => (hm id r' hlookup).charge_nonneg
    have hcharge := hrelated.charge_le (L := L) (x := s)
    have hrest := ih (hrelated.fits hrun hm)
    cases hcontains : L.contains s runID with
    | false =>
      simp only [hcontains, Bool.false_eq_true, if_false, add_zero] at hcharge hrest ⊢
      exact hrest.trans (add_le_of_nonpos_of_le hcharge herase)
    | true =>
      simp only [hcontains, if_true, map_cons, sum_cons] at hcharge hrest ⊢
      calc total (L.charge s) _
          ≤ L.charge s r + total (L.charge s) (m.erase r.id) +
              (related.map Reservation.requested).sum := hrest
        _ ≤ r.requested + total (L.charge s) m + (related.map Reservation.requested).sum :=
            add_le_add_left (add_le_add hcharge herase) _
        _ = total (L.charge s) m + (r.requested + (related.map Reservation.requested).sum) := by
            rw [add_comm r.requested, add_assoc]

/-- No slot is taken: receipts are never active. -/
lemma Transferred.slots (h : Transferred runID seen related m m')
    (hslot : m'.lookup id = some r ∧ L.slot s r = some x) :
    m.lookup id = some r := by
  induction h with
  | done => exact hslot.1
  | skip _ _ _ _ ih => exact ih hslot
  | write hrelated _ _ ih =>
    rcases lookup_insert_cases (ih hslot) with ⟨-, rfl⟩ | ⟨-, hold⟩
    · have hon := (slot_eq_some.mp hslot.2).2.2.1
      rw [hrelated.inactive] at hon
      cases hon
    · exact hold

/-- Settling with receipts charges no more than what was held. -/
lemma Transferred.lighter {current : Reservation} {usage : Usage} {receipt : GoString}
    (hsound : Sound L) (hcurrent : L.reservations.lookup id = some current)
    (hheld : current.status = .held)
    (htransfer : Transferred current.runID [id] related L.reservations m)
    (hmoderate : usage + (related.map Reservation.requested).sum ≤ current.requested) :
    Lighter { L with
      reservations := m.insert id { current with
        status := .settled, active := false, usage := usage, receipt := receipt } } L where
  runs := rfl
  limits := rfl
  finished := Finset.Subset.refl _
  occupied s := by
    have hrun := (hsound.fits id current hcurrent).run
    have htotal := htransfer.total_le (L := L) (s := s) hrun hsound.fits
    have hid : m.lookup id = some current :=
      (htransfer.lookup_seen mem_cons_self).trans hcurrent
    rw [total_of_lookup hid] at htotal
    show total (L.charge s) (m.insert id _) ≤ total (L.charge s) L.reservations
    rw [total_insert]
    cases hcontains : L.contains s current.runID with
    | false =>
      simp only [hcontains, Bool.false_eq_true, if_false, add_zero] at htotal
      rw [charge_of_not_contains hcontains] at htotal
      have hcharge : L.charge s { current with
          status := .settled, active := false, usage := usage, receipt := receipt } = 0 :=
        charge_of_not_contains hcontains
      rwa [hcharge]
    | true =>
      simp only [hcontains, if_true, charge_of_held hheld hcontains] at htotal
      have hcharge : L.charge s { current with
          status := .settled, active := false, usage := usage, receipt := receipt } = usage :=
        charge_of_settled rfl hcontains
      rw [hcharge]
      -- what the receipts may add was part of the request that is settled
      refine le_of_add_le_add_right (a := (related.map Reservation.requested).sum) ?_
      calc usage + total (L.charge s) (m.erase id) + (related.map Reservation.requested).sum
          = usage + (related.map Reservation.requested).sum + total (L.charge s) (m.erase id) :=
            add_right_comm _ _ _
        _ ≤ current.requested + total (L.charge s) (m.erase id) := add_le_add_left hmoderate _
        _ ≤ total (L.charge s) L.reservations + (related.map Reservation.requested).sum := htotal
  slots s x hx := by
    obtain ⟨id', r', hlookup, hslot⟩ := Ledger.mem_activeRuns.mp hx
    rcases lookup_insert_cases hlookup with ⟨-, rfl⟩ | ⟨-, hold⟩
    · have hon := (slot_eq_some.mp hslot).2.2.1
      cases hon
    · exact Ledger.mem_activeRuns.mpr ⟨id', r', htransfer.slots ⟨hold, hslot⟩, hslot⟩

end Transfer

/-! ### Admitted reservations -/

/-- Writing one reservation that was admitted without itself. -/
theorem Ceilings.withReservation (hsound : Sound L) (h : Ceilings L) {requested : Usage}
    {active : Bool} (hadmission : ∀ s, L.contains s r.runID = true →
      Admitted (L.withoutReservation id) r.runID requested active s)
    (hcharge : ∀ s, L.contains s r.runID = true → L.charge s r ≤ requested)
    (hactive : r.active = true → active = true) : Ceilings (L.withReservation id r) := by
  -- a scope without the Run is only relieved of what was there before
  have houtside : ∀ s, L.contains s r.runID = false →
      (L.withReservation id r).occupied s ≤ L.occupied s := fun s hs => by
    rw [Ledger.occupied_withReservation, charge_of_not_contains hs, zero_add]
    exact hsound.occupied_withoutReservation_le
  have hinside : ∀ s, L.contains s r.runID = true → (L.withReservation id r).occupied s ≤
      (L.withoutReservation id).occupied s + requested := fun s hs => by
    rw [Ledger.occupied_withReservation, add_comm]
    exact add_le_add_right (hcharge s hs) _
  refine ⟨fun s hs p hp hlimit => ?_, fun s hs hlimit => ?_, h.descendants, fun m => ?_⟩
  · cases hcontains : L.contains s r.runID with
    | false => exact (houtside s hcontains p.2).trans (h.metered s hs p hp hlimit)
    | true => exact (hinside s hcontains p.2).trans ((hadmission s hcontains).metered p hp hlimit)
  · have hold : ((L.activeRuns s).card : ℤ) ≤ L.limitsOf s .concurrentRuns := h.running s hs hlimit
    have hbare := Finset.card_le_card
      (Ledger.activeRuns_withoutReservation_subset : (L.withoutReservation id).activeRuns s ⊆ _)
    show (((L.withReservation id r).activeRuns s).card : ℤ) ≤ L.limitsOf s .concurrentRuns
    cases hslot : L.slot s r with
    | none =>
      have hsame : (L.withReservation id r).activeRuns s ⊆ (L.withoutReservation id).activeRuns s := by
        intro x hx
        rcases Ledger.mem_activeRuns_withReservation.mp hx with hself | hrest
        · rw [hslot] at hself
          cases hself
        · exact hrest
      have hcard := Finset.card_le_card hsame
      omega
    | some x =>
      obtain ⟨hcontains, _, hon, rfl⟩ := slot_eq_some.mp hslot
      have hinsert : (L.withReservation id r).activeRuns s ⊆
          insert r.runID ((L.withoutReservation id).activeRuns s) := by
        intro x hx
        rcases Ledger.mem_activeRuns_withReservation.mp hx with hself | hrest
        · rw [hslot] at hself
          cases hself
          exact Finset.mem_insert_self _ _
        · exact Finset.mem_insert_of_mem hrest
      rcases (hadmission s hcontains).running (hactive hon) hlimit with hthere | hfree
      · -- the Run has a slot already
        have hmem : r.runID ∈ (L.withoutReservation id).activeRuns s := by
          simp only [Ledger.active, any_eq_true, Bool.and_eq_true, decide_eq_true_eq] at hthere
          obtain ⟨e, he, ⟨hrun, hon'⟩, hcontains'⟩ := hthere
          have hlookup := mem_entries.mp he
          have hfits := hsound.withoutReservation.fits e.1 e.2 hlookup
          exact Ledger.mem_activeRuns.mpr ⟨e.1, e.2, hlookup,
            slot_eq_some.mpr ⟨hcontains', hfits.active hon', hon', hrun⟩⟩
        rw [Finset.insert_eq_self.mpr hmem] at hinsert
        have hcard := Finset.card_le_card hinsert
        omega
      · have hcard := Finset.card_le_card hinsert
        have hadd := Finset.card_insert_le r.runID ((L.withoutReservation id).activeRuns s)
        have hfree' : (((L.withoutReservation id).activeRuns s).card : ℤ) <
          L.limitsOf s .concurrentRuns := hfree
        omega
  · exact (hinside [] Ledger.contains_nil m).trans ((hadmission [] Ledger.contains_nil).room m)

/-! ### Registering a Run -/

section Register

variable (hsound : Sound L) (hnew : runID ∉ L.runs) (hne : runID ≠ [])

include hsound hnew

lemma contains_withRun (hx : x ∈ L.runs) :
    (L.withRun runID binding).contains s x = L.contains s x := by
  unfold Ledger.contains
  rw [hsound.forest.lineage_register hnew fun _ => hx]

lemma occupied_withRun : (L.withRun runID binding).occupied s = L.occupied s :=
  total_congr fun id r hlookup => by
    have hcontains : (L.withRun runID binding).contains s r.runID = L.contains s r.runID :=
      contains_withRun hsound hnew (hsound.fits id r hlookup).run
    simp [Ledger.charge, Ledger.settledAmount, Ledger.heldAmount, hcontains]

lemma activeRuns_withRun : (L.withRun runID binding).activeRuns s = L.activeRuns s := by
  refine congrArg toFinset (filterMap_congr fun e he => ?_)
  have hcontains : (L.withRun runID binding).contains s e.2.runID = L.contains s e.2.runID :=
    contains_withRun hsound hnew (hsound.fits e.1 e.2 (mem_entries.mp he)).run
  simp [Ledger.slot, hcontains]

include hne

/-- Nothing that was registered before lies below the new Run. -/
lemma contains_new (hx : x ∈ L.runs) : L.contains runID x = false := by
  have hnot : runID ∉ L.lineage x :=
    fun hmem => hnew (hsound.forest.mem_of_mem_lineage (fun _ => hx) hmem)
  simp [Ledger.contains, hne, hnot]

lemma occupied_new : L.occupied runID = 0 :=
  total_eq_zero fun id r hlookup =>
    charge_of_not_contains (contains_new hsound hnew hne (hsound.fits id r hlookup).run)

lemma activeRuns_new : L.activeRuns runID = ∅ := by
  refine Finset.eq_empty_of_forall_notMem fun x hx => ?_
  obtain ⟨id, r, hlookup, hslot⟩ := Ledger.mem_activeRuns.mp hx
  have hcontains := (slot_eq_some.mp hslot).1
  rw [contains_new hsound hnew hne (hsound.fits id r hlookup).run] at hcontains
  cases hcontains

lemma unfinished_new : L.unfinishedDescendants runID = 0 := by
  refine countP_eq_zero.mpr fun e he => ?_
  have hcontains := contains_new hsound hnew hne (mem_of_lookup (mem_entries.mp he))
  simp [Ledger.isUnfinished, hcontains]

omit hne in
lemma unfinished_withRun : (L.withRun runID binding).unfinishedDescendants s =
    L.unfinishedDescendants s +
      if (L.withRun runID binding).isUnfinished s runID binding then 1 else 0 := by
  unfold Ledger.unfinishedDescendants
  show countP _ (L.runs.insert runID binding).entries = _
  rw [AList.entries_insert_of_notMem hnew, countP_cons]
  refine congrArg (· + _) (countP_congr fun e he => ?_)
  have hcontains : (L.withRun runID binding).contains s e.1 = L.contains s e.1 :=
    contains_withRun hsound hnew (mem_of_lookup (mem_entries.mp he))
  simp only [Ledger.isUnfinished, hcontains]
  rfl

/-- Registering a Run, if there is room for one more descendant at its ancestors. -/
theorem Ceilings.withRun (h : Ceilings L)
    (hparent : binding.parentRunID = [] ∨ binding.parentRunID ∈ L.runs)
    (hlimits : ValidLimits binding.limits)
    (hslots : binding.parentRunID ≠ [] → ∀ s, L.contains s binding.parentRunID = true →
      L.limitsOf s .concurrentDescendants ≠ 0 →
      (L.unfinishedDescendants s : ℤ) < L.limitsOf s .concurrentDescendants) :
    Ceilings (L.withRun runID binding) := by
  have hself : (L.withRun runID binding).limitsOf runID = binding.limits := by
    simp [Ledger.limitsOf, hne, Ledger.withRun]
  have hother : ∀ s, s ≠ runID → (L.withRun runID binding).limitsOf s = L.limitsOf s := by
    intro s hs
    simp only [Ledger.limitsOf, Ledger.withRun]
    rw [lookup_insert_of_ne hs]
  have hscope : ∀ s, s ≠ runID → (L.withRun runID binding).IsScope s → L.IsScope s := by
    rintro s hs (rfl | hmem)
    · exact .inl rfl
    · exact .inr (((AList.mem_insert _).mp hmem).resolve_left hs)
  refine ⟨fun s hs p hp hlimit => ?_, fun s hs hlimit => ?_, fun s hs hlimit => ?_, fun m => ?_⟩
  · rw [occupied_withRun hsound hnew]
    by_cases heq : s = runID
    · rw [heq, occupied_new hsound hnew hne, hself]
      exact hlimits p.1
    · rw [hother s heq] at hlimit ⊢
      exact h.metered s (hscope s heq hs) p hp hlimit
  · rw [activeRuns_withRun hsound hnew]
    by_cases heq : s = runID
    · rw [heq, activeRuns_new hsound hnew hne, hself]
      exact hlimits .concurrentRuns
    · rw [hother s heq] at hlimit ⊢
      exact h.running s (hscope s heq hs) hlimit
  · rw [unfinished_withRun hsound hnew]
    by_cases heq : s = runID
    · -- the new Run is not its own descendant
      subst heq
      have hnot : (L.withRun s binding).isUnfinished s s binding = false := by
        simp [Ledger.isUnfinished]
      rw [unfinished_new hsound hnew hne, hself, hnot]
      exact hlimits .concurrentDescendants
    · rw [hother s heq] at hlimit ⊢
      have hold := h.descendants s (hscope s heq hs) hlimit
      cases hcount : (L.withRun runID binding).isUnfinished s runID binding with
      | false => simpa using hold
      | true =>
        simp only [Ledger.isUnfinished, Bool.and_eq_true, decide_eq_true_eq] at hcount
        have hlineage := hsound.forest.lineage_registered hnew hne hparent hlimits
        have hcontains : L.contains s binding.parentRunID = true := by
          have hs := hcount.2
          simp only [Ledger.contains, hlineage, Bool.or_eq_true, decide_eq_true_eq,
            mem_cons, heq, false_or] at hs ⊢
          exact hs
        have hfree := hslots hcount.1.1.1 s hcontains hlimit
        simp only [if_true]
        push_cast
        omega
  · rw [occupied_withRun hsound hnew]
    exact h.room m

end Register

/-! ### Every round keeps the ceilings -/

lemma descendantSlot_free (hsound : Sound L) (h : L.descendantSlot order s = .ok ())
    (hlimit : L.limitsOf s .concurrentDescendants ≠ 0) :
    (L.unfinishedDescendants s : ℤ) < L.limitsOf s .concurrentDescendants := by
  have hpositive := lt_of_le_of_ne (hsound.limitsOf_nonneg .concurrentDescendants)
    (Ne.symm hlimit)
  have hlimits : (L.view order s).limits = L.limitsOf s := rfl
  have hcount : (L.view order s).unfinishedDescendants = L.unfinishedDescendants s := rfl
  by_contra hfull
  simp only [Ledger.descendantSlot, hlimits, hcount] at h
  simp [hpositive, not_lt.mp hfull] at h

theorem Effect.ceilings {next : Ledger} (heffect : Effect order L c next) (hcheck : c.check = none)
    (hafford : c.Affordable L) (hsound : Sound L) (hchildren : OwnChildren L) (h : Ceilings L) :
    Ceilings next := by
  have hbareRoom : ∀ id m, (L.withoutReservation id).occupied [] m ≤ maxInt := fun id m =>
    (hsound.occupied_withoutReservation_le m).trans (h.room m)
  cases heffect with
  | unchanged => exact h
  | root hnew hroot =>
    obtain ⟨hne, hlimits⟩ := check_registerRun hcheck
    exact h.withRun hsound hnew hne (.inl hroot) hlimits (absurd hroot)
  | @child runID binding hnew _ hparent hslots hadmission =>
    obtain ⟨hne, hlimits⟩ := check_registerRun hcheck
    -- the identifier of the charge is new, since the Run is
    have hfresh : childID runID ∉ L.reservations := fun hmem => hnew (hchildren runID hmem)
    have hwithout : L.withoutReservation (childID runID) = L := by
      simp [Ledger.withoutReservation, erase_of_notMem hfresh]
    have hfits : Fits L.runs (childID runID) (childReservation binding.parentRunID runID) :=
      ⟨rfl, hparent, validUsage_childCharge, fun _ => validUsage_childCharge, by rintro ⟨⟩⟩
    have hadmitted : ∀ s, L.contains s binding.parentRunID = true → Admitted
        (L.withoutReservation (childID runID)) binding.parentRunID childCharge false s := by
      intro s hs
      rw [hwithout]
      exact admit_spec hsound h.room hadmission hs
    have hcharged : Ceilings (L.withReservation (childID runID)
        (childReservation binding.parentRunID runID)) :=
      h.withReservation hsound hadmitted (fun s hs => (charge_of_settled rfl hs).le)
        (by rintro ⟨⟩)
    have hfree : ∀ s, L.contains s binding.parentRunID = true →
        L.limitsOf s .concurrentDescendants ≠ 0 →
        (L.unfinishedDescendants s : ℤ) < L.limitsOf s .concurrentDescendants := fun s hs =>
      descendantSlot_free hsound (hslots s (Ledger.contains_iff_mem_scopesOf.mp hs))
    exact hcharged.withRun (hsound.withReservation hfits) hnew hne (.inr hparent) hlimits
      fun _ => hfree
  | finished =>
    exact h.lighter ⟨rfl, rfl, Finset.subset_union_left, fun _ => le_refl _,
      fun _ => Finset.Subset.refl _⟩
  | @booked request source active hrun horigin hadmission =>
    obtain ⟨-, hrunID, -, _⟩ :=
      hsound.origin horigin hrun (check_reserve.mp hcheck).2.2.2
    have hadmitted : ∀ s, L.contains s source.runID = true → Admitted
        (L.withoutReservation request.id) source.runID source.requested active s := by
      intro s hs
      rw [hrunID] at hs ⊢
      exact admit_spec hsound.withoutReservation (hbareRoom _) hadmission hs
    exact h.withReservation hsound hadmitted (fun s hs => (charge_of_held rfl hs).le)
      fun hon => hon
  | parked =>
    refine h.lighter (Lighter.withReservation (fun s => ?_) fun s x hslot => ?_)
    · refine (add_le_add_left (le_of_eq (charge_of_open (by simp) (by simp))) _).trans ?_
      rw [zero_add]
      exact hsound.occupied_withoutReservation_le
    · cases (slot_eq_some.mp hslot).2.1
  | touched hold htouch => exact h.lighter (htouch.lighter hsound hold hafford)
  | cancelled => exact h.lighter (Lighter.mapReservations hsound releaseUnsent_released)
  | cancelledRun =>
    refine h.lighter (Lighter.mapReservations hsound fun r => ?_)
    split
    · exact releaseUnsent_released r
    · exact .inl rfl
  | transferred hcurrent hheld _ htransfer =>
    exact h.lighter (htransfer.lighter hsound hcurrent hheld (hafford _ hcurrent))

lemma ceilings_fresh {limits : Limits} (hlimits : ValidLimits limits) :
    Ceilings (freshLedger id limits) := by
  have hnonneg : ∀ s d, 0 ≤ (freshLedger id limits).limitsOf s d :=
    fun s d => (sound_fresh hlimits).limitsOf_nonneg d
  refine ⟨fun s _ p _ _ => hnonneg s p.1, fun s _ _ => hnonneg s _, fun s _ _ => hnonneg s _,
    fun m => ?_⟩
  show (0 : ℤ) ≤ maxInt
  decide

/-- All ledgers of a story of moderate calls keep their ceilings. -/
theorem LedgerStory.ceilings {scope : GoString} {history : List LedgerWrite}
    (h : LedgerStory scope history) (hmoderate : ∀ write ∈ history, write.Moderate) :
    ∀ L ∈ history.map LedgerWrite.after, OwnChildren L ∧ Ceilings L := by
  refine h.forall_after (Q := fun change L => change.CallerIDs ∧ change.Affordable L) hmoderate
    (fun limits hlimits => ⟨fun x hx => absurd hx (AList.notMem_empty _), ceilings_fresh hlimits⟩) ?_
  rintro _ _ L _ hsound hcheck ⟨hids, hafford⟩ heffect ⟨hchildren, hL⟩
  have hnext := heffect.ceilings hcheck hafford hsound hchildren hL
  exact ⟨heffect.children hids hchildren, hnext.metered, hnext.running, hnext.descendants, hnext.room⟩

/-! ### Ceilings under contention -/

/-- `Ancestor L x y`: the Run `y` is `x` or one of its ancestors. -/
inductive Ancestor (L : Ledger) (x : GoString) : GoString → Prop
  | self : Ancestor L x x
  | parent {y : GoString} {b : RunBudget} (h : Ancestor L x y) (hlookup : L.runs.lookup y = some b)
      (hne : b.parentRunID ≠ []) : Ancestor L x b.parentRunID

/-- `contains` decides whether a Run lies in a subtree. -/
lemma Forest.contains_iff (hforest : Forest L) :
    L.contains s x = true ↔ s = [] ∨ Ancestor L x s := by
  simp only [Ledger.contains, Bool.or_eq_true, decide_eq_true_eq]
  by_cases hs : s = []
  · simp [hs, true_or]
  refine or_congr_right ⟨fun hmem => ?_, fun h => ?_⟩
  · refine walk_induction (fun y hy hparent => ?_) (fun _ => .self) s hmem
    cases hlookup : L.runs.lookup y with
    | none => exact absurd (Ledger.parentOf_of_notMem (AList.lookup_eq_none.mp hlookup)) hparent
    | some =>
      rw [Ledger.parentOf_of_lookup hlookup] at hparent ⊢
      exact .parent hy hlookup hparent
  · induction h with
    | self =>
      rw [hforest.lineage_cons hs]
      exact mem_cons_self
    | @parent y _ _ hlookup hroot ih =>
      obtain ⟨_, hle, hrank⟩ := hforest.ranked
      have hy : y ≠ [] := fun heq => hforest.root (heq ▸ mem_of_lookup hlookup)
      rw [← Ledger.parentOf_of_lookup hlookup] at hroot ⊢
      exact parent_mem_walk hrank (hle x) (ih hy) hroot

/-- **Shared budget ceilings hold under contention.**  In every reachable ledger whose
history was written by moderate calls, settled and held usage of the Turn and of every
subtree stay within every limit, as do the Runs with an execution slot and the
unfinished descendants; and no sum overflows, so that `View` reports all of this
exactly in whatever order it adds. -/
theorem budget_ceilings (c : System) (id : GoString) (L : Ledger) (hreach : c.Reachable)
    (hmoderate : ∀ write ∈ c.shared.history id, write.Moderate)
    (hledger : c.shared.ledger id = some L) :
    (∀ s x, x ∈ L.runs → (L.contains s x = true ↔ s = [] ∨ Ancestor L x s)) ∧
    (∀ s, L.IsScope s →
      (∀ p ∈ metered, L.limitsOf s p.1 ≠ 0 → (L.settled s + L.held s) p.2 ≤ L.limitsOf s p.1) ∧
      (L.limitsOf s .concurrentRuns ≠ 0 →
        ((L.activeRuns s).card : ℤ) ≤ L.limitsOf s .concurrentRuns) ∧
      (L.limitsOf s .concurrentDescendants ≠ 0 →
        (L.unfinishedDescendants s : ℤ) ≤ L.limitsOf s .concurrentDescendants)) ∧
    (∀ s m, (L.settled s + L.held s) m ≤ maxInt) ∧
    ∀ order s, (L.view order s).usage = L.settled s ∧ (L.view order s).reserved = L.held s ∧
      (L.view order s).activeRuns = (L.activeRuns s).card := by
  have hstory := reachable_story hreach id
  have hmem : L ∈ (c.shared.history id).map LedgerWrite.after := by
    obtain ⟨_, hwrite, rfl⟩ := Option.map_eq_some_iff.mp hledger
    exact mem_map_after (mem_of_mem_head? hwrite)
  have hsound := (hstory.sound L hmem).1
  have hceilings := (hstory.ceilings hmoderate L hmem).2
  refine ⟨fun s x _ => hsound.forest.contains_iff, fun s hs => ⟨?_, hceilings.running s hs,
    hceilings.descendants s hs⟩, fun s m => ?_, fun order s => view_exact hsound hceilings.room⟩
  · rw [← Ledger.occupied_eq]
    exact hceilings.metered s hs
  · rw [← Ledger.occupied_eq]
    exact (hsound.occupied_le_turn m).trans (hceilings.room m)

/-- A Turn with two model calls and one child: a Run and its child, one call that
was settled and one that is held. -/
def sampleTurn : System :=
  let calls : List Request :=
    [.ensure 1 (lit "t") (Pi.single .llmCalls 2 + Pi.single .childRuns 1),
      .change 1 (lit "t") (.registerRun (lit "r") {}),
      .change 1 (lit "t") (.registerRun (lit "c") { parentRunID := lit "r" }),
      .change 1 (lit "t") (.reserve
        { id := lit "a", runID := lit "c", requestHash := lit "h",
          requested := Pi.single .llmCalls 1 } true),
      .change 1 (lit "t") (.dispatch (lit "a")),
      .change 1 (lit "t") (.settle (lit "a") (Pi.single .llmCalls 1) []),
      .change 1 (lit "t") (.reserve
        { id := lit "b", runID := lit "r", requestHash := lit "h",
          requested := Pi.single .llmCalls 1 } true)]
  calls.foldl System.serve ⟨{}, []⟩

/-- Both calls together use up the limit of two, and nothing more. -/
theorem budget_ceilings_shared : ∃ L, sampleTurn.shared.ledger (lit "t") = some L ∧
    L.limitsOf [] .llmCalls = 2 ∧ (L.settled [] + L.held []) .llmCalls ≤ 2 := by
  have hreach : sampleTurn.Reachable := System.later_foldl _ _
  have hlimit : (sampleTurn.shared.ledger (lit "t")).any (·.limitsOf [] .llmCalls = 2) = true := by
    decide +kernel
  obtain ⟨L, hL, htwo⟩ := Option.any_eq_true _ _ |>.mp hlimit
  have htwo : L.limitsOf [] .llmCalls = 2 := by simpa using htwo
  have hmoderate : ∀ write ∈ sampleTurn.shared.history (lit "t"), write.Moderate := by
    decide +kernel
  obtain ⟨-, hscopes, -, -⟩ := budget_ceilings sampleTurn (lit "t") L hreach hmoderate hL
  have hturn := (hscopes [] (.inl rfl)).1 (.llmCalls, .llmCalls) mem_cons_self
  exact ⟨L, hL, htwo, htwo ▸ hturn (by rw [htwo]; decide)⟩

end Budget
