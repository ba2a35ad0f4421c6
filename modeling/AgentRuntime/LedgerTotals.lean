/-
What `View` reports and what `admit` admits (`budget/ledger.go`).

The amounts of a scope are sums over the reservations of its subtree: settled
usage, and the requested usage of what is held (`Ledger.settled`, `Ledger.held`).
`View` computes them with an addition that drops everything on overflow, in an
arbitrary order; as long as both amounts of the Turn together stay in range it
reports them exactly.

* **`view_exact`** — the projection of a sound ledger without overflow.
-/
import AgentRuntime.LedgerSteps
import Mathlib.Algebra.Order.Group.Int
import Mathlib.Algebra.Order.Pi

namespace Budget

open GoString FiniteMap List Ledger

variable {L : Ledger} {order : RangeOrder} {s id runID : GoString} {r : Reservation} {u v : Usage}
  {l : List (Σ _ : GoString, Reservation)} {requested : Usage} {active : Bool}

/-! ### The amounts of a scope -/

namespace Ledger

/-- What a reservation adds to the settled usage of a scope. -/
def settledAmount (L : Ledger) (s : GoString) (r : Reservation) : Option Usage :=
  if L.contains s r.runID && r.status = .settled then some r.usage else none

/-- What a reservation adds to the reserved usage of a scope. -/
def heldAmount (L : Ledger) (s : GoString) (r : Reservation) : Option Usage :=
  if L.contains s r.runID && r.status = .held then some r.requested else none

/-- Settled usage of a scope. -/
def settled (L : Ledger) (s : GoString) : Usage :=
  total (fun r => (L.settledAmount s r).getD 0) L.reservations

/-- Held requested usage of a scope. -/
def held (L : Ledger) (s : GoString) : Usage :=
  total (fun r => (L.heldAmount s r).getD 0) L.reservations

/-- The execution slot a reservation occupies in a scope. -/
def slot (L : Ledger) (s : GoString) (r : Reservation) : Option GoString :=
  if L.contains s r.runID && r.status = .held && r.active then some r.runID else none

/-- The distinct Runs of a scope with an active held reservation. -/
def activeRuns (L : Ledger) (s : GoString) : Finset GoString :=
  (L.reservations.entries.filterMap fun e => L.slot s e.2).toFinset

/-- What a reservation takes from the budget of a scope. -/
def charge (L : Ledger) (s : GoString) (r : Reservation) : Usage :=
  (L.settledAmount s r).getD 0 + (L.heldAmount s r).getD 0

/-- Settled and held usage together. -/
def occupied (L : Ledger) (s : GoString) : Usage := total (L.charge s) L.reservations

lemma occupied_eq : L.occupied s = L.settled s + L.held s := total_add

/-- The Turn and the registered Runs. -/
def IsScope (L : Ledger) (s : GoString) : Prop := s = [] ∨ s ∈ L.runs

lemma contains_nil : L.contains [] runID = true := rfl

lemma contains_iff_mem_scopesOf : L.contains s runID = true ↔ s ∈ L.scopesOf runID := by
  simp [contains, scopesOf, or_comm]

lemma mem_activeRuns : runID ∈ L.activeRuns s ↔
    ∃ id r, L.reservations.lookup id = some r ∧ L.slot s r = some runID := by
  simp only [activeRuns, mem_toFinset, mem_filterMap]
  constructor
  · rintro ⟨e, he, hslot⟩
    exact ⟨e.1, e.2, mem_entries.mp he, hslot⟩
  · rintro ⟨id, r, hlookup, hslot⟩
    exact ⟨⟨id, r⟩, mem_entries.mpr hlookup, hslot⟩

end Ledger

lemma ValidUsage.nonneg (h : ValidUsage u) : 0 ≤ u := h.1

lemma ValidUsage.add (hu : ValidUsage u) (hv : ValidUsage v)
    (hroom : ∀ m, (u + v) m ≤ maxInt) : ValidUsage (u + v) := by
  have htotal := hroom .totalTokens
  have hu3 := hu.2.2
  have hv3 := hv.2.2
  simp only [Pi.add_apply] at htotal
  refine ⟨fun m => add_nonneg (hu.1 m) (hv.1 m), ?_, ?_⟩
  all_goals
    simp only [Pi.add_apply]
    omega

lemma addUsage_of_room (hu : ValidUsage u) (hv : ValidUsage v)
    (hroom : ∀ m, (u + v) m ≤ maxInt) : addUsage u v = .ok (u + v) := by
  refine if_pos ⟨hu, hv, fun m => ?_⟩
  have hm := hroom m
  simp only [Pi.add_apply] at hm
  omega

lemma addUsage_eq_ok {w : Usage} (h : addUsage u v = .ok w) :
    w = u + v ∧ ∀ m, (u + v) m ≤ maxInt := by
  unfold addUsage at h
  split_ifs at h with hguard
  cases h
  refine ⟨rfl, fun m => ?_⟩
  have hm := hguard.2.2 m
  simp only [Pi.add_apply]
  omega

lemma Fits.charge_nonneg {runs : Map GoString RunBudget} (h : Fits runs id r) :
    0 ≤ L.charge s r := by
  refine add_nonneg ?_ ?_
  · unfold settledAmount
    split_ifs with hguard
    · simp only [Bool.and_eq_true, decide_eq_true_eq] at hguard
      exact (h.usage hguard.2).nonneg
    · exact le_refl 0
  unfold heldAmount
  split_ifs
  · exact h.requested.nonneg
  · exact le_refl 0

/-! ### The projection -/

/-- One component of the tally: an amount per reservation, added in any order.  The
induction keeps that what was added so far and what is still to come fit together. -/
lemma tally_component {pick : Reservation → Option Usage} {get : Tally → Usage}
    {step : Tally → (Σ _ : GoString, Reservation) → Tally}
    (hstep : ∀ t e, get (step t e) = match pick e.2 with
      | some u => addOrReset (get t) u
      | none => get t) (hvalid : ∀ e ∈ l, ∀ u, pick e.2 = some u → ValidUsage u)
    {t : Tally} (ht : ValidUsage (get t))
    (hroom : ∀ m, (get t + (l.map fun e => (pick e.2).getD 0).sum) m ≤ maxInt) :
    get (l.foldl step t) = get t + (l.map fun e => (pick e.2).getD 0).sum := by
  induction l generalizing t with
  | nil => simp
  | cons e l ih =>
    obtain ⟨hu, hrest⟩ := forall_mem_cons.mp hvalid
    cases hpick : pick e.2 with
    | none =>
      have hsame : get (step t e) = get t := by rw [hstep, hpick]
      simp only [map_cons, sum_cons, hpick, Option.getD_none, zero_add] at hroom ⊢
      rw [← hsame] at ht hroom ⊢
      exact ih hrest ht hroom
    | some u =>
      replace hu := hu u hpick
      simp only [map_cons, sum_cons, hpick, Option.getD_some, ← add_assoc] at hroom ⊢
      -- the amounts still to come are not negative, so the next addition is in range
      have hlater : ∀ m, 0 ≤ (l.map fun e => (pick e.2).getD 0).sum m := by
        have hnonneg : 0 ≤ (l.map fun e => (pick e.2).getD 0).sum := by
          refine sum_nonneg fun x hx => ?_
          obtain ⟨e', he', rfl⟩ := mem_map.mp hx
          cases hpick' : pick e'.2 with
          | none => exact le_refl 0
          | some v => exact (hrest e' he' v hpick').nonneg
        exact hnonneg
      have hnow : ∀ m, (get t + u) m ≤ maxInt := fun m => by
        have h1 := hroom m
        have h2 := hlater m
        simp only [Pi.add_apply] at h1 ⊢
        omega
      have hadd : get (step t e) = get t + u := by
        rw [hstep, hpick]
        simp only [addOrReset, addUsage_of_room ht hu hnow]
        rfl
      rw [← hadd] at hroom ⊢
      exact ih hrest (hadd ▸ ht.add hu hnow) hroom

namespace Ledger

/-- The body of the loop in `View`. -/
def tallyStep (L : Ledger) (s : GoString) (t : Tally) (e : Σ _ : GoString, Reservation) : Tally :=
  if L.contains s e.2.runID then t.add e.2 else t

lemma tallyStep_usage (t : Tally) (e : Σ _ : GoString, Reservation) :
    (L.tallyStep s t e).usage = match L.settledAmount s e.2 with
      | some u => addOrReset t.usage u
      | none => t.usage := by
  unfold tallyStep settledAmount Tally.add
  cases L.contains s e.2.runID <;> cases e.2.status <;> rfl

lemma tallyStep_reserved (t : Tally) (e : Σ _ : GoString, Reservation) :
    (L.tallyStep s t e).reserved = match L.heldAmount s e.2 with
      | some u => addOrReset t.reserved u
      | none => t.reserved := by
  unfold tallyStep heldAmount Tally.add
  cases L.contains s e.2.runID <;> cases e.2.status <;> rfl

lemma tallyStep_active (t : Tally) (e : Σ _ : GoString, Reservation) :
    (L.tallyStep s t e).active = match L.slot s e.2 with
      | some x => insert x t.active
      | none => t.active := by
  unfold tallyStep slot Tally.add
  cases L.contains s e.2.runID <;> cases e.2.status <;> cases e.2.active <;> rfl

lemma tally_active (l : List (Σ _ : GoString, Reservation)) (t : Tally) :
    (l.foldl (L.tallyStep s) t).active =
      (l.filterMap fun e => L.slot s e.2).toFinset ∪ t.active := by
  induction l generalizing t with
  | nil => simp
  | cons e _ ih =>
    rw [foldl_cons, ih, tallyStep_active]
    cases hslot : L.slot s e.2 with
    | none | some => simp [hslot]

end Ledger

lemma amounts_valid (hsound : Sound L) (hl : ∀ e ∈ l, e ∈ L.reservations.entries) :
    (∀ e ∈ l, ∀ u, L.settledAmount s e.2 = some u → ValidUsage u) ∧
    (∀ e ∈ l, ∀ u, L.heldAmount s e.2 = some u → ValidUsage u) := by
  refine ⟨fun e he u hu => ?_, fun e he u hu => ?_⟩
  all_goals have hfits := hsound.fits e.1 e.2 (mem_entries.mp (hl e he))
  · unfold settledAmount at hu
    split_ifs at hu with hguard
    cases hu
    simp only [Bool.and_eq_true, decide_eq_true_eq] at hguard
    exact hfits.usage hguard.2
  · unfold heldAmount at hu
    split_ifs at hu with hguard
    cases hu
    exact hfits.requested

lemma Sound.settled_nonneg (hsound : Sound L) : 0 ≤ L.settled s :=
  total_nonneg fun id r hlookup => by
    cases hamount : L.settledAmount s r with
    | none => exact le_refl 0
    | some u =>
      exact ((amounts_valid hsound fun _ he => he).1 ⟨id, r⟩ (mem_entries.mpr hlookup) u
        hamount).nonneg

lemma Sound.held_nonneg (hsound : Sound L) : 0 ≤ L.held s :=
  total_nonneg fun id r hlookup => by
    cases hamount : L.heldAmount s r with
    | none => exact le_refl 0
    | some u =>
      exact ((amounts_valid hsound fun _ he => he).2 ⟨id, r⟩ (mem_entries.mpr hlookup) u
        hamount).nonneg

lemma Sound.occupied_le_turn (hsound : Sound L) : L.occupied s ≤ L.occupied [] := by
  refine total_le fun id r hlookup => ?_
  have hfits := hsound.fits id r hlookup
  cases hcontains : L.contains s r.runID with
  | false =>
    have hzero : L.charge s r = 0 := by
      simp [charge, settledAmount, heldAmount, hcontains]
    rw [hzero]
    exact hfits.charge_nonneg
  | true =>
    refine le_of_eq ?_
    simp [charge, settledAmount, heldAmount, hcontains, contains_nil]

lemma view_component {pick : Reservation → Option Usage} {get : Tally → Usage}
    (hstep : ∀ t e, get (L.tallyStep s t e) = match pick e.2 with
      | some u => addOrReset (get t) u
      | none => get t) (hstart : get {} = 0)
    (hvalid : ∀ e ∈ order.visit s L.reservations.entries, ∀ u, pick e.2 = some u → ValidUsage u)
    (hroom : ∀ m, total (fun r => (pick r).getD 0) L.reservations m ≤ maxInt) :
    get ((order.visit s L.reservations.entries).foldl (L.tallyStep s) {}) =
      total (fun r => (pick r).getD 0) L.reservations := by
  have hsum := total_of_perm (f := fun r => (pick r).getD 0) (order.perm s L.reservations.entries)
  have htally := tally_component hstep hvalid (by rw [hstart]; decide)
    (by rw [hsum, hstart]; simpa using hroom)
  rwa [hsum, hstart, zero_add] at htally

lemma view_reserved (hsound : Sound L) (hroom : ∀ m, L.held s m ≤ maxInt) :
    (L.view order s).reserved = L.held s :=
  view_component L.tallyStep_reserved rfl
    (amounts_valid hsound fun _ he => (order.perm s _).subset he).2 hroom

lemma view_usage (hsound : Sound L) (hroom : ∀ m, L.settled s m ≤ maxInt) :
    (L.view order s).usage = L.settled s :=
  view_component L.tallyStep_usage rfl
    (amounts_valid hsound fun _ he => (order.perm s _).subset he).1 hroom

lemma view_activeRuns : (L.view order s).activeRuns = (L.activeRuns s).card := by
  have hperm := order.perm s L.reservations.entries
  have htally : (L.tally order s).active = L.activeRuns s := by
    refine (L.tally_active _ {}).trans ?_
    rw [Finset.union_empty]
    exact toFinset_eq_of_perm _ _ (hperm.filterMap _)
  exact congrArg Finset.card htally

/-- **The projection is exact** as long as the amounts of the Turn are in range. -/
theorem view_exact (hsound : Sound L) (hroom : ∀ m, L.occupied [] m ≤ maxInt) :
    (L.view order s).usage = L.settled s ∧ (L.view order s).reserved = L.held s ∧
      (L.view order s).activeRuns = (L.activeRuns s).card := by
  have hscope : ∀ m, (L.settled s + L.held s) m ≤ maxInt := fun m => by
    rw [← occupied_eq]
    exact (hsound.occupied_le_turn m).trans (hroom m)
  refine ⟨view_usage hsound fun m => ?_, view_reserved hsound fun m => ?_, view_activeRuns⟩
  · have h1 := hscope m
    have h2 : 0 ≤ L.held s m := hsound.held_nonneg m
    simp only [Pi.add_apply] at h1
    omega
  have h1 := hscope m
  have h2 : 0 ≤ L.settled s m := hsound.settled_nonneg m
  simp only [Pi.add_apply] at h1
  omega

/-! ### Admission -/

lemma Sound.limitsOf_nonneg (hsound : Sound L) (d : Dimension) : 0 ≤ L.limitsOf s d := by
  unfold limitsOf
  split_ifs
  · exact hsound.limits d
  cases hlookup : L.runs.lookup s with
  | none => exact le_refl 0
  | some b => exact hsound.forest.limits s b hlookup d

lemma exceeded_none {limits : Limits} (h : exceeded limits u = none)
    {p : Dimension × Meter} (hp : p ∈ metered) (hlimit : 0 < limits p.1) :
    u p.2 ≤ limits p.1 := by
  simp only [exceeded, Option.map_eq_none_iff, find?_eq_none] at h
  have hp' := h p hp
  simp only [Bool.and_eq_true, decide_eq_true_eq, not_and, not_lt] at hp'
  exact hp' hlimit

/-- What an admitted request leaves at a scope it belongs to. -/
structure Admitted (L : Ledger) (runID : GoString) (requested : Usage) (active : Bool)
    (s : GoString) : Prop where
  room : ∀ m, (L.occupied s + requested) m ≤ maxInt
  metered : ∀ p ∈ metered, L.limitsOf s p.1 ≠ 0 →
    (L.occupied s + requested) p.2 ≤ L.limitsOf s p.1
  running : active = true → L.limitsOf s .concurrentRuns ≠ 0 →
    L.active runID s = true ∨ ((L.activeRuns s).card : ℤ) < L.limitsOf s .concurrentRuns

/-- It needs the projection of that scope to be exact. -/
lemma admit_of_view (hsound : Sound L)
    (h : L.admission order runID requested active = .ok ()) (hs : L.contains s runID = true)
    (husage : (L.view order s).usage = L.settled s)
    (hreserved : (L.view order s).reserved = L.held s) : Admitted L runID requested active s := by
  have hat := forM_ok h s (contains_iff_mem_scopesOf.mp hs)
  have hpositive : ∀ d, L.limitsOf s d ≠ 0 → 0 < L.limitsOf s d :=
    fun d hd => lt_of_le_of_ne (hsound.limitsOf_nonneg d) (Ne.symm hd)
  obtain ⟨_, hused, hfit⟩ := bind_eq_ok hat
  split at hfit
  · cases hfit
  obtain ⟨_, hoccupied, hslot⟩ := bind_eq_ok hfit
  split at hslot
  · cases hslot
  next hwithin =>
  obtain ⟨rfl, -⟩ := addUsage_eq_ok hused
  obtain ⟨rfl, hmax⟩ := addUsage_eq_ok hoccupied
  have htotal : (L.view order s).usage + requested + (L.view order s).reserved =
      L.occupied s + requested := by
    rw [husage, hreserved, occupied_eq, add_right_comm]
  rw [htotal] at hmax hwithin
  refine ⟨hmax, fun p hp hlimit => exceeded_none hwithin hp (hpositive _ hlimit), ?_⟩
  rintro rfl hlimit
  by_contra hnot
  rw [not_or, not_lt] at hnot
  have hlimits : (L.view order s).limits = L.limitsOf s := rfl
  rw [view_activeRuns, hlimits] at hslot
  simp [hpositive _ hlimit, hnot.1, hnot.2] at hslot

theorem admit_spec (hsound : Sound L) (hroom : ∀ m, L.occupied [] m ≤ maxInt)
    (h : L.admission order runID requested active = .ok ())
    (hs : L.contains s runID = true) : Admitted L runID requested active s := by
  obtain ⟨husage, hreserved, -⟩ : (L.view order s).usage = L.settled s ∧
    (L.view order s).reserved = L.held s ∧ _ := view_exact hsound hroom
  exact admit_of_view hsound h hs husage hreserved

/-! ### Writing one reservation -/

namespace Ledger

theorem occupied_withReservation :
    (L.withReservation id r).occupied s = L.charge s r + (L.withoutReservation id).occupied s :=
  total_insert

lemma occupied_of_lookup (h : L.reservations.lookup id = some r) :
    L.occupied s = L.charge s r + (L.withoutReservation id).occupied s :=
  total_of_lookup h

/-- The slots of a ledger after one reservation was written. -/
lemma mem_activeRuns_withReservation : runID ∈ (L.withReservation id r).activeRuns s ↔
    L.slot s r = some runID ∨ runID ∈ (L.withoutReservation id).activeRuns s := by
  rw [mem_activeRuns, mem_activeRuns]
  constructor
  · rintro ⟨id', r', hlookup, hslot⟩
    rcases lookup_insert_cases hlookup with ⟨rfl, rfl⟩ | ⟨hne, hold⟩
    · exact .inl hslot
    · exact .inr ⟨id', r', (AList.lookup_erase_ne hne).trans hold, hslot⟩
  rintro (hslot | ⟨id', r', hlookup, hslot⟩)
  · exact ⟨id, r, AList.lookup_insert _, hslot⟩
  have hne : id' ≠ id := by
    rintro rfl
    rw [withoutReservation, AList.lookup_erase] at hlookup
    cases hlookup
  rw [withoutReservation, AList.lookup_erase_ne hne] at hlookup
  exact ⟨id', r', (lookup_insert_of_ne hne).trans hlookup, hslot⟩

lemma activeRuns_withoutReservation_subset :
    (L.withoutReservation id).activeRuns s ⊆ L.activeRuns s := by
  intro x hx
  obtain ⟨id', r', hlookup, hslot⟩ := mem_activeRuns.mp hx
  exact mem_activeRuns.mpr ⟨id', r', lookup_of_lookup_erase hlookup, hslot⟩

end Ledger

lemma Sound.occupied_withoutReservation_le (hsound : Sound L) :
    (L.withoutReservation id).occupied s ≤ L.occupied s :=
  total_erase_le fun _ _ hlookup => (hsound.fits _ _ hlookup).charge_nonneg

end Budget
