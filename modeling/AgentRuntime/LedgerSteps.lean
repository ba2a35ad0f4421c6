/-
Well-formed ledgers, and what one round of a Coordinator method does to one
(`budget/ledger.go`, `budget/receipt_transfer.go`).

A ledger is `Sound` if its Runs form a forest and every reservation is booked on a
registered Run under its own identifier, with valid amounts, and holds an execution
slot only while it is held.  This needs no assumption about the callers.

* `Effect`, **`attempt_effect`** — everything a round can do, guards included; the
  invariants are proved by cases on it;
* **`Effect.sound`** — every round keeps a sound ledger sound.
-/
import AgentRuntime.BudgetLedger

namespace Budget

open GoString FiniteMap List AList Ledger

variable {L : Ledger} {order : RangeOrder} {id runID x : GoString} {r : Reservation}
  {binding : RunBudget} {c : Change}

/-! ### Sound ledgers -/

/-- The Runs form a forest: every parent was registered before its children. -/
structure Forest (L : Ledger) : Prop where
  root : [] ∉ L.runs
  closed : ∀ id b, L.runs.lookup id = some b → b.parentRunID = [] ∨ b.parentRunID ∈ L.runs
  limits : ∀ id b, L.runs.lookup id = some b → ValidLimits b.limits
  ranked : ∃ rank : GoString → ℕ, (∀ x, rank x ≤ L.runs.entries.length + 1) ∧
    ∀ x, x ≠ [] → rank (L.parentOf x) < rank x

/-- A reservation as it may stand in a ledger with these Runs. -/
structure Fits (runs : Map GoString RunBudget) (id : GoString) (r : Reservation) : Prop where
  id : r.id = id
  run : r.runID ∈ runs
  requested : ValidUsage r.requested
  usage : r.status = .settled → ValidUsage r.usage
  active : r.active = true → r.status = .held

structure Sound (L : Ledger) : Prop where
  limits : ValidLimits L.limits
  forest : Forest L
  fits : ∀ id r, L.reservations.lookup id = some r → Fits L.runs id r

lemma Ledger.parentOf_of_lookup (h : L.runs.lookup id = some binding) :
    L.parentOf id = binding.parentRunID := by
  simp [parentOf, h]

lemma Ledger.parentOf_of_notMem (h : id ∉ L.runs) : L.parentOf id = [] := by
  simp [parentOf, lookup_eq_none.mpr h]

lemma Forest.parentOf_mem (h : Forest L) (hne : L.parentOf x ≠ []) : L.parentOf x ∈ L.runs := by
  cases hx : L.runs.lookup x with
  | none => exact absurd (parentOf_of_notMem (lookup_eq_none.mp hx)) hne
  | some b =>
    rw [parentOf_of_lookup hx] at hne ⊢
    exact (h.closed x b hx).resolve_left hne

/-- The loop over the ancestors never runs out of steps. -/
theorem Forest.lineage_cons (h : Forest L) (hx : x ≠ []) :
    L.lineage x = x :: L.lineage (L.parentOf x) := by
  obtain ⟨_, hle, hrank⟩ := h.ranked
  exact walk_eq_cons hrank (hle x) hx

lemma Forest.mem_of_mem_lineage (h : Forest L) {y : GoString} (hx : x ≠ [] → x ∈ L.runs)
    (hy : y ∈ L.lineage x) : y ∈ L.runs :=
  walk_induction (P := fun y => y ∈ L.runs) (fun _ _ hne => h.parentOf_mem hne) hx y hy

/-! ### Registering a Run -/

/-- The ledger with one more Run. -/
def Ledger.withRun (L : Ledger) (runID : GoString) (binding : RunBudget) : Ledger :=
  { L with runs := L.runs.insert runID binding }

section Register

variable (hforest : Forest L) (hnew : runID ∉ L.runs) (hne : runID ≠ [])
  (hparent : binding.parentRunID = [] ∨ binding.parentRunID ∈ L.runs)

lemma Ledger.parentOf_withRun_self : (L.withRun runID binding).parentOf runID = binding.parentRunID :=
  parentOf_of_lookup (lookup_insert _)

lemma Ledger.parentOf_withRun {x : GoString} (hx : x ≠ runID) :
    (L.withRun runID binding).parentOf x = L.parentOf x := by
  simp only [parentOf, withRun]
  rw [lookup_insert_of_ne hx]

include hnew in
lemma Ledger.length_withRun :
    (L.withRun runID binding).runs.entries.length = L.runs.entries.length + 1 := by
  simp only [withRun]
  rw [entries_insert_of_notMem hnew, length_cons]

include hforest hnew hne hparent in
lemma Forest.register (hlimits : ValidLimits binding.limits) :
    Forest (L.withRun runID binding) := by
  have hparent_ne : binding.parentRunID ≠ runID := by
    rintro heq
    rcases hparent with hp | hp
    · exact hne (heq.symm.trans hp)
    · exact hnew (heq ▸ hp)
  refine ⟨?_, ?_, ?_, ?_⟩
  · intro hmem
    rcases (mem_insert _).mp hmem with heq | hmem
    · exact hne heq.symm
    · exact hforest.root hmem
  · intro id b hlookup
    rcases lookup_insert_cases hlookup with ⟨rfl, rfl⟩ | ⟨-, hold⟩
    · exact hparent.imp_right fun hp => (mem_insert _).mpr (.inr hp)
    · exact (hforest.closed id b hold).imp_right fun hp => (mem_insert _).mpr (.inr hp)
  · intro id b hlookup
    rcases lookup_insert_cases hlookup with ⟨rfl, rfl⟩ | ⟨-, hold⟩
    · exact hlimits
    · exact hforest.limits id b hold
  -- the new Run ranks above everything that was there
  · obtain ⟨rank, hle, hrank⟩ := hforest.ranked
    refine ⟨Function.update rank runID (L.runs.entries.length + 2), fun x => ?_, fun x hx => ?_⟩
    · rw [length_withRun hnew]
      by_cases hself : x = runID
      · rw [hself, Function.update_self]
      · rw [Function.update_of_ne hself]
        exact (hle x).trans (by omega)
    by_cases hself : x = runID
    · rw [hself, parentOf_withRun_self, Function.update_of_ne hparent_ne,
        Function.update_self]
      have hp := hle binding.parentRunID
      omega
    have hother : L.parentOf x ≠ runID := by
      intro heq
      by_cases hroot : L.parentOf x = []
      · exact hne (heq.symm.trans hroot)
      · exact hnew (heq ▸ hforest.parentOf_mem hroot)
    rw [parentOf_withRun hself, Function.update_of_ne hother,
      Function.update_of_ne hself]
    exact hrank x hx

include hforest hnew in
/-- All other walks stay as they are. -/
theorem Forest.lineage_register {x : GoString} (hx : x ≠ [] → x ∈ L.runs) :
    (L.withRun runID binding).lineage x = L.lineage x := by
  obtain ⟨_, hle, hrank⟩ := hforest.ranked
  have hsame : ∀ y ∈ walk [] L.parentOf (L.runs.entries.length + 2) x,
      (L.withRun runID binding).parentOf y = L.parentOf y := by
    intro y hy
    have hmem : y ∈ L.runs := walk_induction (P := fun y => y ∈ L.runs)
      (fun _ _ hne => hforest.parentOf_mem hne) hx y hy
    exact parentOf_withRun fun heq => hnew (heq ▸ hmem)
  unfold lineage
  rw [length_withRun hnew, walk_congr hsame]
  exact walk_of_rank_le hrank ((hle x).trans (by omega)) (hle x)

include hforest hnew hne hparent in
lemma Forest.lineage_registered (hlimits : ValidLimits binding.limits) :
    (L.withRun runID binding).lineage runID = runID :: L.lineage binding.parentRunID := by
  rw [(hforest.register hnew hne hparent hlimits).lineage_cons hne, parentOf_withRun_self,
    hforest.lineage_register hnew hparent.resolve_left]

end Register

/-! ### What one round does -/

/-- Where the request that `Reserve` books comes from: the caller or, in a replay,
the reservation that is there. -/
def Origin (L : Ledger) (request source : Reservation) : Prop :=
  (L.reservations.lookup request.id = none ∧ source = request) ∨
    (L.reservations.lookup request.id = some source ∧ source.runID = request.runID ∧
      source.requestHash = request.requestHash ∧
      (source.status = .waiting ∨ source.status = .held))

/-- What a method does to the one reservation it names. -/
inductive Touch (L : Ledger) : Change → GoString → Reservation → Reservation → Prop
  | kept {c : Change} {id : GoString} {r : Reservation} : Touch L c id r r
  | dispatch {id : GoString} {r : Reservation} (hheld : r.status = .held)
      (hnot : r.dispatched = false) :
      Touch L (.dispatch id) id r { r with dispatched := true }
  | requeue {id : GoString} {r : Reservation} {revision : UInt64}
      (hrevision : L.revision = revision) (hheld : r.status = .held)
      (hdispatched : r.dispatched = true) :
      Touch L (.requeueProvenUnsent id revision) id r
        { r with status := .waiting, active := false, dispatched := false, dimension := none }
  | suspend {id : GoString} {r : Reservation} :
      Touch L (.suspend id) id r { r with active := false }
  | settle {id : GoString} {r : Reservation} {usage : Usage} {receipt : GoString}
      (hheld : r.status = .held) :
      Touch L (.settle id usage receipt) id r
        { r with status := .settled, active := false, usage := usage, receipt := receipt }
  | release {id : GoString} {r : Reservation} (hnot : r.dispatched = false)
      (hopen : r.status ≠ .settled) :
      Touch L (.release id) id r { r with status := .released, active := false }

/-- What `validRelated` checks. -/
structure Related (runID : GoString) (seen : List GoString) (r : Reservation) : Prop where
  unseen : r.id ∉ seen
  run : r.runID = runID
  requested : ValidUsage r.requested
  usage : r.usage = 0
  dispatched : r.dispatched = true
  inactive : r.active = false
  status : r.status = .held ∨ r.status = .settled

/-- The loop of `SettleWithReceipts` over the related receipts: one that is settled
already stays, all others are written. -/
inductive Transferred (runID : GoString) :
    List GoString → List Reservation → Map GoString Reservation → Map GoString Reservation → Prop
  | done {seen : List GoString} {m : Map GoString Reservation} : Transferred runID seen [] m m
  | skip {seen : List GoString} {related : List Reservation} {r old : Reservation}
      {m m' : Map GoString Reservation} (hrelated : Related runID seen r)
      (hold : m.lookup r.id = some old) (hsettled : old.status = .settled)
      (hrest : Transferred runID (r.id :: seen) related m m') :
      Transferred runID seen (r :: related) m m'
  | write {seen : List GoString} {related : List Reservation} {r : Reservation}
      {m m' : Map GoString Reservation} (hrelated : Related runID seen r)
      (hold : ∀ old, m.lookup r.id = some old → old.status = .held ∧ old.runID = r.runID ∧
        old.requested = r.requested)
      (hrest : Transferred runID (r.id :: seen) related (m.insert r.id r) m') :
      Transferred runID seen (r :: related) m m'

/-- The new ledgers a round of a method may save. -/
inductive Effect (order : RangeOrder) (L : Ledger) : Change → Ledger → Prop
  | unchanged {c : Change} : Effect order L c L
  | root {runID : GoString} {binding : RunBudget} (hnew : runID ∉ L.runs)
      (hroot : binding.parentRunID = []) :
      Effect order L (.registerRun runID binding) (L.withRun runID binding)
  | child {runID : GoString} {binding : RunBudget} (hnew : runID ∉ L.runs)
      (hne : binding.parentRunID ≠ []) (hparent : binding.parentRunID ∈ L.runs)
      (hslots : ∀ s ∈ L.scopesOf binding.parentRunID, L.descendantSlot order s = .ok ())
      (hadmission : L.admission order binding.parentRunID childCharge false = .ok ()) :
      Effect order L (.registerRun runID binding)
        ((L.withReservation (childID runID) (childReservation binding.parentRunID runID)).withRun
          runID binding)
  | finished {runIDs : List GoString} :
      Effect order L (.finishRuns runIDs)
        { L with finishedRuns := L.finishedRuns ∪ runIDs.toFinset }
  | booked {request source : Reservation} {active : Bool} (hrun : request.runID ∈ L.runs)
      (horigin : Origin L request source)
      (hadmission : (L.withoutReservation request.id).admission order request.runID source.requested active
        = .ok ()) :
      Effect order L (.reserve request active) (L.withReservation request.id
        { source with status := .held, active := active, dimension := none })
  | parked {request source : Reservation} {active : Bool} {dimension : Option Dimension}
      (hrun : request.runID ∈ L.runs) (horigin : Origin L request source)
      (hnot : ∀ r, L.reservations.lookup request.id = some r → r.status = .waiting) :
      Effect order L (.reserve request active) (L.withReservation request.id
        { source with status := .waiting, active := false, dimension := dimension })
  | touched {c : Change} {id : GoString} {old new : Reservation}
      (hold : L.reservations.lookup id = some old) (htouch : Touch L c id old new) :
      Effect order L c (L.withReservation id new)
  | cancelled : Effect order L .cancel L.cancel
  | cancelledRun {runID : GoString} : Effect order L (.cancelRun runID) (L.cancelRun runID)
  | transferred {id : GoString} {current : Reservation} {usage : Usage} {receipt : GoString}
      {related : List Reservation} {m : Map GoString Reservation}
      (hcurrent : L.reservations.lookup id = some current) (hheld : current.status = .held)
      (hdispatched : current.dispatched = true)
      (htransfer : Transferred current.runID [id] related L.reservations m) :
      Effect order L (.settleWithReceipts id usage receipt related) { L with
        reservations := m.insert id { current with
          status := .settled, active := false, usage := usage, receipt := receipt } }

lemma Ledger.withReservation_without :
    (L.withoutReservation id).withReservation id r = L.withReservation id r := by
  simp [withReservation, withoutReservation, insert_erase]

variable {α ε : Type}

/-- A loop that only checks succeeds if every check does. -/
lemma forM_ok {f : α → Except ε Unit} {l : List α} (h : l.forM f = .ok ()) :
    ∀ a ∈ l, f a = .ok () := by
  induction l with
  | nil => exact fun a ha => nomatch ha
  | cons b _ ih =>
    obtain ⟨_, hb, h⟩ := bind_eq_ok h
    exact forall_mem_cons.mpr ⟨hb, ih h⟩

variable {next : Ledger} {e : Option BudgetError} {request : Reservation} {active wasHeld : Bool}
  {seen : List GoString} {related : List Reservation} {m m' : Map GoString Reservation}
  {old new : Reservation} {runs : Map GoString RunBudget}

lemma book_cases (h : (L.book order active request wasHeld).2 = .ok (next, e)) :
    ((L.withoutReservation request.id).admission order request.runID request.requested active = .ok () ∧
      next = L.withReservation request.id
        { request with status := .held, active := active, dimension := none }) ∨
    (wasHeld = true ∧ next = L.withReservation request.id request) ∨
    (wasHeld = false ∧ ∃ d, next = L.withReservation request.id
      { request with status := .waiting, active := false, dimension := d }) := by
  unfold book at h
  split at h
  · cases h
  cases hadmission : (L.withoutReservation request.id).admission order request.runID request.requested
      active with
  | ok u =>
    simp only [hadmission, withReservation_without] at h
    cases h
    exact .inl ⟨rfl, rfl⟩
  | error denied =>
    simp only [hadmission, withReservation_without] at h
    cases wasHeld with
    | true =>
      cases h
      exact .inr (.inl ⟨rfl, rfl⟩)
    | false =>
      simp only [Bool.false_eq_true, if_false] at h
      split at h
      · cases h
      · cases h
        exact .inr (.inr ⟨rfl, _, rfl⟩)

/-- Two requests of the same call. -/
def SameRequest (q q' : Reservation) : Prop :=
  q.id = q'.id ∧ q.runID = q'.runID ∧ q.requestHash = q'.requestHash ∧ q.requested = q'.requested

/-- The captured request is overwritten, but not what identifies it. -/
lemma book_request : SameRequest (L.book order active request wasHeld).1 request := by
  unfold book
  split
  · exact ⟨rfl, rfl, rfl, rfl⟩
  dsimp only
  split
  · split_ifs <;> exact ⟨rfl, rfl, rfl, rfl⟩
  · exact ⟨rfl, rfl, rfl, rfl⟩

lemma reserve_effect (hsound : Sound L) (h : (L.reserve order request active).2 = .ok (next, e)) :
    Effect order L (.reserve request active) next := by
  unfold reserve at h
  split at h
  · cases h
  next hrun =>
  have hrun : request.runID ∈ L.runs := not_not.mp hrun
  cases hlookup : L.reservations.lookup request.id with
  | none =>
    simp only [hlookup] at h
    have horigin : Origin L request request := .inl ⟨hlookup, rfl⟩
    rcases book_cases h with ⟨hadmission, rfl⟩ | ⟨hheld, -⟩ | ⟨-, d, rfl⟩
    · exact .booked hrun horigin hadmission
    · cases hheld
    · exact .parked hrun horigin fun r hr => by simp [hlookup] at hr
  | some existing =>
    have hid : existing.id = request.id := (hsound.fits _ _ hlookup).id
    simp only [hlookup] at h
    split at h
    · cases h
    next hsame =>
    simp only [Bool.or_eq_true, decide_eq_true_eq, not_or, ne_eq, not_not] at hsame
    obtain ⟨hrunID, hhash⟩ := hsame
    cases hstatus : existing.status with
    | settled =>
      simp only [hstatus] at h
      cases h
      exact .unchanged
    | released =>
      simp only [hstatus] at h
      cases h
    | waiting =>
      simp only [hstatus] at h
      have horigin : Origin L request existing := .inr ⟨hlookup, hrunID, hhash, .inl hstatus⟩
      rcases book_cases h with ⟨hadmission, rfl⟩ | ⟨hheld, -⟩ | ⟨-, d, rfl⟩
      · rw [hid, hrunID] at hadmission
        have heffect := Effect.booked hrun horigin hadmission
        rwa [← hid] at heffect
      · cases hheld
      have hwaiting : ∀ r, L.reservations.lookup request.id = some r → r.status = .waiting := by
        intro r hr
        rw [hlookup] at hr
        cases hr
        exact hstatus
      have heffect : Effect order L (.reserve request active) (L.withReservation request.id
        { existing with status := .waiting, active := false, dimension := d }) :=
        .parked hrun horigin hwaiting
      rwa [← hid] at heffect
    | held =>
      simp only [hstatus] at h
      have horigin : Origin L request existing := .inr ⟨hlookup, hrunID, hhash, .inr hstatus⟩
      rcases book_cases h with ⟨hadmission, rfl⟩ | ⟨-, rfl⟩ | ⟨hheld, -⟩
      · rw [hid, hrunID] at hadmission
        have heffect := Effect.booked hrun horigin hadmission
        rwa [← hid] at heffect
      · rw [← hid] at hlookup
        exact .touched hlookup .kept
      · cases hheld

lemma registerRun_effect (h : L.registerRun order runID binding = .ok next) :
    Effect order L (.registerRun runID binding) next := by
  unfold registerRun at h
  cases hlookup : L.runs.lookup runID with
  | some =>
    simp only [hlookup] at h
    split at h
    · cases h
    · cases h
      exact .unchanged
  | none =>
    have hnew : runID ∉ L.runs := lookup_eq_none.mp hlookup
    simp only [hlookup] at h
    split_ifs at h with hcancelled hroot hparent hfinished
    · cases h
      exact .root hnew hroot
    obtain ⟨_, hslots, h⟩ := bind_eq_ok h
    obtain ⟨_, hadmission, ⟨⟩⟩ := bind_eq_ok h
    exact .child hnew hroot hparent (forM_ok hslots) hadmission

lemma changeReservation_effect {change : Reservation → Except BudgetError Reservation}
    (hchange : ∀ old new, change old = .ok new → Touch L c id old new)
    (h : L.changeReservation id change = .ok next) : Effect order L c next := by
  unfold changeReservation at h
  rcases hlookup : L.reservations.lookup id with _ | old
  · rw [hlookup] at h
    cases h
  rw [hlookup] at h
  obtain ⟨new, hnew, ⟨⟩⟩ := bind_eq_ok h
  exact .touched hlookup (hchange old new hnew)

lemma requeueProvenUnsent_effect {revision : UInt64}
    (h : L.requeueProvenUnsent id revision = .ok next) :
    Effect order L (.requeueProvenUnsent id revision) next := by
  unfold requeueProvenUnsent at h
  split at h
  · cases h
  next hrevision =>
  rcases hlookup : L.reservations.lookup id with _ | _
  · simp only [hlookup] at h
    cases h
  simp only [hlookup] at h
  split at h
  · cases h
  next hguard =>
  simp only [Bool.or_eq_true, Bool.not_eq_true', decide_eq_true_eq, not_or, ne_eq, not_not,
    Bool.not_eq_false] at hguard
  cases h
  exact .touched hlookup (.requeue (not_not.mp hrevision) hguard.1.1.1.1 hguard.1.1.2)

lemma related_of_valid (h : validRelated runID seen r = true) : Related runID seen r := by
  simp only [validRelated, Bool.and_eq_true, Bool.or_eq_true, decide_eq_true_eq,
    Bool.not_eq_true'] at h
  obtain ⟨⟨⟨⟨⟨⟨⟨⟨⟨-, hunseen⟩, hrun⟩, -⟩, hrequested⟩, husage⟩, -⟩, hdispatched⟩, hactive⟩, hstatus⟩ := h
  exact ⟨hunseen, hrun, hrequested, husage, hdispatched, hactive, hstatus⟩

lemma transferred_of_ok (h : transferReceipts runID seen related m = .ok m') :
    Transferred runID seen related m m' := by
  induction related generalizing seen m with
  | nil =>
    cases h
    exact .done
  | cons r _ ih =>
    simp only [transferReceipts] at h
    split at h
    · cases h
    next hvalid =>
    have hrelated := related_of_valid (by simpa using hvalid)
    rcases hlookup : m.lookup r.id with _ | old
    · simp only [hlookup] at h
      exact .write hrelated (fun old hold => by simp [hlookup] at hold) (ih h)
    simp only [hlookup] at h
    split at h
    · cases h
    next hsame =>
    simp only [Bool.or_eq_true, Bool.and_eq_true, decide_eq_true_eq, not_or, ne_eq, not_not,
      not_and] at hsame
    obtain ⟨⟨⟨hrun, -⟩, hrequested⟩, hstatus⟩ := hsame
    split at h
    · next hsettled => exact .skip hrelated hlookup hsettled (ih h)
    next hopen =>
    refine .write hrelated (fun old' hold' => ?_) (ih h)
    rw [hlookup] at hold'
    cases hold'
    exact ⟨by_contra fun hheld => hopen (hstatus hheld), hrun, hrequested⟩

variable {usage : Usage} {receipt : GoString}

lemma settleWithReceipts_effect (h : L.settleWithReceipts id usage receipt related = .ok next) :
    Effect order L (.settleWithReceipts id usage receipt related) next := by
  unfold settleWithReceipts at h
  rcases hlookup : L.reservations.lookup id with _ | current
  · simp only [hlookup] at h
    cases h
  simp only [hlookup] at h
  split at h
  · cases h
  next hdispatched =>
  have hdispatched : current.dispatched = true := by simpa using hdispatched
  cases hstatus : current.status with
  | settled =>
    simp only [hstatus] at h
    split at h
    · cases h
    · cases h
      exact .unchanged
  | held =>
    simp only [hstatus] at h
    obtain ⟨m, hm, ⟨⟩⟩ := bind_eq_ok h
    exact .transferred hlookup hstatus hdispatched (transferred_of_ok hm)
  | waiting | released =>
    simp only [hstatus] at h
    cases h

lemma touch_dispatch (h : dispatch old = .ok new) : Touch L (.dispatch id) id old new := by
  unfold dispatch at h
  split_ifs at h with hheld hdispatched
  cases h
  exact .dispatch (not_not.mp hheld) (by simpa using hdispatched)

lemma touch_settle (h : settle usage receipt old = .ok new) :
    Touch L (.settle id usage receipt) id old new := by
  unfold settle at h
  split at h
  · split_ifs at h
    cases h
    exact .kept
  · next hheld =>
    cases h
    exact .settle hheld
  · cases h

lemma touch_release (h : release old = .ok new) : Touch L (.release id) id old new := by
  unfold release at h
  split_ifs at h with hguard
  cases h
  simp only [Bool.or_eq_true, decide_eq_true_eq, not_or, Bool.not_eq_true] at hguard
  exact .release hguard.1 hguard.2

/-- **A round has one of the listed effects.** -/
theorem attempt_effect (hsound : Sound L) (h : (c.attempt order L).2 = .ok (next, e)) :
    Effect order L c next := by
  cases c with
  | reserve => exact reserve_effect hsound h
  | registerRun =>
    obtain ⟨_, hok, ⟨⟩⟩ := map_eq_ok h
    exact registerRun_effect hok
  | finishRuns =>
    obtain ⟨_, hok, ⟨⟩⟩ := map_eq_ok h
    unfold finishRuns at hok
    split_ifs at hok
    cases hok
    exact .finished
  | dispatch =>
    obtain ⟨_, hok, ⟨⟩⟩ := map_eq_ok h
    exact changeReservation_effect (fun _ _ => touch_dispatch) hok
  | requeueProvenUnsent =>
    obtain ⟨_, hok, ⟨⟩⟩ := map_eq_ok h
    exact requeueProvenUnsent_effect hok
  | suspend =>
    obtain ⟨_, hok, ⟨⟩⟩ := map_eq_ok h
    exact changeReservation_effect (fun _ _ hnew => Except.ok.inj hnew ▸ .suspend) hok
  | settle =>
    obtain ⟨_, hok, ⟨⟩⟩ := map_eq_ok h
    exact changeReservation_effect (fun _ _ => touch_settle) hok
  | settleWithReceipts =>
    obtain ⟨_, hok, ⟨⟩⟩ := map_eq_ok h
    exact settleWithReceipts_effect hok
  | release =>
    obtain ⟨_, hok, ⟨⟩⟩ := map_eq_ok h
    exact changeReservation_effect (fun _ _ => touch_release) hok
  | cancel =>
    cases h
    exact .cancelled
  | cancelRun =>
    cases h
    exact .cancelledRun

/-! ### Rounds keep ledgers sound -/

lemma Effect.frame (h : Effect order L c next) :
    next.id = L.id ∧ next.revision = L.revision ∧ next.limits = L.limits := by
  cases h <;> exact ⟨rfl, rfl, rfl⟩

lemma Sound.origin (hsound : Sound L) {source : Reservation} (horigin : Origin L request source)
    (hrun : request.runID ∈ L.runs) (hrequested : ValidUsage request.requested) :
    source.id = request.id ∧ source.runID = request.runID ∧ source.runID ∈ L.runs ∧
      ValidUsage source.requested := by
  rcases horigin with ⟨-, rfl⟩ | ⟨hlookup, hrunID, -, -⟩
  · exact ⟨rfl, rfl, hrun, hrequested⟩
  · have hfits := hsound.fits _ _ hlookup
    exact ⟨hfits.id, hrunID, hfits.run, hfits.requested⟩

lemma Sound.withReservation (hsound : Sound L) (hfits : Fits L.runs id r) :
    Sound (L.withReservation id r) where
  limits := hsound.limits
  forest := ⟨hsound.forest.root, hsound.forest.closed, hsound.forest.limits, hsound.forest.ranked⟩
  fits id' r' h := by
    rcases lookup_insert_cases h with ⟨rfl, rfl⟩ | ⟨-, hold⟩
    · exact hfits
    · exact hsound.fits id' r' hold

lemma Sound.withoutReservation (hsound : Sound L) : Sound (L.withoutReservation id) where
  limits := hsound.limits
  forest := ⟨hsound.forest.root, hsound.forest.closed, hsound.forest.limits, hsound.forest.ranked⟩
  fits id' r' h := hsound.fits id' r' (lookup_of_lookup_erase h)

lemma Fits.mono {runs' : Map GoString RunBudget} (h : Fits runs id r)
    (hruns : ∀ x ∈ runs, x ∈ runs') : Fits runs' id r :=
  ⟨h.id, hruns _ h.run, h.requested, h.usage, h.active⟩

lemma Sound.withRun (hsound : Sound L) (hnew : runID ∉ L.runs) (hne : runID ≠ [])
    (hparent : binding.parentRunID = [] ∨ binding.parentRunID ∈ L.runs)
    (hlimits : ValidLimits binding.limits) : Sound (L.withRun runID binding) where
  limits := hsound.limits
  forest := hsound.forest.register hnew hne hparent hlimits
  fits id r h := (hsound.fits id r h).mono fun _ hx => (mem_insert _).mpr (.inr hx)

lemma Touch.fits (h : Touch L c id old new) (hcheck : c.check = none) (hfits : Fits runs id old) :
    Fits runs id new := by
  cases h with
  | kept => exact hfits
  | dispatch =>
    exact ⟨hfits.id, hfits.run, hfits.requested, hfits.usage, hfits.active⟩
  | requeue | release => exact ⟨hfits.id, hfits.run, hfits.requested, nofun, nofun⟩
  | suspend => exact ⟨hfits.id, hfits.run, hfits.requested, hfits.usage, nofun⟩
  | settle =>
    refine ⟨hfits.id, hfits.run, hfits.requested, fun _ => ?_, nofun⟩
    by_contra husage
    simp [Change.check, husage] at hcheck

lemma releaseUnsent_cases (r : Reservation) :
    (releaseUnsent r = r) ∨ (r.dispatched = false ∧ r.status ≠ .settled ∧
      releaseUnsent r = { r with status := .released, active := false }) := by
  unfold releaseUnsent
  split_ifs with hguard
  · simp only [Bool.and_eq_true, Bool.not_eq_true', decide_eq_true_eq] at hguard
    exact .inr ⟨hguard.1, hguard.2, rfl⟩
  · exact .inl rfl

lemma Fits.releaseUnsent (h : Fits runs id r) : Fits runs id (releaseUnsent r) := by
  rcases releaseUnsent_cases r with heq | ⟨-, -, heq⟩
  · rwa [heq]
  · rw [heq]
    exact ⟨h.id, h.run, h.requested, nofun, nofun⟩

/-- What `Cancel` and `CancelRun` do: some reservations are released, none appears. -/
lemma Sound.mapReservations (hsound : Sound L) {g : Reservation → Reservation}
    (hg : ∀ id r, Fits L.runs id r → Fits L.runs id (g r)) {cancelled : Bool}
    {cancelledRuns : Finset GoString} :
    Sound { L with
      cancelled := cancelled, cancelledRuns := cancelledRuns
      reservations := mapValues g L.reservations } where
  limits := hsound.limits
  forest := ⟨hsound.forest.root, hsound.forest.closed, hsound.forest.limits, hsound.forest.ranked⟩
  fits id r h := by
    have hmap : (L.reservations.lookup id).map g = some r := (lookup_mapValues g).symm.trans h
    obtain ⟨old, hold, rfl⟩ := Option.map_eq_some_iff.mp hmap
    exact hg id old (hsound.fits id old hold)

lemma Related.fits (h : Related runID seen r) (hrun : runID ∈ runs)
    (hm : ∀ id r, m.lookup id = some r → Fits runs id r) :
    ∀ id r', (m.insert r.id r).lookup id = some r' → Fits runs id r' := by
  intro id r' hlookup
  rcases lookup_insert_cases hlookup with ⟨rfl, rfl⟩ | ⟨-, hold⟩
  · refine ⟨rfl, h.run ▸ hrun, h.requested, fun _ => ?_, fun hactive => ?_⟩
    · rw [h.usage]
      decide
    · rw [h.inactive] at hactive
      cases hactive
  · exact hm id r' hold

lemma Transferred.fits (h : Transferred runID seen related m m') (hrun : runID ∈ runs)
    (hm : ∀ id r, m.lookup id = some r → Fits runs id r) :
    ∀ id r, m'.lookup id = some r → Fits runs id r := by
  induction h with
  | done => exact hm
  | skip _ _ _ _ ih => exact ih hm
  | write hrelated _ _ ih => exact ih (hrelated.fits hrun hm)

lemma Transferred.lookup_seen (h : Transferred runID seen related m m')
    (hid : id ∈ seen) : m'.lookup id = m.lookup id := by
  induction h with
  | done => rfl
  | skip _ _ _ _ ih => exact ih (mem_cons_of_mem _ hid)
  | write hrelated _ _ ih =>
    rw [ih (mem_cons_of_mem _ hid)]
    exact lookup_insert_of_ne fun heq => hrelated.unseen (heq ▸ hid)

lemma check_registerRun (h : (Change.registerRun runID binding).check = none) :
    runID ≠ [] ∧ ValidLimits binding.limits := by
  simp only [Change.check, ite_eq_right_iff, reduceCtorEq, imp_false, Bool.or_eq_true,
    decide_eq_true_eq, not_or, not_not] at h
  exact ⟨h.1.1, h.2⟩

/-- A request as the checks of `Reserve` let it pass. -/
def Presentable (q : Reservation) : Prop :=
  q.id ≠ [] ∧ q.runID ≠ [] ∧ q.requestHash ≠ [] ∧ ValidUsage q.requested

lemma check_reserve : (Change.reserve request active).check = none ↔ Presentable request := by
  simp [Change.check, Presentable, and_assoc]

lemma SameRequest.presentable {q q' : Reservation} (h : SameRequest q q') (hq : Presentable q') :
    Presentable q := by
  obtain ⟨hid, hrun, hhash, hrequested⟩ := h
  unfold Presentable
  rwa [hid, hrun, hhash, hrequested]

lemma validUsage_childCharge : ValidUsage childCharge := by decide

/-- **Every round keeps a sound ledger sound.** -/
theorem Effect.sound (h : Effect order L c next) (hcheck : c.check = none) (hsound : Sound L) :
    Sound next := by
  cases h with
  | unchanged => exact hsound
  | root hnew hroot =>
    obtain ⟨hne, hlimits⟩ := check_registerRun hcheck
    exact hsound.withRun hnew hne (.inl hroot) hlimits
  | child hnew hne hparent =>
    obtain ⟨hne, hlimits⟩ := check_registerRun hcheck
    refine Sound.withRun (hsound.withReservation ?_) hnew hne (.inr hparent) hlimits
    exact ⟨rfl, hparent, validUsage_childCharge, fun _ => validUsage_childCharge, nofun⟩
  | finished =>
    exact { hsound with forest := { hsound.forest with } }
  | booked hrun horigin | parked hrun horigin =>
    obtain ⟨hid, -, hrun, hrequested⟩ :=
      hsound.origin horigin hrun (check_reserve.mp hcheck).2.2.2
    exact hsound.withReservation ⟨hid, hrun, hrequested, nofun, by simp⟩
  | touched hold htouch =>
    exact hsound.withReservation (htouch.fits hcheck (hsound.fits _ _ hold))
  | cancelled => exact hsound.mapReservations fun _ _ hfits => hfits.releaseUnsent
  | cancelledRun =>
    refine hsound.mapReservations fun _ _ hfits => ?_
    split
    · exact hfits.releaseUnsent
    · exact hfits
  | transferred hcurrent _ _ htransfer =>
    have hfits := hsound.fits _ _ hcurrent
    refine { hsound with forest := { hsound.forest with }, fits := fun id' r hlookup => ?_ }
    rcases lookup_insert_cases hlookup with ⟨rfl, rfl⟩ | ⟨-, hold⟩
    · refine ⟨hfits.id, hfits.run, hfits.requested, fun _ => ?_, nofun⟩
      by_contra husage
      simp [Change.check, husage] at hcheck
    · exact htransfer.fits hfits.run hsound.fits id' r hold

/-- The request of the next round is as valid as that of this one. -/
lemma reserve_presentable (hsound : Sound L) (hrequest : Presentable request) :
    Presentable (L.reserve order request active).1 := by
  unfold reserve
  split
  · exact hrequest
  rcases hlookup : L.reservations.lookup request.id with _ | existing
  · exact book_request.presentable hrequest
  have hfits := hsound.fits _ _ hlookup
  dsimp only
  split
  · exact hrequest
  next hsame =>
  simp only [Bool.or_eq_true, decide_eq_true_eq, not_or, ne_eq, not_not] at hsame
  have hexisting : Presentable existing :=
    ⟨hfits.id ▸ hrequest.1, hsame.1 ▸ hrequest.2.1, hsame.2 ▸ hrequest.2.2.1, hfits.requested⟩
  cases existing.status with
  | settled | released => exact hrequest
  | waiting | held => exact book_request.presentable hexisting

lemma attempt_check (hsound : Sound L) (hcheck : c.check = none) :
    (c.attempt order L).1.check = none := by
  cases c with
  | reserve =>
    exact check_reserve.mpr (reserve_presentable hsound (check_reserve.mp hcheck))
  | _ => exact hcheck

/-! ### Identifiers -/

/-- An identifier that a caller may choose. -/
def CallerID (id : GoString) : Prop := ¬ lit "child:" <+: id

instance : DecidablePred CallerID := fun _ => inferInstanceAs (Decidable (¬ _))

/-- The reservations that a method may create carry identifiers of the caller. -/
def Change.CallerIDs : Change → Prop
  | reserve request _ => CallerID request.id
  | settleWithReceipts _ _ _ related => ∀ r ∈ related, CallerID r.id
  | _ => True

instance : (c : Change) → Decidable c.CallerIDs
  | .reserve request _ => inferInstanceAs (Decidable (CallerID request.id))
  | .settleWithReceipts _ _ _ related => inferInstanceAs (Decidable (∀ r ∈ related, CallerID r.id))
  | .registerRun _ _ | .finishRuns _ | .dispatch _ | .requeueProvenUnsent _ _ | .suspend _
  | .settle _ _ _ | .release _ | .cancel | .cancelRun _ => inferInstanceAs (Decidable True)

/-- Identifiers of the form `child:…` belong to registered Runs. -/
def OwnChildren (L : Ledger) : Prop := ∀ x, childID x ∈ L.reservations → x ∈ L.runs

lemma CallerID.ne_childID (h : CallerID id) (x : GoString) : id ≠ childID x := by
  rintro rfl
  exact h (prefix_append _ _)

lemma Transferred.keys (h : Transferred runID seen related m m')
    (hcaller : ∀ r ∈ related, CallerID r.id) (hx : childID x ∈ m') :
    childID x ∈ m := by
  induction h with
  | done => exact hx
  | skip _ _ _ _ ih => exact ih (forall_mem_cons.mp hcaller).2 hx
  | write _ _ _ ih =>
    rcases (AList.mem_insert _).mp (ih (forall_mem_cons.mp hcaller).2 hx)
      with heq | hmem
    · exact absurd heq.symm ((hcaller _ mem_cons_self).ne_childID x)
    · exact hmem

/-- Only `RegisterRun` creates reservations named after a Run. -/
lemma Effect.children (h : Effect order L c next) (hids : c.CallerIDs) (hL : OwnChildren L) :
    OwnChildren next := by
  intro x hx
  cases h with
  | unchanged | finished => exact hL x hx
  | root => exact (mem_insert _).mpr (.inr (hL x hx))
  | child =>
    rcases (mem_insert _).mp hx with heq | hmem
    · exact (mem_insert _).mpr (.inl (append_cancel_left heq))
    · exact (mem_insert _).mpr (.inr (hL x hmem))
  | booked | parked =>
    rcases (mem_insert _).mp hx with heq | hmem
    · exact absurd heq.symm (CallerID.ne_childID hids x)
    · exact hL x hmem
  | touched hold =>
    rcases (mem_insert _).mp hx with heq | hmem
    · exact hL x (heq ▸ mem_of_lookup hold)
    · exact hL x hmem
  | cancelled | cancelledRun =>
    rw [← lookup_isSome] at hx
    simp only [cancel, cancelRun, lookup_mapValues, Option.isSome_map, lookup_isSome] at hx
    exact hL x hx
  | transferred hcurrent _ _ htransfer =>
    rcases (mem_insert _).mp hx with heq | hmem
    · exact hL x (heq ▸ mem_of_lookup hcurrent)
    · exact hL x (htransfer.keys hids hmem)

end Budget
