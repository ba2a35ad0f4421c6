/-
Dispatched work stays accounted for
(`budget/ledger.go`, `budget/receipt_transfer.go`).

Once a reservation is dispatched nobody knows whether its external effect took
place, so it must not be refunded.  A round of a method concerns a reservation
through its identifier only, and the only rounds that end a dispatched reservation
are those of a settlement that names it and of `RequeueProvenUnsent`
(`Change.Finishes`).

`RequeueProvenUnsent` compares the revision its caller passes with the revision of
the ledger; that this is the revision which `Dispatch` returned is the caller's
word.  `sampleRequeued` is a run in which it is not.

* **`budget_accounting`** — dispatched reservations stay held, unchanged and counted
  until one of those calls commits, and settled ones never change.
-/
import AgentRuntime.BudgetCoordinator
import AgentRuntime.LedgerTotals

namespace Budget

open GoString FiniteMap List

variable {L next : Ledger} {order : RangeOrder} {s id runID : GoString} {r r' : Reservation}
  {c : Change} {finished : Prop}

/-- The calls that end a dispatched reservation: a settlement that names it, as the
reservation to settle or as a related receipt that is settled already, and a requeue. -/
def Change.Finishes (id : GoString) : Change → Prop
  | settle id' _ _ => id' = id
  | settleWithReceipts id' _ _ related => id' = id ∨ ∃ r ∈ related, r.id = id ∧ r.status = .settled
  | requeueProvenUnsent id' _ => id' = id
  | _ => False

/-- Dispatched work that is still held, for the same Run and the same amount. -/
structure StillHeld (r r' : Reservation) : Prop where
  status : r'.status = .held
  dispatched : r'.dispatched = true
  requested : r'.requested = r.requested
  run : r'.runID = r.runID

/-- A settlement that has not changed. -/
structure StillSettled (r r' : Reservation) : Prop where
  status : r'.status = .settled
  usage : r'.usage = r.usage
  receipt : r'.receipt = r.receipt

/-- What becomes of a reservation in rounds of which `finished` tells whether one of
them ends it. -/
structure Kept (finished : Prop) (r r' : Reservation) : Prop where
  held : r.status = .held → r.dispatched = true → ¬ finished → StillHeld r r'
  settled : r.status = .settled → StillSettled r r'

lemma Kept.refl : Kept finished r r :=
  ⟨fun hheld hdispatched _ => ⟨hheld, hdispatched, rfl, rfl⟩, fun hsettled => ⟨hsettled, rfl, rfl⟩⟩

lemma Kept.trans {p q : Prop} {r'' : Reservation} (h : Kept p r r') (h' : Kept q r' r'') :
    Kept (p ∨ q) r r'' where
  held hheld hdispatched hnot := by
    obtain ⟨hstatus, hdispatched', hrequested, hrun⟩ :=
      h.held hheld hdispatched fun hp => hnot (.inl hp)
    obtain ⟨hstatus', hdispatched'', hrequested', hrun'⟩ :=
      h'.held hstatus hdispatched' fun hq => hnot (.inr hq)
    exact ⟨hstatus', hdispatched'', hrequested'.trans hrequested, hrun'.trans hrun⟩
  settled hsettled := by
    obtain ⟨hstatus, husage, hreceipt⟩ := h.settled hsettled
    obtain ⟨hstatus', husage', hreceipt'⟩ := h'.settled hstatus
    exact ⟨hstatus', husage'.trans husage, hreceipt'.trans hreceipt⟩

lemma Kept.mono {p q : Prop} (h : Kept p r r') (hpq : p → q) : Kept q r r' :=
  ⟨fun hheld hdispatched hnot => h.held hheld hdispatched fun hp => hnot (hpq hp), h.settled⟩

/-! ### One round -/

theorem Touch.keeps (h : Touch L c id r r') : Kept (c.Finishes id) r r' := by
  cases h with
  | kept => exact .refl
  | dispatch hheld hnot =>
    refine ⟨fun _ hdispatched => ?_, fun hsettled => ?_⟩
    · rw [hnot] at hdispatched
      cases hdispatched
    · rw [hheld] at hsettled
      cases hsettled
  | requeue _ hheld | settle hheld =>
    refine ⟨fun _ _ hnot => absurd rfl hnot, fun hsettled => ?_⟩
    rw [hheld] at hsettled
    cases hsettled
  | suspend =>
    exact ⟨fun hheld hdispatched _ => ⟨hheld, hdispatched, rfl, rfl⟩,
      fun hsettled => ⟨hsettled, rfl, rfl⟩⟩
  | release hnot hopen =>
    refine ⟨fun _ hdispatched => ?_, fun hsettled => absurd hsettled hopen⟩
    rw [hnot] at hdispatched
    cases hdispatched

lemma releaseUnsent_keeps : Kept finished r (Ledger.releaseUnsent r) := by
  rcases releaseUnsent_cases r with heq | ⟨hnot, hopen, heq⟩
  · rw [heq]
    exact .refl
  refine ⟨fun _ hdispatched => ?_, fun hsettled => absurd hsettled hopen⟩
  rw [hnot] at hdispatched
  cases hdispatched

/-- The related receipts replace held reservations only, and only a settled receipt
ends one. -/
theorem Transferred.keeps {seen : List GoString} {related : List Reservation}
    {m m' : Map GoString Reservation} (h : Transferred runID seen related m m')
    (hlookup : m.lookup id = some r) : ∃ r', m'.lookup id = some r' ∧
      Kept (∃ x ∈ related, x.id = id ∧ x.status = .settled) r r' := by
  induction h generalizing r with
  | done => exact ⟨r, hlookup, .refl⟩
  | skip _ _ _ _ ih =>
    obtain ⟨r', hr', hkept⟩ := ih hlookup
    exact ⟨r', hr', hkept.mono fun ⟨x, hx, hfinish⟩ => ⟨x, mem_cons_of_mem _ hx, hfinish⟩⟩
  | @write _ related x _ _ hrelated hold _ ih =>
    have hlater : (∃ y ∈ related, y.id = id ∧ y.status = .settled) →
        ∃ y ∈ x :: related, y.id = id ∧ y.status = .settled :=
      fun ⟨y, hy, hfinish⟩ => ⟨y, mem_cons_of_mem _ hy, hfinish⟩
    by_cases hid : id = x.id
    · subst hid
      obtain ⟨hheld, hrun, hrequested⟩ := hold r hlookup
      obtain ⟨r', hr', hkept⟩ := ih (AList.lookup_insert _)
      have hnow : Kept (x.status = .settled) r x :=
        ⟨fun _ _ hnot => ⟨hrelated.status.resolve_right hnot, hrelated.dispatched,
          hrequested.symm, hrun.symm⟩, fun hsettled => by rw [hheld] at hsettled; cases hsettled⟩
      refine ⟨r', hr', (hnow.trans hkept).mono ?_⟩
      rintro (hsettled | hrest)
      · exact ⟨x, mem_cons_self, rfl, hsettled⟩
      · exact hlater hrest
    · obtain ⟨r', hr', hkept⟩ := ih ((lookup_insert_of_ne hid).trans hlookup)
      exact ⟨r', hr', hkept.mono hlater⟩

theorem Effect.keeps (h : Effect order L c next) (hchildren : OwnChildren L)
    (hlookup : L.reservations.lookup id = some r) :
    ∃ r', next.reservations.lookup id = some r' ∧ Kept (c.Finishes id) r r' := by
  -- a write under another identifier
  have hother : ∀ {id' : GoString} {x : Reservation}, id ≠ id' →
      ∃ r', (L.withReservation id' x).reservations.lookup id = some r' ∧ Kept (c.Finishes id) r r' :=
    fun hne => ⟨r, (lookup_insert_of_ne hne).trans hlookup, .refl⟩
  cases h with
  | unchanged | root | finished => exact ⟨r, hlookup, .refl⟩
  | @child runID _ hnew =>
    have hne : id ≠ childID runID := by
      rintro rfl
      exact hnew (hchildren runID (mem_of_lookup hlookup))
    exact ⟨r, (lookup_insert_of_ne hne).trans hlookup, .refl⟩
  | @booked request _ _ _ horigin =>
    by_cases hid : id = request.id
    · subst hid
      rcases horigin with ⟨hnone, -⟩ | ⟨hsource, -, -, hopen⟩
      · rw [hnone] at hlookup
        cases hlookup
      rw [hsource] at hlookup
      cases hlookup
      refine ⟨_, AList.lookup_insert _, ⟨fun _ hdispatched _ => ⟨rfl, hdispatched, rfl, rfl⟩,
        fun hsettled => ?_⟩⟩
      rw [hsettled] at hopen
      rcases hopen with hopen | hopen <;> cases hopen
    · exact hother hid
  | @parked request _ _ _ _ _ hnot =>
    by_cases hid : id = request.id
    · subst hid
      have hwaiting := hnot r hlookup
      refine ⟨_, AList.lookup_insert _, ⟨fun hheld => ?_, fun hsettled => ?_⟩⟩
      · rw [hwaiting] at hheld
        cases hheld
      · rw [hwaiting] at hsettled
        cases hsettled
    · exact hother hid
  | @touched _ id' _ new hold htouch =>
    by_cases hid : id = id'
    · subst hid
      rw [hold] at hlookup
      cases hlookup
      exact ⟨new, AList.lookup_insert _, htouch.keeps⟩
    · exact hother hid
  | cancelled =>
    refine ⟨Ledger.releaseUnsent r, ?_, releaseUnsent_keeps⟩
    rw [Ledger.cancel, lookup_mapValues, hlookup]
    rfl
  | @cancelledRun runID =>
    refine ⟨if L.contains runID r.runID then Ledger.releaseUnsent r else r, ?_, ?_⟩
    · rw [Ledger.cancelRun, lookup_mapValues, hlookup]
      rfl
    split
    · exact releaseUnsent_keeps
    · exact .refl
  | @transferred id' _ _ _ _ _ hcurrent hheld _ htransfer =>
    by_cases hid : id = id'
    · subst hid
      rw [hcurrent] at hlookup
      cases hlookup
      refine ⟨_, AList.lookup_insert _, ⟨fun _ _ hnot => absurd (.inl rfl) hnot, fun hsettled => ?_⟩⟩
      rw [hheld] at hsettled
      cases hsettled
    · obtain ⟨r', hr', hkept⟩ := htransfer.keeps hlookup
      exact ⟨r', (lookup_insert_of_ne hid).trans hr', hkept.mono .inr⟩

/-! ### Whole histories -/

section Histories

variable {scope : GoString} {newer older history : List LedgerWrite} {write : LedgerWrite}

/-- One of these saves ends the reservation. -/
def FinishedIn (writes : List LedgerWrite) (id : GoString) : Prop :=
  ∃ write ∈ writes, ∃ change ∈ write.change, change.Finishes id

/-- What the later part of a history leaves of a reservation.  The induction is on
that part; each of its entries was computed from the entry below it. -/
theorem LedgerStory.keeps (h : LedgerStory scope (newer ++ write :: older))
    (hbound : (newer ++ write :: older).length < 2 ^ 64)
    (hids : ∀ x ∈ newer ++ write :: older, ∀ change ∈ x.change, change.CallerIDs)
    (hlookup : write.after.reservations.lookup id = some r) :
    ∃ newest rest r', newer ++ write :: older = newest :: rest ∧
      newest.after.reservations.lookup id = some r' ∧ Kept (FinishedIn newer id) r r' := by
  induction newer with
  | nil => exact ⟨write, older, r, rfl, hlookup, .refl⟩
  | cons x newer ih =>
    rw [cons_append] at h
    have hrest : LedgerStory scope (newer ++ write :: older) := h.of_suffix (suffix_cons _ _)
    have hids' : ∀ y ∈ newer ++ write :: older, ∀ change ∈ y.change, change.CallerIDs :=
      (forall_mem_cons.mp hids).2
    have hlength : (newer ++ write :: older).length < 2 ^ 64 := by
      rw [cons_append, length_cons] at hbound
      omega
    obtain ⟨newest, _, _, heq, hr1, hkept⟩ := ih hrest hlength hids'
    refine ⟨x, newer ++ write :: older, ?_⟩
    rcases LedgerStory.before_eq h hlength with ⟨hnil, -⟩ |
      ⟨previous, tail, change, hcons, hchange, -, -, -, order, next, heffect, hafter⟩
    · rw [heq] at hnil
      cases hnil
    rw [heq] at hcons
    cases hcons
    have hchildren := hrest.children hids' newest.after
      (mem_map_after (heq ▸ mem_cons_self))
    obtain ⟨r2, _, hkept'⟩ := heffect.keeps hchildren hr1
    refine ⟨r2, rfl, ?_, (hkept.trans hkept').mono ?_⟩
    · rwa [hafter]
    rintro (⟨y, hy, hfinish⟩ | hfinish)
    · exact ⟨y, mem_cons_of_mem _ hy, hfinish⟩
    · exact ⟨x, mem_cons_self, change, hchange, hfinish⟩

/-- A requeue commits at the revision its caller passes, and at no other. -/
lemma LedgerStory.requeue_revision (h : LedgerStory scope history) (hwrite : write ∈ history)
    {revision : UInt64} (hchange : write.change = some (.requeueProvenUnsent id revision)) :
    write.before.revision = revision := by
  induction h with
  | nil => cases hwrite
  | ensured _ _ _ ih =>
    rcases mem_cons.mp hwrite with rfl | hwrite
    · cases hchange
    · exact ih hwrite
  | changed _ _ _ _ hattempt ih =>
    rcases mem_cons.mp hwrite with rfl | hwrite
    · cases hchange
      obtain ⟨_, hok, -⟩ := map_eq_ok hattempt
      by_contra hne
      rw [Ledger.requeueProvenUnsent, if_pos hne] at hok
      cases hok
    · exact ih hwrite

end Histories

/-! ### Accounting -/

lemma held_of_lookup (hlookup : L.reservations.lookup id = some r) (hheld : r.status = .held)
    (hcontains : L.contains s r.runID = true) :
    L.held s = r.requested + (L.withoutReservation id).held s := by
  have hamount : L.heldAmount s r = some r.requested := by
    simp [Ledger.heldAmount, hcontains, hheld]
  have htotal := total_of_lookup (f := fun r => (L.heldAmount s r).getD 0) hlookup
  simp only [hamount, Option.getD_some] at htotal
  exact htotal

/-- **Budget accounting never refunds uncertain work.**  Between two moments of a run
with fewer than 2^64 saves, a held and dispatched reservation stays held with the same
request until a settlement that names it or a requeue of it commits, and it is counted
in the `Reserved` of each of its scopes as long as the held requests of that scope do
not overflow; a settled reservation keeps its usage and its receipt; and a requeue
commits only at the revision that its caller passes. -/
theorem budget_accounting (c c' : System) (scope id : GoString) (L : Ledger) (r : Reservation)
    (newer : List LedgerWrite) (hreach : c.Reachable) (hlater : c.Later c')
    (hbound : (c'.shared.history scope).length < 2 ^ 64)
    (hids : ∀ write ∈ c'.shared.history scope, ∀ change ∈ write.change, change.CallerIDs)
    (hledger : c.shared.ledger scope = some L) (hr : L.reservations.lookup id = some r)
    (hnewer : c'.shared.history scope = newer ++ c.shared.history scope) :
    (∃ L' r', c'.shared.ledger scope = some L' ∧ L'.reservations.lookup id = some r' ∧
      (r.status = .held → r.dispatched = true →
        (∀ write ∈ newer, ∀ change ∈ write.change, ¬ change.Finishes id) →
        r'.status = .held ∧ r'.dispatched = true ∧ r'.requested = r.requested ∧
        r'.runID = r.runID ∧ ∀ order s, L'.contains s r.runID = true →
          (∀ m, L'.held s m ≤ maxInt) →
          (L'.view order s).reserved = r.requested + (L'.withoutReservation id).held s) ∧
      (r.status = .settled → r'.status = .settled ∧ r'.usage = r.usage ∧ r'.receipt = r.receipt)) ∧
    ∀ write ∈ c'.shared.history scope, ∀ rid revision,
      write.change = some (.requeueProvenUnsent rid revision) → write.before.revision = revision := by
  have hstory := reachable_story (hreach.trans hlater) scope
  refine ⟨?_, fun write hwrite rid revision hchange => hstory.requeue_revision hwrite hchange⟩
  obtain ⟨write, older, hhistory, rfl⟩ := ledger_eq_some hledger
  rw [hhistory] at hnewer
  rw [hnewer] at hstory hbound hids
  obtain ⟨newest, _, r', heq, hr', hkept⟩ := hstory.keeps hbound hids hr
  have hledger' : c'.shared.ledger scope = some newest.after := by
    rw [LedgerWorld.ledger, hnewer, heq]
    rfl
  have hsound := (hstory.sound newest.after (mem_map_after (heq ▸ mem_cons_self))).1
  refine ⟨newest.after, r', hledger', hr', fun hheld hdispatched hopen => ?_, fun hsettled => ?_⟩
  · obtain ⟨hstatus, hdispatched', hrequested, hrun⟩ := hkept.held hheld hdispatched (by
      rintro ⟨x, hx, change, hchange, hfinish⟩
      exact hopen x hx change hchange hfinish)
    refine ⟨hstatus, hdispatched', hrequested, hrun, fun order s hcontains hroom => ?_⟩
    rw [view_reserved hsound hroom, held_of_lookup hr' hstatus (hrun ▸ hcontains), hrequested]
  · exact ⟨(hkept.settled hsettled).status, (hkept.settled hsettled).usage,
      (hkept.settled hsettled).receipt⟩

/-- A dispatched call, and then another reservation. -/
def sampleDispatched : System :=
  let calls : List Request :=
    [.ensure 1 (lit "t") 0,
      .change 1 (lit "t") (.registerRun (lit "r") {}),
      .change 1 (lit "t") (.reserve
        { id := lit "model:a", runID := lit "r", requestHash := lit "h",
          requested := Pi.single .llmCalls 1 } true),
      .change 1 (lit "t") (.dispatch (lit "model:a")),
      .change 1 (lit "t") (.reserve { id := lit "b", runID := lit "r", requestHash := lit "h" } false)]
  calls.foldl System.serve ⟨{}, []⟩

lemma sampleDispatched_reachable : sampleDispatched.Reachable := System.later_foldl _ _

/-- Cancelling the Turn releases the second reservation and not the dispatched one. -/
theorem budget_accounting_cancelled : ∃ L' r', (sampleDispatched.serve
      (.change 1 (lit "t") .cancel)).shared.ledger (lit "t") = some L' ∧
    L'.reservations.lookup (lit "model:a") = some r' ∧ r'.status = .held ∧
    (L'.reservations.lookup (lit "b")).map Reservation.status = some .released := by
  let c' := sampleDispatched.serve (.change 1 (lit "t") .cancel)
  have hfound : (sampleDispatched.shared.ledger (lit "t")).any (fun L =>
      (L.reservations.lookup (lit "model:a")).any fun r => r.status = .held && r.dispatched) = true := by
    decide +kernel
  obtain ⟨L, hL, hr⟩ := Option.any_eq_true _ _ |>.mp hfound
  obtain ⟨r, hr, hheld⟩ := Option.any_eq_true _ _ |>.mp hr
  simp only [Bool.and_eq_true, decide_eq_true_eq] at hheld
  have hids : ∀ write ∈ c'.shared.history (lit "t"), ∀ change ∈ write.change, change.CallerIDs := by
    decide +kernel
  have hreleased : (c'.shared.ledger (lit "t")).any (fun L' =>
      (L'.reservations.lookup (lit "b")).map Reservation.status = some .released) = true := by
    decide +kernel
  have hnewer : ∀ write ∈ (c'.shared.history (lit "t")).take 1, write.change = some .cancel := by
    decide +kernel
  obtain ⟨⟨L', r', hL', hr', hstill, -⟩, -⟩ := budget_accounting sampleDispatched c' (lit "t")
    (lit "model:a") L r ((c'.shared.history (lit "t")).take 1) sampleDispatched_reachable
    (System.later_serve _ _) (by decide +kernel) hids hL hr rfl
  refine ⟨L', r', hL', hr', (hstill hheld.1 hheld.2 fun write hwrite change hchange => ?_).1, ?_⟩
  · rw [hnewer write hwrite] at hchange
    cases hchange
    exact id
  · rw [hL'] at hreleased
    simpa using hreleased

/-- The same call requeued at the current revision, which is not the one its
`Dispatch` wrote. -/
def sampleRequeued : System :=
  sampleDispatched.serve (.change 1 (lit "t") (.requeueProvenUnsent (lit "model:a") 5))

/-- **A requeue at a later revision.**  The reservation was dispatched in revision 4, and
by no other save; a requeue with the current revision 5 commits and refunds it. -/
theorem budget_accounting_requeued : sampleDispatched.Reachable ∧
    sampleDispatched.Later sampleRequeued ∧
    (sampleDispatched.shared.ledger (lit "t")).any (fun L =>
      (L.reservations.lookup (lit "model:a")).any fun r => r.status = .held && r.dispatched) = true ∧
    (sampleRequeued.shared.history (lit "t")).map LedgerWrite.change =
      some (.requeueProvenUnsent (lit "model:a") 5) ::
        (sampleDispatched.shared.history (lit "t")).map LedgerWrite.change ∧
    (∀ write ∈ sampleRequeued.shared.history (lit "t"),
      write.change = some (.dispatch (lit "model:a")) → write.after.revision = 4) ∧
    (sampleRequeued.shared.ledger (lit "t")).any (fun L =>
      (L.reservations.lookup (lit "model:a")).any fun r => r.status = .waiting) = true := by
  refine ⟨sampleDispatched_reachable, System.later_serve _ _, ?_, ?_, ?_, ?_⟩
  all_goals decide +kernel

end Budget
