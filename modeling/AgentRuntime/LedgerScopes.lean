/-
The scopes of a ledger: what `View` reports of one, how they nest, and what cancelling
one does (`budget/ledger.go`, `budget/ledger_usage.go`).

`View` drops the error of `AddUsage`, and `remainingUsage` subtracts in 64-bit words.  The
numbers are right exactly as long as the sums are in range (`InRange`); a usage that is settled
only has to be valid, so two of them can leave that range and take all other meters with them
(`view_overflow`).  Scopes nest along the parents of the Runs, which are fixed at registration.

* **`view_exact_iff`** — when the projection and the admission of a reachable ledger are exact;
* **`run_forest`** — parents form a well-founded forest, every walk to the ancestors ends, and
  bindings stay;
* **`subtree_cancellation`** — cancelling a subtree stops it and leaves the others alone.
-/
import AgentRuntime.BudgetCeilings
import AgentRuntime.WordCounters

namespace Budget

open GoString FiniteMap Interleaving WordCounters List Ledger

variable {L L' : Ledger} {order : RangeOrder} {s id runID : GoString} {c : Change}

/-! ### Exact projections -/

/-- The meters that `remainingUsage` fills in. -/
def remainders : List (Dimension × Meter) :=
  [(.llmCalls, .llmCalls), (.toolCalls, .toolCalls), (.hostedToolCalls, .hostedToolCalls),
    (.childRuns, .childRuns), (.inputTokens, .inputTokens), (.outputTokens, .outputTokens),
    (.totalTokens, .totalTokens)]

/-- The numbers of a scope are those of the reservations, in whatever order they are added. -/
def ViewExact (L : Ledger) (s : GoString) : Prop :=
  ∀ order : RangeOrder, (L.view order s).usage = L.settled s ∧ (L.view order s).reserved = L.held s ∧
    ∀ p ∈ remainders, (L.view order s).remaining p.2 =
      max 0 (L.limitsOf s p.1 - L.settled s p.2 - L.held s p.2)

/-- Nothing is admitted over a ceiling of the Run, of an ancestor or of the Turn. -/
def AdmitExact (L : Ledger) : Prop :=
  ∀ order runID requested active, L.admission order runID requested active = .ok () →
    ∀ s ∈ L.scopesOf runID, ∀ p ∈ metered, L.limitsOf s p.1 ≠ 0 →
      L.settled s p.2 + L.held s p.2 + requested p.2 ≤ L.limitsOf s p.1

/-- The sums of a scope are 64-bit numbers, and so is what is left of every ceiling. -/
structure InRange (L : Ledger) (s : GoString) : Prop where
  settled : ∀ m, L.settled s m ≤ maxInt
  held : ∀ m, L.held s m ≤ maxInt
  remaining : ∀ p ∈ remainders, L.settled s p.2 + L.held s p.2 ≤ L.limitsOf s p.1 + 2 ^ 63

lemma addOrReset_le (u v : Usage) (m : Meter) : addOrReset u v m ≤ maxInt := by
  rw [addOrReset]
  cases h : addUsage u v with
  | error => exact (by decide : (0 : ℤ) ≤ maxInt)
  | ok =>
    obtain ⟨rfl, hroom⟩ := addUsage_eq_ok h
    exact hroom m

/-- Whatever was added or lost, a component of the tally is a 64-bit number. -/
lemma tally_le {pick : Reservation → Option Usage} {get : Tally → Usage}
    {step : Tally → (Σ _ : GoString, Reservation) → Tally}
    (hstep : ∀ t e, get (step t e) = match pick e.2 with
      | some u => addOrReset (get t) u
      | none => get t)
    (l : List (Σ _ : GoString, Reservation)) {t : Tally} {m : Meter} (ht : get t m ≤ maxInt) :
    get (l.foldl step t) m ≤ maxInt := by
  induction l generalizing t with
  | nil => exact ht
  | cons _ _ ih =>
    refine ih ?_
    rw [hstep]
    split
    · exact addOrReset_le _ _ _
    · exact ht

lemma view_usage_le (m : Meter) : (L.view order s).usage m ≤ maxInt :=
  tally_le (L.tallyStep_usage) _ (by decide +revert)

lemma view_reserved_le (m : Meter) : (L.view order s).reserved m ≤ maxInt :=
  tally_le (L.tallyStep_reserved) _ (by decide +revert)

/-- The two subtractions of `remainingUsage` in words. -/
lemma bmod_left_iff {limit used reserved : ℤ} (hlimit : 0 ≤ limit) (hmax : limit ≤ maxInt)
    (hused : 0 ≤ used ∧ used ≤ maxInt) (hreserved : 0 ≤ reserved ∧ reserved ≤ maxInt) :
    max 0 ((limit - used - reserved).bmod (2 ^ 64)) = max 0 (limit - used - reserved) ↔
      used + reserved ≤ limit + 2 ^ 63 := by
  rw [maxInt] at hmax hused hreserved
  constructor
  · intro heq
    by_contra hover
    -- the difference wraps to a positive number
    have hwrap : (limit - used - reserved).bmod (2 ^ 64) = limit - used - reserved + 2 ^ 64 := by
      rw [← Int.add_bmod_right]
      exact bmod_of_fits (by omega) (by omega)
    omega
  · intro _
    rw [bmod_of_fits (by omega) (by omega)]

lemma remaining_apply {p : Dimension × Meter} (hp : p ∈ remainders) :
    (L.view order s).remaining p.2 = max 0 (Int.bmod (L.limitsOf s p.1 -
      (L.view order s).usage p.2 - (L.view order s).reserved p.2) (2 ^ 64)) := by
  simp only [remainders, mem_cons, not_mem_nil, or_false] at hp
  obtain rfl | rfl | rfl | rfl | rfl | rfl | rfl := hp <;> rfl

lemma viewExact_iff (hsound : Sound L) (hlimits : ∀ d, L.limitsOf s d ≤ maxInt) :
    ViewExact L s ↔ InRange L s := by
  have hleft : (∀ m, L.settled s m ≤ maxInt) → (∀ m, L.held s m ≤ maxInt) →
      ∀ p ∈ remainders, max 0 (Int.bmod (L.limitsOf s p.1 - L.settled s p.2 - L.held s p.2) (2 ^ 64)) =
        max 0 (L.limitsOf s p.1 - L.settled s p.2 - L.held s p.2) ↔
          L.settled s p.2 + L.held s p.2 ≤ L.limitsOf s p.1 + 2 ^ 63 := by
    intro hsettled hheld p _
    exact bmod_left_iff (hsound.limitsOf_nonneg _) (hlimits _)
      ⟨hsound.settled_nonneg _, hsettled _⟩ ⟨hsound.held_nonneg _, hheld _⟩
  constructor
  · intro h
    obtain ⟨husage, hreserved, hremaining⟩ := h .stored
    have hsettled : ∀ m, L.settled s m ≤ maxInt := fun m => husage ▸ view_usage_le m
    have hheld : ∀ m, L.held s m ≤ maxInt := fun m => hreserved ▸ view_reserved_le m
    refine ⟨hsettled, hheld, fun p hp => (hleft hsettled hheld p hp).mp ?_⟩
    rw [← hremaining p hp, remaining_apply hp, husage, hreserved]
  · intro h order
    have husage : (L.view order s).usage = L.settled s := view_usage hsound h.settled
    have hreserved : (L.view order s).reserved = L.held s := view_reserved hsound h.held
    refine ⟨husage, hreserved, fun p hp => ?_⟩
    rw [remaining_apply hp, husage, hreserved]
    exact (hleft h.settled h.held p hp).mpr (h.remaining p hp)

lemma sound_of_reachable {c : System} (h : c.Reachable) (hledger : c.shared.ledger id = some L) :
    Sound L := by
  obtain ⟨_, hwrite, rfl⟩ := Option.map_eq_some_iff.mp hledger
  exact ((reachable_story h id).sound _ (mem_map_after (mem_of_mem_head? hwrite))).1

/-- **When `View` and `admit` are exact.**  In a reachable ledger whose ceilings are 64-bit
numbers, every projection is exact in every order and nothing is admitted over a ceiling, exactly
if the sums of every scope are in range. -/
theorem view_exact_iff (c : System) (id : GoString) (L : Ledger) (hreach : c.Reachable)
    (hledger : c.shared.ledger id = some L) (hlimits : ∀ s d, L.limitsOf s d ≤ maxInt) :
    ((∀ s, ViewExact L s) ∧ AdmitExact L) ↔ ∀ s, InRange L s := by
  have hsound := sound_of_reachable hreach hledger
  constructor
  · intro h s
    exact (viewExact_iff hsound (hlimits s)).mp (h.1 s)
  intro h
  have hview : ∀ s, ViewExact L s := fun s => (viewExact_iff hsound (hlimits s)).mpr (h s)
  refine ⟨hview, fun order runID requested active hadmit s hs p hp hlimit => ?_⟩
  obtain ⟨husage, hreserved, -⟩ := hview s order
  have hwithin := (admit_of_view hsound hadmit (Ledger.contains_iff_mem_scopesOf.mpr hs) husage
    hreserved).metered p hp hlimit
  rwa [Ledger.occupied_eq] at hwithin

/-- A Turn with two model calls, which both cost as much as a word holds. -/
def sampleCosts : System :=
  let call (id : GoString) : List Request :=
    [.change 1 (lit "t") (.reserve
        { id, runID := lit "r", requestHash := lit "h", requested := Pi.single .llmCalls 1 } true),
      .change 1 (lit "t") (.settle id (Pi.single .llmCalls 1 + Pi.single .costUnits maxInt) [])]
  let calls := .ensure 1 (lit "t") (Pi.single .llmCalls 2) ::
    .change 1 (lit "t") (.registerRun (lit "r") {}) :: (call (lit "a") ++ call (lit "b"))
  calls.foldl System.serve ⟨{}, []⟩

/-- **Both calls are forgotten**: the second cost overflows, `View` reports no usage at all, and
a third call is admitted under a ceiling of two. -/
theorem view_overflow : sampleCosts.Reachable ∧ (sampleCosts.shared.ledger (lit "t")).any (fun L =>
    L.settled [] .llmCalls = 2 && (L.view .stored []).usage .llmCalls = 0 &&
      L.limitsOf [] .llmCalls = 2 &&
      (L.admission .stored (lit "r") (Pi.single .llmCalls 1) true).isOk) = true :=
  ⟨System.later_foldl _ _, by decide +kernel⟩

lemma InRange.of_room (hsound : Sound L) (hroom : ∀ m, L.occupied [] m ≤ maxInt) :
    InRange L s := by
  have hsum : ∀ m, L.settled s m + L.held s m ≤ maxInt := by
    intro m
    have hle := hsound.occupied_le_turn (s := s) m
    rw [occupied_eq] at hle
    exact hle.trans (hroom m)
  have hsettled := fun m => hsound.settled_nonneg (s := s) m
  have hheld := fun m => hsound.held_nonneg (s := s) m
  simp only [Pi.zero_apply] at hsettled hheld
  refine ⟨fun m => ?_, fun m => ?_, fun p _ => ?_⟩
  · linarith [hsum m, hheld m]
  · linarith [hsum m, hsettled m]
  have hlimit := hsound.limitsOf_nonneg (s := s) p.1
  have hmax : maxInt = 2 ^ 63 - 1 := rfl
  linarith [hsum p.2]

/-- The sums of a small Turn are in range, and its projections exact. -/
theorem view_exact_small : ∃ L, sampleTurn.shared.ledger (lit "t") = some L ∧
    (∀ s, ViewExact L s) ∧ AdmitExact L := by
  have hfacts : (sampleTurn.shared.ledger (lit "t")).any (fun L =>
      (∀ m, L.occupied [] m ≤ maxInt) && (∀ d, L.limits d ≤ maxInt) &&
        L.runs.entries.all fun e => ∀ d, e.2.limits d ≤ maxInt) = true := by decide +kernel
  obtain ⟨L, hL, hfacts⟩ := Option.any_eq_true _ _ |>.mp hfacts
  simp only [Bool.and_eq_true, decide_eq_true_eq, all_eq_true] at hfacts
  obtain ⟨⟨hroom, hturn⟩, hruns⟩ := hfacts
  have hreach : sampleTurn.Reachable := System.later_foldl _ _
  refine ⟨L, hL, (view_exact_iff sampleTurn (lit "t") L hreach hL fun s d => ?_).mpr fun s =>
    .of_room (sound_of_reachable hreach hL) hroom⟩
  rw [Ledger.limitsOf]
  split
  · exact hturn d
  cases hlookup : L.runs.lookup s with
  | none => exact (by decide : (0 : ℤ) ≤ maxInt)
  | some b => exact hruns ⟨s, b⟩ (mem_entries.mpr hlookup) d

/-! ### The forest of the Runs -/

/-- The Run `p` is the parent of the Run `x`. -/
def Ledger.IsParent (L : Ledger) (p x : GoString) : Prop :=
  p ≠ [] ∧ ∃ b, L.runs.lookup x = some b ∧ b.parentRunID = p

lemma Forest.isParent_wf (h : Forest L) : WellFounded L.IsParent := by
  obtain ⟨rank, -, hrank⟩ := h.ranked
  refine Subrelation.wf ?_ (measure rank).wf
  rintro p x ⟨-, b, hlookup, rfl⟩
  have hx : x ≠ [] := fun heq => h.root (heq ▸ mem_of_lookup hlookup)
  have hlt := hrank x hx
  rwa [parentOf_of_lookup hlookup] at hlt

/-- The loop from any identifier to its ancestors ends, after the steps that `lineage` lists. -/
lemma Forest.walk_ends (h : Forest L) (x : GoString) :
    ∃ n, L.parentOf^[n] x = [] ∧ (∀ i < n, L.parentOf^[i] x ≠ []) ∧
      L.lineage x = (range n).map fun i => L.parentOf^[i] x := by
  obtain ⟨rank, -, hrank⟩ := h.ranked
  -- the rank falls with every step
  induction hn : rank x using Nat.strong_induction_on generalizing x with
  | _ _ ih =>
    by_cases hx : x = []
    · subst hx
      exact ⟨0, rfl, by simp, walk_root⟩
    obtain ⟨n, hend, hopen, hlist⟩ := ih _ (hn ▸ hrank x hx) (L.parentOf x) rfl
    refine ⟨n + 1, hend, fun i hi => ?_, ?_⟩
    · cases i with
      | zero => exact hx
      | succ i => exact hopen i (by omega)
    · rw [h.lineage_cons hx, hlist, range_succ_eq_map, map_cons, map_map]
      rfl

lemma Effect.binding {next : Ledger} (h : Effect order L c next) {x : GoString} {b : RunBudget}
    (hx : L.runs.lookup x = some b) : next.runs.lookup x = some b := by
  cases h with
  | root hnew | child hnew =>
    refine (lookup_insert_of_ne ?_).trans hx
    rintro rfl
    exact hnew (mem_of_lookup hx)
  | _ => exact hx

variable {R : Ledger → Ledger → Prop} {scope : GoString} {newer older : List LedgerWrite}
  {write : LedgerWrite}

/-- What every round keeps of the ledger that it starts from is kept by a history of fewer than
2^64 saves, in which every entry was computed from the one below it. -/
lemma LedgerStory.chain (h : LedgerStory scope (newer ++ write :: older))
    (hbound : (newer ++ write :: older).length < 2 ^ 64) (hrefl : ∀ L, R L L)
    (htrans : ∀ {L1 L2 L3}, R L1 L2 → R L2 L3 → R L1 L3)
    (hround : ∀ {order L change next}, Sound L → change.check = none → Effect order L change next →
      R L { next with revision := next.revision + 1 }) :
    ∀ later ∈ (newer ++ write :: older).head?, R write.after later.after := by
  induction newer with
  | nil =>
    intro _ hlater
    cases hlater
    exact hrefl _
  | cons _ newer ih =>
    intro _ hlater
    cases hlater
    rw [cons_append] at h
    have hlength : (newer ++ write :: older).length < 2 ^ 64 := by
      rw [cons_append, length_cons] at hbound
      omega
    obtain ⟨hnil, -⟩ | ⟨previous, tail, change, hcons, -, -, hcheck, hsound, order, next, heffect,
      hafter⟩ := LedgerStory.before_eq h hlength
    · simp at hnil
    rw [hafter]
    refine htrans (ih (h.of_suffix (suffix_cons _ _)) hlength previous ?_)
      (hround hsound hcheck heffect)
    rw [hcons]
    rfl

variable {c' : System}

lemma System.later_history {c : System} (h : c.Reachable) (hlater : c.Later c') (id : GoString) :
    c.shared.history id <:+ c'.shared.history id := by
  have hgrow : ∀ {w w'}, ledgerProtocol.Later w w' → w.history id <:+ w'.history id := by
    intro w _ hsteps
    induction hsteps with
    | refl => exact suffix_rfl
    | tail _ hguar ih => exact ih.trans (history_suffix hguar id)
  exact hgrow ((reachable_safeConfig h).steps (fun q _ hI => serve_safe q hI) hlater).1

/-- What every round keeps is kept between two moments of a run with fewer than 2^64 saves. -/
lemma System.later_ledger {c : System} (h : c.Reachable)
    (hlater : c.Later c') (hbound : (c'.shared.history id).length < 2 ^ 64)
    (hledger : c.shared.ledger id = some L) (hledger' : c'.shared.ledger id = some L')
    (hrefl : ∀ L, R L L) (htrans : ∀ {L1 L2 L3}, R L1 L2 → R L2 L3 → R L1 L3)
    (hround : ∀ {order L change next}, Sound L → change.check = none → Effect order L change next →
      R L { next with revision := next.revision + 1 }) : R L L' := by
  obtain ⟨_, hwrite, rfl⟩ := Option.map_eq_some_iff.mp hledger
  obtain ⟨later, hnewest, rfl⟩ := Option.map_eq_some_iff.mp hledger'
  obtain ⟨_, hold⟩ := head?_eq_some_iff.mp hwrite
  obtain ⟨_, hnewer⟩ := System.later_history h hlater id
  have hstory := reachable_story (h.trans hlater) id
  rw [← hnewer, hold] at hstory hbound hnewest
  exact hstory.chain hbound hrefl htrans hround later hnewest

/-- **The Runs of a ledger form a forest**: the parent relation is well founded, the loop to the
ancestors ends for every identifier, registered or not, `contains` decides whether a scope is the
Run or an ancestor of it, and in a run with fewer than 2^64 saves a binding stays as it was
registered. -/
theorem run_forest (c : System) (id : GoString) (L : Ledger) (hreach : c.Reachable)
    (hledger : c.shared.ledger id = some L) :
    WellFounded L.IsParent ∧
    (∀ x b, L.runs.lookup x = some b → b.parentRunID = [] ∨ b.parentRunID ∈ L.runs) ∧
    (∀ x, ∃ n, L.parentOf^[n] x = [] ∧ (∀ i < n, L.parentOf^[i] x ≠ []) ∧
      L.lineage x = (List.range n).map fun i => L.parentOf^[i] x) ∧
    (∀ p x, L.contains p x = true ↔ p = [] ∨ Ancestor L x p) ∧
    ∀ c' L', c.Later c' → (c'.shared.history id).length < 2 ^ 64 → c'.shared.ledger id = some L' →
      ∀ x b, L.runs.lookup x = some b → L'.runs.lookup x = some b := by
  have hforest := (sound_of_reachable hreach hledger).forest
  refine ⟨hforest.isParent_wf, hforest.closed, hforest.walk_ends, fun p x => hforest.contains_iff, ?_⟩
  intro _ L' hlater hbound hledger'
  exact System.later_ledger (R := fun L L' => ∀ x b, L.runs.lookup x = some b →
    L'.runs.lookup x = some b) hreach hlater hbound hledger hledger' (fun _ _ _ h => h)
    (fun h h' x b hx => h' x b (h x b hx)) fun _ _ heffect _ _ hx => heffect.binding hx

/-- Two Runs side by side. -/
def sampleSiblings : System :=
  let calls : List Request := [.ensure 1 (lit "t") 0, .change 1 (lit "t") (.registerRun (lit "x") {}),
    .change 1 (lit "t") (.registerRun (lit "y") {})]
  calls.foldl System.serve ⟨{}, []⟩

/-- A child of the first, and a reservation of the child and of the second. -/
def sampleFamily : System :=
  let calls : List Request := [
    .change 1 (lit "t") (.registerRun (lit "z") { parentRunID := lit "x" }),
    .change 1 (lit "t") (.reserve { id := lit "a", runID := lit "z", requestHash := lit "h" } false),
    .change 1 (lit "t") (.reserve { id := lit "b", runID := lit "y", requestHash := lit "h" } false)]
  calls.foldl System.serve sampleSiblings

lemma sampleFamily_reachable : sampleFamily.Reachable :=
  (System.later_foldl _ _).trans (System.later_foldl _ _)

lemma sampleFamily_ledger : ∃ L r, sampleFamily.shared.ledger (lit "t") = some L ∧
    L.contains (lit "x") (lit "z") = true ∧ L.contains (lit "y") (lit "z") = false ∧
    L.contains (lit "x") (lit "y") = false ∧ L.contains (lit "y") (lit "x") = false ∧
    L.reservations.lookup (lit "b") = some r ∧ L.contains (lit "y") r.runID = true := by
  have hfacts : (sampleFamily.shared.ledger (lit "t")).any (fun L =>
      L.contains (lit "x") (lit "z") && !L.contains (lit "y") (lit "z") &&
        !L.contains (lit "x") (lit "y") && !L.contains (lit "y") (lit "x") &&
        (L.reservations.lookup (lit "b")).any fun r => L.contains (lit "y") r.runID) = true := by
    decide +kernel
  obtain ⟨L, hL, hfacts⟩ := Option.any_eq_true _ _ |>.mp hfacts
  simp only [Bool.and_eq_true, Bool.not_eq_true', Option.any_eq_true] at hfacts
  obtain ⟨⟨⟨⟨hxz, hyz⟩, hxy⟩, hyx⟩, r, hr, hin⟩ := hfacts
  exact ⟨L, r, hL, hxz, hyz, hxy, hyx, hr, hin⟩

/-- The Runs of the sample form a forest. -/
theorem run_forest_siblings : ∃ L, sampleFamily.shared.ledger (lit "t") = some L ∧
    WellFounded L.IsParent ∧ Ancestor L (lit "z") (lit "x") ∧ ¬ Ancestor L (lit "z") (lit "y") := by
  obtain ⟨L, _, hL, hxz, hyz, -⟩ := sampleFamily_ledger
  obtain ⟨hwf, -, -, hcontains, -⟩ :=
    run_forest sampleFamily (lit "t") L sampleFamily_reachable hL
  refine ⟨L, hL, hwf, ((hcontains _ _).mp hxz).resolve_left (by decide), fun h => ?_⟩
  rw [(hcontains _ _).mpr (.inr h)] at hyz
  cases hyz

/-! ### A revision that comes again -/

/-- A registration that has read the first revision and waits with its save. -/
def slowRegistration : Request := .change 1 (lit "t") (.registerRun (lit "a") {})

def sampleFresh : System := System.serve ⟨{}, []⟩ (.ensure 1 (lit "t") 0)

/-- The program of that registration after the ledger was read. -/
def slowRest : LProg Answer :=
  (Prog.advance (O := ledgerObject) answerStored 2 (serve slowRegistration) sampleFresh.shared).1

def slowWrite : LedgerWrite :=
  ⟨some (.registerRun (lit "a") {}), freshLedger (lit "t") 0,
    { (freshLedger (lit "t") 0).withRun (lit "a") {} with revision := 2 }⟩

/-- Another Run is registered, and then one identifier after the other is cancelled. -/
def sampleBusy : ℕ → System
  | 0 => System.serve ⟨sampleFresh.shared,
      ⟨slowRegistration, sampleFresh.shared, slowRest⟩ :: sampleFresh.threads⟩
      (.change 1 (lit "t") (.registerRun (lit "x") {}))
  | n + 1 => (sampleBusy n).serve (.change 1 (lit "t") (.cancelRun (formatUint n)))

lemma run_bind {α β : Type} (p : LProg α) (f : α → LProg β) (w : LedgerWorld) :
    Prog.run (O := ledgerObject) answerStored (p >>= f) w =
      Prog.run answerStored (f (Prog.run answerStored p w).1) (Prog.run answerStored p w).2 := by
  induction p generalizing w with
  | ret => rfl
  | call _ _ ih => exact ih _ _

/-- Cancelling a new identifier is a save. -/
lemma serve_cancelRun {c : System} {x : GoString} (hledger : c.shared.ledger (lit "t") = some L)
    (hid : L.id = lit "t") (hlimits : ValidLimits L.limits) (hnew : x ∉ L.cancelledRuns)
    (hx : trimSpace x ≠ []) :
    (c.serve (.change 1 (lit "t") (.cancelRun x))).shared =
      c.shared.record (lit "t") ⟨some (.cancelRun x), L,
        { L.cancelRun x with revision := L.revision + 1 }⟩ := by
  have hload : c.shared.loadBudget (lit "t") = .ok L := by rw [LedgerWorld.loadBudget, hledger]
  have hdiffer : L.same (L.cancelRun x) = false := by
    have hne : L.cancelledRuns ≠ insert x L.cancelledRuns := by
      intro heq
      exact hnew (heq ▸ Finset.mem_insert_self x _)
    simp [same, cancelRun, hne]
  have hrevision : newestRevision (c.shared.history (lit "t")) = L.revision := by
    obtain ⟨_, hwrite, rfl⟩ := Option.map_eq_some_iff.mp hledger
    rw [newestRevision, hwrite]
    rfl
  have hsave : c.shared.saveBudget ⟨some (.cancelRun x), L,
      { L.cancelRun x with revision := L.revision + 1 }⟩ L.revision =
      (.ok (), c.shared.record (lit "t") ⟨some (.cancelRun x), L,
        { L.cancelRun x with revision := L.revision + 1 }⟩) := by
    have hname : lit "t" ≠ [] := by decide
    simp [LedgerWorld.saveBudget, Ledger.cancelRun, hid, hlimits, hrevision, hname]
  have hcheck : (Change.cancelRun x).check = none := by simp [Change.check, hx]
  show (Prog.run answerStored (serve (.change 1 (lit "t") (.cancelRun x)))
    c.shared).2 = _
  have hloaded : Prog.run answerStored (loadBudget (lit "t")) c.shared =
      (.ok L, c.shared) := congrArg (·, c.shared) hload
  rw [serve, hcheck]
  rw [update, run_bind, hloaded]
  show (Prog.run (O := ledgerObject) answerStored (if L.same (L.cancelRun x) then _ else _) c.shared).2 = _
  rw [hdiffer, if_neg Bool.false_ne_true, run_bind]
  have hsaved : Prog.run answerStored (saveBudget ⟨some (.cancelRun x), L,
      { L.cancelRun x with revision := (L.cancelRun x).revision + 1 }⟩ L.revision) c.shared = _ := hsave
  rw [hsaved]
  rfl

lemma ledger_record (w : LedgerWorld) (write : LedgerWrite) :
    (w.record id write).ledger id = some write.after := by
  simp [LedgerWorld.ledger, LedgerWorld.record]

/-- The ledger while the registration waits. -/
structure Busy (n : ℕ) (L : Ledger) : Prop where
  id : L.id = lit "t"
  limits : L.limits = 0
  revision : L.revision = UInt64.ofNat (n + 2)
  binding : L.runs.lookup (lit "x") = some {}
  cancelled : ∀ y ∈ L.cancelledRuns, ∃ i < n, y = formatUint i

lemma sampleBusy_ledger (n : ℕ) :
    ∃ L, (sampleBusy n).shared.ledger (lit "t") = some L ∧ Busy n L := by
  induction n with
  | zero => exact ⟨_, rfl, rfl, rfl, rfl, by decide +kernel, by simp [freshLedger]⟩
  | succ n ih =>
    obtain ⟨L, hledger, hbusy⟩ := ih
    have hnew : formatUint n ∉ L.cancelledRuns := by
      intro hmem
      obtain ⟨i, _, heq⟩ := hbusy.cancelled _ hmem
      have := formatUint_inj heq
      omega
    have htrim : trimSpace (formatUint n) ≠ [] := by
      rw [trimSpace_of_graphic fun b hb => ?_]
      · simpa [formatUint] using decimalDigits_ne_nil n
      have hgraphic : ∀ d < 10, isGraphic (digitByte d) = true := by decide
      obtain ⟨d, hd, rfl⟩ := mem_map.mp hb
      exact hgraphic d (decimalDigits_lt hd)
    refine ⟨{ L.cancelRun (formatUint n) with revision := L.revision + 1 }, ?_, ?_⟩
    · rw [sampleBusy, serve_cancelRun hledger hbusy.id (by rw [hbusy.limits]; decide) hnew htrim]
      exact ledger_record _ _
    refine ⟨hbusy.id, hbusy.limits, ?_, hbusy.binding, fun y hy => ?_⟩
    · show L.revision + 1 = _
      rw [hbusy.revision, UInt64.ofNat_add (n + 2) 1]
      rfl
    obtain rfl | hy := Finset.mem_insert.mp hy
    · exact ⟨n, by omega, rfl⟩
    · obtain ⟨i, _, rfl⟩ := hbusy.cancelled y hy
      exact ⟨i, by omega, rfl⟩

lemma sampleBusy_threads (n : ℕ) : ∃ pre,
    (sampleBusy n).threads =
      pre ++ ⟨slowRegistration, sampleFresh.shared, slowRest⟩ :: sampleFresh.threads := by
  induction n with
  | zero => exact ⟨[_], rfl⟩
  | succ _ ih =>
    obtain ⟨pre, hpre⟩ := ih
    exact ⟨_ :: pre, congrArg (_ :: ·) hpre⟩

lemma sampleBusy_reachable (n : ℕ) : (sampleBusy n).Reachable := by
  induction n with
  | zero =>
    refine (System.later_serve ⟨{}, []⟩ (.ensure 1 (lit "t") 0)).trans ?_
    refine (Relation.ReflTransGen.single (.spawn sampleFresh.shared _ slowRegistration)).trans ?_
    exact (steps_advance answerStored_exec slowRegistration _ sampleFresh.threads 2 _ _).trans
      (System.later_serve _ _)
  | succ _ ih => exact ih.trans (System.later_serve _ _)

/-- The registration saves as soon as the newest revision is the one that it has read. -/
lemma overtaken {c : System} (hledger : c.shared.ledger (lit "t") = some L) (hrevision : L.revision = 1)
    {pre : List (Thread ledgerObject Request Answer)}
    (hthreads : c.threads = pre ++ ⟨slowRegistration, sampleFresh.shared, slowRest⟩ ::
      sampleFresh.threads) :
    ∃ c' : System, c.Later c' ∧ c'.shared.ledger (lit "t") = some slowWrite.after := by
  have hnewest : newestRevision (c.shared.history (lit "t")) = 1 := by
    obtain ⟨_, hwrite, rfl⟩ := Option.map_eq_some_iff.mp hledger
    rwa [newestRevision, hwrite]
  have hexec : ledgerObject.Exec c.shared (.save slowWrite 1) (Except.ok () : Except BudgetError Unit)
      (c.shared.record (lit "t") slowWrite) := by
    show _ = c.shared.saveBudget slowWrite 1
    exact (if_neg (not_not.mpr hnewest)).symm
  obtain ⟨k, hk⟩ : ∃ k, slowRest = .call (.save slowWrite 1) k := ⟨_, rfl⟩
  have hstep : Step serve ⟨c.shared, pre ++ ⟨slowRegistration, sampleFresh.shared, slowRest⟩ ::
      sampleFresh.threads⟩ _ := hk ▸ Step.exec pre sampleFresh.threads slowRegistration _ k hexec
  rw [← hthreads] at hstep
  exact ⟨_, .single hstep, ledger_record _ _⟩

/-- **A binding is lost** once the registration that waits finds its revision again. -/
theorem run_forest_lost : ∃ (c c' : System) (L L' : Ledger), c.Reachable ∧ c.Later c' ∧
    c.shared.ledger (lit "t") = some L ∧ c'.shared.ledger (lit "t") = some L' ∧
    L.runs.lookup (lit "x") = some {} ∧ L'.runs.lookup (lit "x") = none := by
  obtain ⟨L, hledger, hbusy⟩ := sampleBusy_ledger (2 ^ 64 - 1)
  obtain ⟨_, hthreads⟩ := sampleBusy_threads (2 ^ 64 - 1)
  have hrevision : L.revision = 1 := by
    rw [hbusy.revision]
    decide
  obtain ⟨c', hlater, hledger'⟩ := overtaken hledger hrevision hthreads
  exact ⟨_, c', L, _, sampleBusy_reachable _, hlater, hledger, hledger', hbusy.binding,
    by decide +kernel⟩

/-! ### Cancelling a subtree -/

variable {x y : GoString} {r request : Reservation} {active : Bool} {next : Ledger}
  {e : Option BudgetError} {binding : RunBudget}

/-- The Turn or the Run is cancelled. -/
def Ledger.Stopped (L : Ledger) (x : GoString) : Prop := L.cancelled = true ∨ x ∈ L.cancelledRuns

lemma Ledger.Stopped.cancelledAt (h : L.Stopped x) (hx : x ∈ L.lineage y) :
    L.cancelledAt y = true := by
  rw [Ledger.cancelledAt, Bool.or_eq_true, any_eq_true]
  exact h.imp_right fun hmem => ⟨x, hx, decide_eq_true hmem⟩

lemma reserve_cancelled (h : (L.reserve order request active).2 = .ok (next, e))
    (hcancelled : L.cancelledAt request.runID = true) : next = L := by
  unfold reserve book at h
  split at h
  · cases h
  split at h
  · cases h
  split at h
  · cases h
  rename_i hsame
  simp only [Bool.or_eq_true, decide_eq_true_eq, not_or, ne_eq, not_not] at hsame
  simp only [hsame.1, hcancelled, if_true] at h
  split at h
  all_goals cases h
  rfl

lemma registerRun_cancelled
    (h : ((Change.registerRun runID binding).attempt order L).2 = .ok (next, e))
    (hcancelled : L.cancelledAt runID = true ∨ L.cancelledAt binding.parentRunID = true) :
    next = L := by
  obtain ⟨_, hok, heq⟩ := map_eq_ok h
  obtain rfl := (Prod.mk.inj heq).1
  unfold registerRun at hok
  split at hok
  · split at hok
    · cases hok
    · cases hok
      rfl
  · rw [if_pos (by rw [Bool.or_eq_true]; exact hcancelled)] at hok
    cases hok

/-- A Run is not registered where it would stand in a cancelled subtree. -/
lemma register_outside (hsound : Sound L) (hx : x ≠ []) (hstopped : L.Stopped x)
    (hcheck : (Change.registerRun runID binding).check = none) (hnew : runID ∉ L.runs)
    (hparent : binding.parentRunID = [] ∨ binding.parentRunID ∈ L.runs)
    (h : ((Change.registerRun runID binding).attempt order L).2 = .ok (next, e))
    (hruns : next.runs = L.runs.insert runID binding) :
    (L.withRun runID binding).contains x runID = false := by
  obtain ⟨hne, hlimits⟩ := check_registerRun hcheck
  by_contra hin
  rw [Bool.not_eq_false, Ledger.contains, Bool.or_eq_true, decide_eq_true_eq, decide_eq_true_eq,
    hsound.forest.lineage_registered hnew hne hparent hlimits, mem_cons] at hin
  have hcancelled : L.cancelledAt runID = true ∨ L.cancelledAt binding.parentRunID = true := by
    obtain rfl | hmem := hin.resolve_left hx
    · refine .inl (hstopped.cancelledAt ?_)
      rw [hsound.forest.lineage_cons hx]
      exact mem_cons_self
    · exact .inr (hstopped.cancelledAt hmem)
  rw [registerRun_cancelled h hcancelled] at hruns
  exact hnew (hruns ▸ (AList.mem_insert _).mpr (.inl rfl))

/-- Where an entry comes from after the receipts were transferred. -/
lemma Transferred.source {seen : List GoString} {related : List Reservation}
    {m m' : Map GoString Reservation} (h : Transferred runID seen related m m')
    (hr : m'.lookup id = some r) :
    m.lookup id = some r ∨ r ∈ related ∧ r.id = id ∧ r.runID = runID := by
  induction h with
  | done => exact .inl hr
  | skip _ _ _ _ ih => exact (ih hr).imp_right fun h => ⟨mem_cons_of_mem _ h.1, h.2⟩
  | write hrelated _ _ ih =>
    obtain hr | hr := ih hr
    · obtain ⟨rfl, rfl⟩ | ⟨-, hr⟩ := lookup_insert_cases hr
      · exact .inr ⟨mem_cons_self, rfl, hrelated.run⟩
      · exact .inl hr
    · exact .inr ⟨mem_cons_of_mem _ hr.1, hr.2⟩

/-- The exception: a receipt that a dispatched call of the same Run hands over. -/
def Receipt (L : Ledger) (c : Change) (id : GoString) (r : Reservation) : Prop :=
  ∃ call usage receipt related current, c = .settleWithReceipts call usage receipt related ∧
    r ∈ related ∧ r.id = id ∧ L.reservations.lookup call = some current ∧ current.status = .held ∧
    current.dispatched = true ∧ current.runID = r.runID

lemma releaseUnsent_held (h : (releaseUnsent r).status = .held) : r.status = .held := by
  obtain heq | ⟨-, -, heq⟩ := releaseUnsent_cases r
  · rwa [heq] at h
  · rw [heq] at h
    cases h

lemma Origin.run {source : Reservation} (h : Origin L request source) :
    source.runID = request.runID := by
  obtain ⟨-, rfl⟩ | h := h
  · rfl
  · exact h.2.1

/-- What one round does in a subtree that is cancelled. -/
structure Quiet (x : GoString) (L : Ledger) (c : Change) (next : Ledger) : Prop where
  runs : ∀ y ∈ next.runs, next.contains x y = true → y ∈ L.runs
  held : ∀ {id r}, next.reservations.lookup id = some r → r.status = .held →
    L.contains x r.runID = true →
    (∃ old, L.reservations.lookup id = some old ∧ old.status = .held) ∨ Receipt L c id r

lemma Effect.stopped (h : Effect order L c next) (hstopped : L.Stopped x) : next.Stopped x := by
  cases h with
  | cancelled => exact .inl rfl
  | cancelledRun => exact hstopped.imp_right (Finset.mem_insert_of_mem ·)
  | _ => exact hstopped

lemma attempt_quiet (hsound : Sound L) (hx : x ≠ []) (hstopped : L.Stopped x)
    (hcheck : c.check = none) (h : (c.attempt order L).2 = .ok (next, e)) : Quiet x L c next := by
  have hat : ∀ {y}, L.contains x y = true → L.cancelledAt y = true := by
    intro y hy
    rw [Ledger.contains, Bool.or_eq_true, decide_eq_true_eq, decide_eq_true_eq] at hy
    exact hstopped.cancelledAt (hy.resolve_left hx)
  have hkept : Quiet x L c L := ⟨fun y hy _ => hy, fun hr hheld _ => .inl ⟨_, hr, hheld⟩⟩
  cases attempt_effect hsound h with
  | unchanged => exact hkept
  | root hnew hroot =>
    have hout := register_outside hsound hx hstopped hcheck hnew (.inl hroot) h rfl
    refine ⟨fun y hy hin => ?_, hkept.held⟩
    obtain rfl | hy := (AList.mem_insert _).mp hy
    · exact absurd hin (Bool.not_eq_true _ ▸ hout)
    · exact hy
  | child hnew _ hparent =>
    have hout := register_outside hsound hx hstopped hcheck hnew (.inr hparent) h rfl
    refine ⟨fun y hy hin => ?_, fun hr hheld hin => ?_⟩
    · obtain rfl | hy := (AList.mem_insert _).mp hy
      · exact absurd hin (Bool.not_eq_true _ ▸ hout)
      · exact hy
    obtain ⟨-, rfl⟩ | ⟨-, hr⟩ := lookup_insert_cases hr
    · cases hheld
    · exact hkept.held hr hheld hin
  | finished => exact ⟨fun y hy _ => hy, hkept.held⟩
  | booked _ horigin =>
    refine ⟨fun y hy _ => hy, fun hr hheld hin => ?_⟩
    obtain ⟨rfl, rfl⟩ | ⟨-, hr'⟩ := lookup_insert_cases hr
    · -- a cancelled Run books nothing, so this is a replay that changes nothing
      have hsame := reserve_cancelled h (horigin.run ▸ hat hin)
      rw [hsame] at hr
      exact hkept.held hr hheld hin
    · exact hkept.held hr' hheld hin
  | parked =>
    refine ⟨fun y hy _ => hy, fun hr hheld hin => ?_⟩
    obtain ⟨-, rfl⟩ | ⟨-, hr⟩ := lookup_insert_cases hr
    · cases hheld
    · exact hkept.held hr hheld hin
  | touched hold htouch =>
    refine ⟨fun y hy _ => hy, fun hr hheld hin => ?_⟩
    obtain ⟨rfl, rfl⟩ | ⟨-, hr⟩ := lookup_insert_cases hr
    · refine .inl ⟨_, hold, ?_⟩
      cases htouch with
      | kept | suspend => exact hheld
      | dispatch hold => exact hold
      | requeue | settle | release => cases hheld
    · exact hkept.held hr hheld hin
  | cancelled =>
    refine ⟨fun y hy _ => hy, fun hr hheld _ => ?_⟩
    rw [cancel, lookup_mapValues] at hr
    obtain ⟨old, hold, rfl⟩ := Option.map_eq_some_iff.mp hr
    exact .inl ⟨old, hold, releaseUnsent_held hheld⟩
  | cancelledRun =>
    refine ⟨fun y hy _ => hy, fun hr hheld _ => ?_⟩
    rw [cancelRun, lookup_mapValues] at hr
    obtain ⟨old, hold, rfl⟩ := Option.map_eq_some_iff.mp hr
    refine .inl ⟨old, hold, ?_⟩
    split at hheld
    · exact releaseUnsent_held hheld
    · exact hheld
  | transferred hcurrent hcall hdispatched htransfer =>
    refine ⟨fun y hy _ => hy, fun hr hheld _ => ?_⟩
    obtain ⟨-, rfl⟩ | ⟨-, hr⟩ := lookup_insert_cases hr
    · cases hheld
    obtain hr | ⟨hmem, hid, hrun⟩ := htransfer.source hr
    · exact .inl ⟨_, hr, hheld⟩
    · exact .inr ⟨_, _, _, _, _, rfl, hmem, hid, hcurrent, hcall, hdispatched, hrun.symm⟩

/-- Ancestors of one Run lie on one line. -/
lemma Forest.comparable (h : Forest L) {z : GoString} (hx : x ∈ L.lineage z) (hy : y ∈ L.lineage z) :
    x ∈ L.lineage y ∨ y ∈ L.lineage x := by
  obtain ⟨rank, -, hrank⟩ := h.ranked
  induction hn : rank z using Nat.strong_induction_on generalizing z with
  | _ _ ih =>
    have hz : z ≠ [] := by
      rintro rfl
      cases hx
    have hcons := h.lineage_cons hz
    rw [hcons, mem_cons] at hx hy
    obtain rfl | hx := hx
    · exact .inr (hcons ▸ mem_cons.mpr hy)
    obtain rfl | hy := hy
    · exact .inl (hcons ▸ mem_cons_of_mem _ hx)
    · exact ih _ (hn ▸ hrank z hz) hx hy rfl

/-- The reservations of another subtree are not touched. -/
lemma Forest.untouched (h : Forest L) (hxy : x ∉ L.lineage y) (hyx : y ∉ L.lineage x)
    (hne : y ≠ []) (hx : x ≠ []) (hr : L.contains y r.runID = true) : L.contains x r.runID = false := by
  simp only [Ledger.contains, hne, hx, decide_false, Bool.false_or, decide_eq_true_eq,
    decide_eq_false_iff_not] at hr ⊢
  intro hmem
  exact (h.comparable hmem hr).elim hxy hyx

/-- Adding up in another subtree meets the same reservations. -/
lemma view_cancelRun (h : Forest L) (hxy : x ∉ L.lineage y) (hyx : y ∉ L.lineage x) (hne : y ≠ [])
    (hx : x ≠ []) (order : RangeOrder) (revision : UInt64) : ∃ order',
      view { L.cancelRun x with revision } order y = { L.view order' y with revision } := by
  let g (value : Reservation) : Reservation :=
    if L.contains x value.runID then releaseUnsent value else value
  -- the order in which the old entries have to be visited
  obtain ⟨l, hmap, hperm⟩ : ∃ l : List (Σ _ : GoString, Reservation),
      order.visit y (L.cancelRun x).reservations.entries = l.map (fun e => ⟨e.1, g e.2⟩) ∧
        l.Perm L.reservations.entries := by
    obtain ⟨l, _, hperm⟩ := perm_comp_forall₂
      (r := fun a (b : Σ _ : GoString, Reservation) => a = ⟨b.1, g b.2⟩) (order.perm y _)
      (forall₂_map_left_iff.mpr (forall₂_same.mpr fun e _ => rfl))
    refine ⟨l, ?_, hperm⟩
    rwa [← forall₂_eq_eq_eq, forall₂_map_right_iff]
  let order' : RangeOrder := {
    visit := fun s entries => if s = y ∧ entries = L.reservations.entries then l else entries
    perm := by
      intro s _
      split
      · rename_i hentries
        exact hentries.2 ▸ hperm
      · exact .refl _ }
  have htally : tally { L.cancelRun x with revision } order y = L.tally order' y := by
    show (order.visit y (L.cancelRun x).reservations.entries).foldl _ _ = _
    have hvisit : order'.visit y L.reservations.entries = l := if_pos ⟨rfl, rfl⟩
    rw [hmap, tally, foldl_map, hvisit]
    refine foldl_ext _ _ _ fun t e _ => ?_
    show (if L.contains y (g e.2).runID then t.add (g e.2) else t) = _
    have hrun : (g e.2).runID = e.2.runID := by
      dsimp only [g, releaseUnsent]
      split_ifs <;> rfl
    rw [hrun]
    split
    · rename_i hin
      rw [show g e.2 = e.2 from if_neg (Bool.not_eq_true _ ▸ h.untouched hxy hyx hne hx hin)]
    · rfl
  have hcancelled : cancelledAt { L.cancelRun x with revision } y = L.cancelledAt y := by
    refine congrArg (L.cancelled || ·) (Bool.eq_iff_iff.mpr ?_)
    simp only [any_eq_true, decide_eq_true_eq, cancelRun, Finset.mem_insert]
    constructor
    · rintro ⟨z, hz, hmem⟩
      exact ⟨z, hz, hmem.resolve_left fun heq => hxy (heq ▸ hz)⟩
    · rintro ⟨z, hz, hmem⟩
      exact ⟨z, hz, .inr hmem⟩
  refine ⟨order', ?_⟩
  simp only [view, htally, hcancelled]
  rfl

/-- Every save of a story is the outcome of a round that started from the entry below it. -/
lemma LedgerStory.quiet {w : LedgerWrite} (h : LedgerStory scope (newer ++ write :: older))
    (hbound : (newer ++ write :: older).length < 2 ^ 64) (hx : x ≠ [])
    (hstopped : write.after.Stopped x) (hw : w ∈ newer) :
    ∃ change, w.change = some change ∧ Quiet x w.before change w.after := by
  obtain ⟨_, post, rfl⟩ := append_of_mem hw
  rw [append_assoc] at h hbound
  have hstory : LedgerStory scope (w :: (post ++ write :: older)) := h.of_suffix (suffix_append _ _)
  have hlength : (post ++ write :: older).length < 2 ^ 64 := by
    simp only [length_append, length_cons] at hbound ⊢
    omega
  obtain ⟨hnil, -⟩ | ⟨previous, _, change, hcons, hchange, hbefore, _, hsound, -⟩ :=
    LedgerStory.before_eq hstory hlength
  · simp at hnil
  have hprevious : previous.after.Stopped x :=
    (hstory.of_suffix (suffix_cons _ _)).chain (R := fun L L' => L.Stopped x → L'.Stopped x)
      hlength (fun _ h => h) (fun h h' hs => h' (h hs)) (fun _ _ heffect => heffect.stopped) previous
      (by rw [hcons]; rfl) hstopped
  refine ⟨change, hchange, ?_⟩
  cases hstory with
  | ensured => cases hchange
  | changed _ _ _ hcheck' hattempt =>
    cases hchange
    rw [← hbefore] at hsound hprevious
    have hquiet := attempt_quiet hsound hx hprevious hcheck' hattempt
    exact ⟨hquiet.runs, hquiet.held⟩

/-- **Cancelling a subtree is complete and local.**  Once the Turn or the Run `x` is cancelled, no
save of a run with fewer than 2^64 saves registers a Run below `x` or makes a reservation of its
subtree held that was not, other than a receipt that a dispatched call of the same Run hands over;
and cancelling `x` changes no reservation of a subtree that does not lie on one line with it, and
nothing but the revision in its projection. -/
theorem subtree_cancellation (c : System) (scope x : GoString) (L : Ledger) (hreach : c.Reachable)
    (hledger : c.shared.ledger scope = some L) (hx : x ≠ []) :
    (L.cancelRun x).Stopped x ∧ L.cancel.Stopped x ∧
    (L.Stopped x → ∀ c' newer, c.Later c' → (c'.shared.history scope).length < 2 ^ 64 →
      c'.shared.history scope = newer ++ c.shared.history scope →
      ∀ write ∈ newer, ∃ change, write.change = some change ∧
        Quiet x write.before change write.after) ∧
    ∀ y, y ≠ [] → L.contains x y = false → L.contains y x = false →
      (∀ id r, L.contains y r.runID = true →
        ((L.cancelRun x).reservations.lookup id = some r ↔ L.reservations.lookup id = some r)) ∧
      ∀ order revision, ∃ order',
        Ledger.view { L.cancelRun x with revision } order y = { L.view order' y with revision } := by
  refine ⟨.inr (Finset.mem_insert_self _ _), .inl rfl, ?_, fun y hy hxy hyx => ?_⟩
  · intro hstopped _ _ hlater hbound hnewer _ hwrite
    obtain ⟨_, hfirst, rfl⟩ := Option.map_eq_some_iff.mp hledger
    obtain ⟨_, hold⟩ := head?_eq_some_iff.mp hfirst
    have hstory := reachable_story (hreach.trans hlater) scope
    rw [hnewer, hold] at hstory hbound
    exact hstory.quiet hbound hx hstopped hwrite
  · have hforest := (sound_of_reachable hreach hledger).forest
    simp only [Ledger.contains, hx, hy, decide_false, Bool.false_or, decide_eq_false_iff_not] at hxy hyx
    refine ⟨fun id r hr => ?_, view_cancelRun hforest hxy hyx hy hx⟩
    rw [Ledger.cancelRun, lookup_mapValues, Option.map_eq_some_iff]
    constructor
    · rintro ⟨old, _, rfl⟩
      split at hr
      · rename_i hin
        have hrun : (Ledger.releaseUnsent old).runID = old.runID := by
          rw [Ledger.releaseUnsent]
          split <;> rfl
        rw [hrun] at hr
        exact absurd hin (Bool.not_eq_true _ ▸ hforest.untouched hxy hyx hy hx hr)
      · rename_i hout
        rwa [if_neg hout]
    · intro hr'
      exact ⟨r, hr', if_neg (Bool.not_eq_true _ ▸ hforest.untouched hxy hyx hy hx hr)⟩

/-- The first Run is cancelled. -/
def sampleStopped : System := sampleFamily.serve (.change 1 (lit "t") (.cancelRun (lit "x")))

/-- Then its child and its sibling try to reserve, and only the sibling can. -/
def sampleAfter : System :=
  let calls : List Request := [
    .change 1 (lit "t") (.reserve { id := lit "c", runID := lit "z", requestHash := lit "h" } true),
    .change 1 (lit "t") (.reserve { id := lit "d", runID := lit "y", requestHash := lit "h" } true)]
  calls.foldl System.serve sampleStopped

/-- The reservation of the child is released and that of the sibling is not; the sibling does not see
that `x` is cancelled; and the one save that follows makes nothing below `x` held. -/
theorem subtree_cancellation_sibling : ∃ L L' r, sampleFamily.shared.ledger (lit "t") = some L ∧
    sampleStopped.shared.ledger (lit "t") = some L' ∧
    (L'.reservations.lookup (lit "a")).map Reservation.status = some .released ∧
    (L.cancelRun (lit "x")).reservations.lookup (lit "b") = some r ∧
    (∀ order, ∃ order', Ledger.view { L.cancelRun (lit "x") with revision := 7 } order (lit "y") =
      { L.view order' (lit "y") with revision := 7 }) ∧
    (sampleAfter.shared.history (lit "t")).length =
      (sampleStopped.shared.history (lit "t")).length + 1 ∧
    ∀ write ∈ (sampleAfter.shared.history (lit "t")).take 1, ∃ change, write.change = some change ∧
      Quiet (lit "x") write.before change write.after := by
  have hreleased : (sampleStopped.shared.ledger (lit "t")).any (fun L' => lit "x" ∈ L'.cancelledRuns &&
      (L'.reservations.lookup (lit "a")).map Reservation.status = some .released) = true := by
    decide +kernel
  obtain ⟨L', hL', hfacts⟩ := Option.any_eq_true _ _ |>.mp hreleased
  rw [Bool.and_eq_true, decide_eq_true_eq, decide_eq_true_eq] at hfacts
  have hstopped : sampleStopped.Reachable := sampleFamily_reachable.trans (System.later_serve _ _)
  -- completeness is read off the ledger after the cancellation, the rest off the one before
  obtain ⟨-, -, hcomplete, -⟩ := subtree_cancellation sampleStopped (lit "t") (lit "x") L'
    hstopped hL' (by decide)
  obtain ⟨L, r, hL, -, -, hxy, hyx, hr, hin⟩ := sampleFamily_ledger
  obtain ⟨-, -, -, hlocal⟩ := subtree_cancellation sampleFamily (lit "t") (lit "x") L
    sampleFamily_reachable hL (by decide)
  obtain ⟨hkept, hview⟩ := hlocal (lit "y") (by decide) hxy hyx
  exact ⟨L, L', r, hL, hL', hfacts.2, (hkept _ r hin).mpr hr, fun order => hview order 7,
    by decide +kernel,
    hcomplete (.inr hfacts.1) sampleAfter _ (System.later_foldl _ _) (by decide +kernel) rfl⟩

/-- **It sees another revision.** -/
theorem sibling_revision : sampleSiblings.Reachable ∧
    (sampleSiblings.shared.ledger (lit "t")).map (fun L => (L.view .stored (lit "y")).revision) = some 3 ∧
    ((sampleSiblings.serve (.change 1 (lit "t") (.cancelRun (lit "x")))).shared.ledger
      (lit "t")).map (fun L => (L.view .stored (lit "y")).revision) = some 4 :=
  ⟨System.later_foldl _ _, by decide +kernel, by decide +kernel⟩

end Budget
