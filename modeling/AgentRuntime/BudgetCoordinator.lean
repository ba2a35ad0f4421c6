/-
The budget Coordinator as programs over a LedgerStore, and the story of a ledger
(`budget/ledger.go`, `budget/memory_ledger.go`).

Every method of the Coordinator reads the ledger, computes a new one and saves it
under the revision it read; on a conflict it starts again.  The store compares one
number, and revisions are 64-bit words that wrap, so what a save means is the
content of `LedgerStory`: the history of a ledger, newest first, in which every
entry was computed from one of the entries below it.

* **`reachable_story`** — every history in a reachable system is one.
-/
import AgentRuntime.Interleaving
import AgentRuntime.LedgerSteps

namespace Budget

open GoString FiniteMap Interleaving List

/-! ### The store -/

/-- One successful save: the method that made it (none for `Ensure`), the ledger it
had read, and the ledger it wrote. -/
structure LedgerWrite where
  change : Option Change
  before : Ledger
  after : Ledger

/-- Everything that was ever saved, newest first.  The store itself keeps only the
newest ledger of each Turn. -/
structure LedgerWorld where
  history : GoString → List LedgerWrite := fun _ => []

namespace LedgerWorld

def ledger (w : LedgerWorld) (id : GoString) : Option Ledger :=
  (w.history id).head?.map LedgerWrite.after

/-- `MemoryLedgerStore.LoadBudget`. -/
def loadBudget (w : LedgerWorld) (id : GoString) : Except BudgetError Ledger :=
  match w.ledger id with
  | some L => .ok L
  | none => .error .ledgerNotFound

def record (w : LedgerWorld) (id : GoString) (write : LedgerWrite) : LedgerWorld :=
  ⟨Function.update w.history id (write :: w.history id)⟩

end LedgerWorld

/-- `store.ledgers[id].Revision`, zero if there is no ledger. -/
def newestRevision (history : List LedgerWrite) : UInt64 :=
  (history.head?.map fun write => write.after.revision).getD 0

/-- `MemoryLedgerStore.SaveBudget`. -/
def LedgerWorld.saveBudget (w : LedgerWorld) (write : LedgerWrite) (revision : UInt64) :
    Except BudgetError Unit × LedgerWorld :=
  if write.after.id = [] || write.after.revision ≠ revision + 1 ||
      ¬ ValidLimits write.after.limits then (.error .invalidUsage, w)
  else if newestRevision (w.history write.after.id) ≠ revision then (.error .ledgerConflict, w)
  else (.ok (), w.record write.after.id write)

/-- What a Coordinator calls; iterating over a map is a call too, since its order is
chosen by nobody. -/
inductive LedgerOp where
  | load (id : GoString)
  | save (write : LedgerWrite) (revision : UInt64)
  | order

abbrev LedgerOp.Res : LedgerOp → Type
  | load _ => Except BudgetError Ledger
  | save _ _ => Except BudgetError Unit
  | order => RangeOrder

def ledgerObject : SharedObject LedgerWorld where
  Op := LedgerOp
  Res := LedgerOp.Res
  Exec w op := match op with
    | .load id => fun r w' => r = w.loadBudget id ∧ w' = w
    | .save write revision => fun r w' => (r, w') = w.saveBudget write revision
    | .order => fun _ w' => w' = w

abbrev LProg (α : Type) : Type := Prog ledgerObject α

def loadBudget (id : GoString) : LProg (Except BudgetError Ledger) :=
  Prog.op (O := ledgerObject) (.load id)

def saveBudget (write : LedgerWrite) (revision : UInt64) : LProg (Except BudgetError Unit) :=
  Prog.op (O := ledgerObject) (.save write revision)

def rangeOrder : LProg RangeOrder := Prog.op (O := ledgerObject) .order

/-! ### The Coordinator -/

/-- The ledger a method returns, with the errors it joins. -/
abbrev Answer : Type := Ledger × List BudgetError

/-- `Coordinator.update` for at most `rounds` rounds, after which the context ends.
`admission` is the error of the last round, which `Reserve` joins to the answer. -/
def update (scopeID : GoString) : ℕ → Change → Option BudgetError → LProg Answer
  | 0, _, admission => return ({}, .context :: admission.toList)
  | rounds + 1, change, admission => do
    match ← loadBudget scopeID with
    | .error e => return ({}, e :: admission.toList)
    | .ok ledger =>
      let order ← rangeOrder
      match change.attempt order ledger with
      | (_, .error e) => return (ledger, [e])
      | (change', .ok (next, admission')) =>
        if ledger.same next then return (ledger, admission'.toList)
        else
          let next := { next with revision := next.revision + 1 }
          match ← saveBudget ⟨some change, ledger, next⟩ ledger.revision with
          | .error .ledgerConflict => update scopeID rounds change' admission'
          | .error e => return (next, e :: admission'.toList)
          | .ok _ => return (next, admission'.toList)

/-- The ledger of a new Turn. -/
def freshLedger (id : GoString) (limits : Limits) : Ledger :=
  { id := id, revision := 1, limits := limits }

/-- `Coordinator.Ensure`, which calls itself again when somebody else was faster. -/
def ensure (id : GoString) (limits : Limits) : ℕ → LProg Answer
  | 0 => return ({}, [.context])
  | rounds + 1 =>
    if trimSpace id = [] || ¬ ValidLimits limits then return ({}, [.invalidUsage])
    else do
      match ← loadBudget id with
      | .ok ledger =>
        if ledger.limits ≠ limits then return ({}, [.ledgerConflict]) else return (ledger, [])
      | .error .ledgerNotFound =>
        match ← saveBudget ⟨none, {}, freshLedger id limits⟩ 0 with
        | .error .ledgerConflict => ensure id limits rounds
        | .error e => return (freshLedger id limits, [e])
        | .ok _ => return (freshLedger id limits, [])
      | .error e => return ({}, [e])

/-- A call of the Coordinator, with the number of rounds its context lasts. -/
inductive Request where
  | ensure (rounds : ℕ) (id : GoString) (limits : Limits)
  | change (rounds : ℕ) (scopeID : GoString) (change : Change)

def serve : Request → LProg Answer
  | .ensure rounds id limits => Budget.ensure id limits rounds
  | .change rounds scopeID change =>
    match change.check with
    | some e => return ({}, [e])
    | none => update scopeID rounds change none

/-- Any number of Coordinators over one store. -/
abbrev System : Type := Config ledgerObject Request Answer

def System.Reachable (c : System) : Prop := Interleaving.Reachable serve {} c

abbrev System.Later (c c' : System) : Prop := Steps serve c c'

/-- A call that is served while nobody else moves. -/
def answerStored (w : LedgerWorld) : (op : LedgerOp) → op.Res × LedgerWorld
  | .load id => (w.loadBudget id, w)
  | .save write revision => w.saveBudget write revision
  | .order => (.stored, w)

def System.serve (c : System) (q : Request) : System :=
  let served := Prog.run (O := ledgerObject) answerStored (Budget.serve q) c.shared
  ⟨served.2, ⟨q, c.shared, .ret served.1⟩ :: c.threads⟩

lemma answerStored_exec (w : LedgerWorld) (op : LedgerOp) :
    ledgerObject.Exec w op (answerStored w op).1 (answerStored w op).2 := by
  cases op with
  | load => exact ⟨rfl, rfl⟩
  | save | order => rfl

lemma System.later_serve (c : System) (q : Request) : c.Later (c.serve q) :=
  steps_run answerStored_exec c.shared c.threads q

lemma System.later_foldl (calls : List Request) (c : System) :
    c.Later (calls.foldl System.serve c) := by
  induction calls generalizing c with
  | nil => exact .refl
  | cons q _ ih => exact (c.later_serve q).trans (ih _)

/-! ### The story of a ledger -/

/-- The histories of the ledger of one Turn.  A save succeeds if the newest revision
is the one that was read; that alone does not say that the newest ledger is the one
that was read. -/
inductive LedgerStory (scope : GoString) : List LedgerWrite → Prop
  | nil : LedgerStory scope []
  | ensured {history : List LedgerWrite} {limits : Limits} (hstory : LedgerStory scope history)
      (hrevision : newestRevision history = 0) (hlimits : ValidLimits limits) :
      LedgerStory scope (⟨none, {}, freshLedger scope limits⟩ :: history)
  | changed {history : List LedgerWrite} {change : Change} {order : RangeOrder}
      {before next : Ledger} {admission : Option BudgetError} (hstory : LedgerStory scope history)
      (hbefore : before ∈ history.map LedgerWrite.after)
      (hrevision : newestRevision history = before.revision) (hcheck : change.check = none)
      (hattempt : (change.attempt order before).2 = .ok (next, admission)) :
      LedgerStory scope
        (⟨some change, before, { next with revision := next.revision + 1 }⟩ :: history)

variable {scope : GoString} {history older : List LedgerWrite} {write : LedgerWrite}
  {limits : Limits}

lemma LedgerStory.of_suffix (h : LedgerStory scope history) (hsuffix : older <:+ history) :
    LedgerStory scope older := by
  refine Interleaving.of_suffix (fun _ _ h => ?_) h hsuffix
  cases h with
  | ensured hstory | changed hstory => exact hstory

lemma sound_fresh (hlimits : ValidLimits limits) : Sound (freshLedger scope limits) where
  limits := hlimits
  forest :=
    { root := AList.notMem_empty _
      closed := nofun
      limits := nofun
      ranked := ⟨fun x => if x = [] then 0 else 1, fun x => by dsimp only; split <;> omega,
        fun x hx => by
          have hroot : (freshLedger scope limits).parentOf x = [] :=
            Ledger.parentOf_of_notMem (AList.notMem_empty _)
          simp [hroot, hx]⟩ }
  fits := nofun

/-- Every ledger that was ever saved is sound and has the identifier of its Turn. -/
lemma LedgerStory.sound (h : LedgerStory scope history) :
    ∀ L ∈ history.map LedgerWrite.after, Sound L ∧ L.id = scope := by
  induction h with
  | nil => exact fun L hL => nomatch hL
  | ensured _ _ hlimits ih => exact forall_mem_cons.mpr ⟨⟨sound_fresh hlimits, rfl⟩, ih⟩
  | changed _ hbefore _ hcheck hattempt ih =>
    obtain ⟨hsound, hid⟩ := ih _ hbefore
    have heffect := attempt_effect hsound hattempt
    obtain ⟨hlimits, hforest, hfits⟩ := heffect.sound hcheck hsound
    exact forall_mem_cons.mpr ⟨⟨⟨hlimits, { hforest with }, hfits⟩, heffect.frame.1.trans hid⟩, ih⟩

/-- A property of ledgers that every round of an admissible method keeps holds of all
of them, whichever ledger a round started from. -/
lemma LedgerStory.forall_after {P : Ledger → Prop} {Q : Change → Ledger → Prop}
    (h : LedgerStory scope history)
    (hcalls : ∀ write ∈ history, ∀ change ∈ write.change, Q change write.before)
    (hfresh : ∀ limits, ValidLimits limits → P (freshLedger scope limits))
    (hround : ∀ {change order L next}, Sound L → change.check = none → Q change L →
      Effect order L change next → P L → P { next with revision := next.revision + 1 }) :
    ∀ L ∈ history.map LedgerWrite.after, P L := by
  induction h with
  | nil => exact fun L hL => nomatch hL
  | ensured _ _ hlimits ih =>
    exact forall_mem_cons.mpr ⟨hfresh _ hlimits, ih (forall_mem_cons.mp hcalls).2⟩
  | changed hstory hbefore _ hcheck hattempt ih =>
    have hold := ih (forall_mem_cons.mp hcalls).2
    have hsound := (hstory.sound _ hbefore).1
    exact forall_mem_cons.mpr ⟨hround hsound hcheck (hcalls _ mem_cons_self _ rfl)
      (attempt_effect hsound hattempt) (hold _ hbefore), hold⟩

/-- Only registered Runs have a child charge, if the callers respect the names. -/
lemma LedgerStory.children (h : LedgerStory scope history)
    (hids : ∀ write ∈ history, ∀ change ∈ write.change, change.CallerIDs) :
    ∀ L ∈ history.map LedgerWrite.after, OwnChildren L :=
  h.forall_after (Q := fun change _ => change.CallerIDs) hids
    (fun _ _ _ hx => absurd hx (AList.notMem_empty _))
    fun _ _ hids heffect hL => heffect.children hids hL

/-- Revisions count the saves, up to the wrap of the word. -/
lemma LedgerStory.revision (h : LedgerStory scope history) :
    newestRevision history = UInt64.ofNat history.length := by
  induction h with
  | nil => rfl
  | ensured _ hrevision _ ih =>
    rw [hrevision] at ih
    rw [length_cons, UInt64.ofNat_add, ← ih]
    rfl
  | @changed _ _ _ _ next _ hstory hbefore hrevision _ hattempt ih =>
    have heffect := attempt_effect (hstory.sound _ hbefore).1 hattempt
    show next.revision + 1 = _
    rw [heffect.frame.2.1, ← hrevision, ih, length_cons, UInt64.ofNat_add]
    rfl

lemma mem_map_after (h : write ∈ history) : write.after ∈ history.map LedgerWrite.after :=
  mem_map_of_mem h

/-- The ledger of a Turn is the one that was saved last. -/
lemma ledger_eq_some {w : LedgerWorld} {L : Ledger} (h : w.ledger scope = some L) :
    ∃ write older, w.history scope = write :: older ∧ write.after = L := by
  rw [LedgerWorld.ledger] at h
  cases hcase : w.history scope with
  | nil =>
    rw [hcase] at h
    cases h
  | cons write older =>
    rw [hcase] at h
    exact ⟨write, older, rfl, Option.some.inj h⟩

/-- The revisions of the first 2^64 entries are all different. -/
lemma LedgerStory.newest_of_revision (h : LedgerStory scope history)
    (hbound : history.length < 2 ^ 64) {L : Ledger} (hL : L ∈ history.map LedgerWrite.after)
    (hrevision : newestRevision history = L.revision) :
    ∃ write older, history = write :: older ∧ write.after = L := by
  obtain ⟨write, hwrite, rfl⟩ := mem_map.mp hL
  obtain ⟨newer, older, rfl⟩ := append_of_mem hwrite
  have hstory : LedgerStory scope (write :: older) := h.of_suffix (suffix_append _ _)
  have hold : write.after.revision = UInt64.ofNat (older.length + 1) := hstory.revision
  rw [h.revision, hold] at hrevision
  have hlength := congrArg UInt64.toNat hrevision
  simp only [length_append, length_cons] at hbound hlength
  rw [UInt64.toNat_ofNat', UInt64.toNat_ofNat',
    Nat.mod_eq_of_lt (by omega)] at hlength
  have hnewer : newer = [] := eq_nil_of_length_eq_zero (by omega)
  exact ⟨write, older, by rw [hnewer]; rfl, rfl⟩

/-- **A history with fewer than 2^64 entries is a chain**: a ledger was computed from
the one right below it, and `Ensure` wrote the first. -/
theorem LedgerStory.before_eq (h : LedgerStory scope (write :: history))
    (hbound : history.length < 2 ^ 64) :
    (history = [] ∧ write.change = none) ∨
    (∃ previous older change, history = previous :: older ∧ write.change = some change ∧
      write.before = previous.after ∧ change.check = none ∧ Sound previous.after ∧
      ∃ order next, Effect order previous.after change next ∧
        write.after = { next with revision := next.revision + 1 }) := by
  cases h with
  | ensured hstory hrevision =>
    refine .inl ⟨?_, rfl⟩
    rw [hstory.revision] at hrevision
    have hlength := congrArg UInt64.toNat hrevision
    rw [UInt64.toNat_ofNat', Nat.mod_eq_of_lt hbound] at hlength
    exact eq_nil_of_length_eq_zero hlength
  | @changed _ change order _ next _ hstory hbefore hrevision hcheck hattempt =>
    obtain ⟨previous, older, rfl, rfl⟩ := hstory.newest_of_revision hbound hbefore hrevision
    have hsound := (hstory.sound _ hbefore).1
    exact .inr ⟨previous, older, change, rfl, rfl, rfl, hcheck, hsound, order, next,
      attempt_effect hsound hattempt, rfl⟩

/-! ### The Coordinator writes stories -/

/-- What the threads agree on: one entry at a time, and only such that the history
stays a story. -/
def ledgerProtocol : Protocol LedgerWorld where
  Inv w := ∀ id, LedgerStory id (w.history id)
  Guar w w' := w' = w ∨ ∃ id write, w' = w.record id write ∧
    LedgerStory id (write :: w.history id)
  inv_of_guar := by
    rintro w w' hI (rfl | ⟨id, write, rfl, hstory⟩) id'
    · exact hI id'
    by_cases hid : id' = id
    · subst hid
      simpa only [LedgerWorld.record, Function.update_self] using hstory
    · simpa only [LedgerWorld.record, Function.update_of_ne hid] using hI id'

variable {w w' : LedgerWorld} {c : System}

lemma history_suffix (h : ledgerProtocol.Guar w w') (id : GoString) :
    w.history id <:+ w'.history id := by
  obtain rfl | ⟨id', _, rfl, -⟩ := h
  · exact suffix_refl _
  by_cases hid : id = id'
  · subst hid
    simpa only [LedgerWorld.record, Function.update_self] using suffix_cons _ _
  · simpa only [LedgerWorld.record, Function.update_of_ne hid] using suffix_refl _

lemma stable_read (id : GoString) (L : Ledger) :
    ledgerProtocol.Stable fun w => L ∈ (w.history id).map LedgerWrite.after :=
  fun _ _ _ hL hguar => (map_subset _ (history_suffix hguar id).subset) hL

lemma stable_unread : ledgerProtocol.Stable fun _ => True := fun _ _ _ _ _ => trivial

lemma mem_of_loadBudget {id : GoString} {L : Ledger} (h : w.loadBudget id = .ok L) :
    L ∈ (w.history id).map LedgerWrite.after := by
  unfold LedgerWorld.loadBudget LedgerWorld.ledger at h
  cases hhistory : w.history id with
  | nil =>
    rw [hhistory] at h
    cases h
  | cons =>
    rw [hhistory] at h
    cases h
    exact mem_cons_self

/-- What a successful or failed save does. -/
lemma saveBudget_guar {revision : UInt64} {res : Except BudgetError Unit}
    (h : (res, w') = w.saveBudget write revision)
    (hstory : newestRevision (w.history write.after.id) = revision →
      LedgerStory write.after.id (write :: w.history write.after.id)) :
    ledgerProtocol.Guar w w' := by
  unfold LedgerWorld.saveBudget at h
  split_ifs at h with hinvalid hconflict
  · cases h
    exact .inl rfl
  · cases h
    exact .inl rfl
  · cases h
    exact .inr ⟨_, write, rfl, hstory (not_not.mp hconflict)⟩

lemma safe_return {a : Answer} : Safe (O := ledgerObject) ledgerProtocol (fun _ _ => True)
    (.ret a) w :=
  fun _ _ _ => trivial

lemma update_safe (rounds : ℕ) {change : Change} (hcheck : change.check = none)
    (admission : Option BudgetError) (hI : ledgerProtocol.Inv w) :
    Safe ledgerProtocol (fun _ _ => True) (update scope rounds change admission) w := by
  induction rounds generalizing change admission w with
  | zero => exact safe_return
  | succ _ ih =>
    refine Safe.call stable_unread hI trivial ?_
    rintro _ hI1 - r _ ⟨hr, rfl⟩
    refine ⟨.inl rfl, ?_⟩
    obtain e | L := r
    · exact safe_return
    refine Safe.call (stable_read scope L) hI1 (mem_of_loadBudget hr.symm) ?_
    rintro _ hI2 hread order _ rfl
    refine ⟨.inl rfl, ?_⟩
    obtain ⟨hsound, hid⟩ := (hI2 scope).sound L hread
    have hcheck' : (change.attempt order L).1.check = none := attempt_check hsound hcheck
    rcases hattempt : change.attempt order L with ⟨_, e | ⟨next, admission'⟩⟩
    · simp only [Prog.bind, hattempt]
      exact safe_return
    rw [hattempt] at hcheck'
    have hok : (change.attempt order L).2 = .ok (next, admission') := by rw [hattempt]
    have hframe := (attempt_effect hsound hok).frame
    simp only [Prog.bind, hattempt]
    split
    · exact safe_return
    refine Safe.call (stable_read scope L) hI2 hread ?_
    intro w3 hI3 hread3 r w4 hexec
    have hguar : ledgerProtocol.Guar w3 w4 := by
      refine saveBudget_guar hexec fun hrevision => ?_
      have hscope : next.id = scope := hframe.1.trans hid
      subst hscope
      exact .changed (hI3 _) hread3 hrevision hcheck hok
    refine ⟨hguar, ?_⟩
    have hI4 := ledgerProtocol.inv_of_guar hI3 hguar
    cases r with
    | ok => exact safe_return
    | error e =>
      cases e with
      | ledgerConflict => exact ih hcheck' _ hI4
      | _ => exact safe_return

lemma ensure_safe (rounds : ℕ) (hI : ledgerProtocol.Inv w) :
    Safe ledgerProtocol (fun _ _ => True) (ensure scope limits rounds) w := by
  induction rounds generalizing w with
  | zero => exact safe_return
  | succ _ ih =>
    unfold ensure
    split
    · exact safe_return
    next hvalid =>
    simp only [Bool.or_eq_true, decide_eq_true_eq, not_or, not_not] at hvalid
    refine Safe.call stable_unread hI trivial ?_
    rintro _ hI1 - r _ ⟨-, rfl⟩
    refine ⟨.inl rfl, ?_⟩
    cases r with
    | ok L =>
      by_cases hlimits : L.limits = limits
      all_goals simpa [Prog.bind, hlimits] using safe_return
    | error e =>
      cases e with
      | ledgerNotFound =>
        refine Safe.call stable_unread hI1 trivial ?_
        intro w2 hI2 _ r w3 hexec
        have hguar : ledgerProtocol.Guar w2 w3 := saveBudget_guar hexec fun hrevision =>
          .ensured (hI2 scope) hrevision hvalid.2
        refine ⟨hguar, ?_⟩
        have hI3 := ledgerProtocol.inv_of_guar hI2 hguar
        cases r with
        | ok => exact safe_return
        | error e =>
          cases e with
          | ledgerConflict => exact ih hI3
          | _ => exact safe_return
      | _ => exact safe_return

lemma serve_safe (q : Request) (hI : ledgerProtocol.Inv w) :
    Safe ledgerProtocol (fun _ _ => True) (serve q) w := by
  cases q with
  | ensure rounds => exact ensure_safe rounds hI
  | change rounds _ change =>
    cases hcheck : change.check with
    | some =>
      simp only [serve, hcheck]
      exact safe_return
    | none =>
      simp only [serve, hcheck]
      exact update_safe rounds hcheck none hI

lemma reachable_safeConfig (h : c.Reachable) :
    SafeConfig ledgerProtocol (fun _ _ _ _ => True) c :=
  (reachable_safe (fun q _ hI => serve_safe q hI) (fun _ => .nil) h).2

/-- **Every history in a reachable system is a story.** -/
theorem reachable_story (h : c.Reachable) (id : GoString) : LedgerStory id (c.shared.history id) :=
  (reachable_safeConfig h).inv id

end Budget
