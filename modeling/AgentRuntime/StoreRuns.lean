/-
Runs of the Store.

A `World` is the Store with the log of all answered calls, newest first.  The
log is what statements about the past speak of: which leases were issued, which
commits were made, which entries were acknowledged.

* `Commit`, `World.commits` — the committed transitions of a run; records and
  journals are determined by them (`StoreStep.records_eq`, `StoreStep.events_eq`);
* `World.Step`, `World.Later` — one call and any number of calls, with any
  arguments, clock readings and random bytes;
* `World.invariant` — the induction principle for all runs.
-/
import AgentRuntime.StoreSteps
import Mathlib.Logic.Relation

namespace Memory

open GoString Kernel Function Relation

/-! ### Commits -/

/-- One committed transition of the Run stored under `runID`. -/
structure Commit where
  runID : GoString
  /-- The commit created the Run. -/
  created : Bool
  snapshot : Snapshot
  events : List EventDraft
  /-- The guard, if the commit was a control. -/
  control : Option ControlGuard

/-- The commit a call has made. -/
def commitOf : (op : StoreOp) → op.Res → Option Commit
  | .create r events, .ok snap => some ⟨r.run.id, true, snap, events, none⟩
  | .apply runID _ m, .ok snap => some ⟨runID, false, snap, m.events, none⟩
  | .applyExecution lease _ m, .ok snap => some ⟨lease.runID, false, snap, m.events, none⟩
  | .applyControl runID _ g m, .ok (snap, _) => some ⟨runID, false, snap, m.events, some g⟩
  | _, _ => none

variable {H : Hashing} {env : Env} {s s' : Store} {op : StoreOp} {res : op.Res}

lemma commitOf_error (op : StoreOp) (e : KernelError) : commitOf op (.error e) = none := by
  cases op <;> rfl

/-- The Run that a call may change. -/
def StoreOp.subject : StoreOp → Option GoString
  | create r _ => some r.run.id
  | apply runID .. | applyControl runID .. => some runID
  | applyExecution lease .. | releaseExecution lease => some lease.runID
  | acquireExecution r => some r.runID
  | renewExecution r => some r.lease.runID
  | quarantineExecution v | repairExecutionQuarantine v => some v.runID
  | _ => none

section Steps

variable (h : StoreStep H env s op res s')

include h

theorem StoreStep.records_eq :
    s'.records = match commitOf op res with
      | some c => update s.records c.runID (some c.snapshot)
      | none => s.records := by
  cases h with
  | fail => rw [commitOf_error]
  | create | apply | applyExecution | applyControl => rw [committed_records]; rfl
  | _ => rfl

/-- The journal a commit writes. -/
def Commit.journal (c : Commit) (s : Store) : List Event :=
  appendEvents (if c.created then [] else s.events c.runID) c.events c.snapshot.run.updatedAt

theorem StoreStep.events_eq :
    s'.events = match commitOf op res with
      | some c => update s.events c.runID (c.journal s)
      | none => s.events := by
  cases h with
  | fail => rw [commitOf_error]
  | create | apply | applyExecution | applyControl => rw [committed_events]; rfl
  | _ => rfl

lemma StoreStep.records_of_ne {id : GoString}
    (hne : ∀ c, commitOf op res = some c → c.runID ≠ id) : s'.records id = s.records id := by
  rw [h.records_eq]
  split
  · rename_i c hc
    exact update_of_ne (hne c hc).symm _ _
  · rfl

lemma StoreStep.events_of_ne {id : GoString}
    (hne : ∀ c, commitOf op res = some c → c.runID ≠ id) : s'.events id = s.events id := by
  rw [h.events_eq]
  split
  · rename_i c hc
    exact update_of_ne (hne c hc).symm _ _
  · rfl

lemma StoreStep.records_of_commit {c : Commit}
    (hc : commitOf op res = some c) : s'.records c.runID = some c.snapshot := by
  rw [h.records_eq, hc]
  exact update_self ..

lemma StoreStep.events_of_commit {c : Commit}
    (hc : commitOf op res = some c) : s'.events c.runID = c.journal s := by
  rw [h.events_eq, hc]
  exact update_self ..

/-- A call leaves all other Runs alone. -/
lemma StoreStep.elsewhere (id : GoString) : op.subject = some id ∨ s'.records id = s.records id ∧
    s'.events id = s.events id ∧ s'.execution id = s.execution id := by
  by_cases hid : op.subject = some id
  · exact .inl hid
  right
  have hne : ∀ {k}, op.subject = some k → id ≠ k := by
    rintro k hk rfl
    exact hid hk
  cases h with
  | create => simp [update_of_ne (hne rfl), createdExecution_of_ne (hne rfl)]
  | apply | applyExecution => simp [update_of_ne (hne rfl)]
  | applyControl => simp [update_of_ne (hne rfl), revokedExecution_of_ne (hne rfl)]
  | acquireExecution | renewExecution | releaseExecution | quarantineExecution
  | repairExecutionQuarantine => exact ⟨rfl, rfl, update_of_ne (hne rfl) _ _⟩
  | _ => exact ⟨rfl, rfl, rfl⟩

end Steps

/-! ### Worlds -/

/-- An answered call. -/
structure Call where
  op : StoreOp
  res : op.Res

/-- The Store with the log of all answered calls, newest first. -/
structure World where
  store : Store := newStore
  log : List Call := []

namespace World

variable {w w' : World}

/-- One call: its answer, and the world after it. -/
def perform (H : Hashing) (env : Env) (op : StoreOp) (w : World) : op.Res × World :=
  ((step H env w.store op).1, ⟨(step H env w.store op).2, ⟨op, (step H env w.store op).1⟩ :: w.log⟩)

/-- The commits of a run, newest first. -/
def commits (w : World) : List Commit := w.log.filterMap fun call => commitOf call.op call.res

/-- The commits of the Run stored under `id`, newest first. -/
def commitsOf (w : World) (id : GoString) : List Commit := w.commits.filter fun c => c.runID = id

/-- One call with some arguments, clock reading and random bytes. -/
def Step (H : Hashing) (w w' : World) : Prop := ∃ env op, w' = (w.perform H env op).2

/-- Any number of calls. -/
abbrev Later (H : Hashing) : World → World → Prop := ReflTransGen (Step H)

/-- The worlds that can be reached from an empty Store. -/
def Reachable (H : Hashing) (w : World) : Prop := Later H {} w

/-- Any number of calls, none of which satisfies `U`. -/
def LaterAvoiding (H : Hashing) (U : Call → Prop) : World → World → Prop :=
  ReflTransGen fun w w' =>
    ∃ env op, w' = (w.perform H env op).2 ∧ ¬ U ⟨op, (w.perform H env op).1⟩

lemma Step.cases (h : Step H w w') : ∃ env op res s', StoreStep H env w.store op res s' ∧
    w' = ⟨s', ⟨op, res⟩ :: w.log⟩ := by
  obtain ⟨env, op, rfl⟩ := h
  exact ⟨env, op, _, _, step_sound rfl, rfl⟩

lemma perform_sound {w' : World} {res : op.Res} (h : w.perform H env op = (res, w')) :
    StoreStep H env w.store op res w'.store := by
  cases h
  exact step_sound rfl

lemma answer_sound {res : op.Res} (h : (w.perform H env op).1 = res) :
    ∃ s', StoreStep H env w.store op res s' :=
  ⟨_, perform_sound (Prod.ext h rfl)⟩

/-- A property of all reachable worlds is proved for the empty Store and for
every outcome of a call. -/
theorem invariant {P : World → Prop} (hinit : P {})
    (hstep : ∀ {w env op res s'}, Reachable H w → P w → StoreStep H env w.store op res s' →
      P ⟨s', ⟨op, res⟩ :: w.log⟩) (h : Reachable H w) : P w := by
  induction h with
  | refl => exact hinit
  | tail hprev hlast ih =>
    obtain ⟨_, _, _, _, hs, rfl⟩ := hlast.cases
    exact hstep hprev ih hs

/-- The commits of a Run after one more call. -/
lemma commitsOf_cons (w : World) (s : Store) (op : StoreOp) (res : op.Res) (id : GoString) :
    (⟨s, ⟨op, res⟩ :: w.log⟩ : World).commitsOf id =
      match commitOf op res with
      | some c => if c.runID = id then c :: w.commitsOf id else w.commitsOf id
      | none => w.commitsOf id := by
  rw [commitsOf, commits, List.filterMap_cons]
  obtain _ | c := commitOf op res
  · rfl
  by_cases hid : c.runID = id
  all_goals simp [hid, commitsOf, commits]

lemma commitsOf_of_ne {w : World} {s : Store} {op : StoreOp} {res : op.Res} {id : GoString}
    (hne : ∀ c, commitOf op res = some c → c.runID ≠ id) :
    (⟨s, ⟨op, res⟩ :: w.log⟩ : World).commitsOf id = w.commitsOf id := by
  rw [commitsOf_cons]
  split
  · rename_i c hc
    rw [if_neg (hne c hc)]
  · rfl

lemma commitsOf_of_commit {w : World} {s : Store} {op : StoreOp} {res : op.Res} {c : Commit}
    (hc : commitOf op res = some c) :
    (⟨s, ⟨op, res⟩ :: w.log⟩ : World).commitsOf c.runID = c :: w.commitsOf c.runID := by
  rw [commitsOf_cons, hc]
  exact if_pos rfl

/-- A given sequence of calls. -/
def runAll (H : Hashing) (calls : List (Env × StoreOp)) (w : World) : World :=
  calls.foldl (fun w c => (w.perform H c.1 c.2).2) w

lemma runAll_later (calls : List (Env × StoreOp)) (w : World) : Later H w (w.runAll H calls) := by
  induction calls generalizing w with
  | nil => exact .refl
  | cons c _ ih => exact .head ⟨c.1, c.2, rfl⟩ (ih _)

lemma Later.reachable (h : Later H w w') (hw : Reachable H w) : Reachable H w' :=
  ReflTransGen.trans hw h

end World

/-- A call either commits to the Run `id`, or leaves its record and journal alone. -/
lemma commit_or_same (op : StoreOp) (res : op.Res) (id : GoString) :
    (∃ c, commitOf op res = some c ∧ c.runID = id) ∨
    (∀ c, commitOf op res = some c → c.runID ≠ id) := by
  rcases hc : commitOf op res with _ | c
  · exact .inr (by simp)
  by_cases hid : c.runID = id
  · exact .inl ⟨c, rfl, hid⟩
  refine .inr ?_
  rintro _ hc'
  rwa [← Option.some.inj hc']

lemma records_eq_head {w : World} (hw : World.Reachable H w) (id : GoString) :
    w.store.records id = (w.commitsOf id).head?.map Commit.snapshot := by
  refine World.invariant
    (P := fun w => w.store.records id = (w.commitsOf id).head?.map Commit.snapshot) rfl ?_ hw
  intro w _ op res _ _ hinv hs
  rcases commit_or_same op res id with ⟨c, hc, rfl⟩ | hne
  · rw [World.commitsOf_of_commit hc]
    exact hs.records_of_commit hc
  · rw [World.commitsOf_of_ne hne]
    exact (hs.records_of_ne hne).trans hinv

/-- A Run for concrete checks. -/
def sampleRecord (executionRequired : Bool) : Record where
  executionRequired := executionRequired
  run :=
    { id := lit "r", kind := lit "agent", actor := ⟨lit "t", lit "a"⟩, thread := ⟨lit "k", lit "i"⟩
      requestID := [], goal := lit "g", status := .running, revision := 1, createdAt := 1
      updatedAt := 1 }
  state := lit "0"

end Memory
