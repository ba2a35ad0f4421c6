/-
The continuation Dispatcher (`continuation/dispatcher.go`).

`Dispatch` decides whether a queued Job may be acknowledged.  It reads Runs
through a loader and hands them to the feature that owns them; nothing is known
about what either answers, so the Dispatcher is a program against an adversary
and its behaviour is the set of its traces.

* **`dispatch_acknowledges`** — a Job is acknowledged only by the last call of
  the dispatch, which is its proof.
-/
import AgentRuntime.CallTraces
import AgentRuntime.Continuation

namespace Continuation

open GoString Kernel Interleaving List

/-! ### The Dispatcher -/

/-- What the Dispatcher calls: the loader, a Resumer (with a wait generation when
it is asked to resume a Tool wait) and the context. -/
inductive DispatchOp where
  | load (runID : GoString)
  | resume (kind runID : GoString) (revision : UInt64) (wait : Option UInt64)
  | contextErr

abbrev DispatchOp.Res : DispatchOp → Type
  | load _ => Except Failure Snapshot
  | resume .. => Snapshot × Option Failure
  | contextErr => Option Failure

/-- The loader, the Resumers and the context, which may answer anything. -/
def dispatchObject : SharedObject Unit where
  Op := DispatchOp
  Res := DispatchOp.Res
  Exec _ _ _ _ := True

abbrev DProg (α : Type) : Type := Prog dispatchObject α

def loadSnapshot (runID : GoString) : DProg (Except Failure Snapshot) :=
  Prog.op (O := dispatchObject) (.load runID)

/-- `Resume`, or `ResumeToolWait` with its generation. -/
def callResumer (snapshot : Snapshot) (wait : Option UInt64) : DProg (Snapshot × Option Failure) :=
  Prog.op (O := dispatchObject)
    (.resume snapshot.run.kind snapshot.run.id snapshot.run.revision wait)

def contextErr : DProg (Option Failure) := Prog.op (O := dispatchObject) .contextErr

/-- A registered Resumer; only some of them implement `ToolWaitResumer`. -/
inductive Resumer where
  | plain
  | toolWait
  deriving DecidableEq, Repr

structure Dispatcher where
  resumers : GoString → Option Resumer

/-- `terminalSnapshotAfterResume`. -/
def terminalSnapshotAfterResume (snapshot : Snapshot) : Bool :=
  match snapshot.run.status with
  | .completed | .failed | .cancelled => snapshot.run.id ≠ []
  | _ => false

/-- Whether the delivered fact outlives the revision it was scheduled for. -/
def stableFact (p : Payload) : Bool := p.trigger = .childTerminal || p.waitGeneration ≠ 0

def eligibleSnapshot (p : Payload) : DProg (Except Failure (Snapshot × Bool)) := do
  match ← loadSnapshot p.runID with
  | .error e => return .error e
  | .ok snapshot =>
    match snapshot.run.status with
    | .other _ => return .error [.kernelInvalidInput]
    | .running =>
      if !stableFact p && snapshot.run.revision ≠ p.expectedRevision then
        return .error [.kernelConflict]
      else return .ok (snapshot, true)
    | _ => return .ok (snapshot, false)

def resumeResult (runID : GoString) (resumed : Snapshot) (resumeErr : Option Failure) :
    DProg (Option Failure) :=
  if !terminalSnapshotAfterResume resumed && resumeErr.isNone then return none
  else if !terminalSnapshotAfterResume resumed &&
      !(errorsIs resumeErr .kernelTerminal) && !(errorsIs resumeErr .kernelNotFound) then
    return resumeErr
  else do
    match ← loadSnapshot runID with
    | .error e => return errorsJoin resumeErr (some e)
    | .ok current =>
      if terminalSnapshotAfterResume current then return none
      else if resumeErr.isNone then return some [.kernelConflict]
      else return resumeErr

def resumeOnce (snapshot : Snapshot) : DProg (Option Failure) := do
  let (resumed, err) ← callResumer snapshot none
  if errorsIs err .kernelConflict then
    match ← loadSnapshot snapshot.run.id with
    | .error e => return errorsJoin err (some e)
    | .ok current => return if terminalSnapshotAfterResume current then none else err
  else resumeResult snapshot.run.id resumed err

/-- The loop that `dispatchChildTerminal` and `dispatchToolWait` share, with the
attempts left.  Only the latter passes a wait generation, and it refuses a
Resumer that cannot take one. -/
def retryStableFact (d : Dispatcher) (p : Payload) (wait : Option UInt64) :
    ℕ → DProg (Option Failure)
  | 0 => return some [.kernelConflict]
  | attempts + 1 => do
    match ← contextErr with
    | some e => return some e
    | none =>
      match ← eligibleSnapshot p with
      | .error e => return some e
      | .ok (_, false) => return none
      | .ok (snapshot, true) =>
        match d.resumers snapshot.run.kind with
        | none => return some [.unsupportedRunKind]
        | some resumer =>
          if wait.isSome && resumer = .plain then return some [.unsupportedRunKind]
          else do
            let (resumed, err) ← callResumer snapshot wait
            if errorsIs err .kernelConflict then retryStableFact d p wait attempts
            else resumeResult snapshot.run.id resumed err

/-- `maxStableFactCASRetries`. -/
def maxStableFactCASRetries : ℕ := 8

def dispatchChildTerminal (d : Dispatcher) (p : Payload) : DProg (Option Failure) :=
  retryStableFact d p none maxStableFactCASRetries

def dispatchToolWait (d : Dispatcher) (p : Payload) : DProg (Option Failure) :=
  retryStableFact d p (some p.waitGeneration) maxStableFactCASRetries

/-- `Dispatcher.Dispatch`. -/
def dispatch (d : Dispatcher) (payload : Payload) : DProg (Option Failure) :=
  match normalizePayload payload with
  | .error e => return some e
  | .ok p =>
    if p.waitGeneration ≠ 0 then dispatchToolWait d p
    else if p.trigger = .childTerminal then dispatchChildTerminal d p
    else do
      match ← eligibleSnapshot p with
      | .error e => return some e
      | .ok (_, false) => return none
      | .ok (snapshot, true) =>
        match d.resumers snapshot.run.kind with
        | none => return some [.unsupportedRunKind]
        | some _ => resumeOnce snapshot

/-! ### What a trace proves -/

/-- One call of the Dispatcher with its answer. -/
abbrev DCall : Type := Answered dispatchObject

/-- The five recognized statuses in which a Run does not run. -/
def parked : RunStatus → Bool
  | .waitingInput | .pausedBudget | .completed | .failed | .cancelled => true
  | _ => false

/-- The call loaded the Run `runID` and found it at rest. -/
def FoundParked (runID : GoString) (c : DCall) : Prop :=
  ∃ snap : Snapshot, c = ⟨.load runID, .ok snap⟩ ∧ parked snap.run.status = true

/-- `snap` was loaded for the payload and found running, at the revision the
payload insists on if it does. -/
structure Eligible (p : Payload) (before : List DCall) (snap : Snapshot) : Prop where
  loaded : (⟨.load p.runID, .ok snap⟩ : DCall) ∈ before
  running : snap.run.status = .running
  revision : p.waitGeneration = 0 → p.trigger ≠ .childTerminal →
    snap.run.revision = p.expectedRevision

/-- The call resumed an eligible snapshot at its revision, without an error and
with a result that does not look terminal. -/
def Accepted (p : Payload) (before : List DCall) (c : DCall) : Prop :=
  ∃ (snap resumed : Snapshot) (wait : Option UInt64), Eligible p before snap ∧
    c = ⟨.resume snap.run.kind snap.run.id snap.run.revision wait, (resumed, none)⟩ ∧
    terminalSnapshotAfterResume resumed = false

/-- The proof with which a dispatch acknowledges: its last call found the Run at
rest, or resumed it.  The Run that is read again after a resumption is the one
that the resumed snapshot names. -/
def Acknowledged (p : Payload) (t : List DCall) : Prop :=
  ∃ before last, t = before ++ [last] ∧
    (FoundParked p.runID last ∨
      (∃ snap, Eligible p before snap ∧ FoundParked snap.run.id last) ∨
      Accepted p before last)

/-- The call went to a Resumer. -/
def isResume (c : DCall) : Bool :=
  match c with
  | ⟨.resume .., _⟩ => true
  | _ => false

/-- The call went to a Resumer, whose answer was not a conflict. -/
def isSettled (c : DCall) : Bool :=
  match c with
  | ⟨.resume .., (_, err)⟩ => !errorsIs err .kernelConflict
  | _ => false

/-! ### One function at a time -/

variable {d : Dispatcher} {p : Payload} {t before after : List DCall} {snap resumed : Snapshot}
  {err r : Option Failure} {wait : Option UInt64}

variable {α : Type} {runID : GoString} {a : α}

lemma traces_load {k : Except Failure Snapshot → DProg α} :
    Traces (loadSnapshot runID >>= k) t a ↔
      ∃ answer t', t = (⟨.load runID, answer⟩ : DCall) :: t' ∧ Traces (k answer) t' a :=
  traces_call

lemma traces_resume {k : Snapshot × Option Failure → DProg α} :
    Traces (callResumer snap wait >>= k) t a ↔
      ∃ answer t', t = (⟨.resume snap.run.kind snap.run.id snap.run.revision wait, answer⟩ : DCall) ::
        t' ∧ Traces (k answer) t' a :=
  traces_call

lemma traces_context {k : Option Failure → DProg α} : Traces (contextErr >>= k) t a ↔
      ∃ answer t', t = (⟨.contextErr, answer⟩ : DCall) :: t' ∧ Traces (k answer) t' a :=
  traces_call

lemma parked_of_terminal (h : terminalSnapshotAfterResume snap = true) :
    parked snap.run.status = true := by
  rw [terminalSnapshotAfterResume] at h
  split at h
  · rename_i hs; rw [hs]; rfl
  · rename_i hs; rw [hs]; rfl
  · rename_i hs; rw [hs]; rfl
  · cases h

/-- Reading makes one call, and no Resumer sees it. -/
lemma eligibleSnapshot_spec {res : Except Failure (Snapshot × Bool)}
    (h : Traces (eligibleSnapshot p) t res) : t.filter isResume = [] ∧ t.filter isSettled = [] ∧
      (∀ snap, res = .ok (snap, false) → ∃ last, t = [last] ∧ FoundParked p.runID last) ∧
      ∀ snap, res = .ok (snap, true) → Eligible p t snap := by
  obtain ⟨answer, _, rfl, hrest⟩ := traces_load.mp h
  obtain e | current := answer
  · obtain ⟨rfl, rfl⟩ := traces_ret.mp hrest
    exact ⟨rfl, rfl, by simp, by simp⟩
  dsimp only at hrest
  split at hrest
  · -- an unknown status is an error
    obtain ⟨rfl, rfl⟩ := traces_ret.mp hrest
    exact ⟨rfl, rfl, by simp, by simp⟩
  · rename_i hrunning
    split at hrest
    · obtain ⟨rfl, rfl⟩ := traces_ret.mp hrest
      exact ⟨rfl, rfl, by simp, by simp⟩
    rename_i hrevision
    obtain ⟨rfl, rfl⟩ := traces_ret.mp hrest
    refine ⟨rfl, rfl, by simp, fun snap hsnap => ?_⟩
    cases hsnap
    refine ⟨mem_cons_self, hrunning, fun hwait htrigger => ?_⟩
    have hmoving : stableFact p = false := by simp [stableFact, hwait, htrigger]
    simpa [hmoving] using hrevision
  · rename_i hother hrunning
    obtain ⟨rfl, rfl⟩ := traces_ret.mp hrest
    refine ⟨rfl, rfl, fun snap hsnap => ?_, by simp⟩
    cases hsnap
    refine ⟨_, rfl, current, rfl, ?_⟩
    revert hother hrunning
    cases current.run.status with
    | running => exact fun _ hrunning => absurd rfl hrunning
    | other name => exact fun hother _ => absurd rfl (hother name)
    | _ => exact fun _ _ => rfl

/-- What is done with the answer of a Resumer that was not a conflict. -/
lemma resumeResult_spec (h : Traces (resumeResult runID resumed err) t r) :
    t.filter isResume = [] ∧ t.filter isSettled = [] ∧
      (r = none → (t = [] ∧ err = none ∧ terminalSnapshotAfterResume resumed = false) ∨
        ∃ last, t = [last] ∧ FoundParked runID last) := by
  rw [resumeResult] at h
  split at h
  · rename_i hnil
    obtain ⟨rfl, rfl⟩ := traces_ret.mp h
    refine ⟨rfl, rfl, fun _ => .inl ⟨rfl, ?_, ?_⟩⟩
    · simp at hnil
      exact hnil.2
    · simp at hnil
      exact hnil.1
  · rename_i hnil
    split at h
    · rename_i herr
      obtain ⟨rfl, rfl⟩ := traces_ret.mp h
      refine ⟨rfl, rfl, fun hnone => ?_⟩
      -- the error is passed on, and it is not nil
      exfalso
      subst hnone
      simp at hnil herr
      exact absurd herr.1.1 (by simp [hnil])
    · obtain ⟨answer, _, rfl, hrest⟩ := traces_load.mp h
      obtain e | current := answer
      · obtain ⟨rfl, rfl⟩ := traces_ret.mp hrest
        refine ⟨rfl, rfl, fun hnone => ?_⟩
        exact absurd (errorsJoin_eq_none.mp hnone).2 (by simp)
      dsimp only at hrest
      split at hrest
      · rename_i hterminal
        obtain ⟨rfl, rfl⟩ := traces_ret.mp hrest
        exact ⟨rfl, rfl, fun _ => .inr ⟨_, rfl, current, rfl, parked_of_terminal hterminal⟩⟩
      split at hrest
      · obtain ⟨rfl, rfl⟩ := traces_ret.mp hrest
        exact ⟨rfl, rfl, nofun⟩
      rename_i hsome
      obtain ⟨rfl, rfl⟩ := traces_ret.mp hrest
      refine ⟨rfl, rfl, fun hnone => absurd ?_ hsome⟩
      rw [hnone]
      rfl

/-- A resumption of an eligible snapshot, with what is made of its answer. -/
lemma resumed_acknowledged (hsnap : Eligible p before snap)
    (h : (after = [] ∧ err = none ∧ terminalSnapshotAfterResume resumed = false) ∨
      ∃ last, after = [last] ∧ FoundParked snap.run.id last) :
    Acknowledged p (before ++
      ⟨.resume snap.run.kind snap.run.id snap.run.revision wait, (resumed, err)⟩ :: after) := by
  rcases h with ⟨rfl, rfl, hresumed⟩ | ⟨last, rfl, hlast⟩
  · exact ⟨before, _, rfl, .inr (.inr ⟨snap, resumed, wait, hsnap, rfl, hresumed⟩)⟩
  refine ⟨before ++ [⟨.resume snap.run.kind snap.run.id snap.run.revision wait, (resumed, err)⟩],
    last, by simp, .inr (.inl ⟨snap, ?_, hlast⟩)⟩
  exact ⟨mem_append_left _ hsnap.loaded, hsnap.running, hsnap.revision⟩

lemma Eligible.mono {before' : List DCall} (h : Eligible p before snap)
    (hsub : before ⊆ before') : Eligible p before' snap :=
  ⟨hsub h.loaded, h.running, h.revision⟩

/-- Calls made before a proof do not matter. -/
lemma Acknowledged.append (earlier : List DCall) (h : Acknowledged p t) :
    Acknowledged p (earlier ++ t) := by
  obtain ⟨before, last, rfl, hproof⟩ := h
  have hsub : before ⊆ earlier ++ before := subset_append_right _ _
  refine ⟨earlier ++ before, last, by simp, ?_⟩
  rcases hproof with hparked | ⟨snap, hsnap, hparked⟩ | ⟨snap, resumed, wait, hsnap, hcall, hres⟩
  · exact .inl hparked
  · exact .inr (.inl ⟨snap, hsnap.mono hsub, hparked⟩)
  · exact .inr (.inr ⟨snap, resumed, wait, hsnap.mono hsub, hcall, hres⟩)

/-- At most `n` calls of Resumers, of which at most one is not answered with a
conflict; and a nil error only with a proof. -/
structure Disciplined (n : ℕ) (p : Payload) (t : List DCall) (r : Option Failure) : Prop where
  resumes : (t.filter isResume).length ≤ n
  settled : (t.filter isSettled).length ≤ 1
  proven : r = none → Acknowledged p t

variable {n : ℕ}

lemma Disciplined.of_reads (hresume : t.filter isResume = [])
    (hsettled : t.filter isSettled = []) (hproven : r = none → Acknowledged p t) :
    Disciplined n p t r := by
  refine ⟨?_, ?_, hproven⟩
  · rw [hresume]
    exact Nat.zero_le n
  · rw [hsettled]
    exact Nat.zero_le 1

/-- A dispatch whose only call of a Resumer is the last one but for reads. -/
lemma Disciplined.of_resume (hbefore : before.filter isResume = [] ∧ before.filter isSettled = [])
    (hafter : after.filter isResume = [] ∧ after.filter isSettled = [])
    (hproven : r = none → Acknowledged p (before ++
      ⟨.resume snap.run.kind snap.run.id snap.run.revision wait, (resumed, err)⟩ :: after)) :
    Disciplined (n + 1) p (before ++
      ⟨.resume snap.run.kind snap.run.id snap.run.revision wait, (resumed, err)⟩ :: after) r := by
  refine ⟨?_, ?_, hproven⟩
  · rw [filter_append, hbefore.1, filter_cons, hafter.1]
    split
    all_goals simp
  rw [filter_append, hbefore.2, filter_cons, hafter.2]
  split
  all_goals simp

/-- The retry loop: every round but the last ends in a conflict. -/
theorem retryStableFact_spec
    (h : Traces (retryStableFact d p wait n) t r) : Disciplined n p t r := by
  induction n generalizing t with
  | zero =>
    obtain ⟨rfl, rfl⟩ := traces_ret.mp h
    exact .of_reads rfl rfl nofun
  | succ n ih =>
    rw [retryStableFact] at h
    obtain ⟨cancelled, _, rfl, h1⟩ := traces_context.mp h
    cases cancelled with
    | some =>
      obtain ⟨rfl, rfl⟩ := traces_ret.mp h1
      exact .of_reads rfl rfl nofun
    | none =>
      obtain ⟨reads, _, res, rfl, hread, h2⟩ := traces_bind.mp h1
      obtain ⟨hresume, hsettled, hparked, heligible⟩ := eligibleSnapshot_spec hread
      -- reading, with the look at the context before it, calls no Resumer
      have hreads : ∀ {r}, (r = none → Acknowledged p (⟨.contextErr, none⟩ :: reads)) →
          Disciplined (n + 1) p (⟨.contextErr, none⟩ :: reads) r :=
        .of_reads hresume hsettled
      obtain e | ⟨snap, _ | _⟩ := res
      · obtain ⟨rfl, rfl⟩ := traces_ret.mp h2
        rw [append_nil]
        exact hreads nofun
      · obtain ⟨rfl, rfl⟩ := traces_ret.mp h2
        obtain ⟨last, rfl, hlast⟩ := hparked snap rfl
        exact hreads fun _ => ⟨[⟨.contextErr, none⟩], last, rfl, .inl hlast⟩
      have hsnap : Eligible p (⟨.contextErr, none⟩ :: reads) snap :=
        (heligible snap rfl).mono (subset_cons_self _ _)
      dsimp only at h2
      split at h2
      · obtain ⟨rfl, rfl⟩ := traces_ret.mp h2
        rw [append_nil]
        exact hreads nofun
      split at h2
      · obtain ⟨rfl, rfl⟩ := traces_ret.mp h2
        rw [append_nil]
        exact hreads nofun
      obtain ⟨⟨resumed, err⟩, _, rfl, h3⟩ := traces_resume.mp h2
      split at h3
      · -- a conflict: the rest of the loop has one attempt less
        rename_i hconflict
        have hrest := ih h3
        refine ⟨?_, ?_, fun hnone => ?_⟩
        · have hlen := hrest.resumes
          simp only [filter_cons, filter_append, isResume, hresume,
            nil_append, Bool.false_eq_true, if_false, if_true, length_cons]
          omega
        · have hlen := hrest.settled
          simp only [filter_cons, filter_append, isSettled, hsettled,
            hconflict, nil_append, Bool.not_true, Bool.false_eq_true, if_false]
          exact hlen
        have happend := (hrest.proven hnone).append (⟨.contextErr, none⟩ :: reads ++
          [⟨.resume snap.run.kind snap.run.id snap.run.revision wait, (resumed, err)⟩])
        simpa using happend
      · obtain ⟨hresume', hsettled', hproof⟩ := resumeResult_spec h3
        have hbefore : ((⟨.contextErr, none⟩ :: reads : List DCall).filter isResume = []) ∧
            (⟨.contextErr, none⟩ :: reads : List DCall).filter isSettled = [] :=
          ⟨hresume, hsettled⟩
        exact .of_resume hbefore ⟨hresume', hsettled'⟩ fun hnone =>
          resumed_acknowledged hsnap (hproof hnone)

/-- The only resumption of a wakeup that is bound to its revision. -/
lemma resumeOnce_spec (hsnap : Eligible p before snap)
    (hbefore : before.filter isResume = [] ∧ before.filter isSettled = [])
    (h : Traces (resumeOnce snap) t r) : Disciplined (n + 1) p (before ++ t) r := by
  obtain ⟨⟨_, err⟩, _, rfl, h1⟩ := traces_resume.mp h
  dsimp only at h1
  split at h1
  · rename_i hconflict
    have herr : err ≠ none := by
      rintro rfl
      cases hconflict
    obtain ⟨answer, _, rfl, h2⟩ := traces_load.mp h1
    obtain e | current := answer
    · obtain ⟨rfl, rfl⟩ := traces_ret.mp h2
      refine .of_resume hbefore ⟨rfl, rfl⟩ fun hnone => ?_
      exact absurd (errorsJoin_eq_none.mp hnone).1 herr
    obtain ⟨rfl, rfl⟩ := traces_ret.mp h2
    refine .of_resume hbefore ⟨rfl, rfl⟩ fun hnone => ?_
    -- a conflict is forgiven only when the Run has ended meanwhile
    have hterminal : terminalSnapshotAfterResume current = true := by
      by_contra hrunning
      rw [if_neg hrunning] at hnone
      exact herr hnone
    exact resumed_acknowledged hsnap
      (.inr ⟨_, rfl, current, rfl, parked_of_terminal hterminal⟩)
  · obtain ⟨hresume, hsettled, hproof⟩ := resumeResult_spec h1
    exact .of_resume hbefore ⟨hresume, hsettled⟩ fun hnone =>
      resumed_acknowledged hsnap (hproof hnone)

/-! ### The whole dispatch -/

/-- **A Job is acknowledged only with proof.**  Whatever the loader, the Resumers
and the context answer: a dispatch calls Resumers at most eight times, at most one
of these calls is not answered with a conflict, and if the dispatch returns nil
then its last call either found the payload's Run at rest (or, after a resumption,
the Run that the resumed snapshot names) or resumed, without an error and without
a terminal-looking result, a running snapshot that was loaded for the payload, at
its own revision and, when the payload insists on a revision, at that one. -/
theorem dispatch_acknowledges (d : Dispatcher) (payload : Payload) (t : List DCall)
    (r : Option Failure) (h : Traces (dispatch d payload) t r) :
    Disciplined 8 (trimPayload payload) t r := by
  unfold dispatch at h
  split at h
  · obtain ⟨rfl, rfl⟩ := traces_ret.mp h
    exact .of_reads rfl rfl nofun
  rename_i hp
  obtain ⟨rfl, -⟩ := normalizePayload_ok hp
  split at h
  · exact retryStableFact_spec h
  split at h
  · exact retryStableFact_spec h
  obtain ⟨_, _, res, rfl, hread, h1⟩ := traces_bind.mp h
  obtain ⟨hresume, hsettled, hparked, heligible⟩ := eligibleSnapshot_spec hread
  obtain e | ⟨snap, _ | _⟩ := res
  · obtain ⟨rfl, rfl⟩ := traces_ret.mp h1
    rw [append_nil]
    exact .of_reads hresume hsettled nofun
  · obtain ⟨rfl, rfl⟩ := traces_ret.mp h1
    obtain ⟨last, rfl, hlast⟩ := hparked snap rfl
    exact .of_reads hresume hsettled fun _ => ⟨[], last, rfl, .inl hlast⟩
  dsimp only at h1
  split at h1
  · obtain ⟨rfl, rfl⟩ := traces_ret.mp h1
    rw [append_nil]
    exact .of_reads hresume hsettled nofun
  · exact resumeOnce_spec (heligible snap rfl) ⟨hresume, hsettled⟩ h1

/-- A Run for the two traces below. -/
def sampleRun (id : GoString) (status : RunStatus) : Snapshot where
  run :=
    { id := id, kind := lit "agent", actor := ⟨lit "t", lit "a"⟩, thread := ⟨lit "chat", lit "c"⟩
      requestID := [], goal := lit "g", status := status, revision := 5, createdAt := 1
      updatedAt := 1 }
  state := lit "{}"
  eventHead := 1

/-- A wakeup of the Run `r` at revision 5. -/
def sampleWakeup : Payload where
  schemaVersion := 1
  runID := lit "r"
  expectedRevision := 5
  trigger := .runReady
  sourceRunID := lit "r"
  sourceRevision := 5

/-- The wakeup is delivered, and the Run stays running. -/
theorem dispatch_acknowledges_wakeup :
    Disciplined 8 (trimPayload sampleWakeup)
      [⟨.load (lit "r"), .ok (sampleRun (lit "r") .running)⟩,
        ⟨.resume (lit "agent") (lit "r") 5 none, (sampleRun (lit "r") .running, none)⟩] none :=
  dispatch_acknowledges ⟨fun _ => some .plain⟩ sampleWakeup _ none (.call (.call (.ret none)))

/-- The loader answers with the snapshot of another Run.  The conflict of that
Run's resumption is forgiven because that other Run has ended, and the Job is
acknowledged although its own Run was seen running only. -/
theorem dispatch_acknowledges_other_run : ∃ t : List DCall,
    Traces (dispatch ⟨fun _ => some .plain⟩ sampleWakeup) t none ∧
      (¬ ∃ snap : Snapshot, (⟨.load sampleWakeup.runID, .ok snap⟩ : DCall) ∈ t ∧
        parked snap.run.status = true) ∧
      ¬ ∃ before call after, t = before ++ call :: after ∧ Accepted sampleWakeup before call := by
  refine ⟨[⟨.load (lit "r"), .ok (sampleRun (lit "x") .running)⟩,
    ⟨.resume (lit "agent") (lit "x") 5 none, (sampleRun (lit "x") .running, some [.kernelConflict])⟩,
    ⟨.load (lit "x"), .ok (sampleRun (lit "x") .completed)⟩], .call (.call (.call (.ret none))), ?_, ?_⟩
  · rintro ⟨_, hmem, hparked⟩
    simp only [mem_cons, not_mem_nil, or_false] at hmem
    rcases hmem with hmem | hmem | hmem
    · cases hmem
      cases hparked
    · cases hmem
    · have hrun : sampleWakeup.runID = lit "x" := by injection hmem with hop; injection hop
      cases hrun
  · rintro ⟨before, _, after, ht, snap, resumed, wait, -, rfl, -⟩
    have hmem : (⟨.resume snap.run.kind snap.run.id snap.run.revision wait, (resumed, none)⟩ :
        DCall) ∈ before ++ ⟨.resume snap.run.kind snap.run.id snap.run.revision wait,
          (resumed, none)⟩ :: after := by simp
    rw [← ht] at hmem
    -- an accepted resumption is settled, and the only one here is a conflict
    have hsettled := mem_filter.mpr ⟨hmem, show isSettled _ = true from rfl⟩
    exact absurd hsettled not_mem_nil

end Continuation
