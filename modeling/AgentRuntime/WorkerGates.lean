/-
The gates of a Worker: `dispatchRun` (`continuation/worker.go`).

Calls for one Run take turns.  A gate is a channel with one token, found in the map `runs` and
counted under the mutex; the token is taken and given back outside it.  Any number of calls may
be under way, and a call that waits may be cancelled at any time.

* **`dispatchRun_serialized`** — at most one handler runs for a Run, calls wait for calls of the
  same Run only, and a gate is dropped when nobody refers to it.
-/
import AgentRuntime.GoStrings
import Mathlib.Logic.Relation

namespace Continuation.Gates

open GoString Function List Relation

/-- `workerRunGate`: the tokens in its channel, and the calls that refer to it. -/
structure WorkerRunGate where
  ready : ℕ := 1
  refs : ℕ := 0

/-- Where a call of `dispatchRun` stands: in the `select`, in the handler, or with the token
given back and `refs` to be lowered. -/
inductive Stage where
  | waiting
  | dispatching
  | leaving
  deriving DecidableEq

structure Call where
  runID : GoString
  gate : ℕ
  stage : Stage

/-- The gates of a Worker, the map `runs`, and the calls after their first critical section.
Gates are numbered as they are made. -/
structure Worker where
  gates : ℕ → WorkerRunGate := fun _ => {}
  next : ℕ := 0
  runs : GoString → Option ℕ := fun _ => none
  calls : List Call := []

/-- The gate of the Run; a new one holds the token. -/
def Worker.gateOf (w : Worker) (runID : GoString) : Worker × ℕ :=
  match w.runs runID with
  | some g => (w, g)
  | none =>
    ({ w with gates := update w.gates w.next {}, next := w.next + 1,
              runs := update w.runs runID (some w.next) }, w.next)

/-- The first critical section. -/
def Worker.enter (w : Worker) (runID : GoString) : Worker :=
  let (w, g) := w.gateOf runID
  { w with gates := update w.gates g { w.gates g with refs := (w.gates g).refs + 1 },
           calls := ⟨runID, g, .waiting⟩ :: w.calls }

/-- The deferred critical section. -/
def Worker.leave (w : Worker) (runID : GoString) (g : ℕ) : Worker :=
  let gate := { w.gates g with refs := (w.gates g).refs - 1 }
  { w with gates := update w.gates g gate,
           runs := if gate.refs = 0 then update w.runs runID none else w.runs }

/-- What a call does with the channel of its gate, which has room for one token.  A handler that
panics gives the token back as well. -/
inductive Turn : ℕ → Stage → Stage → ℕ → Prop
  | cancel (n : ℕ) : Turn n .waiting .leaving n
  | receive (n : ℕ) : Turn (n + 1) .waiting .dispatching n
  | send : Turn 0 .dispatching .leaving 1

inductive Step (w : Worker) : Worker → Prop
  | enter (runID : GoString) : Step w (w.enter runID)
  | turn {runID : GoString} {g ready : ℕ} {stage stage' : Stage} {before after : List Call}
      (hcalls : w.calls = before ++ ⟨runID, g, stage⟩ :: after)
      (hturn : Turn (w.gates g).ready stage stage' ready) :
      Step w { w with gates := update w.gates g { w.gates g with ready },
                      calls := before ++ ⟨runID, g, stage'⟩ :: after }
  | leave {runID : GoString} {g : ℕ} {before after : List Call}
      (hcalls : w.calls = before ++ ⟨runID, g, .leaving⟩ :: after) :
      Step w { w.leave runID g with calls := before ++ after }

/-- The Worker can get there from its start, whatever calls come in. -/
def Reachable (w : Worker) : Prop := ReflTransGen Step {} w

/-- What holds between any two steps. -/
structure Sound (w : Worker) : Prop where
  refs : ∀ g, (w.gates g).refs = w.calls.countP fun c => c.gate = g
  token : ∀ g, (w.gates g).ready +
    w.calls.countP (fun c => c.gate = g ∧ c.stage = .dispatching) = 1
  known : ∀ c ∈ w.calls, w.runs c.runID = some c.gate
  used : ∀ r g, w.runs r = some g → g < w.next ∧ 0 < (w.gates g).refs
  own : ∀ r r' g, w.runs r = some g → w.runs r' = some g → r = r'

variable {w w' : Worker}

lemma Sound.enter (h : Sound w) (runID : GoString) : Sound (w.enter runID) := by
  cases hrun : w.runs runID with
  | some =>
    simp only [Worker.enter, Worker.gateOf, hrun]
    refine ⟨fun g' => ?_, fun g' => ?_, forall_mem_cons.mpr ⟨hrun, h.known⟩, fun r g' hr => ?_, h.own⟩
    · have := h.refs g'
      grind
    · have := h.token g'
      grind
    · have := h.used r g' hr
      grind
  | none =>
    -- nobody refers to the gate that is made
    have hfresh : ∀ c ∈ w.calls, c.gate ≠ w.next := fun c hc heq =>
      (h.used _ _ (h.known c hc)).1.ne heq
    simp only [Worker.enter, Worker.gateOf, hrun]
    refine ⟨fun g' => ?_, fun g' => ?_, fun c hc => ?_, fun r g' hr => ?_, fun r r' g' hr hr' => ?_⟩
    · have := h.refs g'
      have hnone : w.calls.countP (fun c => c.gate = w.next) = 0 := by simpa using hfresh
      grind
    · have := h.token g'
      have hnone : w.calls.countP (fun c => c.gate = w.next ∧ c.stage = .dispatching) = 0 :=
        countP_eq_zero.mpr fun c hc => by simp [hfresh c hc]
      grind
    · have := h.known c
      grind
    · have := h.used r g'
      grind
    · have := h.used r g'
      have := h.used r' g'
      have := h.own r r' g'
      grind

lemma Sound.turn (h : Sound w) {runID : GoString} {g ready : ℕ} {stage stage' : Stage}
    {before after : List Call} (hcalls : w.calls = before ++ ⟨runID, g, stage⟩ :: after)
    (hturn : Turn (w.gates g).ready stage stage' ready) :
    Sound { w with gates := update w.gates g { w.gates g with ready },
                   calls := before ++ ⟨runID, g, stage'⟩ :: after } := by
  refine ⟨fun g' => ?_, fun g' => ?_, fun c hc => ?_, fun r g' hr => ?_, h.own⟩
  · have := h.refs g'
    grind
  · have := h.token g'
    generalize hn : (w.gates g).ready = n at hturn
    cases hturn with
    | cancel | receive | send => grind
  · have hmine := h.known ⟨runID, g, stage⟩ (by simp [hcalls])
    have := h.known c
    grind
  · have := h.used r g' hr
    grind

lemma leave_runs {runID r : GoString} {g g' : ℕ} (hr : (w.leave runID g).runs r = some g') :
    w.runs r = some g' ∧ (r = runID → (w.gates g).refs - 1 ≠ 0) := by
  simp only [Worker.leave] at hr
  grind

lemma Sound.leave (h : Sound w) {runID : GoString} {g : ℕ} {before after : List Call}
    (hcalls : w.calls = before ++ ⟨runID, g, .leaving⟩ :: after) :
    Sound { w.leave runID g with calls := before ++ after } := by
  have hmine : w.runs runID = some g := h.known ⟨runID, g, .leaving⟩ (by simp [hcalls])
  have hcount : (w.gates g).refs - 1 = (before ++ after).countP fun c => c.gate = g := by
    have := h.refs g
    grind
  refine ⟨fun g' => ?_, fun g' => ?_, fun c hc => ?_, fun r g' hr => ?_, fun r r' g' hr hr' =>
    h.own r r' g' (leave_runs hr).1 (leave_runs hr').1⟩
  · have := h.refs g'
    simp only [Worker.leave]
    grind
  · have := h.token g'
    simp only [Worker.leave]
    grind
  · have hknown := h.known c
    -- the last call for a gate leaves no other behind
    simp only [Worker.leave]
    grind
  · obtain ⟨hold, _⟩ := leave_runs hr
    have := h.used r g' hold
    have := h.own r runID g'
    simp only [Worker.leave]
    grind

lemma Sound.step (h : Sound w) (hstep : Step w w') : Sound w' := by
  cases hstep with
  | enter runID => exact h.enter runID
  | turn hcalls hturn => exact h.turn hcalls hturn
  | leave hcalls => exact h.leave hcalls

lemma Reachable.sound (h : Reachable w) : Sound w := by
  induction h with
  | refl => exact ⟨by simp, by simp, by simp, by simp, by simp⟩
  | tail _ hstep ih => exact ih.step hstep

/-- **Calls for one Run take turns.**  At most one handler runs for a Run.  A call that waits may
go on unless a handler runs for the same Run, and the token can always be given back.  The calls
for a Run, and no others, share a gate; it stays in the map until nobody refers to it, and no gate
is left when no call is under way. -/
theorem dispatchRun_serialized (h : Reachable w) :
    (∀ r, w.calls.countP (fun c => c.runID = r ∧ c.stage = .dispatching) ≤ 1) ∧
    (∀ c ∈ w.calls, c.stage = .waiting →
      (∃ n, Turn (w.gates c.gate).ready .waiting .dispatching n) ∨
        ∃ d ∈ w.calls, d.runID = c.runID ∧ d.stage = .dispatching) ∧
    (∀ c ∈ w.calls, c.stage = .dispatching →
      Turn (w.gates c.gate).ready .dispatching .leaving 1) ∧
    (∀ c ∈ w.calls, ∀ d ∈ w.calls, c.runID = d.runID ↔ c.gate = d.gate) ∧
    (∀ w' r g, Step w w' → w.runs r = some g → w'.runs r ≠ some g → ∀ c ∈ w'.calls, c.gate ≠ g) ∧
    (w.calls = [] → ∀ r, w.runs r = none) := by
  have hs := h.sound
  have hshare : ∀ c ∈ w.calls, ∀ d ∈ w.calls, c.runID = d.runID ↔ c.gate = d.gate := by
    intro c hc d hd
    have hc := hs.known c hc
    have hd := hs.known d hd
    constructor
    · intro heq
      rw [heq, hd] at hc
      exact (Option.some.inj hc).symm
    · intro heq
      exact hs.own _ _ _ hc (heq ▸ hd)
  refine ⟨fun r => ?_, fun c hc hstage => ?_, fun c hc hstage => ?_, hshare,
    fun w' r g hstep hr hr' c hc hgate => hr' ?_, fun hnil r => ?_⟩
  · -- the calls of a Run are calls of its gate
    have htoken := hs.token ((w.runs r).getD 0)
    refine (countP_mono_left fun c hc hcall => ?_).trans (htoken ▸ Nat.le_add_left _ _)
    simp only [decide_eq_true_eq] at hcall ⊢
    rw [← hcall.1, hs.known c hc]
    exact ⟨rfl, hcall.2⟩
  · have htoken := hs.token c.gate
    cases hready : (w.gates c.gate).ready with
    | succ n => exact .inl ⟨n, .receive n⟩
    | zero =>
      obtain ⟨d, hd, hcall⟩ := countP_pos_iff.mp (show 0 < w.calls.countP
        (fun d => d.gate = c.gate ∧ d.stage = .dispatching) by omega)
      simp only [decide_eq_true_eq] at hcall
      exact .inr ⟨d, hd, (hshare d hd c hc).mpr hcall.1, hcall.2⟩
  · have htoken := hs.token c.gate
    have hpos : 0 < w.calls.countP (fun d => d.gate = c.gate ∧ d.stage = .dispatching) :=
      countP_pos_iff.mpr ⟨c, hc, by simp [hstage]⟩
    rw [show (w.gates c.gate).ready = 0 by omega]
    exact .send
  · have hknown := (hs.step hstep).known c hc
    cases hstep with
    | enter runID =>
      cases hrun : w.runs runID with
      | some | none =>
        simp only [Worker.enter, Worker.gateOf, hrun]
        grind
    | turn => exact hr
    | leave =>
      rw [hgate] at hknown
      rwa [hs.own r _ g hr (leave_runs hknown).1]
  · cases hr : w.runs r with
    | none => rfl
    | some g =>
      have hpos := (hs.used r g hr).2
      rw [hs.refs g, hnil] at hpos
      simp at hpos

/-- Two calls for one Run, of which the first is in its handler and the second waits. -/
theorem second_call_waits : ∃ w : Worker, Reachable w ∧
    (w.calls.map fun c => (c.runID, c.stage)) = [(lit "r", .waiting), (lit "r", .dispatching)] ∧
    ∀ r, w.calls.countP (fun c => c.runID = r ∧ c.stage = .dispatching) ≤ 1 := by
  have hcalls : (({} : Worker).enter (lit "r")).calls = [] ++ ⟨lit "r", 0, .waiting⟩ :: [] := rfl
  have hfirst : Reachable _ := .tail (.single (.enter (lit "r"))) (.turn hcalls (.receive 0))
  have hboth := hfirst.tail (.enter (lit "r"))
  exact ⟨_, hboth, rfl, (dispatchRun_serialized hboth).1⟩

end Continuation.Gates
