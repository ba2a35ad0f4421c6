/-
The calls a sequential program makes when everything it calls may answer
anything.

`Traces p t a` says that `p`, given the answers recorded in `t`, makes exactly
the calls recorded in `t`, in this order, and returns `a`.  No shared state is
involved: the environment is an adversary that chooses every answer.

* `traces_ret`, `traces_call`, `traces_bind` — the trace of a program from the
  traces of its parts.

`Runs env p s t a s'` is the same beside others who share the state: between two
calls of `p` they move it by steps of `env`, and every call is one of the object.

* `runs_ret`, `runs_call`, `runs_bind` — the run of a program from those of its
  parts;
* `Runs.states` — the states of a run follow one another;
* `Asks`, `Runs.asks` — what a program can ask for at all;
* `EachAfter` — what every call of a run has, given the calls before it.
-/
import AgentRuntime.Interleaving

namespace Interleaving

variable {σ : Type} {O : SharedObject σ} {α β : Type}

/-- One call with its answer. -/
structure Answered (O : SharedObject σ) where
  op : O.Op
  answer : O.Res op

/-- `p` makes the calls of the trace, gets its answers and returns the value. -/
inductive Traces : Prog O α → List (Answered O) → α → Prop
  | ret (a : α) : Traces (.ret a) [] a
  | call {op : O.Op} {k : O.Res op → Prog O α} {r : O.Res op} {t : List (Answered O)} {a : α}
      (h : Traces (k r) t a) : Traces (.call op k) (⟨op, r⟩ :: t) a

variable {t : List (Answered O)} {a b : α} {p : Prog O α} {f : α → Prog O β}

@[simp] theorem traces_ret : Traces (.ret a : Prog O α) t b ↔ t = [] ∧ b = a := by
  constructor
  · intro h
    cases h
    exact ⟨rfl, rfl⟩
  · rintro ⟨rfl, rfl⟩
    exact .ret b

theorem traces_call {op : O.Op} {k : O.Res op → Prog O α} :
    Traces (.call op k) t a ↔ ∃ r t', t = ⟨op, r⟩ :: t' ∧ Traces (k r) t' a := by
  constructor
  · intro h
    cases h with
    | call h => exact ⟨_, _, rfl, h⟩
  · rintro ⟨r, _, rfl, h⟩
    exact .call h

/-- The trace of a sequence is cut where the first program returns. -/
theorem traces_bind {c : β} :
    Traces (p >>= f) t c ↔ ∃ t1 t2 a, t = t1 ++ t2 ∧ Traces p t1 a ∧ Traces (f a) t2 c := by
  induction p generalizing t with
  | ret a =>
    constructor
    · exact fun h => ⟨[], t, a, rfl, .ret a, h⟩
    rintro ⟨_, _, _, rfl, h1, h2⟩
    obtain ⟨rfl, rfl⟩ := traces_ret.mp h1
    exact h2
  | call op _ ih =>
    constructor
    · intro h
      obtain ⟨r, _, rfl, h'⟩ := traces_call.mp h
      obtain ⟨t1, t2, a, rfl, h1, h2⟩ := (ih r).mp h'
      exact ⟨⟨op, r⟩ :: t1, t2, a, rfl, .call h1, h2⟩
    rintro ⟨_, t2, a, rfl, h1, h2⟩
    obtain ⟨r, t', rfl, h'⟩ := traces_call.mp h1
    exact .call ((ih r).mpr ⟨t', t2, a, rfl, h', h2⟩)

/-! ### Runs beside others -/

/-- One call with its answer, and the states before and after it. -/
structure Performed (O : SharedObject σ) where
  before : σ
  op : O.Op
  answer : O.Res op
  after : σ

/-- `p` runs from one state to another and returns the value. -/
inductive Runs (env : σ → σ → Prop) : Prog O α → σ → List (Performed O) → α → σ → Prop
  | ret {s s' : σ} (a : α) (henv : Relation.ReflTransGen env s s') : Runs env (.ret a) s [] a s'
  | call {s s₁ s₂ s' : σ} {op : O.Op} {k : O.Res op → Prog O α} {r : O.Res op}
      {t : List (Performed O)} {a : α} (henv : Relation.ReflTransGen env s s₁)
      (hexec : O.Exec s₁ op r s₂) (h : Runs env (k r) s₂ t a s') :
      Runs env (.call op k) s (⟨s₁, op, r, s₂⟩ :: t) a s'

variable {env : σ → σ → Prop} {s s' : σ} {u : List (Performed O)} {P : O.Op → Prop}

theorem runs_ret : Runs env (.ret a : Prog O α) s u b s' ↔
    u = [] ∧ b = a ∧ Relation.ReflTransGen env s s' := by
  constructor
  · intro h
    cases h with
    | ret _ henv => exact ⟨rfl, rfl, henv⟩
  · rintro ⟨rfl, rfl, henv⟩
    exact .ret b henv

theorem runs_call {op : O.Op} {k : O.Res op → Prog O α} :
    Runs env (.call op k) s u a s' ↔ ∃ s₁ r s₂ u', u = ⟨s₁, op, r, s₂⟩ :: u' ∧
      Relation.ReflTransGen env s s₁ ∧ O.Exec s₁ op r s₂ ∧ Runs env (k r) s₂ u' a s' := by
  constructor
  · intro h
    cases h with
    | call henv hexec h => exact ⟨_, _, _, _, rfl, henv, hexec, h⟩
  · rintro ⟨_, r, _, _, rfl, henv, hexec, h⟩
    exact .call henv hexec h

/-- What others do first may count to the run. -/
lemma Runs.after {s₀ : σ} (henv : Relation.ReflTransGen env s₀ s)
    (h : Runs env p s u a s') : Runs env p s₀ u a s' := by
  cases h with
  | ret a h => exact .ret a (henv.trans h)
  | call h hexec hrest => exact .call (henv.trans h) hexec hrest

/-- The run of a sequence is cut where the first program returns. -/
theorem runs_bind {c : β} :
    Runs env (p >>= f) s u c s' ↔ ∃ u₁ u₂ a m, u = u₁ ++ u₂ ∧ Runs env p s u₁ a m ∧
      Runs env (f a) m u₂ c s' := by
  induction p generalizing s u with
  | ret a =>
    constructor
    · exact fun h => ⟨[], u, a, s, rfl, .ret a .refl, h⟩
    rintro ⟨_, _, _, m, rfl, h1, h2⟩
    obtain ⟨rfl, rfl, henv⟩ := runs_ret.mp h1
    exact h2.after henv
  | call _ _ ih =>
    constructor
    · intro h
      obtain ⟨_, r, _, _, rfl, henv, hexec, h'⟩ := runs_call.mp h
      obtain ⟨u₁, u₂, a, m, rfl, h1, h2⟩ := (ih r).mp h'
      exact ⟨_ :: u₁, u₂, a, m, rfl, .call henv hexec h1, h2⟩
    rintro ⟨_, u₂, a, m, rfl, h1, h2⟩
    obtain ⟨_, r, _, u', rfl, henv, hexec, h'⟩ := runs_call.mp h1
    exact .call henv hexec ((ih r).mpr ⟨u', u₂, a, m, rfl, h', h2⟩)

/-- The states of a run follow one another by any order that the steps of others and the
calls respect. -/
theorem Runs.states {R : σ → σ → Prop} (hrefl : ∀ x, R x x)
    (htrans : ∀ x y z, R x y → R y z → R x z) (henv : ∀ x y, env x y → R x y)
    (h : Runs env p s u a s')
    (hcalls : ∀ e ∈ u, O.Exec e.before e.op e.answer e.after → R e.before e.after) :
    R s s' ∧ ∀ e ∈ u, R s e.before ∧ R e.after s' := by
  have hsteps : ∀ {x y}, Relation.ReflTransGen env x y → R x y := by
    intro x y hxy
    induction hxy with
    | refl => exact hrefl _
    | tail _ hstep ih => exact htrans _ _ _ ih (henv _ _ hstep)
  induction h with
  | ret _ henv => exact ⟨hsteps henv, fun e he => nomatch he⟩
  | call henv hexec _ ih =>
    obtain ⟨hrest, hevents⟩ := ih fun e he => hcalls e (List.mem_cons_of_mem _ he)
    have hfirst := hsteps henv
    have hcall := hcalls _ List.mem_cons_self hexec
    refine ⟨htrans _ _ _ hfirst (htrans _ _ _ hcall hrest), List.forall_mem_cons.mpr
      ⟨⟨hfirst, hrest⟩, fun e he => ?_⟩⟩
    obtain ⟨hbefore, hafter⟩ := hevents e he
    exact ⟨htrans _ _ _ hfirst (htrans _ _ _ hcall hbefore), hafter⟩

/-- Every element of the list, with those before it. -/
def EachAfter {ε : Type} (P : List ε → ε → Prop) (u : List ε) : Prop :=
  ∀ u₁ e u₂, u = u₁ ++ e :: u₂ → P u₁ e

section EachAfter

variable {ε : Type} {P : List ε → ε → Prop} {u : List ε}

lemma eachAfter_nil : EachAfter P [] := by
  intro _ e _ h
  simp at h

lemma eachAfter_append {v : List ε} : EachAfter P (u ++ v) ↔
    EachAfter P u ∧ EachAfter (fun past => P (u ++ past)) v := by
  constructor
  · refine fun h => ⟨?_, ?_⟩
    · rintro u₁ e u₂ rfl
      exact h u₁ e (u₂ ++ v) (by simp)
    · rintro u₁ e u₂ rfl
      exact h (u ++ u₁) e u₂ (by simp)
  rintro ⟨hu, hv⟩ u₁ e u₂ heq
  -- the element stands in one of the two lists
  obtain ⟨w, rfl, hw⟩ | ⟨w, rfl, hw⟩ := List.append_eq_append_iff.mp heq
  · exact hv w e u₂ hw
  cases w with
  | nil => simpa using hv [] e u₂ hw.symm
  | cons _ w =>
    cases hw
    exact hu u₁ e w rfl

lemma eachAfter_cons {e : ε} : EachAfter P (e :: u) ↔
    P [] e ∧ EachAfter (fun past => P (e :: past)) u := by
  rw [← List.singleton_append, eachAfter_append]
  refine and_congr_left' ⟨fun h => h [] e [] rfl, fun h u₁ e' u₂ heq => ?_⟩
  cases u₁ with
  | nil =>
    obtain ⟨rfl, -⟩ := List.cons.inj heq
    exact h
  | cons => simp at heq

lemma eachAfter_of_forall (h : ∀ e ∈ u, ∀ past, P past e) : EachAfter P u := by
  rintro u₁ e _ rfl
  exact h e (by simp) u₁

end EachAfter

/-- All calls that a program may make, whatever it is answered. -/
def Asks (P : O.Op → Prop) : Prog O α → Prop
  | .ret _ => True
  | .call op k => P op ∧ ∀ r, Asks P (k r)

lemma asks_bind (hp : Asks P p) (hf : ∀ a, Asks P (f a)) : Asks P (p >>= f) := by
  induction p with
  | ret a => exact hf a
  | call _ _ ih => exact ⟨hp.1, fun r => ih r (hp.2 r)⟩

lemma Asks.mono {Q : O.Op → Prop} (h : ∀ op, P op → Q op) (hp : Asks P p) : Asks Q p := by
  induction p with
  | ret => trivial
  | call op _ ih => exact ⟨h op hp.1, fun r => ih r (hp.2 r)⟩

theorem Runs.asks (hp : Asks P p) (h : Runs env p s u a s') : ∀ e ∈ u, P e.op := by
  induction h with
  | ret => exact fun e he => nomatch he
  | call _ _ _ ih => exact List.forall_mem_cons.mpr ⟨hp.1, ih (hp.2 _)⟩

/-- Every call of a run is one of the object. -/
lemma Runs.exec (h : Runs env p s u a s') : ∀ e ∈ u, O.Exec e.before e.op e.answer e.after := by
  induction h with
  | ret => exact fun e he => nomatch he
  | call _ hexec _ ih => exact List.forall_mem_cons.mpr ⟨hexec, ih⟩

end Interleaving
