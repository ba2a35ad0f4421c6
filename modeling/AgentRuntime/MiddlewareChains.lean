/-
The middleware chains around a Run, a model call and a Tool call (`plugin/plugin.go`).

A middleware may do with `next` what it likes: call it again, from several goroutines, long after
it has returned, or never.  It may also overwrite what it was given.

* **`invoke_in_order`** — what one `Invoke` runs, whatever the middlewares do.
-/
import Mathlib.Data.List.Infix
import Mathlib.Logic.Relation

namespace Plugin

open List Relation

inductive PluginError
  | invalidRegistration
  | nextAlreadyCalled
  deriving DecidableEq

/-- The three chains: `RunChain`, `ModelChain`, `ToolChain`. -/
inductive ChainKind
  | run
  | model
  | tool
  deriving DecidableEq

/-- A middleware (or the terminal operation, `none`) that is entered, with the place of its own
copy of the request and what it sees there. -/
structure Entry (M α : Type*) where
  middleware : Option M
  cell : ℕ
  request : α
  deriving DecidableEq

/-- One `Invoke` under way.  Level `k` of the chain is its `k`-th middleware; behind the last one
is the terminal operation. -/
structure Invocation (M α : Type*) where
  /-- Cell 0 is what the chain was invoked with, cell `k + 1` the copy made for level `k`. -/
  memory : ℕ → α
  /-- The calls that go on to enter a level. -/
  calls : List (ℕ × α)
  /-- The functions `next` that were made: whether it was called, and the level behind it. -/
  nexts : List (Bool × ℕ) := []
  answers : List (ℕ × Option PluginError) := []
  entered : List (Entry M α) := []

variable {M α : Type*}

def invoke (chain : Option (List M)) (terminal : Bool) (request : α) :
    Except PluginError (Invocation M α) :=
  if chain.isNone || !terminal then .error .invalidRegistration
  else .ok { memory := fun _ => request, calls := [(0, request)] }

/-- `onceRunNext`, `onceModelNext`, `onceToolNext`: a call of the function `next` with the number
`j`. -/
def onceNext (s : Invocation M α) (j : ℕ) (request : α) : Invocation M α :=
  match s.nexts[j]? with
  | none => s
  | some (true, _) => { s with answers := s.answers ++ [(j, some .nextAlreadyCalled)] }
  | some (false, level) => { s with
      nexts := s.nexts.set j (true, level)
      answers := s.answers ++ [(j, none)]
      calls := s.calls ++ [(level, request)] }

/-- The body of the closure of one level.  A middleware gets a copy of the request and a `next` of
its own; a Run or Tool operation has the request of its caller.  Only `ModelNext` passes one on. -/
def enter (kind : ChainKind) (chain : List M) (s : Invocation M α) (level : ℕ) (request : α) :
    Invocation M α :=
  let seen := if kind = .model then request else s.memory 0
  let copy := s.entered.length + 1
  let cell := if kind = .model ∨ level < chain.length then copy else 0
  { s with
    memory := Function.update s.memory copy seen
    nexts := s.nexts ++ if level < chain.length then [(false, level + 1)] else []
    entered := s.entered ++ [⟨chain[level]?, cell, seen⟩] }

/-- What can happen next: any `next` that was given out is called, a call that has passed its guard
goes on, or somebody overwrites what they were given. -/
inductive Step (kind : ChainKind) (chain : List M) (s : Invocation M α) : Invocation M α → Prop
  | next (j : ℕ) (request : α) (h : j < s.nexts.length) : Step kind chain s (onceNext s j request)
  | enter (before after : List (ℕ × α)) (level : ℕ) (request : α)
      (h : s.calls = before ++ (level, request) :: after) :
      Step kind chain s (enter kind chain { s with calls := before ++ after } level request)
  | write (e : Entry M α) (h : e ∈ s.entered) (value : α) :
      Step kind chain s { s with memory := Function.update s.memory e.cell value }

/-- The states of one `Invoke`, also long after it has returned. -/
def Reachable (kind : ChainKind) (chain : List M) (request : α) (s : Invocation M α) : Prop :=
  ∃ start, invoke (some chain) true request = .ok start ∧
    ReflTransGen (Step kind chain) start s

/-- The levels are entered one after the other.  A `next` was called if the level behind it has
been entered or is about to be. -/
structure Sound (kind : ChainKind) (chain : List M) (request : α) (s : Invocation M α) : Prop where
  order : s.entered.map Entry.middleware = (chain.map some ++ [none]).take s.entered.length
  calls : s.calls.length ≤ 1 ∧ ∀ c ∈ s.calls, c.1 = s.entered.length
  bound : s.calls.length + s.entered.length ≤ chain.length + 1
  count : s.nexts.length = min s.entered.length chain.length
  nexts : ∀ j x, s.nexts[j]? = some x →
    x.2 = j + 1 ∧ (x.1 = true ↔ j + 1 < s.entered.length + s.calls.length)
  answers : ∀ a ∈ s.answers, a.1 + 1 < s.entered.length + s.calls.length
  own : s.entered.length ≤ chain.length → s.memory 0 = request
  given : ∀ e ∈ s.entered, e.cell = 0 → chain.length < s.entered.length
  seen : kind ≠ .model → ∀ e ∈ s.entered, e.request = request

section Steps

variable {kind : ChainKind} {chain : List M} {request : α} {s s' : Invocation M α}
  (h : Sound kind chain request s)

include h

lemma Sound.next (j : ℕ) (v : α) : Sound kind chain request (onceNext s j v) := by
  rw [onceNext]
  split
  · exact h
  · rename_i hnext
    obtain ⟨-, hcalled⟩ := h.nexts j _ hnext
    exact { h with
      answers := forall_mem_append.mpr ⟨h.answers, forall_mem_singleton.mpr (hcalled.mp rfl)⟩ }
  · rename_i level hnext
    -- the first call: its level is the innermost so far, and no other call is under way
    obtain ⟨hlevel, hcalled⟩ := h.nexts j _ hnext
    have hcount := h.count ▸ (List.getElem?_eq_some_iff.mp hnext).1
    have hnone : s.calls = [] := length_eq_zero_iff.mp (by grind)
    have hlast : level = s.entered.length := by grind
    refine { h with
      calls := by simp [hnone, hlast]
      bound := ?_
      count := by rw [length_set, h.count]
      nexts := fun i x hi => ?_
      answers := fun a ha => ?_ }
    · simp only [hnone, length_append, length_cons, length_nil]
      omega
    · rw [getElem?_set] at hi
      have := h.nexts i x
      grind
    · have := h.answers a
      grind

lemma Sound.enter {before after : List (ℕ × α)} {level : ℕ} {v : α}
    (hcalls : s.calls = before ++ (level, v) :: after) :
    Sound kind chain request (enter kind chain { s with calls := before ++ after } level v) := by
  -- there is one call only, and it is for the next level
  obtain ⟨rfl, rfl, rfl⟩ : before = [] ∧ after = [] ∧ level = s.entered.length := by
    have := h.calls
    rw [hcalls] at this
    cases before <;> cases after <;> simp_all
  have hbound := h.bound
  have hnexts := h.nexts
  have hanswers := h.answers
  have hcount := h.count
  rw [hcalls, nil_append, length_singleton] at hbound hnexts hanswers
  have hseen : kind ≠ .model → (if kind = .model then v else s.memory 0) = request := fun hkind => by
    rw [if_neg hkind, h.own (by omega)]
  have hlevel : (chain.map some ++ [none])[s.entered.length]? = some chain[s.entered.length]? := by
    rw [getElem?_append]
    grind
  refine { h with
    order := ?_
    calls := by simp [Plugin.enter]
    bound := ?_
    count := ?_
    nexts := fun j x hj => ?_
    answers := ?_
    own := fun _ => h.own (by omega)
    given := ?_
    seen := fun hkind => ?_ }
  · simp only [Plugin.enter, map_append, h.order, length_append, length_singleton, take_add_one, hlevel]
    rfl
  · simp only [Plugin.enter, length_append, length_singleton, length_nil]
    omega
  · simp only [Plugin.enter, length_append, length_singleton]
    grind
  · simp only [Plugin.enter, length_append, length_singleton, length_nil] at hj ⊢
    rw [getElem?_append] at hj
    have := hnexts j x
    grind
  · simpa [Plugin.enter] using hanswers
  · simp only [Plugin.enter, length_append, length_singleton, mem_append, mem_singleton]
    rintro e (he | rfl) hcell
    · have := h.given e he hcell
      omega
    · simp only [ite_eq_right_iff] at hcell
      grind
  · simpa [Plugin.enter, or_imp, forall_and] using ⟨h.seen hkind, hseen hkind⟩

lemma Sound.step (hstep : Step kind chain s s') : Sound kind chain request s' := by
  cases hstep with
  | next j v => exact h.next j v
  | enter before after level v hcalls => exact h.enter hcalls
  | write e he value =>
    refine { h with own := fun hlength => ?_ }
    have hcell : 0 ≠ e.cell := fun h0 => (h.given e he h0.symm).not_ge hlength
    exact (Function.update_of_ne hcell _ _).trans (h.own hlength)

end Steps

lemma Reachable.sound {kind : ChainKind} {chain : List M} {request : α} {s : Invocation M α}
    (h : Reachable kind chain request s) : Sound kind chain request s := by
  obtain ⟨start, hstart, hsteps⟩ := h
  obtain rfl := Except.ok.inj hstart
  induction hsteps with
  | refl => constructor <;> simp
  | tail _ hstep ih => exact ih.step hstep

/-- **A chain in order.**  Whatever the middlewares do, one `Invoke` enters each of them and the
terminal operation at most once and in the order of registration.  A second call of `next` is
answered with `ErrNextAlreadyCalled` and does nothing else.  Everyone on a Tool chain sees the call
that the chain was invoked with. -/
theorem invoke_in_order {kind : ChainKind} {chain : List M} {request : α} {s : Invocation M α}
    (h : Reachable kind chain request s) :
    s.entered.map Entry.middleware <+: chain.map some ++ [none] ∧
    (∀ j answer v, (j, answer) ∈ s.answers →
      onceNext s j v = { s with answers := s.answers ++ [(j, some .nextAlreadyCalled)] }) ∧
    (kind ≠ .model → ∀ e ∈ s.entered, e.request = request) := by
  have hs := h.sound
  refine ⟨hs.order ▸ take_prefix _ _, fun j answer v hanswer => ?_, hs.seen⟩
  have hcalled := hs.answers _ hanswer
  have hj : j < s.nexts.length := by
    have := hs.bound
    have := hs.calls.1
    rw [hs.count]
    omega
  obtain ⟨⟨called, _⟩, hnext⟩ : ∃ x, s.nexts[j]? = some x := ⟨_, getElem?_eq_getElem hj⟩
  obtain rfl : called = true := (hs.nexts j _ hnext).2.mpr hcalled
  rw [onceNext, hnext]

/-- The first middleware overwrites its copy and calls `next` twice. -/
theorem twice_in_order : ∃ s : Invocation ℕ ℕ, Reachable .tool [0, 1] 5 s ∧
    s.answers = [(0, none), (0, some .nextAlreadyCalled), (1, none)] ∧
    s.entered.map Entry.middleware = [some 0, some 1, none] ∧ ∀ e ∈ s.entered, e.request = 5 := by
  have hrun : Reachable .tool [0, 1] 5 _ := ⟨_, rfl, (((((((ReflTransGen.refl.tail
    (.enter [] [] 0 5 rfl)).tail (.write ⟨some 0, 1, 5⟩ (by decide) 9)).tail (.next 0 7 (by decide))).tail
    (.next 0 7 (by decide))).tail (.enter [] [] 1 7 rfl)).tail (.next 1 7 (by decide))).tail
    (.enter [] [] 2 7 rfl))⟩
  exact ⟨_, hrun, rfl, rfl, (invoke_in_order hrun).2.2 (by decide)⟩

end Plugin
