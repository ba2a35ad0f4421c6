/-
Threads over an atomic shared object, and rely–guarantee reasoning about them.

A concurrent program is a family of sequential programs (`Prog`) whose only
effects are calls on one shared object (`SharedObject`).  A call is atomic; what
it answers and what it does to the shared state is a relation, so clocks,
randomness and failing back ends are answers like any other.  A system
(`Config`) is the shared state with a list of threads.  At every moment a new
request may arrive (`Step.spawn`) or any one thread may perform its next call
(`Step.exec`).  A thread that crashed, or whose answer was lost, is a thread
that is never scheduled again.

* **`reachable_safe`** — if the code of every request is safe, then every
  reachable system satisfies the invariant, has evolved by promised transitions
  only, and every thread in it is still safe;
* **`SafeConfig.steps`** — what happens between two moments of one run.
-/
import Mathlib.Logic.Relation

namespace Interleaving

open Relation

/-- What a history keeps when its newest entry is taken away holds of all earlier ones. -/
lemma of_suffix {α : Type*} {P : List α → Prop} {l l' : List α} (htail : ∀ a l, P (a :: l) → P l)
    (h : P l) (hl : l' <:+ l) : P l' := by
  obtain ⟨newer, rfl⟩ := hl
  induction newer with
  | nil => exact h
  | cons _ _ ih => exact ih (htail _ _ h)

/-- An object shared by all threads: its operations, the type of answers of
each, and the atomic transitions with which it answers. -/
structure SharedObject (σ : Type) where
  Op : Type
  Res : Op → Type
  Exec : σ → (op : Op) → Res op → σ → Prop

/-- A sequential program over the operations of a shared object. -/
inductive Prog {σ : Type} (O : SharedObject σ) (α : Type) where
  | ret (a : α)
  | call (op : O.Op) (k : O.Res op → Prog O α)

variable {σ : Type} {O : SharedObject σ} {α β Req : Type}

namespace Prog

/-- Sequential composition. -/
def bind : Prog O α → (α → Prog O β) → Prog O β
  | ret a, f => f a
  | call op k, f => call op fun r => (k r).bind f

instance : Monad (Prog O) where
  pure := ret
  bind := bind

/-- The program that performs one operation and returns its answer. -/
def op (o : O.Op) : Prog O (O.Res o) := call o ret

@[simp] lemma pure_eq (a : α) : (pure a : Prog O α) = ret a := rfl

@[simp] lemma ret_bind (a : α) (f : α → Prog O β) : (ret a >>= f) = f a := rfl

@[simp] lemma call_bind (o : O.Op) (k : O.Res o → Prog O α) (f : α → Prog O β) :
    (call o k >>= f) = call o fun r => k r >>= f := rfl

@[simp] lemma op_bind (o : O.Op) (f : O.Res o → Prog O β) : (op o >>= f) = call o f := rfl

end Prog

/-- A thread: the request it serves, the shared state at the moment the request
arrived (only recorded, never read by the program) and the rest of its code. -/
structure Thread (O : SharedObject σ) (Req α : Type) where
  request : Req
  born : σ
  prog : Prog O α

/-- The shared state with all threads. -/
structure Config (O : SharedObject σ) (Req α : Type) where
  shared : σ
  threads : List (Thread O Req α)

/-- One step of the whole system. -/
inductive Step (code : Req → Prog O α) : Config O Req α → Config O Req α → Prop
  | spawn (s : σ) (ts : List (Thread O Req α)) (q : Req) :
      Step code ⟨s, ts⟩ ⟨s, ⟨q, s, code q⟩ :: ts⟩
  | exec {s s' : σ} {op : O.Op} {r : O.Res op} (pre post : List (Thread O Req α)) (q : Req)
      (b : σ) (k : O.Res op → Prog O α) (h : O.Exec s op r s') :
      Step code ⟨s, pre ++ ⟨q, b, .call op k⟩ :: post⟩ ⟨s', pre ++ ⟨q, b, k r⟩ :: post⟩

/-- The system can get from one configuration to another. -/
abbrev Steps (code : Req → Prog O α) : Config O Req α → Config O Req α → Prop :=
  ReflTransGen (Step code)

/-- The configurations reachable from the shared state `s₀` with no threads. -/
def Reachable (code : Req → Prog O α) (s₀ : σ) (c : Config O Req α) : Prop :=
  Steps code ⟨s₀, []⟩ c

/-! ### One thread alone -/

/-- The thread runs to its end while nobody else moves. -/
def Prog.run (answer : σ → (op : O.Op) → O.Res op × σ) : Prog O α → σ → α × σ
  | .ret a, s => (a, s)
  | .call op k, s => (k (answer s op).1).run answer (answer s op).2

variable {code : Req → Prog O α} {answer : σ → (op : O.Op) → O.Res op × σ}

/-- A request that is served while nobody else moves. -/
lemma steps_run (hanswer : ∀ s op, O.Exec s op (answer s op).1 (answer s op).2) (s : σ)
    (ts : List (Thread O Req α)) (q : Req) :
    Steps code ⟨s, ts⟩
      ⟨((code q).run answer s).2, ⟨q, s, .ret ((code q).run answer s).1⟩ :: ts⟩ := by
  have hrest : ∀ (p : Prog O α) (s₁ : σ), Steps code ⟨s₁, ⟨q, s, p⟩ :: ts⟩
      ⟨(p.run answer s₁).2, ⟨q, s, .ret (p.run answer s₁).1⟩ :: ts⟩ := by
    intro p
    induction p with
    | ret => exact fun _ => .refl
    | call op k ih => exact fun s₁ => .head (.exec [] ts q s k (hanswer s₁ op)) (ih _ _)
  exact .head (.spawn s ts q) (hrest (code q) s)

/-- The first `n` calls of a thread while nobody else moves. -/
def Prog.advance (answer : σ → (op : O.Op) → O.Res op × σ) : Nat → Prog O α → σ → Prog O α × σ
  | 0, p, s => (p, s)
  | _ + 1, .ret a, s => (.ret a, s)
  | n + 1, .call op k, s => (k (answer s op).1).advance answer n (answer s op).2

lemma steps_advance
    (hanswer : ∀ s op, O.Exec s op (answer s op).1 (answer s op).2) (q : Req) (b : σ)
    (ts : List (Thread O Req α)) (n : Nat) (p : Prog O α) (s : σ) :
    Steps code ⟨s, ⟨q, b, p⟩ :: ts⟩
      ⟨(p.advance answer n s).2, ⟨q, b, (p.advance answer n s).1⟩ :: ts⟩ := by
  induction n generalizing p s with
  | zero => exact .refl
  | succ _ ih =>
    cases p with
    | ret => exact .refl
    | call op k => exact .head (.exec [] ts q b k (hanswer s op)) (ih _ _)

/-- The thread has a call to make. -/
def Prog.isCall : Prog O α → Bool
  | .ret _ => false
  | .call _ _ => true

/-- The call after the first `n`. -/
lemma step_advance
    (hanswer : ∀ s op, O.Exec s op (answer s op).1 (answer s op).2) (q : Req) (b : σ)
    (ts : List (Thread O Req α)) (n : Nat) (p : Prog O α) (s : σ)
    (hcall : (p.advance answer n s).1.isCall = true) :
    Step code ⟨(p.advance answer n s).2, ⟨q, b, (p.advance answer n s).1⟩ :: ts⟩
      ⟨(p.advance answer (n + 1) s).2, ⟨q, b, (p.advance answer (n + 1) s).1⟩ :: ts⟩ := by
  induction n generalizing p s with
  | zero =>
    cases p with
    | ret => simp [Prog.advance, Prog.isCall] at hcall
    | call op k => exact .exec [] ts q b k (hanswer s op)
  | succ _ ih =>
    cases p with
    | ret => simp [Prog.advance, Prog.isCall] at hcall
    | call => exact ih _ _ hcall

/-! ### Rely–guarantee reasoning -/

/-- What the threads agree on: an invariant of the shared state, and the
transitions each of them may make, which keep the invariant. -/
structure Protocol (σ : Type) where
  Inv : σ → Prop
  Guar : σ → σ → Prop
  inv_of_guar : ∀ {s s' : σ}, Inv s → Guar s s' → Inv s'

variable {P : Protocol σ} {Q R : α → σ → Prop} {s s' : σ} {K : σ → Prop} {p : Prog O α}
  {S : β → σ → Prop}

/-- Any number of transitions of the agreed kind. -/
abbrev Protocol.Later (P : Protocol σ) : σ → σ → Prop := ReflTransGen P.Guar

lemma Protocol.inv_of_later (hI : P.Inv s) (h : P.Later s s') : P.Inv s' := by
  induction h with
  | refl => exact hI
  | tail _ hstep ih => exact P.inv_of_guar ih hstep

/-- A property of the shared state that no agreed transition destroys. -/
def Protocol.Stable (P : Protocol σ) (K : σ → Prop) : Prop :=
  ∀ ⦃s s' : σ⦄, P.Inv s → K s → P.Guar s s' → K s'

lemma Protocol.Stable.later (hK : P.Stable K) (hI : P.Inv s) (hs : K s)
    (h : P.Later s s') : K s' := by
  induction h with
  | refl => exact hs
  | tail hprev hstep ih => exact hK (P.inv_of_later hI hprev) ih hstep

lemma Protocol.Stable.and {L : σ → Prop} (hK : P.Stable K) (hL : P.Stable L) :
    P.Stable fun s => K s ∧ L s :=
  fun _ _ hI h hguar => ⟨hK hI h.1 hguar, hL hI h.2 hguar⟩

lemma Protocol.Stable.imp {c : Prop} (hK : P.Stable K) : P.Stable fun s => c → K s :=
  fun _ _ hI h hguar hc => hK hI (h hc) hguar

/-- `Safe P Q p s`: started now, with the other threads making agreed
transitions between any two of its calls, `p` makes agreed transitions only, and
if it returns `a` then `Q a` holds from then on. -/
def Safe (P : Protocol σ) (Q : α → σ → Prop) : Prog O α → σ → Prop
  | .ret a, s => ∀ s', P.Later s s' → P.Inv s' → Q a s'
  | .call op k, s => ∀ s₁, P.Later s s₁ → P.Inv s₁ → ∀ r s₂, O.Exec s₁ op r s₂ →
      P.Guar s₁ s₂ ∧ Safe P Q (k r) s₂

lemma Safe.later (h : Safe P Q p s) (hl : P.Later s s') : Safe P Q p s' := by
  cases p with
  | ret | call => exact fun s₁ h1 => h s₁ (hl.trans h1)

/-- The rule for one call, with the stable knowledge `K` the thread has gathered. -/
theorem Safe.call (hK : P.Stable K) {op : O.Op} {k : O.Res op → Prog O α} (hI : P.Inv s) (hs : K s)
    (h : ∀ s₁, P.Inv s₁ → K s₁ → ∀ r s₂, O.Exec s₁ op r s₂ →
      P.Guar s₁ s₂ ∧ Safe P Q (k r) s₂) :
    Safe P Q (.call op k) s :=
  fun s₁ hl hI1 r s₂ hexec => h s₁ hI1 (hK.later hI hs hl) r s₂ hexec

/-- The rule for returning a value, with stable knowledge `K`. -/
lemma Safe.ret (hK : P.Stable K) {a : α} (hI : P.Inv s) (hs : K s)
    (h : ∀ s', P.Inv s' → K s' → Q a s') : Safe (O := O) P Q (.ret a) s :=
  fun s' hl hI' => h s' hI' (hK.later hI hs hl)

lemma Safe.mono (h : Safe P Q p s) (hQR : ∀ a s, P.Inv s → Q a s → R a s) : Safe P R p s := by
  induction p generalizing s with
  | ret a => exact fun s' hl hI => hQR a s' hI (h s' hl hI)
  | call _ _ ih =>
    intro s₁ hl hI r s₂ hexec
    obtain ⟨hguar, hk⟩ := h s₁ hl hI r s₂ hexec
    exact ⟨hguar, ih r hk⟩

/-- The rule for answering with a function of the result. -/
lemma Safe.map {f : α → β}
    (h : Safe P (fun a s => S (f a) s) p s) : Safe P S (do return f (← p)) s := by
  induction p generalizing s with
  | ret => exact h
  | call _ _ ih =>
    intro s₁ hl hI1 r s₂ hexec
    obtain ⟨hguar, hk⟩ := h s₁ hl hI1 r s₂ hexec
    exact ⟨hguar, ih r hk⟩

/-- Stable knowledge is still there when a program returns. -/
lemma Safe.frame (hK : P.Stable K) (hI : P.Inv s) (hs : K s)
    (h : Safe P Q p s) : Safe P (fun a s => Q a s ∧ K s) p s := by
  induction p generalizing s with
  | ret => exact fun s' hl hI' => ⟨h s' hl hI', hK.later hI hs hl⟩
  | call _ _ ih =>
    intro s₁ hl hI1 r s₂ hexec
    obtain ⟨hguar, hk⟩ := h s₁ hl hI1 r s₂ hexec
    exact ⟨hguar, ih r (P.inv_of_guar hI1 hguar) (hK hI1 (hK.later hI hs hl) hguar) hk⟩

/-- The rule for sequential composition. -/
theorem Safe.bind {f : α → Prog O β} (hI : P.Inv s)
    (hp : Safe P Q p s) (hf : ∀ a s', P.Inv s' → Q a s' → Safe P S (f a) s') :
    Safe P S (p >>= f) s := by
  induction p generalizing s with
  | ret a => exact hf a s hI (hp s .refl hI)
  | call _ _ ih =>
    intro s₁ hl hI1 r s₂ hexec
    obtain ⟨hguar, hk⟩ := hp s₁ hl hI1 r s₂ hexec
    exact ⟨hguar, ih r (P.inv_of_guar hI1 hguar) hk⟩

/-! ### From threads to systems -/

variable {Post : Req → σ → α → σ → Prop} {c c' : Config O Req α}

/-- What `Safe` threads establish about a whole configuration. -/
structure SafeConfig (P : Protocol σ) (Post : Req → σ → α → σ → Prop) (c : Config O Req α) :
    Prop where
  inv : P.Inv c.shared
  born : ∀ t ∈ c.threads, P.Later t.born c.shared
  safe : ∀ t ∈ c.threads, Safe P (Post t.request t.born) t.prog c.shared

/-- One step of a safe system is an agreed transition, or none, and leaves it safe. -/
lemma SafeConfig.step (hcode : ∀ q s, P.Inv s → Safe P (Post q s) (code q) s)
    (h : SafeConfig P Post c) (hstep : Step code c c') :
    P.Later c.shared c'.shared ∧ SafeConfig P Post c' := by
  cases hstep with
  | spawn s _ q =>
    refine ⟨.refl, h.inv, ?_, ?_⟩
    · rintro t (_ | ⟨_, ht⟩)
      · exact .refl
      · exact h.born t ht
    rintro t (_ | ⟨_, ht⟩)
    · exact hcode q s h.inv
    · exact h.safe t ht
  | @exec s s' op r pre post q b k hexec =>
    have hmem : (⟨q, b, .call op k⟩ : Thread O Req α) ∈ pre ++ ⟨q, b, .call op k⟩ :: post := by simp
    obtain ⟨hguar, hk⟩ := h.safe _ hmem s .refl h.inv r s' hexec
    have hlater : P.Later s s' := .single hguar
    -- every thread other than the one that moved was already there before the step
    have hother : ∀ t ∈ pre ++ ⟨q, b, k r⟩ :: post, t = ⟨q, b, k r⟩ ∨
        t ∈ pre ++ ⟨q, b, .call op k⟩ :: post := by
      intro t ht
      simp only [List.mem_append, List.mem_cons] at ht ⊢
      rcases ht with ht | ht | ht
      · exact .inr (.inl ht)
      · exact .inl ht
      · exact .inr (.inr (.inr ht))
    refine ⟨hlater, P.inv_of_guar h.inv hguar, ?_, ?_⟩
    · intro t ht
      rcases hother t ht with rfl | ht
      · exact (h.born _ hmem).trans hlater
      · exact (h.born t ht).trans hlater
    intro t ht
    rcases hother t ht with rfl | ht
    · exact hk
    · exact (h.safe t ht).later hlater

/-- One step of a safe system, in full: nothing happens to the shared state, or one
agreed transition. -/
lemma SafeConfig.guar (h : SafeConfig P Post c) (hstep : Step code c c') :
    c'.shared = c.shared ∨ P.Guar c.shared c'.shared := by
  cases hstep with
  | spawn => exact .inl rfl
  | @exec s s' op r pre post q b k hexec =>
    have hmem : (⟨q, b, .call op k⟩ : Thread O Req α) ∈ pre ++ ⟨q, b, .call op k⟩ :: post := by simp
    exact .inr (h.safe _ hmem s .refl h.inv r s' hexec).1

theorem SafeConfig.steps (hcode : ∀ q s, P.Inv s → Safe P (Post q s) (code q) s)
    (h : SafeConfig P Post c) (hsteps : Steps code c c') :
    P.Later c.shared c'.shared ∧ SafeConfig P Post c' := by
  induction hsteps with
  | refl => exact ⟨.refl, h⟩
  | tail _ hstep ih =>
    obtain ⟨hlater, hsafe⟩ := ih
    obtain ⟨hlater', hsafe'⟩ := hsafe.step hcode hstep
    exact ⟨hlater.trans hlater', hsafe'⟩

/-- **Safety of the whole system**: every reachable configuration has evolved by
agreed transitions only, and is safe. -/
theorem reachable_safe (hcode : ∀ q s, P.Inv s → Safe P (Post q s) (code q) s) {s₀ : σ}
    (h0 : P.Inv s₀) (hreach : Reachable code s₀ c) :
    P.Later s₀ c.shared ∧ SafeConfig P Post c :=
  SafeConfig.steps hcode ⟨h0, by simp, by simp⟩ hreach

theorem SafeConfig.finished (h : SafeConfig P Post c) {t : Thread O Req α} (ht : t ∈ c.threads)
    {a : α} (hret : t.prog = .ret a) : Post t.request t.born a c.shared := by
  have hsafe := h.safe t ht
  rw [hret] at hsafe
  exact hsafe c.shared .refl h.inv

end Interleaving
