/-
Counters that live in a machine word.

A store that bumps a `uint64` with every commit, and never bumps it again once it
has wrapped around to 0, does not repeat itself.  `Descending l` says that each
entry of `l`, newest first, is the successor of the next one, and that only the
newest may be 0.

* `Descending.nodup` — such a list has no repetitions;
* `lt_add_one` — the successor is larger unless it wraps;
* `signed_lt_add_one`, `signed_add_one_pos` — the same for a signed counter above 0;
* `toInt_add_of_fits`, `toInt_sub_of_fits` — sums and differences that fit do not wrap;
* `countdown`, `countdown_decreasing` — the values of a counter that started at 0.
-/
import Mathlib.Data.List.Nodup
import Mathlib.Data.UInt

namespace WordCounters
open UInt64

/-- Each entry is the successor of the one after it, which has not wrapped. -/
def Descending (l : List UInt64) : Prop := List.IsChain (fun a b => a = b + 1 ∧ b ≠ 0) l

variable {b : UInt64} {l : List UInt64} {g : Int64}

lemma Descending.cons {a : UInt64} (h : Descending (b :: l))
    (hab : a = b + 1) (hb : b ≠ 0) : Descending (a :: b :: l) :=
  List.isChain_cons_cons.mpr ⟨⟨hab, hb⟩, h⟩

/-- How many values come before `a` when counting starts at 1 and ends at 0. -/
def age (a : UInt64) : ℕ := (a - 1).toNat

lemma age_succ (hb : b ≠ 0) : age b < age (b + 1) := by
  have hpos : b.toNat ≠ 0 := fun heq => hb (UInt64.toNat_inj.mp heq)
  have hone : (1 : UInt64).toNat = 1 := rfl
  rw [age, age, add_sub_cancel_right, UInt64.toNat_sub_of_le _ _ ?_]
  · omega
  · rw [UInt64.le_iff_toNat_le]
    omega

theorem Descending.nodup (h : Descending l) : l.Nodup := by
  have hchain : List.IsChain (fun a b => age b < age a) l := by
    refine List.IsChain.imp ?_ h
    rintro a b ⟨rfl, hb⟩
    exact age_succ hb
  exact hchain.pairwise.imp fun hab heq => by rw [heq] at hab; exact lt_irrefl _ hab

theorem lt_add_one {e : UInt64} (h : e ≠ 0xFFFFFFFFFFFFFFFF) : e < e + 1 := by
  have hne : e.toNat ≠ 2 ^ 64 - 1 := fun heq => h (UInt64.toNat_inj.mp heq)
  have hlt := e.toNat_lt
  have hone : (1 : UInt64).toNat = 1 := rfl
  rw [UInt64.lt_iff_toNat_lt, UInt64.toNat_add]
  omega

/-! ### Signed words -/

/-- A number that fits into a signed word is its own remainder. -/
lemma bmod_of_fits {z : ℤ} (hlow : -2 ^ 63 ≤ z) (hhigh : z < 2 ^ 63) : z.bmod (2 ^ 64) = z := by
  have hhalf : -(((2 ^ 64 : ℕ) : ℤ) / 2) = -2 ^ 63 ∧ (((2 ^ 64 : ℕ) : ℤ) + 1) / 2 = 2 ^ 63 := by
    decide
  refine Int.bmod_eq_of_le ?_ ?_
  · rwa [hhalf.1]
  · rwa [hhalf.2]

theorem toInt_add_of_fits {a b : Int64} (hlow : -2 ^ 63 ≤ a.toInt + b.toInt)
    (hhigh : a.toInt + b.toInt < 2 ^ 63) : (a + b).toInt = a.toInt + b.toInt := by
  rw [Int64.toInt_add]
  exact bmod_of_fits hlow hhigh

theorem toInt_sub_of_fits {a b : Int64} (hlow : -2 ^ 63 ≤ a.toInt - b.toInt)
    (hhigh : a.toInt - b.toInt < 2 ^ 63) : (a - b).toInt = a.toInt - b.toInt := by
  rw [Int64.toInt_sub]
  exact bmod_of_fits hlow hhigh

lemma toInt_add_one (h : g < Int64.maxValue) : (g + 1).toInt = g.toInt + 1 := by
  have hmax : Int64.maxValue.toInt = 2 ^ 63 - 1 := by decide
  have hone : (1 : Int64).toInt = 1 := by decide
  have hlow := Int64.le_toInt g
  rw [Int64.lt_iff_toInt_lt] at h
  rw [toInt_add_of_fits (by omega) (by omega), hone]

theorem signed_lt_add_one (h : g < Int64.maxValue) : g < g + 1 := by
  rw [Int64.lt_iff_toInt_lt, toInt_add_one h]
  omega

lemma not_lt_maxValue (h : ¬ g < Int64.maxValue) : g = Int64.maxValue := by
  have hmax : Int64.maxValue.toInt = 2 ^ 63 - 1 := by decide
  have hhigh := Int64.toInt_lt g
  rw [Int64.lt_iff_toInt_lt] at h
  rw [← Int64.toInt_inj]
  omega

/-- A counter above 0 stays there unless it wraps. -/
theorem signed_add_one_pos (h : 0 < g) : 0 < g + 1 ↔ g < Int64.maxValue := by
  constructor
  · intro hpos
    by_contra hmax
    rw [not_lt_maxValue hmax] at hpos
    cases hpos
  intro hmax
  rw [Int64.lt_iff_toInt_lt] at h ⊢
  rw [toInt_add_one hmax]
  omega

lemma signed_add_one_ne (g : Int64) : g + 1 ≠ g := by
  intro h
  by_cases hmax : g < Int64.maxValue
  · have := toInt_add_one hmax
    rw [h] at this
    omega
  · rw [not_lt_maxValue hmax] at h
    cases h

/-! ### Counting from 0 -/

/-- The values that a counter took on its way from 0, newest first. -/
def countdown : ℕ → List UInt64
  | 0 => []
  | n + 1 => UInt64.ofNat (n + 1) :: countdown n

lemma mem_countdown {n : ℕ} {g : UInt64} : g ∈ countdown n ↔
    ∃ k, k < n ∧ g = ofNat (k + 1) := by
  induction n with
  | zero => simp [countdown]
  | succ n ih =>
    rw [countdown, List.mem_cons, ih]
    constructor
    · rintro (rfl | ⟨k, _, rfl⟩)
      · exact ⟨n, Nat.lt_succ_self n, rfl⟩
      · exact ⟨k, by omega, rfl⟩
    rintro ⟨k, hk, rfl⟩
    rcases Nat.lt_succ_iff_lt_or_eq.mp hk with hk | rfl
    · exact .inr ⟨k, hk, rfl⟩
    · exact .inl rfl

/-- As long as it has not wrapped, the newest value is the largest. -/
theorem countdown_decreasing {n : ℕ} (h : n < 2 ^ 64) : (countdown n).Pairwise (· > ·) := by
  induction n with
  | zero => exact .nil
  | succ n ih =>
    refine .cons (fun g hg => ?_) (ih (by omega))
    obtain ⟨k, _, rfl⟩ := mem_countdown.mp hg
    show ofNat (k + 1) < ofNat (n + 1)
    rw [lt_iff_toNat_lt, toNat_ofNat_of_lt' (by show _ < 2 ^ 64; omega),
      toNat_ofNat_of_lt' (by show _ < 2 ^ 64; omega)]
    omega

end WordCounters
