/-
Rounding to binary64, and the shortest decimal that stands for a double.

A double is a rational number on a grid: at most 53 binary digits, the last of them
not below 2^-1074.  A decimal is read as the nearest point of the grid, with ties to
the even one, and a double is written as a shortest decimal that is read as the double
again.  How the search for that decimal goes about does not matter for the round trip:
whatever it proposes is read back before it is taken, and the exact expansion is always
there.  Only magnitudes are rounded here; the sign of a number is kept beside it.

* `shortest`, **`read_shortest`** — the decimal of a double is read as the double.
-/
import Mathlib.Algebra.Order.Field.Power
import Mathlib.Data.Int.Log
import Mathlib.Data.Rat.Floor
import Mathlib.Tactic.Linarith
import Mathlib.Tactic.Positivity
import Mathlib.Tactic.FieldSimp
import Mathlib.Tactic.Ring

namespace Binary64

/-! ### Rounding -/

/-- The nearest integer, and the even one if there are two. -/
def roundEven (q : ℚ) : ℤ :=
  if q - ⌊q⌋ < 1 / 2 then ⌊q⌋
  else if 1 / 2 < q - ⌊q⌋ then ⌊q⌋ + 1
  else if ⌊q⌋ % 2 = 0 then ⌊q⌋ else ⌊q⌋ + 1

/-- The exponent of the last binary digit that a double of this magnitude has. -/
def lastPlace (q : ℚ) : ℤ := max (Int.log 2 q - 52) (-1074)

/-- The nearest point of the grid. -/
def nearest (q : ℚ) : ℚ := roundEven (q / 2 ^ lastPlace q) * 2 ^ lastPlace q

/-- The magnitudes of doubles, but for the bound from above. -/
def OnGrid (q : ℚ) : Prop := ∃ (m : ℕ) (e : ℤ), m < 2 ^ 53 ∧ -1074 ≤ e ∧ q = m * 2 ^ e

lemma roundEven_intCast (n : ℤ) : roundEven n = n := by
  rw [roundEven, Int.floor_intCast, if_pos (by norm_num)]

variable {q x : ℚ}

lemma roundEven_nonneg (h : 0 ≤ q) : 0 ≤ roundEven q := by
  have hfloor : 0 ≤ ⌊q⌋ := Int.floor_nonneg.mpr h
  rw [roundEven]
  split_ifs <;> omega

/-- Rounding does not cross an integer. -/
lemma roundEven_le {n : ℤ} (h : q < n) : roundEven q ≤ n := by
  have hfloor : ⌊q⌋ < n := Int.floor_lt.mpr h
  rw [roundEven]
  split_ifs <;> omega

lemma nearest_of_onGrid (h : OnGrid q) : nearest q = q := by
  obtain ⟨m, e, hm, he, hq⟩ := h
  rcases Nat.eq_zero_or_pos m with rfl | _
  · have hzero : q = 0 := by rw [hq]; simp
    rw [hzero, nearest, zero_div, show (0 : ℚ) = ((0 : ℤ) : ℚ) by simp, roundEven_intCast]
    simp
  have hqpos : 0 < q := by rw [hq]; positivity
  -- a point with 53 digits has its last one at or above the last place
  have hlog : Int.log 2 q < 53 + e := by
    rw [← Int.lt_zpow_iff_log_lt (by norm_num) hqpos, hq, zpow_add₀ (by norm_num)]
    refine mul_lt_mul_of_pos_right ?_ (by positivity)
    exact_mod_cast hm
  have hplace : lastPlace q ≤ e := max_le (by omega) he
  obtain ⟨d, hd⟩ := Int.eq_ofNat_of_zero_le (sub_nonneg.mpr hplace)
  have hwhole : q / 2 ^ lastPlace q = ((m * 2 ^ d : ℕ) : ℤ) := by
    rw [hq, mul_div_assoc, ← zpow_sub₀ (by norm_num), ← hq, hd]
    push_cast
    rw [zpow_natCast]
  rw [nearest, hwhole, roundEven_intCast, ← hwhole]
  exact div_mul_cancel₀ _ (by positivity)

lemma onGrid_nearest (h : 0 ≤ q) : OnGrid (nearest q) := by
  have hplace : -1074 ≤ lastPlace q := le_max_right _ _
  have hbound : q / 2 ^ lastPlace q < ((2 ^ 53 : ℕ) : ℤ) := by
    rw [div_lt_iff₀ (by positivity)]
    have hlog : Int.log 2 q + 1 ≤ 53 + lastPlace q := by
      rw [lastPlace]
      omega
    calc q < 2 ^ (Int.log 2 q + 1) := Int.lt_zpow_succ_log_self (by norm_num) q
      _ ≤ 2 ^ (53 + lastPlace q) := zpow_le_zpow_right₀ (by norm_num) hlog
      _ = ((2 ^ 53 : ℕ) : ℤ) * 2 ^ lastPlace q := by
        rw [zpow_add₀ (by norm_num)]
        norm_num
  have hle := roundEven_le hbound
  obtain ⟨n, hn⟩ := Int.eq_ofNat_of_zero_le (roundEven_nonneg (div_nonneg h (by positivity :
    (0 : ℚ) ≤ 2 ^ lastPlace q)))
  rw [hn] at hle
  have hnat : n ≤ 2 ^ 53 := by exact_mod_cast hle
  rw [nearest, hn]
  rcases hnat.lt_or_eq with hlt | rfl
  · exact ⟨n, lastPlace q, hlt, hplace, by simp⟩
  -- the digits were all ones, and one more digit is gained
  refine ⟨2 ^ 52, lastPlace q + 1, by norm_num, by omega, ?_⟩
  rw [zpow_add₀ (by norm_num)]
  ring

/-! ### Doubles -/

/-- The double of a magnitude; `none` for one that is too large. -/
def read (q : ℚ) : Option ℚ := if nearest q < 2 ^ 1024 then some (nearest q) else none

lemma onGrid_of_read (hq : 0 ≤ q) (h : read q = some x) : OnGrid x := by
  rw [read] at h
  split at h
  · rw [← Option.some.inj h]
    exact onGrid_nearest hq
  · cases h

theorem read_of_read (hq : 0 ≤ q) (h : read q = some x) : read x = some x := by
  have hx := nearest_of_onGrid (onGrid_of_read hq h)
  rw [read] at h
  split at h
  · rename_i hsmall
    rw [← Option.some.inj h] at hx ⊢
    rw [read, hx, if_pos hsmall]
  · cases h

/-! ### Decimals -/

/-- Digits before a power of ten. -/
structure Decimal where
  digits : ℕ
  exponent : ℤ
  deriving DecidableEq, Repr

namespace Decimal

def value (d : Decimal) : ℚ := d.digits * 10 ^ d.exponent

lemma value_nonneg (d : Decimal) : 0 ≤ d.value := by
  rw [value]
  positivity

/-- The decimal without the zeros at its end; `fuel` bounds their number. -/
def strip : ℕ → Decimal → Decimal
  | 0, d => d
  | fuel + 1, d =>
    if d.digits ≠ 0 ∧ d.digits % 10 = 0 then strip fuel ⟨d.digits / 10, d.exponent + 1⟩ else d

lemma value_strip (fuel : ℕ) (d : Decimal) : (d.strip fuel).value = d.value := by
  induction fuel generalizing d with
  | zero => rfl
  | succ _ ih =>
    rw [strip]
    split
    · have hdigits : d.digits = d.digits / 10 * 10 := by omega
      rw [ih, value, value, zpow_add₀ (by norm_num)]
      nth_rewrite 2 [hdigits]
      push_cast
      ring
    · rfl

end Decimal

/-- The two neighbours of `x` among the decimals with `k` digits, the closer one first. -/
def neighbours (x : ℚ) (k : ℕ) : List Decimal :=
  let e := Int.log 10 x + 1 - k
  let below := ⌊x / 10 ^ e⌋₊
  if x / 10 ^ e - below ≤ 1 / 2 then [⟨below, e⟩, ⟨below + 1, e⟩] else [⟨below + 1, e⟩, ⟨below, e⟩]

/-- No double has a binary digit, and so none has a decimal digit, behind this place. -/
def places : ℕ := 1074

/-- All digits of a double. -/
def expansion (x : ℚ) : Decimal := ⟨⌊x * 10 ^ places⌋₊, -places⟩

/-- The shortest decimal that is read as `x`, and the closest one of that length. -/
def shortest (x : ℚ) : Decimal :=
  ((((List.range 17).flatMap fun k => neighbours x (k + 1)).find? fun d =>
    read d.value = some x).getD (expansion x)).strip 1100

lemma value_expansion (h : OnGrid x) : (expansion x).value = x := by
  obtain ⟨m, e, -, _, rfl⟩ := h
  obtain ⟨d, hd⟩ := Int.eq_ofNat_of_zero_le (show 0 ≤ e + places by rw [places]; omega)
  have hwhole : (m : ℚ) * 2 ^ e * 10 ^ places = ((m * 2 ^ d * 5 ^ places : ℕ) : ℚ) := by
    have hsplit : (2 : ℚ) ^ e * 2 ^ places = 2 ^ d := by
      rw [← zpow_natCast, ← zpow_natCast, ← zpow_add₀ (by norm_num), hd]
    push_cast
    rw [← hsplit, show (10 : ℚ) = 2 * 5 by norm_num, mul_pow]
    ring
  rw [expansion, Decimal.value, hwhole, Nat.floor_natCast, ← hwhole, zpow_neg]
  exact mul_inv_cancel_right₀ (by positivity) _

/-- **The decimal of a double is read as the double.** -/
theorem read_shortest (hq : 0 ≤ q) (h : read q = some x) : read (shortest x).value = some x := by
  rw [shortest, Decimal.value_strip]
  cases hfound : ((List.range 17).flatMap fun k => neighbours x (k + 1)).find? fun d =>
      read d.value = some x with
  | some d =>
    have hread := List.find?_some hfound
    simpa using hread
  | none =>
    rw [Option.getD_none, value_expansion (onGrid_of_read hq h)]
    exact read_of_read hq h

/-- Two to the 53rd, plus one, is read as two to the 53rd. -/
example : (read 9007199254740993).map shortest = some ⟨9007199254740992, 0⟩ := by decide +kernel

end Binary64
