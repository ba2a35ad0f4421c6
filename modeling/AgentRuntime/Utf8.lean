/-
UTF-8 inside Go strings.

`range s`, `encoding/json` and `utf8.DecodeRune` all read a Go string the same
way: as long as a well-formed encoding stands at the front it is one rune, and
otherwise the first byte alone is an error that stands for U+FFFD.  `runes` is
that reading; the rest is derived from it.

* `runeLen` — the length of the well-formed encoding at the front, or `0`;
* `runes` — a string cut into well-formed encodings and stray bytes
  (`runes_flatMap_raw`, `runeInduction`);
* `validUTF8` — `utf8.ValidString`;
* `toValidUTF8` — what `encoding/json` makes of a string: every stray byte
  becomes the encoding of U+FFFD (`toValidUTF8_of_valid`, `toValidUTF8_idem`).
-/
import AgentRuntime.GoStrings

namespace GoString
open List

/-- A continuation byte. -/
def isCont (b : UInt8) : Bool := 0x80 ≤ b && b ≤ 0xBF

/-- The second byte of a multi-byte encoding: a continuation byte, minus the
overlong forms, the surrogates and the values above U+10FFFF. -/
def isSecond (a b : UInt8) : Bool :=
  if a = 0xE0 then 0xA0 ≤ b && b ≤ 0xBF
  else if a = 0xED then 0x80 ≤ b && b ≤ 0x9F
  else if a = 0xF0 then 0x90 ≤ b && b ≤ 0xBF
  else if a = 0xF4 then 0x80 ≤ b && b ≤ 0x8F
  else isCont b

/-- The number of bytes of the well-formed encoding at the front of a string;
`0` if there is none. -/
def runeLen : GoString → ℕ
  | [] => 0
  | a :: t =>
    if a < 0x80 then 1
    else if 0xC2 ≤ a && a ≤ 0xDF then
      match t with
      | b :: _ => if isSecond a b then 2 else 0
      | _ => 0
    else if 0xE0 ≤ a && a ≤ 0xEF then
      match t with
      | b :: c :: _ => if isSecond a b && isCont c then 3 else 0
      | _ => 0
    else if 0xF0 ≤ a && a ≤ 0xF4 then
      match t with
      | b :: c :: d :: _ => if isSecond a b && isCont c && isCont d then 4 else 0
      | _ => 0
    else 0

/-- The encoding of U+FFFD. -/
def replacement : GoString := [0xEF, 0xBF, 0xBD]

/-- One step of reading a string. -/
inductive Rune where
  /-- A well-formed encoding. -/
  | encoded (bytes : GoString)
  /-- A byte that starts no well-formed encoding. -/
  | stray (b : UInt8)
  deriving DecidableEq, Repr

namespace Rune

/-- The bytes that were read. -/
def raw : Rune → GoString
  | encoded bytes => bytes
  | stray b => [b]

/-- The bytes of the rune that was read; a stray byte reads as U+FFFD. -/
def bytes : Rune → GoString
  | encoded bytes => bytes
  | stray _ => replacement

/-- The rune is well formed. -/
def isEncoded : Rune → Bool
  | encoded _ => true
  | stray _ => false

end Rune

/-- Read at most `fuel` runes. -/
def runesAux : ℕ → GoString → List Rune
  | 0, _ => []
  | _ + 1, [] => []
  | fuel + 1, a :: t =>
    match runeLen (a :: t) with
    | 0 => .stray a :: runesAux fuel t
    | n + 1 => .encoded ((a :: t).take (n + 1)) :: runesAux fuel ((a :: t).drop (n + 1))

/-- A string cut into runes and stray bytes. -/
def runes (s : GoString) : List Rune := runesAux s.length s

/-- `utf8.ValidString`. -/
def validUTF8 (s : GoString) : Bool := (runes s).all Rune.isEncoded

/-- The string with every stray byte replaced by U+FFFD. -/
def toValidUTF8 (s : GoString) : GoString := (runes s).flatMap Rune.bytes

/-! ### Reading a string -/

lemma runeLen_le (s : GoString) : runeLen s ≤ s.length := by
  fun_cases runeLen s <;> simp

variable {s e t : GoString}

/-- Whether a well-formed encoding stands at the front, and how long it is, does
not depend on what follows it. -/
lemma runeLen_take_append (h : runeLen s ≠ 0) (t : GoString) :
    runeLen (s.take (runeLen s) ++ t) = runeLen s := by
  revert h
  fun_cases runeLen s <;> intro h <;> first
    | exact absurd rfl h
    | simp [runeLen, *]

/-- `e` is exactly one well-formed encoding. -/
def IsRune (e : GoString) : Prop := e ≠ [] ∧ runeLen e = e.length

lemma IsRune.runeLen_append (he : IsRune e) (t : GoString) : runeLen (e ++ t) = e.length := by
  have hne : runeLen e ≠ 0 := by
    rw [he.2]; exact Nat.ne_of_gt (length_pos_iff.mpr he.1)
  have h := runeLen_take_append hne t
  rwa [he.2, take_length] at h

lemma isRune_take {n : ℕ} (h : runeLen s = n + 1) : IsRune (s.take (n + 1)) := by
  have hlen : n + 1 ≤ s.length := h ▸ runeLen_le s
  constructor
  · intro hnil
    have := congrArg length hnil
    simp only [length_take, length_nil] at this
    omega
  have h' := runeLen_take_append (s := s) (by omega) []
  rw [h, append_nil] at h'
  rw [h', length_take, Nat.min_eq_left hlen]

lemma runesAux_fuel {fuel : ℕ} (h : s.length ≤ fuel) : runesAux fuel s = runesAux s.length s := by
  induction fuel using Nat.strong_induction_on generalizing s with
  | _ fuel ih =>
    obtain _ | ⟨a, t⟩ := s
    · cases fuel <;> rfl
    obtain ⟨fuel, rfl⟩ : ∃ k, fuel = k + 1 := ⟨fuel - 1, by simp at h; omega⟩
    simp only [length_cons, Nat.add_le_add_iff_right] at h
    rw [length_cons, runesAux, runesAux]
    split
    · rw [ih fuel (by omega) h]
    rename_i n _
    have hdrop : ((a :: t).drop (n + 1)).length ≤ t.length := by simp
    rw [ih fuel (by omega) (hdrop.trans h), ih t.length (by omega) hdrop]

@[simp] lemma runes_nil : runes [] = [] := rfl

lemma runes_stray {a : UInt8} (h : runeLen (a :: t) = 0) :
    runes (a :: t) = .stray a :: runes t := by
  rw [runes, length_cons, runesAux, h]
  rfl

lemma runes_append (he : IsRune e) (t : GoString) : runes (e ++ t) = .encoded e :: runes t := by
  obtain _ | ⟨a, e⟩ := e
  · exact absurd rfl he.1
  have hlen : runeLen (a :: (e ++ t)) = e.length + 1 := he.runeLen_append t
  rw [cons_append, runes, length_cons, runesAux, hlen]
  simp only [take_succ_cons, drop_succ_cons, take_left, drop_left]
  rw [runesAux_fuel (by simp)]
  rfl

/-- Induction along the reading of a string: the next thing read is a stray
byte or a well-formed encoding. -/
theorem runeInduction {motive : GoString → Prop} (nil : motive [])
    (stray : ∀ a t, runeLen (a :: t) = 0 → motive t → motive (a :: t))
    (encoded : ∀ e t, IsRune e → motive t → motive (e ++ t)) (s : GoString) : motive s := by
  induction hlen : s.length using Nat.strong_induction_on generalizing s with
  | _ _ ih =>
    obtain _ | ⟨a, t⟩ := s
    · exact nil
    subst hlen
    rcases hr : runeLen (a :: t) with _ | m
    · exact stray a t hr (ih t.length (by simp) t rfl)
    rw [← take_append_drop (m + 1) (a :: t)]
    refine encoded _ _ (isRune_take hr) (ih _ ?_ _ rfl)
    simp only [drop_succ_cons, length_drop, length_cons]
    omega

theorem runes_flatMap_raw (s : GoString) : (runes s).flatMap Rune.raw = s := by
  induction s using runeInduction with
  | nil => rfl
  | stray _ _ h ih => rw [runes_stray h, flatMap_cons, ih]; rfl
  | encoded _ _ he ih => rw [runes_append he, flatMap_cons, ih]; rfl

/-! ### Validity and replacement -/

@[simp] lemma toValidUTF8_nil : toValidUTF8 [] = [] := rfl

lemma toValidUTF8_stray {a : UInt8} (h : runeLen (a :: t) = 0) :
    toValidUTF8 (a :: t) = replacement ++ toValidUTF8 t := by
  rw [toValidUTF8, runes_stray h]; rfl

lemma toValidUTF8_append (he : IsRune e) (t : GoString) :
    toValidUTF8 (e ++ t) = e ++ toValidUTF8 t := by
  rw [toValidUTF8, runes_append he]; rfl

theorem toValidUTF8_of_valid (h : validUTF8 s = true) : toValidUTF8 s = s := by
  conv_rhs => rw [← runes_flatMap_raw s]
  refine flatMap_congr fun r hr => ?_
  have hr' := all_eq_true.mp h r hr
  cases r with
  | encoded => rfl
  | stray => simp [Rune.isEncoded] at hr'

lemma toValidUTF8_eq_nil : toValidUTF8 s = [] ↔ s = [] := by
  constructor
  · intro h
    induction s using runeInduction with
    | nil => rfl
    | stray _ _ hstray =>
      rw [toValidUTF8_stray hstray] at h
      cases h
    | encoded _ _ he =>
      rw [toValidUTF8_append he] at h
      exact absurd (append_eq_nil_iff.mp h).1 he.1
  · rintro rfl
    rfl

lemma validUTF8_of_graphic (h : ∀ b ∈ s, isGraphic b = true) : validUTF8 s = true := by
  induction s with
  | nil => rfl
  | cons b _ ih =>
    have hb := h b mem_cons_self
    simp only [isGraphic, Bool.and_eq_true, decide_eq_true_eq] at hb
    have hascii : b < 0x80 := UInt8.lt_trans hb.2 (by decide)
    have hrune : IsRune [b] := ⟨by simp, by simp [runeLen, hascii]⟩
    rw [validUTF8, ← singleton_append, runes_append hrune]
    exact Bool.and_eq_true_iff.mpr ⟨rfl, ih (forall_mem_cons.mp h).2⟩

lemma isRune_replacement : IsRune replacement := by
  constructor <;> decide

lemma validUTF8_toValidUTF8 (s : GoString) : validUTF8 (toValidUTF8 s) = true := by
  have hstep : ∀ {e t : GoString}, IsRune e → validUTF8 t = true → validUTF8 (e ++ t) = true := by
    intro e t he ht
    rw [validUTF8, runes_append he]
    exact Bool.and_eq_true_iff.mpr ⟨rfl, ht⟩
  induction s using runeInduction with
  | nil => rfl
  | stray _ _ h ih => rw [toValidUTF8_stray h]; exact hstep isRune_replacement ih
  | encoded _ _ he ih => rw [toValidUTF8_append he]; exact hstep he ih

@[simp] theorem toValidUTF8_idem (s : GoString) :
    toValidUTF8 (toValidUTF8 s) = toValidUTF8 s :=
  toValidUTF8_of_valid (validUTF8_toValidUTF8 s)

example : toValidUTF8 [0x61, 0xFF, 0xE2, 0x80] =
    [0x61] ++ replacement ++ replacement ++ replacement := by decide

end GoString
