/-
Go strings as byte sequences.

A Go `string` is an arbitrary finite byte sequence; nothing guarantees that it
is valid UTF-8.  `GoString` keeps that representation, because the programs
verified here compare, trim and hash strings byte by byte.

* `lit` — the bytes of a string literal;
* `trimSpace` — `strings.TrimSpace`: the encodings of the Unicode `White_Space`
  characters are stripped from both ends (`trimSpace_idem`);
* `formatUint` — `strconv.FormatUint(n, 10)` (`formatUint_inj`,
  `colon_formatUint_inj`);
* `hexEncode` — `encoding/hex.EncodeToString` (`hexEncode_inj`).
-/
import Mathlib.Data.List.Infix
import Mathlib.Data.Nat.Digits.Lemmas
import Mathlib.Data.UInt

/-- A Go `string` (or `[]byte`): an arbitrary byte sequence. -/
abbrev GoString : Type := List UInt8

namespace GoString
open List

instance lawfulBEq : LawfulBEq GoString := inferInstance

/-- The bytes of a string literal of the source. -/
def lit (s : String) : GoString := s.toByteArray.data.toList

/-! ### `strings.TrimSpace` -/

/-- The UTF-8 encodings of the characters `unicode.IsSpace` accepts. -/
def spaces : List GoString :=
  [[0x09], [0x0A], [0x0B], [0x0C], [0x0D], [0x20], [0xC2, 0x85], [0xC2, 0xA0],
   [0xE1, 0x9A, 0x80],
   [0xE2, 0x80, 0x80], [0xE2, 0x80, 0x81], [0xE2, 0x80, 0x82], [0xE2, 0x80, 0x83],
   [0xE2, 0x80, 0x84], [0xE2, 0x80, 0x85], [0xE2, 0x80, 0x86], [0xE2, 0x80, 0x87],
   [0xE2, 0x80, 0x88], [0xE2, 0x80, 0x89], [0xE2, 0x80, 0x8A],
   [0xE2, 0x80, 0xA8], [0xE2, 0x80, 0xA9], [0xE2, 0x80, 0xAF], [0xE2, 0x81, 0x9F],
   [0xE3, 0x80, 0x80]]

/-- Strip words of `ws` from the front, at most `fuel` times. -/
def stripFront (ws : List GoString) : ℕ → GoString → GoString
  | 0, s => s
  | fuel + 1, s =>
    match ws.find? (·.isPrefixOf s) with
    | none => s
    | some w => stripFront ws fuel (s.drop w.length)

/-- `strings.TrimLeftFunc(s, unicode.IsSpace)`. -/
def trimLeft (s : GoString) : GoString := stripFront spaces s.length s

/-- `strings.TrimRightFunc(s, unicode.IsSpace)`. -/
def trimRight (s : GoString) : GoString :=
  (stripFront (spaces.map List.reverse) s.length s.reverse).reverse

/-- `strings.TrimSpace`. -/
def trimSpace (s : GoString) : GoString := trimRight (trimLeft s)

/-- No word of `ws` is a prefix of `s`. -/
def NoFront (ws : List GoString) (s : GoString) : Prop := ∀ w ∈ ws, ¬ w <+: s

lemma stripFront_suffix (ws : List GoString) (fuel : ℕ) (s : GoString) :
    stripFront ws fuel s <:+ s := by
  induction fuel generalizing s with
  | zero => exact suffix_refl s
  | succ _ ih =>
    rw [stripFront]
    split
    · exact suffix_refl s
    · exact (ih _).trans (drop_suffix _ s)

variable {s : GoString} {ws : List GoString}

lemma stripFront_eq_self (h : NoFront ws s) (fuel : ℕ) : stripFront ws fuel s = s := by
  obtain _ | _ := fuel
  · rfl
  have hnone : ws.find? (·.isPrefixOf s) = none :=
    find?_eq_none.mpr fun w hw => by
      rw [ isPrefixOf_iff_prefix]; exact h w hw
  rw [stripFront, hnone]

/-- With one unit of fuel per byte, stripping non-empty words runs to the end. -/
lemma stripFront_noFront (hws : ∀ w ∈ ws, w ≠ []) {fuel : ℕ}
    (hlen : s.length ≤ fuel) : NoFront ws (stripFront ws fuel s) := by
  induction fuel generalizing s with
  | zero =>
    have hs : s = [] := length_eq_zero_iff.mp (by omega)
    subst hs
    intro w hw hpre
    exact hws w hw (prefix_nil.mp hpre)
  | succ _ ih =>
    rw [stripFront]
    split
    · rename_i hnone
      intro w hw hpre
      exact find?_eq_none.mp hnone w hw ( isPrefixOf_iff_prefix.mpr hpre)
    rename_i w hsome
    refine ih ?_
    have hpos : 0 < w.length := length_pos_iff.mpr (hws w (mem_of_find?_eq_some hsome))
    rw [length_drop]
    omega

private lemma spaces_ne_nil : ∀ w ∈ spaces, w ≠ [] := by decide

private lemma spaces_reverse_ne_nil : ∀ w ∈ spaces.map reverse, w ≠ [] := by decide

lemma trimRight_isPrefix (s : GoString) : trimRight s <+: s := by
  have h := stripFront_suffix (spaces.map reverse) s.length s.reverse
  rwa [← reverse_prefix, reverse_reverse] at h

lemma trimSpace_noFront (s : GoString) : NoFront spaces (trimSpace s) :=
  fun w hw hwp =>
    stripFront_noFront spaces_ne_nil le_rfl w hw (hwp.trans (trimRight_isPrefix _))

lemma trimSpace_noBack (s : GoString) :
    NoFront (spaces.map reverse) (trimSpace s).reverse := by
  rw [trimSpace, trimRight, reverse_reverse]
  exact stripFront_noFront spaces_reverse_ne_nil (by simp)

lemma trimSpace_eq_self (hfront : NoFront spaces s)
    (hback : NoFront (spaces.map reverse) s.reverse) : trimSpace s = s := by
  rw [trimSpace, trimLeft, stripFront_eq_self hfront, trimRight, stripFront_eq_self hback,
    reverse_reverse]

/-- Trimming is idempotent: a trimmed string is its own trimming. -/
@[simp] theorem trimSpace_idem (s : GoString) : trimSpace (trimSpace s) = trimSpace s :=
  trimSpace_eq_self (trimSpace_noFront s) (trimSpace_noBack s)

/-- A printable ASCII byte other than the blank. -/
def isGraphic (b : UInt8) : Bool := 0x20 < b && b < 0x7F

/-- Between two graphic bytes there is nothing to trim: no byte at either end of a
space is graphic. -/
lemma trimSpace_of_ends (hfront : ∀ b ∈ s.head?, isGraphic b = true)
    (hback : ∀ b ∈ s.getLast?, isGraphic b = true) : trimSpace s = s := by
  have hclash : ∀ {ws : List GoString} {t : GoString}, (∀ w ∈ ws, ∃ b ∈ w.head?, isGraphic b = false) →
      (∀ b ∈ t.head?, isGraphic b = true) → NoFront ws t := by
    intro _ t hws ht w hw hpre
    obtain ⟨b, hb, hblank⟩ := hws w hw
    obtain ⟨u, rfl⟩ := head?_eq_some_iff.mp hb
    obtain ⟨v, rfl⟩ := hpre
    rw [ht b rfl] at hblank
    simp at hblank
  refine trimSpace_eq_self (hclash (by decide) hfront) (hclash (by decide) ?_)
  rwa [head?_reverse]

lemma trimSpace_of_graphic (h : ∀ b ∈ s, isGraphic b = true) : trimSpace s = s :=
  trimSpace_of_ends (fun b hb => h b (mem_of_mem_head? hb))
    fun b hb => h b (mem_of_mem_getLast? hb)

example : trimSpace (lit " \t run_1 \n") = lit "run_1" := by decide

/-! ### Decimal renderings -/

/-- The ASCII digit of `d < 10`. -/
def digitByte (d : ℕ) : UInt8 := UInt8.ofNat (48 + d)

/-- `b` is one of `'0'` … `'9'`. -/
def isDigit (b : UInt8) : Bool := 48 ≤ b && b ≤ 57

/-- The digits of `n`, most significant first; zero has one digit. -/
def decimalDigits (n : ℕ) : List ℕ := if n = 0 then [0] else (Nat.digits 10 n).reverse

/-- `strconv.FormatUint(n, 10)`. -/
def formatUint (n : ℕ) : GoString := (decimalDigits n).map digitByte

/-- `strconv.FormatInt(n, 10)`. -/
def formatInt (n : ℤ) : GoString :=
  if n < 0 then 0x2D :: formatUint n.natAbs else formatUint n.natAbs

/-- The value of a string of digits. -/
def decimalValue (s : GoString) : ℕ := Nat.ofDigits 10 (s.reverse.map fun b => b.toNat - 48)

lemma digitByte_toNat {d : ℕ} (hd : d < 10) : (digitByte d).toNat = 48 + d := by
  exact Nat.mod_eq_of_lt (by omega)

lemma isDigit_digitByte {d : ℕ} (hd : d < 10) : isDigit (digitByte d) = true := by
  simp only [isDigit, Bool.and_eq_true, decide_eq_true_eq, UInt8.le_iff_toNat_le,
    digitByte_toNat hd]
  exact ⟨Nat.le_add_right 48 d, by simp; omega⟩

lemma decimalDigits_lt {n d : ℕ} (hd : d ∈ decimalDigits n) : d < 10 := by
  rw [decimalDigits] at hd
  split at hd
  · simp at hd; omega
  · exact Nat.digits_lt_base (by omega) (mem_reverse.mp hd)

lemma decimalDigits_ne_nil (n : ℕ) : decimalDigits n ≠ [] := by
  rw [decimalDigits]
  split
  · simp
  · simpa [Nat.digits_ne_nil_iff_ne_zero] using ‹¬ n = 0›

lemma formatUint_digits {n : ℕ} {b : UInt8} (hb : b ∈ formatUint n) : isDigit b = true := by
  obtain ⟨d, hd, rfl⟩ := mem_map.mp hb
  exact isDigit_digitByte (decimalDigits_lt hd)

lemma decimalValue_formatUint (n : ℕ) : decimalValue (formatUint n) = n := by
  have hvalues : (decimalDigits n).map (fun d => (digitByte d).toNat - 48) = decimalDigits n := by
    conv_rhs => rw [← map_id (decimalDigits n)]
    refine map_congr_left fun d hd => ?_
    rw [digitByte_toNat (decimalDigits_lt hd), Nat.add_sub_cancel_left, id]
  have hdigits : (formatUint n).reverse.map (fun b => b.toNat - 48) = (decimalDigits n).reverse := by
    rw [map_reverse, formatUint, map_map]
    exact congrArg reverse hvalues
  rw [decimalValue, hdigits, decimalDigits]
  split
  · subst_vars; rfl
  · rw [reverse_reverse, Nat.ofDigits_digits]

theorem formatUint_inj {m n : ℕ} (h : formatUint m = formatUint n) : m = n := by
  rw [← decimalValue_formatUint m, h, decimalValue_formatUint]

/-- A separator that does not occur in the tails splits a string in one way only. -/
lemma append_cons_inj {α : Type*} {c : α} {a b x y : List α} (hx : c ∉ x) (hy : c ∉ y)
    (h : a ++ c :: x = b ++ c :: y) : a = b ∧ x = y := by
  induction a generalizing b with
  | nil =>
    cases b with
    | nil => exact ⟨rfl, by simpa using h⟩
    | cons =>
      simp only [nil_append, cons_append, cons.injEq] at h
      exact absurd (h.2 ▸ by simp : c ∈ x) hx
  | cons _ _ ih =>
    cases b with
    | nil =>
      simp only [nil_append, cons_append, cons.injEq] at h
      exact absurd (h.2 ▸ by simp : c ∈ y) hy
    | cons =>
      simp only [cons_append, cons.injEq] at h
      obtain ⟨rfl, rfl⟩ := ih h.2
      exact ⟨by rw [h.1], rfl⟩

/-- So does one that does not occur in the fronts. -/
lemma cons_append_inj {α : Type*} {c : α} {a b x y : List α} (ha : c ∉ a) (hb : c ∉ b)
    (h : a ++ c :: x = b ++ c :: y) : a = b ∧ x = y := by
  have hreverse : x.reverse ++ c :: a.reverse = y.reverse ++ c :: b.reverse := by
    simpa using congrArg reverse h
  obtain ⟨hx, hab⟩ := append_cons_inj (by simpa using ha) (by simpa using hb) hreverse
  exact ⟨reverse_inj.mp hab, reverse_inj.mp hx⟩

/-- `name ++ ":" ++ FormatUint(n)` determines both `name` (which may itself
contain colons) and `n`. -/
theorem colon_formatUint_inj {a b : GoString} {m n : ℕ}
    (h : a ++ lit ":" ++ formatUint m = b ++ lit ":" ++ formatUint n) : a = b ∧ m = n := by
  have hcolon : ∀ k, (58 : UInt8) ∉ formatUint k := fun k hk =>
    absurd (formatUint_digits hk) (by decide)
  rw [append_assoc, append_assoc] at h
  exact (append_cons_inj (hcolon m) (hcolon n) h).imp_right formatUint_inj

/-! ### Hexadecimal renderings -/

/-- The lower-case hexadecimal digit of `d < 16`. -/
def hexDigit (d : ℕ) : UInt8 := if d < 10 then UInt8.ofNat (48 + d) else UInt8.ofNat (87 + d)

/-- `encoding/hex.EncodeToString`. -/
def hexEncode : GoString → GoString
  | [] => []
  | b :: s => hexDigit (b.toNat / 16) :: hexDigit (b.toNat % 16) :: hexEncode s

lemma length_hexEncode (s : GoString) : (hexEncode s).length = 2 * s.length := by
  induction s with
  | nil => rfl
  | cons _ _ ih => rw [hexEncode, length_cons, length_cons, length_cons]; omega

lemma hexEncode_graphic {b : UInt8} (hb : b ∈ hexEncode s) : isGraphic b = true := by
  have hdigit : ∀ d < 16, isGraphic (hexDigit d) = true := by decide
  induction s with
  | nil => simp [hexEncode] at hb
  | cons c _ ih =>
    have hc := c.toNat_lt
    simp only [hexEncode, mem_cons] at hb
    rcases hb with rfl | rfl | hb
    · exact hdigit _ (by omega)
    · exact hdigit _ (by omega)
    · exact ih hb

lemma hexDigit_inj : ∀ a < 16, ∀ b < 16, hexDigit a = hexDigit b → a = b := by decide

theorem hexEncode_inj {t : GoString} (h : hexEncode s = hexEncode t) : s = t := by
  induction s generalizing t with
  | nil =>
    cases t with
    | nil => rfl
    | cons => simp [hexEncode] at h
  | cons b _ ih =>
    obtain _ | ⟨c, t⟩ := t
    · simp [hexEncode] at h
    simp only [hexEncode, cons.injEq] at h
    obtain ⟨hhigh, hlow, hrest⟩ := h
    have hb := b.toNat_lt
    have hc := c.toNat_lt
    have hdiv := hexDigit_inj _ (by omega) _ (by omega) hhigh
    have hmod := hexDigit_inj _ (by omega) _ (by omega) hlow
    have hbc : b = c := UInt8.toNat_inj.mp (by omega)
    rw [hbc, ih hrest]

/-! ### Errors -/

variable {ε α β : Type} {b : β} {x : Except ε α}

lemma map_eq_ok {f : α → β} (h : x.map f = .ok b) : ∃ a, x = .ok a ∧ f a = b := by
  cases x with
  | error => cases h
  | ok a => exact ⟨a, rfl, Except.ok.inj h⟩

lemma bind_eq_ok {f : α → Except ε β} (h : (x >>= f) = .ok b) : ∃ a, x = .ok a ∧ f a = .ok b := by
  cases x with
  | error => cases h
  | ok a => exact ⟨a, rfl, h⟩

end GoString
