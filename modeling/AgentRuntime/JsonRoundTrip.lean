/-
Reading back the literals that were written.

* **`parseString_quote`** — a string literal is read as the string with its stray
  bytes replaced by U+FFFD: valid UTF-8 survives the trip, nothing else does.
-/
import AgentRuntime.Json

namespace GoJson

open GoString List Option

/-! ### String literals -/

lemma hexValue_hexDigit : ∀ d < 16, hexValue (hexDigit d) = some d := by decide

variable {b : UInt8} {e rest u w t : GoString} {n fuel : ℕ}

lemma encodeRune_byte (hb : b < 0x80) : encodeRune b.toNat = [b] := by
  have hlt : b.toNat < 0x80 := UInt8.lt_iff_toNat_lt.mp hb
  rw [encodeRune, if_pos hlt, UInt8.ofNat_toNat]

lemma hex4_append (hu : hex4 u = some (n, [])) (t : GoString) : hex4 (u ++ t) = some (n, t) := by
  match u, hu with
  | a :: b :: c :: d :: v, hu =>
    simp only [hex4, cons_append] at hu ⊢
    split at hu
    · simp only [some.injEq, Prod.mk.injEq] at hu ⊢
      exact ⟨hu.1, by rw [hu.2, nil_append]⟩
    · simp at hu

/-- A `\\u` escape of a code point that is not a surrogate. -/
lemma strItem_unicode (hu : hex4 u = some (n, []))
    (hn : ¬ (0xD800 ≤ n ∧ n < 0xE000)) (t : GoString) :
    strItem (0x5C :: 0x75 :: u ++ t) = some (encodeRune n, t) := by
  simp [cons_append, strItem, unicodeEscape, hex4_append hu, if_neg hn]

lemma strItem_unicodeByte (hb : b < 0x80) (t : GoString) :
    strItem (unicodeByte b ++ t) = some ([b], t) := by
  have hlt : b.toNat < 0x80 := UInt8.lt_iff_toNat_lt.mp hb
  have hlit : unicodeByte b =
      0x5C :: 0x75 :: [0x30, 0x30, hexDigit (b.toNat / 16), hexDigit (b.toNat % 16)] := by
    rfl
  have hhex : hex4 [0x30, 0x30, hexDigit (b.toNat / 16), hexDigit (b.toNat % 16)] =
      some (b.toNat, []) := by
    rw [hex4, show hexValue 0x30 = some 0 by decide, hexValue_hexDigit _ (by omega),
      hexValue_hexDigit _ (by omega)]
    simp only [some.injEq, Prod.mk.injEq, and_true]
    omega
  rw [hlit, strItem_unicode hhex (by omega), encodeRune_byte hb]

lemma strItem_escapeByte (hb : b < 0x80) (t : GoString) :
    strItem (escapeByte b ++ t) = some ([b], t) := by
  have hmnemonic : ∀ s e, lit s = [0x5C, e] → e ≠ 0x75 → simpleEscape e = some b →
      strItem (lit s ++ t) = some ([b], t) := by
    intro s e hs he hb'
    rw [hs]
    simp [strItem, he, hb']
  rw [escapeByte]
  split
  · rename_i h
    rcases h with rfl | rfl <;> rfl
  split
  · subst b; exact hmnemonic _ 0x62 (by decide) (by decide) (by decide)
  split
  · subst b; exact hmnemonic _ 0x66 (by decide) (by decide) (by decide)
  split
  · subst b; exact hmnemonic _ 0x6E (by decide) (by decide) (by decide)
  split
  · subst b; exact hmnemonic _ 0x72 (by decide) (by decide) (by decide)
  split
  · subst b; exact hmnemonic _ 0x74 (by decide) (by decide) (by decide)
  split
  · exact strItem_unicodeByte hb t
  -- printable ASCII stands for itself
  rename_i hquote _ _ _ _ _ hplain
  simp only [not_or] at hquote hplain
  have hlen : runeLen (b :: t) = 1 := by simp [runeLen, hb]
  simp [strItem, hquote.2, hplain.1, hlen]

lemma escapeByte_head (b : UInt8) : (escapeByte b).head? ≠ some 0x22 := by
  rw [escapeByte]
  split_ifs with hquote
  any_goals decide
  · simp
  · simp [unicodeByte, show lit "\\u00" = [0x5C, 0x75, 0x30, 0x30] by decide]
  · simp only [not_or] at hquote
    simpa using hquote.1

/-- The head of a well-formed encoding of more than one byte is not ASCII. -/
lemma IsRune.head_ge {a : UInt8} (he : IsRune (a :: b :: e)) : ¬ a < 0x80 := by
  intro ha
  have hlen := he.2
  rw [runeLen, if_pos ha] at hlen
  simp at hlen

lemma strItem_multibyte {a : UInt8} (he : IsRune (a :: b :: e)) (t : GoString) :
    strItem (a :: b :: e ++ t) = some (a :: b :: e, t) := by
  have ha := IsRune.head_ge he
  have hlen : runeLen (a :: (b :: (e ++ t))) = e.length + 1 + 1 := he.runeLen_append t
  have hback : a ≠ 0x5C := by rintro rfl; exact ha (by decide)
  have hctl : ¬ a < 0x20 := fun h => ha (UInt8.lt_trans h (by decide))
  simp [strItem, hback, hctl, hlen]

lemma strItem_escapeRune (he : IsRune e) (t : GoString) :
    strItem (escapeRune (.encoded e) ++ t) = some (e, t) := by
  match e, he with
  | [], he => exact absurd rfl he.1
  | [b], he =>
    have hb : b < 0x80 := by
      by_contra hb
      have hlen := he.2
      revert hlen
      simp only [runeLen, if_neg hb, length_singleton]
      split_ifs <;> simp
    exact strItem_escapeByte hb t
  | a :: b :: e, he =>
    simp only [escapeRune]
    split_ifs with hline hpara
    · rw [hline, show lit "\\u2028" = 0x5C :: 0x75 :: lit "2028" by decide,
        strItem_unicode (n := 0x2028) (by decide) (by decide),
        show encodeRune 0x2028 = [0xE2, 0x80, 0xA8] by decide]
    · rw [hpara, show lit "\\u2029" = 0x5C :: 0x75 :: lit "2029" by decide,
        strItem_unicode (n := 0x2029) (by decide) (by decide),
        show encodeRune 0x2029 = [0xE2, 0x80, 0xA9] by decide]
    · exact strItem_multibyte he t

lemma escapeRune_ne_nil (he : IsRune e) : escapeRune (.encoded e) ≠ [] := by
  intro hnil
  have h := strItem_escapeRune he []
  rw [hnil] at h
  exact absurd h (by simp [strItem])

lemma escapeRune_head (he : IsRune e) : (escapeRune (.encoded e)).head? ≠ some 0x22 := by
  match e, he with
  | [], he => exact absurd rfl he.1
  | [b], _ => exact escapeByte_head b
  | a :: b :: e, he =>
    have ha := IsRune.head_ge he
    simp only [escapeRune]
    split_ifs
    · decide
    · decide
    simp only [head?_cons, ne_eq, some.injEq]
    rintro rfl
    exact ha (by decide)

lemma strItem_escapeRune_stray (b : UInt8) (t : GoString) :
    strItem (escapeRune (.stray b) ++ t) = some (replacement, t) := by
  exact strItem_multibyte isRune_replacement t

lemma strBody_item {out : GoString} (hne : w ≠ [])
    (hw : w.head? ≠ some 0x22) (hitem : strItem (w ++ t) = some (out, t)) :
    strBody (fuel + 1) (w ++ t) = (strBody fuel t).map fun p => (out ++ p.1, p.2) := by
  obtain _ | ⟨a, w⟩ := w
  · exact absurd rfl hne
  have ha : a ≠ 0x22 := by simpa using hw
  rw [cons_append] at hitem ⊢
  rw [strBody, if_neg ha, hitem]

/-- The body of a literal is read back rune by rune; `fuel` counts the runes. -/
lemma strBody_escaped (s rest : GoString) : ∀ fuel, (runes s).length < fuel →
    strBody fuel ((runes s).flatMap escapeRune ++ 0x22 :: rest) = some (toValidUTF8 s, rest) := by
  induction s using runeInduction with
  | nil =>
    rintro (_ | _) hfuel
    · simp at hfuel
    · simp [strBody]
  | stray a _ h ih =>
    rintro (_ | fuel) hfuel
    · simp at hfuel
    rw [runes_stray h] at hfuel ⊢
    have hne : escapeRune (.stray a) ≠ [] := show replacement ≠ [] by decide
    have hhead : (escapeRune (.stray a)).head? ≠ some 0x22 :=
      show replacement.head? ≠ some 0x22 by decide
    rw [flatMap_cons, append_assoc, strBody_item hne hhead (strItem_escapeRune_stray a _),
      ih fuel (by simpa using hfuel), toValidUTF8_stray h]
    rfl
  | encoded _ _ he ih =>
    rintro (_ | fuel) hfuel
    · simp at hfuel
    rw [runes_append he] at hfuel ⊢
    rw [flatMap_cons, append_assoc, strBody_item (escapeRune_ne_nil he)
      (escapeRune_head he) (strItem_escapeRune he _), ih fuel (by simpa using hfuel),
      toValidUTF8_append he]
    rfl

lemma runes_length_le (s : GoString) :
    (runes s).length ≤ ((runes s).flatMap escapeRune).length := by
  induction s using runeInduction with
  | nil => exact le_rfl
  | stray a _ h =>
    rw [runes_stray h, flatMap_cons, length_append, length_cons]
    have hlen : (escapeRune (.stray a)).length = 3 := rfl
    omega
  | encoded _ _ he =>
    rw [runes_append he, flatMap_cons, length_append, length_cons]
    have hpos := length_pos_iff.mpr (escapeRune_ne_nil he)
    omega

/-- **A string literal is read back** with its stray bytes replaced. -/
theorem parseString_quote (s rest : GoString) :
    parseString ((runes s).flatMap escapeRune ++ 0x22 :: rest) = some (toValidUTF8 s, rest) := by
  refine strBody_escaped s rest _ ?_
  have := runes_length_le s
  rw [length_append]
  omega

/-! ### Between values -/

/-- What may stand behind a value inside a text. -/
def EndsValue (rest : GoString) : Prop :=
  ∀ b ∈ rest.head?, b = 0x2C ∨ b = 0x5D ∨ b = 0x7D

lemma skipSpace_cons (hb : isSpace b = false) (t : GoString) : skipSpace (b :: t) = b :: t := by
  rw [skipSpace, dropWhile_cons, hb]
  rfl

lemma EndsValue.skipSpace_eq (h : EndsValue rest) : skipSpace rest = rest := by
  cases rest with
  | nil => rfl
  | cons b t =>
    refine skipSpace_cons ?_ t
    rcases h b (by simp) with rfl | rfl | rfl <;> decide

/-! ### Numbers -/

lemma digits1_append (hw : w ≠ []) (hdigits : ∀ b ∈ w, isDigit b = true)
    (hrest : ∀ b ∈ rest.head?, isDigit b = false) : digits1 (w ++ rest) = some (w, rest) := by
  have htake : rest.takeWhile isDigit = [] := by
    cases rest with
    | nil => rfl
    | cons b => simp [hrest b (by simp)]
  have hdrop : rest.dropWhile isDigit = rest := by
    cases rest with
    | nil => rfl
    | cons b => simp [hrest b (by simp)]
  have htakew : (w ++ rest).takeWhile isDigit = w := by
    rw [takeWhile_append_of_pos hdigits, htake, append_nil]
  have hdropw : (w ++ rest).dropWhile isDigit = rest := by
    rw [dropWhile_append_of_pos hdigits, hdrop]
  rw [digits1, htakew, hdropw, if_neg (by simpa using hw)]

lemma intPart_of_ne_zero (hb : b ≠ 0x30) (t : GoString) :
    intPart (b :: t) = digits1 (b :: t) := by
  rw [intPart]
  intro u hu
  exact hb (cons.inj hu).1

lemma fracPart_of_ends (h : EndsValue rest) : fracPart rest = some ([], rest) := by
  rw [fracPart]
  rintro t rfl
  exact absurd (h 0x2E (by simp)) (by decide)

lemma expPart_of_ends (h : EndsValue rest) : expPart rest = some ([], rest) := by
  obtain _ | ⟨b, t⟩ := rest
  · rfl
  have hb := h b (by simp)
  have hne : ¬ (b = 0x65 ∨ b = 0x45) := by
    rintro (rfl | rfl)
    all_goals exact absurd hb (by decide)
  simp [expPart, if_neg hne]

lemma EndsValue.not_digit (h : EndsValue rest) : ∀ b ∈ rest.head?, isDigit b = false := by
  intro b hb
  rcases h b hb with rfl | rfl | rfl <;> decide

/-- The most significant digit of a number with more than one digit is not zero. -/
lemma formatUint_head (h : formatUint n = 0x30 :: t) : t = [] := by
  rcases Nat.eq_zero_or_pos n with rfl | _
  · exact (cons.inj h).2.symm
  exfalso
  have hdigits : formatUint n = (Nat.digits 10 n).reverse.map digitByte := by
    rw [formatUint, decimalDigits, if_neg (by omega)]
  have hne : Nat.digits 10 n ≠ [] := Nat.digits_ne_nil_iff_ne_zero.mpr (by omega)
  have hhead := congrArg head? h
  rw [hdigits, head?_map, head?_reverse, getLast?_eq_some_getLast hne] at hhead
  simp only [map_some, head?_cons, some.injEq] at hhead
  have hlt : (Nat.digits 10 n).getLast hne < 10 :=
    Nat.digits_lt_base (by omega) (getLast_mem hne)
  have hval := congrArg UInt8.toNat hhead
  rw [digitByte_toNat hlt] at hval
  have hzero : (Nat.digits 10 n).getLast hne = 0 := by
    have h48 : UInt8.toNat 0x30 = 48 := rfl
    omega
  exact Nat.getLast_digit_ne_zero 10 (by omega) hzero

lemma formatUint_ne_nil (n : ℕ) : formatUint n ≠ [] := by
  simpa [formatUint] using decimalDigits_ne_nil n

theorem parseNumber_formatUint (h : EndsValue rest) (n : ℕ) :
    parseNumber (formatUint n ++ rest) = some (formatUint n, rest) := by
  obtain ⟨b, t, hbt⟩ := exists_cons_of_ne_nil (formatUint_ne_nil n)
  have hdigits : ∀ c ∈ b :: t, isDigit c = true := fun c hc => formatUint_digits (hbt ▸ hc)
  have hminus : (b == 0x2D) = false := by
    rw [beq_eq_false_iff_ne]
    rintro rfl
    exact absurd (hdigits 0x2D (by simp)) (by decide)
  have hint : intPart (formatUint n ++ rest) = some (formatUint n, rest) := by
    by_cases hb : b = 0x30
    · subst hb
      have ht := formatUint_head hbt
      rw [hbt, ht]
      rfl
    · rw [hbt, cons_append, intPart_of_ne_zero hb]
      exact digits1_append (by simp) hdigits h.not_digit
  have hsign : ((formatUint n ++ rest).takeWhile (· == 0x2D)).take 1 = [] := by
    rw [hbt, cons_append, takeWhile_cons, hminus]
    rfl
  rw [parseNumber]
  simp [hsign, length_nil, hint, fracPart_of_ends h, expPart_of_ends h]

lemma parseValue_scalar {depth : ℕ} (t : GoString) (hspace : isSpace b = false)
    (hb : b ≠ 0x7B ∧ b ≠ 0x5B ∧ b ≠ 0x22) :
    parseValue (fuel + 1) depth (b :: t) = parseScalar (b :: t) := by
  rw [parseValue, skipSpace_cons hspace]
  split
  · rename_i h; exact absurd (cons.inj h).1 hb.1
  · rename_i h; exact absurd (cons.inj h).1 hb.2.1
  · rename_i h; exact absurd (cons.inj h).1 hb.2.2
  · rfl

lemma renderMembers_head {ms : List (GoString × Value)} (hne : ms ≠ []) :
    (renderMembers ms).head? = some 0x22 := by
  match ms with
  | [] => exact absurd rfl hne
  | [(key, v)] | (key, v) :: m :: ms => simp [renderMembers, quote]

end GoJson
