/-
Every JSON value can be read back from its text.

Whatever is written for a value whose numbers are number literals is read as the
same value, with the stray bytes of its strings replaced.  In the other direction,
a value that was read has nothing left to replace, so on the values that come from
a text writing and reading are inverse to each other.

* **`parse_render`** — the text of a legible value is read as its clean form;
* **`parse_legible`** — what was read is legible and clean.
-/
import AgentRuntime.JsonRoundTrip

namespace GoJson

open GoString List Option UInt8

/-! ### Number literals -/

/-- A complete number literal, whatever follows it. -/
def IsNumber (l : GoString) : Prop :=
  ∀ rest, EndsValue rest → parseNumber (l ++ rest) = some (l, rest)

/-- No digit follows. -/
def EndsDigits (rest : GoString) : Prop := ∀ b ∈ rest.head?, isDigit b = false

variable {s t e rest l : GoString}

lemma digits1_spec {d : GoString} (h : digits1 s = some (d, t)) :
    s = d ++ t ∧ d ≠ [] ∧ (∀ b ∈ d, isDigit b = true) ∧
      ∀ rest, EndsDigits rest → digits1 (d ++ rest) = some (d, rest) := by
  rw [digits1] at h
  split at h
  · cases h
  rename_i hne
  cases h
  have hdigits : ∀ b ∈ s.takeWhile isDigit, isDigit b = true :=
    all_eq_true.mp (all_takeWhile)
  have hnil : s.takeWhile isDigit ≠ [] := by simpa using hne
  exact ⟨takeWhile_append_dropWhile.symm, hnil, hdigits,
    fun rest hrest => digits1_append hnil hdigits hrest⟩

lemma intPart_spec {i : GoString} (h : intPart s = some (i, t)) :
    s = i ++ t ∧ (∃ b u, i = b :: u ∧ isDigit b = true) ∧
      ∀ rest, EndsDigits rest → intPart (i ++ rest) = some (i, rest) := by
  obtain _ | ⟨b, s⟩ := s
  · simp [intPart, digits1] at h
  by_cases hb : b = 0x30
  · subst hb
    obtain ⟨rfl, rfl⟩ := h
    exact ⟨rfl, ⟨0x30, [], rfl, by decide⟩, fun rest _ => rfl⟩
  rw [intPart_of_ne_zero hb] at h
  obtain ⟨hs, hne, hdigits, hagain⟩ := digits1_spec h
  obtain ⟨c, u, rfl⟩ := exists_cons_of_ne_nil hne
  obtain ⟨rfl, rfl⟩ := cons.inj (hs.trans (cons_append ..))
  refine ⟨rfl, ⟨b, u, rfl, hdigits b mem_cons_self⟩, fun rest hrest => ?_⟩
  rw [cons_append, intPart_of_ne_zero hb]
  exact hagain rest hrest

lemma fracPart_spec {f : GoString} (h : fracPart s = some (f, t)) :
    s = f ++ t ∧ (f = [] ∨ f.head? = some 0x2E) ∧
      ∀ rest, EndsDigits rest → (f = [] → rest.head? ≠ some 0x2E) →
        fracPart (f ++ rest) = some (f, rest) := by
  have hempty : ∀ rest : GoString, rest.head? ≠ some 0x2E → fracPart rest = some ([], rest) := by
    intro _ hrest
    rw [fracPart]
    rintro u rfl
    exact hrest rfl
  by_cases hs : s.head? = some 0x2E
  · obtain ⟨u, rfl⟩ := head?_eq_some_iff.mp hs
    rw [fracPart, map_eq_some_iff] at h
    obtain ⟨⟨d, w⟩, hd, ⟨⟩⟩ := h
    obtain ⟨rfl, -, -, hagain⟩ := digits1_spec hd
    refine ⟨rfl, .inr rfl, fun rest hrest _ => ?_⟩
    rw [cons_append, fracPart, hagain rest hrest]
    rfl
  · rw [hempty s hs] at h
    cases h
    exact ⟨rfl, .inl rfl, fun rest _ hrest => hempty rest (hrest rfl)⟩

/-- `e` or `E`. -/
def isExponentMark (b : UInt8) : Bool := b == 0x65 || b == 0x45

lemma expPart_spec (h : expPart s = some (e, t)) :
    s = e ++ t ∧ (e = [] ∨ ∃ b u, e = b :: u ∧ isExponentMark b = true) ∧
      ∀ rest, EndsDigits rest → (e = [] → ∀ b ∈ rest.head?, isExponentMark b = false) →
        expPart (e ++ rest) = some (e, rest) := by
  have hempty : ∀ rest : GoString, (∀ b ∈ rest.head?, isExponentMark b = false) →
      expPart rest = some ([], rest) := by
    intro rest hrest
    obtain _ | ⟨b, u⟩ := rest
    · rfl
    have hb := hrest b (by simp)
    have hne : ¬ (b = 0x65 ∨ b = 0x45) := by simpa [isExponentMark] using hb
    simp [expPart, if_neg hne]
  by_cases hs : ∀ b ∈ s.head?, isExponentMark b = false
  · rw [hempty s hs] at h
    cases h
    exact ⟨rfl, .inl rfl, fun rest _ hrest => hempty rest (hrest rfl)⟩
  obtain _ | ⟨b, s⟩ := s
  · exact absurd (by simp) hs
  have hmark : isExponentMark b = true := by simpa using hs
  have hb : b = 0x65 ∨ b = 0x45 := by simpa [isExponentMark] using hmark
  obtain _ | ⟨c, u⟩ := s
  · simp [expPart, hb] at h
  simp only [expPart, if_pos hb] at h
  by_cases hc : c = 0x2B ∨ c = 0x2D
  · rw [if_pos hc, map_eq_some_iff] at h
    obtain ⟨⟨d, w⟩, hd, ⟨⟩⟩ := h
    obtain ⟨rfl, -, -, hagain⟩ := digits1_spec hd
    refine ⟨rfl, .inr ⟨b, c :: d, rfl, hmark⟩, fun rest hrest _ => ?_⟩
    simp only [cons_append, expPart, if_pos hb, if_pos hc, hagain rest hrest]
    rfl
  · rw [if_neg hc, map_eq_some_iff] at h
    obtain ⟨⟨d, w⟩, hd, ⟨⟩⟩ := h
    obtain ⟨hcu, hne, -, hagain⟩ := digits1_spec hd
    obtain ⟨_, u', rfl⟩ := exists_cons_of_ne_nil hne
    obtain ⟨rfl, rfl⟩ := cons.inj (hcu.trans (cons_append ..))
    refine ⟨rfl, .inr ⟨b, c :: u', rfl, hmark⟩, fun rest hrest _ => ?_⟩
    have hread := hagain rest hrest
    rw [cons_append] at hread
    simp only [cons_append, expPart, if_pos hb, if_neg hc, hread]
    rfl

lemma isDigit_cases {b : UInt8} (h : isDigit b = true) :
    b ≠ 0x2D ∧ b ≠ 0x2E ∧ isExponentMark b = false := by
  refine ⟨?_, ?_, ?_⟩
  · rintro rfl
    cases h
  · rintro rfl
    cases h
  rw [Bool.eq_false_iff]
  intro hmark
  have hb : b = 0x65 ∨ b = 0x45 := by simpa [isExponentMark] using hmark
  rcases hb with rfl | rfl
  all_goals cases h

/-- What follows a number literal without going on with it. -/
def BreaksNumber (rest : GoString) : Prop :=
  ∀ b ∈ rest.head?, isDigit b = false ∧ b ≠ 0x2E ∧ isExponentMark b = false

lemma BreaksNumber.digits (h : BreaksNumber rest) : EndsDigits rest :=
  fun b hb => (h b hb).1

/-- No digit follows where an exponent, or nothing more of the number, follows. -/
lemma endsDigits_exponent
    (he : e = [] ∨ ∃ b u, e = b :: u ∧ isExponentMark b = true) (hrest : BreaksNumber rest) :
    EndsDigits (e ++ rest) := by
  rcases he with rfl | ⟨c, u, rfl, hc⟩
  · exact hrest.digits
  intro c' hc'
  obtain rfl : c = c' := by simpa using hc'
  rw [Bool.eq_false_iff]
  intro hdigit
  rw [(isDigit_cases hdigit).2.2] at hc
  simp at hc

/-- What was read as a number is read so wherever the number breaks off behind it. -/
lemma parseNumber_again (h : parseNumber s = some (l, t)) :
    s = l ++ t ∧ (∀ rest, BreaksNumber rest → parseNumber (l ++ rest) = some (l, rest)) ∧
      ∃ b u, l = b :: u ∧ (b = 0x2D ∨ isDigit b = true) := by
  obtain ⟨sign, s', rfl, hsign, hdrop⟩ : ∃ sign s', s = sign ++ s' ∧
      (sign = [] ∧ s'.head? ≠ some 0x2D ∨ sign = [0x2D]) ∧
      (s.takeWhile (· == 0x2D)).take 1 = sign := by
    by_cases hs : s.head? = some 0x2D
    · obtain ⟨s', rfl⟩ := head?_eq_some_iff.mp hs
      exact ⟨[0x2D], s', rfl, .inr rfl, by simp⟩
    refine ⟨[], s, rfl, .inl ⟨rfl, hs⟩, ?_⟩
    cases s with
    | nil => rfl
    | cons b => simp [show b ≠ 0x2D by simpa using hs]
  rw [parseNumber, hdrop] at h
  simp only [drop_left] at h
  rcases hi : intPart s' with _ | p
  · simp [hi] at h
  obtain ⟨i, u⟩ := p
  obtain ⟨rfl, ⟨b, i', rfl, hb⟩, hiagain⟩ := intPart_spec hi
  rcases hf : fracPart u with _ | p
  · simp only [hi, hf] at h
    cases h
  obtain ⟨f, w⟩ := p
  obtain ⟨rfl, hfhead, hfagain⟩ := fracPart_spec hf
  simp only [hi, hf, map_eq_some_iff] at h
  obtain ⟨⟨e, x⟩, he, ⟨⟩⟩ := h
  obtain ⟨rfl, hehead, heagain⟩ := expPart_spec he
  refine ⟨by simp, ?_, ?_⟩
  · intro rest hrest
    -- what stands behind each part neither goes on with it nor starts the next one
    have hexp : expPart (e ++ rest) = some (e, rest) :=
      heagain rest hrest.digits fun _ c hc => (hrest c hc).2.2
    have hbehind := endsDigits_exponent hehead hrest
    have hfrac : fracPart (f ++ (e ++ rest)) = some (f, e ++ rest) := by
      refine hfagain _ hbehind ?_
      rcases hehead with rfl | ⟨c, _, rfl, hc⟩
      · intro _ hdot
        exact absurd rfl (hrest 0x2E hdot).2.1
      intro _ hdot
      obtain rfl : c = 0x2E := by simpa using hdot
      cases hc
    have hint : intPart (b :: i' ++ (f ++ (e ++ rest))) = some (b :: i', f ++ (e ++ rest)) := by
      refine hiagain _ ?_
      rcases hfhead with rfl | hdot
      · exact hbehind
      obtain ⟨_, rfl⟩ := head?_eq_some_iff.mp hdot
      intro c' hc'
      obtain rfl : 0x2E = c' := by simpa using hc'
      decide
    have htext : sign ++ (b :: i') ++ f ++ e ++ rest =
        sign ++ (b :: i' ++ (f ++ (e ++ rest))) := by simp
    have hsame : ((sign ++ (b :: i' ++ (f ++ (e ++ rest)))).takeWhile (· == 0x2D)).take 1 =
        sign := by
      rcases hsign with ⟨rfl, -⟩ | rfl
      · simp [(isDigit_cases hb).1]
      · simp
    rw [htext, parseNumber, hsame]
    simp only [drop_left, hint, hfrac, hexp]
    rfl
  · rcases hsign with ⟨rfl, -⟩ | rfl
    · exact ⟨b, i' ++ f ++ e, by simp, .inr hb⟩
    · exact ⟨0x2D, b :: i' ++ f ++ e, by simp, .inl rfl⟩

/-- **Number literals.**  What was read as a number is read so in any surroundings. -/
theorem parseNumber_spec (h : parseNumber s = some (l, t)) :
    s = l ++ t ∧ IsNumber l ∧ ∃ b u, l = b :: u ∧ (b = 0x2D ∨ isDigit b = true) := by
  obtain ⟨hs, hagain, hhead⟩ := parseNumber_again h
  exact ⟨hs, fun rest hrest => hagain rest fun b hb => by
    rcases hrest b hb with rfl | rfl | rfl <;> decide, hhead⟩

/-- A number literal starts with a sign or a digit. -/
lemma IsNumber.head (h : IsNumber l) : ∃ b u, l = b :: u ∧ (b = 0x2D ∨ isDigit b = true) := by
  have hread := h [] (by simp [EndsValue])
  exact (parseNumber_spec hread).2.2

lemma decodeUint64_formatUint (u : UInt64) :
    decodeUint64 0 [.number (formatUint u.toNat)] = some u := by
  have hdigits : (formatUint u.toNat).all isDigit = true :=
    all_eq_true.mpr fun b hb => formatUint_digits hb
  rw [decodeUint64, decimalValue_formatUint, if_pos ⟨hdigits, u.toNat_lt⟩, UInt64.ofNat_toNat]
  rfl

/-! ### Values -/

mutual

/-- The text of the value can be read, with `n` levels of nesting allowed. -/
def Legible : Value → ℕ → Prop
  | .null, _ | .bool _, _ | .string _, _ => True
  | .number l, _ => IsNumber l
  | .array items, n => 0 < n ∧ LegibleItems items (n - 1)
  | .object members, n => 0 < n ∧ LegibleMembers members (n - 1)

def LegibleItems : List Value → ℕ → Prop
  | [], _ => True
  | v :: vs, n => Legible v n ∧ LegibleItems vs n

def LegibleMembers : List (GoString × Value) → ℕ → Prop
  | [], _ => True
  | (_, v) :: ms, n => Legible v n ∧ LegibleMembers ms n

end

mutual

/-- The value as it is read back: stray bytes are replaced. -/
def clean : Value → Value
  | .null => .null
  | .bool b => .bool b
  | .number l => .number l
  | .string s => .string (toValidUTF8 s)
  | .array items => .array (cleanItems items)
  | .object members => .object (cleanMembers members)

def cleanItems : List Value → List Value
  | [] => []
  | v :: vs => clean v :: cleanItems vs

def cleanMembers : List (GoString × Value) → List (GoString × Value)
  | [] => []
  | (key, v) :: ms => (toValidUTF8 key, clean v) :: cleanMembers ms

end

variable {v : Value} {n : ℕ}

/-- The first byte of a text is neither blank nor the end of an array. -/
lemma render_head (h : Legible v n) :
    ∃ b u, render v = b :: u ∧ isSpace b = false ∧ b ≠ 0x5D := by
  cases v with
  | null => exact ⟨0x6E, lit "ull", by decide +kernel, by decide, by decide⟩
  | bool b =>
    cases b with
    | true => exact ⟨0x74, lit "rue", by decide +kernel, by decide, by decide⟩
    | false => exact ⟨0x66, lit "alse", by decide +kernel, by decide, by decide⟩
  | string => exact ⟨0x22, _, rfl, by decide, by decide⟩
  | array => exact ⟨0x5B, _, rfl, by decide, by decide⟩
  | object => exact ⟨0x7B, _, rfl, by decide, by decide⟩
  | number l =>
    obtain ⟨b, u, rfl, hb⟩ := IsNumber.head h
    refine ⟨b, u, rfl, ?_⟩
    rcases hb with rfl | hdigit
    · decide
    have hother : ∀ c, isDigit c = false → b ≠ c := by
      rintro c hc rfl
      rw [hdigit] at hc
      simp at hc
    refine ⟨?_, hother _ (by decide)⟩
    simp only [isSpace, Bool.or_eq_false_iff, beq_eq_false_iff_ne]
    exact ⟨⟨⟨hother _ (by decide), hother _ (by decide)⟩, hother _ (by decide)⟩,
      hother _ (by decide)⟩

variable {rest s : GoString} {b : UInt8} {a : ℕ}

lemma parseValue_number {l : GoString} (h : IsNumber l) (hrest : EndsValue rest)
    (fuel depth : ℕ) : parseValue (fuel + 1) depth (l ++ rest) = some (.number l, rest) := by
  obtain ⟨b, u, rfl, hb⟩ := h.head
  -- a sign or a digit starts neither a blank, a structured value nor one of the three words
  have hother : ∀ c, c ≠ 0x2D → isDigit c = false → b ≠ c := by
    rintro c hminus hc rfl
    rcases hb with hb | hb
    · exact hminus hb
    · rw [hb] at hc
      simp at hc
  have hword : ∀ w : GoString, (∀ c ∈ w.head?, c ≠ 0x2D ∧ isDigit c = false) → w ≠ [] →
      w.isPrefixOf (b :: (u ++ rest)) = false := by
    intro w hw hne
    obtain ⟨c, x, rfl⟩ := exists_cons_of_ne_nil hne
    obtain ⟨hminus, hdigit⟩ := hw c (by simp)
    have hcb : (c == b) = false := beq_eq_false_iff_ne.mpr (hother c hminus hdigit).symm
    rw [isPrefixOf_cons_cons, hcb, Bool.false_and]
  obtain ⟨_, _, hbu, hspace, -⟩ := render_head (v := .number (b :: u)) (n := 0) h
  cases hbu
  rw [cons_append, parseValue_scalar _ hspace
    ⟨hother _ (by decide) (by decide), hother _ (by decide) (by decide),
      hother _ (by decide) (by decide)⟩, parseScalar,
    hword _ (by decide +kernel) (by decide +kernel),
    hword _ (by decide +kernel) (by decide +kernel),
    hword _ (by decide +kernel) (by decide +kernel), ← cons_append, h rest hrest]
  rfl

/-- The three words. -/
lemma parseValue_word (fuel depth : ℕ) (rest : GoString) :
    parseValue (fuel + 1) depth (lit "null" ++ rest) = some (.null, rest) ∧
    parseValue (fuel + 1) depth (lit "true" ++ rest) = some (.bool true, rest) ∧
    parseValue (fuel + 1) depth (lit "false" ++ rest) = some (.bool false, rest) := by
  have hnull : lit "null" = [0x6E, 0x75, 0x6C, 0x6C] := by decide +kernel
  have htrue : lit "true" = [0x74, 0x72, 0x75, 0x65] := by decide +kernel
  have hfalse : lit "false" = [0x66, 0x61, 0x6C, 0x73, 0x65] := by decide +kernel
  rw [hnull, htrue, hfalse]
  refine ⟨?_, ?_, ?_⟩
  all_goals
    rw [cons_append, parseValue_scalar _ (by decide) (by decide)]
    simp [parseScalar, hnull, htrue, hfalse]

lemma parseValue_string (s rest : GoString) (fuel depth : ℕ) :
    parseValue (fuel + 1) depth (quote s ++ rest) = some (.string (toValidUTF8 s), rest) := by
  have htext : quote s ++ rest = 0x22 :: ((runes s).flatMap escapeRune ++ 0x22 :: rest) := by
    simp [quote]
  rw [htext, parseValue, skipSpace_cons (by decide)]
  simp only
  rw [parseString_quote]
  rfl

lemma endsValue_cons (h : b = 0x2C ∨ b = 0x5D ∨ b = 0x7D) (t : GoString) :
    EndsValue (b :: t) := by
  intro c hc
  obtain rfl : b = c := by simpa using hc
  exact h

mutual

lemma parseValue_render : ∀ (v : Value) {fuel depth : ℕ} {rest : GoString}, Legible v depth →
    (render v).length < fuel → EndsValue rest →
    parseValue fuel depth (render v ++ rest) = some (clean v, rest)
  | v, 0, _, _, _, hfuel, _ => absurd hfuel (Nat.not_lt_zero _)
  | .null, fuel + 1, depth, rest, _, _, _ => (parseValue_word fuel depth rest).1
  | .bool true, fuel + 1, depth, rest, _, _, _ => (parseValue_word fuel depth rest).2.1
  | .bool false, fuel + 1, depth, rest, _, _, _ => (parseValue_word fuel depth rest).2.2
  | .number l, fuel + 1, depth, rest, h, _, hrest => parseValue_number h hrest fuel depth
  | .string s, fuel + 1, depth, rest, _, _, _ => parseValue_string s rest fuel depth
  | .array [], fuel + 1, depth, rest, h, _, _ => by
    have hdepth : ¬ depth = 0 := Nat.pos_iff_ne_zero.mp h.1
    simp [render, renderItems, parseValue, skipSpace_cons, isSpace, hdepth, clean, cleanItems]
  | .array (v :: vs), fuel + 1, depth, rest, h, hfuel, _ => by
    have hdepth : ¬ depth = 0 := Nat.pos_iff_ne_zero.mp h.1
    have htext : render (.array (v :: vs)) ++ rest =
        0x5B :: (renderItems (v :: vs) ++ 0x5D :: rest) := by simp [render]
    have hlen : (renderItems (v :: vs)).length + 1 < fuel := by
      simp [render] at hfuel
      omega
    obtain ⟨b, u, hbu⟩ : ∃ b u, renderItems (v :: vs) = b :: u ∧ isSpace b = false ∧ b ≠ 0x5D := by
      obtain ⟨b, u, hu, hb⟩ := render_head h.2.1
      cases vs with
      | nil => exact ⟨b, u, hu, hb⟩
      | cons => exact ⟨b, _, by rw [renderItems, hu, cons_append], hb⟩
    have hread := parseItems_render (v :: vs) (cons_ne_nil _ _) h.2 hlen rest
    rw [htext, parseValue, skipSpace_cons (by decide)]
    simp only [hdepth, if_false]
    rw [hbu.1, cons_append, skipSpace_cons hbu.2.1,
      if_neg (by simpa using hbu.2.2), ← cons_append, ← hbu.1, hread]
    rfl
  | .object [], fuel + 1, depth, rest, h, _, _ => by
    have hdepth : ¬ depth = 0 := Nat.pos_iff_ne_zero.mp h.1
    simp [render, renderMembers, parseValue, skipSpace_cons, isSpace, hdepth, clean, cleanMembers]
  | .object (m :: ms), fuel + 1, depth, rest, h, hfuel, _ => by
    have hdepth : ¬ depth = 0 := Nat.pos_iff_ne_zero.mp h.1
    have htext : render (.object (m :: ms)) ++ rest =
        0x7B :: (renderMembers (m :: ms) ++ 0x7D :: rest) := by simp [render]
    have hlen : (renderMembers (m :: ms)).length + 1 < fuel := by
      simp [render] at hfuel
      omega
    obtain ⟨u, hu⟩ := head?_eq_some_iff.mp (renderMembers_head (cons_ne_nil m ms))
    have hread := parseMembers_render (m :: ms) (cons_ne_nil _ _) h.2 hlen rest
    rw [htext, parseValue, skipSpace_cons (by decide)]
    simp only [hdepth, if_false]
    rw [hu, cons_append, skipSpace_cons (by decide), head?_cons, ← cons_append, ← hu, hread]
    rfl

lemma parseItems_render : ∀ (items : List Value), items ≠ [] → ∀ {fuel depth : ℕ},
    LegibleItems items depth → (renderItems items).length + 1 < fuel → ∀ rest,
    parseItems fuel depth (renderItems items ++ 0x5D :: rest) = some (cleanItems items, rest)
  | [], hne, _, _, _, _, _ => absurd rfl hne
  | _ :: _, _, 0, _, _, hfuel, _ => absurd hfuel (Nat.not_lt_zero _)
  | [v], _, fuel + 1, depth, h, hfuel, rest => by
    have hends : EndsValue (0x5D :: rest) := endsValue_cons (by simp) rest
    have hread := parseValue_render v h.1 (Nat.lt_of_succ_lt_succ hfuel) hends
    rw [renderItems, parseItems, hread]
    rfl
  | v :: w :: vs, _, fuel + 1, depth, h, hfuel, rest => by
    have hlen : (render v).length + 1 + (renderItems (w :: vs)).length < fuel := by
      simp [renderItems] at hfuel
      omega
    have hends : EndsValue (0x2C :: (renderItems (w :: vs) ++ 0x5D :: rest)) :=
      endsValue_cons (by simp) _
    have hfirst : (render v).length < fuel := by omega
    have hothers : (renderItems (w :: vs)).length + 1 < fuel := by omega
    have hread := parseValue_render v h.1 hfirst hends
    have hmore := parseItems_render (w :: vs) (cons_ne_nil _ _) h.2 hothers rest
    have htext : renderItems (v :: w :: vs) ++ 0x5D :: rest =
        render v ++ 0x2C :: (renderItems (w :: vs) ++ 0x5D :: rest) := by simp [renderItems]
    rw [htext, parseItems, hread]
    simp only [hends.skipSpace_eq, hmore]
    rfl

lemma parseMembers_render : ∀ (ms : List (GoString × Value)), ms ≠ [] → ∀ {fuel depth : ℕ},
    LegibleMembers ms depth → (renderMembers ms).length + 1 < fuel → ∀ rest,
    parseMembers fuel depth (renderMembers ms ++ 0x7D :: rest) = some (cleanMembers ms, rest)
  | [], hne, _, _, _, _, _ => absurd rfl hne
  | _ :: _, _, 0, _, _, hfuel, _ => absurd hfuel (Nat.not_lt_zero _)
  | [(key, v)], _, fuel + 1, depth, h, hfuel, rest => by
    have hlen : (render v).length < fuel := by
      simp [renderMembers] at hfuel
      omega
    have hends : EndsValue (0x7D :: rest) := endsValue_cons (by simp) rest
    have hread := parseValue_render v h.1 hlen hends
    have htext : renderMembers [(key, v)] ++ 0x7D :: rest =
        0x22 :: ((runes key).flatMap escapeRune ++ 0x22 :: 0x3A :: (render v ++ 0x7D :: rest)) := by
      simp [renderMembers, quote]
    rw [htext, parseMembers, skipSpace_cons (by decide)]
    simp only [parseString_quote]
    rw [skipSpace_cons (by decide)]
    simp only [hread, hends.skipSpace_eq]
    rfl
  | (key, v) :: m :: ms, _, fuel + 1, depth, h, hfuel, rest => by
    have hlen : (render v).length + 1 + (renderMembers (m :: ms)).length < fuel := by
      simp [renderMembers] at hfuel
      omega
    have hends : EndsValue (0x2C :: (renderMembers (m :: ms) ++ 0x7D :: rest)) :=
      endsValue_cons (by simp) _
    have hfirst : (render v).length < fuel := by omega
    have hothers : (renderMembers (m :: ms)).length + 1 < fuel := by omega
    have hread := parseValue_render v h.1 hfirst hends
    have hmore := parseMembers_render (m :: ms) (cons_ne_nil _ _) h.2 hothers rest
    have htext : renderMembers ((key, v) :: m :: ms) ++ 0x7D :: rest =
        0x22 :: ((runes key).flatMap escapeRune ++ 0x22 :: 0x3A ::
          (render v ++ 0x2C :: (renderMembers (m :: ms) ++ 0x7D :: rest))) := by
      simp [renderMembers, quote]
    rw [htext, parseMembers, skipSpace_cons (by decide)]
    simp only [parseString_quote]
    rw [skipSpace_cons (by decide)]
    simp only [hread, hends.skipSpace_eq, hmore]
    rfl

end

/-- **Whole texts.** -/
theorem exactParse_render (h : Legible v 10000) : exactParse (render v) = some (clean v) := by
  have hends : EndsValue [] := by simp [EndsValue]
  have hread := parseValue_render v h (Nat.lt_succ_self _) hends
  rw [append_nil] at hread
  rw [exactParse, hread]
  rfl

/-! ### Strings without marks -/

/-- The bytes of a well-formed encoding are no marks. -/
lemma lt_of_isRune {e : GoString} (he : IsRune e) : ∀ b ∈ e, b < 0xF8 := by
  have hsecond : ∀ {a b : UInt8}, isSecond a b = true → b < 0xF8 := by
    intro a b h
    simp only [isSecond, isCont] at h
    grind
  have hcont : ∀ {b : UInt8}, isCont b = true → b < 0xF8 := by
    intro b h
    simp only [isCont] at h
    grind
  obtain ⟨hne, hlen⟩ := he
  revert hlen
  fun_cases runeLen e
  all_goals grind

lemma lossy_append {e : GoString} (he : IsRune e) (t : GoString) : lossy (e ++ t) = e ++ lossy t := by
  have hbytes := lt_of_isRune he
  -- the induction is on the bytes, of which only that they are no marks is known
  clear he
  induction e with
  | nil => rfl
  | cons b e ih =>
    obtain ⟨hb, he⟩ := forall_mem_cons.mp hbytes
    have hFF : b ≠ 0xFF := by
      rintro rfl
      exact absurd hb (by decide)
    have hFE : b ≠ 0xFE := by
      rintro rfl
      exact absurd hb (by decide)
    rw [cons_append, cons_append, ← ih he]
    simp [lossy, hFF, hFE]

lemma lossy_toValidUTF8 (s : GoString) : lossy (toValidUTF8 s) = toValidUTF8 s := by
  induction s using runeInduction with
  | nil => rfl
  | stray _ _ h ih => rw [toValidUTF8_stray h, lossy_append isRune_replacement, ih]
  | encoded _ _ he ih => rw [toValidUTF8_append he, lossy_append he, ih]

mutual

lemma lossyValue_clean : ∀ v : Value, lossyValue (clean v) = clean v
  | .null | .bool _ | .number _ => rfl
  | .string s => by rw [clean, lossyValue, lossy_toValidUTF8]
  | .array items => by rw [clean, lossyValue, lossyItems_clean items]
  | .object ms => by rw [clean, lossyValue, lossyMembers_clean ms]

lemma lossyItems_clean : ∀ items : List Value, lossyItems (cleanItems items) = cleanItems items
  | [] => rfl
  | v :: vs => by rw [cleanItems, lossyItems, lossyValue_clean v, lossyItems_clean vs]

lemma lossyMembers_clean : ∀ ms : List (GoString × Value),
    lossyMembers (cleanMembers ms) = cleanMembers ms
  | [] => rfl
  | (key, v) :: ms => by
    rw [cleanMembers, lossyMembers, lossy_toValidUTF8, lossyValue_clean v, lossyMembers_clean ms]

end

theorem parse_render (h : Legible v 10000) : parse (render v) = some (clean v) := by
  rw [parse, exactParse_render h, Option.map_some, lossyValue_clean]

/-! ### What was read -/

lemma isRune_byte (h : b < 0x80) : IsRune [b] := ⟨by simp, by simp [runeLen, h]⟩

lemma toNat_ofNat {m : ℕ} (h : m < 256) : (ofNat m).toNat = m :=
  toNat_ofNat_of_lt' h

lemma isCont_ofNat {m : ℕ} (h : 0x80 ≤ m) (h' : m ≤ 0xBF) : isCont (ofNat m) = true := by
  simp only [isCont, Bool.and_eq_true, decide_eq_true_eq, le_iff_toNat_le,
    toNat_ofNat (show m < 256 by omega)]
  exact ⟨h, h'⟩

lemma isSecond_ofNat {b : ℕ} (h : a < 256 ∧ 0x80 ≤ b ∧ b ≤ 0xBF ∧ (a = 0xE0 → 0xA0 ≤ b) ∧
    (a = 0xED → b ≤ 0x9F) ∧ (a = 0xF0 → 0x90 ≤ b) ∧ (a = 0xF4 → b ≤ 0x8F)) :
    isSecond (ofNat a) (ofNat b) = true := by
  obtain ⟨ha, h, h', hE0, hED, hF0, hF4⟩ := h
  have heq : ∀ c : UInt8, ofNat a = c ↔ a = c.toNat := by
    intro c
    rw [← UInt8.toNat_inj, toNat_ofNat ha]
  have hle : ∀ c : UInt8, (c ≤ ofNat b ↔ c.toNat ≤ b) ∧ (ofNat b ≤ c ↔ b ≤ c.toNat) := by
    intro c
    rw [le_iff_toNat_le, le_iff_toNat_le, toNat_ofNat (show b < 256 by omega)]
    exact ⟨Iff.rfl, Iff.rfl⟩
  simp only [isSecond, isCont, heq, hle, reduceToNat]
  split
  · simpa using ⟨hE0 ‹_›, h'⟩
  split
  · simpa using ⟨h, hED ‹_›⟩
  split
  · simpa using ⟨hF0 ‹_›, h'⟩
  split
  · simpa using ⟨h, hF4 ‹_›⟩
  · simpa using ⟨h, h'⟩

/-- Comparisons with a byte that is given by its number. -/
lemma ofNat_compare (ha : a < 256) (c : UInt8) :
    (c ≤ ofNat a ↔ c.toNat ≤ a) ∧ (ofNat a ≤ c ↔ a ≤ c.toNat) ∧
      (ofNat a < c ↔ a < c.toNat) := by
  rw [le_iff_toNat_le, le_iff_toNat_le, lt_iff_toNat_lt, toNat_ofNat ha]
  exact ⟨Iff.rfl, Iff.rfl, Iff.rfl⟩

lemma isRune_two (ha : 0xC2 ≤ a) (ha' : a ≤ 0xDF)
    (hb : isSecond (ofNat a) b = true) : IsRune [ofNat a, b] := by
  have hcompare := ofNat_compare (show a < 256 by omega)
  have h80 : ¬ a < 0x80 := by omega
  refine ⟨by simp, ?_⟩
  simp [runeLen, hcompare, h80, ha, ha', hb]

lemma isRune_three {c : UInt8} (ha : 0xE0 ≤ a) (ha' : a ≤ 0xEF)
    (hb : isSecond (ofNat a) b = true) (hc : isCont c = true) :
    IsRune [ofNat a, b, c] := by
  have hcompare := ofNat_compare (show a < 256 by omega)
  have h80 : ¬ a < 0x80 := by omega
  have hDF : ¬ a ≤ 0xDF := by omega
  refine ⟨by simp, ?_⟩
  simp [runeLen, hcompare, h80, hDF, ha, ha', hb, hc]

lemma isRune_four {c d : UInt8} (ha : 0xF0 ≤ a) (ha' : a ≤ 0xF4)
    (hb : isSecond (ofNat a) b = true) (hc : isCont c = true) (hd : isCont d = true) :
    IsRune [ofNat a, b, c, d] := by
  have hcompare := ofNat_compare (show a < 256 by omega)
  have h80 : ¬ a < 0x80 := by omega
  have hDF : ¬ a ≤ 0xDF := by omega
  have hEF : ¬ a ≤ 0xEF := by omega
  refine ⟨by simp, ?_⟩
  simp [runeLen, hcompare, h80, hDF, hEF, ha, ha', hb, hc, hd]

lemma isRune_encodeRune (h : n < 0x110000) : IsRune (encodeRune n) := by
  have hcont : ∀ k : ℕ, isCont (ofNat (0x80 + k % 64)) = true := fun k =>
    isCont_ofNat (by omega) (by omega)
  rw [encodeRune]
  split
  · exact isRune_byte (((ofNat_compare (by omega) _).2.2).mpr ‹_›)
  split
  · exact isRune_two (by omega) (by omega) (isSecond_ofNat (by omega))
  split
  · exact isRune_replacement
  split
  · exact isRune_three (by omega) (by omega) (isSecond_ofNat (by omega)) (hcont _)
  · exact isRune_four (by omega) (by omega) (isSecond_ofNat (by omega)) (hcont _) (hcont _)

lemma hexValue_lt (h : hexValue b = some n) : n < 16 := by
  simp only [hexValue, le_iff_toNat_le, Bool.and_eq_true, decide_eq_true_eq,
    reduceToNat] at h
  split at h
  · simp only [some.injEq] at h
    omega
  split at h
  · simp only [some.injEq] at h
    omega
  split at h
  · simp only [some.injEq] at h
    omega
  · cases h

lemma hex4_lt {t : GoString} (h : hex4 s = some (n, t)) : n < 0x10000 := by
  match s, h with
  | a :: b :: c :: d :: u, h =>
    rw [hex4] at h
    split at h
    · rename_i hw hx hy hz
      have := hexValue_lt hw
      have := hexValue_lt hx
      have := hexValue_lt hy
      have := hexValue_lt hz
      simp only [some.injEq, Prod.mk.injEq] at h
      omega
    · cases h

/-- The character is read as one rune. -/
def ReadsRune (out : GoString) : Prop := ∃ e, IsRune e ∧ ∀ t, lossy (out ++ t) = e ++ lossy t

lemma readsRune_of_isRune (he : IsRune out) : ReadsRune out := ⟨out, he, lossy_append he⟩

/-- Marks are read as U+FFFD. -/
lemma readsRune_strayByte (b : UInt8) : ReadsRune (strayByte b) :=
  ⟨replacement, isRune_replacement, fun _ => rfl⟩

lemma readsRune_loneSurrogate (r : ℕ) : ReadsRune (loneSurrogate r) :=
  ⟨replacement, isRune_replacement, fun _ => rfl⟩

lemma unicodeEscape_rune (h : unicodeEscape s = some (out, rest)) : ReadsRune out := by
  rw [unicodeEscape] at h
  split at h
  · cases h
  rename_i hr
  have hlt := hex4_lt hr
  split at h
  · split at h
    · split at h
      · rename_i hr'
        split at h
        · have := hex4_lt hr'
          obtain ⟨rfl, -⟩ := Prod.mk.inj (some.inj h)
          exact readsRune_of_isRune (isRune_encodeRune (by omega))
        · cases h
          exact readsRune_loneSurrogate _
      · cases h
        exact readsRune_loneSurrogate _
    · cases h
      exact readsRune_loneSurrogate _
  · cases h
    exact readsRune_of_isRune (isRune_encodeRune (by omega))

lemma simpleEscape_lt {e : UInt8} (h : simpleEscape e = some b) : b < 0x80 := by
  simp only [simpleEscape] at h
  split at h
  · rename_i he
    cases h
    rcases he with rfl | rfl | rfl <;> decide
  split_ifs at h
  all_goals exact some.inj h ▸ by decide

lemma strItem_rune (h : strItem s = some (out, rest)) : ReadsRune out := by
  obtain _ | ⟨a, t⟩ := s
  · simp [strItem] at h
  simp only [strItem] at h
  split at h
  · split at h
    · cases h
    split at h
    · exact unicodeEscape_rune h
    obtain ⟨b, hb, ⟨⟩⟩ := map_eq_some_iff.mp h
    exact readsRune_of_isRune (isRune_byte (simpleEscape_lt hb))
  split at h
  · cases h
  split at h
  · cases h
    exact readsRune_strayByte _
  rename_i hn
  cases h
  exact readsRune_of_isRune (isRune_take hn)

lemma strBody_clean {fuel : ℕ} (h : strBody fuel s = some (out, rest)) :
    toValidUTF8 (lossy out) = lossy out := by
  induction fuel generalizing s out rest with
  | zero => cases h
  | succ _ ih =>
    obtain _ | ⟨a, t⟩ := s
    · cases h
    rw [strBody] at h
    split at h
    · cases h
      rfl
    split at h
    · cases h
    rename_i hitem
    obtain ⟨⟨_, _⟩, hbody, ⟨⟩⟩ := map_eq_some_iff.mp h
    obtain ⟨_, he, hread⟩ := strItem_rune hitem
    rw [hread, toValidUTF8_append he, ih hbody]

/-- What Go makes of what is read with some fuel is legible and clean. -/
lemma parse_sound (fuel : ℕ) :
    (∀ {depth s v t}, parseValue fuel depth s = some (v, t) →
      Legible (lossyValue v) depth ∧ clean (lossyValue v) = lossyValue v) ∧
    (∀ {depth s items t}, parseItems fuel depth s = some (items, t) →
      LegibleItems (lossyItems items) depth ∧ cleanItems (lossyItems items) = lossyItems items) ∧
    (∀ {depth s ms t}, parseMembers fuel depth s = some (ms, t) →
      LegibleMembers (lossyMembers ms) depth ∧
        cleanMembers (lossyMembers ms) = lossyMembers ms) := by
  induction fuel with
  | zero => simp [parseValue, parseItems, parseMembers]
  | succ _ ih =>
    obtain ⟨ihv, ihi, ihm⟩ := ih
    refine ⟨fun {depth s v t} h => ?_, fun {depth s items t} h => ?_, fun {depth s ms t} h => ?_⟩
    · rw [parseValue] at h
      split at h
      · split at h
        · cases h
        rename_i hdepth
        split at h
        · cases h
          exact ⟨⟨Nat.pos_of_ne_zero hdepth, trivial⟩, rfl⟩
        obtain ⟨⟨_, _⟩, hms, ⟨⟩⟩ := map_eq_some_iff.mp h
        obtain ⟨hlegible, hclean⟩ := ihm hms
        exact ⟨⟨Nat.pos_of_ne_zero hdepth, hlegible⟩, by rw [lossyValue, clean, hclean]⟩
      · split at h
        · cases h
        rename_i hdepth
        split at h
        · cases h
          exact ⟨⟨Nat.pos_of_ne_zero hdepth, trivial⟩, rfl⟩
        obtain ⟨⟨_, _⟩, hitems, ⟨⟩⟩ := map_eq_some_iff.mp h
        obtain ⟨hlegible, hclean⟩ := ihi hitems
        exact ⟨⟨Nat.pos_of_ne_zero hdepth, hlegible⟩, by rw [lossyValue, clean, hclean]⟩
      · obtain ⟨⟨_, _⟩, hstr, ⟨⟩⟩ := map_eq_some_iff.mp h
        rw [lossyValue, clean, strBody_clean hstr]
        exact ⟨trivial, rfl⟩
      rw [parseScalar] at h
      -- the three literals
      iterate 3
        split at h
        · cases h
          exact ⟨trivial, rfl⟩
      obtain ⟨⟨l, _⟩, hl, ⟨⟩⟩ := map_eq_some_iff.mp h
      exact ⟨(parseNumber_spec hl).2.1, rfl⟩
    · rw [parseItems] at h
      split at h
      · cases h
      rename_i hv
      obtain ⟨hlegible, hclean⟩ := ihv hv
      split at h
      · obtain ⟨⟨_, _⟩, hvs, ⟨⟩⟩ := map_eq_some_iff.mp h
        obtain ⟨hlegibles, hcleans⟩ := ihi hvs
        rw [lossyItems, cleanItems, hclean, hcleans]
        exact ⟨⟨hlegible, hlegibles⟩, rfl⟩
      · cases h
        rw [lossyItems, cleanItems, hclean]
        exact ⟨⟨hlegible, trivial⟩, rfl⟩
      · cases h
    · rw [parseMembers] at h
      split at h
      · split at h
        · cases h
        rename_i hkey
        split at h
        · split at h
          · cases h
          rename_i hv
          obtain ⟨hlegible, hclean⟩ := ihv hv
          split at h
          · obtain ⟨⟨_, _⟩, hms, ⟨⟩⟩ := map_eq_some_iff.mp h
            obtain ⟨hlegibles, hcleans⟩ := ihm hms
            rw [lossyMembers, cleanMembers, hclean, hcleans, strBody_clean hkey]
            exact ⟨⟨hlegible, hlegibles⟩, rfl⟩
          · cases h
            rw [lossyMembers, cleanMembers, hclean, strBody_clean hkey]
            exact ⟨⟨hlegible, trivial⟩, rfl⟩
          · cases h
        · cases h
      · cases h

/-- **What was read** is legible and has nothing left to replace. -/
theorem parse_legible (h : parse s = some v) : Legible v 10000 ∧ clean v = v := by
  obtain ⟨x, hx, rfl⟩ := map_eq_some_iff.mp h
  rw [exactParse] at hx
  split at hx
  · rename_i hread
    split at hx
    · cases hx
      exact (parse_sound _).1 hread
    · cases hx
  · cases hx

end GoJson
