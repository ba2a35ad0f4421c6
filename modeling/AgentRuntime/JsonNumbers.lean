/-
JSON numbers as Go reads and writes them when they pass through a `float64`.

A number literal denotes a rational number.  Decoded into an `any` it becomes the
nearest double, or an error if there is none, and encoded again it becomes a shortest
decimal that denotes the double: without an exponent from 1e-6 up to 1e21, with one
outside.  The second literal need not denote what the first one did, but from then on
nothing changes any more.

* **`floatText_again`** — a literal that was written for a double is a number literal
  and is kept as it is.
-/
import AgentRuntime.Binary64
import AgentRuntime.JsonTexts

namespace GoJson

open GoString Binary64 List Option

/-! ### What a literal denotes -/

/-- A literal with a minus sign. -/
def negative (l : GoString) : Bool := l.head? == some 0x2D

/-- A literal without its sign. -/
def unsigned (l : GoString) : GoString := if negative l then l.tail else l

/-- The digits of an exponent, behind its mark. -/
def exponentValue : GoString → ℤ
  | 0x2D :: d => -(decimalValue d : ℤ)
  | 0x2B :: d => decimalValue d
  | d => decimalValue d

/-- The magnitude of a literal. -/
def literalDecimal (l : GoString) : Decimal :=
  let mantissa := (unsigned l).takeWhile (!isExponentMark ·)
  let exponent := ((unsigned l).dropWhile (!isExponentMark ·)).drop 1
  let fraction := (mantissa.dropWhile isDigit).drop 1
  ⟨decimalValue (mantissa.takeWhile isDigit ++ fraction), exponentValue exponent - fraction.length⟩

/-- The number that a literal denotes. -/
def literalValue (l : GoString) : ℚ :=
  if negative l then -(literalDecimal l).value else (literalDecimal l).value

/-! ### Doubles -/

/-- `strconv.ParseFloat`: the sign and the magnitude of the nearest double; `none` for a
number that is out of range. -/
def parseFloat (l : GoString) : Option (Bool × ℚ) :=
  (read (literalDecimal l).value).map fun x => (negative l, x)

def zeros (n : ℕ) : GoString := List.replicate n 0x30

/-- The part of a literal behind its whole digits. -/
def point (fraction : GoString) : GoString := if fraction = [] then [] else 0x2E :: fraction

/-- The end of a literal. -/
def exponentText : Option ℤ → GoString
  | none => []
  | some e => 0x65 :: (if e < 0 then 0x2D else 0x2B) :: formatUint e.natAbs

/-- A literal from its parts. -/
def literalOf (neg : Bool) (whole fraction : GoString) (exponent : Option ℤ) : GoString :=
  (if neg then [0x2D] else []) ++ (whole ++ (point fraction ++ exponentText exponent))

/-- How many digits of the decimal stand before the point. -/
def pointAt (d : Decimal) : ℤ := (formatUint d.digits).length + d.exponent

/-- `strconv.FormatFloat` in the format `f`. -/
def plainText (neg : Bool) (d : Decimal) : GoString :=
  let s := formatUint d.digits
  if d.digits = 0 then literalOf neg [0x30] [] none
  else if pointAt d ≤ 0 then literalOf neg [0x30] (zeros (-pointAt d).toNat ++ s) none
  else if pointAt d < s.length then
    literalOf neg (s.take (pointAt d).toNat) (s.drop (pointAt d).toNat) none
  else literalOf neg (s ++ zeros d.exponent.toNat) [] none

/-- `strconv.FormatFloat` in the format `e`, with the exponent as JSON texts have it. -/
def scientificText (neg : Bool) (d : Decimal) : GoString :=
  literalOf neg ((formatUint d.digits).take 1) ((formatUint d.digits).drop 1)
    (some (pointAt d - 1))

/-- A double as the encoder writes it; the bounds are doubles, too. -/
def formatFloat (neg : Bool) (x : ℚ) : GoString :=
  if x ≠ 0 ∧ (x < nearest (1 / 10 ^ 6) ∨ 10 ^ 21 ≤ x) then scientificText neg (shortest x)
  else plainText neg (shortest x)

/-- A literal after one pass through a `float64`. -/
def floatText (l : GoString) : Option GoString := (parseFloat l).map fun p => formatFloat p.1 p.2

/-- The literal denotes the same number after a pass through a `float64`. -/
def Kept (l : GoString) : Prop := ∃ t, floatText l = some t ∧ literalValue t = literalValue l

/-! ### The parts of a literal -/

lemma decimalValue_append (s t : GoString) :
    decimalValue (s ++ t) = decimalValue s * 10 ^ t.length + decimalValue t := by
  simp only [decimalValue, reverse_append, map_append, Nat.ofDigits_append,
    length_map, length_reverse]
  ring

lemma decimalValue_zeros (n : ℕ) : decimalValue (zeros n) = 0 := by
  induction n with
  | zero => rfl
  | succ n ih =>
    have hsplit : zeros (n + 1) = [0x30] ++ zeros n := rfl
    have hzero : decimalValue [0x30] = 0 := rfl
    rw [hsplit, decimalValue_append, ih, hzero, Nat.zero_mul]

variable {t s fraction l : GoString} {exponent : Option ℤ} {d : Decimal}

/-- A stretch of bytes ends where the predicate fails. -/
lemma span_append {p : UInt8 → Bool} (hs : ∀ b ∈ s, p b = true)
    (ht : ∀ b ∈ t.head?, p b = false) :
    (s ++ t).takeWhile p = s ∧ (s ++ t).dropWhile p = t := by
  rw [takeWhile_append_of_pos hs, dropWhile_append_of_pos hs]
  cases t with
  | nil => simp
  | cons b => simp [ht b rfl]

lemma head_point : ∀ b ∈ (point fraction).head?, b = 0x2E := by
  intro b hb
  rw [point] at hb
  split at hb
  · cases hb
  · simpa using hb.symm

lemma drop_point (fraction : GoString) : (point fraction).drop 1 = fraction := by
  rw [point]
  split
  · rename_i h
    rw [h]
    rfl
  · rfl

lemma head_exponentText : ∀ b ∈ (exponentText exponent).head?, b = 0x65 := by
  intro b hb
  cases exponent with
  | none => cases hb
  | some => simpa [exponentText] using hb.symm

lemma exponentValue_exponentText (exponent : Option ℤ) :
    exponentValue ((exponentText exponent).drop 1) = exponent.getD 0 := by
  obtain _ | e := exponent
  · rfl
  rw [exponentText, drop_one, tail_cons]
  split
  all_goals
    rw [exponentValue, decimalValue_formatUint, getD_some]
    omega

/-- What may stand behind the whole digits, and behind the fraction. -/
lemma head_append {p : UInt8 → Prop} (hs : ∀ b ∈ s.head?, p b)
    (ht : ∀ b ∈ t.head?, p b) : ∀ b ∈ (s ++ t).head?, p b := by
  cases s with
  | nil => exact ht
  | cons => exact fun b hb => hs b (by simpa using hb)

section Literals

variable {whole : GoString} (neg : Bool) (hwhole : ∀ b ∈ whole, isDigit b = true) (hne : whole ≠ [])
  (hfraction : ∀ b ∈ fraction, isDigit b = true)

include hwhole hne

lemma negative_literalOf : negative (literalOf neg whole fraction exponent) = neg := by
  cases neg with
  | true => rfl
  | false =>
    obtain ⟨b, t, rfl⟩ := exists_cons_of_ne_nil hne
    simp [negative, literalOf, (isDigit_cases (hwhole b mem_cons_self)).1]

lemma unsigned_literalOf : unsigned (literalOf neg whole fraction exponent) =
    whole ++ (point fraction ++ exponentText exponent) := by
  rw [unsigned, negative_literalOf neg hwhole hne]
  cases neg with
  | true | false => rfl

include hfraction

lemma literalDecimal_literalOf : literalDecimal (literalOf neg whole fraction exponent) =
    ⟨decimalValue (whole ++ fraction), exponent.getD 0 - fraction.length⟩ := by
  have hmantissa : ∀ b ∈ whole ++ point fraction, (!isExponentMark b) = true := by
    intro b hb
    rw [Bool.not_eq_true']
    rcases mem_append.mp hb with hb | hb
    · exact (isDigit_cases (hwhole b hb)).2.2
    rw [point] at hb
    split at hb
    · cases hb
    rcases mem_cons.mp hb with rfl | hb
    · rfl
    · exact (isDigit_cases (hfraction b hb)).2.2
  have hmark : ∀ b ∈ (exponentText exponent).head?, (!isExponentMark b) = false := by
    intro b hb
    rw [head_exponentText b hb]
    rfl
  have hpoint : ∀ b ∈ (point fraction).head?, isDigit b = false := by
    intro b hb
    rw [head_point b hb]
    decide
  obtain ⟨htake, hdrop⟩ := span_append hmantissa hmark
  obtain ⟨hdigits, hbehind⟩ := span_append hwhole hpoint
  simp only [literalDecimal, unsigned_literalOf neg hwhole hne, ← append_assoc, htake, hdrop,
    hdigits, hbehind, drop_point, exponentValue_exponentText]

/-- The parts of a number literal make a number literal. -/
lemma isNumber_literalOf
    (hint : ∀ rest, EndsDigits rest → intPart (whole ++ rest) = some (whole, rest)) :
    IsNumber (literalOf neg whole fraction exponent) := by
  intro rest hrest
  have hafter : ∀ b ∈ (exponentText exponent ++ rest).head?, isDigit b = false ∧ b ≠ 0x2E := by
    refine head_append (fun b hb => ?_) fun b hb => ?_
    · rw [head_exponentText b hb]
      decide
    · rcases hrest b hb with rfl | rfl | rfl <;> decide
  have hexp : expPart (exponentText exponent ++ rest) = some (exponentText exponent, rest) := by
    obtain _ | e := exponent
    · exact expPart_of_ends hrest
    have hread := digits1_append (formatUint_ne_nil e.natAbs)
      (fun b hb => formatUint_digits hb) hrest.not_digit
    have hsign : (if e < 0 then (0x2D : UInt8) else 0x2B) = 0x2B ∨
        (if e < 0 then (0x2D : UInt8) else 0x2B) = 0x2D := by
      split
      · exact .inr rfl
      · exact .inl rfl
    simp only [exponentText, cons_append, expPart, true_or, if_true, if_pos hsign, hread,
      map_some]
  have hfrac : fracPart (point fraction ++ (exponentText exponent ++ rest)) =
      some (point fraction, exponentText exponent ++ rest) := by
    rw [point]
    split
    · rw [nil_append, fracPart]
      rintro t ht
      exact (hafter 0x2E (by simp [ht])).2 rfl
    rename_i hfne
    rw [cons_append, fracPart, digits1_append hfne hfraction fun b hb => (hafter b hb).1]
    rfl
  have hends : EndsDigits (point fraction ++ (exponentText exponent ++ rest)) := by
    refine head_append (fun b hb => ?_) fun b hb => (hafter b hb).1
    rw [head_point b hb]
    decide
  obtain ⟨b, t, hbt⟩ := exists_cons_of_ne_nil hne
  have hminus := (isDigit_cases (hwhole b (hbt ▸ mem_cons_self))).1
  have hsign : ((literalOf neg whole fraction exponent ++ rest).takeWhile (· == 0x2D)).take 1 =
      if neg then [0x2D] else [] := by
    rw [literalOf, hbt]
    cases neg with
    | true => simp
    | false => simp [hminus]
  have hbody : (literalOf neg whole fraction exponent ++ rest).drop
      (if neg then [0x2D] else [] : GoString).length =
      whole ++ (point fraction ++ (exponentText exponent ++ rest)) := by
    rw [literalOf, append_assoc, drop_left]
    simp only [append_assoc]
  rw [parseNumber, hsign]
  simp only [hbody, hint _ hends, hfrac, hexp, map_some]
  simp only [literalOf, append_assoc]

end Literals

/-! ### The texts of decimals -/

lemma zeros_digits {n : ℕ} : ∀ b ∈ zeros n, isDigit b = true := by
  intro b hb
  rw [eq_of_mem_replicate hb]
  decide

/-- The digits of a number that is not zero can start a literal, whatever is cut off. -/
lemma intPart_formatUint {n : ℕ} (hn : n ≠ 0) {w u : GoString} (hw : w ≠ [])
    (h : w ++ u = formatUint n) (z : GoString) (hz : ∀ b ∈ z, isDigit b = true) :
    ∀ rest, EndsDigits rest → intPart ((w ++ z) ++ rest) = some (w ++ z, rest) := by
  intro _ hrest
  obtain ⟨b, t, rfl⟩ := exists_cons_of_ne_nil hw
  have hdigits : ∀ c ∈ b :: t ++ z, isDigit c = true := by
    exact forall_mem_append.mpr ⟨fun c hc => formatUint_digits (h ▸ mem_append_left u hc), hz⟩
  have hb : b ≠ 0x30 := by
    rintro rfl
    -- a number that starts with the digit zero has no other digit
    have htail : t ++ u = [] := formatUint_head h.symm
    have hzero := congrArg decimalValue h
    rw [cons_append, htail, decimalValue_formatUint] at hzero
    exact hn hzero.symm
  rw [cons_append, cons_append, intPart_of_ne_zero hb,
    ← cons_append]
  exact digits1_append (by simp) hdigits hrest

lemma intPart_zero : ∀ rest, EndsDigits rest → intPart ([0x30] ++ rest) = some ([0x30], rest) :=
  fun _ _ => rfl

/-- What the encoder writes for a decimal is a number literal for it. -/
structure Denotes (t : GoString) (neg : Bool) (d : Decimal) : Prop where
  number : IsNumber t
  sign : negative t = neg
  value : (literalDecimal t).value = d.value

lemma Denotes.literalOf {whole : GoString} {neg : Bool} (hwhole : ∀ b ∈ whole, isDigit b = true)
    (hne : whole ≠ [])
    (hfraction : ∀ b ∈ fraction, isDigit b = true)
    (hint : ∀ rest, EndsDigits rest → intPart (whole ++ rest) = some (whole, rest))
    (hvalue : (decimalValue (whole ++ fraction) : ℚ) * 10 ^ (exponent.getD 0 - fraction.length) =
      d.value) : Denotes (literalOf neg whole fraction exponent) neg d where
  number := isNumber_literalOf neg hwhole hne hfraction hint
  sign := negative_literalOf neg hwhole hne
  value := by rw [literalDecimal_literalOf neg hwhole hne hfraction, Decimal.value, hvalue]

/-- The point may stand anywhere behind the first digit. -/
lemma Denotes.point {k : ℕ} (hd : d.digits ≠ 0) (hk : k ≠ 0) (hexp : exponent.getD 0 -
      (((formatUint d.digits).drop k).length : ℤ) = d.exponent) (neg : Bool) :
    Denotes (GoJson.literalOf neg ((formatUint d.digits).take k) ((formatUint d.digits).drop k)
      exponent) neg d := by
  have hsplit := take_append_drop k (formatUint d.digits)
  have hne : (formatUint d.digits).take k ≠ [] := by
    simp [hk, formatUint_ne_nil]
  refine .literalOf (fun b hb => formatUint_digits (mem_of_mem_take hb)) hne
    (fun b hb => formatUint_digits (mem_of_mem_drop hb)) ?_ ?_
  · simpa using intPart_formatUint hd hne hsplit [] (by simp)
  · rw [hsplit, hexp, decimalValue_formatUint, Decimal.value]

lemma denotes_plainText (neg : Bool) (d : Decimal) : Denotes (plainText neg d) neg d := by
  have hdigits : ∀ b ∈ formatUint d.digits, isDigit b = true := fun b hb => formatUint_digits hb
  have hzero : ∀ b ∈ ([0x30] : GoString), isDigit b = true := by simp; decide
  rw [plainText]
  split_ifs with hnone hbelow hinside
  · refine .literalOf hzero (by simp) (by simp) intPart_zero ?_
    rw [Decimal.value, hnone]
    simp [decimalValue]
  · have hcount : (-pointAt d).toNat = -pointAt d := Int.toNat_of_nonneg (by omega)
    refine .literalOf hzero (by simp) (forall_mem_append.mpr ⟨zeros_digits, hdigits⟩) intPart_zero ?_
    have hexp : (none : Option ℤ).getD 0 -
        ((zeros (-pointAt d).toNat ++ formatUint d.digits).length : ℤ) = d.exponent := by
      simp only [getD_none, length_append, zeros, length_replicate,
        Nat.cast_add, hcount]
      rw [pointAt]
      omega
    rw [hexp, decimalValue_append, decimalValue_append, decimalValue_zeros,
      decimalValue_formatUint, Decimal.value]
    simp [decimalValue]
  · have hcount : (pointAt d).toNat = pointAt d := Int.toNat_of_nonneg (by omega)
    refine .point hnone (by omega) ?_ neg
    have hin : (pointAt d).toNat ≤ (formatUint d.digits).length := by omega
    rw [Option.getD_none, length_drop, Nat.cast_sub hin, hcount, pointAt]
    omega
  · have hnonneg : 0 ≤ d.exponent := by
      have : ((formatUint d.digits).length : ℤ) ≤ pointAt d := not_lt.mp hinside
      rw [pointAt] at this
      omega
    obtain ⟨k, hk⟩ := Int.eq_ofNat_of_zero_le hnonneg
    refine .literalOf (forall_mem_append.mpr ⟨hdigits, zeros_digits⟩) (by simp [formatUint_ne_nil])
      (by simp) ?_ ?_
    · exact intPart_formatUint hnone (formatUint_ne_nil _) (append_nil _) _ zeros_digits
    rw [append_nil, decimalValue_append, decimalValue_zeros, decimalValue_formatUint,
      Decimal.value, hk]
    simp [zeros]

lemma denotes_scientificText (hd : d.digits ≠ 0) (neg : Bool) :
    Denotes (scientificText neg d) neg d := by
  have hlength : 0 < (formatUint d.digits).length :=
    length_pos_of_ne_nil (formatUint_ne_nil _)
  refine .point hd one_ne_zero ?_ neg
  rw [Option.getD_some, length_drop, pointAt]
  omega

/-! ### One pass, and the next -/

lemma denotes_formatFloat (neg : Bool) {q x : ℚ} (hq : 0 ≤ q) (h : read q = some x) :
    Denotes (formatFloat neg x) neg (shortest x) := by
  rw [formatFloat]
  split
  · rename_i hx
    refine denotes_scientificText (fun hzero => hx.1 ?_) neg
    -- a decimal without digits is zero, and zero is read as zero
    have hread := read_shortest hq h
    have hvalue : (shortest x).value = 0 := by rw [Decimal.value, hzero]; simp
    have hgrid : OnGrid 0 := ⟨0, 0, by norm_num, by norm_num, by simp⟩
    rw [hvalue, Binary64.read, nearest_of_onGrid hgrid, if_pos (by positivity)] at hread
    exact (Option.some.inj hread).symm
  · exact denotes_plainText neg _

lemma floatText_denotes (h : floatText l = some t) :
    ∃ x, read (literalDecimal l).value = some x ∧ t = formatFloat (negative l) x ∧
      Denotes t (negative l) (shortest x) := by
  rw [floatText, parseFloat, Option.map_map, Option.map_eq_some_iff] at h
  obtain ⟨x, hx, rfl⟩ := h
  exact ⟨x, hx, rfl, denotes_formatFloat _ (Decimal.value_nonneg _) hx⟩

/-- **After one pass nothing changes any more.** -/
theorem floatText_again (h : floatText l = some t) : IsNumber t ∧ floatText t = some t := by
  obtain ⟨x, hx, rfl, hdenotes⟩ := floatText_denotes h
  refine ⟨hdenotes.number, ?_⟩
  rw [floatText, parseFloat, hdenotes.value, hdenotes.sign,
    read_shortest (Decimal.value_nonneg _) hx]
  rfl

example : floatText (lit "12345678901234567890") = some (lit "12345678901234567000") := by
  decide +kernel

example : floatText (lit "-0.00000012E1") = some (lit "-0.0000012") := by decide +kernel

example : floatText (lit "1e-6") = some (lit "0.000001") := by decide +kernel

end GoJson
