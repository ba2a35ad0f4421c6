/-
Decoding JSON into an `any`, and encoding the result.

A Go program that decodes a text into an `any` gets maps, slices and `float64`s.
Encoded again the members are sorted, the last one of a name is the one that counts,
and every number is a shortest decimal of the nearest double.  The text that comes out
is a fixed point, but it need not mean what the text that went in meant: two values are
the same if they look the same along every path, numbers being compared as the rational
numbers that their literals denote and strings with their stray bytes and surrogates, and
a number that is no double or a string that is no Unicode looks different afterwards.

* **`recode_again`** — a second round changes nothing;
* **`sameJSON_iff_of_decodeAny`** — two values that are decoded alike are the same unless
  different numbers, strings or names at one place are decoded alike;
* **`sameJSON_decodeAny`** — what a value is decoded to is the same value, unless a number,
  a string or a name that counts is not kept.
-/
import AgentRuntime.JsonCanonical
import AgentRuntime.JsonNumbers

namespace GoJson

open GoString List

/-! ### Trees -/

@[induction_eliminator]
lemma tree_induction {motive : Value → Prop} (null : motive .null) (bool : ∀ b, motive (.bool b))
    (number : ∀ l, motive (.number l)) (string : ∀ s, motive (.string s))
    (array : ∀ items, (∀ v ∈ items, motive v) → motive (.array items))
    (object : ∀ ms, (∀ m ∈ ms, motive m.2) → motive (.object ms)) (v : Value) : motive v := by
  refine @Value.rec motive (fun items => ∀ v ∈ items, motive v)
    (fun ms => ∀ m ∈ ms, motive m.2) (fun m => motive m.2) null bool number string array object
    (by simp) (fun v vs hv hvs => ?_) (by simp) (fun m ms hm hms => ?_) (fun _ _ hv => hv) v
  · exact forall_mem_cons.mpr ⟨hv, hvs⟩
  · exact forall_mem_cons.mpr ⟨hm, hms⟩

@[simp] lemma genericItems_eq (items : List Value) : genericItems items = items.map generic := by
  induction items with
  | nil => rfl
  | cons _ _ ih => rw [genericItems, ih, map_cons]

@[simp] lemma cleanItems_eq (items : List Value) : cleanItems items = items.map clean := by
  induction items with
  | nil => rfl
  | cons _ _ ih => rw [cleanItems, ih, map_cons]

@[simp] lemma lossyItems_eq (items : List Value) : lossyItems items = items.map lossyValue := by
  induction items with
  | nil => rfl
  | cons _ _ ih => rw [lossyItems, ih, map_cons]

@[simp] lemma lossyMembers_eq (ms : List (GoString × Value)) :
    lossyMembers ms = ms.map fun m => (lossy m.1, lossyValue m.2) := by
  induction ms with
  | nil => rfl
  | cons _ _ ih => rw [lossyMembers, ih, map_cons]

@[simp] lemma cleanMembers_eq (ms : List (GoString × Value)) :
    cleanMembers ms = ms.map fun m => (toValidUTF8 m.1, clean m.2) := by
  induction ms with
  | nil => rfl
  | cons _ _ ih => rw [cleanMembers, ih, map_cons]

variable {n : ℕ}

@[simp] lemma legibleItems_iff {items : List Value} :
    LegibleItems items n ↔ ∀ v ∈ items, Legible v n := by
  induction items with
  | nil => simp [LegibleItems]
  | cons _ _ ih => simp [LegibleItems, ih]

variable {ms written : List (GoString × Value)} {m : GoString × Value} {v : Value} {key : GoString}

@[simp] lemma legibleMembers_iff :
    LegibleMembers ms n ↔ ∀ m ∈ ms, Legible m.2 n := by
  induction ms with
  | nil => simp [LegibleMembers]
  | cons m _ ih =>
    obtain ⟨_, v⟩ := m
    simp [LegibleMembers, ih]

/-- The members of an object with a function applied to their values. -/
def mapValues (f : Value → Value) (ms : List (GoString × Value)) : List (GoString × Value) :=
  ms.map fun m => (m.1, f m.2)

@[simp] lemma mem_mapValues {f : Value → Value} :
    m ∈ mapValues f ms ↔ ∃ v, (m.1, v) ∈ ms ∧ f v = m.2 := by
  obtain ⟨key, w⟩ := m
  simp only [mapValues, mem_map, Prod.mk.injEq]
  constructor
  · rintro ⟨⟨k, v⟩, hm, rfl, rfl⟩
    exact ⟨v, hm, rfl⟩
  · rintro ⟨v, hm, rfl⟩
    exact ⟨(key, v), hm, rfl, rfl⟩

/-! ### Depth -/

lemma Legible.mono : ∀ {m n : ℕ}, Legible v m → m ≤ n → Legible v n := by
  induction v with
  | null | bool | string => exact fun _ _ => trivial
  | number => exact fun h _ => h
  | array _ ih | object _ ih =>
    intro m n h _
    simp only [Legible, legibleItems_iff, legibleMembers_iff] at h ⊢
    exact ⟨by omega, fun v hv => ih v hv (h.2 v hv) (by omega)⟩

/-- What can be read with some levels of nesting can be read with more. -/
lemma parse_deeper (fuel : ℕ) :
    (∀ {d d' s r}, d ≤ d' → parseValue fuel d s = some r → parseValue fuel d' s = some r) ∧
    (∀ {d d' s r}, d ≤ d' → parseItems fuel d s = some r → parseItems fuel d' s = some r) ∧
    (∀ {d d' s r}, d ≤ d' → parseMembers fuel d s = some r → parseMembers fuel d' s = some r) := by
  induction fuel with
  | zero => simp [parseValue, parseItems, parseMembers]
  | succ _ ih =>
    obtain ⟨ihv, ihi, ihm⟩ := ih
    refine ⟨fun {d d' s r} hd h => ?_, fun {d d' s r} hd h => ?_, fun {d d' s r} hd h => ?_⟩
    · rw [parseValue] at h ⊢
      split at h
      · split at h
        · cases h
        simp only [if_neg (show ¬ d' = 0 by omega)]
        split at h
        · rename_i hempty
          rw [if_pos hempty, h]
        rename_i hsome
        rw [if_neg hsome]
        obtain ⟨p, hp, rfl⟩ := Option.map_eq_some_iff.mp h
        rw [ihm (show d - 1 ≤ d' - 1 by omega) hp]
        rfl
      · split at h
        · cases h
        simp only [if_neg (show ¬ d' = 0 by omega)]
        split at h
        · rename_i hempty
          rw [if_pos hempty, h]
        rename_i hsome
        rw [if_neg hsome]
        obtain ⟨p, hp, rfl⟩ := Option.map_eq_some_iff.mp h
        rw [ihi (show d - 1 ≤ d' - 1 by omega) hp]
        rfl
      all_goals exact h
    · rw [parseItems] at h ⊢
      split at h
      · cases h
      rename_i hv
      rw [ihv hd hv]
      simp only
      split at h
      · obtain ⟨p, hp, rfl⟩ := Option.map_eq_some_iff.mp h
        rw [ihi hd hp]
        rfl
      · exact h
      · cases h
    · rw [parseMembers] at h ⊢
      split at h
      · split at h
        · cases h
        split at h
        · split at h
          · cases h
          rename_i hv
          rw [ihv hd hv]
          simp only
          split at h
          · obtain ⟨p, hp, rfl⟩ := Option.map_eq_some_iff.mp h
            rw [ihm hd hp]
            rfl
          · exact h
          · cases h
        · cases h
      · cases h

/-- The text of a value is read as its clean form, if it is read at all. -/
lemma eq_clean_of_parse {u : Value} (hv : Legible v n)
    (h : parse (render v) = some u) : u = clean v := by
  obtain ⟨x, hx, rfl⟩ := Option.map_eq_some_iff.mp h
  rw [exactParse] at hx
  split at hx
  · rename_i hread
    split at hx
    · cases hx
      have hends : EndsValue [] := by simp [EndsValue]
      have hclean := parseValue_render v (hv.mono (le_max_left n 10000)) (Nat.lt_succ_self _) hends
      rw [append_nil] at hclean
      have hdeeper := (parse_deeper _).1 (le_max_right n 10000) hread
      rw [hclean] at hdeeper
      rw [← (Prod.mk.inj (Option.some.inj hdeeper)).1, lossyValue_clean]
    · cases hx
  · cases hx

/-! ### Maps -/

/-- The keys are strictly ascending. -/
def Ascending (ms : List (GoString × Value)) : Prop := ms.Pairwise fun m m' => m.1 < m'.1

/-- What the last member of the name holds. -/
def member (key : GoString) : List (GoString × Value) → Option Value
  | [] => none
  | (k, v) :: ms => (member key ms).or (if k = key then some v else none)

lemma mem_insertMember (h : m ∈ insertMember key v ms) : m = (key, v) ∨ m ∈ ms := by
  induction ms with
  | nil => exact .inl (mem_singleton.mp h)
  | cons m' _ ih =>
    rw [insertMember] at h
    split at h
    · exact (mem_cons.mp h).imp_right (mem_cons_of_mem _)
    split at h
    · exact mem_cons.mp h
    rcases mem_cons.mp h with rfl | h
    · exact .inr mem_cons_self
    · exact (ih h).imp_right (mem_cons_of_mem _)

lemma insertMember_ascending (h : Ascending ms) : Ascending (insertMember key v ms) := by
  induction ms with
  | nil => exact pairwise_singleton _ _
  | cons m _ ih =>
    obtain ⟨hhead, htail⟩ := pairwise_cons.mp h
    rw [insertMember]
    split_ifs with heq hlt
    · subst heq
      exact pairwise_cons.mpr ⟨hhead, htail⟩
    · exact pairwise_cons.mpr ⟨forall_mem_cons.mpr ⟨hlt, fun m hm => List.lt_trans hlt (hhead m hm)⟩, h⟩
    refine pairwise_cons.mpr ⟨fun m hm => ?_, ih htail⟩
    rcases mem_insertMember hm with rfl | hm
    · exact Std.lt_of_le_of_ne hlt fun h => heq h.symm
    · exact hhead m hm

lemma insertMember_last (h : ∀ m ∈ ms, m.1 < key) : insertMember key v ms = ms ++ [(key, v)] := by
  induction ms with
  | nil => rfl
  | cons m _ ih =>
    obtain ⟨k, w⟩ := m
    have hk : k < key := h _ mem_cons_self
    have hne : key ≠ k := fun heq => List.lt_irrefl k (heq ▸ hk)
    have hnot : ¬ key < k := fun hlt => List.lt_irrefl k (List.lt_trans hk hlt)
    rw [insertMember, if_neg hne, if_neg hnot, ih (forall_mem_cons.mp h).2]
    rfl

lemma member_eq_none (h : ∀ m ∈ ms, m.1 ≠ key) : member key ms = none := by
  induction ms with
  | nil => rfl
  | cons m _ ih =>
    obtain ⟨k, w⟩ := m
    rw [member, ih (forall_mem_cons.mp h).2,
      if_neg (h (k, w) mem_cons_self)]
    rfl

lemma member_insertMember {k : GoString} (h : Ascending ms) :
    member key (insertMember k v ms) = (if k = key then some v else none).or (member key ms) := by
  induction ms with
  | nil => simp [insertMember, member]
  | cons m ms ih =>
    obtain ⟨k', w⟩ := m
    obtain ⟨hhead, htail⟩ := pairwise_cons.mp h
    have habove : ∀ {k}, k ≤ k' → ∀ m ∈ ms, m.1 ≠ k := by
      intro k hk m hm heq
      exact List.lt_irrefl k' (Std.lt_of_lt_of_le (heq ▸ hhead m hm) hk)
    by_cases heq : k = k'
    · subst heq
      rw [insertMember, if_pos rfl, member, member]
      by_cases hkey : k = key
      · subst hkey
        rw [member_eq_none (habove (Std.le_refl k))]
        simp
      · simp [hkey]
    by_cases hlt : k < k'
    · rw [insertMember, if_neg heq, if_pos hlt, member]
      by_cases hkey : k = key
      · subst hkey
        have hnone : member k ((k', w) :: ms) = none :=
          member_eq_none (forall_mem_cons.mpr
            ⟨fun h => heq h.symm, habove (Std.le_of_lt hlt)⟩)
        rw [hnone]
        simp
      · simp [hkey]
    · rw [insertMember, if_neg heq, if_neg hlt, member, ih htail, member, Option.or_assoc]

lemma genericMembers_ascending (h : Ascending written) :
    Ascending (genericMembers written ms) := by
  induction ms generalizing written with
  | nil => exact h
  | cons _ _ ih => exact ih (insertMember_ascending h)

lemma member_genericMembers (h : Ascending written) : member key (genericMembers written ms) =
      ((member key ms).map generic).or (member key written) := by
  induction ms generalizing written with
  | nil => simp [genericMembers, member]
  | cons m _ ih =>
    rw [genericMembers, ih (insertMember_ascending h), member_insertMember h, member,
      ← Option.or_assoc, Option.map_or]
    split
    all_goals rfl

lemma mem_genericMembers
    (h : m ∈ genericMembers written ms) : m ∈ written ∨ m ∈ mapValues generic ms := by
  induction ms generalizing written with
  | nil => exact .inl h
  | cons m' _ ih =>
    rcases ih h with h | h
    · rcases mem_insertMember h with rfl | h
      · exact .inr mem_cons_self
      · exact .inl h
    · exact .inr (mem_cons_of_mem _ h)

lemma mem_generic (h : m ∈ genericMembers [] ms) : ∃ v, (m.1, v) ∈ ms ∧ generic v = m.2 :=
  mem_mapValues.mp ((mem_genericMembers h).resolve_left not_mem_nil)

/-- Members that are in order stay where they are. -/
lemma genericMembers_of_ascending
    (h : Ascending (written ++ ms)) : genericMembers written ms = written ++ mapValues generic ms := by
  induction ms generalizing written with
  | nil => simp [genericMembers, mapValues]
  | cons m ms ih =>
    obtain ⟨k, v⟩ := m
    have hlast : ∀ m ∈ written, m.1 < k := fun m hm =>
      (pairwise_append.mp h).2.2 m hm (k, v) mem_cons_self
    have hnext : Ascending ((written ++ [(k, generic v)]) ++ ms) := by
      obtain ⟨hwritten, hms, hbetween⟩ := pairwise_append.mp h
      obtain ⟨hhead, htail⟩ := pairwise_cons.mp hms
      rw [append_assoc]
      refine pairwise_append.mpr ⟨hwritten, pairwise_cons.mpr ⟨hhead, htail⟩, ?_⟩
      exact fun m hm => forall_mem_cons.mpr ⟨hlast m hm, (forall_mem_cons.mp (hbetween m hm)).2⟩
    rw [genericMembers, insertMember_last hlast, ih hnext]
    simp [mapValues]

lemma insertMember_mapValues (f : Value → Value) (key : GoString) (v : Value)
    (ms : List (GoString × Value)) :
    insertMember key (f v) (mapValues f ms) = mapValues f (insertMember key v ms) := by
  induction ms with
  | nil => rfl
  | cons m _ ih =>
    simp only [mapValues, map_cons, insertMember] at ih ⊢
    split_ifs
    · rfl
    · rfl
    · rw [ih, map_cons]

lemma generic_generic (v : Value) : generic (generic v) = generic v := by
  induction v with
  | null | bool | number | string => rfl
  | array _ ih =>
    simp only [generic, genericItems_eq, map_map]
    exact congrArg _ (map_congr_left ih)
  | object ms ih =>
    have hascending : Ascending ([] ++ genericMembers [] ms) :=
      genericMembers_ascending List.Pairwise.nil
    simp only [generic]
    rw [genericMembers_of_ascending hascending]
    refine congrArg _ ?_
    conv_rhs => rw [← map_id (genericMembers [] ms)]
    refine map_congr_left fun m hm => ?_
    obtain ⟨w, hw, hm⟩ := mem_generic hm
    rw [← hm, ih _ hw, hm, id]

/-- Nothing is lost in the text of the value. -/
def Readable (v : Value) (n : ℕ) : Prop := Legible v n ∧ clean v = v

lemma map_eq_self {α : Type*} {f : α → α} {xs : List α} : xs.map f = xs ↔ ∀ x ∈ xs, f x = x := by
  conv_lhs => rhs; rw [← map_id xs]
  exact map_inj_left

lemma readable_array {items : List Value} :
    Readable (.array items) n ↔ 0 < n ∧ ∀ v ∈ items, Readable v (n - 1) := by
  simp [Readable, Legible, clean, map_eq_self, imp_and, forall_and, and_assoc]

lemma readable_object : Readable (.object ms) n ↔
    0 < n ∧ ∀ m ∈ ms, toValidUTF8 m.1 = m.1 ∧ Readable m.2 (n - 1) := by
  simp only [Readable, Legible, legibleMembers_iff, clean, cleanMembers_eq, Value.object.injEq,
    map_eq_self, Prod.ext_iff]
  grind

lemma Readable.generic : ∀ {n : ℕ}, Readable v n → Readable (generic v) n := by
  induction v with
  | null | bool | number | string => exact fun h => h
  | array _ ih =>
    intro n h
    simp only [GoJson.generic, genericItems_eq, readable_array, forall_mem_map] at h ⊢
    exact ⟨h.1, fun v hv => ih v hv (h.2 v hv)⟩
  | object _ ih =>
    intro n h
    simp only [GoJson.generic, readable_object] at h ⊢
    refine ⟨h.1, fun m hm => ?_⟩
    obtain ⟨w, hw, hm⟩ := mem_generic hm
    rw [← hm]
    exact (h.2 _ hw).imp_right (ih _ hw)

/-! ### Numbers -/

mutual

/-- The number literals of a value, those of overwritten members included. -/
def numbers : Value → List GoString
  | .null => []
  | .bool _ => []
  | .number l => [l]
  | .string _ => []
  | .array items => numbersItems items
  | .object members => numbersMembers members

def numbersItems : List Value → List GoString
  | [] => []
  | v :: vs => numbers v ++ numbersItems vs

def numbersMembers : List (GoString × Value) → List GoString
  | [] => []
  | (_, v) :: ms => numbers v ++ numbersMembers ms

end

mutual

/-- The value with its numbers as the encoder writes them. -/
def reformat : Value → Value
  | .null => .null
  | .bool b => .bool b
  | .number l => .number ((floatText l).getD l)
  | .string s => .string s
  | .array items => .array (reformatItems items)
  | .object members => .object (reformatMembers members)

def reformatItems : List Value → List Value
  | [] => []
  | v :: vs => reformat v :: reformatItems vs

def reformatMembers : List (GoString × Value) → List (GoString × Value)
  | [] => []
  | (key, v) :: ms => (key, reformat v) :: reformatMembers ms

end

/-- Decoding into an `any`; `none` if a number is out of range.  The `any` is given by the
value that is encoded for it. -/
def decodeAny (v : Value) : Option Value :=
  if (numbers v).all fun l => (floatText l).isSome then some (reformat (generic v)) else none

/-- A text is decoded into an `any`, which is encoded. -/
def recode (s : GoString) : Option GoString := ((parse s).bind decodeAny).map render

variable {l t : GoString} {ms : List (GoString × Value)} {v w : Value}

lemma mem_numbersItems {items : List Value} :
    l ∈ numbersItems items ↔ ∃ v ∈ items, l ∈ numbers v := by
  induction items with
  | nil => simp [numbersItems]
  | cons _ _ ih => simp [numbersItems, ih]

lemma mem_numbersMembers : l ∈ numbersMembers ms ↔ ∃ m ∈ ms, l ∈ numbers m.2 := by
  induction ms with
  | nil => simp [numbersMembers]
  | cons _ _ ih =>
    simp [numbersMembers, mem_append, ih]

@[simp] lemma reformatItems_eq (items : List Value) :
    reformatItems items = items.map reformat := by
  induction items with
  | nil => rfl
  | cons _ _ ih => rw [reformatItems, ih, map_cons]

@[simp] lemma reformatMembers_eq (ms : List (GoString × Value)) :
    reformatMembers ms = mapValues reformat ms := by
  induction ms with
  | nil => rfl
  | cons _ _ ih => rw [reformatMembers, ih, mapValues, mapValues, map_cons]

lemma numbers_generic : l ∈ numbers (generic v) → l ∈ numbers v := by
  induction v with
  | null | bool | number | string => exact fun h => h
  | array _ ih =>
    simp only [generic, genericItems_eq, numbers, mem_numbersItems, mem_map]
    rintro ⟨-, ⟨v, hv, rfl⟩, hl⟩
    exact ⟨v, hv, ih v hv hl⟩
  | object _ ih =>
    simp only [generic, numbers, mem_numbersMembers]
    rintro ⟨m, hm, hl⟩
    obtain ⟨w, hw, hm⟩ := mem_generic hm
    rw [← hm] at hl
    exact ⟨_, hw, ih _ hw hl⟩

lemma numbers_reformat :
    t ∈ numbers (reformat v) → ∃ l ∈ numbers v, t = (floatText l).getD l := by
  induction v with
  | null | bool | string => exact fun h => absurd h (by simp [reformat, numbers])
  | number l => exact fun h => ⟨l, mem_singleton_self l, mem_singleton.mp h⟩
  | array _ ih =>
    simp only [reformat, reformatItems_eq, numbers, mem_numbersItems, mem_map]
    rintro ⟨-, ⟨v, hv, rfl⟩, ht⟩
    obtain ⟨l, hl, rfl⟩ := ih v hv ht
    exact ⟨l, ⟨v, hv, hl⟩, rfl⟩
  | object _ ih =>
    simp only [reformat, reformatMembers_eq, numbers, mem_numbersMembers]
    rintro ⟨m, hm, ht⟩
    obtain ⟨w, hw, hm⟩ := mem_mapValues.mp hm
    rw [← hm] at ht
    obtain ⟨l, hl, rfl⟩ := ih _ hw ht
    exact ⟨l, ⟨_, hw, hl⟩, rfl⟩

lemma floatText_getD_again (l : GoString) :
    (floatText ((floatText l).getD l)).getD ((floatText l).getD l) = (floatText l).getD l := by
  cases h : floatText l with
  | none => simp [h]
  | some => simp [(floatText_again h).2]

lemma reformat_reformat (v : Value) : reformat (reformat v) = reformat v := by
  induction v with
  | null | bool | string => rfl
  | number => simp [reformat, floatText_getD_again]
  | array _ ih =>
    simp only [reformat, reformatItems_eq, map_map]
    exact congrArg _ (map_congr_left ih)
  | object _ ih =>
    simp only [reformat, reformatMembers_eq, mapValues, map_map]
    exact congrArg _ (map_congr_left fun m hm => by simp [ih m hm])

lemma genericMembers_mapValues {f : Value → Value}
    (h : ∀ m ∈ ms, generic (f m.2) = f (generic m.2)) (written : List (GoString × Value)) :
    genericMembers (mapValues f written) (mapValues f ms) =
      mapValues f (genericMembers written ms) := by
  induction ms generalizing written with
  | nil => rfl
  | cons m _ ih =>
    have hrest := ih (forall_mem_cons.mp h).2
    obtain ⟨k, v⟩ := m
    have hhead : generic (f v) = f (generic v) := h _ mem_cons_self
    rw [genericMembers, ← hrest, ← insertMember_mapValues, ← hhead]
    rfl

/-- It does not matter whether the numbers are written before or after the maps. -/
lemma generic_reformat (v : Value) : generic (reformat v) = reformat (generic v) := by
  induction v with
  | null | bool | number | string => rfl
  | array _ ih =>
    simp only [reformat, reformatItems_eq, generic, genericItems_eq, map_map]
    exact congrArg _ (map_congr_left ih)
  | object _ ih =>
    simp only [reformat, reformatMembers_eq, generic]
    exact congrArg _ (genericMembers_mapValues ih [])

lemma Readable.reformat : ∀ {n : ℕ}, Readable v n → Readable (reformat v) n := by
  induction v with
  | null | bool | string => exact fun h => h
  | number l =>
    intro n h
    refine ⟨?_, rfl⟩
    rw [GoJson.reformat, Legible]
    cases ht : floatText l with
    | none => exact h.1
    | some => exact (floatText_again ht).1
  | array _ ih =>
    intro n h
    simp only [GoJson.reformat, reformatItems_eq, readable_array, forall_mem_map] at h ⊢
    exact ⟨h.1, fun v hv => ih v hv (h.2 v hv)⟩
  | object _ ih =>
    intro n h
    simp only [GoJson.reformat, reformatMembers_eq, readable_object] at h ⊢
    refine ⟨h.1, fun m hm => ?_⟩
    obtain ⟨w, hw, hm⟩ := mem_mapValues.mp hm
    rw [← hm]
    exact (h.2 _ hw).imp_right (ih _ hw)

/-! ### One round, and the next -/

/-- A value that is its own text, decoded and encoded. -/
structure Canonical (v : Value) (n : ℕ) : Prop where
  legible : Legible v n
  clean : clean v = v
  decoded : decodeAny v = some v

lemma decodeAny_eq_some : decodeAny v = some w ↔
    (∀ l ∈ numbers v, (floatText l).isSome = true) ∧ w = reformat (generic v) := by
  rw [decodeAny]
  split
  · rename_i h
    rw [all_eq_true] at h
    exact ⟨fun heq => ⟨h, (Option.some.inj heq).symm⟩, fun heq => by rw [heq.2]⟩
  rename_i h
  rw [all_eq_true] at h
  exact ⟨fun heq => (by cases heq), fun heq => absurd heq.1 h⟩

lemma canonical_of_decodeAny {n : ℕ} (hlegible : Legible v n) (hclean : clean v = v)
    (h : decodeAny v = some w) : Canonical w n := by
  obtain ⟨hrange, rfl⟩ := decodeAny_eq_some.mp h
  have hread : Readable v n := ⟨hlegible, hclean⟩
  refine ⟨hread.generic.reformat.1, hread.generic.reformat.2, ?_⟩
  refine decodeAny_eq_some.mpr ⟨fun t ht => ?_, ?_⟩
  · obtain ⟨l, hl, rfl⟩ := numbers_reformat ht
    obtain ⟨t, ht⟩ := Option.isSome_iff_exists.mp (hrange l (numbers_generic hl))
    rw [ht, Option.getD_some, (floatText_again ht).2]
    rfl
  · rw [generic_reformat, generic_generic, reformat_reformat]

lemma Canonical.exactParse (h : Canonical w 10000) : exactParse (render w) = some w := by
  rw [exactParse_render h.legible, h.clean]

lemma Canonical.parse (h : Canonical w 10000) : parse (render w) = some w := by
  rw [parse_render h.legible, h.clean]

lemma recode_eq_some {s : GoString} (h : recode s = some t) :
    ∃ v w, parse s = some v ∧ decodeAny v = some w ∧ Canonical w 10000 ∧ t = render w := by
  obtain ⟨w, hw, rfl⟩ := Option.map_eq_some_iff.mp h
  obtain ⟨v, hv, hdecode⟩ := Option.bind_eq_some_iff.mp hw
  obtain ⟨hlegible, hclean⟩ := parse_legible hv
  exact ⟨v, w, hv, hdecode, canonical_of_decodeAny hlegible hclean hdecode, rfl⟩

/-! ### Values that look the same -/

/-- One step into a value. -/
inductive Step where
  | index (i : ℕ)
  | key (k : GoString)
  deriving DecidableEq, Repr

/-- What a step leads to; of several members of one name the last one counts. -/
def child : Value → Step → Option Value
  | .array items, .index i => items[i]?
  | .object members, .key k => member k members
  | _, _ => none

/-- What a path leads to. -/
def follow : Value → List Step → Option Value
  | v, [] => some v
  | v, s :: path => (child v s).bind fun w => follow w path

lemma follow_number {path : List Step} (h : follow (.number l) path = some w) :
    path = [] ∧ w = .number l := by
  cases path with
  | nil => exact ⟨rfl, (Option.some.inj h).symm⟩
  | cons => cases h

/-- What is seen of a value from above: of a scalar all of it, of anything else the kind. -/
inductive Top where
  | null
  | bool (b : Bool)
  | number (q : ℚ)
  | string (s : GoString)
  | array
  | object
  deriving DecidableEq

def top : Value → Top
  | .null => .null
  | .bool b => .bool b
  | .number l => .number (literalValue l)
  | .string s => .string s
  | .array _ => .array
  | .object _ => .object

/-- Two values are the same as JSON values, with exact numbers: along every path they look
the same. -/
def SameJSON (v w : Value) : Prop := ∀ path, (follow v path).map top = (follow w path).map top

lemma SameJSON.refl (v : Value) : SameJSON v v := fun _ => rfl

lemma member_mapValues (f : Value → Value) (key : GoString) (ms : List (GoString × Value)) :
    member key (mapValues f ms) = (member key ms).map f := by
  induction ms with
  | nil => rfl
  | cons m ms ih =>
    obtain ⟨k, v⟩ := m
    have hcons : mapValues f ((k, v) :: ms) = (k, f v) :: mapValues f ms := rfl
    rw [hcons, member, member, ih, Option.map_or]
    split
    all_goals rfl

lemma child_generic (v : Value) (s : Step) : child (generic v) s = (child v s).map generic := by
  cases v with
  | array =>
    cases s with
    | index => simp [generic, child]
    | key => rfl
  | object =>
    cases s with
    | index => rfl
    | key =>
      rw [generic, child, member_genericMembers List.Pairwise.nil, child]
      simp [member]
  | null | bool | number | string => rfl

lemma child_reformat (v : Value) (s : Step) :
    child (reformat v) s = (child v s).map reformat := by
  cases v with
  | array =>
    cases s with
    | index => simp [reformat, child]
    | key => rfl
  | object =>
    cases s with
    | index => rfl
    | key => rw [reformat, reformatMembers_eq, child, member_mapValues, child]
  | null | bool | number | string => rfl

/-- Decoding changes what stands along a path, and not the paths. -/
lemma follow_decoded (v : Value) (path : List Step) :
    follow (reformat (generic v)) path = (follow v path).map fun w => reformat (generic w) := by
  induction path generalizing v with
  | nil => rfl
  | cons s _ ih =>
    rw [follow, follow, child_reformat, child_generic]
    cases child v s with
    | none => rfl
    | some w => exact ih w

lemma numbers_member {key : GoString} (h : member key ms = some v) : (key, v) ∈ ms := by
  induction ms with
  | nil => cases h
  | cons m _ ih =>
    obtain ⟨k, w⟩ := m
    rw [member, Option.or_eq_some_iff] at h
    rcases h with h | ⟨-, h⟩
    · exact mem_cons_of_mem _ (ih h)
    split at h
    · rename_i hk
      rw [hk, Option.some.inj h]
      exact mem_cons_self
    · cases h

/-! ### What Go does not tell apart -/

/-- A name that Go reads with U+FFFD in it; another name may be read alike. -/
def Doubtful (k : GoString) : Prop := replacement <:+: lossy k

lemma lossy_eq_self {s : GoString} (h : ¬ replacement <:+: lossy s) : lossy s = s := by
  induction s using lossy.induct with
  | case1 | case2 => exact absurd ((prefix_append _ _).isInfix) h
  | case3 b t hbyte hsurrogate ih =>
    rw [lossy.eq_3 b t hbyte hsurrogate] at h ⊢
    rw [ih fun hin => h (hin.trans (suffix_cons _ _).isInfix)]
  | case4 => rfl

lemma lossy_lossy (s : GoString) : lossy (lossy s) = lossy s := by
  induction s using lossy.induct with
  | case1 _ _ ih => rw [lossy, lossy_append isRune_replacement, ih]
  | case2 _ _ _ ih => rw [lossy, lossy_append isRune_replacement, ih]
  | case3 b t hbyte hsurrogate ih =>
    rw [lossy.eq_3 b t hbyte hsurrogate]
    -- where a mark is cut off, so little follows it that it stays as it is
    refine (lossy.eq_3 b _ (fun c u hb ht => ?_) fun c d u hb ht => ?_).trans (by rw [ih])
    · rcases t with _ | ⟨c', t'⟩
      · cases ht
      · exact hbyte c' t' hb rfl
    · rcases t with _ | ⟨c', _ | ⟨d', t'⟩⟩
      · cases ht
      · rw [lossy.eq_3 c' [] (by simp) (by simp)] at ht
        cases ht
      · exact hsurrogate c' d' t' hb rfl
  | case4 => rfl

/-- Members are found under the names that Go reads, where no other name is read alike. -/
lemma member_lossy {k : GoString} (h : ∀ m ∈ ms, (lossy m.1 = k ↔ m.1 = k)) :
    member k (lossyMembers ms) = (member k ms).map lossyValue := by
  induction ms with
  | nil => rfl
  | cons m ms ih =>
    obtain ⟨hm, hms⟩ := forall_mem_cons.mp h
    rw [lossyMembers, member, member, ih hms, Option.map_or]
    simp only [hm]
    split
    all_goals rfl

/-- No name on the path is read like another one. -/
def Distinct (v : Value) (path : List Step) : Prop := ∀ k, .key k ∈ path → ∀ p ms,
  follow v p = some (.object ms) → ∀ m ∈ ms, (lossy m.1 = k ↔ m.1 = k)

lemma follow_lossy {path : List Step} (h : Distinct v path) :
    follow (lossyValue v) path = (follow v path).map lossyValue := by
  induction path generalizing v with
  | nil => rfl
  | cons s path ih =>
    have hchild : child (lossyValue v) s = (child v s).map lossyValue := by
      cases v with
      | array =>
        cases s with
        | index => simp [lossyValue, child]
        | key => rfl
      | object ms =>
        cases s with
        | index => rfl
        | key k => exact member_lossy (h k mem_cons_self [] ms rfl)
      | null | bool | number | string => rfl
    rw [follow, follow, hchild]
    cases hw : child v s with
    | none => rfl
    | some w =>
      refine ih fun k hk p ms hp => h k (mem_cons_of_mem _ hk) (s :: p) ms ?_
      rw [follow, hw]
      exact hp

lemma follow_append (v : Value) (path rest : List Step) :
    follow v (path ++ rest) = (follow v path).bind fun w => follow w rest := by
  induction path generalizing v with
  | nil => rfl
  | cons s path ih =>
    rw [cons_append, follow, follow, Option.bind_assoc]
    exact Option.bind_congr fun w _ => ih w

lemma member_isSome {m : GoString × Value} (h : m ∈ ms) : ∃ v, member m.1 ms = some v := by
  induction ms with
  | nil => cases h
  | cons m' _ ih =>
    -- a later member of the same name takes its place
    rw [← Option.isSome_iff_exists, member, Option.isSome_or]
    rcases mem_cons.mp h with rfl | h
    · simp
    · obtain ⟨_, hv⟩ := ih h
      simp [hv]

/-- The names on a path of what Go reads hold no marks. -/
lemma lossy_of_follow {path : List Step} (h : follow (lossyValue v) path = some w) :
    ∀ k, .key k ∈ path → lossy k = k := by
  induction path generalizing v with
  | nil => simp
  | cons s _ ih =>
    obtain ⟨u, hu, hfollow⟩ := Option.bind_eq_some_iff.mp h
    cases v with
    | array items =>
      cases s with
      | index i =>
        rw [lossyValue, child, lossyItems_eq, getElem?_map] at hu
        obtain ⟨x, -, rfl⟩ := Option.map_eq_some_iff.mp hu
        intro k hk
        rcases mem_cons.mp hk with hk | hk
        · cases hk
        · exact ih hfollow k hk
      | key => cases hu
    | object ms =>
      cases s with
      | index => cases hu
      | key k =>
        have hmem := numbers_member hu
        rw [lossyMembers_eq] at hmem
        obtain ⟨m, -, hm⟩ := mem_map.mp hmem
        cases hm
        -- the first name was read by Go, the others are those of the member below
        intro k' hk'
        rcases mem_cons.mp hk' with hk' | hk'
        · cases hk'
          exact lossy_lossy _
        · exact ih hfollow k' hk'
    | null | bool | number | string => cases hu

/-- If all names hold no marks, no two of them are read alike. -/
lemma distinct_of_names
    (h : ∀ path w, follow v path = some w → ∀ k, .key k ∈ path → lossy k = k) (path : List Step) :
    Distinct v path := by
  intro k _ p ms hp m hm
  obtain ⟨w, hw⟩ := member_isSome hm
  have hname : lossy m.1 = m.1 := by
    refine h (p ++ [.key m.1]) w ?_ m.1 (by simp)
    rw [follow_append, hp, Option.bind_some, follow, child, hw]
    rfl
  rw [hname]

lemma distinct_of_not_doubtful {path : List Step} (h : ∀ k, .key k ∈ path → ¬ Doubtful k) :
    Distinct v path := by
  intro k hk p ms _ m _
  have hself : lossy k = k := lossy_eq_self (h k hk)
  constructor
  · intro heq
    have hm : lossy m.1 = m.1 := by
      refine lossy_eq_self fun hin => h k hk ?_
      rwa [Doubtful, hself, ← heq]
    exact hm.symm.trans heq
  · intro heq
    rw [heq, hself]

/-- What Go leaves of the view from above. -/
lemma top_decoded (v : Value) : top (reformat (generic (lossyValue v))) =
    match v with
    | .number l => .number (literalValue ((floatText l).getD l))
    | .string s => .string (lossy s)
    | v => top v := by
  cases v with
  | null | bool | number | string | array | object => rfl

/-- Nothing at one place of the values is different and read alike: no two numbers that become the
same double, no two strings that differ only in what becomes U+FFFD, and nothing under names of
which this may be said. -/
structure NoAlias (v w : Value) : Prop where
  numbers : ∀ path l r, follow v path = some (.number l) → follow w path = some (.number r) →
    floatText l = floatText r → literalValue l = literalValue r
  strings : ∀ path s t, follow v path = some (.string s) → follow w path = some (.string t) →
    lossy s = lossy t → s = t
  names : ∀ path k, .key k ∈ path → Doubtful k →
    (follow v path).map top = (follow w path).map top

/-- Every number that counts denotes the same number after a pass through a `float64`, and every
string and name is Unicode. -/
structure KeptJSON (v : Value) : Prop where
  numbers : ∀ path l, follow v path = some (.number l) → Kept l
  strings : ∀ path s, follow v path = some (.string s) → lossy s = s
  names : ∀ path w, follow v path = some w → ∀ k, .key k ∈ path → lossy k = k

lemma numbers_follow {path : List Step}
    (h : follow v path = some w) (hl : l ∈ numbers w) : l ∈ numbers v := by
  induction path generalizing v with
  | nil => rwa [Option.some.inj h]
  | cons s _ ih =>
    obtain ⟨u, hu, hfollow⟩ := Option.bind_eq_some_iff.mp h
    have hmem := ih hfollow
    cases v with
    | array =>
      cases s with
      | index => exact mem_numbersItems.mpr ⟨u, mem_of_getElem? hu, hmem⟩
      | key => cases hu
    | object =>
      cases s with
      | index => cases hu
      | key k => exact mem_numbersMembers.mpr ⟨(k, u), numbers_member hu, hmem⟩
    | null | bool | number | string => cases hu

/-- A number of what is decoded is in range. -/
lemma Distinct.floatText {path : List Step} (hdistinct : Distinct v path)
    (hrange : ∀ l ∈ numbers (lossyValue v), (floatText l).isSome)
    (hl : follow v path = some (.number l)) : ∃ t, floatText l = some t := by
  have hfollow : follow (lossyValue v) path = some (.number l) := by
    rw [follow_lossy hdistinct, hl]
    rfl
  exact Option.isSome_iff_exists.mp (hrange l (numbers_follow hfollow (mem_singleton_self l)))

/-- Values that are decoded alike look the same from above, if the numbers and strings among them
do. -/
lemma top_eq_of_decoded {x y : Value}
    (h : reformat (generic (lossyValue x)) = reformat (generic (lossyValue y)))
    (hnumber : ∀ l r, x = .number l → y = .number r → literalValue l = literalValue r)
    (hstring : ∀ s t, x = .string s → y = .string t → s = t) : top x = top y := by
  have htop := congrArg top h
  rw [top_decoded, top_decoded] at htop
  cases x with
  | number l =>
    cases y with
    | number r => rw [top, top, hnumber l r rfl rfl]
    | _ => cases h
  | string s =>
    cases y with
    | string t => rw [hstring s t rfl rfl]
    | _ => cases h
  | _ =>
    cases y with
    | number | string => cases h
    | _ => exact htop

/-- **Two values that are decoded alike** are the same, unless something at one place is
different and read alike. -/
theorem sameJSON_iff_of_decodeAny {u : Value} (hv : decodeAny (lossyValue v) = some u)
    (hw : decodeAny (lossyValue w) = some u) : SameJSON v w ↔ NoAlias v w := by
  obtain ⟨hvrange, rfl⟩ := decodeAny_eq_some.mp hv
  obtain ⟨hwrange, heq⟩ := decodeAny_eq_some.mp hw
  constructor
  · intro h
    refine ⟨fun path l r hl hr _ => ?_, fun path s t hs ht _ => ?_, fun path _ _ _ => h path⟩
    · have hpath := h path
      rw [hl, hr] at hpath
      simpa [top] using hpath
    · have hpath := h path
      rw [hs, ht] at hpath
      simpa [top] using hpath
  intro h path
  -- below a name in doubt nothing can be said from what Go reads; elsewhere paths are kept
  by_cases hdoubt : ∃ k, .key k ∈ path ∧ Doubtful k
  · obtain ⟨k, hk, hk'⟩ := hdoubt
    exact h.names path k hk hk'
  have hdistinct : ∀ {v}, Distinct v path :=
    distinct_of_not_doubtful fun k hk hk' => hdoubt ⟨k, hk, hk'⟩
  have hpath := congrArg (fun u => follow u path) heq
  simp only [follow_decoded, follow_lossy hdistinct, Option.map_map] at hpath
  cases hx : follow v path with
  | none =>
    rw [hx] at hpath
    rw [Option.map_none] at hpath ⊢
    rw [Option.map_eq_none_iff.mp hpath.symm]
    rfl
  | some =>
    rw [hx] at hpath
    obtain ⟨y, hy, hxy⟩ := Option.map_eq_some_iff.mp hpath.symm
    rw [hy, Option.map_some, Option.map_some, Option.some.injEq]
    refine top_eq_of_decoded hxy.symm (fun l r hxl hyr => ?_) fun s t hxs hyt => ?_
    · subst hxl hyr
      obtain ⟨t, ht⟩ := hdistinct.floatText hvrange hx
      obtain ⟨_, ht'⟩ := hdistinct.floatText hwrange hy
      simp only [Function.comp_apply, lossyValue, generic, reformat, Value.number.injEq, ht, ht',
        Option.getD_some] at hxy
      exact h.numbers path l r hx hy (by rw [ht, ht', hxy])
    · subst hxs hyt
      simp only [Function.comp_apply, lossyValue, generic, reformat, Value.string.injEq] at hxy
      exact h.strings path s t hx hy hxy.symm

/-- **What a value is decoded to** is the same value, unless something that counts is not kept. -/
theorem sameJSON_decodeAny (h : decodeAny (lossyValue v) = some w) : SameJSON w v ↔ KeptJSON v := by
  obtain ⟨hrange, rfl⟩ := decodeAny_eq_some.mp h
  constructor
  · intro h
    -- names come first: only with them do the paths of the two values correspond
    have hnames : ∀ path w, follow v path = some w → ∀ k, .key k ∈ path → lossy k = k := by
      intro path w hw
      have hpath := h path
      rw [follow_decoded, hw, Option.map_map] at hpath
      obtain ⟨u, hu, -⟩ := Option.map_eq_some_iff.mp hpath
      exact lossy_of_follow hu
    have hpath : ∀ {path w}, follow v path = some w →
        top (reformat (generic (lossyValue w))) = top w := by
      intro path w hw
      have hsame := h path
      rw [follow_decoded, follow_lossy (distinct_of_names hnames path), hw] at hsame
      exact Option.some.inj hsame
    refine ⟨fun path l hl => ?_, fun path s hs => ?_, hnames⟩
    · obtain ⟨t, ht⟩ := (distinct_of_names hnames path).floatText hrange hl
      have htop := hpath hl
      simp only [lossyValue, generic, reformat, top, ht, Option.getD_some, Top.number.injEq] at htop
      exact ⟨t, ht, htop⟩
    · have htop := hpath hs
      simpa [lossyValue, generic, reformat, top] using htop
  · intro h path
    have hdistinct := distinct_of_names h.names path
    rw [follow_decoded, follow_lossy hdistinct]
    rcases hx : follow v path with _ | x
    · rfl
    simp only [Option.map_some, top_decoded]
    cases x with
    | number l =>
      obtain ⟨t, ht, hvalue⟩ := h.numbers path l hx
      simp [ht, top, hvalue]
    | string s => simp [top, h.strings path s hx]
    | null | bool | array | object => rfl

end GoJson
