/-
Go structs in JSON, and what a round through an `any` leaves of them.

A struct is written as an object with a member for each field, but for the fields that
are left out when they are empty.  Decoding into an `any` sorts the members, and a struct
that is decoded from the result finds its fields again: all names of one struct differ
even up to case.

* **`membersNamed_decoded`** — a field finds the value that was written for it;
* `canonicalJSON`, **`canonicalJSON_eq_some`** — encode, decode into an `any`, encode.
-/
import AgentRuntime.JsonAny

namespace GoJson

open GoString List

/-! ### Fields -/

/-- The members that are there. -/
def present (fields : List (GoString × Option Value)) : List (GoString × Value) :=
  fields.filterMap fun f => f.2.map fun v => (f.1, v)

/-- The object that is written for a struct with these fields. -/
def struct (fields : List (GoString × Option Value)) : Value := .object (present fields)

/-- A string field that is left out if it is empty. -/
def omitEmpty (s : GoString) : Option Value := if s = [] then none else some (.string s)

/-- The names of the fields differ up to case, and have nothing to replace. -/
structure Fields (names : List GoString) : Prop where
  distinct : (names.map foldName).Nodup
  valid : ∀ name ∈ names, toValidUTF8 name = name

instance (names : List GoString) : Decidable (Fields names) :=
  decidable_of_iff ((names.map foldName).Nodup ∧ ∀ name ∈ names, toValidUTF8 name = name)
    ⟨fun h => ⟨h.1, h.2⟩, fun h => ⟨h.distinct, h.valid⟩⟩

/-- A value after it was written and decoded into an `any`. -/
def decoded (v : Value) : Value := reformat (generic (clean v))

@[simp] lemma decoded_array (items : List Value) :
    decoded (.array items) = .array (items.map decoded) := by
  simp only [decoded, clean, cleanItems_eq, generic, genericItems_eq, reformat, reformatItems_eq,
    map_map]
  rfl

variable {fields : List (GoString × Option Value)} {v : Value} {ms : List (GoString × Value)}
  {a s b : GoString} {m : GoString × Value} {n : ℕ}

lemma mem_present : m ∈ present fields ↔ (m.1, some m.2) ∈ fields := by
  rw [present, mem_filterMap]
  constructor
  · rintro ⟨⟨_, o⟩, hf, hm⟩
    obtain ⟨v, rfl, rfl⟩ := Option.map_eq_some_iff.mp hm
    exact hf
  · exact fun h => ⟨_, h, rfl⟩

lemma present_keys (fields : List (GoString × Option Value)) :
    ((present fields).map Prod.fst).Sublist (fields.map Prod.fst) := by
  induction fields with
  | nil => exact List.Sublist.refl _
  | cons f _ ih =>
    obtain ⟨_, o⟩ := f
    cases o with
    | none => exact ih.cons _
    | some => exact ih.cons_cons _

lemma Fields.present
    (h : Fields (fields.map Prod.fst)) : Fields ((present fields).map Prod.fst) where
  distinct := ((present_keys fields).map foldName).nodup h.distinct
  valid name hname := h.valid name ((present_keys fields).subset hname)

/-- Writing members with new keys does not lose any. -/
lemma insertMember_perm {key : GoString}
    (h : ∀ m ∈ ms, m.1 ≠ key) : (insertMember key v ms).Perm ((key, v) :: ms) := by
  induction ms with
  | nil => exact List.Perm.refl _
  | cons m _ ih =>
    obtain ⟨k, w⟩ := m
    have hne : key ≠ k := fun heq => h _ mem_cons_self heq.symm
    rw [insertMember, if_neg hne]
    split
    · exact List.Perm.refl _
    · exact ((ih (forall_mem_cons.mp h).2).cons _).trans (.swap _ _ _)

lemma genericMembers_perm {written : List (GoString × Value)}
    (h : ((written ++ ms).map Prod.fst).Nodup) :
    (genericMembers written ms).Perm (written ++ mapValues generic ms) := by
  induction ms generalizing written with
  | nil => simp [genericMembers, mapValues]
  | cons m ms ih =>
    obtain ⟨k, v⟩ := m
    have hnew : ∀ m ∈ written, m.1 ≠ k := by
      intro m hm heq
      rw [map_append] at h
      exact disjoint_of_nodup_append h (mem_map_of_mem hm)
        (by rw [heq]; exact mem_cons_self)
    have hperm := insertMember_perm (v := generic v) hnew
    have hnext : ((insertMember k (generic v) written ++ ms).map Prod.fst).Nodup := by
      have hkeys := (hperm.append_right ms).map Prod.fst
      refine hkeys.nodup_iff.mpr ?_
      have hmiddle : ((written ++ (k, v) :: ms).map Prod.fst).Perm
          (((k, generic v) :: written ++ ms).map Prod.fst) := by
        simp only [map_append, map_cons, cons_append]
        exact perm_middle
      exact hmiddle.nodup_iff.mp h
    refine (ih hnext).trans ?_
    refine (hperm.append_right _).trans ?_
    exact perm_middle.symm

lemma Fields.nodup {names : List GoString} (h : Fields names) : names.Nodup :=
  List.Nodup.of_map _ h.distinct

/-- The members of one name: at most one. -/
lemma membersNamed_of_fields (h : Fields (ms.map Prod.fst)) (hm : m ∈ ms) :
    membersNamed m.1 ms = [m.2] := by
  induction ms with
  | nil => cases hm
  | cons m' ms ih =>
    have htail : Fields (ms.map Prod.fst) :=
      ⟨(nodup_cons.mp h.distinct).2, fun name hname => h.valid name (mem_cons_of_mem _ hname)⟩
    have hhead : ∀ x ∈ ms, foldName x.1 ≠ foldName m'.1 := by
      intro x hx heq
      refine (nodup_cons.mp h.distinct).1 ?_
      rw [← heq]
      exact mem_map_of_mem (mem_map_of_mem hx)
    rcases mem_cons.mp hm with rfl | hm
    · have hnone : ms.filter (fun x => foldName x.1 == foldName m.1) = [] := by
        rw [filter_eq_nil_iff]
        intro x hx
        simpa using hhead x hx
      rw [membersNamed, filter_cons_of_pos (by simp), hnone]
      rfl
    · have hne : (foldName m'.1 == foldName m.1) = false :=
        beq_eq_false_iff_ne.mpr (hhead m hm).symm
      rw [membersNamed, filter_cons_of_neg (by simp [hne])]
      exact ih htail hm

lemma membersNamed_eq_nil {name : GoString}
    (h : foldName name ∉ (ms.map Prod.fst).map foldName) : membersNamed name ms = [] := by
  rw [membersNamed, map_eq_nil_iff, filter_eq_nil_iff]
  intro m hm heq
  refine h ?_
  rw [← beq_iff_eq.mp heq]
  exact mem_map_of_mem (mem_map_of_mem hm)

/-- **A field finds the value that was written for it.** -/
theorem membersNamed_decoded (fields : List (GoString × Option Value))
    (h : Fields (fields.map Prod.fst)) :
    ∃ ms, decoded (struct fields) = .object ms ∧
      ∀ f ∈ fields, membersNamed f.1 ms = (f.2.map decoded).toList := by
  have hpresent := h.present
  have hclean : cleanMembers (present fields) = mapValues clean (present fields) := by
    rw [cleanMembers_eq]
    refine map_congr_left fun m hm => ?_
    rw [hpresent.valid m.1 (mem_map_of_mem hm)]
  have hkeys : ∀ f : Value → Value, (mapValues f (present fields)).map Prod.fst =
      (present fields).map Prod.fst := by
    intro f
    rw [mapValues, map_map]
    rfl
  have hperm : (mapValues reformat (genericMembers [] (mapValues clean (present fields)))).Perm
      (mapValues decoded (present fields)) := by
    have hnodup : (([] ++ mapValues clean (present fields)).map Prod.fst).Nodup := by
      rw [nil_append, hkeys]
      exact hpresent.nodup
    have := (genericMembers_perm hnodup).map fun m : GoString × Value => (m.1, reformat m.2)
    refine this.trans (.of_eq ?_)
    simp only [mapValues, nil_append, map_map]
    rfl
  refine ⟨_, by rw [decoded, struct, clean, hclean, generic, reformat, reformatMembers_eq], ?_⟩
  have hfields : Fields ((mapValues reformat
      (genericMembers [] (mapValues clean (present fields)))).map Prod.fst) := by
    have hnames := hperm.map Prod.fst
    rw [hkeys] at hnames
    exact ⟨(hnames.map foldName).nodup_iff.mpr hpresent.distinct,
      fun name hname => hpresent.valid name (hnames.mem_iff.mp hname)⟩
  rintro ⟨name, o⟩ hf
  cases o with
  | some v =>
    have hv : (name, decoded v) ∈ mapValues reformat
        (genericMembers [] (mapValues clean (present fields))) :=
      hperm.mem_iff.mpr (mem_mapValues.mpr ⟨v, mem_present.mpr hf, rfl⟩)
    exact membersNamed_of_fields hfields hv
  | none =>
    refine membersNamed_eq_nil fun hmem => ?_
    have hnames := (hperm.map Prod.fst).map foldName
    rw [hkeys] at hnames
    obtain ⟨other, hother, heq⟩ := mem_map.mp (hnames.mem_iff.mp hmem)
    obtain ⟨⟨_, w⟩, hw, rfl⟩ := mem_map.mp hother
    have hk := mem_present.mp hw
    -- two fields whose names agree up to case are one field
    have hsame := inj_on_of_nodup_map h.distinct (mem_map_of_mem hf)
      (mem_map_of_mem hk) heq.symm
    have hone := inj_on_of_nodup_map h.nodup hf hk hsame
    simp at hone

/-! ### Encoding -/

lemma legible_struct :
    Legible (struct fields) (n + 1) ↔ ∀ f ∈ fields, ∀ v ∈ f.2, Legible v n := by
  simp only [struct, Legible, legibleMembers_iff, Nat.add_sub_cancel, mem_present]
  constructor
  · rintro ⟨-, h⟩ ⟨name, o⟩ hf v hv
    exact h (name, v) (Option.mem_def.mp hv ▸ hf)
  · exact fun h => ⟨Nat.succ_pos n, fun m hm => h _ hm m.2 rfl⟩

lemma legible_array {items : List Value} :
    Legible (.array items) (n + 1) ↔ ∀ v ∈ items, Legible v n := by
  simp [Legible]

lemma legible_clean : ∀ {n : ℕ}, Legible (clean v) n ↔ Legible v n := by
  induction v with
  | null | bool | number | string => exact Iff.rfl
  | array _ ih | object _ ih =>
    intro n
    simp only [clean, cleanItems_eq, cleanMembers_eq, Legible, legibleItems_iff, legibleMembers_iff,
      forall_mem_map]
    exact and_congr_right fun _ => forall₂_congr fun v hv => ih v hv

lemma numbers_struct (fields : List (GoString × Option Value)) :
    numbers (struct fields) = fields.flatMap fun f => (f.2.map numbers).getD [] := by
  induction fields with
  | nil => rfl
  | cons f _ ih =>
    obtain ⟨_, o⟩ := f
    rw [flatMap_cons, ← ih]
    cases o with
    | none | some => rfl

@[simp] lemma numbers_array (items : List Value) :
    numbers (.array items) = items.flatMap numbers := by
  rw [numbers]
  induction items with
  | nil => rfl
  | cons _ _ ih => rw [numbersItems, ih, flatMap_cons]

@[simp] lemma numbers_omitEmpty (s : GoString) : ((omitEmpty s).map numbers).getD [] = [] := by
  rw [omitEmpty]
  split
  all_goals rfl

lemma numbers_clean (v : Value) {l : GoString} : l ∈ numbers (clean v) ↔ l ∈ numbers v := by
  induction v with
  | null | bool | number | string => exact Iff.rfl
  | array _ ih | object _ ih =>
    simp only [clean, cleanItems_eq, cleanMembers_eq, numbers, mem_numbersItems, mem_numbersMembers,
      mem_map]
    constructor
    · rintro ⟨-, ⟨v, hv, rfl⟩, hl⟩
      exact ⟨v, hv, (ih v hv).mp hl⟩
    · rintro ⟨v, hv, hl⟩
      exact ⟨_, ⟨v, hv, rfl⟩, (ih v hv).mpr hl⟩

/-- All numbers of the value are in the range of a `float64`. -/
def InRange (v : Value) : Prop := ∀ l ∈ numbers v, (floatText l).isSome = true

/-- Encode a value, decode the text into an `any`, and encode that; the value is `none` if
it cannot be encoded. -/
def canonicalJSON (v : Option Value) : Option GoString := v.bind fun v => recode (render v)

theorem canonicalJSON_eq_some {v : Option Value} {t : GoString}
    (hlegible : ∀ u ∈ v, Legible u n) (h : canonicalJSON v = some t) :
    ∃ u, v = some u ∧ InRange u ∧ Canonical (decoded u) 10000 ∧ t = render (decoded u) := by
  obtain ⟨u, rfl, hrecode⟩ := Option.bind_eq_some_iff.mp h
  obtain ⟨x, w, hx, hdecode, hcanonical, rfl⟩ := recode_eq_some hrecode
  obtain rfl := eq_clean_of_parse (hlegible u rfl) hx
  obtain ⟨hrange, rfl⟩ := decodeAny_eq_some.mp hdecode
  exact ⟨u, rfl, fun l hl => hrange l ((numbers_clean u).mpr hl), hcanonical, rfl⟩

/-- A value goes through a round if it is nested at most 10000 levels deep and all its
numbers are in range, and only then. -/
lemma canonicalJSON_isSome (hv : Legible v n) :
    (canonicalJSON (some v)).isSome = true ↔ Legible v 10000 ∧ InRange v := by
  constructor
  · intro h
    obtain ⟨t, ht⟩ := Option.isSome_iff_exists.mp h
    obtain ⟨u, w, hu, hdecode, -, -⟩ := recode_eq_some ht
    obtain rfl := eq_clean_of_parse hv hu
    obtain ⟨hrange, -⟩ := decodeAny_eq_some.mp hdecode
    exact ⟨legible_clean.mp (parse_legible hu).1, fun l hl => hrange l ((numbers_clean v).mpr hl)⟩
  · rintro ⟨hlegible, hrange⟩
    have hdecode : decodeAny (clean v) = some (decoded v) :=
      decodeAny_eq_some.mpr ⟨fun l hl => hrange l ((numbers_clean v).mp hl), rfl⟩
    rw [canonicalJSON, Option.bind_some, recode, parse_render hlegible, Option.bind_some, hdecode]
    rfl

/-- The text of a round determines its result. -/
lemma Canonical.render_inj {w : Value} (hv : Canonical v 10000) (hw : Canonical w 10000)
    (h : render v = render w) : v = w := by
  have hparse := hv.parse
  rw [h, hw.parse] at hparse
  exact (Option.some.inj hparse).symm

/-! ### Raw messages -/

/-- The value of a raw message, which is written as `null` if it is empty; `none` if it is
not JSON. -/
def exactRaw (s : GoString) : Option Value := if s = [] then some .null else exactParse s

/-- The value as Go reads it. -/
def readRaw (s : GoString) : Option Value := if s = [] then some .null else parse s

def rawTree (s : GoString) : Value := (readRaw s).getD .null

/-- A raw message after a round. -/
def roundRaw (s : GoString) : GoString := render (decoded (rawTree s))

/-- Two raw messages hold the same JSON value, with exact numbers and strings. -/
def SameRaw (a b : GoString) : Prop :=
  a = b ∨ ∃ v w, exactRaw a = some v ∧ exactRaw b = some w ∧ SameJSON v w

/-- Nothing at one place of the raw messages is different and read alike. -/
def NoAliasRaw (a b : GoString) : Prop :=
  ∀ v w, exactRaw a = some v → exactRaw b = some w → NoAlias v w

/-- All that counts in the raw message is kept by a pass through Go. -/
def KeptRaw (a : GoString) : Prop := ∀ v, exactRaw a = some v → KeptJSON v

lemma readRaw_eq_some {u : Value} (h : readRaw s = some u) :
    ∃ v, exactRaw s = some v ∧ lossyValue v = u := by
  rw [readRaw] at h
  rw [exactRaw]
  split at h
  · rename_i hnil
    rw [if_pos hnil]
    cases h
    exact ⟨.null, rfl, rfl⟩
  · rename_i hne
    rw [if_neg hne]
    exact Option.map_eq_some_iff.mp h

lemma readRaw_sound (h : readRaw s = some v) : Legible v 10000 ∧ clean v = v := by
  rw [readRaw] at h
  split at h
  · cases h
    exact ⟨trivial, rfl⟩
  · exact parse_legible h

lemma legible_rawTree (s : GoString) : Legible (rawTree s) 10000 := by
  rw [rawTree]
  cases h : readRaw s with
  | none => exact trivial
  | some => exact (readRaw_sound h).1

lemma decodeAny_of_readRaw (h : readRaw s = some v)
    (hrange : InRange v) : decodeAny v = some (decoded v) ∧ Canonical (decoded v) 10000 := by
  obtain ⟨hlegible, hclean⟩ := readRaw_sound h
  have hdecode : decodeAny v = some (decoded v) :=
    decodeAny_eq_some.mpr ⟨hrange, by rw [decoded, hclean]⟩
  exact ⟨hdecode, canonical_of_decodeAny hlegible hclean hdecode⟩

/-- Raw messages that come out alike hold the same value, unless something is aliased. -/
lemma sameRaw_iff {w : Value} (ha : readRaw a = some v)
    (hb : readRaw b = some w) (hv : InRange v) (hw : InRange w)
    (h : roundRaw a = roundRaw b) : SameRaw a b ↔ NoAliasRaw a b := by
  obtain ⟨hdv, hcv⟩ := decodeAny_of_readRaw ha hv
  obtain ⟨hdw, hcw⟩ := decodeAny_of_readRaw hb hw
  rw [roundRaw, roundRaw, rawTree, rawTree, ha, hb] at h
  obtain ⟨x, hx, rfl⟩ := readRaw_eq_some ha
  obtain ⟨y, hy, rfl⟩ := readRaw_eq_some hb
  have hiff := sameJSON_iff_of_decodeAny hdv (hcv.render_inj hcw h ▸ hdw)
  constructor
  · intro hsame x' y' hx' hy'
    cases hx.symm.trans hx'
    cases hy.symm.trans hy'
    refine hiff.mp ?_
    obtain rfl | ⟨_, _, hx', hy', hsame⟩ := hsame
    · cases hx.symm.trans hy
      exact .refl x
    · cases hx.symm.trans hx'
      cases hy.symm.trans hy'
      exact hsame
  · exact fun hfree => .inr ⟨x, y, hx, hy, hiff.mpr (hfree x y hx hy)⟩

/-- Raw messages that look different from above hold different values. -/
lemma not_sameRaw (hne : a ≠ b)
    (htop : (exactRaw a).map top ≠ (exactRaw b).map top) : ¬ SameRaw a b := by
  rintro (heq | ⟨v, w, hv, hw, hsame⟩)
  · exact hne heq
  · rw [hv, hw] at htop
    exact htop (hsame [])

lemma exactRaw_roundRaw (ha : readRaw a = some v) (hv : InRange v) :
    exactRaw (roundRaw a) = some (decoded v) := by
  obtain ⟨-, hcanonical⟩ := decodeAny_of_readRaw ha hv
  obtain ⟨b, u, hrender, -⟩ := render_head hcanonical.legible
  have hne : render (decoded v) ≠ [] := by rw [hrender]; simp
  rw [roundRaw, rawTree, ha, Option.getD_some, exactRaw, if_neg hne, hcanonical.exactParse]

/-- What comes out holds the value that went in, unless something is not kept. -/
lemma sameRaw_roundRaw (ha : readRaw a = some v) (hv : InRange v) :
    SameRaw (roundRaw a) a ↔ KeptRaw a := by
  -- what comes out is canonical, so it is read exactly as Go reads it
  have hread := exactRaw_roundRaw ha hv
  obtain ⟨hdecode, -⟩ := decodeAny_of_readRaw ha hv
  obtain ⟨x, hx, rfl⟩ := readRaw_eq_some ha
  have hiff := sameJSON_decodeAny hdecode
  constructor
  · intro hsame x' hx'
    cases hx.symm.trans hx'
    refine hiff.mp ?_
    obtain heq | ⟨_, _, hround, hx', hsame⟩ := hsame
    · rw [heq, hx, Option.some.injEq] at hread
      rw [← hread]
      exact .refl x
    · cases hread.symm.trans hround
      cases hx.symm.trans hx'
      exact hsame
  · exact fun h => .inr ⟨_, x, hread, hx, hiff.mpr (h x hx)⟩

end GoJson
