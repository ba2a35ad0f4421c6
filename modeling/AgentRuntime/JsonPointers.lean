/-
JSON pointers (`resolveJSONPointer` of `workflow/execution_advanced.go`, RFC 6901).

A value is what the code decodes: the names in an object are distinct.

* **`resolves_rfc6901_iff`** — when the code agrees with RFC 6901, which it does on every path.
-/
import AgentRuntime.WorkflowState

namespace Workflow.Pointer

open GoString GoJson List

/-! ### RFC 6901 -/

/-- One step into a value. -/
inductive Step
  | index (i : ℕ)
  | key (k : GoString)

def child : Value → Step → Option Value
  | .array items, .index i => items[i]?
  | .object members, .key k => (members.find? fun m => m.1 = k).map Prod.snd
  | _, _ => none

/-- What stands at the end of a path. -/
def follow : Value → List Step → Option Value
  | v, [] => some v
  | v, s :: path => (child v s).bind (follow · path)

/-- A reference token without its escapes; a tilde is only there to begin one. -/
def unescape : GoString → Option GoString
  | 0x7E :: 0x30 :: rest => (unescape rest).map (0x7E :: ·)
  | 0x7E :: 0x31 :: rest => (unescape rest).map (0x2F :: ·)
  | 0x7E :: _ => none
  | b :: rest => (unescape rest).map (b :: ·)
  | [] => some []

/-- An array index: `0`, or digits that do not begin with `0`. -/
def arrayIndex (part : GoString) : Option ℕ :=
  if part ≠ [] ∧ part.all isDigit ∧ (part.head? = some 0x30 → part = [0x30]) then
    some (decimalValue part)
  else none

/-- The token stands for the step. -/
def SpellsStrictly (token : GoString) : Step → Prop
  | .index i => (unescape token).bind arrayIndex = some i
  | .key k => unescape token = some k

/-- The pointer, which is not empty, leads to what stands at the end of the path that it spells. -/
def Evaluates (v : Value) (pointer : GoString) (w : Value) : Prop :=
  (lit "/").isPrefixOf pointer = true ∧
    ∃ path, Forall₂ SpellsStrictly (splitSlashes pointer.tail) path ∧ follow v path = some w

def escape (part : GoString) : GoString :=
  part.flatMap fun b => if b = 0x7E then [0x7E, 0x30] else if b = 0x2F then [0x7E, 0x31] else [b]

def stepName : Step → GoString
  | .index i => formatUint i
  | .key k => k

/-- The pointer of a path. -/
def encodePath (path : List Step) : GoString :=
  0x2F :: [0x2F].intercalate (path.map fun s => escape (stepName s))

/-! ### The code -/

/-- What the tokens of a pointer lead the code to. -/
def walk (v : Value) (tokens : List GoString) : Option Value :=
  tokens.foldlM (fun v token => pointerStep (pointerPart token) v) v

/-- The token with its escapes replaced is the key, or a number that is the index.  A sign and zeros
before the number do not matter, nor does a tilde that begins no escape. -/
def Spells (token : GoString) : Step → Prop
  | .index i => atoi (pointerPart token) = some (i : ℤ)
  | .key k => pointerPart token = k

/-- The arrays of a value are Go slices. -/
def Sized (v : Value) : Prop :=
  ∀ path items, follow v path = some (.array items) → items.length ≤ 2 ^ 63

variable {v w : Value} {s s' : Step} {part token value pointer : GoString} {tokens : List GoString}
  {path path' : List Step}

lemma replacePair_cons {a b new x : UInt8} (hx : x ≠ a) (l : GoString) :
    replacePair a b new (x :: l) = x :: replacePair a b new l := by
  cases l with
  | nil => rfl
  | cons => rw [replacePair, if_neg fun h => hx h.1]

/-- Replacing `~1` and then `~0` undoes the escapes of a token that has no other tilde. -/
lemma pointerPart_of_unescape (h : unescape token = some part) : pointerPart token = part := by
  rw [pointerPart]
  fun_induction unescape token generalizing part with
  | case1 rest ih =>
    obtain ⟨t, ht, rfl⟩ := Option.map_eq_some_iff.mp h
    rw [replacePair, if_neg (by decide), replacePair_cons (x := 0x30) (by decide),
      replacePair, if_pos ⟨rfl, rfl⟩, ih ht]
  | case2 rest ih =>
    obtain ⟨t, ht, rfl⟩ := Option.map_eq_some_iff.mp h
    rw [replacePair, if_pos ⟨rfl, rfl⟩, replacePair_cons (by decide), ih ht]
  | case3 => cases h
  | case4 b rest _ _ htilde ih =>
    obtain ⟨t, ht, rfl⟩ := Option.map_eq_some_iff.mp h
    rw [replacePair_cons htilde, replacePair_cons htilde, ih ht]
  | case5 =>
    cases h
    rfl

lemma atoi_of_arrayIndex {n : ℕ} (h : arrayIndex part = some n) :
    atoi part = if n < 2 ^ 63 then some (n : ℤ) else none := by
  rw [arrayIndex] at h
  split at h
  · rename_i hpart
    obtain ⟨hne, hdigits, -⟩ := hpart
    cases h
    -- digits only, so there is no sign that `strconv.Atoi` would take
    have hsign : ∀ sign, isDigit sign = false → part.head? ≠ some sign := by
      intro sign hsign hhead
      have hdigit := all_eq_true.mp hdigits sign (mem_of_head? hhead)
      rw [hsign] at hdigit
      cases hdigit
    have hminus := hsign 0x2D rfl
    have hplus := hsign 0x2B rfl
    simp only [atoi, hminus, hplus, or_self, if_false, hne, hdigits, not_true]
    refine if_congr ?_ rfl rfl
    omega
  · cases h

lemma pointerStep_eq_some :
    pointerStep (pointerPart token) v = some w ↔ ∃ s, Spells token s ∧ child v s = some w := by
  cases v with
  | object =>
    constructor
    · exact fun h => ⟨.key _, rfl, h⟩
    · rintro ⟨_ | _, hs, h⟩
      · cases h
      · cases hs
        exact h
  | array items =>
    constructor
    · intro h
      obtain ⟨index, hindex, h⟩ := Option.bind_eq_some_iff.mp h
      split at h
      · cases h
      · refine ⟨.index index.toNat, ?_, h⟩
        rw [Spells, hindex, Int.toNat_of_nonneg (by omega)]
    · rintro ⟨i | _, hs, h⟩
      · rw [Spells] at hs
        rw [pointerStep, hs]
        exact h
      · cases h
  | null | bool | number | string => simp [pointerStep, child]

/-- The steps that the code reads off the tokens make a path. -/
lemma walk_eq_some :
    walk v tokens = some w ↔ ∃ path, Forall₂ Spells tokens path ∧ follow v path = some w := by
  induction tokens generalizing v with
  | nil => simp [walk, follow]
  | cons token tokens ih =>
    rw [walk, foldlM_cons, Option.bind_eq_bind, Option.bind_eq_some_iff]
    constructor
    · rintro ⟨u, hu, hrest⟩
      obtain ⟨s, hs, hchild⟩ := pointerStep_eq_some.mp hu
      obtain ⟨path, hpath, hfollow⟩ := ih.mp hrest
      exact ⟨s :: path, .cons hs hpath, by rw [follow, hchild]; exact hfollow⟩
    · rintro ⟨_, _ | ⟨hs, hpath⟩, h⟩
      obtain ⟨u, hchild, hfollow⟩ := Option.bind_eq_some_iff.mp h
      exact ⟨u, pointerStep_eq_some.mpr ⟨_, hs, hchild⟩, ih.mpr ⟨_, hpath, hfollow⟩⟩

lemma Sized.child (hv : Sized v) (hw : child v s = some w) : Sized w := by
  intro path items _
  refine hv (s :: path) items ?_
  rwa [follow, hw]

/-- The code reads what a token stands for, except for an index that no slice has. -/
lemma SpellsStrictly.spells (hv : Sized v) (h : SpellsStrictly token s) (hw : child v s = some w) :
    Spells token s := by
  cases s with
  | key => exact pointerPart_of_unescape h
  | index i =>
    obtain ⟨part, hpart, hi⟩ := Option.bind_eq_some_iff.mp h
    rw [Spells, pointerPart_of_unescape hpart, atoi_of_arrayIndex hi]
    cases v with
    | array items =>
      have hlength := hv [] items rfl
      obtain ⟨hlt, -⟩ := List.getElem?_eq_some_iff.mp hw
      exact if_pos (by omega)
    | null | bool | number | string | object => cases hw

/-- A token spells one step at most that leads anywhere. -/
lemma Spells.unique (hs : Spells token s) (hs' : Spells token s') {u : Value} (h : child v s = some u)
    (h' : child v s' = some w) : s' = s := by
  cases v with
  | object | array =>
    cases s with
    | index | key =>
      cases s' with
      | index | key => simp_all [Spells, child]
  | null | bool | number | string => cases s <;> cases h

/-- Where the tokens stand for a path into the value, the code finds that path and no other. -/
lemma strictly_spelled (hv : Sized v) (h : follow v path = some w)
    (hpath : Forall₂ SpellsStrictly tokens path) : Forall₂ Spells tokens path ∧
      ∀ path' w', Forall₂ Spells tokens path' → follow v path' = some w' → path' = path := by
  induction hpath generalizing v with
  | nil => exact ⟨.nil, fun _ _ hpath' _ => by cases hpath'; rfl⟩
  | cons hs _ ih =>
    obtain ⟨u, hu, hrest⟩ := Option.bind_eq_some_iff.mp h
    have hspells := hs.spells hv hu
    obtain ⟨hloose, hunique⟩ := ih (hv.child hu) hrest
    refine ⟨.cons hspells hloose, ?_⟩
    rintro _ w' (_ | ⟨hs', hpath'⟩) h'
    -- another path has the same first step, and so the same value below it
    obtain ⟨u', hu', hrest'⟩ := Option.bind_eq_some_iff.mp h'
    obtain rfl := hspells.unique hs' hu hu'
    cases hu.symm.trans hu'
    rw [hunique _ w' hpath' hrest']

lemma resolveJSONPointer_eq_ok {r : GoString} (hv : (parse value).map generic = some v)
    (hne : pointer ≠ []) : resolveJSONPointer value pointer = .ok r ↔
      (lit "/").isPrefixOf pointer = true ∧ ∃ path w, Forall₂ Spells (splitSlashes pointer.tail) path ∧
        follow v path = some w ∧ r = render w := by
  obtain ⟨v, hparse, rfl⟩ := Option.map_eq_some_iff.mp hv
  rw [resolveJSONPointer, if_neg hne]
  split
  · rename_i hslash
    simp [hslash]
  rename_i hslash
  rw [and_iff_right (not_not.mp hslash)]
  simp only [hparse, Option.bind_some, foldlM_map]
  split
  · rename_i hw
    refine iff_of_false (by simp) ?_
    rintro ⟨path, w, hpath, hfollow, -⟩
    cases hw.symm.trans (walk_eq_some.mpr ⟨path, hpath, hfollow⟩)
  · rename_i w hw
    constructor
    · rintro ⟨⟩
      obtain ⟨path, hpath, hfollow⟩ := walk_eq_some.mp hw
      exact ⟨path, w, hpath, hfollow, rfl⟩
    · rintro ⟨path, w', hpath, hfollow, rfl⟩
      cases hw.symm.trans (walk_eq_some.mpr ⟨path, hpath, hfollow⟩)
      rfl

/-! ### Paths -/

lemma unescape_escape (part : GoString) : unescape (escape part) = some part := by
  induction part with
  | nil => rfl
  | cons _ _ ih =>
    rw [escape, flatMap_cons]
    rw [escape] at ih
    split
    · rename_i htilde
      rw [cons_append, cons_append, nil_append, unescape, ih, htilde]
      rfl
    split
    · rename_i hslash
      rw [cons_append, cons_append, nil_append, unescape, ih, hslash]
      rfl
    · rw [singleton_append, unescape.eq_4 _ _ (by simp_all) (by simp_all) (by simp_all), ih]
      rfl

lemma slash_not_mem_escape (part : GoString) : 0x2F ∉ escape part := by
  intro hmem
  obtain ⟨b, -, hb⟩ := mem_flatMap.mp hmem
  split at hb
  · exact absurd hb (by decide)
  split at hb
  · exact absurd hb (by decide)
  · rename_i hslash
    exact hslash (mem_singleton.mp hb).symm

lemma spells_escaped (s : Step) : SpellsStrictly (escape (stepName s)) s := by
  cases s with
  | key k => exact unescape_escape k
  | index i =>
    have hzero : (formatUint i).head? = some 0x30 → formatUint i = [0x30] := by
      intro hhead
      obtain ⟨t, ht⟩ := head?_eq_some_iff.mp hhead
      rw [ht, formatUint_head ht]
    have hdigits : (formatUint i).all isDigit = true :=
      all_eq_true.mpr fun b hb => formatUint_digits hb
    rw [SpellsStrictly, stepName, unescape_escape, Option.bind_some, arrayIndex,
      if_pos ⟨formatUint_ne_nil i, hdigits, hzero⟩, decimalValue_formatUint]

/-- **When pointers mean what RFC 6901 says.**  On every JSON text and for every pointer that is not
empty, the code succeeds as RFC 6901 says and with the value there, if and only if the tokens spell
no path into the value but by its rules.  The pointer of a path always leads to what stands there. -/
theorem resolves_rfc6901_iff (hv : (parse value).map generic = some v) (hsized : Sized v)
    (hne : pointer ≠ []) :
    ((∀ r, resolveJSONPointer value pointer = .ok r ↔ ∃ w, Evaluates v pointer w ∧ r = render w) ↔
      ((lit "/").isPrefixOf pointer = true → ∀ path w, follow v path = some w →
        Forall₂ Spells (splitSlashes pointer.tail) path →
          Forall₂ SpellsStrictly (splitSlashes pointer.tail) path)) ∧
    ∀ path w, path ≠ [] → follow v path = some w →
      resolveJSONPointer value (encodePath path) = .ok (render w) := by
  simp only [resolveJSONPointer_eq_ok hv hne]
  refine ⟨⟨fun h hslash path w hfollow hpath => ?_, fun h r => ⟨?_, ?_⟩⟩, fun path w hpath h => ?_⟩
  · -- the code answers here, so RFC 6901 does, and along the same path
    obtain ⟨w', ⟨-, path', hpath', hfollow'⟩, -⟩ :=
      (h (render w)).mp ⟨hslash, path, w, hpath, hfollow, rfl⟩
    rwa [(strictly_spelled hsized hfollow' hpath').2 path w hpath hfollow]
  · rintro ⟨hslash, path, w, hpath, hfollow, rfl⟩
    exact ⟨w, ⟨hslash, path, h hslash path w hfollow hpath, hfollow⟩, rfl⟩
  · rintro ⟨w, ⟨hslash, path, hpath, hfollow⟩, rfl⟩
    exact ⟨hslash, path, w, (strictly_spelled hsized hfollow hpath).1, hfollow, rfl⟩
  · have hsplit : splitSlashes (encodePath path).tail = path.map fun s => escape (stepName s) := by
      refine splitOn_intercalate _ ?_ (by simpa using hpath)
      exact forall_mem_map.mpr fun _ _ => slash_not_mem_escape _
    have hspelled : Forall₂ SpellsStrictly (path.map fun s => escape (stepName s)) path :=
      forall₂_map_left_iff.mpr (forall₂_same.mpr fun s _ => spells_escaped s)
    have hfound := (strictly_spelled hsized h hspelled).1
    rw [← hsplit] at hfound
    exact (resolveJSONPointer_eq_ok hv (cons_ne_nil _ _)).mpr ⟨rfl, path, w, hfound, h, rfl⟩

/-- Below the key `a/b` of an object, the last item of an array. -/
theorem resolves_escaped : ∃ v, (parse (lit "\x7b\"a/b\":[7,8]\x7d")).map generic = some v ∧
    Evaluates v (lit "/a~1b/1") (.number (lit "8")) ∧
    resolveJSONPointer (lit "\x7b\"a/b\":[7,8]\x7d") (lit "/a~1b/1") = .ok (lit "8") := by
  have hsized : Sized (.object [(lit "a/b", .array [.number (lit "7"), .number (lit "8")])]) := by
    rintro (_ | ⟨_ | k, path⟩) items h
    · cases h
    · cases h
    by_cases hk : lit "a/b" = k
    · subst hk
      rcases path with _ | ⟨(_ | _ | i) | _, _ | ⟨_, _⟩⟩
      all_goals cases h
      decide
    · rw [follow, child, find?_cons_of_neg (by simpa using hk)] at h
      cases h
  have hvalue : Evaluates (.object [(lit "a/b", .array [.number (lit "7"), .number (lit "8")])])
      (lit "/a~1b/1") (.number (lit "8")) :=
    ⟨rfl, [.key (lit "a/b"), .index 1], .cons rfl (.cons rfl .nil), rfl⟩
  refine ⟨_, rfl, hvalue, ?_⟩
  refine ((resolves_rfc6901_iff rfl hsized (by decide)).1.mpr ?_ _).mpr ⟨_, hvalue, rfl⟩
  intro _ path w _ hpath
  have hfirst : ∀ s, Spells (lit "a~1b") s → SpellsStrictly (lit "a~1b") s := by
    rintro (_ | _) ⟨⟩
    rfl
  have hsecond : ∀ s, Spells (lit "1") s → SpellsStrictly (lit "1") s := by
    rintro (i | _) hs
    · obtain rfl : 1 = i := Int.ofNat.inj (Option.some.inj hs)
      rfl
    · cases hs
      rfl
  obtain _ | ⟨hs, _ | ⟨hs', _ | _⟩⟩ := hpath
  exact .cons (hfirst _ hs) (.cons (hsecond _ hs') .nil)

/-- An index with a sign. -/
theorem resolves_signed_index : resolveJSONPointer (lit "[7]") (lit "/+0") = .ok (lit "7") ∧
    ∃ v, (parse (lit "[7]")).map generic = some v ∧ ∀ w, ¬ Evaluates v (lit "/+0") w := by
  refine ⟨rfl, _, rfl, ?_⟩
  rintro w ⟨-, _, _ | ⟨hs, _⟩, h⟩
  rename_i s _ _
  cases s with
  | index => cases hs
  | key => cases h

end Workflow.Pointer
