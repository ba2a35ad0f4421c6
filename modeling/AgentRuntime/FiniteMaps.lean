/-
Finite maps: totals over their values, updates of all values at once, and walks
along a parent map.

A finite map is an association list without repeated keys.  Its `total` adds a
weight over all values, in no particular order:

* `total_insert`, `total_of_lookup` — what writing and what removing one key
  does to a total;
* `total_mapValues` — what updating every value does to it;
* `total_le` — totals are monotone in the weight.

A parent map sends every key to its parent and has one root.  `walk` follows it
with a bounded number of steps:

* `walk_eq_cons` — where a rank falls along the parent map, a walk that has
  enough steps never runs out of them;
* `walk_congr` — it depends on the parents of the keys it visits only.
-/
import Mathlib.Data.List.AList
import Mathlib.Algebra.Order.BigOperators.Group.List

namespace FiniteMap
open List

/-- Association lists without repeated keys. -/
abbrev Map (κ ν : Type) := AList fun _ : κ => ν

variable {κ ν M : Type} {m : Map κ ν} {k : κ} {v : ν}

section Keys

variable [DecidableEq κ] {k' : κ}

lemma mem_entries {e : Σ _ : κ, ν} : e ∈ m.entries ↔ m.lookup e.1 = some e.2 :=
  AList.mem_lookup_iff.symm

lemma mem_of_lookup (h : m.lookup k = some v) : k ∈ m :=
  AList.lookup_isSome.mp (by rw [h]; rfl)

/-- A key that is there comes apart from the rest of the map. -/
lemma entries_perm (h : m.lookup k = some v) :
    m.entries.Perm (⟨k, v⟩ :: (m.erase k).entries) := by
  obtain ⟨v', _, _, -, hl, herase⟩ := exists_of_kerase (mem_of_lookup h)
  have hv : v' = v := by
    have hmem : (⟨k, v'⟩ : Σ _ : κ, ν) ∈ m.entries := by rw [hl]; simp
    exact Option.some.inj ((mem_entries.mp hmem).symm.trans h)
  subst hv
  show m.entries.Perm (⟨k, v'⟩ :: kerase k m.entries)
  rw [herase, hl]
  exact perm_middle

lemma erase_of_notMem (h : k ∉ m) : m.erase k = m :=
  AList.ext (kerase_of_notMem_keys h)

lemma lookup_of_lookup_erase (h : (m.erase k).lookup k' = some v) : m.lookup k' = some v := by
  by_cases hk : k' = k
  · subst hk
    rw [AList.lookup_erase] at h
    cases h
  · rwa [AList.lookup_erase_ne hk] at h

lemma insert_erase : (m.erase k).insert k v = m.insert k v := by
  refine AList.ext ?_
  have hnot : k ∉ keys (kerase k m.entries) := notMem_keys_kerase k m.nodupKeys
  exact congrArg (cons _) (kerase_of_notMem_keys hnot)

lemma lookup_insert_of_ne (h : k' ≠ k) : (m.insert k v).lookup k' = m.lookup k' :=
  AList.lookup_insert_ne h

/-- What is found after a write was written now or found before. -/
lemma lookup_insert_cases {v' : ν} (h : (m.insert k v).lookup k' = some v') :
    (k' = k ∧ v' = v) ∨ (k' ≠ k ∧ m.lookup k' = some v') := by
  by_cases hk : k' = k
  · subst hk
    rw [AList.lookup_insert] at h
    exact .inl ⟨rfl, (Option.some.inj h).symm⟩
  · rw [AList.lookup_insert_ne hk] at h
    exact .inr ⟨hk, h⟩

end Keys

/-! ### Totals -/

section Total

variable [AddCommMonoid M] {f g : ν → M}

/-- The sum of the weights of all values. -/
def total (f : ν → M) (m : Map κ ν) : M := (m.entries.map fun e => f e.2).sum

lemma total_of_perm {l : List (Σ _ : κ, ν)} (h : l.Perm m.entries) :
    (l.map fun e => f e.2).sum = total f m :=
  (h.map _).sum_eq

lemma total_add : total (fun v => f v + g v) m = total f m + total g m := by
  simp [total, sum_map_add]

variable [DecidableEq κ]

theorem total_insert : total f (m.insert k v) = f v + total f (m.erase k) := by
  show ((m.insert k v).entries.map fun e => f e.2).sum = _
  rfl

theorem total_of_lookup (h : m.lookup k = some v) : total f m = f v + total f (m.erase k) := by
  show (m.entries.map fun e => f e.2).sum = _
  rw [((entries_perm h).map _).sum_eq, map_cons]
  rfl

lemma total_congr (h : ∀ k v, m.lookup k = some v → f v = g v) : total f m = total g m :=
  congrArg sum (map_congr_left fun e he => h e.1 e.2 (mem_entries.mp he))

lemma total_eq_zero (h : ∀ k v, m.lookup k = some v → f v = 0) : total f m = 0 :=
  sum_eq_zero fun x hx => by
    obtain ⟨e, he, rfl⟩ := mem_map.mp hx
    exact h e.1 e.2 (mem_entries.mp he)

variable [PartialOrder M] [IsOrderedAddMonoid M]

theorem total_le (h : ∀ k v, m.lookup k = some v → f v ≤ g v) : total f m ≤ total g m :=
  sum_le_sum fun e he => h e.1 e.2 (mem_entries.mp he)

lemma total_nonneg (h : ∀ k v, m.lookup k = some v → 0 ≤ f v) : 0 ≤ total f m :=
  sum_nonneg fun x hx => by
    obtain ⟨e, he, rfl⟩ := mem_map.mp hx
    exact h e.1 e.2 (mem_entries.mp he)

lemma total_erase_le (h : ∀ k v, m.lookup k = some v → 0 ≤ f v) :
    total f (m.erase k) ≤ total f m := by
  cases hk : m.lookup k with
  | none => rw [erase_of_notMem (AList.lookup_eq_none.mp hk)]
  | some v =>
    rw [total_of_lookup hk]
    exact le_add_of_nonneg_left (h k v hk)

end Total

/-! ### Updating every value -/

/-- Every value updated in place. -/
def mapValues (g : ν → ν) (m : Map κ ν) : Map κ ν where
  entries := m.entries.map fun e => ⟨e.1, g e.2⟩
  nodupKeys := by
    have hkeys : (m.entries.map fun e => (⟨e.1, g e.2⟩ : Σ _ : κ, ν)).keys = m.entries.keys := by
      simp [List.keys]
    show (List.keys _).Nodup
    rw [hkeys]
    exact m.nodupKeys

theorem total_mapValues [AddCommMonoid M] {f : ν → M} (g : ν → ν) :
    total f (mapValues g m) = total (f ∘ g) m := by
  simp only [total, mapValues, map_map]
  rfl

lemma lookup_mapValues [DecidableEq κ] (g : ν → ν) : (mapValues g m).lookup k = (m.lookup k).map g := by
  ext v
  have hleft : (mapValues g m).lookup k = some v ↔ (⟨k, v⟩ : Σ _ : κ, ν) ∈
      m.entries.map fun e => ⟨e.1, g e.2⟩ := AList.mem_lookup_iff
  rw [Option.map_eq_some_iff, hleft, mem_map]
  constructor
  · rintro ⟨⟨_, v'⟩, he, heq⟩
    cases heq
    exact ⟨v', mem_entries.mp he, rfl⟩
  · rintro ⟨v', hv', rfl⟩
    exact ⟨⟨k, v'⟩, mem_entries.mpr hv', rfl⟩

/-! ### Walks along a parent map -/

section Walk

variable [DecidableEq κ] {root x : κ} {parent parent' : κ → κ} {rank : κ → ℕ} {n n' : ℕ}

/-- The keys from `x` up to below the root, in at most `n` steps. -/
def walk (root : κ) (parent : κ → κ) : ℕ → κ → List κ
  | 0, _ => []
  | n + 1, x => if x = root then [] else x :: walk root parent n (parent x)

@[simp] lemma walk_root : walk root parent n root = [] := by
  cases n with
  | zero => rfl
  | succ => exact if_pos rfl

/-- With enough steps, more steps change nothing. -/
lemma walk_of_rank_le (hrank : ∀ x, x ≠ root → rank (parent x) < rank x) (hn : rank x ≤ n)
    (hn' : rank x ≤ n') : walk root parent n x = walk root parent n' x := by
  induction n generalizing x n' with
  | zero =>
    have hx : x = root := by
      by_contra hx
      have hlt := hrank x hx
      omega
    rw [hx, walk_root, walk_root]
  | succ n ih =>
    by_cases hx : x = root
    · rw [hx, walk_root, walk_root]
    have hlt := hrank x hx
    obtain ⟨n', rfl⟩ := Nat.exists_eq_add_one_of_ne_zero (by omega : n' ≠ 0)
    simp only [walk, if_neg hx]
    have hparent : walk root parent n (parent x) = walk root parent n' (parent x) :=
      ih (by omega) (by omega)
    rw [hparent]

/-- The walk from a key is the key and the walk from its parent. -/
theorem walk_eq_cons (hrank : ∀ x, x ≠ root → rank (parent x) < rank x) (hn : rank x ≤ n)
    (hx : x ≠ root) : walk root parent n x = x :: walk root parent n (parent x) := by
  have hlt := hrank x hx
  obtain ⟨n, rfl⟩ := Nat.exists_eq_add_one_of_ne_zero (by omega : n ≠ 0)
  have hparent : walk root parent (n + 1) (parent x) = walk root parent n (parent x) :=
    walk_of_rank_le hrank (by omega) (by omega)
  rw [hparent]
  simp [walk, if_neg hx]

theorem walk_congr (h : ∀ y ∈ walk root parent n x, parent' y = parent y) :
    walk root parent' n x = walk root parent n x := by
  induction n generalizing x with
  | zero => rfl
  | succ _ ih =>
    by_cases hx : x = root
    · subst hx
      rw [walk_root, walk_root]
    · simp only [walk, if_neg hx] at h ⊢
      rw [h x mem_cons_self, ih (forall_mem_cons.mp h).2]

/-- A property that passes from keys to their parents holds of the whole walk. -/
lemma walk_induction {P : κ → Prop} (hP : ∀ y, P y → parent y ≠ root → P (parent y))
    (hx : x ≠ root → P x) : ∀ y ∈ walk root parent n x, P y := by
  induction n generalizing x with
  | zero => exact fun y hy => nomatch hy
  | succ _ ih =>
    intro y hy
    by_cases hroot : x = root
    · rw [hroot, walk_root] at hy
      cases hy
    simp only [walk, if_neg hroot, mem_cons] at hy
    rcases hy with rfl | hy
    · exact hx hroot
    · exact ih (hP x (hx hroot)) y hy

/-- A walk with enough steps visits the parents of the keys it visits. -/
lemma parent_mem_walk (hrank : ∀ x, x ≠ root → rank (parent x) < rank x) (hn : rank x ≤ n)
    {y : κ} (hy : y ∈ walk root parent n x) (hne : parent y ≠ root) :
    parent y ∈ walk root parent n x := by
  induction n generalizing x with
  | zero => cases hy
  | succ _ ih =>
    by_cases hx : x = root
    · rw [hx, walk_root] at hy
      cases hy
    have hlt := hrank x hx
    simp only [walk, if_neg hx, mem_cons] at hy ⊢
    rcases hy with rfl | hy
    · right
      rw [walk_eq_cons hrank (by omega) hne]
      exact mem_cons_self
    · exact .inr (ih (by omega) hy)

end Walk

end FiniteMap
