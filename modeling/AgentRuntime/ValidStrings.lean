/-
Strings without stray bytes.

Strings that were read from JSON are valid UTF-8: their stray bytes have been replaced.

* **`trimSpace_toValidUTF8`** — a trimmed string stays so when its stray bytes are replaced.
-/
import AgentRuntime.JsonTexts

namespace GoJson

open GoString

lemma isSecond_isCont {a b : UInt8} (h : isSecond a b = true) : isCont b = true := by
  simp only [isSecond, isCont] at h ⊢
  split_ifs at h
  all_goals
    simp only [Bool.and_eq_true, decide_eq_true_eq, UInt8.le_iff_toNat_le, UInt8.reduceToNat] at h ⊢
    omega

/-- The bytes behind the first one of an encoding continue it; three bytes follow
from `0xE2`. -/
theorem IsRune.tail {a : UInt8} {t : GoString} (h : IsRune (a :: t)) :
    (∀ b ∈ t, isCont b = true) ∧ (a = 0xE2 → t.length = 2) ∧ (a < 0x80 → t = []) := by
  have hlen := h.2
  rw [runeLen.eq_def] at hlen
  dsimp only at hlen
  split at hlen
  · rename_i hascii
    obtain rfl : t = [] := by simpa using hlen.symm
    refine ⟨by simp, ?_, fun _ => rfl⟩
    rintro rfl
    exact absurd hascii (by decide)
  rename_i hascii
  split at hlen
  · rename_i hlead
    split at hlen
    · rename_i b rest
      split at hlen
      · rename_i hb
        obtain rfl : rest = [] := by simpa using hlen.symm
        refine ⟨?_, ?_, fun h => absurd h hascii⟩
        · intro c hc
          obtain rfl : c = b := by simpa using hc
          exact isSecond_isCont hb
        · rintro rfl
          exact absurd hlead (by decide)
      · simp at hlen
    · simp at hlen
  split at hlen
  · split at hlen
    · rename_i b c rest
      split at hlen
      · rename_i hb
        obtain rfl : rest = [] := by simpa using hlen.symm
        rw [Bool.and_eq_true] at hb
        refine ⟨?_, fun _ => rfl, fun h => absurd h hascii⟩
        intro d hd
        have hd' : d = b ∨ d = c := by simpa using hd
        rcases hd' with rfl | rfl
        · exact isSecond_isCont hb.1
        · exact hb.2
      · simp at hlen
    · simp at hlen
  rename_i hthree
  split at hlen
  · split at hlen
    · rename_i b c d rest
      split at hlen
      · rename_i hb
        obtain rfl : rest = [] := by simpa using hlen.symm
        rw [Bool.and_eq_true, Bool.and_eq_true] at hb
        refine ⟨?_, ?_, fun h => absurd h hascii⟩
        · intro x hx
          have hx' : x = b ∨ x = c ∨ x = d := by simpa using hx
          rcases hx' with rfl | rfl | rfl
          · exact isSecond_isCont hb.1.1
          · exact hb.1.2
          · exact hb.2
        · rintro rfl
          exact absurd hthree (by decide)
      · simp at hlen
    · simp at hlen
  · simp at hlen

end GoJson

namespace GoString

variable {t w e s : GoString}

lemma not_validUTF8_stray {a : UInt8} (h : runeLen (a :: t) = 0) :
    validUTF8 (a :: t) = false := by
  rw [validUTF8, runes_stray h]
  rfl

lemma runeLen_cont {b : UInt8} (h : isCont b = true) (t : GoString) : runeLen (b :: t) = 0 := by
  rw [isCont, Bool.and_eq_true, decide_eq_true_eq, decide_eq_true_eq] at h
  have hascii : ¬ b < 0x80 := UInt8.not_lt.mpr h.1
  -- the first bytes of longer encodings lie above the continuation bytes
  have habove : ∀ lo hi : UInt8, 0xBF < lo → (decide (lo ≤ b) && decide (b ≤ hi)) = false := by
    intro lo hi hlo
    rw [Bool.and_eq_false_iff]
    exact .inl (decide_eq_false fun hle => UInt8.not_lt.mpr (UInt8.le_trans hle h.2) hlo)
  have htwo := habove 0xC2 0xDF (by decide)
  have hthree := habove 0xE0 0xEF (by decide)
  have hfour := habove 0xF0 0xF4 (by decide)
  unfold runeLen
  simp [hascii, htwo, hthree, hfour]

lemma isRune_spaces : ∀ w ∈ spaces, IsRune w := by
  simp only [IsRune]
  decide

/-- The rune at the front is the only one there. -/
lemma IsRune.eq_of_isPrefix (hw : IsRune w) (he : IsRune e) (h : w <+: e ++ t) : w = e := by
  obtain ⟨u, hu⟩ := h
  have hlength : w.length = e.length := by
    rw [← hw.runeLen_append u, hu, he.runeLen_append]
  exact (List.append_inj hu hlength).1

/-- A rune at the end of a valid string does not reach into what stands before it. -/
lemma IsRune.isSuffix_of_valid (hw : IsRune w) (ht : validUTF8 t = true)
    (hne : t ≠ []) (h : w <:+ e ++ t) : w <:+ t := by
  rcases Nat.lt_or_ge t.length w.length with hlt | hle
  · exfalso
    obtain ⟨x, rfl⟩ := List.suffix_of_suffix_length_le (List.suffix_append e t) h hlt.le
    obtain ⟨b, t, rfl⟩ := List.exists_cons_of_ne_nil hne
    obtain _ | ⟨a, x⟩ := x
    · exact Nat.lt_irrefl _ hlt
    have hcont : isCont b = true := (GoJson.IsRune.tail hw).1 b (by simp)
    rw [not_validUTF8_stray (runeLen_cont hcont t)] at ht
    cases ht
  · exact List.suffix_of_suffix_length_le h (List.suffix_append e t) hle

lemma noFront_toValidUTF8 (h : NoFront spaces s) : NoFront spaces (toValidUTF8 s) := by
  intro w hw hfront
  have hrune := isRune_spaces w hw
  induction s using runeInduction with
  | nil => exact h w hw hfront
  | stray _ _ hstray =>
    rw [toValidUTF8_stray hstray] at hfront
    obtain rfl := hrune.eq_of_isPrefix isRune_replacement hfront
    exact absurd hw (by decide)
  | encoded _ t he =>
    rw [toValidUTF8_append he] at hfront
    obtain rfl := hrune.eq_of_isPrefix he hfront
    exact h w hw (List.prefix_append w t)

lemma noBack_toValidUTF8 (h : ∀ w ∈ spaces, ¬ w <:+ s) : ∀ w ∈ spaces, ¬ w <:+ toValidUTF8 s := by
  induction s using runeInduction with
  | nil => exact h
  | stray a t hstray ih =>
    intro w hw hback
    rw [toValidUTF8_stray hstray] at hback
    by_cases hnil : t = []
    · subst hnil
      have hnone : ∀ w ∈ spaces, ¬ w <:+ replacement := by decide
      exact hnone w hw (by simpa using hback)
    refine ih (fun v hv hback' => h v hv (hback'.trans (List.suffix_cons a t))) w hw ?_
    exact (isRune_spaces w hw).isSuffix_of_valid (validUTF8_toValidUTF8 t)
      (fun h0 => hnil (toValidUTF8_eq_nil.mp h0)) hback
  | encoded e t he ih =>
    intro w hw hback
    rw [toValidUTF8_append he] at hback
    by_cases hnil : t = []
    · subst hnil
      exact h w hw hback
    refine ih (fun v hv hback' => h v hv (hback'.trans (List.suffix_append e t))) w hw ?_
    exact (isRune_spaces w hw).isSuffix_of_valid (validUTF8_toValidUTF8 t)
      (fun h0 => hnil (toValidUTF8_eq_nil.mp h0)) hback

theorem trimSpace_toValidUTF8 (h : trimSpace s = s) :
    trimSpace (toValidUTF8 s) = toValidUTF8 s := by
  have hfront : NoFront spaces s := h ▸ trimSpace_noFront s
  have hback : NoFront (spaces.map List.reverse) s.reverse := by
    have hback' := trimSpace_noBack s
    rwa [h] at hback'
  refine trimSpace_eq_self (noFront_toValidUTF8 hfront) fun w hw hleft => ?_
  obtain ⟨v, hv, rfl⟩ := List.mem_map.mp hw
  refine noBack_toValidUTF8 (fun x hx hright => ?_) v hv (List.reverse_prefix.mp hleft)
  exact hback x.reverse (List.mem_map_of_mem hx) (List.reverse_prefix.mpr hright)

end GoString

