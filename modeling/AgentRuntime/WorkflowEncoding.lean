/-
The size that a Workflow state records of itself (`encodeExecutionState` of
`workflow/execution.go`).

The budget inside a state holds the length of the text of the state, which depends on it in
turn.  So the state is written again with the length of the last text, three times.

* **`encodeExecutionState_sized`** — three times are enough.
-/
import AgentRuntime.WorkflowState

namespace Workflow

open GoString GoJson List

/-! ### Writing a state -/

def Budget.marshal (b : Budget) (stateBytes : ℕ) : GoString :=
  lit "\x7b\"nodeActivations\":" ++ formatUint b.nodeActivations ++
    lit ",\"effects\":" ++ formatUint b.effects ++ lit ",\"segments\":" ++ formatUint b.segments ++
    lit ",\"stateBytes\":" ++ (formatUint stateBytes ++
    (lit ",\"costUnitsUsed\":" ++ formatInt b.costUnitsUsed.toInt ++
    lit ",\"costUnitsReserved\":" ++ formatInt b.costUnitsReserved.toInt ++ lit "\x7d"))

-- the text of a state up to its budget, which is the last member: nothing is assumed of it
variable (front : State → Except GoError GoString) (s : State)

/-- `json.Marshal` of the state with that size in its budget. -/
def State.marshal (stateBytes : ℕ) : Except GoError GoString :=
  match front s with
  | .error err => .error (errInvalidExecution.and err)
  | .ok text => .ok (text ++ (s.budget.marshal stateBytes ++ lit "\x7d"))

/-- The turns of the loop. -/
def remarshal : ℕ → GoString → Except GoError GoString
  | 0, encoded => .ok encoded
  | n + 1, encoded => (s.marshal front encoded.length).bind (remarshal n)

def errStateTooLarge : GoError := ⟨lit "workflow state exceeds limit", false, false⟩

def encodeExecutionState : Except GoError GoString := do
  let encoded ← remarshal front s 3 (← s.marshal front 0)
  if s.definition.limits.maxStateBytes < encoded.length then throw errStateTooLarge
  else return encoded

/-! ### The size -/

variable {front s}

/-- Where the size stands in the text of a state. -/
lemma State.marshal_split {first : GoString} (h : s.marshal front 0 = .ok first) :
    ∃ a b, ∀ n, s.marshal front n = .ok (a ++ (formatUint n ++ b)) := by
  obtain ⟨a, b, hbudget⟩ : ∃ a b, ∀ n, s.budget.marshal n = a ++ (formatUint n ++ b) :=
    ⟨_, _, fun _ => rfl⟩
  cases htext : front s with
  | error => simp [State.marshal, htext] at h
  | ok text =>
    refine ⟨text ++ a, b ++ lit "\x7d", fun n => ?_⟩
    simp only [State.marshal, htext, hbudget, append_assoc]

lemma length_formatUint_le {n k : ℕ} (hk : 0 < k) : (formatUint n).length ≤ k ↔ n < 10 ^ k := by
  rw [formatUint, length_map, decimalDigits]
  split_ifs with hn
  · exact iff_of_true hk (hn ▸ by positivity)
  · rw [length_reverse, Nat.digits_length_le_iff (by norm_num)]

lemma length_formatUint_mono {m n : ℕ} (h : m ≤ n) :
    (formatUint m).length ≤ (formatUint n).length := by
  have hpos := length_pos_of_ne_nil (formatUint_ne_nil n)
  exact (length_formatUint_le hpos).mpr (h.trans_lt ((length_formatUint_le hpos).mp le_rfl))

/-- The size is right after three turns, also where it passes a power of ten. -/
lemma size_settled {size : ℕ → ℕ} {base : ℕ} (hsize : ∀ n, size n = base + (formatUint n).length) :
    size (size (size (size 0))) = size (size (size 0)) := by
  obtain ⟨k, hk⟩ : ∃ k, (formatUint (base + 1)).length = k := ⟨_, rfl⟩
  have hpos : 0 < k := hk ▸ length_pos_of_ne_nil (formatUint_ne_nil _)
  have hsecond : size (size 0) = base + k := by rw [hsize 0, hsize, ← hk]; rfl
  -- the second text has one digit more than the first at most, and so has the third
  have hdigits : ∀ j ≤ k + 1, (formatUint (base + j)).length ≤ k + 1 := by
    intro j hj
    have hbase : base + 1 < 10 ^ k := (length_formatUint_le hpos).mp hk.le
    have hroom : k < 10 ^ k := Nat.lt_pow_self (by norm_num)
    refine (length_formatUint_le k.succ_pos).mpr ?_
    rw [pow_succ]
    omega
  have hlow : k ≤ (formatUint (base + k)).length := hk ▸ length_formatUint_mono (by omega)
  have hmono : (formatUint (base + k)).length ≤ (formatUint (base + k + 1)).length :=
    length_formatUint_mono (Nat.le_succ _)
  have hnext := hdigits k k.le_succ
  have hlast := hdigits (k + 1) le_rfl
  rw [hsecond, hsize (base + k)]
  obtain heq | hmore := hlow.eq_or_lt
  · rw [← heq, hsize (base + k), ← heq]
  · rw [show (formatUint (base + k)).length = k + 1 by omega, hsize]
    rw [← add_assoc] at hlast ⊢
    omega

variable (front s)

/-- **The size that a state records** is the length of its text: three turns reach it, no text
of the state that records its own length is shorter, and the state is accepted exactly if
that length is within the limit. -/
theorem encodeExecutionState_sized :
    (∀ err, s.marshal front 0 = .error err → encodeExecutionState front s = .error err) ∧
    ∀ first, s.marshal front 0 = .ok first →
      (∃ base, ∀ n, ∃ text, s.marshal front n = .ok text ∧
        text.length = base + (formatUint n).length) ∧
      ∃ encoded, remarshal front s 3 first = .ok encoded ∧
        (∀ n, s.marshal front n = .ok encoded ↔ n = encoded.length) ∧
        (∀ other, s.marshal front other.length = .ok other → encoded.length ≤ other.length) ∧
        encodeExecutionState front s =
          if s.definition.limits.maxStateBytes < encoded.length then .error errStateTooLarge
          else .ok encoded := by
  refine ⟨fun err herr => by rw [encodeExecutionState, herr]; rfl, fun first hfirst => ?_⟩
  obtain ⟨a, b, htext⟩ := State.marshal_split hfirst
  obtain rfl : a ++ (formatUint 0 ++ b) = first := by simpa [htext] using hfirst
  obtain ⟨size, hsize⟩ : ∃ size : ℕ → ℕ, ∀ n, (a ++ (formatUint n ++ b)).length = size n :=
    ⟨_, fun _ => rfl⟩
  have hlength : ∀ n, size n = a.length + b.length + (formatUint n).length := by
    intro n
    rw [← hsize, length_append, length_append]
    omega
  have hturns : remarshal front s 3 (a ++ (formatUint 0 ++ b)) =
      .ok (a ++ (formatUint (size (size (size 0))) ++ b)) := by
    simp only [remarshal, htext, Except.bind, hsize]
  refine ⟨⟨_, fun n => ⟨_, htext n, (hsize n).trans (hlength n)⟩⟩, _, hturns, fun n => ?_,
    fun other hother => ?_, ?_⟩
  · rw [hsize, size_settled hlength, htext, Except.ok.injEq, append_cancel_left_eq,
      append_cancel_right_eq]
    exact ⟨formatUint_inj, congrArg _⟩
  · have hgrow : ∀ {m n}, m ≤ n → size m ≤ size n := fun h => by
      rw [hlength, hlength]
      exact Nat.add_le_add_left (length_formatUint_mono h) _
    have hown : size other.length = other.length := by
      rw [← hsize]
      rw [htext] at hother
      exact congrArg length (Except.ok.inj hother)
    rw [hsize, size_settled hlength, ← hown, ← hown, ← hown]
    exact hgrow (hgrow (hgrow (Nat.zero_le _)))
  · simp only [encodeExecutionState, htext, bind, Except.bind, hturns]
    rfl

end Workflow
