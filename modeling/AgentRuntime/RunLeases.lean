/-
Run leases and the time a tool call takes (`agent/run_execution.go`, `agent/execution_policy.go`).

A Run may be bound to an execution lease.  The length of the lease is checked against the longest
time that the attempts of one tool call and the waits between them take, but before a dispatch
the lease is renewed only if no more than one call and a second are left of it.

* **`lease_covers_dispatch_iff`** — when the lease covers every dispatch.
-/
import AgentRuntime.MemoryStore
import Mathlib.Tactic.Linarith

namespace Agent

open GoString Kernel

/-- Durations are in nanoseconds. -/
structure CallPolicy where
  timeout : ℤ := 0
  maxAttempts : ℤ := 0
  initialBackoff : ℤ := 0
  maxBackoff : ℤ := 0
  maxConcurrency : ℤ := 0

structure ExecutionPolicy where
  model : CallPolicy := {}
  tool : CallPolicy := {}

def second : ℤ := 1000000000

def defaultExecutionPolicy : ExecutionPolicy where
  model := ⟨90 * second, 3, second / 2, 30 * second, 8⟩
  tool := ⟨30 * second, 2, second / 4, 5 * second, 32⟩

def orDefault (value default : ℤ) : ℤ := if value = 0 then default else value

/-- The only error is `ErrInvalidRequest`. -/
def normalizeCallPolicy (policy defaults : CallPolicy) : Option CallPolicy :=
  if policy.timeout < 0 ∨ policy.maxAttempts < 0 ∨ policy.initialBackoff < 0 ∨
      policy.maxBackoff < 0 ∨ policy.maxConcurrency < 0 then none
  else
    let policy : CallPolicy :=
      ⟨orDefault policy.timeout defaults.timeout, orDefault policy.maxAttempts defaults.maxAttempts,
        orDefault policy.initialBackoff defaults.initialBackoff,
        orDefault policy.maxBackoff defaults.maxBackoff,
        orDefault policy.maxConcurrency defaults.maxConcurrency⟩
    if policy.maxAttempts < 1 ∨ 32 < policy.maxAttempts ∨ policy.maxConcurrency < 1 ∨
      2147483647 < policy.maxConcurrency ∨ policy.maxBackoff < policy.initialBackoff then none
    else some policy

def ExecutionPolicy.resolve (policy : ExecutionPolicy) : Option ExecutionPolicy := do
  let model ← normalizeCallPolicy policy.model defaultExecutionPolicy.model
  let tool ← normalizeCallPolicy policy.tool defaultExecutionPolicy.tool
  return ⟨model, tool⟩

structure RunExecution where
  ownerID : GoString
  leaseDuration : ℤ

def safeToolRetryWindow (policy : CallPolicy) (available : ℤ) : Bool :=
  let attempts := policy.maxAttempts
  if attempts < 1 ∨ available ≤ 0 ∨ policy.timeout ≤ 0 then false
  else if policy.timeout > available / attempts then false
  else
    let remainder := available - attempts * policy.timeout
    if attempts = 1 then true
    else if policy.maxBackoff > 0 ∧ policy.maxBackoff > available / 2 then false
    else policy.maxBackoff + policy.maxBackoff / 5 ≤ remainder / (attempts - 1)

def validRunExecution (value : RunExecution) (policy : ExecutionPolicy) : Bool :=
  trimSpace value.ownerID ≠ [] ∧ trimSpace value.ownerID = value.ownerID ∧
    value.ownerID.length ≤ 128 ∧
    Memory.millisecond ≤ value.leaseDuration ∧ value.leaseDuration ≤ 24 * 3600 * second ∧
    value.leaseDuration - second > max policy.model.timeout policy.tool.timeout ∧
    safeToolRetryWindow policy.tool (value.leaseDuration - second)

def horizon (policy : ExecutionPolicy) : ℤ := max policy.model.timeout policy.tool.timeout + second

/-- The renewal before a dispatch, by the clock of the Store. -/
def keepRunLeaseAlive (policy : ExecutionPolicy) (config : RunExecution) (lease : ExecutionLease)
    (s : Memory.Store) (now : Time) : Except KernelError ExecutionLease × Memory.Store :=
  if now + horizon policy < lease.expiresAt then (.ok lease, s)
  else Memory.renewExecution s now ⟨lease, config.leaseDuration⟩

/-- The rounds of the loop of `retryDelay`. -/
def backOff (policy : CallPolicy) : ℕ → ℤ → ℤ
  | 0, delay => delay
  | n + 1, delay =>
    if delay < policy.maxBackoff then
      if delay > policy.maxBackoff / 2 then policy.maxBackoff else backOff policy n (delay * 2)
    else delay

/-- The longest answer of `retryDelay`: the jitter adds a fifth at most. -/
def longestDelay (policy : CallPolicy) (attempt : ℕ) : ℤ :=
  let delay := min (backOff policy (attempt - 1) policy.initialBackoff) policy.maxBackoff
  delay + delay / 5

/-- The longest time of the loop of `executeToolWithPolicy` from an attempt on, with `n` attempts
to follow, when calls keep to their timeout and no call waits for a permit. -/
def longestFrom (policy : CallPolicy) : ℕ → ℕ → ℤ
  | 0, _ => policy.timeout
  | n + 1, attempt => policy.timeout + longestDelay policy attempt + longestFrom policy n (attempt + 1)

def longestDispatch (policy : CallPolicy) : ℤ := longestFrom policy (policy.maxAttempts.toNat - 1) 1

lemma longestFrom_le (policy : CallPolicy) (n attempt : ℕ) : longestFrom policy n attempt ≤
    (n + 1) * policy.timeout + n * (policy.maxBackoff + policy.maxBackoff / 5) := by
  induction n generalizing attempt with
  | zero => simp [longestFrom]
  | succ n ih =>
    have hrest := ih (attempt + 1)
    have hdelay : longestDelay policy attempt ≤ policy.maxBackoff + policy.maxBackoff / 5 := by
      simp only [longestDelay]
      omega
    rw [longestFrom]
    push_cast
    linarith

/-- The admission check bounds the longest dispatch. -/
lemma longestDispatch_le {policy : CallPolicy} {available : ℤ}
    (h : safeToolRetryWindow policy available = true) : longestDispatch policy ≤ available := by
  have hmost := longestFrom_le policy (policy.maxAttempts.toNat - 1) 1
  simp only [safeToolRetryWindow] at h
  split at h
  · cases h
  split at h
  · cases h
  rename_i hone
  split at h
  · rename_i hsingle
    rw [hsingle, Int.ediv_one] at hone
    rw [longestDispatch, hsingle]
    exact not_lt.mp hone
  split at h
  · cases h
  have hwaits := of_decide_eq_true h
  have hn : ((policy.maxAttempts.toNat - 1 : ℕ) : ℤ) = policy.maxAttempts - 1 := by omega
  rw [Int.le_ediv_iff_mul_le (by omega)] at hwaits
  rw [hn] at hmost
  rw [longestDispatch]
  linarith

/-- **The lease covers every dispatch** exactly if the longest one ends a nanosecond after the
horizon at the latest: a lease that lasts longer than the horizon is not renewed. -/
theorem lease_covers_dispatch_iff {policy : ExecutionPolicy} {config : RunExecution}
    (hconfig : validRunExecution config policy = true) :
    (∀ (s s' : Memory.Store) (lease lease' : ExecutionLease) (now : Time),
      lease.expiresAt ≤ now + config.leaseDuration →
      keepRunLeaseAlive policy config lease s now = (.ok lease', s') →
      now + longestDispatch policy.tool ≤ lease'.expiresAt) ↔
    longestDispatch policy.tool ≤ horizon policy + 1 := by
  simp only [validRunExecution, decide_eq_true_eq] at hconfig
  obtain ⟨-, -, -, -, -, hone, hwindow⟩ := hconfig
  have hsecond : second = 1000000000 := rfl
  constructor
  · intro h
    -- a lease with one nanosecond more than the horizon is kept as it is
    have hissued : horizon policy + 1 ≤ 0 + config.leaseDuration := by
      rw [horizon]
      omega
    simpa using h {} {} ⟨[], [], [], 0, horizon policy + 1⟩ _ 0 hissued (if_pos (by simp))
  intro h s s' lease lease' now _ hkeep
  rw [keepRunLeaseAlive] at hkeep
  split at hkeep
  · rename_i hlasting
    cases hkeep
    refine le_trans ?_ (Int.add_one_le_of_lt hlasting)
    rw [add_assoc]
    exact add_le_add_right h now
  rw [Memory.renewExecution] at hkeep
  split at hkeep
  · cases hkeep
  dsimp only at hkeep
  split at hkeep
  · cases hkeep
  cases hkeep
  refine add_le_add_right ((longestDispatch_le hwindow).trans ?_) now
  omega

/-- The default policy, with a lease of two minutes. -/
theorem default_policy_covered : longestDispatch defaultExecutionPolicy.tool ≤ 91 * second + 1 ∧
    ∀ (s s' : Memory.Store) (lease lease' : ExecutionLease) (now : Time),
      lease.expiresAt ≤ now + 120 * second →
      keepRunLeaseAlive defaultExecutionPolicy ⟨lit "w", 120 * second⟩ lease s now = (.ok lease', s') →
      now + longestDispatch defaultExecutionPolicy.tool ≤ lease'.expiresAt := by
  have hvalid : validRunExecution ⟨lit "w", 120 * second⟩ defaultExecutionPolicy = true := by decide
  exact ⟨by decide, (lease_covers_dispatch_iff hvalid).mpr (by decide)⟩

def slowTools : ExecutionPolicy :=
  { defaultExecutionPolicy with tool := { defaultExecutionPolicy.tool with timeout := 100 * second } }

/-- Two attempts of a hundred seconds under a lease of five minutes, of which 101 seconds are
left. -/
theorem second_attempt_uncovered : slowTools.resolve = some slowTools ∧
    validRunExecution ⟨lit "w", 300 * second⟩ slowTools = true ∧
    ∃ lease : ExecutionLease, keepRunLeaseAlive slowTools ⟨lit "w", 300 * second⟩ lease {} 0 =
      (.ok lease, {}) ∧ lease.expiresAt < 0 + longestDispatch slowTools.tool :=
  ⟨rfl, by decide, ⟨[], [], [], 0, 101 * second + 1⟩, if_pos (by decide), by decide⟩

end Agent
