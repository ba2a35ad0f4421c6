/-
Jobs as Redis hashes (`agent-runtime-redis/queue.go`).

The Redis queue keeps a Job as a hash of texts, and every duration and time in it in milliseconds,
while requests are checked in nanoseconds.  Texts of numbers are kept as the numbers here, so that
writing and reading them is the identity.

* **`redis_contract_iff`** — the delivery contract is kept exactly for whole milliseconds.
-/
import AgentRuntime.DeliveryQueue

namespace RedisQueue

open GoString Kernel Queue

/-- The first instant of 1970. -/
def unixEpoch : Time := 62135596800 * second

/-- `t.UnixMilli()`. -/
def unixMilli (t : Time) : ℤ := (t - unixEpoch) / millisecond

/-- `millisTime` of the text of a number. -/
def millisTime (ms : ℤ) : Time := unixEpoch + ms * millisecond

/-- `optionalMillisTime`: a text that is empty or `0` is no time. -/
def optionalMillisTime (ms : Option ℤ) : Option Time :=
  if ms = some 0 then none else ms.map millisTime

/-- The fields of a hash that the scripts write after the Job is there; `none` for a field that the
hash does not have. -/
structure JobState where
  status : Status
  attempt : ℤ := 0
  generation : ℤ := 0
  availableMS : ℤ
  updatedMS : ℤ
  leaseID : Option GoString := none
  workerID : Option GoString := none
  claimedMS : Option ℤ := none
  expiresMS : Option ℤ := none
  lastErrorCode : GoString := []
  lastError : GoString := []
  completedMS : Option ℤ := none
  deadLetterMS : Option ℤ := none

/-- The hash of a Job. -/
structure JobHash extends JobState where
  (id queue clientJobID fingerprint kind : GoString)
  payload : RawMessage
  (priority maxAttempts visibilityMS initialBackoffMS maxBackoffMS backoffMultiplier : ℤ)
  requireTerminalFence : Bool
  createdMS : ℤ

/-- `enqueueArgs`. -/
def enqueueArgs (job : Job) : JobHash where
  id := job.id
  queue := job.queue
  clientJobID := job.clientJobID
  fingerprint := job.fingerprint
  kind := job.kind
  payload := job.payload
  priority := job.priority
  maxAttempts := job.policy.maxAttempts
  requireTerminalFence := job.policy.requireTerminalFence
  visibilityMS := job.policy.visibilityTimeout / millisecond
  initialBackoffMS := job.policy.initialBackoff / millisecond
  maxBackoffMS := job.policy.maxBackoff / millisecond
  backoffMultiplier := job.policy.backoffMultiplier
  status := job.status
  availableMS := unixMilli job.availableAt
  createdMS := unixMilli job.createdAt
  updatedMS := unixMilli job.updatedAt

/-- `redisPolicy`. -/
def redisPolicy (h : JobHash) : Policy where
  maxAttempts := h.maxAttempts
  visibilityTimeout := h.visibilityMS * millisecond
  initialBackoff := h.initialBackoffMS * millisecond
  maxBackoff := h.maxBackoffMS * millisecond
  backoffMultiplier := h.backoffMultiplier
  requireTerminalFence := h.requireTerminalFence

/-- The lease that `redisJob` reads; a missing field is an empty text. -/
def redisLease (h : JobHash) : Lease where
  id := h.leaseID.getD []
  workerID := h.workerID.getD []
  generation := UInt64.ofNat h.generation.toNat
  attempt := h.attempt
  claimedAt := millisTime (h.claimedMS.getD 0)
  expiresAt := millisTime (h.expiresMS.getD 0)

/-- `redisJob`. -/
def redisJob (h : JobHash) : Except QueueError Job :=
  if GoJson.valid h.payload then .ok {
    id := h.id, queue := h.queue, clientJobID := h.clientJobID, fingerprint := h.fingerprint
    kind := h.kind, payload := h.payload, priority := h.priority, policy := redisPolicy h
    status := h.status, attempt := h.attempt, generation := UInt64.ofNat h.generation.toNat
    availableAt := millisTime h.availableMS, createdAt := millisTime h.createdMS
    updatedAt := millisTime h.updatedMS, lastErrorCode := h.lastErrorCode
    lastError := h.lastError
    lease := if h.status = .leased then some (redisLease h) else none
    completedAt := optionalMillisTime h.completedMS
    deadLetterAt := optionalMillisTime h.deadLetterMS }
  else .error .invalidInput

/-- The hash after `claimQueueScript` has leased its Job. -/
def JobHash.claimed (h : JobHash) (workerID : GoString) (now : ℤ) : JobHash :=
  { h with
    attempt := h.attempt + 1
    generation := h.generation + 1
    status := .leased
    leaseID := some (lit "lease:" ++ h.id ++ lit ":" ++ formatInt (h.generation + 1))
    workerID := some workerID
    claimedMS := some now
    expiresMS := some (now + h.visibilityMS)
    updatedMS := now }

/-- The code of `renewQueueScript`, `ackQueueScript` and `nackQueueScript` for a hash: `1` under the
current lease, `-2` when it has expired. -/
def JobHash.leaseCode (h : JobHash) (leaseID workerID : GoString) (now : ℤ) : ℤ :=
  if h.status = .completed ∨ h.status = .deadLetter then -3
  else if h.status ≠ .leased ∨ h.leaseID ≠ some leaseID ∨ h.workerID ≠ some workerID then 0
  else if h.expiresMS.any (· ≤ now) then -2
  else 1

/-- **When the delivery contract is kept.**  The policy of an accepted request comes back from the
hash exactly if its three durations are whole milliseconds.  Whatever the scripts have written
since, a lease claimed at `t` expires after `t`, and its holder is not refused at that instant,
exactly if the visibility timeout is a millisecond at least, as it then is. -/
theorem redis_contract_iff (sha256 : GoString → GoString) (r : EnqueueRequest) (now : Time) (job : Job)
    (h : prepareEnqueue sha256 r now = .ok job) :
    ((redisJob (enqueueArgs job)).map Job.policy = .ok job.policy ↔
      millisecond ∣ job.policy.visibilityTimeout ∧ millisecond ∣ job.policy.initialBackoff ∧
        millisecond ∣ job.policy.maxBackoff) ∧
    (millisecond ∣ job.policy.visibilityTimeout → millisecond ≤ job.policy.visibilityTimeout) ∧
    ∀ (s : JobState) (t : Time) (workerID : GoString),
      let claimed := { enqueueArgs job with toJobState := s }.claimed workerID (unixMilli t)
      let lease := redisLease claimed
      (t < lease.expiresAt ↔ millisecond ≤ job.policy.visibilityTimeout) ∧
      (claimed.leaseCode lease.id lease.workerID (unixMilli t) = 1 ↔
        millisecond ≤ job.policy.visibilityTimeout) := by
  have hwhole : ∀ d : ℤ, d / millisecond * millisecond = d ↔ millisecond ∣ d := by
    intro d
    rw [millisecond]
    omega
  obtain ⟨hpayload, hpolicy⟩ := prepareEnqueue_valid sha256 h
  have hpos : 0 < job.policy.visibilityTimeout := by
    simp only [validPolicy, Bool.and_eq_true, decide_eq_true_eq] at hpolicy
    omega
  refine ⟨?_, Int.le_of_dvd hpos, fun s t workerID => ⟨?_, ?_⟩⟩
  · have hread : redisJob (enqueueArgs job) = .ok _ := if_pos hpayload
    rw [hread, Except.map, Except.ok.injEq, redisPolicy, enqueueArgs, ← hwhole, ← hwhole, ← hwhole]
    constructor
    · intro heq
      exact ⟨congrArg Policy.visibilityTimeout heq, congrArg Policy.initialBackoff heq,
        congrArg Policy.maxBackoff heq⟩
    · rintro ⟨hvisibility, hinitial, hmax⟩
      rw [hvisibility, hinitial, hmax]
  · -- the claim keeps the millisecond of `t`, so what counts is one more millisecond
    have hnext : ∀ x e v : ℤ,
        x < e + ((x - e) / 1000000 + v / 1000000) * 1000000 ↔ 1000000 ≤ v := by omega
    exact hnext t unixEpoch job.policy.visibilityTimeout
  have hlater : ∀ x v : ℤ, ¬ x + v / 1000000 ≤ x ↔ 1000000 ≤ v := by omega
  rw [millisecond, ← hlater (unixMilli t), ← millisecond]
  simp [JobHash.leaseCode, JobHash.claimed, redisLease, enqueueArgs]

/-- A request with a visibility timeout of so many nanoseconds. -/
def sampleRequest (visibility : ℤ) : EnqueueRequest where
  queue := lit "q"
  clientJobID := lit "c"
  kind := lit "k"
  payload := []
  priority := 0
  availableAt := 1
  policy := ⟨1, visibility, 0, second, 2, false⟩

def sampleJob (visibility : ℤ) : Job :=
  initialJob id (trimEnqueueRequest (sampleRequest visibility) 1) 1

lemma sampleJob_prepared {visibility : ℤ}
    (h : validEnqueueRequest (trimEnqueueRequest (sampleRequest visibility) 1) = true) :
    prepareEnqueue id (sampleRequest visibility) 1 = .ok (sampleJob visibility) := by
  rw [prepareEnqueue, normalizeEnqueueRequest, if_pos h]
  rfl

/-- A second comes back as it was written. -/
theorem redis_contract_second :
    (redisJob (enqueueArgs (sampleJob second))).map Job.policy = .ok (sampleJob second).policy :=
  (redis_contract_iff id (sampleRequest second) 1 _ (sampleJob_prepared (by decide +kernel))).1.mpr
    (by decide +kernel)

/-- **A lease that is over when it is handed out**: a timeout of one nanosecond is accepted, and it
is written as zero milliseconds. -/
theorem redis_contract_lost :
    prepareEnqueue id (sampleRequest 1) 1 = .ok (sampleJob 1) ∧
    (sampleJob 1).policy.visibilityTimeout = 1 ∧
    (redisPolicy (enqueueArgs (sampleJob 1))).visibilityTimeout = 0 ∧
    let claimed := (enqueueArgs (sampleJob 1)).claimed (lit "w") (unixMilli 1)
    (redisLease claimed).expiresAt ≤ 1 ∧
    claimed.leaseCode (redisLease claimed).id (lit "w") (unixMilli 1) = -2 :=
  ⟨sampleJob_prepared (by decide +kernel), by decide +kernel, by decide +kernel,
    by decide +kernel, by decide +kernel⟩

end RedisQueue
