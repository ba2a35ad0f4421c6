/-
The reference delivery queue (`queue/queue.go`, `queue/memory.go`).

A Job is an immutable request with a mutable delivery state.  A worker claims a
Job under a lease, and only the holder of the current lease may renew, complete
or release it; an expired lease is noticed by the next call that looks at it.
Every method runs under the mutex of the queue, so each is one function on the
map of Jobs.
-/
import AgentRuntime.FiniteMaps
import AgentRuntime.JsonCanonical
import AgentRuntime.KernelTypes
import Mathlib.Data.List.Sort

namespace Queue

open GoString Kernel FiniteMap List Option

/-! ### Jobs -/

/-- The sentinel errors of the package. -/
inductive QueueError where
  | invalidInput
  | conflict
  | notFound
  | leaseLost
  | leaseExpired
  | jobTerminal
  deriving DecidableEq, Repr

/-- `err.Error()`. -/
def QueueError.text : QueueError → GoString
  | invalidInput => lit "invalid queue input"
  | conflict => lit "queue job conflict"
  | notFound => lit "queue job not found"
  | leaseLost => lit "queue lease lost"
  | leaseExpired => lit "queue lease expired"
  | jobTerminal => lit "queue job is terminal"

inductive Status where
  | queued
  | leased
  | completed
  | deadLetter
  deriving DecidableEq, Repr

/-- Bounded delivery and retry behaviour; durations are nanoseconds. -/
structure Policy where
  maxAttempts : ℤ
  visibilityTimeout : ℤ
  initialBackoff : ℤ
  maxBackoff : ℤ
  backoffMultiplier : ℤ
  requireTerminalFence : Bool := false
  deriving DecidableEq, Repr

/-- One monotonic claim generation. -/
structure Lease where
  id : GoString
  workerID : GoString
  generation : UInt64
  attempt : ℤ
  claimedAt : Time
  expiresAt : Time
  deriving DecidableEq, Repr

structure Job where
  id : GoString
  queue : GoString
  clientJobID : GoString
  fingerprint : GoString
  kind : GoString
  payload : RawMessage
  priority : ℤ
  policy : Policy
  status : Status
  attempt : ℤ := 0
  generation : UInt64 := 0
  availableAt : Time
  lease : Option Lease := none
  lastErrorCode : GoString := []
  lastError : GoString := []
  createdAt : Time
  updatedAt : Time
  completedAt : Option Time := none
  deadLetterAt : Option Time := none
  deriving DecidableEq, Repr

structure EnqueueRequest where
  queue : GoString
  clientJobID : GoString
  kind : GoString
  payload : RawMessage
  priority : ℤ
  availableAt : Time
  policy : Policy
  deriving DecidableEq, Repr

structure EnqueueResult where
  job : Job
  reused : Bool
  deriving DecidableEq, Repr

structure ClaimRequest where
  queue : GoString
  workerID : GoString
  limit : ℤ
  deriving DecidableEq, Repr

structure Delivery where
  job : Job
  lease : Lease
  deriving DecidableEq, Repr

structure LeaseRequest where
  jobID : GoString
  leaseID : GoString
  workerID : GoString
  deriving DecidableEq, Repr

structure NackRequest extends LeaseRequest where
  errorCode : GoString
  error : GoString
  allowDeadLetter : Bool
  deriving DecidableEq, Repr

/-! ### Requests -/

/-- `time.Millisecond`. -/
def millisecond : ℤ := 1000000

/-- `time.Second`. -/
def second : ℤ := 1000 * millisecond

def normalizePolicy (p : Policy) : Policy :=
  { p with
    maxAttempts := if p.maxAttempts ≤ 0 then 5 else p.maxAttempts
    visibilityTimeout := if p.visibilityTimeout ≤ 0 then 30 * second else p.visibilityTimeout
    initialBackoff := if p.initialBackoff < 0 then 0 else p.initialBackoff
    maxBackoff := if p.maxBackoff ≤ 0 then 5 * 60 * second else p.maxBackoff
    backoffMultiplier := if p.backoffMultiplier ≤ 1 then 2 else p.backoffMultiplier }

def validPolicy (p : Policy) : Bool :=
  0 < p.maxAttempts && p.maxAttempts ≤ 1000 &&
    0 < p.visibilityTimeout && p.visibilityTimeout ≤ 24 * 3600 * second &&
    0 ≤ p.initialBackoff && p.initialBackoff ≤ p.maxBackoff &&
    p.maxBackoff ≤ 7 * 24 * 3600 * second &&
    2 ≤ p.backoffMultiplier && p.backoffMultiplier ≤ 100

/-- `normalizeJSON`; a text that is not JSON is left as it is. -/
def normalizeJSON (value fallback : RawMessage) : RawMessage :=
  let value := if value = [] then fallback else value
  (GoJson.canonical value).getD value

/-- What `normalizeEnqueueRequest` strips and fills in. -/
def trimEnqueueRequest (r : EnqueueRequest) (now : Time) : EnqueueRequest :=
  { r with
    queue := trimSpace r.queue
    clientJobID := trimSpace r.clientJobID
    kind := trimSpace r.kind
    payload := normalizeJSON r.payload (lit "null")
    policy := normalizePolicy r.policy
    availableAt := if isZero r.availableAt then now else r.availableAt }

/-- The checks of `normalizeEnqueueRequest`. -/
def validEnqueueRequest (r : EnqueueRequest) : Bool :=
  !(r.queue = [] || r.clientJobID = [] || r.kind = [] || !GoJson.valid r.payload ||
    r.priority < -1000 || 1000 < r.priority || !validPolicy r.policy)

def normalizeEnqueueRequest (r : EnqueueRequest) (now : Time) : Except QueueError EnqueueRequest :=
  if validEnqueueRequest (trimEnqueueRequest r now) then .ok (trimEnqueueRequest r now)
  else .error .invalidInput

/-- An object whose members are given as texts. -/
def rawObject (members : List (GoString × GoString)) : GoString :=
  lit "\x7b" ++ (lit ",").intercalate (members.map fun m => GoJson.quote m.1 ++ lit ":" ++ m.2) ++
    lit "\x7d"

/-- `json.Marshal(policy)`; a false `requireTerminalFence` is left out. -/
def encodePolicy (p : Policy) : GoString :=
  rawObject ([
    (lit "maxAttempts", formatInt p.maxAttempts),
    (lit "visibilityTimeout", formatInt p.visibilityTimeout),
    (lit "initialBackoff", formatInt p.initialBackoff),
    (lit "maxBackoff", formatInt p.maxBackoff),
    (lit "backoffMultiplier", formatInt p.backoffMultiplier)] ++
    if p.requireTerminalFence then [(lit "requireTerminalFence", lit "true")] else [])

/-- The text whose hash is the fingerprint of a request.  The payload has been
through `normalizeJSON`, so `json.Marshal` copies it. -/
def enqueueMaterial (r : EnqueueRequest) : GoString :=
  rawObject [
    (lit "queue", GoJson.quote r.queue),
    (lit "clientID", GoJson.quote r.clientJobID),
    (lit "kind", GoJson.quote r.kind),
    (lit "payload", r.payload),
    (lit "priority", formatInt r.priority),
    (lit "policy", encodePolicy r.policy)]

section Identity

variable (sha256 : GoString → GoString)

def stableID (kind : GoString) (values : List GoString) : GoString :=
  kind ++ lit "_" ++ (hexEncode (sha256 ([0x1F].intercalate values))).take 32

/-- Identifiers of the queue have nothing to trim. -/
lemma stableID_trimmed {kind : GoString} (hkind : ∀ b ∈ kind, isGraphic b = true)
    (values : List GoString) :
    trimSpace (stableID sha256 kind values) = stableID sha256 kind values := by
  refine trimSpace_of_graphic fun b hb => ?_
  simp only [stableID, mem_append] at hb
  rcases hb with (hb | hb) | hb
  · exact hkind b hb
  · revert b
    decide +kernel
  · exact hexEncode_graphic (mem_of_mem_take hb)

def hashBytes (value : GoString) : GoString := hexEncode (sha256 value)

/-- The two halves of `jobIdentity`. -/
def jobID (r : EnqueueRequest) : GoString := stableID sha256 (lit "job") [r.queue, r.clientJobID]

def fingerprint (r : EnqueueRequest) : GoString := hashBytes sha256 (enqueueMaterial r)

/-- The initial Job of a normalized request. -/
def initialJob (r : EnqueueRequest) (now : Time) : Job where
  id := jobID sha256 r
  queue := r.queue
  clientJobID := r.clientJobID
  fingerprint := fingerprint sha256 r
  kind := r.kind
  payload := r.payload
  priority := r.priority
  policy := r.policy
  status := .queued
  availableAt := r.availableAt
  createdAt := now
  updatedAt := now

def prepareEnqueue (r : EnqueueRequest) (now : Time) : Except QueueError Job :=
  (normalizeEnqueueRequest r now).map fun r => initialJob sha256 r now

variable {sha256} in
lemma prepareEnqueue_ok {r : EnqueueRequest} {now : Time} {job : Job}
    (h : prepareEnqueue sha256 r now = .ok job) :
    job = initialJob sha256 (trimEnqueueRequest r now) now := by
  rw [prepareEnqueue, normalizeEnqueueRequest] at h
  split at h
  · exact (Except.ok.inj h).symm
  · simp [Except.map] at h

lemma prepareEnqueue_valid {r : EnqueueRequest} {now : Time} {job : Job}
    (h : prepareEnqueue sha256 r now = .ok job) :
    GoJson.valid job.payload = true ∧ validPolicy job.policy = true := by
  rw [prepareEnqueue, normalizeEnqueueRequest] at h
  split at h
  · rename_i hvalid
    cases h
    simp only [validEnqueueRequest] at hvalid
    simp_all [initialJob]
  · cases h

end Identity

/-! ### The end of a delivery -/

/-- The loop of `retryBackoff`, with the iterations that `min(attempt, 64)` allows. -/
def backoffLoop (p : Policy) : ℕ → ℤ → ℤ
  | 0, delay => if p.maxBackoff < delay then p.maxBackoff else delay
  | n + 1, delay =>
    if p.maxBackoff ≤ delay then p.maxBackoff
    else if p.maxBackoff / p.backoffMultiplier < delay then p.maxBackoff
    else backoffLoop p n (delay * p.backoffMultiplier)

def retryBackoff (p : Policy) (attempt : ℤ) : ℤ :=
  backoffLoop p (min attempt 64 - 1).toNat p.initialBackoff

/-- The products that the loop forms, before any of them is cut to 64 bits. -/
def backoffProducts (p : Policy) : ℕ → ℤ → List ℤ
  | 0, _ => []
  | n + 1, delay =>
    if p.maxBackoff ≤ delay ∨ p.maxBackoff / p.backoffMultiplier < delay then []
    else delay * p.backoffMultiplier :: backoffProducts p n (delay * p.backoffMultiplier)

section Backoff

variable {p : Policy} {delay : ℤ}

/-- The loop computes the capped exponential, however often it turns. -/
lemma backoffLoop_eq (hmul : 2 ≤ p.backoffMultiplier) (n : ℕ) (hdelay : 0 ≤ delay) :
    backoffLoop p n delay = min p.maxBackoff (delay * p.backoffMultiplier ^ n) := by
  induction n generalizing delay with
  | zero => grind [backoffLoop]
  | succ n ih =>
    have hpow : 1 ≤ p.backoffMultiplier ^ n := one_le_pow₀ (by omega)
    rw [backoffLoop, pow_succ']
    split_ifs with hreached hguard
    · -- the delay only grows from here
      refine (min_eq_left (hreached.trans ?_)).symm
      exact le_mul_of_one_le_right hdelay (by nlinarith)
    · -- the guard fires exactly if the next product passes the maximum
      have hnext := (Int.ediv_lt_iff_lt_mul (by omega)).mp hguard
      rw [← mul_assoc]
      exact (min_eq_left (hnext.le.trans (le_mul_of_one_le_right (by positivity) hpow))).symm
    · rw [ih (by positivity), mul_assoc]

lemma backoffProducts_le (hmul : 2 ≤ p.backoffMultiplier) (n : ℕ) (hdelay : 0 ≤ delay) :
    ∀ x ∈ backoffProducts p n delay, 0 ≤ x ∧ x ≤ p.maxBackoff := by
  induction n generalizing delay with
  | zero => exact forall_mem_nil _
  | succ n ih =>
    have hnext : 0 ≤ delay * p.backoffMultiplier := by positivity
    rw [backoffProducts]
    split_ifs with hstop
    · exact forall_mem_nil _
    · have hguard := not_lt.mp (not_or.mp hstop).2
      have hle := (Int.le_ediv_iff_mul_le (by omega)).mp hguard
      exact forall_mem_cons.mpr ⟨⟨hnext, hle⟩, ih hnext⟩

/-- Once 63 products were formed the delay is zero or has reached the maximum. -/
lemma backoff_capped (hmul : 2 ≤ p.backoffMultiplier) (hmax : p.maxBackoff ≤ 2 ^ 63)
    (hdelay : 0 ≤ delay) {n : ℕ} (hn : 63 ≤ n) :
    min p.maxBackoff (delay * p.backoffMultiplier ^ n) =
      min p.maxBackoff (delay * p.backoffMultiplier ^ 63) := by
  obtain rfl | hpos := hdelay.eq_or_lt
  · simp
  have hreached : ∀ k, 63 ≤ k → p.maxBackoff ≤ delay * p.backoffMultiplier ^ k := by
    intro k hk
    calc p.maxBackoff ≤ 2 ^ 63 := hmax
      _ ≤ 2 ^ k := pow_le_pow_right₀ (by norm_num) hk
      _ ≤ p.backoffMultiplier ^ k := pow_le_pow_left₀ (by norm_num) hmul k
      _ ≤ delay * p.backoffMultiplier ^ k := le_mul_of_one_le_left (by positivity) hpos
  rw [min_eq_left (hreached n hn), min_eq_left (hreached 63 le_rfl)]

end Backoff

/-- **The delay before a retry** is the exact exponential up to the maximum: no product
leaves the machine word, the cap on the iterations changes nothing, and a later attempt
never waits less. -/
theorem retryBackoff_exact {p : Policy} (hvalid : validPolicy p = true) {attempt : ℤ}
    (hattempt : 1 ≤ attempt) :
    retryBackoff p attempt =
        min p.maxBackoff (p.initialBackoff * p.backoffMultiplier ^ (attempt - 1).toNat) ∧
      (∀ x ∈ backoffProducts p (min attempt 64 - 1).toNat p.initialBackoff,
        -2 ^ 63 ≤ x ∧ x < 2 ^ 63) ∧
      retryBackoff p attempt = backoffLoop p (attempt - 1).toNat p.initialBackoff ∧
      ∀ later, attempt ≤ later → retryBackoff p attempt ≤ retryBackoff p later := by
  have hbounds : 0 ≤ p.initialBackoff ∧ p.maxBackoff ≤ 7 * 24 * 3600 * second ∧
      2 ≤ p.backoffMultiplier := by
    simp only [validPolicy, Bool.and_eq_true, decide_eq_true_eq] at hvalid
    exact ⟨hvalid.1.1.1.1.2, hvalid.1.1.2, hvalid.1.2⟩
  obtain ⟨hinitial, hweek, hmul⟩ := hbounds
  have hmax : p.maxBackoff < 2 ^ 63 := hweek.trans_lt (by decide)
  have hexact : ∀ k, 1 ≤ k → retryBackoff p k =
      min p.maxBackoff (p.initialBackoff * p.backoffMultiplier ^ (k - 1).toNat) := by
    intro k hk
    rw [retryBackoff, backoffLoop_eq hmul _ hinitial]
    obtain hcap | hcap := le_total k 64
    · rw [min_eq_left hcap]
    · rw [min_eq_right hcap]
      exact (backoff_capped hmul hmax.le hinitial (by omega)).symm
  refine ⟨hexact attempt hattempt, fun x hx => ?_, ?_, fun later hlater => ?_⟩
  · obtain ⟨hlow, hhigh⟩ := backoffProducts_le hmul _ hinitial x hx
    omega
  · rw [hexact attempt hattempt, backoffLoop_eq hmul _ hinitial]
  · rw [hexact attempt hattempt, hexact later (hattempt.trans hlater)]
    have hgrow : p.backoffMultiplier ^ (attempt - 1).toNat ≤ p.backoffMultiplier ^ (later - 1).toNat :=
      pow_le_pow_right₀ (by omega) (by omega)
    exact min_le_min_left _ (mul_le_mul_of_nonneg_left hgrow hinitial)

/-- A second that is doubled up to five minutes. -/
theorem retryBackoff_doubled :
    retryBackoff ⟨5, 30 * second, second, 300 * second, 2, false⟩ 100 =
      min (300 * second) (second * 2 ^ 99) :=
  (retryBackoff_exact (p := ⟨5, 30 * second, second, 300 * second, 2, false⟩) (by decide)
    (by decide : (1 : ℤ) ≤ 100)).1

namespace Job

/-- `releaseForRetryLocked`. -/
def release (job : Job) (now : Time) (allowDeadLetter : Bool) : Job :=
  if job.policy.maxAttempts ≤ job.attempt ∧ (¬ job.policy.requireTerminalFence ∨ allowDeadLetter) then
    { job with lease := none, updatedAt := now, status := .deadLetter, deadLetterAt := some now }
  else
    { job with
      lease := none, updatedAt := now, status := .queued
      availableAt := now + retryBackoff job.policy job.attempt }

/-- The lease under which the Job is out has ended. -/
def expired (job : Job) (now : Time) : Bool :=
  match job.lease with
  | some lease => job.status == .leased && lease.expiresAt ≤ now
  | none => false

/-- The Job is out under the lease of the request, whether that has ended or not. -/
def heldBy (job : Job) (r : LeaseRequest) : Bool :=
  match job.lease with
  | some lease => job.status == .leased && lease.id == r.leaseID && lease.workerID == r.workerID
  | none => false

def terminal (job : Job) : Bool := job.status == .completed || job.status == .deadLetter

/-- The identifier of the lease under which the Job is out. -/
def holder (job : Job) : Option GoString :=
  if job.status = .leased then job.lease.map Lease.id else none

/-- The lease of the next claim. -/
def nextLease (sha256 : GoString → GoString) (job : Job) (workerID : GoString) (now : Time) : Lease where
  id := stableID sha256 (lit "lease") [job.id, formatUint (job.generation + 1).toNat]
  workerID := workerID
  generation := job.generation + 1
  attempt := job.attempt + 1
  claimedAt := now
  expiresAt := now + job.policy.visibilityTimeout

/-- The Job after the next claim. -/
def claimed (sha256 : GoString → GoString) (job : Job) (workerID : GoString) (now : Time) : Job :=
  { job with
    attempt := job.attempt + 1
    generation := job.generation + 1
    status := .leased
    lease := some (job.nextLease sha256 workerID now)
    updatedAt := now }

end Job

/-! ### The methods -/

/-- The Jobs of a queue by identifier. -/
abbrev Jobs : Type := Map GoString Job

/-- The part of `Enqueue` under the lock. -/
def enqueue (jobs : Jobs) (job : Job) : Except QueueError EnqueueResult × Jobs :=
  match jobs.lookup job.id with
  | some existing =>
    if existing.fingerprint ≠ job.fingerprint then (.error .conflict, jobs)
    else (.ok ⟨existing, true⟩, jobs)
  | none => (.ok ⟨job, false⟩, jobs.insert job.id job)

/-- `reapExpiredLocked`: the Jobs afterwards. -/
def reapExpired (jobs : Jobs) (now : Time) (queueName : GoString) : Jobs :=
  mapValues (fun job =>
    if job.queue = queueName ∧ job.expired now then job.release now false else job) jobs

/-- `reapExpiredLocked`: how many Jobs it moves. -/
def countExpired (jobs : Jobs) (now : Time) (queueName : GoString) : ℕ :=
  jobs.entries.countP fun e => e.2.queue = queueName ∧ e.2.expired now

/-- The delivery order: priority, then availability, creation and identifier. -/
def deliveredBefore (left right : Job) : Bool :=
  if left.priority ≠ right.priority then right.priority < left.priority
  else if left.availableAt ≠ right.availableAt then left.availableAt < right.availableAt
  else if left.createdAt ≠ right.createdAt then left.createdAt < right.createdAt
  else left.id < right.id

/-- `eligibleLocked`. -/
def eligible (jobs : Jobs) (queueName : GoString) (now : Time) : List GoString :=
  ((jobs.entries.filter fun e =>
      e.2.queue = queueName ∧ e.2.status = .queued ∧ e.2.availableAt ≤ now).insertionSort
    fun a b => ¬ deliveredBefore b.2 a.2).map Sigma.fst

section Claim

variable (sha256 : GoString → GoString)

/-- The loop of `Claim` over the eligible Jobs. -/
def claimEach (workerID : GoString) (now : Time) : List GoString → Jobs → List Delivery × Jobs
  | [], jobs => ([], jobs)
  | id :: ids, jobs =>
    match jobs.lookup id with
    | none => claimEach workerID now ids jobs
    | some job =>
      let rest := claimEach workerID now ids (jobs.insert job.id (job.claimed sha256 workerID now))
      (⟨job.claimed sha256 workerID now, job.nextLease sha256 workerID now⟩ :: rest.1, rest.2)

/-- The limit of a claim; one Job by default. -/
def ClaimRequest.bound (r : ClaimRequest) : ℤ := if r.limit ≤ 0 then 1 else r.limit

def claim (jobs : Jobs) (now : Time) (r : ClaimRequest) :
    Except QueueError (List Delivery) × Jobs :=
  if trimSpace r.queue = [] ∨ trimSpace r.workerID = [] ∨ 100 < r.bound then
    (.error .invalidInput, jobs)
  else
    let reaped := reapExpired jobs now (trimSpace r.queue)
    let ids := (eligible reaped (trimSpace r.queue) now).take r.bound.toNat
    let result := claimEach sha256 (trimSpace r.workerID) now ids reaped
    (.ok result.1, result.2)

end Claim

def LeaseRequest.trimmed (r : LeaseRequest) : LeaseRequest :=
  ⟨trimSpace r.jobID, trimSpace r.leaseID, trimSpace r.workerID⟩

/-- `currentLeaseLocked`; a lease that turns out to have ended is released. -/
def currentLease (jobs : Jobs) (r : LeaseRequest) (now : Time) : Except QueueError Job × Jobs :=
  match jobs.lookup r.trimmed.jobID with
  | none => (.error .notFound, jobs)
  | some job =>
    if job.terminal then (.error .jobTerminal, jobs)
    else if ¬ job.heldBy r.trimmed then (.error .leaseLost, jobs)
    else if job.expired now then
      (.error .leaseExpired, jobs.insert job.id (job.release now false))
    else (.ok job, jobs)

/-- What `Renew`, `Ack` and `Nack` share: the holder of the current lease changes
the Job. -/
def withLease (jobs : Jobs) (r : LeaseRequest) (now : Time) (change : Job → Job) :
    Except QueueError Job × Jobs :=
  match currentLease jobs r now with
  | (.error e, jobs) => (.error e, jobs)
  | (.ok job, jobs) => (.ok (change job), jobs.insert job.id (change job))

def Job.renewed (now : Time) (job : Job) : Job :=
  { job with
    lease := job.lease.map fun lease =>
      { lease with expiresAt := now + job.policy.visibilityTimeout }
    updatedAt := now }

def Job.acked (now : Time) (job : Job) : Job :=
  { job with status := .completed, lease := none, updatedAt := now, completedAt := some now }

/-- `truncate`: at most `limit` runes, the last of them an ellipsis. -/
def truncate (value : GoString) (limit : ℕ) : GoString :=
  let value := trimSpace value
  if limit = 0 then []
  else if (runes value).length ≤ limit then value
  else ((runes value).take (limit - 1)).flatMap Rune.bytes ++ lit "…"

def Job.nacked (r : NackRequest) (now : Time) (job : Job) : Job :=
  { job with lastErrorCode := trimSpace r.errorCode, lastError := truncate r.error 1024 }.release now
    r.allowDeadLetter

def renew (jobs : Jobs) (now : Time) (r : LeaseRequest) : Except QueueError Job × Jobs :=
  withLease jobs r now (Job.renewed now)

def ack (jobs : Jobs) (now : Time) (r : LeaseRequest) : Except QueueError Job × Jobs :=
  withLease jobs r now (Job.acked now)

def nack (jobs : Jobs) (now : Time) (r : NackRequest) : Except QueueError Job × Jobs :=
  withLease jobs r.toLeaseRequest now (Job.nacked r now)

def reap (jobs : Jobs) (now : Time) (queueName : GoString) : Except QueueError ℕ × Jobs :=
  let queueName := trimSpace queueName
  if queueName = [] then (.error .invalidInput, jobs)
  else (.ok (countExpired jobs now queueName), reapExpired jobs now queueName)

def requeueDeadLetter (jobs : Jobs) (now : Time) (jobID : GoString) : Except QueueError Job × Jobs :=
  match jobs.lookup (trimSpace jobID) with
  | none => (.error .notFound, jobs)
  | some job =>
    if job.status ≠ .deadLetter then (.error .jobTerminal, jobs)
    else
      let job := { job with
        status := .queued, attempt := 0, availableAt := now, lease := none
        lastErrorCode := [], lastError := [], deadLetterAt := none, updatedAt := now }
      (.ok job, jobs.insert job.id job)

/-! ### What the methods do to one Job -/

/-- The part of a Job that no method changes. -/
structure SameRequest (job job' : Job) : Prop where
  id : job'.id = job.id
  queue : job'.queue = job.queue
  clientJobID : job'.clientJobID = job.clientJobID
  fingerprint : job'.fingerprint = job.fingerprint
  kind : job'.kind = job.kind
  payload : job'.payload = job.payload
  policy : job'.policy = job.policy

lemma SameRequest.refl (job : Job) : SameRequest job job := ⟨rfl, rfl, rfl, rfl, rfl, rfl, rfl⟩

lemma SameRequest.trans {a b c : Job} (h : SameRequest a b) (h' : SameRequest b c) :
    SameRequest a c :=
  ⟨h'.id.trans h.id, h'.queue.trans h.queue, h'.clientJobID.trans h.clientJobID,
    h'.fingerprint.trans h.fingerprint, h'.kind.trans h.kind, h'.payload.trans h.payload,
    h'.policy.trans h.policy⟩

/-- A Job that is given back is queued again or a dead letter, and has no lease. -/
lemma Job.release_cases (job : Job) (now : Time) (allow : Bool) :
    SameRequest job (job.release now allow) ∧ (job.release now allow).lease = none ∧
      ((job.release now allow).status = .queued ∨
        (job.release now allow).status = .deadLetter ∧
          (job.policy.requireTerminalFence = false ∨ allow = true)) := by
  rw [Job.release]
  split
  · rename_i hdead
    exact ⟨⟨rfl, rfl, rfl, rfl, rfl, rfl, rfl⟩, rfl, .inr ⟨rfl, by simpa using hdead.2⟩⟩
  · exact ⟨⟨rfl, rfl, rfl, rfl, rfl, rfl, rfl⟩, rfl, .inl rfl⟩

/-- What the methods other than `Enqueue`, `Claim`, `Ack` and `Nack` can do to the Job
of one identifier. -/
inductive Change (now : Time) : Option Job → Option Job → Prop
  | same (found : Option Job) : Change now found found
  | expired (job : Job) (hexpired : job.expired now = true) :
      Change now (some job) (some (job.release now false))
  | renewed (job : Job) (hstatus : job.status = .leased) (hcurrent : job.expired now = false) :
      Change now (some job) (some (job.renewed now))
  | requeued (job job' : Job) (hstatus : job.status = .deadLetter) (hsame : SameRequest job job')
      (hstatus' : job'.status = .queued) : Change now (some job) (some job')

/-- What is left of a Job when nobody claims it: its request, and at most the lease
it was out under, which only a holder in time has extended. -/
structure Kept (now : Time) (before after : Option Job) : Prop where
  request : ∀ job, before = some job → ∃ job', after = some job' ∧ SameRequest job job'
  holder : ∀ lease, after.bind Job.holder = some lease → before.bind Job.holder = some lease
  lease : ∀ job job', before = some job → after = some job' → job'.holder.isSome →
    job'.lease = job.lease ∨ job.expired now = false

variable {job job' : Job} {now : Time} {r : LeaseRequest} {before after : Option Job}

lemma Job.holder_of_queued (h : job.status = .queued) : job.holder = none := by
  rw [Job.holder, h]
  rfl

lemma Job.terminal_of_queued (h : job.status = .queued) : job.terminal = false := by
  rw [Job.terminal, h]
  rfl

lemma Job.leased_of_holder (h : job.holder.isSome) : job.status = .leased := by
  by_contra hstatus
  rw [Job.holder, if_neg hstatus] at h
  simp at h

/-- A lease that has ended stays so. -/
lemma Job.expired_of_lease {found : Job} {later : Time} (hlease : job.lease = found.lease)
    (hheld : job.holder.isSome) (hexpired : found.expired now = true) (hlater : now ≤ later) :
    job.expired later = true := by
  rw [Job.expired] at hexpired ⊢
  rw [hlease]
  split at hexpired
  · simp only [Bool.and_eq_true, decide_eq_true_eq] at hexpired
    rw [Job.leased_of_holder hheld]
    simpa using hexpired.2.trans hlater
  · simp at hexpired

lemma Job.holder_release (job : Job) (now : Time) (allow : Bool) :
    (job.release now allow).holder = none := by
  rw [Job.holder, (job.release_cases now allow).2.1]
  split <;> rfl

lemma Job.holder_renewed (job : Job) (now : Time) : (job.renewed now).holder = job.holder := by
  simp only [Job.holder, Job.renewed, Option.map_map]
  rfl

lemma Job.leased_of_heldBy (h : job.heldBy r = true) : job.status = .leased := by
  rw [Job.heldBy] at h
  split at h
  · simp only [Bool.and_eq_true, beq_iff_eq] at h
    exact h.1.1
  · simp at h

lemma Job.holder_of_heldBy (h : job.heldBy r = true) : job.holder = some r.leaseID := by
  have hstatus := Job.leased_of_heldBy h
  rw [Job.heldBy] at h
  split at h
  · rename_i hlease
    simp only [Bool.and_eq_true, beq_iff_eq] at h
    rw [Job.holder, if_pos hstatus, hlease, map_some, h.1.2]
  · simp at h

/-- A Job that nobody holds afterwards. -/
lemma Kept.of_free
    (hrequest : ∀ job, before = some job → SameRequest job job') (hholder : job'.holder = none) :
    Kept now before (some job') := by
  refine ⟨fun job hjob => ⟨job', rfl, hrequest job hjob⟩, ?_, ?_⟩
  · intro _ hlease
    rw [bind_some, hholder] at hlease
    simp at hlease
  rintro _ _ - hjob' hheld
  cases hjob'
  rw [hholder] at hheld
  simp at hheld

lemma Kept.refl (now : Time) (found : Option Job) : Kept now found found := by
  refine ⟨fun job hjob => ⟨job, hjob, .refl job⟩, fun _ h => h, ?_⟩
  rintro _ _ hjob hjob' -
  exact .inl (by rw [some.inj (hjob.symm.trans hjob')])

lemma Change.kept (h : Change now before after) : Kept now before after := by
  cases h with
  | same => exact .refl now _
  | requeued _ _ _ _ hstatus' =>
    refine .of_free (fun job1 hjob1 => ?_) (Job.holder_of_queued hstatus')
    rwa [← some.inj hjob1]
  | expired job =>
    refine .of_free (fun job1 hjob1 => ?_) (job.holder_release now false)
    rw [← some.inj hjob1]
    exact (job.release_cases now false).1
  | renewed _ _ hcurrent =>
    refine ⟨?_, ?_, ?_⟩
    · intro _ hjob1
      cases hjob1
      exact ⟨_, rfl, ⟨rfl, rfl, rfl, rfl, rfl, rfl, rfl⟩⟩
    · intro _ hheld
      rwa [bind_some, Job.holder_renewed] at hheld
    rintro _ _ hjob1 - -
    cases hjob1
    exact .inr hcurrent

lemma Change.absent (h : Change now none after) : after = none := by
  cases h
  rfl

/-- Nothing but `Ack` and `Nack` brings a protected Job to its end. -/
lemma Change.terminal (h : Change now before (some job')) (hterminal : job'.terminal = true)
    (hfence : job'.policy.requireTerminalFence = true) : before = some job' := by
  have hnot : ∀ {job : Job}, job.status = .queued → job.terminal = true → False := by
    intro _ hstatus hend
    rw [Job.terminal_of_queued hstatus] at hend
    simp at hend
  cases h with
  | same => rfl
  | requeued _ _ _ _ hstatus' => exact absurd hterminal (hnot hstatus')
  | renewed job hstatus =>
    have hstatus' : (job.renewed now).status = .leased := hstatus
    rw [Job.terminal, hstatus'] at hterminal
    cases hterminal
  | expired job =>
    obtain ⟨hsame, -, hqueued | ⟨-, hopen | hallow⟩⟩ := job.release_cases now false
    · exact absurd hterminal (hnot hqueued)
    · rw [hsame.policy, hopen] at hfence
      simp at hfence
    · simp at hallow

/-- Every Job is stored under its own identifier. -/
def Keyed (jobs : Jobs) : Prop := ∀ j job, jobs.lookup j = some job → job.id = j

variable {sha256 : GoString → GoString} {jobs : Jobs} (now : Time)

/-- The holder of the current lease gets the Job, a holder whose lease has ended
loses it, and everybody else is refused. -/
lemma withLease_cases (hkeyed : Keyed jobs) (r : LeaseRequest) (change : Job → Job) :
    (∃ job, jobs.lookup r.trimmed.jobID = some job ∧ job.heldBy r.trimmed = true ∧
      job.expired now = false ∧ withLease jobs r now change =
        (.ok (change job), jobs.insert r.trimmed.jobID (change job))) ∨
    (∃ job, jobs.lookup r.trimmed.jobID = some job ∧ job.expired now = true ∧
      withLease jobs r now change =
        (.error .leaseExpired, jobs.insert r.trimmed.jobID (job.release now false))) ∨
    ∃ e, withLease jobs r now change = (.error e, jobs) := by
  rw [withLease, currentLease]
  rcases hjob : jobs.lookup r.trimmed.jobID with _ | job
  · exact .inr (.inr ⟨.notFound, by rfl⟩)
  have hid : job.id = r.trimmed.jobID := hkeyed _ job hjob
  dsimp only
  by_cases hterminal : job.terminal = true
  · exact .inr (.inr ⟨.jobTerminal, by rw [if_pos hterminal]⟩)
  rw [if_neg hterminal]
  by_cases hheld : job.heldBy r.trimmed = true
  swap
  · exact .inr (.inr ⟨.leaseLost, by rw [if_pos hheld]⟩)
  rw [if_neg (not_not.mpr hheld)]
  cases hexpired : job.expired now with
  | true => exact .inr (.inl ⟨job, rfl, hexpired, by rw [if_pos rfl, hid]⟩)
  | false => exact .inl ⟨job, rfl, hheld, hexpired, by rw [if_neg (by simp), ← hid]⟩

lemma lookup_reapExpired (queueName j : GoString) :
    Change now (jobs.lookup j) ((reapExpired jobs now queueName).lookup j) := by
  rw [reapExpired, lookup_mapValues]
  obtain _ | job := jobs.lookup j
  · exact .same none
  show Change now (some job) (some (if _ then _ else _))
  split
  · rename_i h
    exact .expired job h.2
  · exact .same _

lemma keyed_reapExpired (hkeyed : Keyed jobs) (queueName : GoString) :
    Keyed (reapExpired jobs now queueName) := by
  intro j _ hjob'
  rw [reapExpired, lookup_mapValues, map_eq_some_iff] at hjob'
  obtain ⟨job, hjob, rfl⟩ := hjob'
  split
  · exact (job.release_cases now false).1.id.trans (hkeyed j job hjob)
  · exact hkeyed j job hjob

/-! ### Claims -/

/-- Claims are made of different Jobs that are queued. -/
lemma eligible_spec (queueName : GoString) : (eligible jobs queueName now).Nodup ∧
    ∀ j ∈ eligible jobs queueName now, ∃ job, jobs.lookup j = some job ∧ job.status = .queued := by
  have hperm := perm_insertionSort
    (fun a b : Σ _ : GoString, Job => ¬ deliveredBefore b.2 a.2 = true)
    (jobs.entries.filter fun e =>
      e.2.queue = queueName ∧ e.2.status = .queued ∧ e.2.availableAt ≤ now)
  constructor
  · refine (hperm.map Sigma.fst).nodup_iff.mpr ?_
    exact List.Nodup.sublist (filter_sublist.map _) jobs.nodupKeys
  intro j hj
  obtain ⟨e, he, rfl⟩ := mem_map.mp hj
  obtain ⟨hmem, hfilter⟩ := mem_filter.mp (hperm.mem_iff.mp he)
  simp only [decide_eq_true_eq] at hfilter
  exact ⟨e.2, mem_entries.mp hmem, hfilter.2.1⟩

/-- The delivery of a Job that is claimed. -/
def Job.delivery (sha256 : GoString → GoString) (job : Job) (workerID : GoString) (now : Time) :
    Delivery :=
  ⟨job.claimed sha256 workerID now, job.nextLease sha256 workerID now⟩

/-- A pass leaves a Job alone or claims it once. -/
lemma claimEach_spec (sha256 : GoString → GoString) (hkeyed : Keyed jobs) (workerID : GoString)
    {ids : List GoString} (hids : ids.Nodup) {deliveries : List Delivery} {jobs' : Jobs}
    (hclaim : claimEach sha256 workerID now ids jobs = (deliveries, jobs')) :
    Keyed jobs' ∧
    ∀ j, (jobs'.lookup j = jobs.lookup j ∧ ∀ d ∈ deliveries, d.job.id ≠ j) ∨
      ∃ job, j ∈ ids ∧ jobs.lookup j = some job ∧
        jobs'.lookup j = some (job.claimed sha256 workerID now) ∧
        job.delivery sha256 workerID now ∈ deliveries ∧
        ∀ d ∈ deliveries, d.job.id = j → d = job.delivery sha256 workerID now := by
  induction ids generalizing jobs deliveries jobs' with
  | nil =>
    cases hclaim
    exact ⟨hkeyed, fun j => .inl ⟨rfl, by simp⟩⟩
  | cons id _ ih =>
    obtain ⟨hid, hnodup⟩ := nodup_cons.mp hids
    rw [claimEach] at hclaim
    cases hjob : jobs.lookup id with
    | none =>
      rw [hjob] at hclaim
      obtain ⟨hkeyed', hrest⟩ := ih hkeyed hnodup hclaim
      refine ⟨hkeyed', fun j => (hrest j).imp_right ?_⟩
      rintro ⟨job, hj, hjob'⟩
      exact ⟨job, mem_cons_of_mem _ hj, hjob'⟩
    | some job =>
      rw [hjob] at hclaim
      have hkey : job.id = id := hkeyed id job hjob
      subst hkey
      have hkeyed1 : Keyed (jobs.insert job.id (job.claimed sha256 workerID now)) := by
        intro j job' hjob'
        rcases lookup_insert_cases hjob' with ⟨rfl, rfl⟩ | ⟨-, hold⟩
        · rfl
        · exact hkeyed j job' hold
      cases hclaim
      obtain ⟨hkeyed', hrest⟩ := ih hkeyed1 hnodup rfl
      refine ⟨hkeyed', fun j => ?_⟩
      by_cases hj : j = job.id
      · -- the Job just claimed does not occur among the rest
        subst hj
        right
        rcases hrest job.id with ⟨hsame, hother⟩ | ⟨_, hin, -⟩
        · rw [AList.lookup_insert] at hsame
          refine ⟨job, mem_cons_self, hjob, hsame, mem_cons_self, ?_⟩
          rintro d (_ | ⟨_, hd⟩) hdid
          · rfl
          · exact absurd hdid (hother d hd)
        · exact absurd hin hid
      · have hbefore : (jobs.insert job.id (job.claimed sha256 workerID now)).lookup j =
            jobs.lookup j := lookup_insert_of_ne hj
        have hrest := hrest j
        rw [hbefore] at hrest
        rcases hrest with ⟨hsame, hother⟩ | ⟨job', hin, hjob', hafter, hmem, hd⟩
        · refine .inl ⟨hsame, ?_⟩
          rintro d (_ | ⟨_, hd⟩)
          · exact fun h => hj h.symm
          · exact hother d hd
        refine .inr ⟨job', mem_cons_of_mem _ hin, hjob', hafter,
          mem_cons_of_mem _ hmem, ?_⟩
        rintro d (_ | ⟨_, hmem⟩) hdid
        · exact absurd hdid.symm hj
        · exact hd d hmem hdid

/-- No Job is delivered twice by one pass. -/
lemma claimEach_sublist (sha256 : GoString → GoString) (hkeyed : Keyed jobs)
    (workerID : GoString) (ids : List GoString) :
    ((claimEach sha256 workerID now ids jobs).1.map fun d => d.job.id).Sublist ids := by
  induction ids generalizing jobs with
  | nil => exact .refl _
  | cons id _ ih =>
    rw [claimEach]
    rcases hjob : jobs.lookup id with _ | job
    · exact (ih hkeyed).cons _
    have hkey : job.id = id := hkeyed id job hjob
    subst hkey
    refine (ih fun j job' hjob' => ?_).cons_cons _
    rcases lookup_insert_cases hjob' with ⟨rfl, rfl⟩ | ⟨-, hold⟩
    · rfl
    · exact hkeyed j job' hold

/-- A pass leaves the Job with an identifier alone, or claims it once while it is queued. -/
def Claims (sha256 : GoString → GoString) (workerID : GoString) (now : Time)
    (deliveries : List Delivery) (j : GoString) (found after : Option Job) : Prop :=
  (after = found ∧ ∀ d ∈ deliveries, d.job.id ≠ j) ∨
    ∃ job, found = some job ∧ job.status = .queued ∧
      after = some (job.claimed sha256 workerID now) ∧
      job.delivery sha256 workerID now ∈ deliveries ∧
      ∀ d ∈ deliveries, d.job.id = j → d = job.delivery sha256 workerID now

/-- `Claim` ends the leases that have run out, and then leaves each Job alone or
claims it once. -/
lemma claim_exact (sha256 : GoString → GoString) (hkeyed : Keyed jobs) (r : ClaimRequest) :
    (∃ e, claim sha256 jobs now r = (.error e, jobs)) ∨
    ∃ deliveries jobs', claim sha256 jobs now r = (.ok deliveries, jobs') ∧ Keyed jobs' ∧
      (deliveries.map fun d => d.job.id).Nodup ∧
      ∀ j, Claims sha256 (trimSpace r.workerID) now deliveries j
        ((reapExpired jobs now (trimSpace r.queue)).lookup j) (jobs'.lookup j) := by
  rw [claim]
  split
  · exact .inl ⟨_, rfl⟩
  right
  obtain ⟨hnodup, hqueued⟩ :=
    @eligible_spec (reapExpired jobs now (trimSpace r.queue)) now (trimSpace r.queue)
  have hreaped := keyed_reapExpired now hkeyed (trimSpace r.queue)
  have htake := hnodup.sublist (take_sublist r.bound.toNat _)
  obtain ⟨hkeyed', hjobs⟩ := claimEach_spec now sha256 hreaped (trimSpace r.workerID) htake rfl
  refine ⟨_, _, rfl, hkeyed', (claimEach_sublist now sha256 hreaped _ _).nodup htake, fun j => ?_⟩
  rcases hjobs j with hsame | ⟨job, hin, hjob, hclaimed⟩
  · exact .inl hsame
  obtain ⟨_, hjob', hstatus⟩ := hqueued j (mem_of_mem_take hin)
  cases hjob.symm.trans hjob'
  exact .inr ⟨job, hjob, hstatus, hclaimed⟩

/-- The same, with no more than a change before the claim. -/
lemma claim_cases (sha256 : GoString → GoString) (hkeyed : Keyed jobs) (r : ClaimRequest) :
    (∃ e, claim sha256 jobs now r = (.error e, jobs)) ∨
    ∃ deliveries jobs', claim sha256 jobs now r = (.ok deliveries, jobs') ∧ Keyed jobs' ∧
      ∀ j, ∃ found, Change now (jobs.lookup j) found ∧
        Claims sha256 (trimSpace r.workerID) now deliveries j found (jobs'.lookup j) := by
  rcases claim_exact now sha256 hkeyed r with herror | ⟨deliveries, jobs', heq, hkeyed', -, hjobs⟩
  · exact .inl herror
  · exact .inr ⟨deliveries, jobs', heq, hkeyed',
      fun j => ⟨_, lookup_reapExpired now (trimSpace r.queue) j, hjobs j⟩⟩

/-! ### The other methods -/

/-- A Job that is there already is not replaced. -/
lemma lookup_enqueue (job : Job) (j : GoString) : (enqueue jobs job).2.lookup j =
    if j = job.id then some ((jobs.lookup j).getD job) else jobs.lookup j := by
  rw [enqueue]
  by_cases hj : j = job.id
  · subst hj
    rw [if_pos rfl]
    cases hjob : jobs.lookup job.id with
    | some =>
      dsimp only
      split
      all_goals exact hjob
    | none => exact AList.lookup_insert jobs
  · rw [if_neg hj]
    split
    · split
      all_goals rfl
    · exact lookup_insert_of_ne hj

lemma reap_change (queueName j : GoString) :
    Change now (jobs.lookup j) ((reap jobs now queueName).2.lookup j) := by
  rw [reap]
  split
  · exact .same _
  · exact lookup_reapExpired now (trimSpace queueName) j

section Keyed

variable (hkeyed : Keyed jobs)

include hkeyed

/-- What a method of the holder of a lease does to the Job of one identifier. -/
lemma withLease_lookup (r : LeaseRequest) (change : Job → Job)
    (j : GoString) : (withLease jobs r now change).2.lookup j = jobs.lookup j ∨
      ∃ job, jobs.lookup j = some job ∧ j = r.trimmed.jobID ∧
        (job.heldBy r.trimmed = true ∧ job.expired now = false ∧
            (withLease jobs r now change).2.lookup j = some (change job) ∨
          job.expired now = true ∧
            (withLease jobs r now change).2.lookup j = some (job.release now false)) := by
  by_cases hj : j = r.trimmed.jobID
  · rcases withLease_cases now hkeyed r change with
      ⟨job, hjob, hheld, hcurrent, heq⟩ | ⟨job, hjob, hexpired, heq⟩ | ⟨e, heq⟩
    · rw [heq, hj, AList.lookup_insert]
      exact .inr ⟨job, hjob, rfl, .inl ⟨hheld, hcurrent, rfl⟩⟩
    · rw [heq, hj, AList.lookup_insert]
      exact .inr ⟨job, hjob, rfl, .inr ⟨hexpired, rfl⟩⟩
    · exact .inl (by rw [heq])
  · left
    rcases withLease_cases now hkeyed r change with
      ⟨job, -, -, -, heq⟩ | ⟨job, -, -, heq⟩ | ⟨e, heq⟩
    · rw [heq, lookup_insert_of_ne hj]
    · rw [heq, lookup_insert_of_ne hj]
    · rw [heq]

lemma renew_change (r : LeaseRequest) (j : GoString) :
    Change now (jobs.lookup j) ((renew jobs now r).2.lookup j) := by
  rw [renew]
  obtain heq | ⟨job, hjob, -, ⟨hheld, hcurrent, heq⟩ | ⟨hexpired, heq⟩⟩ :=
    withLease_lookup now hkeyed r (Job.renewed now) j
  · rw [heq]
    exact .same _
  · rw [heq, hjob]
    exact .renewed job (Job.leased_of_heldBy hheld) hcurrent
  · rw [heq, hjob]
    exact .expired job hexpired

/-- A dead letter that is revived. -/
def Job.requeued (now : Time) (job : Job) : Job :=
  { job with
    status := .queued, attempt := 0, availableAt := now, lease := none
    lastErrorCode := [], lastError := [], deadLetterAt := none, updatedAt := now }

/-- `RequeueDeadLetter` refuses, or revives the Job that it names. -/
lemma requeueDeadLetter_cases (id : GoString) :
    (∃ e, requeueDeadLetter jobs now id = (.error e, jobs)) ∨
    ∃ job, jobs.lookup (trimSpace id) = some job ∧ job.status = .deadLetter ∧
      requeueDeadLetter jobs now id =
        (.ok (job.requeued now), jobs.insert (trimSpace id) (job.requeued now)) := by
  rw [requeueDeadLetter]
  rcases hjob : jobs.lookup (trimSpace id) with _ | job
  · exact .inl ⟨_, rfl⟩
  dsimp only
  split
  · exact .inl ⟨_, rfl⟩
  rename_i hdead
  refine .inr ⟨job, rfl, not_not.mp hdead, ?_⟩
  rw [← hkeyed _ job hjob]
  rfl

lemma requeue_change (id j : GoString) :
    Change now (jobs.lookup j) ((requeueDeadLetter jobs now id).2.lookup j) := by
  rcases requeueDeadLetter_cases now hkeyed id with ⟨e, heq⟩ | ⟨job, hjob, hdead, heq⟩
  · rw [heq]
    exact .same _
  rw [heq]
  by_cases hj : j = trimSpace id
  · rw [hj, AList.lookup_insert, hjob]
    exact .requeued job _ hdead ⟨rfl, rfl, rfl, rfl, rfl, rfl, rfl⟩ rfl
  · rw [lookup_insert_of_ne hj]
    exact .same _

/-! ### Keys -/

lemma keyed_insert {j : GoString} (hid : job.id = j) : Keyed (jobs.insert j job) := by
  intro j' job' hjob'
  rcases lookup_insert_cases hjob' with ⟨rfl, rfl⟩ | ⟨-, hold⟩
  · exact hid
  · exact hkeyed j' job' hold

lemma keyed_enqueue (job : Job) : Keyed (enqueue jobs job).2 := by
  rw [enqueue]
  split
  · split
    all_goals exact hkeyed
  · exact keyed_insert hkeyed rfl

lemma keyed_withLease (r : LeaseRequest) {change : Job → Job}
    (hid : ∀ job, (change job).id = job.id) : Keyed (withLease jobs r now change).2 := by
  rcases withLease_cases now hkeyed r change with
    ⟨job, hjob, -, -, heq⟩ | ⟨job, hjob, -, heq⟩ | ⟨e, heq⟩
  · rw [heq]
    exact keyed_insert hkeyed ((hid job).trans (hkeyed _ job hjob))
  · rw [heq]
    exact keyed_insert hkeyed ((job.release_cases now false).1.id.trans (hkeyed _ job hjob))
  · rwa [heq]

lemma keyed_reap (queueName : GoString) : Keyed (reap jobs now queueName).2 := by
  rw [reap]
  split
  · exact hkeyed
  · exact keyed_reapExpired now hkeyed _

lemma keyed_requeueDeadLetter (id : GoString) : Keyed (requeueDeadLetter jobs now id).2 := by
  rcases requeueDeadLetter_cases now hkeyed id with ⟨e, heq⟩ | ⟨job, hjob, -, heq⟩
  · rwa [heq]
  · rw [heq]
    exact keyed_insert hkeyed (hkeyed _ job hjob)

end Keyed

end Queue
