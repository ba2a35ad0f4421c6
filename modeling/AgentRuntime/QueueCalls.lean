/-
Calls of the delivery queue, and logs of them.

Every method of `queue.Memory` runs under one mutex, so what any number of workers and
operators do to a queue is one sequence of calls, each with its reading of the clock.

* `JobStep`, **`perform_step`** — what one call does to the Job of one identifier.
-/
import AgentRuntime.DeliveryQueue

namespace Queue

open GoString Kernel FiniteMap

/-- The calls of a queue. -/
inductive Call where
  | enqueue (r : EnqueueRequest)
  | claim (r : ClaimRequest)
  | renew (r : LeaseRequest)
  | ack (r : LeaseRequest)
  | nack (r : NackRequest)
  | reap (queueName : GoString)
  | requeueDeadLetter (jobID : GoString)
  | get (jobID : GoString)
  | list (queueName status : GoString)
  deriving DecidableEq, Repr

/-- What a call returns; the lease of a renewed delivery is that of its Job. -/
inductive Answer where
  | enqueued (result : EnqueueResult)
  | claimed (deliveries : List Delivery)
  | job (job : Job)
  | reaped (transitioned : ℕ)
  | jobs (jobs : List Job)
  deriving DecidableEq, Repr

/-! ### Reading -/

/-- `Get`. -/
def get (jobs : Jobs) (jobID : GoString) : Except QueueError Job :=
  match jobs.lookup (trimSpace jobID) with
  | none => .error .notFound
  | some job => .ok job

/-- The order of `List`: creation, then identifier. -/
def createdBefore (left right : Job) : Bool :=
  if left.createdAt = right.createdAt then left.id < right.id else left.createdAt < right.createdAt

/-- The text of a status. -/
def Status.text : Status → GoString
  | queued => lit "queued"
  | leased => lit "leased"
  | completed => lit "completed"
  | deadLetter => lit "dead_letter"

/-- `List`; without a status all Jobs of the queue. -/
def list (jobs : Jobs) (queueName status : GoString) : Except QueueError (List Job) :=
  let queueName := trimSpace queueName
  if queueName = [] then .error .invalidInput
  else .ok (((jobs.entries.map Sigma.snd).filter fun job =>
      job.queue = queueName ∧ (status = [] ∨ job.status.text = status)).insertionSort
    fun a b => ¬ createdBefore b a)

/-! ### One call -/

section Perform

variable (sha256 : GoString → GoString)

/-- `Enqueue`; the clock is read before the lock is taken. -/
def enqueueRequest (jobs : Jobs) (now : Time) (r : EnqueueRequest) :
    Except QueueError EnqueueResult × Jobs :=
  match prepareEnqueue sha256 r now with
  | .error e => (.error e, jobs)
  | .ok job => enqueue jobs job

/-- A method on the Jobs of the queue. -/
def perform (jobs : Jobs) (now : Time) : Call → Except QueueError Answer × Jobs
  | .enqueue r => (enqueueRequest sha256 jobs now r).map (·.map .enqueued) id
  | .claim r => (claim sha256 jobs now r).map (·.map .claimed) id
  | .renew r => (renew jobs now r).map (·.map .job) id
  | .ack r => (ack jobs now r).map (·.map .job) id
  | .nack r => (nack jobs now r).map (·.map .job) id
  | .reap queueName => (reap jobs now queueName).map (·.map .reaped) id
  | .requeueDeadLetter jobID => (requeueDeadLetter jobs now jobID).map (·.map .job) id
  | .get jobID => ((get jobs jobID).map .job, jobs)
  | .list queueName status => ((list jobs queueName status).map .jobs, jobs)

/-- The deliveries that an answer makes, newest first. -/
def Answer.deliveries : Except QueueError Answer → List Delivery
  | .ok (.claimed deliveries) => deliveries.reverse
  | _ => []

/-- The Job that an `Enqueue` returned. -/
def Answer.created : Except QueueError Answer → List Job
  | .ok (.enqueued result) => [result.job]
  | _ => []

/-- The Jobs of a queue, all deliveries so far and all Jobs that were enqueued, newest first. -/
structure Trace where
  jobs : Jobs := ∅
  delivered : List Delivery := []
  enqueued : List Job := []

def Trace.step (t : Trace) (e : Time × Call) : Trace :=
  let out := perform sha256 t.jobs e.1 e.2
  ⟨out.2, Answer.deliveries out.1 ++ t.delivered, Answer.created out.1 ++ t.enqueued⟩

/-- A log of calls, the oldest first, on a new queue. -/
def trace (log : List (Time × Call)) : Trace := log.foldl (Trace.step sha256) {}

end Perform

/-- The deliveries of one Job. -/
def Trace.deliveriesOf (t : Trace) (j : GoString) : List Delivery :=
  t.delivered.filter fun d => d.job.id = j

/-! ### What one call does to one Job -/

section Steps

variable (sha256 : GoString → GoString) (now : Time) (call : Call)

/-- What one call does to the Job of one identifier, with the deliveries of that Job and whether
it was revived. -/
inductive JobStep : Option Job → Option Job → List Delivery → Bool → Prop
  | same (found : Option Job) : JobStep found found [] false
  | created (r : EnqueueRequest) (job : Job) (hjob : prepareEnqueue sha256 r now = .ok job) :
      JobStep none (some job) [] false
  | expired (job : Job) (hexpired : job.expired now = true) :
      JobStep (some job) (some (job.release now false)) [] false
  | renewed (job : Job) (hstatus : job.status = .leased) (hcurrent : job.expired now = false) :
      JobStep (some job) (some (job.renewed now)) [] false
  | acked (job : Job) (hstatus : job.status = .leased) (hcurrent : job.expired now = false) :
      JobStep (some job) (some (job.acked now)) [] false
  | nacked (job : Job) (r : NackRequest) (hcall : call = .nack r) (hid : r.trimmed.jobID = job.id)
      (hheld : job.heldBy r.trimmed = true) (hcurrent : job.expired now = false) :
      JobStep (some job) (some (job.nacked r now)) [] false
  | requeued (job : Job) (hstatus : job.status = .deadLetter) :
      JobStep (some job) (some (job.requeued now)) [] true
  | claimed (job found : Job) (workerID : GoString)
      (hfound : found = job ∨ job.expired now = true ∧ found = job.release now false)
      (hstatus : found.status = .queued) :
      JobStep (some job) (some (found.claimed sha256 workerID now))
        [found.delivery sha256 workerID now] false

variable {sha256 now call} {job : Job} {jobs : Jobs}

lemma Job.leased_of_expired (h : job.expired now = true) : job.status = .leased := by
  rw [Job.expired] at h
  split at h
  · simp only [Bool.and_eq_true, beq_iff_eq] at h
    exact h.1
  · cases h

/-- What `reapExpired` makes of a Job. -/
lemma reapExpired_lookup {queueName j : GoString} {found : Job}
    (h : (reapExpired jobs now queueName).lookup j = some found) : ∃ job,
      jobs.lookup j = some job ∧
        (found = job ∨ job.expired now = true ∧ found = job.release now false) := by
  rw [reapExpired, lookup_mapValues, Option.map_eq_some_iff] at h
  obtain ⟨job, hjob, rfl⟩ := h
  refine ⟨job, hjob, ?_⟩
  split
  · rename_i hexpired
    exact .inr ⟨hexpired.2, rfl⟩
  · exact .inl rfl

lemma reapExpired_step (jobs : Jobs) (queueName j : GoString) :
    JobStep sha256 now call (jobs.lookup j) ((reapExpired jobs now queueName).lookup j) [] false := by
  rcases hfound : (reapExpired jobs now queueName).lookup j with _ | _
  · rw [reapExpired, lookup_mapValues, Option.map_eq_none_iff] at hfound
    rw [hfound]
    exact .same none
  obtain ⟨job, hjob, rfl | ⟨hexpired, rfl⟩⟩ := reapExpired_lookup hfound
  · rw [hjob]
    exact .same _
  · rw [hjob]
    exact .expired job hexpired

/-- The three methods of the holder of a lease. -/
lemma withLease_step (hkeyed : Keyed jobs) (r : LeaseRequest) {change : Job → Job}
    (hchange : ∀ job, r.trimmed.jobID = job.id → job.heldBy r.trimmed = true →
      job.expired now = false → JobStep sha256 now call (some job) (some (change job)) [] false)
    (j : GoString) :
    JobStep sha256 now call (jobs.lookup j) ((withLease jobs r now change).2.lookup j) [] false := by
  obtain heq | ⟨job, hjob, hj, ⟨hheld, hcurrent, heq⟩ | ⟨hexpired, heq⟩⟩ :=
    withLease_lookup now hkeyed r change j
  · rw [heq]
    exact .same _
  · rw [heq, hjob]
    exact hchange job (hj ▸ (hkeyed j job hjob).symm) hheld hcurrent
  · rw [heq, hjob]
    exact .expired job hexpired

lemma enqueueRequest_step (jobs : Jobs) (r : EnqueueRequest) (j : GoString) :
    JobStep sha256 now call (jobs.lookup j) ((enqueueRequest sha256 jobs now r).2.lookup j) []
      false := by
  rw [enqueueRequest]
  rcases hjob : prepareEnqueue sha256 r now with e | job
  · exact .same _
  rw [lookup_enqueue]
  split
  · cases hfound : jobs.lookup j with
    | none => exact .created r job hjob
    | some => exact .same _
  · exact .same _

/-- The deliveries of one Job by a call. -/
def deliveriesTo (j : GoString) (answer : Except QueueError Answer) : List Delivery :=
  (Answer.deliveries answer).filter fun d => d.job.id = j

lemma filter_eq_singleton {α : Type} {p : α → Bool} {xs : List α} {x : α} (hx : x ∈ xs)
    (hp : p x = true) (hnodup : xs.Nodup) (honly : ∀ y ∈ xs, p y = true → y = x) :
    xs.filter p = [x] := by
  have hperm : (xs.filter p).Perm [x] := by
    rw [List.perm_ext_iff_of_nodup (hnodup.filter p) (List.nodup_singleton x)]
    intro y
    rw [List.mem_filter, List.mem_singleton]
    constructor
    · exact fun h => honly y h.1 h.2
    · rintro rfl
      exact ⟨hx, hp⟩
  exact List.perm_singleton.mp hperm

lemma claim_step (hkeyed : Keyed jobs) (r : ClaimRequest) (j : GoString) :
    Keyed (perform sha256 jobs now (.claim r)).2 ∧
      JobStep sha256 now call (jobs.lookup j) ((perform sha256 jobs now (.claim r)).2.lookup j)
        (deliveriesTo j (perform sha256 jobs now (.claim r)).1) false := by
  rcases claim_exact now sha256 hkeyed r with
    ⟨e, heq⟩ | ⟨deliveries, jobs', heq, hkeyed', hnodup, hjobs⟩
  · have hperform : perform sha256 jobs now (.claim r) = (.error e, jobs) := by
      rw [perform, heq]
      rfl
    rw [hperform]
    exact ⟨hkeyed, .same _⟩
  have hperform : perform sha256 jobs now (.claim r) = (.ok (.claimed deliveries), jobs') := by
    rw [perform, heq]
    rfl
  rw [hperform]
  refine ⟨hkeyed', ?_⟩
  have hto : deliveriesTo j (.ok (.claimed deliveries)) =
      (deliveries.filter fun d => d.job.id = j).reverse := by
    rw [deliveriesTo, Answer.deliveries, List.filter_reverse]
  rw [hto]
  show JobStep sha256 now call (jobs.lookup j) (jobs'.lookup j) _ _
  rcases hjobs j with ⟨hsame, hnone⟩ | ⟨found, hfound, hstatus, hclaimed, hmem, honly⟩
  · have hempty : (deliveries.filter fun d => d.job.id = j) = [] :=
      List.filter_eq_nil_iff.mpr (by simpa using hnone)
    rw [hsame, hempty]
    exact reapExpired_step jobs _ j
  obtain ⟨job, hjob, hcases⟩ := reapExpired_lookup hfound
  have hone : (deliveries.filter fun d => d.job.id = j) =
      [found.delivery sha256 (trimSpace r.workerID) now] := by
    refine filter_eq_singleton hmem ?_ (List.Nodup.of_map _ hnodup) fun d hd hid => ?_
    · have hid : found.id = j := keyed_reapExpired now hkeyed _ j found hfound
      exact decide_eq_true hid
    · exact honly d hd (by simpa using hid)
  rw [hjob, hclaimed, hone]
  exact .claimed job found _ hcases hstatus

/-- The call has revived the Job. -/
def requeues (j : GoString) : Call → Except QueueError Answer → Bool
  | .requeueDeadLetter id, .ok _ => trimSpace id = j
  | _, _ => false

/-- **What one call does to the Job of one identifier.** -/
theorem perform_step (hkeyed : Keyed jobs) (call : Call) (j : GoString) :
    Keyed (perform sha256 jobs now call).2 ∧
      JobStep sha256 now call (jobs.lookup j) ((perform sha256 jobs now call).2.lookup j)
        (deliveriesTo j (perform sha256 jobs now call).1)
        (requeues j call (perform sha256 jobs now call).1) := by
  -- only `Claim` answers with deliveries
  have hquiet : ∀ {α : Type} {out : Except QueueError α} {f : α → Answer} {after : Option Job}
      {b : Bool}, (∀ x, Answer.deliveries (.ok (f x)) = []) →
      JobStep sha256 now call (jobs.lookup j) after [] b →
      JobStep sha256 now call (jobs.lookup j) after (deliveriesTo j (out.map f)) b := by
    intro α out f after b hf hstep
    obtain e | x := out
    · exact hstep
    show JobStep sha256 now call _ after ((Answer.deliveries (.ok (f x))).filter _) b
    rwa [hf x]
  cases call with
  | enqueue r =>
    refine ⟨?_, hquiet (fun _ => rfl) (enqueueRequest_step jobs r j)⟩
    show Keyed (enqueueRequest sha256 jobs now r).2
    rw [enqueueRequest]
    split
    · exact hkeyed
    · exact keyed_enqueue hkeyed _
  | claim r => exact claim_step hkeyed r j
  | renew r =>
    exact ⟨keyed_withLease now hkeyed r fun _ => rfl, hquiet (fun _ => rfl) (withLease_step hkeyed r
      (fun job _ hheld => .renewed job (Job.leased_of_heldBy hheld)) j)⟩
  | ack r =>
    exact ⟨keyed_withLease now hkeyed r fun _ => rfl, hquiet (fun _ => rfl) (withLease_step hkeyed r
      (fun job _ hheld => .acked job (Job.leased_of_heldBy hheld)) j)⟩
  | nack r =>
    refine ⟨keyed_withLease now hkeyed r.toLeaseRequest fun job => ?_, hquiet (fun _ => rfl)
      (withLease_step hkeyed r.toLeaseRequest (fun job => .nacked job r rfl) j)⟩
    exact (Job.release_cases _ now r.allowDeadLetter).1.id
  | reap queueName =>
    refine ⟨keyed_reap now hkeyed queueName, hquiet (fun _ => rfl) ?_⟩
    show JobStep sha256 now _ (jobs.lookup j) ((reap jobs now queueName).2.lookup j) [] false
    rw [reap]
    split
    · exact .same _
    · exact reapExpired_step jobs _ j
  | requeueDeadLetter id =>
    refine ⟨keyed_requeueDeadLetter now hkeyed id, hquiet (fun _ => rfl) ?_⟩
    show JobStep sha256 now _ (jobs.lookup j) ((requeueDeadLetter jobs now id).2.lookup j) []
      (requeues j _ ((requeueDeadLetter jobs now id).1.map .job))
    rcases requeueDeadLetter_cases now hkeyed id with ⟨e, heq⟩ | ⟨job, hjob, hdead, heq⟩
    · rw [heq]
      exact .same _
    rw [heq]
    by_cases hj : trimSpace id = j
    · rw [← hj, hjob]
      simpa [requeues, Except.map] using .requeued job hdead
    · rw [lookup_insert_of_ne (Ne.symm hj)]
      simpa [requeues, Except.map, hj] using .same _
  | get | list => exact ⟨hkeyed, hquiet (fun _ => rfl) (.same _)⟩

end Steps

end Queue
