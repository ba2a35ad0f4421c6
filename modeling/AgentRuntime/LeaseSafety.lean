/-
Lease safety of the delivery queue, over all logs of calls.

A worker may finish a Job only under its current lease, an operator may revive a dead
letter, and leases that have run out are noticed lazily by whoever looks.  Whatever the
order of the calls, and whatever the clock says, a lease belongs to the latest delivery
of its Job, and nothing is lost.

* `Trace.Safe` — the invariant, **`safe_trace`** — it holds after every log;
* **`lease_safety`** — the whole statement, for Jobs with fewer than `2^64` deliveries and
  lease identifiers that do not collide;
* **`lease_repeats`**, `lease_reissued` — after `2^64` deliveries the counter starts again.
-/
import AgentRuntime.QueueCalls
import AgentRuntime.WordCounters

namespace Queue

open GoString Kernel FiniteMap WordCounters List

section Safety

variable {sha256 : GoString → GoString} {now : Time} {before after : Option Job}
  {new : List Delivery} {job : Job} {j : GoString} {jobs : Jobs} {t : Trace} {r : LeaseRequest}
  {call : Call} {b : Bool}

/-- The identifier of the lease of a generation. -/
def leaseID (sha256 : GoString → GoString) (j : GoString) (generation : UInt64) : GoString :=
  stableID sha256 (lit "lease") [j, formatUint generation.toNat]

/-- What holds of the Job of one identifier: `found` is the Job, `ds` are its deliveries. -/
structure JobSafe (sha256 : GoString → GoString) (j : GoString) (found : Option Job)
    (ds : List Delivery) : Prop where
  leased : ∀ job, found = some job → (job.status = .leased ↔ job.lease.isSome = true)
  current : ∀ job lease, found = some job → job.lease = some lease →
    lease.generation = job.generation ∧ lease.attempt = job.attempt ∧
      ∃ d rest, ds = d :: rest ∧ d.lease.id = lease.id ∧ d.lease.workerID = lease.workerID ∧
        d.lease.generation = lease.generation
  counted : ∀ job, found = some job → job.generation = UInt64.ofNat ds.length
  generations : ds.map (fun d => d.lease.generation) = countdown ds.length
  named : ∀ d ∈ ds, d.lease.id = leaseID sha256 j d.lease.generation
  known : found = none → ds = []
  stable : ∀ job, found = some job →
    job.id = stableID sha256 (lit "job") [job.queue, job.clientJobID]

lemma JobSafe.start (j : GoString) : JobSafe sha256 j none [] := by
  refine ⟨?_, ?_, ?_, rfl, ?_, fun _ => rfl, ?_⟩
  all_goals simp

/-- A Job that nobody holds any more. -/
structure Freed (job job' : Job) : Prop where
  request : SameRequest job job'
  generation : job'.generation = job.generation
  lease : job'.lease = none
  status : job'.status ≠ .leased

/-- A Job that is given back, with any error texts. -/
lemma Freed.of_release (job : Job) (code text : GoString) (allow : Bool) :
    Freed job ({ job with lastErrorCode := code, lastError := text }.release now allow) := by
  rw [Job.release]
  split
  all_goals exact ⟨⟨rfl, rfl, rfl, rfl, rfl, rfl, rfl⟩, rfl, rfl, by simp⟩

lemma JobStep.keeps (h : JobStep sha256 now call (some job) after new b) :
    ∃ job', after = some job' ∧ SameRequest job job' := by
  cases h with
  | same => exact ⟨job, rfl, .refl job⟩
  | expired | nacked => exact ⟨_, rfl, (Freed.of_release job _ _ _).request⟩
  | renewed | acked | requeued => exact ⟨_, rfl, ⟨rfl, rfl, rfl, rfl, rfl, rfl, rfl⟩⟩
  | claimed _ found _ hfound =>
    have hrequest : SameRequest job found := by
      rcases hfound with rfl | ⟨-, rfl⟩
      · exact .refl found
      · exact (Freed.of_release job _ _ _).request
    exact ⟨_, rfl, hrequest.trans ⟨rfl, rfl, rfl, rfl, rfl, rfl, rfl⟩⟩

lemma JobSafe.freed {ds : List Delivery} {job' : Job} (h : JobSafe sha256 j (some job) ds)
    (hfreed : Freed job job') : JobSafe sha256 j (some job') ds := by
  refine ⟨?_, ?_, ?_, h.generations, h.named, (by simp), ?_⟩
  · rintro _ ⟨⟩
    rw [hfreed.lease]
    simpa using hfreed.status
  · rintro _ _ ⟨⟩ hsome
    rw [hfreed.lease] at hsome
    cases hsome
  · rintro _ ⟨⟩
    rw [hfreed.generation]
    exact h.counted job rfl
  rintro _ ⟨⟩
  rw [hfreed.request.id, hfreed.request.queue, hfreed.request.clientJobID]
  exact h.stable job rfl

/-- **What one call keeps**, for the Job of one identifier. -/
theorem JobSafe.step {ds : List Delivery}
    (h : JobSafe sha256 j before ds) (hkeyed : ∀ job, after = some job → job.id = j)
    (hstep : JobStep sha256 now call before after new b) : JobSafe sha256 j after (new ++ ds) := by
  cases hstep with
  | same => exact h
  | created _ _ hjob =>
    obtain rfl := h.known rfl
    obtain rfl := prepareEnqueue_ok hjob
    refine ⟨?_, ?_, ?_, rfl, ?_, (by simp), ?_⟩
    · rintro _ ⟨⟩
      simp [initialJob]
    · rintro _ _ ⟨⟩ hsome
      cases hsome
    · rintro _ ⟨⟩
      rfl
    · simp
    · rintro _ ⟨⟩
      rfl
  | expired job | nacked job => exact h.freed (.of_release job _ _ _)
  | acked | requeued =>
    refine h.freed ⟨⟨rfl, rfl, rfl, rfl, rfl, rfl, rfl⟩, rfl, rfl, ?_⟩
    simp [Job.acked, Job.requeued]
  | renewed job =>
    refine ⟨?_, ?_, ?_, h.generations, h.named, (by simp), ?_⟩
    · rintro _ ⟨⟩
      have hiff := h.leased job rfl
      simpa [Job.renewed] using hiff
    · rintro _ lease ⟨⟩ hsome
      -- the renewed lease differs from the one before in its end only
      obtain ⟨old, hold, rfl⟩ := Option.map_eq_some_iff.mp hsome
      exact h.current job old rfl hold
    · rintro _ ⟨⟩
      exact h.counted job rfl
    · rintro _ ⟨⟩
      exact h.stable job rfl
  | claimed job found workerID hfound =>
    have hready : JobSafe sha256 j (some found) ds := by
      rcases hfound with rfl | ⟨-, rfl⟩
      · exact h
      · exact h.freed (.of_release job _ _ _)
    have hnext : found.generation + 1 = UInt64.ofNat (ds.length + 1) := by
      rw [hready.counted found rfl, UInt64.ofNat_add]
      rfl
    refine ⟨?_, ?_, ?_, ?_, ?_, (by simp), ?_⟩
    · rintro _ ⟨⟩
      simp [Job.claimed]
    · rintro _ _ ⟨⟩ hsome
      cases hsome
      exact ⟨rfl, rfl, _, ds, rfl, rfl, rfl, rfl⟩
    · rintro _ ⟨⟩
      exact hnext
    · show (found.generation + 1) :: ds.map _ = countdown (ds.length + 1)
      rw [h.generations, hnext]
      rfl
    · refine forall_mem_cons.mpr ⟨?_, h.named⟩
      have hid : found.id = j := hkeyed (found.claimed sha256 workerID now) rfl
      show stableID sha256 (lit "lease") [found.id, _] = _
      rw [hid]
      rfl
    · rintro _ ⟨⟩
      exact hready.stable found rfl

/-- The invariant of a log. -/
structure Trace.Safe (sha256 : GoString → GoString) (t : Trace) : Prop where
  keyed : Keyed t.jobs
  job : ∀ j, JobSafe sha256 j (t.jobs.lookup j) (t.deliveriesOf j)
  kept : ∀ job ∈ t.enqueued, ∃ job', t.jobs.lookup job.id = some job' ∧ SameRequest job job'

lemma not_mem_created {α : Type} {out : Except QueueError α} {f : α → Answer}
    (h : job ∈ Answer.created (out.map f)) (hf : ∀ x, Answer.created (.ok (f x)) = []) : False := by
  obtain e | x := out
  · cases h
  have hmem : job ∈ Answer.created (.ok (f x)) := h
  rw [hf x] at hmem
  cases hmem

lemma enqueue_stored (hkeyed : Keyed jobs) {fresh : Job} {result : EnqueueResult}
    (h : (enqueue jobs fresh).1 = .ok result) :
    (enqueue jobs fresh).2.lookup result.job.id = some result.job := by
  rw [enqueue] at h ⊢
  rcases hfound : jobs.lookup fresh.id with _ | existing
  · rw [hfound] at h
    cases h
    exact AList.lookup_insert jobs
  rw [hfound] at h
  dsimp only at h ⊢
  split at h
  · cases h
  rename_i hsame
  cases h
  rw [if_neg hsame]
  show jobs.lookup existing.id = some existing
  rw [hkeyed _ existing hfound, hfound]

/-- The Job that an `Enqueue` returned is there. -/
lemma created_stored (hkeyed : Keyed jobs) (now : Time) (call : Call) :
    ∀ job ∈ Answer.created (perform sha256 jobs now call).1,
      (perform sha256 jobs now call).2.lookup job.id = some job := by
  intro _ hjob
  cases call with
  | enqueue r =>
    have hout : perform sha256 jobs now (.enqueue r) =
        ((enqueueRequest sha256 jobs now r).1.map .enqueued, (enqueueRequest sha256 jobs now r).2) :=
      rfl
    rw [hout, enqueueRequest] at hjob ⊢
    rcases hprepared : prepareEnqueue sha256 r now with e | fresh
    · rw [hprepared] at hjob
      cases hjob
    rw [hprepared] at hjob
    cases hresult : (enqueue jobs fresh).1 with
    | error =>
      rw [hresult] at hjob
      cases hjob
    | ok =>
      rw [hresult] at hjob
      obtain rfl := mem_singleton.mp hjob
      exact enqueue_stored hkeyed hresult
  | _ => exact (not_mem_created hjob fun _ => rfl).elim

/-- **The step.** -/
theorem Trace.Safe.step (h : t.Safe sha256) (e : Time × Call) : (t.step sha256 e).Safe sha256 := by
  have hstep := fun j => (@perform_step sha256 e.1 t.jobs h.keyed e.2 j).2
  have hkeyed : Keyed (t.step sha256 e).jobs := (perform_step h.keyed e.2 []).1
  refine ⟨hkeyed, fun j => ?_, fun job hjob => ?_⟩
  · have hnew : (t.step sha256 e).deliveriesOf j =
        deliveriesTo j (perform sha256 t.jobs e.1 e.2).1 ++ t.deliveriesOf j :=
      filter_append ..
    rw [hnew]
    exact (h.job j).step (hkeyed j) (hstep j)
  rcases mem_append.mp hjob with hjob | hjob
  · exact ⟨job, created_stored h.keyed e.1 e.2 job hjob, .refl job⟩
  obtain ⟨_, hold, hsame⟩ := h.kept job hjob
  obtain ⟨job', hjob', hsame'⟩ := (hold ▸ hstep job.id).keeps
  exact ⟨job', hjob', hsame.trans hsame'⟩

/-- **The invariant holds after every log.** -/
theorem safe_trace (log : List (Time × Call)) : (trace sha256 log).Safe sha256 := by
  have hstart : Trace.Safe sha256 {} := by
    refine ⟨fun j job hjob => ?_, .start, by simp⟩
    cases hjob
  have hrun : ∀ (log : List (Time × Call)) (t : Trace), t.Safe sha256 →
      (log.foldl (Trace.step sha256) t).Safe sha256 := by
    intro log
    induction log with
    | nil => exact fun t ht => ht
    | cons e _ ih => exact fun t ht => ih _ (ht.step e)
  exact hrun log {} hstart

lemma trace_append (log more : List (Time × Call)) :
    trace sha256 (log ++ more) = more.foldl (Trace.step sha256) (trace sha256 log) :=
  foldl_append

/-- A call leaves a Job that is completed as it is, and does not deliver it. -/
lemma JobStep.completed (h : JobStep sha256 now call (some job) after new b)
    (hdone : job.status = .completed) : after = some job ∧ new = [] := by
  cases h with
  | same => exact ⟨rfl, rfl⟩
  | expired _ hexpired =>
    rw [Job.leased_of_expired hexpired] at hdone
    cases hdone
  | nacked _ _ _ _ hheld =>
    rw [Job.leased_of_heldBy hheld] at hdone
    cases hdone
  | renewed _ hstatus | acked _ hstatus | requeued _ hstatus =>
    rw [hstatus] at hdone
    cases hdone
  | claimed _ _ _ hfound hstatus =>
    rcases hfound with rfl | ⟨hexpired, -⟩
    · rw [hstatus] at hdone
      cases hdone
    · rw [Job.leased_of_expired hexpired] at hdone
      cases hdone

theorem completed_stays (ht : t.Safe sha256)
    (hjob : t.jobs.lookup j = some job) (hdone : job.status = .completed)
    (more : List (Time × Call)) :
    (more.foldl (Trace.step sha256) t).jobs.lookup j = some job ∧
      (more.foldl (Trace.step sha256) t).deliveriesOf j = t.deliveriesOf j := by
  induction more generalizing t with
  | nil => exact ⟨hjob, rfl⟩
  | cons e _ ih =>
    have hstep := (@perform_step sha256 e.1 t.jobs ht.keyed e.2 j).2
    obtain ⟨hafter, hnone⟩ := (hjob ▸ hstep).completed hdone
    have hsame : (t.step sha256 e).deliveriesOf j = t.deliveriesOf j := by
      rw [Trace.deliveriesOf, Trace.step, filter_append]
      rw [deliveriesTo] at hnone
      rw [hnone]
      rfl
    obtain ⟨hlookup, hdeliveries⟩ := ih (ht.step e) hafter
    exact ⟨hlookup, hdeliveries.trans hsame⟩

lemma kept_stays (ht : t.Safe sha256) (hjob : job ∈ t.enqueued)
    (more : List (Time × Call)) : ∃ job',
      (more.foldl (Trace.step sha256) t).jobs.lookup job.id = some job' ∧ SameRequest job job' := by
  induction more generalizing t with
  | nil => exact ht.kept job hjob
  | cons e _ ih => exact ih (ht.step e) (mem_append_right _ hjob)

/-! ### The holder of a lease -/

/-- A method of the holder succeeds only under the current lease. -/
lemma withLease_ok {change : Job → Job} {job' : Job}
    (hkeyed : Keyed jobs) (h : (withLease jobs r now change).1 = .ok job') :
    ∃ job, jobs.lookup r.trimmed.jobID = some job ∧ job.heldBy r.trimmed = true ∧
      job.expired now = false := by
  rcases withLease_cases now hkeyed r change with
    ⟨job, hjob, hheld, hcurrent, -⟩ | ⟨job, -, -, heq⟩ | ⟨e, heq⟩
  · exact ⟨job, hjob, hheld, hcurrent⟩
  all_goals
    rw [heq] at h
    cases h

/-- A request that succeeds: `r` names the Job, its lease and its worker. -/
def Succeeds (jobs : Jobs) (now : Time) (r : LeaseRequest) : Prop :=
  (∃ job, (renew jobs now r).1 = .ok job) ∨ (∃ job, (ack jobs now r).1 = .ok job) ∨
    ∃ (n : NackRequest) (job : Job), n.toLeaseRequest = r ∧ (nack jobs now n).1 = .ok job

lemma Succeeds.held (hkeyed : Keyed jobs)
    (h : Succeeds jobs now r) : ∃ job, jobs.lookup r.trimmed.jobID = some job ∧
      job.heldBy r.trimmed = true ∧ job.expired now = false := by
  rcases h with ⟨_, h⟩ | ⟨_, h⟩ | ⟨n, _, rfl, h⟩
  all_goals exact withLease_ok hkeyed h

/-- The lease of a success is that of the latest delivery. -/
lemma Trace.Safe.success (ht : t.Safe sha256) (h : Succeeds t.jobs now r) : ∃ job lease d rest,
      t.jobs.lookup r.trimmed.jobID = some job ∧ job.status = .leased ∧ job.lease = some lease ∧
      now < lease.expiresAt ∧ t.deliveriesOf r.trimmed.jobID = d :: rest ∧
      d.lease.generation = job.generation ∧ d.lease.id = r.trimmed.leaseID ∧
      d.lease.workerID = r.trimmed.workerID := by
  obtain ⟨job, hjob, hheld, hcurrent⟩ := h.held ht.keyed
  have hleased := Job.leased_of_heldBy hheld
  rw [Job.heldBy] at hheld
  split at hheld
  · rename_i lease hlease
    simp only [Bool.and_eq_true, beq_iff_eq] at hheld
    obtain ⟨hgeneration, -, d, rest, hds, hid, hworker, hdgen⟩ :=
      (ht.job r.trimmed.jobID).current job lease hjob hlease
    refine ⟨job, lease, d, rest, hjob, hleased, hlease, ?_, hds, hdgen.trans hgeneration,
      hid.trans hheld.1.2, hworker.trans hheld.2⟩
    simp only [Job.expired, hlease, hleased, beq_self_eq_true, Bool.true_and,
      decide_eq_false_iff_not, not_le] at hcurrent
    exact hcurrent
  · cases hheld

/-- **Lease safety.**  After any log of calls, with any readings of the clock: a Job is leased
if and only if it has a lease, which is that of its generation and its attempt; the
generations of a Job grow with every delivery and no lease identifier is used twice, as long as
there are fewer than `2^64` deliveries and SHA-256 does not collide; `Renew`, `Ack` and `Nack`
succeed only for the holder of the latest delivery, in time; what is completed stays
completed and is not delivered again; and nothing that was enqueued is lost. -/
theorem lease_safety (sha256 : GoString → GoString) (log : List (Time × Call)) :
    (∀ j job, (trace sha256 log).jobs.lookup j = some job →
      (job.status = .leased ↔ job.lease.isSome = true) ∧
      ∀ lease, job.lease = some lease →
        lease.generation = job.generation ∧ lease.attempt = job.attempt) ∧
    (∀ j, ((trace sha256 log).deliveriesOf j).length < 2 ^ 64 →
      (((trace sha256 log).deliveriesOf j).map fun d => d.lease.generation).Pairwise (· > ·) ∧
      ((∀ d ∈ (trace sha256 log).deliveriesOf j, ∀ d' ∈ (trace sha256 log).deliveriesOf j,
          leaseID sha256 j d.lease.generation = leaseID sha256 j d'.lease.generation →
            d.lease.generation = d'.lease.generation) →
        (((trace sha256 log).deliveriesOf j).map fun d => d.lease.id).Nodup)) ∧
    (∀ now r, Succeeds (trace sha256 log).jobs now r → ∃ job lease d rest,
      (trace sha256 log).jobs.lookup r.trimmed.jobID = some job ∧ job.status = .leased ∧
      job.lease = some lease ∧ now < lease.expiresAt ∧
      (trace sha256 log).deliveriesOf r.trimmed.jobID = d :: rest ∧
      d.lease.generation = job.generation ∧ d.lease.id = r.trimmed.leaseID ∧
      d.lease.workerID = r.trimmed.workerID) ∧
    (∀ more j job, (trace sha256 log).jobs.lookup j = some job → job.status = .completed →
      (trace sha256 (log ++ more)).jobs.lookup j = some job ∧
      (trace sha256 (log ++ more)).deliveriesOf j = (trace sha256 log).deliveriesOf j ∧
      ∀ now r, r.trimmed.jobID = j → ¬ Succeeds (trace sha256 (log ++ more)).jobs now r) ∧
    ∀ more, ∀ job ∈ (trace sha256 log).enqueued,
      job.id = stableID sha256 (lit "job") [job.queue, job.clientJobID] ∧
      ∃ job', (trace sha256 (log ++ more)).jobs.lookup job.id = some job' ∧ SameRequest job job' := by
  have hsafe : (trace sha256 log).Safe sha256 := safe_trace log
  refine ⟨fun j job hjob => ⟨(hsafe.job j).leased job hjob, fun lease hlease => ?_⟩,
    fun j hlen => ?_, fun now r h => hsafe.success h, fun more j job hjob hdone => ?_,
    fun more job hjob => ⟨?_, ?_⟩⟩
  · obtain ⟨hgeneration, hattempt, -⟩ := (hsafe.job j).current job lease hjob hlease
    exact ⟨hgeneration, hattempt⟩
  · have hdecreasing : (((trace sha256 log).deliveriesOf j).map
        fun d => d.lease.generation).Pairwise (· > ·) := by
      rw [(hsafe.job j).generations]
      exact countdown_decreasing hlen
    refine ⟨hdecreasing, fun hfree => ?_⟩
    -- identifiers are those of the generations, which differ
    rw [List.Nodup, pairwise_map]
    rw [pairwise_map] at hdecreasing
    refine hdecreasing.imp_of_mem fun {d d'} hd hd' hlt heq => ?_
    rw [(hsafe.job j).named d hd, (hsafe.job j).named d' hd'] at heq
    have hgen := hfree d hd d' hd' heq
    rw [hgen] at hlt
    exact UInt64.lt_irrefl _ hlt
  · obtain ⟨hlookup, hdeliveries⟩ := completed_stays hsafe hjob hdone more
    rw [trace_append]
    refine ⟨hlookup, hdeliveries, fun now r hr h => ?_⟩
    have hafter : (trace sha256 (log ++ more)).Safe sha256 := safe_trace (log ++ more)
    rw [trace_append] at hafter
    obtain ⟨_, _, d, _, hjob', hleased, -⟩ := hafter.success h
    rw [hr, hlookup] at hjob'
    cases hjob'
    rw [hdone] at hleased
    cases hleased
  · obtain ⟨job', hjob', hsame⟩ := hsafe.kept job hjob
    have hstable := (hsafe.job job.id).stable job' hjob'
    rwa [hsame.id, hsame.queue, hsame.clientJobID] at hstable
  · rw [trace_append]
    exact kept_stays hsafe hjob more

end Safety

/-! ### Runs of one Job -/

section Cycle

variable (sha256 : GoString → GoString)

/-- A request for one attempt. -/
def cycleRequest : EnqueueRequest where
  queue := lit "q"
  clientJobID := lit "c"
  kind := lit "k"
  payload := []
  priority := 0
  availableAt := 1
  policy := ⟨1, second, 0, second, 2, false⟩

def cycleID : GoString := stableID sha256 (lit "job") [lit "q", lit "c"]

def cycleLease (generation : UInt64) : LeaseRequest where
  jobID := cycleID sha256
  leaseID := leaseID sha256 (cycleID sha256) generation
  workerID := lit "w"

/-- One cycle: the Job is claimed, given up for good, and revived. -/
def cycle (generation : UInt64) : List (Time × Call) := [
  (1, .claim ⟨lit "q", lit "w", 1⟩),
  (1, .nack ⟨cycleLease sha256 (generation + 1), [], [], true⟩),
  (1, .requeueDeadLetter (cycleID sha256))]

/-- So many cycles on a new Job. -/
def cycles : ℕ → List (Time × Call)
  | 0 => [(1, .enqueue cycleRequest)]
  | n + 1 => cycles n ++ cycle sha256 (UInt64.ofNat n)

/-- The Job between two cycles. -/
structure Idle (job : Job) (n : ℕ) : Prop where
  id : job.id = cycleID sha256
  queue : job.queue = lit "q"
  policy : job.policy = cycleRequest.policy
  status : job.status = .queued
  attempt : job.attempt = 0
  available : job.availableAt = 1
  generation : job.generation = UInt64.ofNat n

variable {sha256} {job : Job} {n : ℕ}

lemma lookup_cycleID (job : Job) :
    (AList.singleton (cycleID sha256) job : Jobs).lookup (cycleID sha256) = some job :=
  AList.lookup_insert ∅

lemma perform_claim_idle (h : Idle sha256 job n) :
    perform sha256 (AList.singleton (cycleID sha256) job) 1 (.claim ⟨lit "q", lit "w", 1⟩) =
      (.ok (.claimed [job.delivery sha256 (lit "w") 1]),
        AList.singleton (cycleID sha256) (job.claimed sha256 (lit "w") 1)) := by
  have htrim : trimSpace (lit "w") = lit "w" ∧ trimSpace (lit "q") = lit "q" := by decide +kernel
  -- nothing is reaped: only a Job that is out under a lease expires
  have hcurrent : job.expired 1 = false := by
    rw [Job.expired, h.status]
    cases job.lease with
    | none | some => rfl
  have hreap : reapExpired (AList.singleton (cycleID sha256) job) 1 (lit "q") =
      AList.singleton (cycleID sha256) job := by
    refine AList.ext ?_
    simp [reapExpired, mapValues, hcurrent]
  rw [perform, claim, if_neg (by rw [htrim.2]; decide +kernel), htrim.1, htrim.2, hreap]
  simp [eligible, claimEach, h.status, h.available, h.queue, lookup_cycleID, h.id,
    ClaimRequest.bound, Job.delivery, Except.map]

/-- The delivery is given up for good. -/
def givenUp (sha256 : GoString → GoString) (job : Job) : Job :=
  (job.claimed sha256 (lit "w") 1).nacked ⟨cycleLease sha256 (job.generation + 1), [], [], true⟩ 1

lemma perform_nack_claimed (h : Idle sha256 job n) :
    perform sha256 (AList.singleton (cycleID sha256) (job.claimed sha256 (lit "w") 1)) 1
        (.nack ⟨cycleLease sha256 (job.generation + 1), [], [], true⟩) =
      (.ok (.job (givenUp sha256 job)), AList.singleton (cycleID sha256) (givenUp sha256 job)) := by
  have htrim : (cycleLease sha256 (job.generation + 1)).trimmed =
      cycleLease sha256 (job.generation + 1) := by
    have hworker : trimSpace (lit "w") = lit "w" := by decide +kernel
    rw [LeaseRequest.trimmed, cycleLease, hworker, cycleID, leaseID,
      stableID_trimmed sha256 (by decide +kernel), stableID_trimmed sha256 (by decide +kernel)]
  have hheld : (job.claimed sha256 (lit "w") 1).heldBy (cycleLease sha256 (job.generation + 1)) =
      true := by
    simp [Job.heldBy, Job.claimed, Job.nextLease, cycleLease, leaseID, h.id]
  have hcurrent : (job.claimed sha256 (lit "w") 1).expired 1 = false := by
    simp [Job.expired, Job.claimed, Job.nextLease, h.policy, cycleRequest, second, millisecond]
  have hid : (job.claimed sha256 (lit "w") 1).id = cycleID sha256 := h.id
  rw [perform, nack, withLease, currentLease, htrim, cycleLease, lookup_cycleID, ← cycleLease]
  have hlive : (job.claimed sha256 (lit "w") 1).terminal = false := rfl
  simp [hheld, hcurrent, hid, hlive, givenUp, Except.map, AList.insert_singleton_eq]

lemma perform_requeue_givenUp (h : Idle sha256 job n) :
    perform sha256 (AList.singleton (cycleID sha256) (givenUp sha256 job)) 1
        (.requeueDeadLetter (cycleID sha256)) =
      (.ok (.job ((givenUp sha256 job).requeued 1)),
        AList.singleton (cycleID sha256) ((givenUp sha256 job).requeued 1)) ∧
    Idle sha256 ((givenUp sha256 job).requeued 1) (n + 1) := by
  -- one attempt is allowed, so the first delivery that is given up is the last
  have hdead : givenUp sha256 job = { job.claimed sha256 (lit "w") 1 with
      lease := none, status := .deadLetter, deadLetterAt := some 1
      lastErrorCode := trimSpace [], lastError := truncate [] 1024 } := by
    rw [givenUp, Job.nacked, Job.release,
      if_pos (by simp [Job.claimed, h.policy, h.attempt, cycleRequest])]
    rfl
  have htrim : trimSpace (cycleID sha256) = cycleID sha256 := by
    rw [cycleID, stableID_trimmed sha256 (by decide +kernel)]
  constructor
  · rw [perform, requeueDeadLetter, htrim, lookup_cycleID]
    simp [hdead, Job.requeued, Except.map, Job.claimed, h.id, AList.insert_singleton_eq]
  · rw [hdead]
    refine ⟨h.id, h.queue, h.policy, rfl, rfl, rfl, ?_⟩
    show job.generation + 1 = UInt64.ofNat (n + 1)
    rw [h.generation, UInt64.ofNat_add]
    rfl

/-- **One cycle** makes one delivery and leaves the Job as it was, but for its generation. -/
theorem Idle.cycle {t : Trace} (h : Idle sha256 job n)
    (hjobs : t.jobs = AList.singleton (cycleID sha256) job) :
    ∃ job', ((cycle sha256 (UInt64.ofNat n)).foldl (Trace.step sha256) t).jobs =
        AList.singleton (cycleID sha256) job' ∧ Idle sha256 job' (n + 1) ∧
      ((cycle sha256 (UInt64.ofNat n)).foldl (Trace.step sha256) t).delivered =
        job.delivery sha256 (lit "w") 1 :: t.delivered := by
  obtain ⟨hrequeue, hnext⟩ := perform_requeue_givenUp h
  have hnack := perform_nack_claimed h
  rw [h.generation] at hnack
  have hclaim : t.step sha256 (1, .claim ⟨lit "q", lit "w", 1⟩) =
      ⟨AList.singleton (cycleID sha256) (job.claimed sha256 (lit "w") 1),
        job.delivery sha256 (lit "w") 1 :: t.delivered, t.enqueued⟩ := by
    rw [Trace.step, hjobs, perform_claim_idle h]
    rfl
  rw [Queue.cycle, foldl_cons, hclaim, foldl_cons, Trace.step, hnack, foldl_cons, Trace.step, hrequeue]
  exact ⟨(givenUp sha256 job).requeued 1, rfl, hnext, rfl⟩

/-- After so many cycles there were so many deliveries. -/
lemma cycles_spec (sha256 : GoString → GoString) (n : ℕ) :
    (∃ job, (trace sha256 (cycles sha256 n)).jobs = AList.singleton (cycleID sha256) job ∧
      Idle sha256 job n) ∧
    ((trace sha256 (cycles sha256 n)).deliveriesOf (cycleID sha256)).length = n ∧
    ∀ e ∈ cycles sha256 n, e.1 = 1 := by
  induction n with
  | zero =>
    refine ⟨⟨initialJob sha256 (trimEnqueueRequest cycleRequest 1) 1, rfl, ?_⟩, rfl, by simp [cycles]⟩
    have htrim : trimSpace (lit "q") = lit "q" := by decide +kernel
    exact ⟨rfl, htrim, rfl, rfl, rfl, rfl, rfl⟩
  | succ n ih =>
    obtain ⟨⟨job, hjobs, hidle⟩, hlength, htimes⟩ := ih
    obtain ⟨job', hjobs', hidle', hdelivered⟩ := hidle.cycle hjobs
    rw [cycles, trace, foldl_append, ← trace]
    refine ⟨⟨job', hjobs', hidle'⟩, ?_, ?_⟩
    · have hid : (job.delivery sha256 (lit "w") 1).job.id = cycleID sha256 := hidle.id
      rw [Trace.deliveriesOf, hdelivered, filter_cons_of_pos (by simpa using hid), length_cons]
      exact congrArg (· + 1) hlength
    · intro e he
      rcases mem_append.mp he with he | he
      · exact htimes e he
      · simp only [Queue.cycle, mem_cons, not_mem_nil, or_false] at he
        rcases he with rfl | rfl | rfl
        all_goals rfl

end Cycle

/-- Two cycles: the generations are 2 and 1 and the leases differ; and the holder of a first
delivery may complete the Job. -/
theorem lease_safety_twice :
    (((trace List.reverse (cycles List.reverse 2)).deliveriesOf (cycleID List.reverse)).map
      fun d => d.lease.generation).Pairwise (· > ·) ∧
    (((trace List.reverse (cycles List.reverse 2)).deliveriesOf (cycleID List.reverse)).map
      fun d => d.lease.id).Nodup ∧
    (∃ job lease d rest, (trace List.reverse (cycles List.reverse 0 ++
        [(1, .claim ⟨lit "q", lit "w", 1⟩)])).jobs.lookup
          (cycleLease List.reverse 1).trimmed.jobID = some job ∧ job.status = .leased ∧
      job.lease = some lease ∧ 1 < lease.expiresAt ∧
      (trace List.reverse (cycles List.reverse 0 ++
        [(1, .claim ⟨lit "q", lit "w", 1⟩)])).deliveriesOf
          (cycleLease List.reverse 1).trimmed.jobID = d :: rest ∧
      d.lease.generation = job.generation ∧
      d.lease.id = (cycleLease List.reverse 1).trimmed.leaseID ∧
      d.lease.workerID = (cycleLease List.reverse 1).trimmed.workerID) := by
  obtain ⟨hdecreasing, hnodup⟩ := (lease_safety reverse (cycles reverse 2)).2.1
    (cycleID reverse) (by decide +kernel)
  refine ⟨hdecreasing, hnodup (by decide +kernel), ?_⟩
  refine (lease_safety reverse (cycles reverse 0 ++
    [(1, .claim ⟨lit "q", lit "w", 1⟩)])).2.2.1 1 (cycleLease reverse 1) ?_
  refine .inr (.inl ?_)
  have hok : (ack (trace reverse (cycles reverse 0 ++
      [(1, .claim ⟨lit "q", lit "w", 1⟩)])).jobs 1 (cycleLease reverse 1)).1.isOk = true := by
    decide +kernel
  cases hack : (ack (trace reverse (cycles reverse 0 ++
      [(1, .claim ⟨lit "q", lit "w", 1⟩)])).jobs 1 (cycleLease reverse 1)).1 with
  | error e =>
    rw [hack] at hok
    cases hok
  | ok job => exact ⟨job, rfl⟩

/-- **A lease identifier is issued again** once a Job was delivered `2^64` times, while the
clock stands still and whatever the hash function. -/
theorem lease_repeats : ∃ (log : List (Time × Call)) (j : GoString),
    (∀ e ∈ log, e.1 = 1) ∧
      ¬ (((trace sha256 log).deliveriesOf j).map fun d => d.lease.id).Nodup := by
  have hids : ∀ n, ((trace sha256 (cycles sha256 n)).deliveriesOf (cycleID sha256)).map
      (fun d => d.lease.id) = (countdown n).map (leaseID sha256 (cycleID sha256)) := by
    intro n
    have hsafe := (@safe_trace sha256 (cycles sha256 n)).job (cycleID sha256)
    have hgenerations := hsafe.generations
    rw [(cycles_spec sha256 n).2.1] at hgenerations
    rw [← hgenerations, map_map]
    exact map_congr_left hsafe.named
  refine ⟨cycles sha256 (2 ^ 64 + 1), cycleID sha256, (cycles_spec sha256 _).2.2, ?_⟩
  -- the newest generation is 1 again
  rw [hids, countdown, map_cons, nodup_cons]
  intro h
  refine h.1 (mem_map_of_mem (mem_countdown.mpr ⟨0, by norm_num, ?_⟩))
  decide

/-- It is, with the hash function that returns its text. -/
theorem lease_reissued : ∃ (log : List (Time × Call)) (j : GoString),
    (∀ e ∈ log, e.1 = 1) ∧
      ¬ (((trace id log).deliveriesOf j).map fun d => d.lease.id).Nodup :=
  lease_repeats

end Queue
