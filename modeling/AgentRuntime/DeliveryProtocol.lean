/-
What Schedulers and Workers agree on.

The lease of a delivery may be lost at any moment: it may run out while the handler
or the quarantine is busy, somebody else may claim the Job, and the Worker learns it
late or never.  What saves the protocol is that a lease once lost never comes back,
so a call that the queue still accepts at the end proves that the lease was held all
the time.

`Sound` is the invariant of the queue and its log, and `Moves` the promise of every
step.  Each call of the shared object is shown to keep the promise, some of them only
with what a Worker knows in its delivery.

* `Moves.of_kept` — steps that grant no lease;
* `claimed_moves` — a pass of claims;
* `settled_moves` — the end of a delivery, with `ack_moves` and `nack_moves`;
* `Delivered`, `Handled`, `FenceStands` — what a Worker knows, and that it lasts.
-/
import AgentRuntime.ContinuationWorker

namespace Scheduling

open GoString Kernel Interleaving Continuation FiniteMap List Option Queue
open Queue (Job Jobs QueueError LeaseRequest NackRequest ClaimRequest Delivery)

variable {host : Host}

/-! ### What everybody keeps to -/

/-- The identifier of the lease under which the Job `j` is out. -/
def System.holder (s : System) (j : GoString) : Option GoString := (s.jobs.lookup j).bind Job.holder

/-- The clock of the queue never goes backwards. -/
def Host.Forward (host : Host) : Prop := ∀ earlier later, host.Tick earlier later → earlier ≤ later

/-- The invariant of the queue. -/
structure Sound (host : Host) (s : System) : Prop where
  keyed : Queue.Keyed s.jobs
  /-- Every Job came from a Scheduler. -/
  fenced : ∀ j job, s.jobs.lookup j = some job →
    trimSpace j = j ∧ job.policy.requireTerminalFence = true
  granted : ∀ j lease, s.holder j = some lease → (j, lease) ∈ s.granted ∧ trimSpace lease = lease
  decoded : ∀ j job, s.jobs.lookup j = some job → job.terminal = true →
    ∃ p, decodePayload job.payload = .ok p
  past : host.Forward → ∀ e ∈ s.log, e.now ≤ s.clock
  noted : ∀ e ∈ s.log, ∀ found, e.found = some found → ∀ lease, found.holder = some lease →
    (found.id, lease) ∈ s.granted
  /-- A lease that was found expired was not extended later. -/
  expired : host.Forward → s.granted.Nodup → ∀ e ∈ s.log, ∀ found job, e.found = some found →
    s.jobs.lookup found.id = some job → job.holder.isSome → job.holder = found.holder →
    found.expired e.now = true → job.lease = found.lease

/-- The queue accepted a call of the holder of the Job `j`, whose lease had not ended. -/
structure Accepted (s : System) (j : GoString) (request : LeaseRequest) (job : Job) (now : Time) :
    Prop where
  lookup : s.jobs.lookup j = some job
  target : request.trimmed.jobID = j
  held : job.heldBy request.trimmed = true
  current : job.expired now = false

/-- The Job `j` is completed in this step: by its holder, in whose delivery the
handler has returned nil for the payload. -/
def Completes (s s' : System) (j : GoString) : Prop :=
  ∃ job request now p, Accepted s j request job now ∧
    s'.log = ⟨.acked request, some job, now⟩ :: s.log ∧ decodePayload job.payload = .ok p ∧
    ∃ e ∈ s.log, e.event = .dispatched request p none

/-- The entry says that the quarantine of the payload `p` returned nil in the delivery,
while the Job was out under the lease of that delivery. -/
def FencedBy (host : Host) (request : LeaseRequest) (p : Payload) (e : Entry) : Prop :=
  ∃ cause found, e.event = .quarantined request p cause none ∧ e.found = some found ∧
    found.id = request.jobID ∧ found.holder = some request.leaseID ∧
    (host.Forward → found.expired e.now = false)

/-- The Job `j` becomes a dead letter in this step: by a release of its holder, in
whose delivery the Run was quarantined while the lease was current. -/
def DeadLetters (host : Host) (s s' : System) (j : GoString) : Prop :=
  ∃ job request now p, Accepted s j request.toLeaseRequest job now ∧
    s'.log = ⟨.nacked request, some job, now⟩ :: s.log ∧ decodePayload job.payload = .ok p ∧
    (s'.granted.Nodup → ∃ e ∈ s.log, FencedBy host request.toLeaseRequest p e)

/-- What everybody promises. -/
structure Moves (host : Host) (s s' : System) : Prop where
  sound : Sound host s'
  log : s.log <:+ s'.log
  granted : s.granted <:+ s'.granted
  request : ∀ j job, s.jobs.lookup j = some job →
    ∃ job', s'.jobs.lookup j = some job' ∧ Queue.SameRequest job job'
  /-- A lease once lost never comes back, unless an identifier is granted twice. -/
  lost : s'.granted.Nodup → ∀ j lease, (j, lease) ∈ s.granted → s'.holder j = some lease →
    s.holder j = some lease
  ends : ∀ j job', s'.jobs.lookup j = some job' → job'.terminal = true →
    s.jobs.lookup j = some job' ∨ (job'.status = .completed ∧ Completes s s' j) ∨
      (job'.status = .deadLetter ∧ DeadLetters host s s' j)

/-- The agreement of all Schedulers and Workers. -/
def deliveryProtocol (host : Host) : Protocol System where
  Inv := Sound host
  Guar := Moves host
  inv_of_guar _ h := h.sound

lemma sound_empty (host : Host) : Sound host {} where
  keyed _ _ h := absurd h (by simp)
  fenced _ _ h := absurd h (by simp)
  granted _ _ h := absurd h (by simp [System.holder])
  decoded _ _ h := absurd h (by simp)
  past _ _ h := absurd h (by simp)
  noted _ h := absurd h (by simp)
  expired _ _ _ h := absurd h (by simp)

variable {s s' : System} {now : Time} {event : Event} {op : Op}

/-- What a step has to show about the log and the clock. -/
structure Records (host : Host) (s s' : System) (now : Time) : Prop where
  forward : host.Forward → s.clock ≤ now ∧ now ≤ s'.clock
  /-- A new entry is about a Job that is still the same, or not out any more. -/
  log : ∃ entries, s'.log = entries ++ s.log ∧ ∀ e ∈ entries, (host.Forward → e.now ≤ s'.clock) ∧
    ∀ found, e.found = some found → s.jobs.lookup found.id = some found ∧
      (s'.jobs.lookup found.id = some found ∨ s'.holder found.id = none)

/-- A lease that was found expired is not extended by a step that claims nothing. -/
lemma Sound.expired_kept (h : Sound host s) (hforward : host.Forward) (hnodup : s.granted.Nodup)
    {e : Entry} (he : e ∈ s.log) {found job' : Job} (hfound : e.found = some found)
    (hkept : Queue.Kept now (s.jobs.lookup found.id) (some job')) (hnow : s.clock ≤ now)
    (hheld : job'.holder.isSome) (hsame : job'.holder = found.holder)
    (hexpired : found.expired e.now = true) : job'.lease = found.lease := by
  obtain ⟨lease, hlease⟩ := isSome_iff_exists.mp hheld
  obtain ⟨job, hjob, hjoblease⟩ := bind_eq_some_iff.mp (hkept.holder lease hlease)
  have hunchanged : job.lease = found.lease := by
    refine h.expired hforward hnodup e he found job hfound hjob ?_ ?_ hexpired
    · rw [hjoblease]
      rfl
    · rw [hjoblease, ← hlease, hsame]
  rcases hkept.lease job job' hjob rfl hheld with heq | hcurrent
  · rw [heq, hunchanged]
  have hended : job.expired now = true := by
    refine Job.expired_of_lease hunchanged (by rw [hjoblease]; rfl) hexpired ?_
    exact (h.past hforward e he).trans hnow
  rw [hcurrent] at hended
  simp at hended

section Step

variable (now : Time) (h : Sound host s) (hrecords : Records host s s' now)
  (hkeyed : Keyed s'.jobs)
  (hnew : ∀ j job, s.jobs.lookup j = none → s'.jobs.lookup j = some job →
    trimSpace j = j ∧ job.policy.requireTerminalFence = true)
  (hends : ∀ j job', s'.jobs.lookup j = some job' → job'.terminal = true →
    s.jobs.lookup j = some job' ∨ (job'.status = .completed ∧ Completes s s' j) ∨
      (job'.status = .deadLetter ∧ DeadLetters host s s' j))

include h hrecords hkeyed hnew hends

/-- A step in which a Job is kept, or goes out under a fresh lease. -/
lemma Moves.of_granted {fresh : List (GoString × GoString)} (hgranted : s'.granted = fresh ++ s.granted)
    (hjobs : ∀ j, Queue.Kept now (s.jobs.lookup j) (s'.jobs.lookup j) ∨
      ∃ lease, s'.holder j = some lease ∧ (j, lease) ∈ fresh ∧ trimSpace lease = lease ∧
        ∀ job, s.jobs.lookup j = some job →
          ∃ job', s'.jobs.lookup j = some job' ∧ Queue.SameRequest job job') :
    Moves host s s' := by
  obtain ⟨entries, hlog, hentries⟩ := hrecords.log
  have hclock : host.Forward → s.clock ≤ s'.clock := fun hforward =>
    (hrecords.forward hforward).1.trans (hrecords.forward hforward).2
  have hmem : ∀ e, e ∈ s'.log → e ∈ entries ∨ e ∈ s.log := by
    intro e he
    rwa [hlog, mem_append] at he
  have hforth : ∀ j job, s.jobs.lookup j = some job →
      ∃ job', s'.jobs.lookup j = some job' ∧ Queue.SameRequest job job' := by
    intro j
    rcases hjobs j with hkept | ⟨_, -, -, -, hrequest⟩
    · exact hkept.request
    · exact hrequest
  have hsame : ∀ j job job', s.jobs.lookup j = some job → s'.jobs.lookup j = some job' →
      Queue.SameRequest job job' := by
    intro j job _ hjob hjob'
    obtain ⟨_, hjob1, _⟩ := hforth j job hjob
    rw [hjob'] at hjob1
    rwa [some.inj hjob1]
  -- a Job that is out was out before, or has its lease from this step
  have hheld : ∀ j lease, s'.holder j = some lease → s.holder j = some lease ∨
      ((j, lease) ∈ fresh ∧ trimSpace lease = lease) := by
    intro j lease hlease
    rcases hjobs j with hkept | ⟨_, hholder, hfresh, htrim, -⟩
    · exact .inl (hkept.holder lease hlease)
    · rw [hlease] at hholder
      cases hholder
      exact .inr ⟨hfresh, htrim⟩
  -- a lease that was granted before is not granted again
  have honce : s'.granted.Nodup → ∀ j lease, (j, lease) ∈ s.granted → (j, lease) ∉ fresh := by
    intro hnodup j _ hold hfresh
    rw [hgranted] at hnodup
    exact (nodup_append.mp hnodup).2.2 _ hfresh _ hold rfl
  refine ⟨⟨hkeyed, ?_, ?_, ?_, ?_, ?_, ?_⟩, ?_, ?_, hforth, ?_, hends⟩
  · intro j job' hjob'
    rcases hjob : s.jobs.lookup j with _ | job
    · exact hnew j job' hjob hjob'
    · rw [(hsame j job job' hjob hjob').policy]
      exact h.fenced j job hjob
  · intro j lease hlease
    rw [hgranted]
    rcases hheld j lease hlease with hbefore | ⟨hfresh, htrim⟩
    · exact (h.granted j lease hbefore).imp_left (mem_append_right _)
    · exact ⟨mem_append_left _ hfresh, htrim⟩
  · intro j job' hjob' hterminal
    have hdecoded : ∀ job p, s.jobs.lookup j = some job → decodePayload job.payload = .ok p →
        ∃ p, decodePayload job'.payload = .ok p := by
      intro job p hjob hp
      exact ⟨p, by rw [(hsame j job job' hjob hjob').payload, hp]⟩
    rcases hends j job' hjob' hterminal with hbefore | ⟨-, job, _, _, p, haccept, -, hp, -⟩ |
        ⟨-, job, _, _, p, haccept, -, hp, -⟩
    · exact h.decoded j job' hbefore hterminal
    all_goals exact hdecoded job p haccept.lookup hp
  · intro hforward e he
    rcases hmem e he with he | he
    · exact (hentries e he).1 hforward
    · exact (h.past hforward e he).trans (hclock hforward)
  · intro e he found hfound lease hlease
    rw [hgranted]
    refine mem_append_right _ ?_
    rcases hmem e he with he | he
    · obtain ⟨hbefore, -⟩ := (hentries e he).2 found hfound
      refine (h.granted found.id lease ?_).1
      rwa [System.holder, hbefore]
    · exact h.noted e he found hfound lease hlease
  · intro hforward hnodup e he found job' hfound hjob' hout hholder hexpired
    have hafter : s'.holder found.id = job'.holder := by
      rw [System.holder, hjob']
      rfl
    rcases hmem e he with he | he
    · obtain ⟨-, hfound' | hfree⟩ := (hentries e he).2 found hfound
      · rw [hjob'] at hfound'
        rw [some.inj hfound']
      rw [← hafter, hfree] at hout
      simp at hout
    rcases hjobs found.id with hkept | ⟨lease, hlease, hfresh, -⟩
    · rw [hjob'] at hkept
      rw [hgranted] at hnodup
      exact h.expired_kept hforward (nodup_append.mp hnodup).2.1 he hfound hkept
        (hrecords.forward hforward).1 hout hholder hexpired
    · rw [hafter, hholder] at hlease
      exact absurd hfresh (honce hnodup _ _ (h.noted e he found hfound lease hlease))
  · rw [hlog]
    exact suffix_append _ _
  · rw [hgranted]
    exact suffix_append _ _
  · intro hnodup j lease hold hlease
    rcases hheld j lease hlease with hbefore | ⟨hfresh, -⟩
    · exact hbefore
    · exact absurd hfresh (honce hnodup j lease hold)

/-- A step in which no lease is granted. -/
theorem Moves.of_kept (hgranted : s'.granted = s.granted)
    (hkept : ∀ j, Queue.Kept now (s.jobs.lookup j) (s'.jobs.lookup j)) :
    Moves host s s' :=
  .of_granted now h hrecords hkeyed hnew hends (hgranted.trans (nil_append _).symm)
    fun j => .inl (hkept j)

end Step

lemma Moves.of_same_jobs (now : Time) (h : Sound host s) (hjobs : s'.jobs = s.jobs)
    (hgranted : s'.granted = s.granted) (hrecords : Records host s s' now) : Moves host s s' := by
  refine .of_kept now h hrecords ?_ ?_ ?_ hgranted fun j => ?_
  · rw [hjobs]
    exact h.keyed
  · intro j _ hnone hjob
    rw [hjobs, hnone] at hjob
    simp at hjob
  · intro j _ hjob' _
    rw [hjobs] at hjob'
    exact .inl hjob'
  rw [hjobs]
  exact .refl now _

/-- A protected Job is not ended unless it is settled. -/
lemma Sound.ended_before (h : Sound host s) {j : GoString} {job' : Job}
    (hchange : Queue.Change now (s.jobs.lookup j) (some job')) (hterminal : job'.terminal = true) :
    s.jobs.lookup j = some job' := by
  refine hchange.terminal hterminal ?_
  rcases hjob : s.jobs.lookup j with _ | job
  · rw [hjob] at hchange
    exact absurd hchange.absent (by simp)
  obtain ⟨_, hjob1, hsame⟩ := hchange.kept.request job hjob
  cases hjob1
  rw [hsame.policy]
  exact (h.fenced j job hjob).2

/-- A step that changes the Jobs, but neither claims nor settles one. -/
lemma Moves.of_change (now : Time) (h : Sound host s) (hgranted : s'.granted = s.granted)
    (hrecords : Records host s s' now) (hkeyed : Queue.Keyed s'.jobs)
    (hchange : ∀ j, Queue.Change now (s.jobs.lookup j) (s'.jobs.lookup j)) : Moves host s s' := by
  refine .of_kept now h hrecords hkeyed ?_ ?_ hgranted fun j => (hchange j).kept
  · intro j _ hnone hjob
    have hstep := hchange j
    rw [hnone, hjob] at hstep
    exact absurd hstep.absent (by simp)
  intro j _ hjob' hterminal
  have hstep := hchange j
  rw [hjob'] at hstep
  exact .inl (h.ended_before hstep hterminal)

/-! ### What the calls do -/

lemma Records.silent (hlog : s'.log = s.log) (hclock : s'.clock = now)
    (htick : host.Tick s.clock now) : Records host s s' now where
  forward hforward := ⟨hforward _ _ htick, hclock.ge⟩
  log := ⟨[], hlog, by simp⟩

lemma Records.still (hlog : s'.log = s.log) (hclock : s'.clock = s.clock) :
    Records host s s' s.clock where
  forward _ := ⟨le_rfl, hclock.ge⟩
  log := ⟨[], hlog, by simp⟩

/-- A step that records one event about the Job of a key. -/
lemma Records.one (h : Sound host s) {j : GoString}
    (hforward : host.Forward → s.clock ≤ now ∧ now ≤ s'.clock)
    (hlog : s'.log = ⟨event, s.jobs.lookup j, now⟩ :: s.log)
    (hafter : ∀ found, s.jobs.lookup j = some found →
      s'.jobs.lookup j = some found ∨ s'.holder j = none) : Records host s s' now := by
  refine ⟨hforward, [⟨event, s.jobs.lookup j, now⟩], hlog, forall_mem_singleton.mpr ?_⟩
  refine ⟨fun hf => (hforward hf).2, fun found hfound => ?_⟩
  have hid : found.id = j := h.keyed j found hfound
  rw [hid]
  exact ⟨hfound, hafter found hfound⟩

lemma Records.note (h : Sound host s) {j : GoString} (hforward : host.Forward → s.clock ≤ now)
    (hs' : s' = (s.tick now s.jobs).note event j) : Records host s s' now := by
  subst hs'
  exact .one h (fun hf => ⟨hforward hf, le_rfl⟩) rfl fun _ hfound => .inl hfound

lemma refused_moves (h : Sound host s) {e : Failure} (hrefused : Refused s e s') :
    Moves host s s' := by
  obtain ⟨-, -, rfl⟩ := hrefused
  exact .of_same_jobs s.clock h rfl rfl (.note h (fun _ => le_rfl) rfl)

/-- The calls that neither put a Job on the queue nor claim or settle one. -/
def Op.plain : Op → Bool
  | enqueue .. | claim _ | ack _ | nack _ => false
  | _ => true

/-- The kernel Store and the relations have nothing to do with the queue. -/
lemma StoreAnswers.frame {r : op.Res} (h : StoreAnswers host s op r s') :
    s'.jobs = s.jobs ∧ s'.granted = s.granted ∧ s'.log = s.log ∧ s'.clock = s.clock := by
  cases op with
  | load | relationByChild =>
    obtain ⟨-, rfl⟩ := h
    rename Except _ _ => answer
    cases answer <;> exact ⟨rfl, rfl, rfl, rfl⟩
  | listRelations | reconcilePage =>
    obtain ⟨rfl, -⟩ := h
    exact ⟨rfl, rfl, rfl, rfl⟩
  | claimTransitions | ackTransition | retryTransition =>
    obtain ⟨_, _, _, -, -, rfl⟩ := h
    exact ⟨rfl, rfl, rfl, rfl⟩
  | _ => exact absurd h id

lemma host_moves (h : Sound host s) {r : op.Res} (hexec : HostAnswers host s op r s') :
    Moves host s s' := by
  have hsame : s' = s → Moves host s s' := by
    intro hs
    exact .of_same_jobs s.clock h (by rw [hs]) (by rw [hs]) (.still (by rw [hs]) (by rw [hs]))
  cases op with
  | schedulerNow | awaitRenewal | awaitTicker | reconcileGuard | markObserved | markEnqueued =>
    exact hsame hexec
  | contextErr | awaitLane => exact hsame hexec.2
  | queueNow =>
    obtain ⟨htick, rfl⟩ := hexec
    exact .of_same_jobs _ h rfl rfl (.silent rfl rfl htick)
  | dispatch | quarantine =>
    obtain ⟨_, htick, rfl⟩ := hexec
    exact .of_same_jobs _ h rfl rfl (.note h (fun hf => hf _ _ htick) rfl)
  | kernel =>
    obtain ⟨_, -, -, rfl⟩ := hexec
    exact .of_same_jobs s.clock h rfl rfl (.still rfl rfl)
  | relate =>
    rcases hexec with hexec | ⟨_, -, -, rfl⟩
    · exact hsame hexec
    · exact .of_same_jobs s.clock h rfl rfl (.still rfl rfl)
  | _ => exact absurd hexec id

/-- A plain call of the queue: the Jobs that are there may change, none is new. -/
lemma queue_moves (h : Sound host s) (hplain : op.plain = true) {r : op.Res}
    (hexec : QueueAnswers host s op r s') : Moves host s s' := by
  have hchanged : ∀ {α : Type} {out : Except QueueError α × Jobs} {r : Except Failure α} {now : Time},
      (∀ j, Queue.Change now (s.jobs.lookup j) (out.2.lookup j)) → Queue.Keyed out.2 →
      Answers host s now out r s' → Moves host s s' := by
    rintro α _ r _ hchange hkeyed ⟨htick, -, rfl⟩
    exact .of_change _ h rfl (.silent rfl rfl htick) hkeyed hchange
  cases op with
  | renew request =>
    obtain ⟨now, hanswers⟩ := hexec
    exact hchanged (renew_change now h.keyed request)
      (keyed_withLease now h.keyed request fun _ => rfl) hanswers
  | reap queueName =>
    obtain ⟨now, hanswers⟩ := hexec
    exact hchanged (reap_change now queueName) (keyed_reap now h.keyed queueName) hanswers
  | requeueDeadLetter jobID =>
    obtain ⟨now, hanswers⟩ := hexec
    exact hchanged (requeue_change now h.keyed jobID)
      (keyed_requeueDeadLetter now h.keyed jobID) hanswers
  | enqueue | claim | ack | nack => simp [Op.plain] at hplain
  | _ => exact absurd hexec id

lemma plain_moves (h : Sound host s) (hplain : op.plain = true) {r : op.Res}
    (hexec : (continuationObject host).Exec s op r s') : Moves host s s' := by
  rcases hexec with hqueue | hstore | hhost | ⟨e, -, hrefused⟩
  · exact queue_moves h hplain hqueue
  · obtain ⟨hjobs, hgranted, hlog, hclock⟩ := hstore.frame
    exact .of_same_jobs s.clock h hjobs hgranted (.still hlog hclock)
  · exact host_moves h hhost
  · exact refused_moves h hrefused

/-- A Job from a Scheduler is put on the queue. -/
lemma enqueue_moves (h : Sound host s) {p : Payload} {job : Job} (hstatus : job.status = .queued)
    (htrimmed : trimSpace job.id = job.id) (hfence : job.policy.requireTerminalFence = true)
    {r : (Op.enqueue p job).Res} (hexec : (continuationObject host).Exec s (.enqueue p job) r s') :
    Moves host s s' := by
  rcases hexec with ⟨-, hs'⟩ | hstore | hhost | ⟨e, hrefusal, -⟩
  · have hlookup : ∀ j, s'.jobs.lookup j =
        if j = job.id then some ((s.jobs.lookup j).getD job) else s.jobs.lookup j := by
      intro j
      rw [hs']
      exact lookup_enqueue job j
    -- the only new Job is the one that was put on the queue
    have hnew : ∀ j job', s.jobs.lookup j = none → s'.jobs.lookup j = some job' →
        j = job.id ∧ job' = job := by
      intro j _ hnone hjob'
      rw [hlookup] at hjob'
      split at hjob'
      · rename_i hj
        rw [hnone] at hjob'
        exact ⟨hj, (some.inj hjob').symm⟩
      · rw [hnone] at hjob'
        simp at hjob'
    have hold : ∀ j job', s.jobs.lookup j = some job' → s'.jobs.lookup j = some job' := by
      intro j _ hjob'
      rw [hlookup, hjob']
      split
      all_goals rfl
    have hrecords : Records host s s' s.clock := .one h (fun _ => ⟨le_rfl, by rw [hs']; exact le_rfl⟩)
      (by rw [hs']; rfl) fun found hfound => .inl (hold _ found hfound)
    refine .of_kept s.clock h hrecords ?_ ?_ ?_ (by rw [hs']; rfl) ?_
    · rw [hs']
      exact keyed_enqueue h.keyed job
    · intro j job' hnone hjob'
      obtain ⟨rfl, rfl⟩ := hnew j job' hnone hjob'
      exact ⟨htrimmed, hfence⟩
    · intro j job' hjob' hterminal
      left
      cases hjob : s.jobs.lookup j with
      | some existing => rw [← hjob', hold j existing hjob]
      | none =>
        rw [(hnew j job' hjob hjob').2, Queue.Job.terminal_of_queued hstatus] at hterminal
        simp at hterminal
    · intro j
      cases hjob : s.jobs.lookup j with
      | some existing =>
        rw [hold j existing hjob]
        exact .refl _ _
      | none =>
        cases hjob' : s'.jobs.lookup j with
        | none => exact .refl _ _
        | some job' =>
          rw [(hnew j job' hjob hjob').2]
          exact .of_free (by simp) (Queue.Job.holder_of_queued hstatus)
  · exact absurd hstore id
  · exact absurd hhost id
  · simp [refusal] at hrefusal

/-! ### Claims -/

/-- What a Worker knows in a delivery: the lease was granted for a Job with this
request, which is still there. -/
structure Delivered (d : Delivery) (s : System) : Prop where
  granted : (d.job.id, d.lease.id) ∈ s.granted
  request : ∃ job, s.jobs.lookup d.job.id = some job ∧ Queue.SameRequest d.job job
  trimmed : trimSpace d.job.id = d.job.id ∧ trimSpace d.lease.id = d.lease.id

lemma stable_delivered (d : Delivery) : (deliveryProtocol host).Stable (Delivered d) := by
  intro s _ _ h hmoves
  obtain ⟨job, hjob, hsame⟩ := h.request
  obtain ⟨job', hjob', hsame'⟩ := hmoves.request _ job hjob
  exact ⟨hmoves.granted.subset h.granted, ⟨job', hjob', hsame.trans hsame'⟩, h.trimmed⟩

/-- A pass of claims keeps to the agreement, and teaches the Worker its deliveries. -/
theorem claimed_moves (h : Sound host s) (htick : host.Tick s.clock now) {jobs' : Jobs}
    (hkeyed : Queue.Keyed jobs') {deliveries : List Delivery} {workerID : GoString}
    (hjobs : ∀ j, ∃ found, Queue.Change now (s.jobs.lookup j) found ∧
      ((jobs'.lookup j = found ∧ ∀ d ∈ deliveries, d.job.id ≠ j) ∨
        ∃ job, found = some job ∧ job.status = .queued ∧
          jobs'.lookup j = some (job.claimed host.sha256 workerID now) ∧
          job.delivery host.sha256 workerID now ∈ deliveries ∧
          ∀ d ∈ deliveries, d.job.id = j → d = job.delivery host.sha256 workerID now))
    (hs' : s' = { s.tick now jobs' with granted := grants (.ok deliveries) ++ s.granted }) :
    Moves host s s' ∧ ∀ d ∈ deliveries, Delivered d s' := by
  have hmoves : Moves host s s' := by
    subst hs'
    refine .of_granted now h (.silent rfl rfl htick) hkeyed ?_ ?_ rfl ?_
    · intro j _ hnone hjob'
      obtain ⟨_, hchange, hfound⟩ := hjobs j
      rw [hnone] at hchange
      obtain rfl := hchange.absent
      obtain ⟨heq, -⟩ | ⟨_, heq, -⟩ := hfound
      · exact absurd (hjob'.symm.trans heq) (by simp)
      · simp at heq
    · intro j job' hjob' hterminal
      obtain ⟨_, hchange, ⟨hsame, -⟩ | ⟨_, -, -, hclaimed, -⟩⟩ := hjobs j
      · rw [← hsame, show jobs'.lookup j = some job' from hjob'] at hchange
        exact .inl (h.ended_before hchange hterminal)
      cases hjob'.symm.trans hclaimed
      simp [Job.terminal, Job.claimed] at hterminal
    · intro j
      obtain ⟨found, hchange, ⟨hsame, -⟩ | ⟨job, rfl, -, hclaimed, hmem, -⟩⟩ := hjobs j
      · left
        rw [show (s.tick now jobs').jobs.lookup j = found from hsame]
        exact hchange.kept
      -- the Job is claimed in this pass, and its delivery tells under which lease
      refine .inr ⟨(job.nextLease host.sha256 workerID now).id, ?_, mem_map.mpr ⟨_, hmem, ?_⟩,
        stableID_trimmed _ (by decide +kernel) _, fun job1 hjob1 => ⟨_, hclaimed, ?_⟩⟩
      · show (jobs'.lookup j).bind Job.holder = _
        rw [hclaimed]
        rfl
      · rw [← hkeyed j _ hclaimed]
        rfl
      · obtain ⟨_, heq, hsame⟩ := hchange.kept.request job1 hjob1
        cases heq
        exact hsame.trans ⟨rfl, rfl, rfl, rfl, rfl, rfl, rfl⟩
  refine ⟨hmoves, fun d hd => ?_⟩
  subst hs'
  obtain ⟨_, -, ⟨-, hother⟩ | ⟨job, -, -, hclaimed, _, hunique⟩⟩ := hjobs d.job.id
  · exact absurd rfl (hother d hd)
  have heq := hunique d hd rfl
  have hjob : d.job = job.claimed host.sha256 workerID now := by rw [heq]; rfl
  refine ⟨mem_append_left _ (mem_map_of_mem hd), ⟨_, hclaimed, ?_⟩,
    (hmoves.sound.fenced _ _ hclaimed).1, ?_⟩
  · rw [← hjob]
    exact .refl _
  · rw [heq]
    exact stableID_trimmed _ (by decide +kernel) _

lemma claim_moves (h : Sound host s) {request : ClaimRequest}
    {r : (Op.claim request).Res} (hexec : (continuationObject host).Exec s (.claim request) r s') :
    Moves host s s' ∧ ∀ deliveries, r = .ok deliveries → ∀ d ∈ deliveries, Delivered d s' := by
  rcases hexec with ⟨now, _, ⟨htick, hr, rfl⟩, hs'⟩ | hstore | hhost | ⟨e, hrefusal, hrefused⟩
  · rcases claim_cases now host.sha256 h.keyed request with
      ⟨e, heq⟩ | ⟨deliveries, jobs', heq, hkeyed, hjobs⟩
    · rw [heq] at hr hs'
      refine ⟨.of_same_jobs _ h (by rw [hs']; rfl) (by rw [hs']; rfl)
        (.silent (by rw [hs']; rfl) (by rw [hs']; rfl) htick), fun deliveries hok => ?_⟩
      rw [hr] at hok
      simp [Except.mapError] at hok
    rw [heq] at hr hs'
    have hok : r = .ok deliveries := hr
    obtain ⟨hmoves, hdelivered⟩ := claimed_moves h htick hkeyed hjobs hs'
    refine ⟨hmoves, fun deliveries' hok' => ?_⟩
    cases hok.symm.trans hok'
    exact hdelivered
  · exact absurd hstore id
  · exact absurd hhost id
  refine ⟨refused_moves h hrefused, fun deliveries hok => ?_⟩
  simp only [refusal, some.injEq] at hrefusal
  rw [hok] at hrefusal
  simp at hrefusal

/-! ### Completing and releasing -/

/-- `Ack` and `Nack`: what the holder of the current lease gives back is out no
more, and what it has become has to be justified. -/
theorem settled_moves (h : Sound host s) (htick : host.Tick s.clock now) {request : LeaseRequest}
    (change : Job → Job) (hsame : ∀ job, Queue.SameRequest job (change job))
    (hfree : ∀ job, (change job).holder = none)
    (hs' : s' = { s.tick now (withLease s.jobs request now change).2 with
      log := ⟨event, s.jobs.lookup request.trimmed.jobID, now⟩ :: s.log })
    (hends : ∀ job, Accepted s request.trimmed.jobID request job now →
      (change job).terminal = true →
      ((change job).status = .completed ∧ Completes s s' request.trimmed.jobID) ∨
        ((change job).status = .deadLetter ∧ DeadLetters host s s' request.trimmed.jobID)) :
    Moves host s s' := by
  set key := request.trimmed.jobID
  -- either one Job is given back, or nothing happens to the Jobs
  have hjobs : (∃ job job', s.jobs.lookup key = some job ∧
      Queue.SameRequest job job' ∧ job'.holder = none ∧
      s'.jobs = s.jobs.insert key job' ∧ (job'.terminal = true →
        (job'.status = .completed ∧ Completes s s' key) ∨
          (job'.status = .deadLetter ∧ DeadLetters host s s' key))) ∨
      s'.jobs = s.jobs := by
    have hjobs' : s'.jobs = (withLease s.jobs request now change).2 := by rw [hs']; rfl
    rw [hjobs']
    rcases withLease_cases now h.keyed request change with
      ⟨job, hjob, hheld, hcurrent, heq⟩ | ⟨job, hjob, -, heq⟩ | ⟨e, heq⟩
    · rw [heq]
      exact .inl ⟨job, change job, hjob, hsame job, hfree job, rfl,
        hends job ⟨hjob, rfl, hheld, hcurrent⟩⟩
    · rw [heq]
      obtain ⟨hsame', -, hstatus⟩ := job.release_cases now false
      refine .inl ⟨job, _, hjob, hsame', job.holder_release now false, rfl, fun hterminal => ?_⟩
      -- a protected Job is queued again when its lease has ended
      rcases hstatus with hqueued | ⟨-, hopen | hallow⟩
      · rw [Job.terminal_of_queued hqueued] at hterminal
        simp at hterminal
      · rw [(h.fenced _ job hjob).2] at hopen
        simp at hopen
      · simp at hallow
    · rw [heq]
      exact .inr rfl
  have hgranted : s'.granted = s.granted := by rw [hs']; rfl
  have hclock : s'.clock = now := by rw [hs']; rfl
  have hrecords : (∀ found, s.jobs.lookup key = some found → s'.jobs.lookup key = some found ∨
      s'.holder key = none) → Records host s s' now :=
    .one h (fun hforward => ⟨hforward _ _ htick, hclock.ge⟩) (by rw [hs'])
  rcases hjobs with ⟨job, job', hjob, hsame', hfree', hinsert, hend⟩ | hunchanged
  · have hself : s'.jobs.lookup key = some job' := by
      rw [hinsert, AList.lookup_insert]
    have hother : ∀ j, j ≠ key → s'.jobs.lookup j = s.jobs.lookup j := by
      intro j hj
      rw [hinsert, lookup_insert_of_ne hj]
    refine .of_kept _ h (hrecords fun _ _ => .inr ?_) ?_ ?_ ?_ hgranted ?_
    · rwa [System.holder, hself]
    · rw [hinsert]
      exact keyed_insert h.keyed (hsame'.id.trans (h.keyed _ job hjob))
    · intro j _ hnone hjob1
      rw [hinsert] at hjob1
      rcases lookup_insert_cases hjob1 with ⟨rfl, -⟩ | ⟨-, hjob1⟩
      · cases hnone.symm.trans hjob
      · cases hnone.symm.trans hjob1
    · intro j _ hjob1 hterminal
      rw [hinsert] at hjob1
      rcases lookup_insert_cases hjob1 with ⟨rfl, rfl⟩ | ⟨-, hjob1⟩
      · exact .inr (hend hterminal)
      · exact .inl hjob1
    · intro j
      by_cases hj : j = key
      · subst hj
        rw [hself]
        refine .of_free (fun job1 hjob1 => ?_) hfree'
        rwa [some.inj (hjob1.symm.trans hjob)]
      · rw [hother j hj]
        exact .refl _ _
  · refine .of_same_jobs _ h hunchanged hgranted (hrecords fun found hlookup => .inl ?_)
    rwa [hunchanged]

/-- How a Worker names its delivery to the queue. -/
def Worker.request (worker : Worker) (d : Delivery) : LeaseRequest :=
  ⟨d.job.id, d.lease.id, worker.workerID⟩

/-- The handler has returned nil for the payload in the delivery. -/
def Handled (request : LeaseRequest) (p : Payload) (s : System) : Prop :=
  ∃ e ∈ s.log, e.event = .dispatched request p none

/-- The quarantine has returned nil for the payload in the delivery.  If the Job is
still out under the lease, then it was out under it at that moment. -/
def FenceStands (request : LeaseRequest) (p : Payload) (s : System) : Prop :=
  ∃ e ∈ s.log, (∃ cause, e.event = .quarantined request p cause none) ∧
    (s.granted.Nodup → s.holder request.jobID = some request.leaseID →
      ∃ found, e.found = some found ∧ found.id = request.jobID ∧
        found.holder = some request.leaseID)

variable {worker : Worker} {d : Delivery} {p : Payload}

lemma stable_handled (request : LeaseRequest) (p : Payload) :
    (deliveryProtocol host).Stable (Handled request p) := by
  rintro s _ - ⟨e, he, hevent⟩ hmoves
  exact ⟨e, hmoves.log.subset he, hevent⟩

/-- What is known of a fence is not lost, because the lease does not come back. -/
lemma stable_fenceStands (worker : Worker) (d : Delivery) (p : Payload) :
    (deliveryProtocol host).Stable fun s =>
      Delivered d s ∧ FenceStands (worker.request d) p s := by
  rintro s _ hI ⟨hd, e, he, hevent, hheld⟩ hmoves
  refine ⟨stable_delivered d hI hd hmoves, e, hmoves.log.subset he, hevent, fun hnodup hholder => ?_⟩
  exact hheld (hnodup.sublist hmoves.granted.sublist) (hmoves.lost hnodup _ _ hd.granted hholder)

/-- The Job a Worker settles has the payload it was given. -/
lemma Delivered.payload (hd : Delivered d s) {job : Job} {now : Time}
    (haccept : Accepted s (worker.request d).trimmed.jobID (worker.request d) job now) :
    job.payload = d.job.payload ∧ s.holder d.job.id = some d.lease.id := by
  have hkey : (worker.request d).trimmed.jobID = d.job.id := hd.trimmed.1
  have hlookup := haccept.lookup
  rw [hkey] at hlookup
  obtain ⟨_, hjob', hsame⟩ := hd.request
  cases hlookup.symm.trans hjob'
  refine ⟨hsame.payload, ?_⟩
  rw [System.holder, hjob', bind_some, Job.holder_of_heldBy haccept.held]
  exact congrArg some hd.trimmed.2

theorem ack_moves (h : Sound host s) (hd : Delivered d s)
    (hdecode : decodePayload d.job.payload = .ok p) (hhandled : Handled (worker.request d) p s)
    {r : (Op.ack (worker.request d)).Res}
    (hexec : (continuationObject host).Exec s (.ack (worker.request d)) r s') : Moves host s s' := by
  rcases hexec with ⟨now, _, ⟨htick, -, rfl⟩, hs'⟩ | hstore | hhost | ⟨e, -, hrefused⟩
  · refine settled_moves h htick (Job.acked now)
      (fun _ => ⟨rfl, rfl, rfl, rfl, rfl, rfl, rfl⟩) (fun _ => rfl) hs' fun job haccept _ => ?_
    refine .inl ⟨rfl, job, worker.request d, now, p, haccept, ?_, ?_, hhandled⟩
    · rw [hs', haccept.lookup]
    · rw [(hd.payload haccept).1, hdecode]
  · exact absurd hstore id
  · exact absurd hhost id
  · exact refused_moves h hrefused

/-- A Worker that asks for a dead letter has its fence. -/
theorem nack_moves (h : Sound host s) (hd : Delivered d s) {request : NackRequest}
    (hrequest : request.toLeaseRequest = worker.request d)
    (hfence : request.allowDeadLetter = true →
      decodePayload d.job.payload = .ok p ∧ FenceStands (worker.request d) p s)
    {r : (Op.nack request).Res} (hexec : (continuationObject host).Exec s (.nack request) r s') :
    Moves host s s' := by
  rcases hexec with ⟨now, _, ⟨htick, -, rfl⟩, hs'⟩ | hstore | hhost | ⟨e, -, hrefused⟩
  · have hcases := fun job : Job => Job.release_cases { job with
      lastErrorCode := trimSpace request.errorCode
      lastError := truncate request.error 1024 } now request.allowDeadLetter
    refine settled_moves h htick (Job.nacked request now) (fun job => ?_) (fun job => ?_) hs'
      fun job haccept hterminal => ?_
    · obtain ⟨⟨hid, hqueue, hclient, hprint, hkind, hpayload, hpolicy⟩, -⟩ := hcases job
      exact ⟨hid, hqueue, hclient, hprint, hkind, hpayload, hpolicy⟩
    · exact Job.holder_release _ now _
    have hkey : request.trimmed.jobID = d.job.id := by
      rw [hrequest]
      exact hd.trimmed.1
    obtain ⟨-, -, hqueued | ⟨hdead, hopen | hallow⟩⟩ := hcases job
    · have hnot : (job.nacked request now).terminal = false := Job.terminal_of_queued hqueued
      rw [hnot] at hterminal
      simp at hterminal
    · have hfenced := (h.fenced _ job haccept.lookup).2
      rw [hfenced] at hopen
      simp at hopen
    obtain ⟨hdecode, e, he, ⟨cause, hevent⟩, hstands⟩ := hfence hallow
    have haccept' : Accepted s (worker.request d).trimmed.jobID (worker.request d) job now := by
      rwa [← hrequest]
    obtain ⟨hpayload, hholder⟩ := hd.payload haccept'
    refine .inr ⟨hdead, job, request, now, p, haccept, by rw [hs', haccept.lookup],
      by rw [hpayload, hdecode], fun hnodup => ⟨e, he, ?_⟩⟩
    have hnodup' : s.granted.Nodup := by rw [hs'] at hnodup; exact hnodup
    obtain ⟨found, hfound, hid, hheld⟩ := hstands hnodup' hholder
    rw [hrequest]
    refine ⟨cause, found, hevent, hfound, hid, hheld, fun hforward => ?_⟩
    -- a lease that had ended by then would have ended by now
    by_contra hexpired
    rw [Bool.not_eq_false] at hexpired
    have hlookup : s.jobs.lookup found.id = some job := by
      rw [hid]
      show s.jobs.lookup d.job.id = some job
      rw [← hkey]
      exact haccept.lookup
    have hjob : job.holder = some d.lease.id := by
      rwa [System.holder, ← hkey, haccept.lookup] at hholder
    have hlease := h.expired hforward hnodup' e he found job hfound hlookup
      (by rw [hjob]; rfl) (by rw [hjob, hheld]; rfl) hexpired
    have hended := Job.expired_of_lease hlease (by rw [hjob]; rfl) hexpired
      ((h.past hforward e he).trans (hforward _ _ htick))
    rw [haccept.current] at hended
    simp at hended
  · exact absurd hstore id
  · exact absurd hhost id
  · exact refused_moves h hrefused

end Scheduling
