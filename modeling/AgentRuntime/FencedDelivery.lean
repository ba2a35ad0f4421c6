/-
No protected Job is dead-lettered without a fence.

Every program around the queue keeps to the agreement of Schedulers and Workers: the
loops by induction on what they still have to do, a Worker's delivery with the
knowledge it gathers on the way.  So does the whole system, in every interleaving and
with crashes anywhere.

* **`dead_letters_are_fenced`** — all Workers and Schedulers.
-/
import AgentRuntime.DeliveryProtocol

namespace Scheduling

open GoString Kernel Interleaving Continuation FiniteMap
open Queue (Job Jobs QueueError LeaseRequest NackRequest ClaimRequest Delivery)

variable {host : Host} {s s' : System} {now : Time} {worker : Worker} {d : Delivery} {p : Payload}

/-! ### The programs keep to the agreement -/

variable {α β : Type} {K : System → Prop} {Q : α → System → Prop} {op : Op}
  {k : op.Res → CProg host α} {job : Job}

/-- The program keeps to the agreement, whatever it returns. -/
abbrev Quiet (host : Host) (p : CProg host α) (s : System) : Prop :=
  Safe (deliveryProtocol host) (fun _ _ => True) p s

lemma quiet_pure (a : α) : Quiet host (pure a) s := fun _ _ _ => trivial

lemma quiet_bind {p : CProg host α} {f : α → CProg host β} (hI : Sound host s) (hp : Quiet host p s)
    (hf : ∀ a s, Sound host s → Quiet host (f a) s) : Quiet host (p >>= f) s :=
  Safe.bind hI hp fun a s' hI' _ => hf a s' hI'

/-- A call after which the program goes on, with the knowledge `K` it had before and
what the call itself has taught it. -/
lemma safe_call {L : op.Res → System → Prop} (hK : (deliveryProtocol host).Stable K)
    (hI : Sound host s) (hs : K s)
    (hmoves : ∀ s r s', Sound host s → K s → (continuationObject host).Exec s op r s' →
      Moves host s s' ∧ L r s')
    (hk : ∀ r s, Sound host s → K s → L r s → Safe (deliveryProtocol host) Q (k r) s) :
    Safe (deliveryProtocol host) Q (perform op >>= k) s := by
  refine Safe.call hK hI hs ?_
  intro s1 hI1 hs1 r s2 hexec
  obtain ⟨hguar, hlearnt⟩ := hmoves s1 r s2 hI1 hs1 hexec
  exact ⟨hguar, hk r s2 hguar.sound (hK hI1 hs1 hguar) hlearnt⟩

lemma safe_plain (hplain : op.plain = true) (hK : (deliveryProtocol host).Stable K)
    (hI : Sound host s) (hs : K s)
    (hk : ∀ r s, Sound host s → K s → Safe (deliveryProtocol host) Q (k r) s) :
    Safe (deliveryProtocol host) Q (perform op >>= k) s :=
  safe_call hK hI hs
    (fun _ _ _ h _ hexec => ⟨plain_moves h hplain hexec, trivial⟩)
    fun r s h hK _ => hk r s h hK

lemma stable_nothing : (deliveryProtocol host).Stable fun _ => True := fun _ _ _ _ _ => trivial

lemma quiet_free (hplain : op.plain = true)
    (hI : Sound host s) (hk : ∀ r s, Sound host s → Quiet host (k r) s) : Quiet host (perform op >>= k) s :=
  safe_plain hplain stable_nothing hI trivial fun r s h _ => hk r s h

lemma quiet_perform (hplain : op.plain = true) (hI : Sound host s) : Quiet host (perform op) s :=
  quiet_free hplain hI fun r _ _ => quiet_pure r

/-! ### Schedulers -/

theorem schedule_quiet (hI : Sound host s) (payload : Payload) (wakeupAt : Option Time) :
    Quiet host (schedule payload wakeupAt) s := by
  unfold schedule
  split
  · exact quiet_pure _
  refine quiet_bind hI ?_ fun availableAt s hI => quiet_bind hI ?_ fun r s hI => ?_
  · rw [continuationAvailableAt]
    split
    · exact quiet_free rfl hI fun _ _ _ => quiet_pure _
    · exact quiet_pure _
  · refine quiet_free rfl hI fun r s hI => ?_
    cases r with
    | some => exact quiet_pure _
    | none =>
      refine quiet_free rfl hI fun now s hI => ?_
      split
      · exact quiet_pure _
      rename_i hjob
      obtain rfl := Queue.prepareEnqueue_ok hjob
      exact safe_call stable_nothing hI trivial
        (fun _ _ _ h _ hexec => ⟨enqueue_moves h rfl
          (Queue.stableID_trimmed _ (by decide +kernel) _) rfl hexec, trivial⟩)
        fun _ _ _ _ _ => quiet_pure _
  · cases r with
    | error | ok => exact quiet_pure _

lemma scheduleRelation_quiet (hI : Sound host s) (relation : Relation) (child : Snapshot) :
    Quiet host (scheduleRelation relation child) s := by
  refine quiet_free rfl hI fun r s hI => ?_
  obtain e | _ := r
  · exact quiet_pure _
  dsimp only
  split
  · exact quiet_pure _
  split
  · exact quiet_pure _
  · exact schedule_quiet hI _ _

lemma scheduleOwningParent_quiet (hI : Sound host s) (transition : CommittedTransition) :
    Quiet host (scheduleOwningParent transition) s := by
  refine quiet_free rfl hI fun r s hI => ?_
  obtain e | relation := r
  · exact quiet_pure _
  refine quiet_free rfl hI fun r s hI => ?_
  cases r with
  | error => exact quiet_pure _
  | ok child => exact scheduleRelation_quiet hI relation child

lemma projectEvents_quiet (scheduler : Scheduler) (transition : CommittedTransition)
    (events : List EventDraft) : ∀ {s : System}, Sound host s → ∀ result,
      Quiet host (projectEvents scheduler transition events result) s := by
  induction events with
  | nil => exact fun _ _ => quiet_pure _
  | cons _ _ ih =>
    intro s hI result
    rw [projectEvents]
    split
    · exact ih hI result
    · exact quiet_bind hI (schedule_quiet hI _ _) fun err s hI => ih hI _

lemma projectTransition_quiet (hI : Sound host s) (scheduler : Scheduler)
    (transition : CommittedTransition) :
    Quiet host (projectTransition scheduler transition) s := by
  refine quiet_bind hI ?_ fun result s hI => projectEvents_quiet scheduler transition _ hI _
  rw [scheduleTerminal]
  split
  · exact scheduleOwningParent_quiet hI transition
  · exact quiet_pure _

lemma projectClaims_quiet (scheduler : Scheduler) (now : Time) (claims : List TransitionClaim) :
    ∀ {s : System}, Sound host s → ∀ result,
      Quiet host (projectClaims scheduler now claims result) s := by
  induction claims with
  | nil => exact fun _ _ => quiet_pure _
  | cons _ _ ih =>
    intro s hI _
    refine quiet_bind hI (projectTransition_quiet hI scheduler _) fun err s hI => ?_
    cases err with
    | none | some => exact quiet_free rfl hI fun err s hI => ih hI _

theorem project_quiet (hI : Sound host s) (scheduler : Scheduler) :
    Quiet host (project scheduler) s := by
  refine quiet_free rfl hI fun now s hI => quiet_free rfl hI fun r s hI => ?_
  cases r with
  | error => exact quiet_pure _
  | ok claims => exact projectClaims_quiet scheduler now claims hI none

lemma reconcileCandidate_quiet (hI : Sound host s) (scheduler : Scheduler)
    (candidate : ReconciliationCandidate) :
    Quiet host (reconcileCandidate scheduler candidate) s := by
  refine quiet_free rfl hI fun r s hI => ?_
  obtain e | _ := r
  · exact quiet_pure _
  dsimp only
  split
  · exact quiet_pure _
  refine quiet_free rfl hI fun r s hI => ?_
  obtain e | _ := r
  · exact quiet_pure _
  dsimp only
  split
  · exact quiet_pure _
  split
  · exact quiet_pure _
  split
  · exact quiet_pure _
  refine quiet_bind hI ?_ fun r s hI => ?_
  · rw [reconcileNeeded]
    split
    · exact quiet_perform rfl hI
    · exact quiet_pure _
  rcases r with e | _ | _
  · exact quiet_pure _
  · exact quiet_perform rfl hI
  refine quiet_bind hI (schedule_quiet hI _ _) fun err s hI => ?_
  cases err with
  | none => exact quiet_perform rfl hI
  | some => exact quiet_pure _

lemma retryReconcileFailures_quiet (scheduler : Scheduler) (n : ℕ) :
    ∀ {s : System}, Sound host s → ∀ st result,
      Quiet host (retryReconcileFailures scheduler n st result) s := by
  induction n with
  | zero => exact fun _ _ _ => quiet_pure _
  | succ _ ih =>
    intro s hI _ _
    rw [retryReconcileFailures]
    split
    · exact quiet_pure _
    refine quiet_free rfl hI fun r s hI => ?_
    cases r with
    | some => exact quiet_pure _
    | none =>
      refine quiet_bind hI (reconcileCandidate_quiet hI scheduler _) fun err s hI => ?_
      cases err with
      | none | some => exact ih hI _ _

lemma reconcileCandidates_quiet (scheduler : Scheduler) (candidates : List ReconciliationCandidate) :
    ∀ {s : System}, Sound host s → ∀ last st result,
      Quiet host (reconcileCandidates scheduler candidates last st result) s := by
  induction candidates with
  | nil => exact fun _ _ _ _ => quiet_pure _
  | cons _ _ ih =>
    intro s hI _ _ _
    refine quiet_free rfl hI fun r s hI => ?_
    cases r with
    | some => exact quiet_pure _
    | none =>
      dsimp only
      split
      · exact ih hI _ _ _
      refine quiet_bind hI (reconcileCandidate_quiet hI scheduler _) fun err s hI => ?_
      refine quiet_free rfl hI fun r s hI => ?_
      cases r with
      | some => exact quiet_pure _
      | none =>
        cases err with
        | none | some => exact ih hI _ _ _

lemma reconcileRelations_quiet (relations : List Relation) :
    ∀ {s : System}, Sound host s → ∀ result,
      Quiet host (reconcileRelations relations result) s := by
  induction relations with
  | nil => exact fun _ _ => quiet_pure _
  | cons _ _ ih =>
    intro s hI _
    refine quiet_free rfl hI fun r s hI => ?_
    obtain e | _ := r
    · dsimp only
      split
      all_goals exact ih hI _
    dsimp only
    split
    · exact ih hI _
    · exact quiet_bind hI (scheduleRelation_quiet hI _ _) fun err s hI => ih hI _

theorem reconcile_quiet (hI : Sound host s) (scheduler : Scheduler) (st : ReconcileState) :
    Quiet host (reconcile scheduler st) s := by
  rw [reconcile]
  split
  · refine quiet_bind hI ?_ fun _ _ _ => quiet_pure _
    refine quiet_free rfl hI fun r s hI => ?_
    cases r with
    | error => exact quiet_pure _
    | ok relations => exact reconcileRelations_quiet relations hI none
  refine quiet_bind hI (retryReconcileFailures_quiet scheduler _ hI _ _) fun out s hI => ?_
  refine quiet_free rfl hI fun r s hI => ?_
  cases r with
  | some => exact quiet_pure _
  | none =>
    refine quiet_free rfl hI fun r s hI => ?_
    obtain e | _ := r
    · exact quiet_pure _
    refine quiet_bind hI (reconcileCandidates_quiet scheduler _ hI _ _ _) fun out s hI => ?_
    dsimp only
    split
    all_goals exact quiet_pure _

/-! ### Workers -/

lemma readJob_payload (h : (readJob job).2 = none) :
    decodePayload job.payload = .ok (readJob job).1 := by
  rw [readJob] at h ⊢
  split
  · rename_i he
    rw [he] at h
    simp at h
  · rename_i hp
    exact hp

/-- A payload that passes the check of the quarantine was decoded. -/
lemma quarantine_decoded (h : validTerminalQuarantinePayload job (readJob job).1 = true) :
    decodePayload job.payload = .ok (readJob job).1 := by
  rw [readJob] at h ⊢
  split
  · rename_i he
    rw [he] at h
    simp [validTerminalQuarantinePayload, zeroPayload] at h
  · rename_i hp
    exact hp

theorem dispatchJob_safe (worker : Worker) (hI : Sound host s) (hd : Delivered d s) :
    Safe (deliveryProtocol host) (fun r s => Delivered d s ∧ (r = none →
        decodePayload d.job.payload = .ok (readJob d.job).1 ∧
        Handled (worker.request d) (readJob d.job).1 s))
      (dispatchJob (worker.request d) (readJob d.job) : CProg host _) s := by
  rw [dispatchJob]
  cases hread : (readJob d.job).2 with
  | some => exact Safe.ret (stable_delivered d) hI hd fun _ _ hd => ⟨hd, by simp⟩
  | none =>
    refine safe_plain rfl (stable_delivered d) hI hd fun r s hI hd => ?_
    cases r with
    | some => exact Safe.ret (stable_delivered d) hI hd fun _ _ hd => ⟨hd, by simp⟩
    | none =>
      refine safe_call (stable_delivered d) hI hd
        (L := fun r s => r = none → Handled (worker.request d) (readJob d.job).1 s) ?_ ?_
      · intro s r _ hI _ hexec
        refine ⟨plain_moves hI rfl hexec, fun hnil => ?_⟩
        subst hnil
        rcases hexec with hqueue | hstore | ⟨_, -, rfl⟩ | ⟨e, hrefusal, -⟩
        · exact absurd hqueue id
        · exact absurd hstore id
        · exact ⟨_, List.mem_cons_self, rfl⟩
        · simp [refusal] at hrefusal
      · intro r s hI hd hhandled
        refine Safe.ret ((stable_delivered d).and ((stable_handled _ _).imp)) hI
          ⟨hd, hhandled⟩ fun _ _ h => ⟨h.1, fun hnil => ⟨readJob_payload hread, h.2 hnil⟩⟩

/-- The answer of the quarantine, together with the state it found. -/
lemma quarantine_answers (hI : Sound host s) {request : LeaseRequest} {cause : Failure}
    (hexec : (continuationObject host).Exec s (.quarantine request p cause) none s') :
    FenceStands request p s' := by
  rcases hexec with hqueue | hstore | ⟨_, -, rfl⟩ | ⟨e, hrefusal, -⟩
  · exact absurd hqueue id
  · exact absurd hstore id
  · refine ⟨_, List.mem_cons_self, ⟨cause, rfl⟩, fun _ hholder => ?_⟩
    obtain ⟨found, hfound, hheld⟩ := Option.bind_eq_some_iff.mp hholder
    exact ⟨found, hfound, hI.keyed _ found hfound, hheld⟩
  · simp [refusal] at hrefusal

theorem fence_safe (hI : Sound host s) (hd : Delivered d s) (cause : Failure) :
    Safe (deliveryProtocol host) (fun out s => Delivered d s ∧ (out.1 = true →
        decodePayload d.job.payload = .ok (readJob d.job).1 ∧
        FenceStands (worker.request d) (readJob d.job).1 s))
      (fence worker (worker.request d) d.job (readJob d.job).1 cause : CProg host _) s := by
  rw [fence]
  split
  · split
    · exact Safe.ret (stable_delivered d) hI hd fun _ _ hd => ⟨hd, by simp⟩
    rename_i hvalid
    have hdecode := quarantine_decoded (not_not.mp hvalid)
    split
    · exact Safe.ret (stable_delivered d) hI hd fun _ _ hd => ⟨hd, by simp⟩
    refine safe_call (stable_delivered d) hI hd
      (L := fun r s => r = none → FenceStands (worker.request d) (readJob d.job).1 s) ?_ ?_
    · intro s r _ hI _ hexec
      refine ⟨plain_moves hI rfl hexec, fun hnil => ?_⟩
      subst hnil
      exact quarantine_answers hI hexec
    intro r s hI hd hfence
    cases r with
    | some => exact Safe.ret (stable_delivered d) hI hd fun _ _ hd => ⟨hd, by simp⟩
    | none =>
      exact Safe.ret (stable_fenceStands worker d _) hI ⟨hd, hfence rfl⟩
        fun _ _ h => ⟨h.1, fun _ => ⟨hdecode, h.2⟩⟩
  · exact Safe.ret (stable_delivered d) hI hd fun _ _ hd => ⟨hd, by simp⟩

/-- A delivery ends as what is known of it allows. -/
theorem settle_quiet (hI : Sound host s) (hd : Delivered d s) {fenced : Bool} {err : Option Failure}
    (hhandled : err = none → decodePayload d.job.payload = .ok p ∧ Handled (worker.request d) p s)
    (hfence : fenced = true → decodePayload d.job.payload = .ok p ∧ FenceStands (worker.request d) p s) :
    Quiet host (settle host (worker.request d) fenced err) s := by
  have hstable : (deliveryProtocol host).Stable fun s => (Delivered d s ∧
      (err = none → Handled (worker.request d) p s)) ∧
      (fenced = true → Delivered d s ∧ FenceStands (worker.request d) p s) :=
    ((stable_delivered d).and (stable_handled _ _).imp).and (stable_fenceStands worker d p).imp
  refine safe_plain rfl hstable hI ⟨⟨hd, fun h => (hhandled h).2⟩, fun h => ⟨hd, (hfence h).2⟩⟩ ?_
  intro _ s hI hs
  refine safe_plain rfl hstable hI hs fun r s hI hs => ?_
  cases r with
  | some => exact quiet_pure _
  | none =>
    dsimp only
    split
    all_goals
      rename_i hjoin
      refine safe_call hstable hI hs (fun s r _ hI hs hexec => ⟨?_, trivial⟩)
        fun _ _ _ _ _ => quiet_pure _
    · obtain ⟨herr, -⟩ := errorsJoin_eq_none.mp hjoin
      exact ack_moves hI hs.1.1 (hhandled herr).1 (hs.1.2 herr) hexec
    · exact nack_moves hI hs.1.1 rfl (fun h => ⟨(hfence h).1, (hs.2 h).2⟩) hexec

lemma consumeDelivery_quiet (worker : Worker) (hI : Sound host s) (hd : Delivered d s) :
    Quiet host (consumeDelivery worker d) s := by
  refine Safe.bind hI (dispatchJob_safe worker hI hd) ?_
  rintro r s hI ⟨hd, hhandled⟩
  obtain _ | cause := r
  · exact settle_quiet hI hd hhandled (by simp)
  refine Safe.bind hI (fence_safe hI hd cause) ?_
  rintro ⟨_, _⟩ s hI ⟨hd, hfence⟩
  exact settle_quiet hI hd (by simp) hfence

lemma consumeDeliveries_quiet (deliveries : List Delivery) : ∀ {s : System}, Sound host s →
    (∀ d ∈ deliveries, Delivered d s) → Quiet host (consumeDeliveries worker deliveries) s := by
  induction deliveries with
  | nil => exact fun _ _ => quiet_pure _
  | cons d deliveries ih =>
    intro s hI hd
    have hstable : (deliveryProtocol host).Stable fun s => ∀ d' ∈ d :: deliveries, Delivered d' s :=
      fun _ _ hI h hmoves d' hd' => stable_delivered d' hI (h d' hd') hmoves
    refine safe_plain rfl hstable hI hd fun r s hI hd => ?_
    cases r with
    | some => exact quiet_pure _
    | none =>
      have hframe := Safe.frame hstable hI hd
        (consumeDelivery_quiet worker hI (hd d List.mem_cons_self))
      refine Safe.bind hI hframe ?_
      rintro _ s hI ⟨-, hd⟩
      exact ih hI fun d' hd' => hd d' (List.mem_cons_of_mem _ hd')

lemma consumeLoop_quiet (n : ℕ) : ∀ {s : System}, Sound host s →
    Quiet host (consumeLoop worker n) s := by
  induction n with
  | zero => exact fun _ => quiet_pure _
  | succ _ ih =>
    intro s hI
    refine quiet_free rfl hI fun r s hI => ?_
    cases r with
    | some => exact quiet_pure _
    | none =>
      refine safe_call stable_nothing hI trivial (fun s r s' hI _ hexec => claim_moves hI hexec) ?_
      intro r s hI _ hdelivered
      obtain e | _ | ⟨d, _⟩ := r
      · exact quiet_pure _
      · exact quiet_pure _
      refine quiet_bind hI (consumeDeliveries_quiet _ hI (hdelivered _ rfl)) fun go s hI => ?_
      cases go with
      | true => exact ih hI
      | false => exact quiet_pure _

lemma keepDeliveryLease_quiet (delivery : LeaseRequest) (n : ℕ) : ∀ {s : System}, Sound host s →
    Quiet host (keepDeliveryLease delivery n) s := by
  induction n with
  | zero => exact fun _ => quiet_pure _
  | succ _ ih =>
    intro s hI
    refine quiet_free rfl hI fun tick s hI => ?_
    cases tick with
    | false => exact quiet_pure _
    | true =>
      refine quiet_free rfl hI fun r s hI => ?_
      cases r with
      | ok => exact ih hI
      | error =>
        refine quiet_free rfl hI fun r s hI => ?_
        cases r with
        | some | none => exact quiet_pure _

/-- Everything that goes on around the queue keeps to the agreement. -/
lemma serveContinuation_quiet (q : Request) (hI : Sound host s) :
    Quiet host (serveContinuation q) s := by
  cases q with
  | schedule payload => exact quiet_bind hI (schedule_quiet hI payload none) fun _ _ _ => quiet_pure _
  | project scheduler => exact quiet_bind hI (project_quiet hI scheduler) fun _ _ _ => quiet_pure _
  | reconcile scheduler st =>
    exact quiet_bind hI (reconcile_quiet hI scheduler st) fun _ _ _ => quiet_pure _
  | consume => exact consumeLoop_quiet _ hI
  | keepDeliveryLease delivery renewals =>
    exact quiet_bind hI (keepDeliveryLease_quiet delivery renewals hI) fun _ _ _ => quiet_pure _
  | reap | requeueDeadLetter => exact quiet_free rfl hI fun _ _ _ => quiet_pure _
  | kernel | relate => exact quiet_perform rfl hI

/-! ### All interleavings -/

/-- **No protected Job is dead-lettered without a fence.**  Take any step of any run
in which no lease identifier was granted twice for one Job.  A Job that becomes a dead
letter in it does so by a release of the holder of its current lease, in whose delivery
`TerminalQuarantine` returned nil for the decoded payload while that lease was current
(and, with a clock that never goes back, had not run out).  A Job that becomes completed
does so by the holder of its current lease, in whose delivery `Dispatch` returned nil for
the payload.  A Job whose payload cannot be decoded is neither. -/
theorem dead_letters_are_fenced (host : Host) (c c' : Config (continuationObject host) Request Unit)
    (hreach : Reachable serveContinuation {} c) (hstep : Step serveContinuation c c')
    (hunique : c'.shared.granted.Nodup) (j : GoString) (job' : Job)
    (hjob' : c'.shared.jobs.lookup j = some job') :
    (job'.status = .deadLetter → c.shared.jobs.lookup j = some job' ∨
      ∃ job request now p, Accepted c.shared j request.toLeaseRequest job now ∧
        c'.shared.log = ⟨.nacked request, some job, now⟩ :: c.shared.log ∧
        decodePayload job.payload = .ok p ∧
        ∃ e ∈ c.shared.log, FencedBy host request.toLeaseRequest p e) ∧
    (job'.status = .completed → c.shared.jobs.lookup j = some job' ∨
      ∃ job request now p, Accepted c.shared j request job now ∧
        c'.shared.log = ⟨.acked request, some job, now⟩ :: c.shared.log ∧
        decodePayload job.payload = .ok p ∧
        ∃ e ∈ c.shared.log, e.event = .dispatched request p none) ∧
    ((∀ p, decodePayload job'.payload ≠ .ok p) →
      job'.status ≠ .deadLetter ∧ job'.status ≠ .completed) := by
  have hcode : ∀ q s, Sound host s → Safe (deliveryProtocol host) (fun _ _ => True)
      (serveContinuation q : CProg host Unit) s := fun q s hI => serveContinuation_quiet q hI
  have hsafe : SafeConfig (deliveryProtocol host) (fun _ _ _ _ => True) c :=
    (reachable_safe hcode (sound_empty host) hreach).2
  obtain ⟨-, hsafe'⟩ := hsafe.step hcode hstep
  have hends : job'.terminal = true → c.shared.jobs.lookup j = some job' ∨
      (job'.status = .completed ∧ Completes c.shared c'.shared j) ∨
      (job'.status = .deadLetter ∧ DeadLetters host c.shared c'.shared j) := by
    rcases hsafe.guar hstep with heq | hmoves
    · rw [heq] at hjob'
      exact fun _ => .inl hjob'
    · exact hmoves.ends j job' hjob'
  refine ⟨fun hdead => ?_, fun hcompleted => ?_, fun hundecodable => ?_⟩
  · rcases hends (by rw [Job.terminal, hdead]; rfl) with hsame | ⟨hcompleted, -⟩ |
        ⟨-, job, request, now, p, haccept, hlog, hp, hfence⟩
    · exact .inl hsame
    · rw [hdead] at hcompleted
      simp at hcompleted
    · exact .inr ⟨job, request, now, p, haccept, hlog, hp, hfence hunique⟩
  · rcases hends (by rw [Job.terminal, hcompleted]; rfl) with hsame | ⟨-, hcompletes⟩ | ⟨hdead, -⟩
    · exact .inl hsame
    · exact .inr hcompletes
    · rw [hcompleted] at hdead
      simp at hdead
  have hnot : job'.terminal ≠ true := by
    intro hterminal
    obtain ⟨p, hp⟩ := Sound.decoded hsafe'.inv j job' hjob' hterminal
    exact hundecodable p hp
  constructor
  · intro hdead
    exact hnot (by rw [Job.terminal, hdead]; rfl)
  · intro hcompleted
    exact hnot (by rw [Job.terminal, hcompleted]; rfl)

/-! ### A dead letter -/

/-- Time passes between two claims, every dispatch fails and the quarantine succeeds;
what the Worker does not call is refused. -/
def sampleAnswer (s : System) : (op : Op) → op.Res × System
  | .contextErr | .awaitLane _ | .awaitRenewal => (none, s)
  | .schedulerNow => (0, s)
  | .queueNow => (s.clock + 1, s.tick (s.clock + 1) s.jobs)
  | .kernel | .relate _ => ((), s)
  | .awaitTicker => (false, s)
  | .enqueue p job => ((Queue.enqueue s.jobs job).1.mapError queueFailure,
      { s.note (.enqueued p (Queue.enqueue s.jobs job).1) job.id with
        jobs := (Queue.enqueue s.jobs job).2 })
  | .claim request =>
    let now := s.clock + 31 * Queue.second
    let out := Queue.claim sampleHost.sha256 s.jobs now request
    (out.1.mapError queueFailure, { s.tick now out.2 with granted := grants out.1 ++ s.granted })
  | .nack request =>
    let now := s.clock + 1
    let out := Queue.nack s.jobs now request
    (out.1.mapError queueFailure, { s.tick now out.2 with
      log := ⟨.nacked request, s.jobs.lookup request.trimmed.jobID, now⟩ :: s.log })
  | .dispatch delivery payload => (some [.other (lit "failed")],
      (s.tick (s.clock + 1) s.jobs).note
        (.dispatched delivery payload (some [.other (lit "failed")])) delivery.jobID)
  | .quarantine delivery payload cause => (none,
      (s.tick (s.clock + 1) s.jobs).note (.quarantined delivery payload cause none) delivery.jobID)
  | .load _ | .claimTransitions _ | .relationByChild _ | .listRelations | .reconcilePage ..
  | .reconcileGuard .. | .renew _ | .ack _ | .reap _ | .requeueDeadLetter _ =>
    (.error [], s.note .refused [])
  | .ackTransition _ | .retryTransition _ | .markObserved .. | .markEnqueued .. =>
    (some [], s.note .refused [])

lemma sampleAnswer_exec (s : System) (op : Op) :
    (continuationObject sampleHost).Exec s op (sampleAnswer s op).1 (sampleAnswer s op).2 := by
  have htick : ∀ n : ℤ, 0 ≤ n → sampleHost.Tick s.clock (s.clock + n) := fun n hn =>
    le_add_of_nonneg_right hn
  cases op with
  | awaitRenewal | schedulerNow | awaitTicker => exact .inr (.inr (.inl rfl))
  | contextErr | awaitLane => exact .inr (.inr (.inl ⟨rfl, rfl⟩))
  | kernel => exact .inr (.inr (.inl ⟨s.world, .inl rfl, fun _ h => h, rfl⟩))
  | relate => exact .inr (.inr (.inl (.inl rfl)))
  | queueNow => exact .inr (.inr (.inl ⟨htick 1 (by decide), rfl⟩))
  | dispatch | quarantine => exact .inr (.inr (.inl ⟨_, htick 1 (by decide), rfl⟩))
  | enqueue => exact .inl ⟨rfl, rfl⟩
  | claim | nack => exact .inl ⟨_, _, ⟨htick _ (by decide), rfl, rfl⟩, rfl⟩
  | _ => exact .inr (.inr (.inr ⟨[], rfl, by simp, by simp, rfl⟩))

/-- The system after the request `q` was served alone. -/
def sampleServe (c : Config (continuationObject sampleHost) Request Unit) (q : Request) :
    Config (continuationObject sampleHost) Request Unit :=
  let served := Prog.run (O := continuationObject sampleHost) sampleAnswer (serveContinuation q) c.shared
  ⟨served.2, ⟨q, c.shared, .ret served.1⟩ :: c.threads⟩

def sampleWorker : Request := .consume ⟨lit "w", 1, true⟩

def samplePayload : Payload := ⟨1, lit "r", 1, .runReady, lit "r", 1, 0⟩

/-- The Job of the sample payload. -/
def sampleJob : GoString :=
  Queue.stableID sampleHost.sha256 (lit "job") [queueName, clientJobID samplePayload]

/-- The Job has been scheduled and eleven of its deliveries have failed. -/
def sampleFailing : Config (continuationObject sampleHost) Request Unit :=
  (.schedule samplePayload :: List.replicate 11 sampleWorker).foldl sampleServe ⟨{}, []⟩

/-- The system after a Worker made its first `n` calls. -/
def sampleAdvance (c : Config (continuationObject sampleHost) Request Unit) (n : ℕ) :
    Config (continuationObject sampleHost) Request Unit :=
  let out := Prog.advance (O := continuationObject sampleHost) sampleAnswer n
    (serveContinuation sampleWorker) c.shared
  ⟨out.2, ⟨sampleWorker, c.shared, out.1⟩ :: c.threads⟩

lemma sampleFailing_reachable : Reachable serveContinuation {} sampleFailing := by
  have hserve : ∀ (qs : List Request) c, Reachable serveContinuation {} c →
      Reachable serveContinuation {} (qs.foldl sampleServe c) := by
    intro qs
    induction qs with
    | nil => exact fun _ h => h
    | cons q _ ih =>
      intro c h
      exact ih _ (h.trans (steps_run sampleAnswer_exec c.shared c.threads q))
  exact hserve _ _ .refl

lemma sampleAdvance_reachable {c : Config (continuationObject sampleHost) Request Unit}
    (hc : Reachable serveContinuation {} c) (n : ℕ) :
    Reachable serveContinuation {} (sampleAdvance c n) :=
  (hc.tail (.spawn _ _ sampleWorker)).trans (steps_advance sampleAnswer_exec _ _ _ n _ _)

lemma sampleAdvance_step (c : Config (continuationObject sampleHost) Request Unit) (n : ℕ)
    (hcall : (Prog.advance (O := continuationObject sampleHost) sampleAnswer n
      (serveContinuation sampleWorker) c.shared).1.isCall = true) :
    Step serveContinuation (sampleAdvance c n) (sampleAdvance c (n + 1)) :=
  step_advance sampleAnswer_exec _ _ _ n _ _ hcall

/-- The ninth call of the twelfth delivery releases the Job for good, behind a fence. -/
theorem dead_letters_are_fenced_twelfth :
    ∃ job', (sampleAdvance sampleFailing 9).shared.jobs.lookup sampleJob = some job' ∧
      job'.status = .deadLetter ∧ ∃ request p,
      ∃ e ∈ (sampleAdvance sampleFailing 8).shared.log, FencedBy sampleHost request p e := by
  obtain ⟨job', hjob', hdead, hnew⟩ :
      ∃ job', (sampleAdvance sampleFailing 9).shared.jobs.lookup sampleJob = some job' ∧
        job'.status = .deadLetter ∧
        (sampleAdvance sampleFailing 8).shared.jobs.lookup sampleJob ≠ some job' := by
    refine ⟨((sampleAdvance sampleFailing 9).shared.jobs.lookup sampleJob).get ?_, ?_, ?_, ?_⟩
    all_goals decide +kernel
  have hstep : Step serveContinuation (sampleAdvance sampleFailing 8)
      (sampleAdvance sampleFailing 9) := sampleAdvance_step sampleFailing 8 (by decide +kernel)
  obtain ⟨hletter, -⟩ := dead_letters_are_fenced sampleHost (sampleAdvance sampleFailing 8)
    (sampleAdvance sampleFailing 9) (sampleAdvance_reachable sampleFailing_reachable 8) hstep
    (by decide +kernel) sampleJob job' hjob'
  rcases hletter hdead with hsame | ⟨_, request, _, p, -, -, -, e, he, hfenced⟩
  · exact absurd hsame hnew
  · exact ⟨job', hjob', hdead, request.toLeaseRequest, p, e, he, hfenced⟩

end Scheduling
