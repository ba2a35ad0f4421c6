/-
Identified commits: at most once, with exact evidence.

`Evidenced` lists the proofs that the commits of a Run carry; no two are for the
same operation, because a proof is committed only if none was found at the very
revision it is committed at (`evidenceDiscipline`).  The journal then says the same
about an operation as the commits do, provided every identifier is read back as it
was written, that is, is valid UTF-8.

* **`identified_apply`** — the guarantees, if all identifiers are valid UTF-8.
-/
import AgentRuntime.EvidenceJournal

namespace Kernel

open GoString Memory Interleaving List

variable {H : Hashing} {D : Discipline H} {w : World} {runID operationID hash : GoString}
  {rev : UInt64} {l : List Commit} {m base : Mutation} {p : IdentifiedApplyProof}
  {drafts : List EventDraft}

/-! ### What the commits of a Run carry -/

/-- The proof `p` was made by `ApplyIdentified` for the mutation `base`. -/
structure Identifies (H : Hashing) (base : Mutation) (p : IdentifiedApplyProof) : Prop where
  valid : validApplyOperation p.operationID p.sourceRevision = true
  utf8 : validUTF8 p.operationID = true
  digest : digestApplyMutation H base = .ok p.mutationDigest

/-- The commit carries the operation that `p` identifies. -/
def Carries (k : Commit) (p : IdentifiedApplyProof) : Prop := evidenceDraft p ∈ k.events

/-- `ps` are the proofs carried by the commits `l` of the Run `id`, newest first;
no two of them are for the same operation. -/
inductive Evidenced (H : Hashing) (id : GoString) : List Commit → List IdentifiedApplyProof → Prop
  | nil : Evidenced H id [] []
  | plain {k : Commit} {l : List Commit} {ps : List IdentifiedApplyProof} (h : Evidenced H id l ps)
      (hevents : hasReservedApplyEvidence k.events = false) : Evidenced H id (k :: l) ps
  | proof {k : Commit} {l : List Commit} {ps : List IdentifiedApplyProof} {base : Mutation}
      {p : IdentifiedApplyProof} (h : Evidenced H id l ps)
      (hevents : k.events = base.events ++ [evidenceDraft p])
      (hbase : hasReservedApplyEvidence base.events = false) (hp : Identifies H base p)
      (hid : id ≠ []) (hrev : k.snapshot.run.revision = p.sourceRevision + 1)
      (hfresh : ∀ q ∈ ps, q.operationID ≠ p.operationID) : Evidenced H id (k :: l) (p :: ps)

lemma digestApplyMutation_ok (h : digestApplyMutation H m = .ok hash) :
    hasReservedApplyEvidence m.events = false ∧
    ∃ text, H.marshalMutation m (m.events.map EventDraft.wakeup) = some text ∧
      hash = hexEncode (H.sha256 text) := by
  rw [digestApplyMutation] at h
  split at h
  · simp at h
  rename_i hreserved
  split at h
  · simp at h
  · rename_i text htext
    exact ⟨by simpa using hreserved, text, htext, (Except.ok.inj h).symm⟩

lemma Identifies.readBack (h : Identifies H base p) : p.readBack = p := by
  obtain ⟨-, _, -, hdigest⟩ := digestApplyMutation_ok h.digest
  have hgraphic : validUTF8 p.mutationDigest = true := by
    rw [hdigest]
    exact validUTF8_of_graphic fun b hb => hexEncode_graphic hb
  rw [IdentifiedApplyProof.readBack, toValidUTF8_of_valid h.utf8, toValidUTF8_of_valid hgraphic]

/-- What the scan makes of such a proof. -/
lemma Identifies.reading (h : Identifies H base p) :
    readApplyProof (encodeApplyProof p) operationID rev hash =
      if p.operationID = operationID then
        if p.sourceRevision = rev ∧ p.mutationDigest = hash then .hit else .clash
      else .foreign := by
  obtain ⟨-, _, -, hdigest⟩ := digestApplyMutation_ok h.digest
  have hlen : p.mutationDigest.length = 64 := by
    rw [hdigest, length_hexEncode, H.sha256_length]
  have hne : encodeApplyProof p ≠ [] := by simp [encodeApplyProof, GoJson.render]
  rw [readApplyProof, decode_encode, h.readBack]
  dsimp only
  rw [if_neg (by simp only [not_or, not_not]; exact ⟨hne, h.valid, hlen⟩)]
  by_cases hop : p.operationID = operationID
  · by_cases hsame : p.sourceRevision = rev ∧ p.mutationDigest = hash
    · simp [hop, hsame.1, hsame.2]
    · rw [if_neg (not_not.mpr hop), if_pos (not_and_or.mp hsame), if_pos hop, if_neg hsame]
  · rw [if_pos hop, if_neg hop]

/-- The scan of a commit that ends with such a proof. -/
lemma Identifies.scan (h : Identifies H base p)
    {plain : List Event} (hplain : ∀ e ∈ plain, e.type ≠ identifiedApplyEventType) {e : Event}
    (htype : e.type = identifiedApplyEventType) (hdata : e.data = encodeApplyProof p)
    (matched : Bool) : scanAll operationID rev hash (plain ++ [e]) matched =
      if p.operationID = operationID then
        if p.sourceRevision = rev ∧ p.mutationDigest = hash ∧ matched = false then .ok true
        else .error .conflict
      else .ok matched := by
  rw [scanAll_append, scanAll_plain hplain]
  show scanAll operationID rev hash [e] matched = _
  rw [scanAll, if_neg (by simp [htype]), hdata, h.reading]
  by_cases hop : p.operationID = operationID
  · rw [if_pos hop, if_pos hop]
    by_cases hsame : p.sourceRevision = rev ∧ p.mutationDigest = hash
    · obtain ⟨hrev, hdigest⟩ := hsame
      cases matched <;> simp [hrev, hdigest, scanAll]
    have hnot : ¬ (p.sourceRevision = rev ∧ p.mutationDigest = hash ∧ matched = false) :=
      fun hall => hsame ⟨hall.1, hall.2.1⟩
    rw [if_neg hsame, if_neg hnot]
  · rw [if_neg hop, if_neg hop]
    rfl

/-- The events of a commit without reserved drafts. -/
lemma plain_events {new : List Event}
    (hmap : new.map (fun e => (e.type, e.data)) = drafts.map (fun d => (d.type, d.data)))
    (hplain : hasReservedApplyEvidence drafts = false) :
    ∀ e ∈ new, e.type ≠ identifiedApplyEventType := by
  intro e he heq
  have hmem : (e.type, e.data) ∈ drafts.map fun d => (d.type, d.data) := by
    rw [← hmap]
    exact mem_map_of_mem he
  obtain ⟨d, hd, hde⟩ := mem_map.mp hmem
  have htype : d.type = identifiedApplyEventType := (congrArg Prod.fst hde).trans heq
  rw [hasReservedApplyEvidence, any_eq_false] at hplain
  exact hplain d hd (by simp [htype])

lemma not_mem_plain (h : hasReservedApplyEvidence drafts = false)
    (p : IdentifiedApplyProof) : evidenceDraft p ∉ drafts := by
  intro hmem
  rw [hasReservedApplyEvidence, any_eq_false] at h
  exact h _ hmem (by simp [evidenceDraft])

/-- The same text is read back as the same proof. -/
lemma Identifies.readBack_of_carries {p0 : IdentifiedApplyProof} {k : Commit}
    (h : Identifies H base p0) (hevents : k.events = base.events ++ [evidenceDraft p0])
    (hbase : hasReservedApplyEvidence base.events = false) (hcarries : Carries k p) :
    p.readBack = p0 := by
  rw [Carries, hevents, mem_append, mem_singleton] at hcarries
  have hdata : encodeApplyProof p = encodeApplyProof p0 :=
    congrArg EventDraft.data (hcarries.resolve_left (not_mem_plain hbase p))
  have hdecode := decode_encode p
  rw [hdata, decode_encode, h.readBack] at hdecode
  exact (Option.some.inj hdecode).symm

namespace Evidenced

variable {id : GoString} {ps : List IdentifiedApplyProof} {k : Commit} (h : Evidenced H id l ps)

include h

/-- The scan finds the one proof of the operation, if there is one. -/
theorem scanAll_eq :
    scanAll operationID rev hash (journalOf l) false =
      match ps.find? fun p => p.operationID = operationID with
      | none => .ok false
      | some p =>
        if p.sourceRevision = rev ∧ p.mutationDigest = hash then .ok true else .error .conflict := by
  induction h with
  | nil => rfl
  | @plain k l _ _ hevents ih =>
    obtain ⟨new, hnew, hmap, -⟩ := appendEvents_spec (journalOf l) k.events k.snapshot.run.updatedAt
    rw [journalOf, hnew, scanAll_append, ih]
    -- whatever was found before, the new events do not change it
    have hpass : ∀ r : Except KernelError Bool, r.bind (scanAll operationID rev hash new) = r := by
      rintro (e | matched)
      · rfl
      · exact scanAll_plain (plain_events hmap hevents) matched
    exact hpass _
  | @proof k l ps _ p _ hevents hbase hp _ _ hfresh ih =>
    obtain ⟨_, hnew, hmap, -⟩ := appendEvents_spec (journalOf l) k.events k.snapshot.run.updatedAt
    rw [hevents, map_append] at hmap
    obtain ⟨plain, _, rfl, hplain, hlast⟩ := map_eq_append_iff.mp hmap
    obtain ⟨e, rfl, he⟩ := map_eq_singleton_iff.mp hlast
    have htype : e.type = identifiedApplyEventType := congrArg Prod.fst he
    have hdata : e.data = encodeApplyProof p := congrArg Prod.snd he
    have hlastscan : ∀ matched, scanAll operationID rev hash (plain ++ [e]) matched = _ :=
      hp.scan (plain_events hplain hbase) htype hdata
    rw [journalOf, hnew, scanAll_append, ih]
    by_cases hop : p.operationID = operationID
    · -- the operation is the newest, so no older proof is for it
      have hnone : ps.find? (fun p => p.operationID = operationID) = none := by
        rw [find?_eq_none]
        intro q hq
        simpa [← hop] using hfresh q hq
      rw [hnone, find?_cons_of_pos (by simp [hop])]
      show scanAll operationID rev hash (plain ++ [e]) false = _
      rw [hlastscan, if_pos hop]
      simp
    · rw [find?_cons_of_neg (by simp [hop])]
      have hpass : ∀ r : Except KernelError Bool,
          r.bind (scanAll operationID rev hash (plain ++ [e])) = r := by
        rintro (_ | matched)
        · rfl
        · show scanAll operationID rev hash (plain ++ [e]) matched = _
          rw [hlastscan, if_neg hop]
      exact hpass _

lemma suffix {l' : List Commit} (hl : l' <:+ l) : ∃ ps', Evidenced H id l' ps' := by
  refine Interleaving.of_suffix (P := fun l => ∃ ps', Evidenced H id l ps') ?_ ⟨ps, h⟩ hl
  rintro _ _ ⟨_, h⟩
  cases h with
  | plain h | proof h => exact ⟨_, h⟩

/-- A proof of the list is carried by a commit, and belongs to a mutation. -/
lemma of_mem (hp : p ∈ ps) : (∃ k ∈ l, Carries k p) ∧ ∃ base, Identifies H base p := by
  induction h with
  | nil => simp at hp
  | plain _ _ ih =>
    obtain ⟨⟨k, hk, hcarries⟩, hbase⟩ := ih hp
    exact ⟨⟨k, mem_cons_of_mem _ hk, hcarries⟩, hbase⟩
  | proof _ hevents _ hident _ _ _ ih =>
    rcases mem_cons.mp hp with rfl | hp
    · refine ⟨⟨_, mem_cons_self, ?_⟩, _, hident⟩
      rw [Carries, hevents]
      simp
    · obtain ⟨⟨k, hk, hcarries⟩, hbase⟩ := ih hp
      exact ⟨⟨k, mem_cons_of_mem _ hk, hcarries⟩, hbase⟩

/-- What a commit carries is what is read back from it. -/
lemma of_carries (hk : k ∈ l) (hcarries : Carries k p) :
    p.readBack ∈ ps ∧ id ≠ [] ∧ k.snapshot.run.revision = p.sourceRevision + 1 := by
  induction h with
  | nil => simp at hk
  | plain _ hevents ih =>
    rcases mem_cons.mp hk with rfl | hk
    · exact absurd hcarries (not_mem_plain hevents p)
    · exact ih hk
  | proof _ hevents hbase hident hid hrev _ ih =>
    rcases mem_cons.mp hk with rfl | hk
    · have hback := hident.readBack_of_carries hevents hbase hcarries
      refine ⟨by rw [hback]; exact mem_cons_self, hid, ?_⟩
      rw [hrev, ← hback]
      rfl
    · obtain ⟨hmem, hrest⟩ := ih hk
      exact ⟨mem_cons_of_mem _ hmem, hrest⟩

lemma pairwise :
    l.Pairwise fun k k' => ∀ p p', Carries k p → Carries k' p' → p.operationID ≠ p'.operationID := by
  induction h with
  | nil => exact List.Pairwise.nil
  | plain _ hevents ih =>
    refine pairwise_cons.mpr ⟨fun k' _ p p' hcarries => ?_, ih⟩
    exact absurd hcarries (not_mem_plain hevents p)
  | proof h hevents hbase hident _ _ hfresh ih =>
    refine pairwise_cons.mpr ⟨fun k' hk' p p' hcarries hcarries' heq => ?_, ih⟩
    have hback := hident.readBack_of_carries hevents hbase hcarries
    obtain ⟨hmem, -, -⟩ := h.of_carries hk' hcarries'
    refine hfresh _ hmem ?_
    rw [← hback]
    exact congrArg toValidUTF8 heq.symm

/-- The proof the scan finds is the only one of its operation. -/
lemma find?_eq (hp : p ∈ ps) : ps.find? (fun q => q.operationID = p.operationID) = some p := by
  induction h with
  | nil => simp at hp
  | plain _ _ ih => exact ih hp
  | proof _ _ _ _ _ _ hfresh ih =>
    rcases mem_cons.mp hp with rfl | hp
    · exact find?_cons_of_pos (by simp)
    · rw [find?_cons_of_neg (by simpa using (hfresh p hp).symm)]
      exact ih hp

/-- No proof of the list is for an operation that no commit carries. -/
lemma not_carried (hutf8 : validUTF8 operationID = true)
    (hnone : ∀ q ∈ ps, q.operationID ≠ operationID) (hk : k ∈ l)
    (hcarries : Carries k p) : p.operationID ≠ operationID := by
  intro heq
  obtain ⟨hmem, -, -⟩ := h.of_carries hk hcarries
  refine hnone _ hmem ?_
  show toValidUTF8 p.operationID = operationID
  rw [heq, toValidUTF8_of_valid hutf8]

end Evidenced

/-! ### The discipline of identified commits -/

/-- A mutation carries no proof, or exactly one: for the current revision, and for
an operation that no commit of the Run carries. -/
def EvidencePermits (H : Hashing) (w : World) (id : GoString) (m : Mutation) : Prop :=
  hasReservedApplyEvidence m.events = false ∨
  ∃ base p, m = identifiedMutation base p ∧ hasReservedApplyEvidence base.events = false ∧
    Identifies H base p ∧ id ≠ [] ∧
    (∀ cur, w.store.records id = some cur → cur.run.revision = p.sourceRevision) ∧
    ∀ k ∈ w.commitsOf id, ∀ q, Carries k q → q.readBack.operationID ≠ p.operationID

/-- The proofs of every Run are exact. -/
def EvidenceHolds (H : Hashing) (w : World) : Prop :=
  ∀ id, ∃ ps, Evidenced H id (w.commitsOf id) ps

variable {E : World → GoString → Mutation → Prop} {env : Env} {op : StoreOp} {res : op.Res}
  {s' : Store} {c : Commit} {id : GoString} {older : List Commit}

/-- Where the events of a guarded commit come from. -/
lemma commit_permitted (hg : Guarded E w op) (hs : StoreStep H env w.store op res s')
    (hc : commitOf op res = some c) : hasReservedApplyEvidence c.events = false ∨
    ∃ cur m, w.store.records c.runID = some cur ∧ E w c.runID m ∧ c.events = m.events ∧
      c.snapshot.run.revision = cur.run.revision + 1 := by
  cases hs with
  | create =>
    cases hc
    exact .inl hg.2.1
  | apply _ _ _ cur _ hrec hrev =>
    cases hc
    obtain ⟨_, mutation, -, rfl, hE⟩ := hg.2 cur hrec hrev
    exact .inr ⟨cur, mutation, hrec, hE, rfl, rfl⟩
  | applyExecution _ _ _ cur _ _ _ _ _ _ hrec _ hrev
  | applyControl _ _ _ _ cur _ hrec hrev =>
    cases hc
    obtain ⟨_, mutation, -, rfl, hE⟩ := hg cur hrec hrev
    exact .inr ⟨cur, mutation, hrec, hE, rfl, rfl⟩
  | _ => simp [commitOf] at hc

lemma evidenceHolds_step (h : EvidenceHolds H w) (hg : Guarded (EvidencePermits H) w op)
    (hs : StoreStep H env w.store op res s') : EvidenceHolds H ⟨s', ⟨op, res⟩ :: w.log⟩ := by
  intro id
  obtain ⟨ps, hps⟩ := h id
  rcases commit_or_same op res id with ⟨c, hc, rfl⟩ | hsame
  · rw [World.commitsOf_of_commit hc]
    have hplain : hasReservedApplyEvidence c.events = false →
        ∃ ps, Evidenced H c.runID (c :: w.commitsOf c.runID) ps := fun hp => ⟨ps, hps.plain hp⟩
    rcases commit_permitted hg hs hc with hevents | ⟨cur, m, hrec, hpermits, hevents, hrev⟩
    · exact hplain hevents
    rcases hpermits with hnone | ⟨_, p, rfl, hbase, hident, hid, hcur, hfresh⟩
    · exact hplain (hevents ▸ hnone)
    refine ⟨p :: ps, hps.proof hevents hbase hident hid (by rw [hrev, hcur cur hrec]) ?_⟩
    intro q hq
    obtain ⟨⟨k, hk, hcarries⟩, _, hident'⟩ := hps.of_mem hq
    have := hfresh k hk q hcarries
    rwa [hident'.readBack] at this
  · rw [World.commitsOf_of_ne hsame]
    exact ⟨ps, hps⟩

/-- Identified commits are unique, and their evidence is exact. -/
def evidenceDiscipline (H : Hashing) : Discipline H where
  Permits := EvidencePermits H
  plain _ _ _ h := .inl h
  Holds := EvidenceHolds H
  holds_step _ h hg hs := evidenceHolds_step h hg hs

/-- A Run that is still at its revision has had no further commits. -/
lemma Since.eq_of_revision {cur : Snapshot}
    (h : Since id (c :: older) w) (hw : Coherent w) (hcur : w.store.records id = some cur)
    (hrev : cur.run.revision = c.snapshot.run.revision) : w.commitsOf id = c :: older := by
  obtain ⟨newer, hnewer⟩ := h
  obtain _ | ⟨d, _⟩ := newer
  · exact hnewer.symm
  obtain ⟨p, l, hl, rfl⟩ := hw.newest hcur
  rw [hl] at hnewer
  obtain ⟨rfl, hrest⟩ := cons.inj hnewer
  -- the newest commit would have the revision of an older one
  have hnodup := (hw.story id).descending.nodup
  rw [hl, map_cons, nodup_cons, ← hrest] at hnodup
  exact absurd (hrev ▸ mem_map_of_mem (by simp)) hnodup.1

lemma evidenceAt_retryable {ev : ApplyEvidence}
    (h : evidenceAt (c :: older) operationID rev hash = .ok ev) (hstatus : ev.status = .retryableCAS) :
    c.snapshot.run.revision = rev ∧
      scanAll operationID rev hash (journalOf (c :: older)) false = .ok false := by
  rw [evidenceAt] at h
  split at h
  · simp at h
  split at h
  · simp at h
  · split at h
    · simp at h
    · cases h
      simp at hstatus
  rename_i hscan
  split at h
  · simp at h
  · rename_i hrev
    exact ⟨not_not.mp hrev, hscan⟩

/-- If the scan finds nothing, there is nothing. -/
lemma Evidenced.find?_none {ps : List IdentifiedApplyProof}
    (h : Evidenced H id l ps) (hscan : scanAll operationID rev hash (journalOf l) false = .ok false) :
    ∀ q ∈ ps, q.operationID ≠ operationID := by
  rw [h.scanAll_eq] at hscan
  split at hscan
  · rename_i hnone
    intro q hq
    simpa using find?_eq_none.mp hnone q hq
  · split at hscan <;> exact absurd hscan (by simp)

/-- **An identified commit** answers as verification does, and otherwise commits by
the rules. -/
theorem applyIdentified_safe {handle : Handle}
    (hsub : Submitted H runID rev operationID m hash) (hutf8 : validUTF8 operationID = true)
    {l0 : List Commit} (hI : (evidenceDiscipline H).protocol.Inv w)
    (hw : Since (trimSpace runID) l0 w) :
    Safe (evidenceDiscipline H).protocol (fun r w => ∃ l, l0 <:+ l ∧ Since (trimSpace runID) l w ∧
        match evidenceAt l operationID rev hash with
        | .error e => r = .error e
        | .ok ev => ev.status = .committed → r = .error .applyAlreadyCommitted)
      (applyIdentified handle runID rev operationID m : KProg H _) w := by
  rw [applyIdentified, if_neg hsub.input, hsub.digest]
  refine Safe.bind hI (verifyIdentifiedApply_safe hsub hI hw) ?_
  rintro r w1 hI1 ⟨l, hl0, hl, rfl⟩
  have hstable := stable_since (evidenceDiscipline H) (trimSpace runID) l
  rcases hev : evidenceAt l operationID rev hash with e | ev
  · refine Safe.ret hstable hI1 hl fun w _ hw => ⟨l, hl0, hw, ?_⟩
    rw [hev]
  obtain ⟨status, _, _⟩ := ev
  cases status with
  | committed =>
    refine Safe.ret hstable hI1 hl fun w _ hw => ⟨l, hl0, hw, ?_⟩
    rw [hev]
    exact fun _ => rfl
  | retryableCAS =>
    have hquiet : Quiet (evidenceDiscipline H) (applyMutation handle runID rev
        (identifiedMutation m ⟨operationID, rev, hash⟩) true) w1 := by
      refine applyMutation_quiet hstable hI1 hl fun _ w cur hI hw hcur hrev => ?_
      obtain _ | ⟨c, _⟩ := l
      · simp [evidenceAt] at hev
      obtain ⟨hc, hscan⟩ := evidenceAt_retryable hev rfl
      have hsame := hw.eq_of_revision hI.1 hcur (hrev.trans hc.symm)
      obtain ⟨_, hps⟩ := hI.2 (trimSpace runID)
      rw [hsame] at hps
      have hnone := hps.find?_none hscan
      refine .inr ⟨m, ⟨operationID, rev, hash⟩, rfl, (digestApplyMutation_ok hsub.digest).1,
        ⟨hsub.valid, hutf8, hsub.digest⟩, hsub.runID_ne, ?_, ?_⟩
      · intro _ hcur'
        cases hcur.symm.trans hcur'
        exact hrev
      intro k hk q hcarries
      rw [hsame] at hk
      exact hnone _ (hps.of_carries hk hcarries).1
    refine (Safe.frame hstable hI1 hl hquiet).mono fun r w _ hr => ⟨l, hl0, hr.2, ?_⟩
    rw [hev]
    exact fun h => absurd h (by simp)

/-! ### Runs in which all identifiers are valid UTF-8 -/

/-- The operation identifiers of the call are valid UTF-8. -/
def Request.Utf8 : Request → Prop
  | .applyIdentified _ _ _ operationID _ => validUTF8 operationID = true
  | .verifyIdentifiedApply _ _ operationID _ => validUTF8 operationID = true
  | _ => True

def serveUtf8 (q : { q : Request // q.Utf8 }) : KProg H Answer := serve q.1

variable (H) in
/-- Systems whose operation identifiers are valid UTF-8. -/
abbrev Utf8System : Type := Config (kernelObject H) { q : Request // q.Utf8 } Answer

def Utf8System.Reachable (c : Utf8System H) : Prop := Interleaving.Reachable serveUtf8 {} c

/-- What is known when a call of `VerifyIdentifiedApply` has returned. -/
def VerifyPost (H : Hashing) (runID : GoString) (rev : UInt64) (operationID : GoString)
    (m : Mutation) (born : World) (a : Except KernelError ApplyEvidence) (now : World) : Prop :=
  (∃ hash, Submitted H runID rev operationID m hash ∧ ∃ l,
    born.commitsOf (trimSpace runID) <:+ l ∧ l <:+ now.commitsOf (trimSpace runID) ∧
    a = evidenceAt l operationID rev hash) ∨
  ((∀ hash, ¬ Submitted H runID rev operationID m hash) ∧
    (a = .error .invalidInput ∨ a = .error (.join .invalidInput .marshal)))

/-- What is known when a call of `ApplyIdentified` has returned. -/
def IdentifiedPost (H : Hashing) (runID : GoString) (rev : UInt64) (operationID : GoString)
    (m : Mutation) (born : World) (a : Except KernelError Snapshot) (now : World) : Prop :=
  ∀ hash, Submitted H runID rev operationID m hash → ∃ l,
    born.commitsOf (trimSpace runID) <:+ l ∧ l <:+ now.commitsOf (trimSpace runID) ∧
    match evidenceAt l operationID rev hash with
    | .error e => a = .error e
    | .ok ev => ev.status = .committed → a = .error .applyAlreadyCommitted

def Post (H : Hashing) : Request → World → Answer → World → Prop
  | .verifyIdentifiedApply runID rev operationID m, born, .evidence a, now =>
    VerifyPost H runID rev operationID m born a now
  | .applyIdentified _ runID rev operationID m, born, .snapshot a, now =>
    IdentifiedPost H runID rev operationID m born a now
  | _, _, _, _ => True

lemma verify_post (m : Mutation) (hI : D.protocol.Inv w) :
    Safe D.protocol (VerifyPost H runID rev operationID m w)
      (verifyIdentifiedApply runID rev operationID m : KProg H _) w := by
  by_cases hsub : ∃ hash, Submitted H runID rev operationID m hash
  · obtain ⟨hash, hsub⟩ := hsub
    refine (verifyIdentifiedApply_safe hsub hI (suffix_refl _)).mono ?_
    rintro a _ - ⟨l, hl0, hl, rfl⟩
    exact .inl ⟨hash, hsub, l, hl0, hl, rfl⟩
  have hnone : ∀ hash, ¬ Submitted H runID rev operationID m hash := not_exists.mp hsub
  have hpure : ∀ {e : KernelError}, e = .invalidInput ∨ e = .join .invalidInput .marshal →
      Safe D.protocol (VerifyPost H runID rev operationID m w)
        (pure (.error e) : KProg H _) w := by
    rintro e he
    refine Safe.ret (stable_true D) hI trivial fun w' _ _ => .inr ⟨hnone, ?_⟩
    exact he.imp (congrArg Except.error) (congrArg Except.error)
  rw [verifyIdentifiedApply]
  split
  · exact hpure (.inl rfl)
  rename_i hinput
  simp only [not_or, not_not] at hinput
  cases hdigest : digestApplyMutation H m with
  | error =>
    refine hpure ?_
    rw [digestApplyMutation] at hdigest
    split at hdigest
    · exact .inl (Except.error.inj hdigest).symm
    split at hdigest
    · exact .inr (Except.error.inj hdigest).symm
    · simp at hdigest
  | ok hash => exact absurd ⟨hinput.1, hinput.2, hdigest⟩ (hnone hash)

lemma identified_post (handle : Handle) (m : Mutation) (hutf8 : validUTF8 operationID = true)
    (hI : (evidenceDiscipline H).protocol.Inv w) :
    Safe (evidenceDiscipline H).protocol (IdentifiedPost H runID rev operationID m w)
      (applyIdentified handle runID rev operationID m : KProg H _) w := by
  by_cases hsub : ∃ hash, Submitted H runID rev operationID m hash
  · obtain ⟨_, hsub⟩ := hsub
    refine (applyIdentified_safe hsub hutf8 hI (suffix_refl _)).mono ?_
    rintro a _ - ⟨l, hl0, hl, ha⟩ _ hsub'
    cases hsub.digest.symm.trans hsub'.digest
    exact ⟨l, hl0, hl, ha⟩
  have hpure : ∀ a, Safe (evidenceDiscipline H).protocol (IdentifiedPost H runID rev operationID m w)
      (pure a : KProg H _) w := by
    intro a
    refine Safe.ret (stable_true _) hI trivial fun w' _ _ hash hsub' => ?_
    exact absurd ⟨hash, hsub'⟩ hsub
  rw [applyIdentified]
  split
  · exact hpure _
  rename_i hinput
  simp only [not_or, not_not] at hinput
  cases hdigest : digestApplyMutation H m with
  | error => exact hpure _
  | ok hash => exact absurd ⟨hash, hinput.1, hinput.2, hdigest⟩ hsub

/-- Every call of such a system keeps to the discipline and answers as specified. -/
lemma serveUtf8_safe (q : { q : Request // q.Utf8 }) (w : World)
    (hI : (evidenceDiscipline H).protocol.Inv w) :
    Safe (evidenceDiscipline H).protocol (Post H q.1 w) (serveUtf8 q : KProg H Answer) w := by
  obtain ⟨q, hq⟩ := q
  have hquiet : Quiet (evidenceDiscipline H) (serve q) w := by
    refine serve_quiet ?_ hI
    rintro handle _ _ _ m rfl
    exact (identified_post handle m hq hI).mono fun _ _ _ _ => trivial
  cases q with
  | verifyIdentifiedApply _ _ _ m => exact Safe.map (verify_post m hI)
  | applyIdentified handle _ _ _ m => exact Safe.map (identified_post handle m hq hI)
  | _ => exact hquiet.mono fun a _ _ _ => by cases a <;> exact trivial

/-! ### What the evidence says -/

section Verdict

variable {ps : List IdentifiedApplyProof} {k : Commit}

/-- A commit that carries an operation is newer than the revision it was made from. -/
lemma carries_newer {c : Commit} {older : List Commit} (hstory : LifeStory id (c :: older))
    (hlen : (c :: older).length < 2 ^ 64) (hk : k ∈ c :: older)
    (hrev : k.snapshot.run.revision = rev + 1) (hmax : rev ≠ maxUint64) :
    rev < c.snapshot.run.revision := by
  have hle := hstory.le_newest hlen hk
  rw [hrev] at hle
  exact UInt64.lt_of_lt_of_le (WordCounters.lt_add_one hmax) hle

lemma validApplyOperation_revision (h : validApplyOperation operationID rev = true) :
    rev ≠ 0 ∧ rev ≠ maxUint64 := by
  simp only [validApplyOperation, Bool.and_eq_true, decide_eq_true_eq] at h
  exact ⟨h.1.2, h.2⟩

/-- A committed operation is verified. -/
lemma evidenceAt_committed (hstory : LifeStory id l) (hlen : l.length < 2 ^ 64)
    (hps : Evidenced H id l ps) (hk : k ∈ l) (hcarries : Carries k p) (hback : p.readBack = p) :
    ∃ current, evidenceAt l p.operationID p.sourceRevision p.mutationDigest =
      .ok ⟨.committed, p.sourceRevision + 1, current⟩ := by
  obtain ⟨hmem, -, hrev⟩ := hps.of_carries hk hcarries
  rw [hback] at hmem
  obtain ⟨-, _, hident⟩ := hps.of_mem hmem
  obtain _ | ⟨c, older⟩ := l
  · simp at hk
  have hnewer := carries_newer hstory hlen hk hrev (validApplyOperation_revision hident.valid).2
  have hscan : scanAll p.operationID p.sourceRevision p.mutationDigest (journalOf (c :: older))
      false = .ok true := by
    rw [hps.scanAll_eq, hps.find?_eq hmem]
    simp
  refine ⟨c.snapshot.run.revision, ?_⟩
  rw [evidenceAt, if_neg (UInt64.lt_asymm hnewer), hscan]
  rw [if_neg (UInt64.not_le.mpr hnewer)]

/-- A reused identifier is a conflict. -/
lemma evidenceAt_conflict (hps : Evidenced H id l ps) (hk : k ∈ l) (hcarries : Carries k p)
    (hutf8 : validUTF8 p.operationID = true)
    (hdiff : p.sourceRevision ≠ rev ∨ p.readBack.mutationDigest ≠ hash) :
    evidenceAt l p.operationID rev hash = .error .conflict := by
  obtain ⟨hmem, -, -⟩ := hps.of_carries hk hcarries
  have hfind := hps.find?_eq hmem
  have hop : p.readBack.operationID = p.operationID := toValidUTF8_of_valid hutf8
  rw [hop] at hfind
  cases l with
  | nil => simp at hk
  | cons c older =>
    have hscan : scanAll p.operationID rev hash (journalOf (c :: older)) false = .error .conflict := by
      rw [hps.scanAll_eq, hfind]
      exact if_neg (not_and_or.mpr hdiff)
    rw [evidenceAt, hscan]
    split <;> rfl

/-- Only a Run that has moved on without the operation leaves its outcome unknown. -/
lemma evidenceAt_unknown (hstory : LifeStory id l) (hlen : l.length < 2 ^ 64)
    (hps : Evidenced H id l ps)
    (h : evidenceAt l operationID rev hash = .error .applyOutcomeUnknown) :
    (∀ c ∈ l.head?, c.snapshot.run.revision ≠ rev) ∧ ∀ q ∈ ps, q.operationID ≠ operationID := by
  obtain _ | ⟨c, older⟩ := l
  · simp [evidenceAt] at h
  rw [evidenceAt] at h
  split at h
  · simp at h
  split at h
  · -- the scan itself never fails this way
    rename_i hscan
    obtain rfl := Except.error.inj h
    rw [hps.scanAll_eq] at hscan
    split at hscan
    · simp at hscan
    · split at hscan <;> exact absurd hscan (by simp)
  · rename_i hscan
    split at h
    · -- a proof that was found belongs to an older revision
      rename_i hle
      rw [hps.scanAll_eq] at hscan
      split at hscan
      · simp at hscan
      rename_i hfind
      split at hscan
      · rename_i hsame
        obtain ⟨⟨k, hk, hcarries⟩, _, hident⟩ := hps.of_mem (mem_of_find?_eq_some hfind)
        obtain ⟨-, -, hrev⟩ := hps.of_carries hk hcarries
        have hnewer := carries_newer hstory hlen hk hrev
          (validApplyOperation_revision hident.valid).2
        rw [hsame.1] at hnewer
        exact absurd hle (UInt64.not_le.mpr hnewer)
      · simp at hscan
    · simp at h
  · rename_i hscan
    split at h
    · rename_i hne
      refine ⟨?_, hps.find?_none hscan⟩
      rintro _ hc'
      cases hc'
      exact hne
    · simp at h

/-- Two mutations have different serializations, which SHA-256 tells apart. -/
def OtherSerialization (H : Hashing) (m₀ m : Mutation) : Prop :=
  ∃ text₀ text, H.marshalMutation m₀ (m₀.events.map EventDraft.wakeup) = some text₀ ∧
    H.marshalMutation m (m.events.map EventDraft.wakeup) = some text ∧ text₀ ≠ text ∧
    (H.sha256 text₀ = H.sha256 text → text₀ = text)

lemma OtherSerialization.digest_ne {m₀ : Mutation} {hash0 : GoString}
    (h : OtherSerialization H m₀ m) (h0 : digestApplyMutation H m₀ = .ok hash0)
    (hm : digestApplyMutation H m = .ok hash) : hash0 ≠ hash := by
  obtain ⟨_, _, htext0, htext, hne, hfree⟩ := h
  obtain ⟨-, _, hu0, rfl⟩ := digestApplyMutation_ok h0
  obtain ⟨-, u, hu, rfl⟩ := digestApplyMutation_ok hm
  cases htext0.symm.trans hu0
  cases htext.symm.trans hu
  exact fun heq => hne (hfree (hexEncode_inj heq))

/-- The identifier was used for another request. -/
def Reused (H : Hashing) (l : List Commit) (rev : UInt64) (operationID : GoString) (m : Mutation) :
    Prop :=
  ∃ k ∈ l, ∃ p, Carries k p ∧ p.operationID = operationID ∧
    (p.sourceRevision ≠ rev ∨
      ∃ m₀, digestApplyMutation H m₀ = .ok p.mutationDigest ∧ OtherSerialization H m₀ m)

lemma evidenceAt_reused (hps : Evidenced H id l ps)
    (hutf8 : validUTF8 operationID = true) (hm : digestApplyMutation H m = .ok hash)
    (h : Reused H l rev operationID m) : evidenceAt l operationID rev hash = .error .conflict := by
  obtain ⟨k, hk, p, hcarries, rfl, hdiff⟩ := h
  refine evidenceAt_conflict hps hk hcarries hutf8 (hdiff.imp_right ?_)
  rintro ⟨_, hm0, hother⟩
  obtain ⟨-, _, -, hdigest⟩ := digestApplyMutation_ok hm0
  have hgraphic : validUTF8 p.mutationDigest = true := by
    rw [hdigest]
    exact validUTF8_of_graphic fun b hb => hexEncode_graphic hb
  show toValidUTF8 p.mutationDigest ≠ hash
  rw [toValidUTF8_of_valid hgraphic]
  exact hother.digest_ne hm0 hm

end Verdict

lemma Reused.suffix {l' : List Commit} (h : Reused H l rev operationID m)
    (hl : l <:+ l') : Reused H l' rev operationID m := by
  obtain ⟨k, hk, hrest⟩ := h
  exact ⟨k, hl.subset hk, hrest⟩

/-- What a returned `VerifyIdentifiedApply` says, with the moments `l` it speaks of. -/
structure Verified (H : Hashing) (runID : GoString) (rev : UInt64) (operationID : GoString)
    (m : Mutation) (born : World) (a : Except KernelError ApplyEvidence) (now : World) : Prop where
  committed : ∀ hash, digestApplyMutation H m = .ok hash →
    (∃ k ∈ born.commitsOf (trimSpace runID), Carries k ⟨operationID, rev, hash⟩) →
    ∃ current, a = .ok ⟨.committed, rev + 1, current⟩
  retryable : ∀ ev, a = .ok ev → ev.status = .retryableCAS → ∃ l,
    born.commitsOf (trimSpace runID) <:+ l ∧ l <:+ now.commitsOf (trimSpace runID) ∧
    (∃ k ∈ l.head?, k.snapshot.run.revision = rev) ∧
    ∀ k ∈ l, ∀ p, Carries k p → p.operationID ≠ operationID
  reused : validApplyOperation operationID rev = true → (∃ hash, digestApplyMutation H m = .ok hash) →
    Reused H (born.commitsOf (trimSpace runID)) rev operationID m → a = .error .conflict
  unknown : a = .error .applyOutcomeUnknown → ∃ l,
    born.commitsOf (trimSpace runID) <:+ l ∧ l <:+ now.commitsOf (trimSpace runID) ∧
    (∀ k ∈ l.head?, k.snapshot.run.revision ≠ rev) ∧
    ∀ k ∈ l, ∀ p, Carries k p → p.operationID ≠ operationID

/-- The postcondition of verification, read in a world with exact evidence. -/
lemma VerifyPost.verified {born : World} {a : Except KernelError ApplyEvidence}
    (hutf8 : validUTF8 operationID = true) (hw : Coherent w) (hev : EvidenceHolds H w)
    (hbound : (w.commitsOf (trimSpace runID)).length < 2 ^ 64)
    (hgrow : born.commitsOf (trimSpace runID) <:+ w.commitsOf (trimSpace runID))
    (h : VerifyPost H runID rev operationID m born a w) :
    Verified H runID rev operationID m born a w := by
  obtain ⟨_, hps⟩ := hev (trimSpace runID)
  -- a Run that carries an operation can be named, and the operation is acceptable
  have hname : ∀ {k p}, k ∈ born.commitsOf (trimSpace runID) → Carries k p →
      trimSpace runID ≠ [] :=
    fun hk hcarries => (hps.of_carries (hgrow.subset hk) hcarries).2.1
  rcases h with ⟨hash, hsub, l, hl0, hl, rfl⟩ | ⟨hnone, ha⟩
  · have hlen : l.length < 2 ^ 64 := lt_of_le_of_lt hl.length_le hbound
    have hstory : LifeStory (trimSpace runID) l :=
      Interleaving.of_suffix (fun _ _ => LifeStory.tail) (hw.story _) hl
    obtain ⟨_, hqs⟩ := hps.suffix hl
    have hback : validUTF8 hash = true := by
      obtain ⟨-, _, -, rfl⟩ := digestApplyMutation_ok hsub.digest
      exact validUTF8_of_graphic fun b hb => hexEncode_graphic hb
    refine ⟨?_, ?_, ?_, ?_⟩
    · rintro _ hdigest ⟨k, hk, hcarries⟩
      cases hsub.digest.symm.trans hdigest
      refine evidenceAt_committed hstory hlen hqs (hl0.subset hk) hcarries ?_
      rw [IdentifiedApplyProof.readBack, toValidUTF8_of_valid hutf8, toValidUTF8_of_valid hback]
    · intro _ hok hstatus
      obtain _ | ⟨c, older⟩ := l
      · simp [evidenceAt] at hok
      obtain ⟨hrev, hscan⟩ := evidenceAt_retryable hok hstatus
      exact ⟨c :: older, hl0, hl, ⟨c, rfl, hrev⟩, fun k hk p hcarries =>
        hqs.not_carried hutf8 (hqs.find?_none hscan) hk hcarries⟩
    · intro _ _ hreused
      exact evidenceAt_reused hqs hutf8 hsub.digest (hreused.suffix hl0)
    intro hunknown
    obtain ⟨hmoved, hnot⟩ := evidenceAt_unknown hstory hlen hqs hunknown
    exact ⟨l, hl0, hl, hmoved, fun k hk p hcarries => hqs.not_carried hutf8 hnot hk hcarries⟩
  · refine ⟨?_, ?_, ?_, ?_⟩
    · rintro hash hdigest ⟨k, hk, hcarries⟩
      have hvalid : validApplyOperation operationID rev = true := by
        obtain ⟨hmem, -, -⟩ := hps.of_carries (hgrow.subset hk) hcarries
        obtain ⟨-, _, hident⟩ := hps.of_mem hmem
        have hv := hident.valid
        rwa [show (IdentifiedApplyProof.readBack ⟨operationID, rev, hash⟩).operationID = operationID
          from toValidUTF8_of_valid hutf8] at hv
      exact absurd ⟨hname hk hcarries, hvalid, hdigest⟩ (hnone hash)
    · rintro _ rfl
      simp at ha
    · rintro hvalid ⟨hash, hdigest⟩ ⟨k, hk, p, hcarries, -⟩
      exact absurd ⟨hname hk hcarries, hvalid, hdigest⟩ (hnone hash)
    · rintro rfl
      simp at ha

/-- **Identified commits** in systems whose operation identifiers are valid UTF-8:
no two commits of a Run carry the same operation; every returned verification says
exactly what the Run's commits said at one moment of the call; and an identifier
that is used again for another request is a conflict, for `VerifyIdentifiedApply`
and for `ApplyIdentified`. -/
theorem identified_apply (H : Hashing) (c : Utf8System H) (hreach : c.Reachable)
    (hbound : ∀ id, (c.shared.commitsOf id).length < 2 ^ 64) :
    (∀ id, (c.shared.commitsOf id).Pairwise fun k k' =>
      ∀ p p', Carries k p → Carries k' p' → p.operationID ≠ p'.operationID) ∧
    (∀ t ∈ c.threads, ∀ runID rev operationID m a,
      t.request.1 = .verifyIdentifiedApply runID rev operationID m → t.prog = .ret (.evidence a) →
      Verified H runID rev operationID m t.born a c.shared) ∧
    (∀ t ∈ c.threads, ∀ handle runID rev operationID m a,
      t.request.1 = .applyIdentified handle runID rev operationID m →
      t.prog = .ret (.snapshot a) → trimSpace runID ≠ [] →
      validApplyOperation operationID rev = true → (∃ hash, digestApplyMutation H m = .ok hash) →
      Reused H (t.born.commitsOf (trimSpace runID)) rev operationID m → a = .error .conflict) := by
  have hempty : (evidenceDiscipline H).protocol.Inv {} :=
    ⟨coherent_empty, fun _ => ⟨[], .nil⟩⟩
  obtain ⟨-, hsafe⟩ := reachable_safe serveUtf8_safe hempty hreach
  obtain ⟨hw, hev⟩ := hsafe.inv
  refine ⟨?_, ?_, ?_⟩
  · intro id
    obtain ⟨_, hps⟩ := hev id
    exact hps.pairwise
  · intro t ht _ _ _ m a hrequest hret
    have hpost := hsafe.finished ht hret
    have hutf8 := t.request.2
    rw [hrequest] at hpost hutf8
    exact VerifyPost.verified hutf8 hw hev (hbound _)
      (commitsOf_suffix_of_later (hsafe.born t ht) _) hpost
  · rintro t ht _ runID _ _ m a hrequest hret hid hvalid ⟨hash, hdigest⟩ hreused
    have hpost := hsafe.finished ht hret
    have hutf8 := t.request.2
    rw [hrequest] at hpost hutf8
    obtain ⟨l, hl0, hl, ha⟩ := hpost hash ⟨hid, hvalid, hdigest⟩
    obtain ⟨_, hps⟩ := hev (trimSpace runID)
    obtain ⟨_, hqs⟩ := hps.suffix hl
    rwa [evidenceAt_reused hqs hutf8 hdigest (hreused.suffix hl0)] at ha

/-- A Run at revision 1. -/
def sampleCreate : CreateRequest :=
  { id := lit "r", kind := lit "agent", actor := ⟨lit "t", lit "a"⟩, thread := ⟨lit "k", lit "i"⟩,
    goal := lit "g", state := lit "0" }

def sampleMutation : Mutation := { status := .running, state := lit "1" }

/-- The system after the call `q` was served at the instant `now`, alone. -/
def Utf8System.serveAt (c : Utf8System H) (now : Time) (q : { q : Request // q.Utf8 }) :
    Utf8System H :=
  let served := Prog.run (O := kernelObject H) (answerAt H now) (serveUtf8 q) c.shared
  ⟨served.2, ⟨q, c.shared, .ret served.1⟩ :: c.threads⟩

/-- The operation `op` is committed, and verified. -/
def sampleVerified : Utf8System .sample :=
  let created : Utf8System .sample := Utf8System.serveAt ⟨{}, []⟩ 1 ⟨.create sampleCreate, trivial⟩
  let applied := created.serveAt 2
    ⟨.applyIdentified {} (lit "r") 1 (lit "op") sampleMutation,
      show validUTF8 (lit "op") = true by decide⟩
  applied.serveAt 3 ⟨.verifyIdentifiedApply (lit "r") 1 (lit "op") sampleMutation,
    show validUTF8 (lit "op") = true by decide⟩

set_option maxRecDepth 20000 in
/-- The verification of a committed operation. -/
theorem identified_apply_verified : ∃ t ∈ sampleVerified.threads, ∃ current,
    t.prog = .ret (.evidence (.ok ⟨.committed, 2, current⟩)) := by
  have hreach : sampleVerified.Reachable :=
    ((steps_run (answerAt_exec 1) _ _ _).trans (steps_run (answerAt_exec 2) _ _ _)).trans
      (steps_run (answerAt_exec 3) _ _ _)
  have hbound : ∀ id, (sampleVerified.shared.commitsOf id).length < 2 ^ 64 := by
    intro _
    exact lt_of_le_of_lt (length_filter_le _ _) (by decide)
  obtain ⟨-, hverified, -⟩ := identified_apply .sample sampleVerified hreach hbound
  refine ⟨_, mem_cons_self, ?_⟩
  obtain ⟨current, ha⟩ := (hverified _ mem_cons_self (lit "r") 1 (lit "op") sampleMutation _ rfl
    rfl).committed _ rfl ⟨_, mem_cons_self, mem_cons_self⟩
  exact ⟨current, congrArg (fun a => Prog.ret (Answer.evidence a)) ha⟩

/-- The answer of the thread that was served last. -/
def lastAnswer (c : System H) : Option Answer :=
  match c.threads with
  | ⟨_, _, .ret a⟩ :: _ => some a
  | _ => none

def sampleRun : System .sample := System.serveAt ⟨{}, []⟩ 1 (.create sampleCreate)

set_option maxRecDepth 20000 in
/-- **Identifiers that are not UTF-8.**  The one-byte identifier `ff` is accepted and
commits, but its proof is read back as U+FFFD, so the operation can never be
verified.  Forty-three such bytes are read back as 129, and then no other operation
of the Run can be verified either, although it has not committed and the Run is at
its revision. -/
theorem identified_apply_stray :
    (sampleRun.serveAt 2 (.applyIdentified {} (lit "r") 1 [0xFF] sampleMutation)).Reachable ∧
    validApplyOperation [0xFF] 1 = true ∧
    (∃ snap, lastAnswer (sampleRun.serveAt 2 (.applyIdentified {} (lit "r") 1 [0xFF]
      sampleMutation)) = some (.snapshot (.ok snap)) ∧ snap.run.revision = 2) ∧
    lastAnswer ((sampleRun.serveAt 2 (.applyIdentified {} (lit "r") 1 [0xFF]
      sampleMutation)).serveAt 3 (.verifyIdentifiedApply (lit "r") 1 [0xFF] sampleMutation)) =
      some (.evidence (.error .applyOutcomeUnknown)) ∧
    validApplyOperation (List.replicate 43 0xFF) 1 = true ∧
    lastAnswer ((sampleRun.serveAt 2 (.applyIdentified {} (lit "r") 1 (List.replicate 43 0xFF)
      sampleMutation)).serveAt 3 (.verifyIdentifiedApply (lit "r") 2 (lit "other") sampleMutation)) =
      some (.evidence (.error .applyOutcomeUnknown)) := by
  refine ⟨?_, by decide, ⟨_, rfl, by decide⟩, rfl, by decide, rfl⟩
  exact (System.later_serveAt _ _ _).trans (System.later_serveAt _ _ _)

end Kernel
