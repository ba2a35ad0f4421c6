/-
Reading the evidence of identified commits.

`ApplyIdentified` writes a proof of its operation into the journal, in the same
commit as the state; `VerifyIdentifiedApply` finds out from the journal, page by
page and while others extend it, whether an operation was committed.  Two facts
carry the argument.  A proof is read back as it was written, except that stray
bytes of the operation identifier come back as U+FFFD.  And a journal only grows,
so what the pages show up to the head that was loaded is the journal as it stood
at that moment.

* **`scanPages_safe`** — the pages show the journal of the loaded snapshot;
* **`verifyIdentifiedApply_safe`** — verification is an atomic reading: its answer
  is `evidenceAt` the moment of its load.
-/
import AgentRuntime.JsonTexts
import AgentRuntime.RunLifecycle

namespace Kernel

open GoString Memory Interleaving List

/-! ### Proofs in the journal -/

/-- The event with which a commit carries the proof `p`. -/
def evidenceDraft (p : IdentifiedApplyProof) : EventDraft :=
  { type := identifiedApplyEventType, data := encodeApplyProof p }

/-- What is read back from a proof. -/
def IdentifiedApplyProof.readBack (p : IdentifiedApplyProof) : IdentifiedApplyProof :=
  { p with
    operationID := toValidUTF8 p.operationID
    mutationDigest := toValidUTF8 p.mutationDigest }

/-- A proof is read back up to the replacement of stray bytes. -/
theorem decode_encode (p : IdentifiedApplyProof) :
    decodeApplyProof (encodeApplyProof p) = some p.readBack := by
  have hparse : GoJson.parse (encodeApplyProof p) = some (.object [
      (lit "operationID", .string (toValidUTF8 p.operationID)),
      (lit "sourceRevision", .number (formatUint p.sourceRevision.toNat)),
      (lit "mutationDigest", .string (toValidUTF8 p.mutationDigest))]) := by
    have hlegible : GoJson.Legible (.object [(lit "operationID", .string p.operationID),
        (lit "sourceRevision", .number (formatUint p.sourceRevision.toNat)),
        (lit "mutationDigest", .string p.mutationDigest)]) 10000 :=
      ⟨by decide, trivial, fun _ hrest => GoJson.parseNumber_formatUint hrest _, trivial, trivial⟩
    have hkeys : toValidUTF8 (lit "operationID") = lit "operationID" ∧
        toValidUTF8 (lit "sourceRevision") = lit "sourceRevision" ∧
        toValidUTF8 (lit "mutationDigest") = lit "mutationDigest" := by decide
    rw [encodeApplyProof, GoJson.parse_render hlegible]
    simp [GoJson.clean, GoJson.cleanMembers, hkeys]
  rw [decodeApplyProof, hparse]
  show (GoJson.decodeString [] [.string (toValidUTF8 p.operationID)]).bind (fun operationID =>
    (GoJson.decodeUint64 0 [.number (formatUint p.sourceRevision.toNat)]).bind fun sourceRevision =>
    (GoJson.decodeString [] [.string (toValidUTF8 p.mutationDigest)]).bind fun mutationDigest =>
    some (⟨operationID, sourceRevision, mutationDigest⟩ : IdentifiedApplyProof)) = _
  rw [GoJson.decodeUint64_formatUint]
  rfl

/-! ### Reading a whole journal -/

section Scan

variable {operationID hash : GoString} {rev : UInt64} {head after : ℕ} {es : List Event}

/-- The scan over all events of a journal, without pages. -/
def scanAll (operationID : GoString) (rev : UInt64) (hash : GoString) :
    List Event → Bool → Except KernelError Bool
  | [], matched => .ok matched
  | e :: events, matched =>
    if e.type ≠ identifiedApplyEventType then scanAll operationID rev hash events matched
    else
      match readApplyProof e.data operationID rev hash with
      | .damaged => .error .applyOutcomeUnknown
      | .foreign => scanAll operationID rev hash events matched
      | .clash => .error .conflict
      | .hit => if matched then .error .conflict else scanAll operationID rev hash events true

lemma scanAll_append (es fs : List Event) (matched : Bool) :
    scanAll operationID rev hash (es ++ fs) matched =
      (scanAll operationID rev hash es matched).bind (scanAll operationID rev hash fs) := by
  induction es generalizing matched with
  | nil => rfl
  | cons _ _ ih =>
    rw [cons_append, scanAll, scanAll]
    split
    · exact ih matched
    split
    · rfl
    · exact ih matched
    · rfl
    split
    · rfl
    · exact ih true

/-- Events without proofs are passed over. -/
lemma scanAll_plain (h : ∀ e ∈ es, e.type ≠ identifiedApplyEventType)
    (matched : Bool) : scanAll operationID rev hash es matched = .ok matched := by
  induction es with
  | nil => rfl
  | cons e _ ih =>
    rw [scanAll, if_pos (h e mem_cons_self)]
    exact ih (forall_mem_cons.mp h).2

/-- The events are numbered from `after + 1` on. -/
def NumberedFrom (after : ℕ) (es : List Event) : Prop :=
  ∀ i e, es[i]? = some e → e.seq = after + i + 1

lemma NumberedFrom.tail {e : Event}
    (h : NumberedFrom after (e :: es)) : NumberedFrom (after + 1) es := by
  intro i e' he'
  have := h (i + 1) e' (by simpa using he')
  omega

/-- The scan of a page is the scan of its events up to the head. -/
lemma scanEvents_eq {page : List Event} (hpage : NumberedFrom after page)
    (matched : Bool) : scanEvents head operationID rev hash page after matched =
      (scanAll operationID rev hash (page.take (head - after)) matched).map fun matched =>
        (after + min page.length (head - after), matched) := by
  induction page generalizing after matched with
  | nil => simp [scanEvents, scanAll, Except.map]
  | cons e page ih =>
    have hseq : e.seq = after + 1 := hpage 0 e rfl
    rw [scanEvents, hseq]
    by_cases hhead : head < after + 1
    · rw [if_pos hhead, show head - after = 0 by omega]
      simp [scanAll, Except.map]
    rw [if_neg hhead, if_neg (by simp)]
    obtain ⟨n, hn⟩ : ∃ n, head - after = n + 1 := ⟨head - after - 1, by omega⟩
    have hn' : head - (after + 1) = n := by omega
    have hcount : ∀ m, after + 1 + min page.length n = m ↔
        after + min (e :: page).length (n + 1) = m := by
      intro m
      rw [length_cons]
      omega
    -- after the event has been read, the rest of the page is scanned from there
    have hrest : ∀ matched, scanEvents head operationID rev hash page (after + 1) matched =
        (scanAll operationID rev hash (page.take n) matched).map fun matched =>
          (after + min (e :: page).length (n + 1), matched) := by
      intro _
      rw [ih hpage.tail, hn', (hcount _).mpr rfl]
    rw [hn, take_succ_cons, scanAll]
    split
    · exact hrest matched
    cases readApplyProof e.data operationID rev hash with
    | damaged | clash => rfl
    | foreign => exact hrest matched
    | hit =>
      cases matched with
      | true => rfl
      | false => exact hrest true

end Scan

/-! ### The journal of a story -/

/-- Committing appends one event for each draft. -/
lemma appendEvents_spec (journal : List Event) (drafts : List EventDraft) (at_ : Time) :
    ∃ new, appendEvents journal drafts at_ = journal ++ new ∧
      new.map (fun e => (e.type, e.data)) = drafts.map (fun d => (d.type, d.data)) ∧
      NumberedFrom journal.length new := by
  induction drafts generalizing journal with
  | nil => exact ⟨[], by simp [appendEvents], rfl, by intro i e h; exact absurd h (by simp)⟩
  | cons d _ ih =>
    obtain ⟨new, hnew, hmap, hnum⟩ :=
      ih (journal ++ [⟨journal.length + 1, d.type, d.message, d.data, at_⟩])
    refine ⟨⟨journal.length + 1, d.type, d.message, d.data, at_⟩ :: new, ?_, ?_, ?_⟩
    · rw [appendEvents, hnew, append_assoc]
      rfl
    · rw [map_cons, hmap]
      rfl
    intro i e he
    cases i with
    | zero =>
      cases he
      rfl
    | succ i =>
      have := hnum i e (by simpa using he)
      simp only [length_append, length_singleton] at this
      omega

lemma journalOf_numbered (l : List Commit) : NumberedFrom 0 (journalOf l) := by
  induction l with
  | nil => intro i e h; simp [journalOf] at h
  | cons c l ih =>
    obtain ⟨_, hnew, -, hnum⟩ := appendEvents_spec (journalOf l) c.events c.snapshot.run.updatedAt
    rw [journalOf, hnew]
    intro i e he
    by_cases hi : i < (journalOf l).length
    · rw [getElem?_append_left hi] at he
      exact ih i e he
    rw [getElem?_append_right (by omega)] at he
    have := hnum _ e he
    omega

lemma journalOf_isPrefix {l l' : List Commit} (h : l <:+ l') : journalOf l <+: journalOf l' := by
  obtain ⟨newer, rfl⟩ := h
  induction newer with
  | nil => exact prefix_refl _
  | cons c newer ih =>
    obtain ⟨_, hnew, -⟩ :=
      appendEvents_spec (journalOf (newer ++ l)) c.events c.snapshot.run.updatedAt
    rw [cons_append, journalOf, hnew]
    exact ih.trans (prefix_append _ _)

/-! ### The paged scan -/

variable {H : Hashing} {D : Discipline H} {w : World} {runID operationID hash : GoString}
  {rev : UInt64} {l : List Commit} {after : ℕ}

/-- The Run has at least the commits `l`. -/
def Since (id : GoString) (l : List Commit) (w : World) : Prop := l <:+ w.commitsOf id

lemma stable_since (D : Discipline H) (id : GoString) (l : List Commit) :
    D.protocol.Stable (Since id l) := by
  rintro w _ - h (rfl | ⟨_, _, -, rfl⟩)
  · exact h
  · exact h.trans (commitsOf_suffix w _ _ id)

lemma listEvents_page {s : Store} {id : GoString} (hid : trimSpace id ≠ [])
    (hrec : s.records id ≠ none) :
    listEvents s id after 512 = .ok (((s.events id).drop after).take 512) := by
  have hinput : ¬ (trimSpace id = [] ∨ (after : ℤ) < 0 ∨ (512 : ℤ) ≤ 0 ∨ (10000 : ℤ) < 512) := by
    simp only [not_or]
    exact ⟨hid, by omega, by omega, by omega⟩
  have hsome : ¬ (s.records id).isNone = true := by simpa using hrec
  rw [listEvents, if_neg hinput, if_neg hsome]
  rfl

/-- A page of a journal `J'`, cut at the head of its prefix `J`, is a page of `J`. -/
lemma page_of_isPrefix {J J' : List Event} (h : J <+: J') (after : ℕ) :
    ((J'.drop after).take 512).take (J.length - after) = (J.drop after).take 512 := by
  obtain ⟨_, rfl⟩ := h
  rw [take_take, min_comm, ← take_take]
  congr 1
  by_cases hafter : after ≤ J.length
  · rw [drop_append_of_le_length hafter]
    simp
  · rw [show J.length - after = 0 by omega, drop_eq_nil_of_le (by omega : J.length ≤ after)]
    rfl

/-- **The pages show the journal of the commits `l`**, whatever is committed while
they are read. -/
theorem scanPages_safe (hid : trimSpace runID ≠ []) (hl : l ≠ []) (rounds : ℕ)
    {matched : Bool} (hafter : after ≤ (journalOf l).length)
    (hrounds : (journalOf l).length < after + rounds)
    (hread : scanAll operationID rev hash ((journalOf l).take after) false = .ok matched)
    (hI : D.protocol.Inv w) (hw : Since (trimSpace runID) l w) :
    Safe D.protocol (fun r w => Since (trimSpace runID) l w ∧
        r = scanAll operationID rev hash (journalOf l) false)
      (scanPages runID (journalOf l).length operationID rev hash rounds after matched : KProg H _)
      w := by
  induction rounds generalizing after matched w with
  | zero => omega
  | succ _ ih =>
    rw [scanPages]
    by_cases hend : (journalOf l).length ≤ after
    · rw [if_pos hend]
      rw [take_of_length_le hend] at hread
      exact Safe.ret (stable_since D _ l) hI hw fun _ _ hw => ⟨hw, hread.symm⟩
    rw [if_neg hend, listRunEvents,
      if_neg (by simp only [not_or]; exact ⟨hid, by omega, by omega, by omega⟩)]
    refine safe_perform (stable_since D _ l) hI hw (fun _ _ _ => trivial) ?_
    intro w1 env hI1 hw1 hI2 hw2
    have hrec : w1.store.records (trimSpace runID) ≠ none := by
      rw [hI1.1.records]
      obtain ⟨newer, hnewer⟩ := hw1
      rw [← hnewer]
      cases newer with
      | nil => cases l with
        | nil => exact absurd rfl hl
        | cons => simp
      | cons => simp
    have hstart : journalOf l <+: w1.store.events (trimSpace runID) := by
      rw [hI1.1.events]
      exact journalOf_isPrefix hw1
    have hnumbered : NumberedFrom after (((w1.store.events (trimSpace runID)).drop after).take 512) := by
      rw [hI1.1.events]
      intro i e he
      have hi : i < 512 := by
        by_contra hi
        rw [getElem?_take_eq_none (by omega)] at he
        simp at he
      rw [getElem?_take_of_lt hi, getElem?_drop] at he
      have := journalOf_numbered _ _ _ he
      omega
    have hanswer : (w1.perform H env (.listEvents (trimSpace runID) after 512)).1 =
        .ok (((w1.store.events (trimSpace runID)).drop after).take 512) :=
      listEvents_page (by rwa [trimSpace_idem]) hrec
    rw [hanswer]
    set page := ((w1.store.events (trimSpace runID)).drop after).take 512 with hpage
    have hlen : 0 < page.length := by
      have := hstart.length_le
      rw [length_take, length_drop]
      omega
    have hfirst : page.head?.map Event.seq = some (after + 1) := by
      obtain ⟨e, _, hcons⟩ := exists_cons_of_length_pos hlen
      have := hnumbered 0 e (by rw [hcons]; rfl)
      rw [hcons, head?_cons, Option.map_some, this]
    dsimp only
    rw [if_neg (by simpa using hfirst), scanEvents_eq hnumbered, page_of_isPrefix hstart]
    -- the page continues what has been read so far
    have htake : (journalOf l).take (after + 512) =
        (journalOf l).take after ++ ((journalOf l).drop after).take 512 := by
      rw [take_add]
    have hcontinue : scanAll operationID rev hash ((journalOf l).take (after + 512)) false =
        scanAll operationID rev hash (((journalOf l).drop after).take 512) matched := by
      rw [htake, scanAll_append, hread]
      rfl
    cases hscan : scanAll operationID rev hash (((journalOf l).drop after).take 512) matched with
    | error =>
      refine Safe.ret (stable_since D _ l) hI2 hw2 fun _ _ hw => ⟨hw, ?_⟩
      rw [← take_append_drop (after + 512) (journalOf l), scanAll_append, hcontinue, hscan]
      rfl
    | ok =>
      have hnext : after + min page.length ((journalOf l).length - after) =
          min (after + 512) (journalOf l).length := by
        have := hstart.length_le
        rw [length_take, length_drop]
        omega
      refine ih ?_ ?_ ?_ hI2 hw2
      · rw [hnext]
        omega
      · rw [hnext]
        omega
      · rw [hnext, ← take_take, take_length, hcontinue, hscan]

/-! ### Verification is an atomic reading -/

/-- What the commits `l` of a Run say about an operation. -/
def evidenceAt (l : List Commit) (operationID : GoString) (rev : UInt64) (hash : GoString) :
    Except KernelError ApplyEvidence :=
  match l with
  | [] => .error .notFound
  | c :: _ =>
    if c.snapshot.run.revision < rev then .error .conflict
    else
      match scanAll operationID rev hash (journalOf l) false with
      | .error e => .error e
      | .ok true =>
        if c.snapshot.run.revision ≤ rev then .error .applyOutcomeUnknown
        else .ok ⟨.committed, rev + 1, c.snapshot.run.revision⟩
      | .ok false =>
        if c.snapshot.run.revision ≠ rev then .error .applyOutcomeUnknown
        else .ok ⟨.retryableCAS, 0, c.snapshot.run.revision⟩

/-- The input of a call is accepted, and `hash` is the digest of its mutation. -/
structure Submitted (H : Hashing) (runID : GoString) (rev : UInt64) (operationID : GoString)
    (m : Mutation) (hash : GoString) : Prop where
  runID_ne : trimSpace runID ≠ []
  valid : validApplyOperation operationID rev = true
  digest : digestApplyMutation H m = .ok hash

lemma Submitted.input {m : Mutation} (h : Submitted H runID rev operationID m hash) :
    ¬ (trimSpace runID = [] ∨ ¬ validApplyOperation operationID rev = true) := by
  simp only [not_or, not_not]
  exact ⟨h.runID_ne, h.valid⟩

/-- **Verification is atomic**: the answer is what the commits of the Run said at
one moment, `l`, after the call had started. -/
theorem verifyIdentifiedApply_safe {m : Mutation} (hsub : Submitted H runID rev operationID m hash)
    {l0 : List Commit} (hI : D.protocol.Inv w) (hw : Since (trimSpace runID) l0 w) :
    Safe D.protocol (fun r w => ∃ l, l0 <:+ l ∧ Since (trimSpace runID) l w ∧
        r = evidenceAt l operationID rev hash)
      (verifyIdentifiedApply runID rev operationID m : KProg H _) w := by
  rw [verifyIdentifiedApply, if_neg hsub.input, hsub.digest]
  rw [loadRun, if_neg hsub.runID_ne]
  refine safe_perform (stable_since D _ l0) hI hw (fun _ _ _ => trivial) ?_
  intro w1 env hI1 hw1 hI2 _
  -- from here on the commits at the moment of the load are what counts
  set l := w1.commitsOf (trimSpace runID) with hl
  have hl2 : Since (trimSpace runID) l (w1.perform H env (.load (trimSpace runID))).2 :=
    commitsOf_suffix w1 _ _ _
  have hret : ∀ {r : Except KernelError ApplyEvidence} {w : World}, D.protocol.Inv w →
      Since (trimSpace runID) l w → r = evidenceAt l operationID rev hash →
      Safe D.protocol (fun r w => ∃ l, l0 <:+ l ∧ Since (trimSpace runID) l w ∧
        r = evidenceAt l operationID rev hash) (pure r : KProg H _) w :=
    fun hI hw hr => Safe.ret (stable_since D _ l) hI hw fun _ _ hw => ⟨l, hw1, hw, hr⟩
  have hanswer : (w1.perform H env (.load (trimSpace runID))).1 =
      load w1.store (trimSpace runID) := rfl
  rw [hanswer, load, hI1.1.records, ← hl]
  rcases hcons : l with _ | ⟨c, _⟩
  · refine hret hI2 hl2 ?_
    rw [hcons, evidenceAt]
  have hstory := hI1.1.story (trimSpace runID)
  rw [← hl, hcons] at hstory
  dsimp only [head?_cons, Option.map_some]
  by_cases hold : c.snapshot.run.revision < rev
  · rw [if_pos hold]
    refine hret hI2 hl2 ?_
    rw [hcons, evidenceAt, if_pos hold]
  rw [if_neg hold, hstory.eventHead, ← hcons]
  refine Safe.bind hI2 (scanPages_safe hsub.runID_ne (by simp [hcons]) _ (Nat.zero_le _)
    (by omega) rfl hI2 hl2) ?_
  rintro r _ hI3 ⟨hw3, rfl⟩
  rcases hscan : scanAll operationID rev hash (journalOf l) false with e | matched
  · refine hret hI3 hw3 ?_
    rw [hcons] at hscan ⊢
    simp [evidenceAt, if_neg hold, hscan]
  -- what was found and the newest revision give the answer together
  cases matched
  all_goals
    dsimp only
    split
    all_goals
      rename_i hnewest
      refine hret hI3 hw3 ?_
      rw [hcons] at hscan ⊢
      simp [evidenceAt, if_neg hold, hscan, hnewest]

end Kernel
