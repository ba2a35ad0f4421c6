/-
The history of one Run.

The commits of a Run, newest first, tell its whole story: the Run is created at
revision 1, every commit raises the revision by one and keeps the Run's identity,
and nothing follows a terminal commit (`LifeStory`).  `Coherent` says that every
Run of a world has such a story, and that the Store's record and journal are what
the story says.

The Store alone does not keep this invariant, for it commits whatever replacement
it is given.  `Guarded` is the promise of the Runtimes: a replacement for the
revision that is current was made from exactly that snapshot by an accepted
mutation.

* **`Coherent.step`** — guarded calls keep all stories.
-/
import AgentRuntime.KernelRuntime
import AgentRuntime.WordCounters

namespace Kernel

open GoString Memory Function List

/-! ### Stories -/

/-- The journal that the commits of a Run have written. -/
def journalOf : List Commit → List Event
  | [] => []
  | c :: l => appendEvents (journalOf l) c.events c.snapshot.run.updatedAt

/-- The data of a snapshot agree with its status. -/
structure WellFormed (snap : Snapshot) : Prop where
  result_iff : snap.result.isSome ↔ snap.run.status = .completed
  ended_iff : snap.run.endedAt.isSome ↔ snap.run.status.terminal = true
  pending : snap.run.status = .waitingInput → ∃ c, snap.checkpoint = some c ∧ c.status = .pending

/-- `new` is the next revision of `old`. -/
structure Follows (old new : Snapshot) : Prop where
  active : old.run.status.terminal = false
  numbered : old.run.revision ≠ 0
  revision : new.run.revision = old.run.revision + 1
  id : new.run.id = old.run.id
  identity : sameRunIdentity new.run old.run

/-- The commits of the Run `id`, newest first, from its creation on. -/
inductive LifeStory (id : GoString) : List Commit → Prop
  | unborn : LifeStory id []
  | created {c : Commit} (hid : c.snapshot.run.id = id) (hrev : c.snapshot.run.revision = 1)
      (hwf : WellFormed c.snapshot) (hhead : c.snapshot.eventHead = (journalOf [c]).length) :
      LifeStory id [c]
  | next {c p : Commit} {l : List Commit} (hprev : LifeStory id (p :: l))
      (hfollows : Follows p.snapshot c.snapshot) (hwf : WellFormed c.snapshot)
      (hhead : c.snapshot.eventHead = (journalOf (c :: p :: l)).length) :
      LifeStory id (c :: p :: l)

namespace LifeStory

variable {id : GoString} {c c' : Commit} {l : List Commit}

lemma tail (h : LifeStory id (c :: l)) : LifeStory id l := by
  cases h with
  | created => exact .unborn
  | next hprev => exact hprev

lemma of_mem (h : LifeStory id l) (hc : c ∈ l) : ∃ older, LifeStory id (c :: older) ∧
    (c :: older) <:+ l := by
  induction l with
  | nil => simp at hc
  | cons d l ih =>
    rcases mem_cons.mp hc with rfl | hc
    · exact ⟨l, h, suffix_refl _⟩
    · obtain ⟨older, hstory, hsuffix⟩ := ih h.tail hc
      exact ⟨older, hstory, hsuffix.trans (suffix_cons d l)⟩

lemma wellFormed (h : LifeStory id (c :: l)) : WellFormed c.snapshot := by
  cases h with
  | created _ _ hwf | next _ _ hwf => exact hwf

lemma eventHead (h : LifeStory id (c :: l)) :
    c.snapshot.eventHead = (journalOf (c :: l)).length := by
  cases h with
  | created _ _ _ hhead | next _ _ _ hhead => exact hhead

lemma run_id (h : LifeStory id l) (hc : c ∈ l) : c.snapshot.run.id = id := by
  induction h generalizing c with
  | unborn => simp at hc
  | created hid =>
    obtain rfl := mem_singleton.mp hc
    exact hid
  | next _ hfollows _ _ ih =>
    rcases mem_cons.mp hc with rfl | hc
    · exact hfollows.id.trans (ih mem_cons_self)
    · exact ih hc

theorem identity (h : LifeStory id l) (hc : c ∈ l) (hc' : c' ∈ l) :
    sameRunIdentity c.snapshot.run c'.snapshot.run := by
  -- it is enough to compare every commit with the newest one
  have hnewest : ∀ {d : Commit} {l : List Commit}, LifeStory id (d :: l) → ∀ e ∈ d :: l,
      sameRunIdentity e.snapshot.run d.snapshot.run := by
    intro d l hstory
    induction l generalizing d with
    | nil => exact forall_mem_singleton.mpr (.refl _)
    | cons _ _ ih =>
      cases hstory with
      | next hprev hfollows =>
        exact forall_mem_cons.mpr ⟨.refl _, fun e he => (ih hprev e he).trans hfollows.identity.symm⟩
  cases l with
  | nil => simp at hc
  | cons => exact (hnewest h c hc).trans (hnewest h c' hc').symm

theorem active (h : LifeStory id (c :: l)) (hc : c' ∈ l) :
    c'.snapshot.run.status.terminal = false := by
  induction l generalizing c with
  | nil => simp at hc
  | cons _ _ ih =>
    cases h with
    | next hprev hfollows =>
      rcases mem_cons.mp hc with rfl | hc
      · exact hfollows.active
      · exact ih hprev hc

/-- The newest revision counts the commits, up to the size of a word. -/
lemma revision (h : LifeStory id (c :: l)) :
    c.snapshot.run.revision = UInt64.ofNat (l.length + 1) := by
  induction l generalizing c with
  | nil =>
    cases h with
    | created _ hrev => exact hrev
  | cons _ l ih =>
    cases h with
    | next hprev hfollows =>
      rw [hfollows.revision, ih hprev, length_cons, UInt64.ofNat_add (l.length + 1) 1]
      rfl

/-- The newest commit of a short story has the largest revision. -/
lemma le_newest (h : LifeStory id (c :: l)) (hlen : (c :: l).length < 2 ^ 64) (hc : c' ∈ c :: l) :
    c'.snapshot.run.revision ≤ c.snapshot.run.revision := by
  obtain ⟨_, hstory, hsuffix⟩ := h.of_mem hc
  have hle := hsuffix.length_le
  simp only [length_cons] at hlen hle
  rw [h.revision, hstory.revision, UInt64.le_iff_toNat_le, UInt64.toNat_ofNat',
    UInt64.toNat_ofNat', Nat.mod_eq_of_lt (by omega)]
  omega

lemma descending (h : LifeStory id l) :
    WordCounters.Descending (l.map fun c => c.snapshot.run.revision) := by
  induction h with
  | unborn => exact List.IsChain.nil
  | created => exact List.IsChain.singleton _
  | next _ hfollows _ _ ih => exact ih.cons hfollows.revision hfollows.numbered

theorem unique (h : LifeStory id l) (hc : c ∈ l) (hc' : c' ∈ l)
    (hrev : c.snapshot.run.revision = c'.snapshot.run.revision) : c = c' :=
  inj_on_of_nodup_map h.descending.nodup hc hc' hrev

end LifeStory

/-! ### Coherent worlds -/

/-- Every Run has a story, which the Store's record and journal agree with. -/
structure Coherent (w : World) : Prop where
  story : ∀ id, LifeStory id (w.commitsOf id)
  records : ∀ id, w.store.records id = (w.commitsOf id).head?.map Commit.snapshot
  events : ∀ id, w.store.events id = journalOf (w.commitsOf id)
  trimmed : ∀ id, w.commitsOf id ≠ [] → trimSpace id = id

variable {H : Hashing} {E : World → GoString → Mutation → Prop} {w : World} {env : Env}
  {op : StoreOp} {res : op.Res} {s' : Store} {id : GoString} {cur : Snapshot} {m : StoreMutation}
  {c : Commit}

lemma coherent_empty : Coherent {} where
  story _ := .unborn
  records _ := rfl
  events _ := rfl
  trimmed _ h := absurd rfl h

lemma Coherent.newest (h : Coherent w) (hcur : w.store.records id = some cur) :
    ∃ p l, w.commitsOf id = p :: l ∧ p.snapshot = cur := by
  rw [h.records id] at hcur
  obtain ⟨p, hp, hsnap⟩ := Option.map_eq_some_iff.mp hcur
  obtain ⟨l, hl⟩ := head?_eq_some_iff.mp hp
  exact ⟨p, l, hl, hsnap⟩

/-- The replacement `m` of revision `rev`, should that be current, was made from
the current snapshot by an accepted mutation for which `E` holds. -/
def Derived (E : World → GoString → Mutation → Prop) (w : World) (id : GoString) (rev : UInt64)
    (m : StoreMutation) : Prop :=
  ∀ cur, w.store.records id = some cur → cur.run.revision = rev →
    ∃ now mutation, MutationAccepted cur mutation ∧ m = makeStoreMutation now cur mutation ∧
      E w id mutation

/-- What the Runtimes promise about their calls of the Store. -/
def Guarded (E : World → GoString → Mutation → Prop) (w : World) : StoreOp → Prop
  | .create r events => trimSpace r.run.id = r.run.id ∧ hasReservedApplyEvidence events = false ∧
      ∃ request id now, r = createRecord request id now
  | .apply id rev m => rev ≠ 0 ∧ Derived E w id rev m
  | .applyExecution lease rev m => Derived E w lease.runID rev m
  | .applyControl id rev _ m => Derived E w id rev m
  | _ => True

/-- One commit after the current snapshot continues the story. -/
lemma Coherent.next (h : Coherent w) (hcur : w.store.records id = some cur)
    (hne : cur.run.revision ≠ 0) (hderived : Derived E w id cur.run.revision m)
    (hsnap : c.snapshot = snapshotFromRecord m.record (nextJournal w.store id m).length)
    (hevents : c.events = m.events) : LifeStory id (c :: w.commitsOf id) := by
  obtain ⟨now, mutation, haccepted, rfl, -⟩ := hderived cur hcur rfl
  obtain ⟨p, l, hl, rfl⟩ := h.newest hcur
  have hstory := h.story id
  rw [hl] at hstory ⊢
  refine .next hstory ?_ ?_ ?_
  · rw [hsnap]
    exact ⟨haccepted.active, hne, rfl, rfl, rfl, rfl, rfl, rfl, rfl, rfl, rfl⟩
  · rw [hsnap]
    refine ⟨haccepted.result_iff, ?_, haccepted.pending⟩
    -- the old snapshot was not terminal, so it carried no end
    have hopen : p.snapshot.run.endedAt.isSome = false := by
      rw [Bool.eq_false_iff, Ne, hstory.wellFormed.ended_iff, haccepted.active]
      simp
    show (if mutation.status.terminal then some now else p.snapshot.run.endedAt).isSome = true ↔
      mutation.status.terminal = true
    cases mutation.status.terminal with
    | true => simp
    | false => simp [hopen]
  · rw [hsnap, ← hl]
    show (appendEvents (w.store.events id) _ _).length = (appendEvents _ c.events _).length
    rw [h.events, hevents, hsnap]
    rfl

lemma story_created {request : CreateRequest} {now : Time}
    (hsnap : c.snapshot = snapshotFromRecord (createRecord request id now)
      (appendEvents [] c.events now).length) : LifeStory id [c] := by
  refine .created ?_ ?_ ?_ ?_
  · rw [hsnap]
    rfl
  · rw [hsnap]
    rfl
  · rw [hsnap]
    exact ⟨by simp [snapshotFromRecord, createRecord],
      by simp [snapshotFromRecord, createRecord, RunStatus.terminal],
      by simp [snapshotFromRecord, createRecord]⟩
  · rw [journalOf, hsnap]
    rfl

/-- What a guarded call commits continues the story of its Run. -/
lemma Coherent.commit (h : Coherent w) (hg : Guarded E w op)
    (hs : StoreStep H env w.store op res s') (hc : commitOf op res = some c) :
    LifeStory c.runID (c :: w.commitsOf c.runID) ∧ trimSpace c.runID = c.runID ∧
      (c.created = true → w.commitsOf c.runID = []) := by
  -- a Run that has a record has a trimmed key
  have hkey : ∀ {id cur}, w.store.records id = some cur → trimSpace id = id := by
    intro id _ hcur
    obtain ⟨p, l, hl, -⟩ := h.newest hcur
    exact h.trimmed id (by simp [hl])
  cases hs with
  | create _ _ hnew =>
    cases hc
    obtain ⟨htrim, -, _, id, _, rfl⟩ := hg
    have hempty : w.commitsOf id = [] := by
      rw [h.records, Option.map_eq_none_iff] at hnew
      exact head?_eq_none_iff.mp hnew
    refine ⟨?_, htrim, fun _ => hempty⟩
    show LifeStory id (_ :: w.commitsOf id)
    rw [hempty]
    exact story_created rfl
  | apply _ _ _ _ _ hrec hrev =>
    cases hc
    obtain ⟨hne, hderived⟩ := hg
    subst hrev
    exact ⟨h.next hrec hne hderived rfl rfl, hkey hrec, by simp⟩
  | applyExecution _ _ _ _ _ hne _ _ _ _ hrec _ hrev
  | applyControl _ _ _ _ _ hne hrec hrev =>
    cases hc
    subst hrev
    exact ⟨h.next hrec hne hg rfl rfl, hkey hrec, by simp⟩
  | _ => simp [commitOf] at hc

/-- **Guarded calls keep every story.** -/
theorem Coherent.step (h : Coherent w) (hg : Guarded E w op)
    (hs : StoreStep H env w.store op res s') : Coherent ⟨s', ⟨op, res⟩ :: w.log⟩ := by
  -- Run by Run: either the call commits to it, or nothing about it changes
  have hrun : ∀ id, LifeStory id ((⟨s', ⟨op, res⟩ :: w.log⟩ : World).commitsOf id) ∧
      s'.records id =
        ((⟨s', ⟨op, res⟩ :: w.log⟩ : World).commitsOf id).head?.map Commit.snapshot ∧
      s'.events id = journalOf ((⟨s', ⟨op, res⟩ :: w.log⟩ : World).commitsOf id) ∧
      ((⟨s', ⟨op, res⟩ :: w.log⟩ : World).commitsOf id ≠ [] → trimSpace id = id) := by
    intro id
    rcases commit_or_same op res id with ⟨c, hc, rfl⟩ | hsame
    · obtain ⟨hstory, htrim, hfirst⟩ := h.commit hg hs hc
      rw [World.commitsOf_of_commit hc]
      refine ⟨hstory, hs.records_of_commit hc, ?_, fun _ => htrim⟩
      rw [hs.events_of_commit hc, Commit.journal]
      cases hcreated : c.created with
      | true => rw [hfirst hcreated]; rfl
      | false => rw [h.events]; rfl
    · rw [World.commitsOf_of_ne hsame, hs.records_of_ne hsame, hs.events_of_ne hsame]
      exact ⟨h.story id, h.records id, h.events id, h.trimmed id⟩
  exact ⟨fun id => (hrun id).1, fun id => (hrun id).2.1, fun id => (hrun id).2.2.1,
    fun id => (hrun id).2.2.2⟩

/-! ### What a Runtime knows after reading -/

/-- `snap` is one of the committed snapshots of the Run. -/
def Known (id : GoString) (snap : Snapshot) (w : World) : Prop :=
  ∃ c ∈ w.commitsOf id, c.snapshot = snap

lemma Coherent.known (h : Coherent w) (hcur : w.store.records id = some cur) : Known id cur w := by
  obtain ⟨p, l, hl, rfl⟩ := h.newest hcur
  exact ⟨p, by simp [hl], rfl⟩

/-- A snapshot that was read is still current if its revision is. -/
theorem Known.eq {snap : Snapshot} (hk : Known id snap w) (h : Coherent w)
    (hcur : w.store.records id = some cur) (hrev : cur.run.revision = snap.run.revision) :
    cur = snap := by
  obtain ⟨c, hc, rfl⟩ := hk
  obtain ⟨p, l, hl, rfl⟩ := h.newest hcur
  rw [(h.story id).unique (by simp [hl]) hc hrev]

lemma commitsOf_suffix (w : World) (s : Store) (call : Call) (id : GoString) :
    w.commitsOf id <:+ (⟨s, call :: w.log⟩ : World).commitsOf id := by
  obtain ⟨op, res⟩ := call
  rcases commit_or_same op res id with ⟨c, hc, rfl⟩ | hsame
  · rw [World.commitsOf_of_commit hc]
    exact suffix_cons ..
  · rw [World.commitsOf_of_ne hsame]

end Kernel
