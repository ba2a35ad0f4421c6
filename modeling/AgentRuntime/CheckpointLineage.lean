/-
The lineage of checkpoints.

A checkpoint that an operation returns should be valid, be the previous one or a later
one of the same line, keep the materialized history as a beginning within a generation,
and name artifacts of its own scope and generation only.  The operations keep to that,
except where

* a message cannot be stored: its raw JSON holds a number out of range, or is nested too
  deeply, the window has no hash, and the checkpoint is returned all the same;
* a counter is at its largest value;
* `Open` takes other instructions within a generation, without a rollover;
* `Open` puts entries behind the runtime tail that open or answer calls of the tail;
* `Rollover` takes an artifact of another scope or generation.

Each of these is exactly what stands in the way.

* `Lineage` — what a returned checkpoint should satisfy;
* `instructionsKept_iff`, `bracketsKept_iff` — instructions and brackets over an append;
* **`checkpoint_lineage`** — for each operation, when it does.
-/
import AgentRuntime.ContextManager
import AgentRuntime.WordCounters

namespace ContextWindow

open GoString GoJson Model List

section Lineage

variable (P : Platform)

/-! ### What is promised -/

/-- The ID belongs to an artifact of the request, of this scope and generation. -/
def BelongsTo (artifacts : List Artifact) (scopeID : GoString) (generation : Int64)
    (id : GoString) : Prop :=
  ∃ a ∈ artifacts, ∃ b, normalizeArtifact P a scopeID generation = .ok b ∧ b.id = id ∧
    b.scopeID = scopeID ∧ b.generation = generation

/-- A later revision of the same generation, or a later generation. -/
def Later (previous next : Checkpoint) : Prop :=
  previous.generation < next.generation ∨
    previous.generation = next.generation ∧ previous.revision < next.revision

/-- What a checkpoint should be that was made from another one with these artifacts. -/
structure Lineage (artifacts : List Artifact) (previous next : Checkpoint) : Prop where
  valid : validCheckpoint P next = true
  successor : next = previous ∨ next.parentCheckpointID = previous.id ∧ Later previous next
  stable : next.generation = previous.generation →
    materialize previous.window <+: materialize next.window
  artifacts : ∀ id ∈ next.artifactIDs, id ∈ previous.artifactIDs ∨
    BelongsTo P artifacts next.scopeID next.generation id

/-! ### When it is kept -/

/-- The instructions are the same, or they make no difference: all entries so far are the
system message of the new ones, or, if there are none any more, all entries so far and the
first new one are the system message of the old ones. -/
def InstructionsKept (previous : Checkpoint) (instructions : GoString) (added : List Entry) :
    Prop :=
  trimSpace previous.window.instructions = instructions ∨
    trimSpace previous.window.instructions = [] ∧
      (∀ m ∈ entryMessages previous.window.entries, m = instructionMessage instructions) ∨
    instructions = [] ∧
      (∀ m ∈ entryMessages previous.window.entries,
        m = instructionMessage (trimSpace previous.window.instructions)) ∧
      (entryMessages added).head? =
        some (instructionMessage (trimSpace previous.window.instructions))

/-- The entries are well bracketed by themselves, and open no call of the window again. -/
def BracketsKept (previous : Checkpoint) (added : List Entry) : Prop :=
  Bracketed (materialize previous.window) → Bracketed (entryMessages added) ∧
    ∀ id ∈ callIDs (entryMessages added), id ∉ callIDs (materialize previous.window)

/-- The entries that `Open` puts into the window. -/
def added (previous : Checkpoint) (r : OpenRequest) : List Entry :=
  if r.sourceDelta || r.resetCacheIdentity then r.entries
  else (sourceDelta P previous r).getD r.entries

/-- `Open` starts a new generation. -/
def startsGeneration (previous : Checkpoint) (r : OpenRequest) : Bool :=
  r.resetCacheIdentity || !r.sourceDelta && (sourceDelta P previous r).isNone

/-- `Open` returns the checkpoint that it was given. -/
def keepsCheckpoint (previous : Checkpoint) (r : OpenRequest) : Bool :=
  !r.resetCacheIdentity && if r.sourceDelta then r.sourcePath.isEmpty
    else (sourceDelta P previous r).any (unchanged P previous r)

/-- When `Open` over a checkpoint keeps the lineage. -/
structure OpenMeets (previous : Checkpoint) (r : OpenRequest) : Prop where
  storable : ∀ e ∈ added P previous r, Storable e.message
  generation : startsGeneration P previous r = true → previous.generation < Int64.maxValue
  revision : startsGeneration P previous r = false → keepsCheckpoint P previous r = true ∨
    previous.revision < Int64.maxValue
  instructions : startsGeneration P previous r = false →
    InstructionsKept previous r.instructions (added P previous r)
  brackets : r.sourceDelta = true ∨ startsGeneration P previous r = false →
    BracketsKept previous (added P previous r)

/-- When `Capture` keeps the lineage. -/
structure CaptureMeets (r : CaptureRequest) : Prop where
  storable : ∀ m ∈ r.tail, Storable m
  revision : (r.tail = [] ∧
      captureArtifactIDs P r.previous r.artifacts = .ok r.previous.artifactIDs) ∨
    r.previous.revision < Int64.maxValue

/-- When `Rollover` keeps the lineage. -/
structure RolloverMeets (r : RolloverRequest) : Prop where
  storable : ∀ e ∈ r.window.entries, Storable e.message
  generation : r.previous.generation < Int64.maxValue
  artifacts : ∀ a ∈ r.artifacts, ∀ b,
    normalizeArtifact P a r.previous.scopeID (r.previous.generation + 1) = .ok b →
      b.id ∈ r.previous.artifactIDs ∨
        BelongsTo P r.artifacts r.previous.scopeID (r.previous.generation + 1) b.id

/-- When `BindModelWindow` keeps the lineage. -/
def BindMeets (previous : Checkpoint) (fingerprint : GoString) : Prop :=
  previous.modelWindowFingerprint = trimSpace fingerprint ∨
    (previous.modelWindowFingerprint ≠ [] ∧ previous.generation < Int64.maxValue) ∨
    previous.modelWindowFingerprint = [] ∧ previous.revision < Int64.maxValue

/-! ### Validity -/

/-- Everything that makes a checkpoint valid, but for its counters, its messages and its
ID. -/
structure Framed (c : Checkpoint) : Prop where
  scopeID : blank c.scopeID = false
  cacheIdentity : blank c.cacheIdentity = false
  lineageHash : blank c.lineageHash = false
  coveredThroughSourceID : blank c.coveredThroughSourceID = false
  coveredPathHash : blank c.coveredPathHash = false
  staticFingerprint : blank c.staticFingerprint = false
  entries : c.window.entries ≠ []
  contentHash : c.contentHash = windowHash P c.window

variable {P} {c previous next : Checkpoint} {request r : OpenRequest} {artifacts : List Artifact}
  {s : GoString}

lemma valid_identified (h : Framed P c) :
    validCheckpoint P (c.identified P) = true ↔
      0 < c.generation ∧ 0 < c.revision ∧ ∀ e ∈ c.window.entries, Storable e.message := by
  rw [validCheckpoint_iff]
  constructor
  · intro hvalid
    exact ⟨hvalid.generation, hvalid.revision, hvalid.storable⟩
  rintro ⟨hgeneration, hrevision, hstorable⟩
  exact ⟨h.scopeID, h.cacheIdentity, hgeneration, hrevision, h.lineageHash,
    h.coveredThroughSourceID, h.coveredPathHash, h.staticFingerprint, h.entries, hstorable,
    h.contentHash, rfl⟩

lemma Valid.framed (h : Valid P c) : Framed P c :=
  ⟨h.scopeID, h.cacheIdentity, h.lineageHash, h.coveredThroughSourceID, h.coveredPathHash,
    h.staticFingerprint, h.entries, h.contentHash⟩

lemma blank_trimSpace (h : trimSpace s ≠ []) : blank (trimSpace s) = false := by
  rw [blank, trimSpace_idem]
  exact decide_eq_false h

/-- A path with a source on it has a hash, and so has one behind a covered path. -/
lemma extendLineageHash_not_blank (P : Platform) {previous : GoString} (parts : List GoString)
    (h : blank previous = false ∨ ∃ part ∈ parts, trimSpace part ≠ []) :
    blank (extendLineageHash P previous parts) = false := by
  rw [extendLineageHash]
  have hstart : blank (trimSpace previous) = false ∨ ∃ part ∈ parts, trimSpace part ≠ [] := by
    refine h.imp_left fun hprevious => ?_
    rwa [blank, trimSpace_idem]
  clear h
  revert hstart
  generalize trimSpace previous = current
  induction parts generalizing current with
  | nil =>
    rintro (h | ⟨_, hpart, -⟩)
    · exact h
    · cases hpart
  | cons _ _ ih =>
    intro h
    rw [foldl_cons]
    split
    · rename_i hblank
      refine ih _ ?_
      rcases h with h | ⟨p, hp, hne⟩
      · exact .inl h
      rcases mem_cons.mp hp with rfl | hp
      · exact absurd hblank hne
      · exact .inr ⟨p, hp, hne⟩
    · exact ih _ (.inl (hashBytes_not_blank P _))

lemma mem_normalizeStrings {values : List GoString}
    (h : s ∈ normalizeStrings values) : trimSpace s = s ∧ s ≠ [] := by
  obtain ⟨hmem, hne⟩ := mem_filter.mp h
  obtain ⟨t, -, rfl⟩ := mem_map.mp hmem
  exact ⟨trimSpace_idem t, by simpa using hne⟩

lemma ctxk_not_blank (P : Platform) (values : List GoString) :
    blank (stableID P (lit "ctxk") values) = false :=
  stableID_not_blank P (by decide +kernel) (by decide +kernel) values

variable {entries : List Entry}

/-- The fields of a new checkpoint are in order. -/
lemma framed_checkpointFields (h : normalizeOpenRequest P request = .ok request.normalize)
    (hdelta : request.sourceDelta = false) (hentries : entries ≠ [])
    (generation revision : Int64) (parentID reason : GoString) (appended : ℤ) :
    Framed P (checkpointFields P request.normalize generation revision parentID entries reason
      appended) := by
  obtain ⟨-, hscope, hstatic, -, hpath, -⟩ := normalizeOpenRequest_ok P h
  have hpath := hpath hdelta
  have hmem : ∀ s ∈ request.normalize.sourcePath, trimSpace s = s ∧ s ≠ [] :=
    fun s hs => mem_normalizeStrings hs
  obtain ⟨s, hs⟩ := exists_mem_of_ne_nil _ hpath
  have hlineage : blank (lineageHash P request.normalize.sourcePath) = false := by
    refine extendLineageHash_not_blank P _ (.inr ⟨s, hs, ?_⟩)
    rw [(hmem s hs).1]
    exact (hmem s hs).2
  have hcovered : request.normalize.sourcePath.getLastD [] ∈ request.normalize.sourcePath := by
    rw [getLastD_eq_getLast?, getLast?_eq_some_getLast hpath]
    exact getLast_mem hpath
  refine ⟨blank_trimSpace hscope, ctxk_not_blank P _, hlineage, ?_, hlineage,
    blank_trimSpace hstatic, ?_, rfl⟩
  · show blank (request.normalize.sourcePath.getLastD []) = false
    rw [blank, (hmem _ hcovered).1]
    exact decide_eq_false (hmem _ hcovered).2
  · simpa [checkpointFields, normalizeWindow] using hentries

/-! ### Instructions -/

variable {α : Type*} {xs ys : List α}

lemma prefix_cons_append {b : α} : xs <+: b :: (xs ++ ys) ↔ ∀ x ∈ xs, x = b := by
  induction xs with
  | nil => simp
  | cons _ _ ih =>
    rw [cons_prefix_cons, forall_mem_cons]
    refine and_congr_right fun hx => ?_
    rw [cons_append, hx, ih]

lemma cons_prefix_append {a : α} :
    a :: xs <+: xs ++ ys ↔ (∀ x ∈ xs, x = a) ∧ ys.head? = some a := by
  induction xs with
  | nil =>
    obtain _ | ⟨y, _⟩ := ys
    · simp
    simp only [nil_append, cons_prefix_cons, nil_prefix, and_true,
      head?_cons, Option.some.injEq, not_mem_nil, false_imp_iff, implies_true, true_and]
    exact eq_comm
  | cons _ _ ih =>
    rw [cons_append, cons_prefix_cons, forall_mem_cons, and_assoc]
    constructor
    · rintro ⟨rfl, h⟩
      exact ⟨rfl, ih.mp h⟩
    · rintro ⟨rfl, h⟩
      exact ⟨rfl, ih.mpr h⟩

variable {instructions : GoString}

/-- When the history stays a beginning of what is materialized. -/
theorem instructionsKept_iff
    (htrim : trimSpace instructions = instructions) (entries : List Entry) :
    materialize previous.window <+:
        materialize (normalizeWindow ⟨instructions, previous.window.entries ++ entries⟩) ↔
      InstructionsKept previous instructions entries := by
  rw [materialize_normalizeWindow, materialize, materialize, htrim, entryMessages_append,
    InstructionsKept]
  by_cases hold : trimSpace previous.window.instructions = []
  · by_cases hnew : instructions = []
    · simp [hold, hnew, instructionMessages]
    simp only [instructionMessages, hold, hnew, if_true, if_false, nil_append,
      singleton_append, prefix_cons_append, true_and, false_and, or_false]
    exact ⟨.inr, fun h => h.resolve_left fun heq => hnew heq.symm⟩
  by_cases hnew : instructions = []
  · subst hnew
    simp [instructionMessages, hold, cons_prefix_append]
  simp only [instructionMessages, hold, hnew, if_false, singleton_append,
    cons_prefix_cons, false_and, or_false]
  constructor
  · rintro ⟨h, -⟩
    simp only [instructionMessage, textParts, if_neg hold, if_neg hnew] at h
    simpa using h
  · exact fun h => ⟨by rw [h], prefix_append _ _⟩

/-! ### Brackets -/

lemma bracketed_materialize (w : Window) :
    Bracketed (materialize w) ↔ Bracketed (entryMessages w.entries) := by
  rw [materialize, instructionMessages]
  split
  · rfl
  · exact bracketed_system rfl _

lemma callIDs_materialize (w : Window) :
    callIDs (materialize w) = callIDs (entryMessages w.entries) := by
  rw [materialize, instructionMessages]
  split
  · rfl
  · exact callIDs_system rfl _

/-- When the window stays well bracketed. -/
theorem bracketsKept_iff (instructions : GoString) (entries : List Entry) :
    (Bracketed (materialize previous.window) → Bracketed (materialize
        (normalizeWindow ⟨instructions, previous.window.entries ++ entries⟩))) ↔
      BracketsKept previous entries := by
  rw [BracketsKept, materialize_normalizeWindow, bracketed_materialize ⟨instructions, _⟩,
    bracketed_materialize, callIDs_materialize, entryMessages_append]
  exact imp_congr_right bracketed_append

/-! ### Artifacts -/

lemma mem_dropRepeats : ∀ {ss : List GoString} {s : GoString}, s ∈ dropRepeats ss ↔ s ∈ ss
  | [], s | [t], s => by simp [dropRepeats]
  | t :: u :: ss, s => by
    rw [dropRepeats]
    split
    · rename_i heq
      rw [mem_dropRepeats, heq]
      simp
    · simp [mem_dropRepeats]

lemma mem_joinArtifactIDs {id : GoString} :
    id ∈ joinArtifactIDs previous artifacts ↔
      id ∈ previous.artifactIDs ∨ ∃ a ∈ artifacts, a.id = id := by
  rw [joinArtifactIDs, sortedUniqueStrings, mem_dropRepeats, mem_insertionSort,
    mem_append, mem_map]

/-- The artifacts of a capture, one by one. -/
lemma captureArtifacts_ok : ∀ {artifacts normalized : List Artifact},
    captureArtifacts P previous artifacts = .ok normalized → ∀ b ∈ normalized, ∃ a ∈ artifacts,
      normalizeArtifact P a previous.scopeID previous.generation = .ok b ∧
        b.scopeID = previous.scopeID ∧ b.generation = previous.generation
  | [], _, h, b, hb => by
    rw [← Except.ok.inj h] at hb
    cases hb
  | a :: as, normalized, h, b, hb => by
    rw [captureArtifacts] at h
    split at h
    · cases h
    rename_i hc
    split at h
    · cases h
    rename_i hsame
    simp only [Bool.or_eq_true, decide_eq_true_eq, not_or, ne_eq, not_not] at hsame
    split at h
    · cases h
    rename_i hcs
    rw [← Except.ok.inj h] at hb
    rcases mem_cons.mp hb with rfl | hb
    · exact ⟨a, mem_cons_self, hc, hsame⟩
    · obtain ⟨a', ha', hb⟩ := captureArtifacts_ok hcs b hb
      exact ⟨a', mem_cons_of_mem _ ha', hb⟩

/-- The artifacts of a rollover, one by one. -/
lemma rolloverArtifacts_ok : ∀ {artifacts normalized : List Artifact},
    rolloverArtifacts P previous artifacts = .ok normalized → ∀ b, b ∈ normalized ↔
      ∃ a ∈ artifacts,
        normalizeArtifact P a previous.scopeID (previous.generation + 1) = .ok b
  | [], _, h, b => by
    rw [← Except.ok.inj h]
    simp
  | a :: as, normalized, h, b => by
    rw [rolloverArtifacts] at h
    split at h
    · cases h
    rename_i hc
    split at h
    · cases h
    rename_i hcs
    rw [← Except.ok.inj h, mem_cons, rolloverArtifacts_ok hcs b]
    simp only [mem_cons, exists_eq_or_imp, hc, Except.ok.injEq]
    exact or_congr_left eq_comm

/-! ### Capture -/

lemma runtimeEntries_messages (runID : GoString) (previous : Checkpoint) :
    ∀ (count index : ℕ) (ms : List Message),
      (runtimeEntries P runID previous count index ms).map Entry.message = ms
  | _, _, [] => rfl
  | count, index, m :: ms => by
    rw [runtimeEntries, map_cons, runtimeEntries_messages]
    rfl

lemma Lineage.refl (h : Valid P c) : Lineage P artifacts c c where
  valid := (validCheckpoint_iff P c).mpr h
  successor := .inl rfl
  stable _ := prefix_rfl
  artifacts _ hid := .inl hid

lemma captureArtifactIDs_ok
    {ids : List GoString} (h : captureArtifactIDs P previous artifacts = .ok ids) :
    ∀ id ∈ ids, id ∈ previous.artifactIDs ∨
      BelongsTo P artifacts previous.scopeID previous.generation id := by
  rw [captureArtifactIDs] at h
  split at h
  · cases h
  rename_i hnormalized
  rw [← Except.ok.inj h]
  intro _ hid
  refine (mem_joinArtifactIDs.mp hid).imp_right fun ⟨b, hb, hbid⟩ => ?_
  obtain ⟨a, ha, hab, hscope, hgeneration⟩ := captureArtifacts_ok hnormalized b hb
  exact ⟨a, ha, b, hab, hbid, hscope, hgeneration⟩

/-- The first revision of the next generation. -/
lemma lineage_generation (hvalid : Valid P previous) (hframe : Framed P c)
    (hparent : c.parentCheckpointID = previous.id)
    (hgeneration : c.generation = previous.generation + 1) (hrevision : c.revision = 1) :
    Lineage P artifacts previous (c.identified P) ↔
      previous.generation < Int64.maxValue ∧ (∀ e ∈ c.window.entries, Storable e.message) ∧
        ∀ id ∈ c.artifactIDs, id ∈ previous.artifactIDs ∨
          BelongsTo P artifacts c.scopeID c.generation id := by
  have hiff := valid_identified hframe
  rw [hgeneration, hrevision, WordCounters.signed_add_one_pos hvalid.generation] at hiff
  constructor
  · intro h
    obtain ⟨hsmall, -, hstorable⟩ := hiff.mp h.valid
    exact ⟨hsmall, hstorable, h.artifacts⟩
  rintro ⟨hsmall, hstorable, hartifacts⟩
  refine ⟨hiff.mpr ⟨hsmall, by decide, hstorable⟩, .inr ⟨hparent, .inl ?_⟩, fun hsame => ?_,
    hartifacts⟩
  · show previous.generation < c.generation
    rw [hgeneration]
    exact WordCounters.signed_lt_add_one hsmall
  · exact absurd (hgeneration.symm.trans hsame) (WordCounters.signed_add_one_ne _)

/-- The next revision of the generation. -/
lemma lineage_revision (hvalid : Valid P previous) (hframe : Framed P c)
    (hparent : c.parentCheckpointID = previous.id)
    (hgeneration : c.generation = previous.generation)
    (hrevision : c.revision = previous.revision + 1)
    (hartifacts : ∀ id ∈ c.artifactIDs, id ∈ previous.artifactIDs ∨
      BelongsTo P artifacts c.scopeID c.generation id) :
    Lineage P artifacts previous (c.identified P) ↔
      previous.revision < Int64.maxValue ∧ (∀ e ∈ c.window.entries, Storable e.message) ∧
        materialize previous.window <+: materialize c.window := by
  have hiff := valid_identified hframe
  rw [hgeneration, hrevision, WordCounters.signed_add_one_pos hvalid.revision] at hiff
  constructor
  · intro h
    obtain ⟨-, hsmall, hstorable⟩ := hiff.mp h.valid
    exact ⟨hsmall, hstorable, h.stable hgeneration⟩
  rintro ⟨hsmall, hstorable, hstable⟩
  refine ⟨hiff.mpr ⟨hvalid.generation, hsmall, hstorable⟩,
    .inr ⟨hparent, .inr ⟨hgeneration.symm, ?_⟩⟩, fun _ => hstable, hartifacts⟩
  show previous.revision < c.revision
  rw [hrevision]
  exact WordCounters.signed_lt_add_one hsmall

lemma capture_lineage {r : CaptureRequest} (h : capture P r = .ok next) :
    Lineage P r.artifacts r.previous next ↔ CaptureMeets P r := by
  obtain ⟨hvalid, -, -, -, hcaptured⟩ := capture_cases P h
  have hframe := hvalid.framed
  cases hcaptured with
  | kept htail hids =>
    exact ⟨fun _ => ⟨by simp [htail], .inl ⟨htail, hids⟩⟩, fun _ => .refl hvalid⟩
  | artifacts htail hids hnew =>
    refine Iff.trans (lineage_revision hvalid ?_ rfl rfl rfl (captureArtifactIDs_ok hids)) ?_
    · exact { hframe with }
    constructor
    · exact fun h => ⟨by simp [htail], .inr h.1⟩
    rintro ⟨-, ⟨-, hsame⟩ | hrevision⟩
    · exact absurd (Except.ok.inj (hids.symm.trans hsame)) hnew
    · exact ⟨hrevision, hvalid.storable, prefix_rfl⟩
  | tail htail hids =>
    have hstorable : (∀ m ∈ r.tail, Storable m) ↔ ∀ e ∈ runtimeEntries P r.runID r.previous
        r.previous.window.entries.length 0 r.tail, Storable e.message := by
      rw [← forall_mem_map (f := Entry.message), runtimeEntries_messages]
    have hentries : r.previous.window.entries ++ runtimeEntries P r.runID r.previous
        r.previous.window.entries.length 0 r.tail ≠ [] :=
      fun hnil => hframe.entries (append_eq_nil_iff.mp hnil).1
    refine Iff.trans (lineage_revision hvalid ?_ rfl rfl rfl (captureArtifactIDs_ok hids)) ?_
    · exact { hframe with entries := hentries, contentHash := rfl }
    constructor
    · intro h
      exact ⟨hstorable.mpr (forall_mem_append.mp h.2.1).2, .inr h.1⟩
    rintro ⟨htailStorable, ⟨hnil, -⟩ | hrevision⟩
    · exact absurd hnil htail
    refine ⟨hrevision, forall_mem_append.mpr ⟨hvalid.storable,
      hstorable.mp htailStorable⟩, ?_⟩
    -- the tail stands behind the entries that were there
    show materialize r.previous.window <+: materialize ⟨r.previous.window.instructions,
      r.previous.window.entries ++ _⟩
    rw [materialize, materialize, entryMessages_append, ← append_assoc]
    exact prefix_append _ _

/-! ### Rollover -/

lemma rollover_lineage {r : RolloverRequest} (h : rollover P r = .ok next) :
    Lineage P r.artifacts r.previous next ↔ RolloverMeets P r := by
  obtain ⟨hvalid, hentries, _, hartifacts, rfl⟩ := rollover_cases P h
  have hframe := hvalid.framed
  have hnonempty : (normalizeWindow r.window).entries ≠ [] := by
    simpa [normalizeWindow] using hentries
  have hstorable : (∀ e ∈ (normalizeWindow r.window).entries, Storable e.message) ↔
      ∀ e ∈ r.window.entries, Storable e.message := by
    simp [normalizeWindow, storable_normalizeEntry]
  refine Iff.trans (lineage_generation hvalid ?_ rfl rfl rfl) ?_
  · exact { hframe with entries := hnonempty, contentHash := rfl }
  constructor
  · rintro ⟨hgeneration, hentries, hids⟩
    refine ⟨hstorable.mp hentries, hgeneration, fun a ha b hab => ?_⟩
    refine hids b.id (mem_joinArtifactIDs.mpr (.inr ⟨b, ?_, rfl⟩))
    exact (rolloverArtifacts_ok hartifacts b).mpr ⟨a, ha, hab⟩
  rintro ⟨hentries, hgeneration, hbelong⟩
  refine ⟨hgeneration, hstorable.mpr hentries, fun id hid => ?_⟩
  rcases mem_joinArtifactIDs.mp hid with hid | ⟨b, hb, rfl⟩
  · exact .inl hid
  obtain ⟨a, ha, hab⟩ := (rolloverArtifacts_ok hartifacts b).mp hb
  exact hbelong a ha b hab

lemma bindModelWindow_lineage {fingerprint : GoString}
    (h : bindModelWindow P previous fingerprint = .ok next) :
    Lineage P [] previous next ↔ BindMeets previous fingerprint := by
  obtain ⟨hvalid, hcases⟩ := bindModelWindow_cases P h
  have hframe := hvalid.framed
  rcases hcases with ⟨hsame, rfl⟩ | ⟨hother, hbound, hrollover⟩ | ⟨hother, hunbound, rfl⟩
  · exact ⟨fun _ => .inl hsame, fun _ => .refl hvalid⟩
  · refine (rollover_lineage hrollover).trans ?_
    constructor
    · exact fun h => .inr (.inl ⟨hbound, h.generation⟩)
    rintro (hsame | ⟨-, hgeneration⟩ | ⟨hunbound, -⟩)
    · exact absurd hsame hother
    · exact ⟨hvalid.storable, hgeneration, by simp [rebindRequest]⟩
    · exact absurd hunbound hbound
  · refine Iff.trans (lineage_revision hvalid ?_ rfl rfl rfl fun _ => .inl) ?_
    · exact { hframe with }
    constructor
    · exact fun h => .inr (.inr ⟨hunbound, h.1⟩)
    rintro (hsame | ⟨hbound, -⟩ | ⟨-, hrevision⟩)
    · exact absurd hsame hother
    · exact absurd hunbound hbound
    · exact ⟨hrevision, hvalid.storable, prefix_rfl⟩

/-! ### Open -/

lemma storable_append (instructions : GoString) (xs ys : List Entry) :
    (∀ e ∈ (normalizeWindow ⟨instructions, xs ++ ys⟩).entries, Storable e.message) ↔
      (∀ e ∈ xs, Storable e.message) ∧ ∀ e ∈ ys, Storable e.message := by
  simp only [normalizeWindow, forall_mem_map, storable_normalizeEntry,
    forall_mem_append]

lemma entryMessages_normal (r : OpenRequest) :
    entryMessages r.normalize.entries = r.normalize.entries.map Entry.message := by
  simp [entryMessages, OpenRequest.normalize]

lemma openMeets_iff :
    OpenMeets P previous r ↔
      (∀ e ∈ added P previous r, Storable e.message) ∧
        (startsGeneration P previous r = true → previous.generation < Int64.maxValue) ∧
        (startsGeneration P previous r = false → keepsCheckpoint P previous r = true ∨
          previous.revision < Int64.maxValue) ∧
        (startsGeneration P previous r = false →
          InstructionsKept previous r.instructions (added P previous r)) ∧
        (r.sourceDelta = true ∨ startsGeneration P previous r = false →
          BracketsKept previous (added P previous r)) :=
  ⟨fun h => ⟨h.storable, h.generation, h.revision, h.instructions, h.brackets⟩,
    fun h => ⟨h.1, h.2.1, h.2.2.1, h.2.2.2.1, h.2.2.2.2⟩⟩

/-- Nothing is added, and the instructions are the same. -/
lemma openMeets_of_kept
    (hadded : added P previous r = []) (hgeneration : startsGeneration P previous r = false)
    (hkeeps : keepsCheckpoint P previous r = true)
    (hinstructions : trimSpace previous.window.instructions = r.instructions) :
    OpenMeets P previous r where
  storable := by simp [hadded]
  generation h := by rw [hgeneration] at h; cases h
  revision _ := .inl hkeeps
  instructions _ := .inl hinstructions
  brackets _ _ := by
    rw [hadded]
    exact ⟨by decide, by simp [entryMessages, callIDs]⟩

lemma framed_extendSource (hvalid : Valid P previous) (request : OpenRequest) :
    Framed P (extendSource P previous request.normalize) := by
  have hlineage := extendLineageHash_not_blank P request.normalize.sourcePath
    (.inl hvalid.coveredPathHash)
  refine ⟨hvalid.scopeID, ?_, hlineage, ?_, hlineage, hvalid.staticFingerprint, ?_, rfl⟩
  · show blank (if request.resetCacheIdentity then _ else previous.cacheIdentity) = false
    split
    · exact ctxk_not_blank P _
    · exact hvalid.cacheIdentity
  · show blank (request.normalize.sourcePath.getLastD previous.coveredThroughSourceID) = false
    rw [getLastD_eq_getLast?]
    rcases hlast : request.normalize.sourcePath.getLast? with _ | s
    · exact hvalid.coveredThroughSourceID
    obtain ⟨htrim, hne⟩ := mem_normalizeStrings (mem_of_getLast? hlast)
    rw [Option.getD_some, blank, htrim]
    exact decide_eq_false hne
  · simp [extendSource, Checkpoint.identified, normalizeWindow, hvalid.entries]

/-- The next revision, with more entries behind those of the window. -/
lemma lineage_extended (htrim : trimSpace instructions = instructions)
    (hvalid : Valid P previous) (hframe : Framed P c)
    (hwindow : c.window = normalizeWindow ⟨instructions, previous.window.entries ++ entries⟩)
    (hparent : c.parentCheckpointID = previous.id)
    (hgeneration : c.generation = previous.generation)
    (hrevision : c.revision = previous.revision + 1)
    (hartifacts : c.artifactIDs = previous.artifactIDs) : Lineage P [] previous (c.identified P) ↔
      previous.revision < Int64.maxValue ∧ (∀ e ∈ entries, Storable e.message) ∧
        InstructionsKept previous instructions entries := by
  have hids : ∀ id ∈ c.artifactIDs, id ∈ previous.artifactIDs ∨
      BelongsTo P [] c.scopeID c.generation id := by
    rw [hartifacts]
    exact fun id => .inl
  rw [lineage_revision hvalid hframe hparent hgeneration hrevision hids, hwindow, storable_append,
    instructionsKept_iff htrim]
  refine and_congr_right fun _ => and_congr_left fun _ => ?_
  exact ⟨And.right, fun h => ⟨hvalid.storable, h⟩⟩

lemma extendSource_generation (hvalid : Valid P previous)
    (hreset : request.normalize.resetCacheIdentity = true) :
    Lineage P [] previous (extendSource P previous request.normalize) ↔
      previous.generation < Int64.maxValue ∧
        ∀ e ∈ request.normalize.entries, Storable e.message := by
  have hframe := framed_extendSource hvalid request
  refine Iff.trans (lineage_generation hvalid { hframe with } rfl (if_pos hreset)
    (if_pos hreset)) ?_
  refine and_congr_right fun _ => ?_
  rw [storable_append]
  exact ⟨fun h => h.1.2, fun h => ⟨⟨hvalid.storable, h⟩, fun _ => .inl⟩⟩

lemma extendSource_revision (hvalid : Valid P previous)
    (hreset : request.normalize.resetCacheIdentity = false) :
    Lineage P [] previous (extendSource P previous request.normalize) ↔
      previous.revision < Int64.maxValue ∧
        (∀ e ∈ request.normalize.entries, Storable e.message) ∧
        InstructionsKept previous request.normalize.instructions request.normalize.entries := by
  have hframe := framed_extendSource hvalid request
  have hfalse : ¬ request.normalize.resetCacheIdentity = true := by simp [hreset]
  exact lineage_extended (trimSpace_idem _) hvalid { hframe with } rfl rfl (if_neg hfalse)
    (if_neg hfalse) rfl

lemma trimSpace_id (h : Valid P c) : trimSpace c.id = c.id := by
  rw [h.id]
  exact trimSpace_stableID P ctxc_graphic _

lemma entries_ne_nil (hr : normalizeOpenRequest P request = .ok request.normalize)
    (hdelta : request.sourceDelta = false) : request.normalize.entries ≠ [] := by
  obtain ⟨-, -, -, hlength, hpath, -⟩ := normalizeOpenRequest_ok P hr
  rw [← length_pos_iff, ← hlength, length_pos_iff]
  exact hpath hdelta

section Open

variable (hr : normalizeOpenRequest P request = .ok request.normalize) (hvalid : Valid P previous)

include hr hvalid

lemma openReset_lineage (hdelta : request.sourceDelta = false) :
    Lineage P [] previous (openReset P previous request.normalize) ↔
      previous.generation < Int64.maxValue ∧
        ∀ e ∈ request.normalize.entries, Storable e.message := by
  have hframe := framed_checkpointFields hr hdelta (entries_ne_nil hr hdelta)
    (previous.generation + 1) 1 previous.id (lit "lineage_reset") 0
  refine Iff.trans (lineage_generation hvalid ?_ (trimSpace_id hvalid) rfl rfl) ?_
  · exact { hframe with cacheIdentity := ctxk_not_blank P _ }
  refine and_congr_right fun _ => ?_
  have hstorable := storable_append request.normalize.instructions []
    request.normalize.entries
  refine ⟨fun h => (hstorable.mp h.1).2, fun h => ⟨hstorable.mpr ⟨by simp, h⟩, fun id hid => ?_⟩⟩
  exact absurd hid not_mem_nil

lemma openAppend_lineage (hdelta : request.sourceDelta = false) (delta : List Entry) :
    Lineage P [] previous (openAppend P previous request.normalize delta) ↔
      previous.revision < Int64.maxValue ∧ (∀ e ∈ delta, Storable e.message) ∧
        InstructionsKept previous request.normalize.instructions delta := by
  have hentries : previous.window.entries ++ delta ≠ [] := by simp [hvalid.entries]
  have hframe := framed_checkpointFields hr hdelta hentries previous.generation
    (previous.revision + 1) previous.id (lit "append_source_delta") delta.length
  refine lineage_extended (trimSpace_idem _) hvalid ?_ rfl (trimSpace_id hvalid) rfl rfl rfl
  exact { hframe with cacheIdentity := hvalid.cacheIdentity }

/-- **When `Open` over a checkpoint keeps the lineage and the brackets.** -/
theorem openOver_lineage (h : Opened P previous request.normalize next) :
    (Lineage P [] previous next ∧
        (Bracketed (materialize previous.window) → Bracketed (materialize next.window))) ↔
      OpenMeets P previous request.normalize := by
  set r := request.normalize
  obtain ⟨-, -, -, hlength, -, _⟩ := normalizeOpenRequest_ok P hr
  have htrim : trimSpace r.instructions = r.instructions :=
    trimSpace_idem _
  cases h with
  | keptDelta hdelta hpath hreset hinstructions =>
    have hentries : r.entries = [] := by
      rw [hpath] at hlength
      exact length_eq_zero_iff.mp hlength.symm
    refine ⟨fun _ => openMeets_of_kept ?_ ?_ ?_ ?_, fun _ => ⟨.refl hvalid, fun h => h⟩⟩
    · simp [added, hdelta, hentries]
    · simp [startsGeneration, hreset, hdelta]
    · simp [keepsCheckpoint, hreset, hdelta, hpath]
    · rw [hinstructions, htrim]
  | kept hdelta hreset hsource hunchanged =>
    have hparts := hunchanged
    simp only [unchanged, Bool.and_eq_true, decide_eq_true_eq, List.isEmpty_iff] at hparts
    refine ⟨fun _ => openMeets_of_kept ?_ ?_ ?_ ?_, fun _ => ⟨.refl hvalid, fun h => h⟩⟩
    · simp [added, hdelta, hreset, hsource, hparts.1.1.1]
    · simp [startsGeneration, hreset, hdelta, hsource]
    · simp [keepsCheckpoint, hreset, hdelta, hsource, hunchanged]
    · rw [← hparts.1.1.2, htrim]
  | extended hdelta hnew =>
    have hadded : added P previous r = r.entries := by
      simp [added, hdelta]
    have hstarts : startsGeneration P previous r =
        r.resetCacheIdentity := by
      simp [startsGeneration, hdelta]
    have hbrackets : (Bracketed (materialize previous.window) →
        Bracketed (materialize (extendSource P previous r).window)) ↔
          BracketsKept previous r.entries :=
      bracketsKept_iff _ _
    rw [hbrackets, openMeets_iff, hadded, hstarts]
    cases hreset : r.resetCacheIdentity with
    | true =>
      rw [extendSource_generation hvalid hreset]
      simp only [hdelta, true_imp_iff, true_or, reduceCtorEq, false_imp_iff, true_and]
      rw [and_assoc, and_left_comm]
    | false =>
      have hkeeps : keepsCheckpoint P previous r = false := by
        have hpath : r.sourcePath ≠ [] := hnew.resolve_right (by simp [hreset])
        simp [keepsCheckpoint, hdelta, hreset, hpath]
      rw [extendSource_revision hvalid hreset]
      simp only [hdelta, hkeeps, true_imp_iff, true_or, reduceCtorEq, false_imp_iff, true_and,
        false_or]
      rw [and_assoc, and_assoc, and_left_comm]
  | reset hdelta hreset =>
    have hadded : added P previous r = r.entries := by
      rcases hreset with hreset | hsource
      · simp [added, hreset]
      · simp [added, hdelta, hsource]
    have hstarts : startsGeneration P previous r = true := by
      rcases hreset with hreset | hsource
      · simp [startsGeneration, hreset]
      · simp [startsGeneration, hdelta, hsource]
    have hbrackets : Bracketed (materialize (openReset P previous r).window) := by
      show Bracketed (materialize (normalizeWindow ⟨_, r.entries⟩))
      rwa [materialize_normalizeWindow, bracketed_materialize, entryMessages_normal]
    rw [openReset_lineage hr hvalid hdelta, openMeets_iff, hadded, hstarts]
    simp only [hdelta, hbrackets, true_imp_iff, or_self, reduceCtorEq, false_imp_iff, implies_true,
      and_true]
    exact and_comm
  | appended hdelta hreset hsource hchanged =>
    rename_i delta
    have hadded : added P previous r = delta := by
      simp [added, hdelta, hreset, hsource]
    have hstarts : startsGeneration P previous r = false := by
      simp [startsGeneration, hreset, hsource]
    have hkeeps : keepsCheckpoint P previous r = false := by
      simp [keepsCheckpoint, hdelta, hreset, hsource, hchanged]
    have hbrackets : (Bracketed (materialize previous.window) →
        Bracketed (materialize (openAppend P previous r delta).window)) ↔
          BracketsKept previous delta :=
      bracketsKept_iff _ _
    rw [hbrackets, openAppend_lineage hr hvalid hdelta, openMeets_iff, hadded, hstarts, hkeeps]
    simp only [true_imp_iff, or_true, reduceCtorEq, false_imp_iff, true_and, false_or]
    rw [and_assoc, and_assoc, and_left_comm]

end Open

/-- A first checkpoint is valid if its messages can be stored, and it is well bracketed. -/
lemma openFresh_lineage (hr : normalizeOpenRequest P request = .ok request.normalize)
    (hdelta : request.sourceDelta = false) (reason : GoString) :
    (validCheckpoint P (newCheckpoint P request.normalize 1 1 [] request.normalize.entries
        reason 0) = true ↔ ∀ e ∈ request.normalize.entries, Storable e.message) ∧
      Bracketed (materialize (newCheckpoint P request.normalize 1 1 []
        request.normalize.entries reason 0).window) := by
  obtain ⟨-, -, -, -, -, _⟩ := normalizeOpenRequest_ok P hr
  constructor
  · refine Iff.trans (valid_identified (framed_checkpointFields hr hdelta
      (entries_ne_nil hr hdelta) 1 1 [] reason 0)) ?_
    have hstorable := storable_append request.normalize.instructions []
      request.normalize.entries
    have hone : (0 : Int64) < 1 := by decide
    exact ⟨fun h => (hstorable.mp h.2.2).2, fun h => ⟨hone, hone, hstorable.mpr ⟨by simp, h⟩⟩⟩
  · show Bracketed (materialize (normalizeWindow ⟨_, request.normalize.entries⟩))
    rwa [materialize_normalizeWindow, bracketed_materialize, entryMessages_normal]

end Lineage

/-! ### All operations -/

/-- **When the lineage of checkpoints is kept**, by each of the four operations. -/
theorem checkpoint_lineage (P : Platform) :
    (∀ request next, openCheckpoint P request = .ok next →
      (request.previous = none →
        (validCheckpoint P next = true ↔ ∀ e ∈ request.normalize.entries, Storable e.message) ∧
          Bracketed (materialize next.window)) ∧
      ∀ previous, request.previous = some previous →
        ((Lineage P [] previous next ∧
            (Bracketed (materialize previous.window) → Bracketed (materialize next.window))) ↔
          OpenMeets P previous request.normalize)) ∧
    (∀ request next, capture P request = .ok next →
      (Lineage P request.artifacts request.previous next ↔ CaptureMeets P request)) ∧
    (∀ request next, rollover P request = .ok next →
      (Lineage P request.artifacts request.previous next ↔ RolloverMeets P request)) ∧
    ∀ previous fingerprint next, bindModelWindow P previous fingerprint = .ok next →
      (Lineage P [] previous next ↔ BindMeets previous fingerprint) := by
  refine ⟨fun request next h => ?_, fun _ _ => capture_lineage, fun _ _ => rollover_lineage,
    fun _ _ _ => bindModelWindow_lineage⟩
  obtain ⟨hr, ⟨_, hprevious, hvalid, hopened⟩ | ⟨hnone, hdelta, rfl⟩⟩ :=
    openCheckpoint_cases P h
  · rw [hprevious]
    refine ⟨fun hnone => (nomatch hnone), fun p hp => ?_⟩
    rw [← Option.some.inj hp]
    exact openOver_lineage hr hvalid hopened
  · rw [hnone]
    exact ⟨fun _ => openFresh_lineage hr hdelta _, fun p hp => (nomatch hp)⟩

/-! ### A number out of range -/

/-- Some fingerprints, for examples. -/
def samplePlatform : Platform where
  sha256 s := s.sum :: (s.reverse ++ List.replicate 31 0).take 31
  sha256_length s := by simp
  acceptsURL _ := true

/-- A request with one text of the user. -/
def greetingRequest : OpenRequest where
  scopeID := lit "scope"
  staticFingerprint := lit "static"
  sourcePath := [lit "source"]
  entries := [{
    id := lit "entry"
    sourceID := lit "source"
    message := { role := roleUser, content := textParts (lit "hello") } }]

/-- Its checkpoint. -/
def greeting : Checkpoint :=
  newCheckpoint samplePlatform greetingRequest.normalize 1 1 [] greetingRequest.normalize.entries
    (lit "open") 0

/-- An assistant answers with a replay payload. -/
def answerRequest (data : GoString) : CaptureRequest where
  previous := greeting
  staticFingerprint := lit "static"
  runID := lit "run"
  messages := materialize greeting.window ++
    [{ role := roleAssistant, providerReplay := some ⟨lit "p", lit "f", data⟩ }]

/-- A second text of the user after the greeting. -/
def secondEntry : Entry where
  id := lit "entry2"
  sourceID := lit "source2"
  message := { role := roleUser, content := textParts (lit "again") }

def againRequest : OpenRequest :=
  { greetingRequest with
    sourcePath := [lit "source", lit "source2"]
    entries := greetingRequest.entries ++ [secondEntry]
    previous := some greeting }

lemma openMeets_again : OpenMeets samplePlatform greeting againRequest.normalize := by
  have hadded : added samplePlatform greeting againRequest.normalize = [secondEntry] := by
    decide +kernel
  have hsame : startsGeneration samplePlatform greeting againRequest.normalize = false := by
    decide +kernel
  refine ⟨?_, fun h => ?_, fun _ => .inr (by decide +kernel), fun _ => .inl (by decide +kernel),
    fun _ _ => ?_⟩
  · rw [hadded]
    simp [secondEntry, Storable]
  · rw [hsame] at h
    cases h
  · rw [hadded]
    decide +kernel

lemma captureMeets_answer : CaptureMeets samplePlatform (answerRequest (lit "7")) := by
  refine ⟨?_, .inr (by decide +kernel)⟩
  have htail : (answerRequest (lit "7")).tail =
      [{ role := roleAssistant, providerReplay := some ⟨lit "p", lit "f", lit "7"⟩ }] := by
    decide +kernel
  have hread : readRaw (lit "7") = some (.number (lit "7")) := rfl
  have hrange : InRange (.number (lit "7")) := by
    rw [InRange]
    decide +kernel
  rw [htail, forall_mem_singleton]
  refine ⟨forall_mem_nil _, ?_⟩
  rintro _ ⟨⟩
  exact ⟨_, hread, (readRaw_sound hread).1, hrange⟩

/-- A first `Open`, an `Open` over its checkpoint and a `Capture` over it. -/
theorem checkpoint_lineage_greeting :
    (openCheckpoint samplePlatform greetingRequest = .ok greeting ∧
      validCheckpoint samplePlatform greeting = true) ∧
    (∃ next, openCheckpoint samplePlatform againRequest = .ok next ∧
      Lineage samplePlatform [] greeting next) ∧
    ∃ next, capture samplePlatform (answerRequest (lit "7")) = .ok next ∧
      Lineage samplePlatform [] greeting next := by
  obtain ⟨hopens, hcaptures, -⟩ := checkpoint_lineage samplePlatform
  refine ⟨?_, ?_, ?_⟩
  · have hopen : openCheckpoint samplePlatform greetingRequest = .ok greeting := by decide +kernel
    have hstorable : ∀ e ∈ greetingRequest.normalize.entries, Storable e.message := by
      simp [greetingRequest, OpenRequest.normalize, normalizeEntry, Storable]
    exact ⟨hopen, ((hopens greetingRequest greeting hopen).1 rfl).1.mpr hstorable⟩
  · have hok : (openCheckpoint samplePlatform againRequest).toOption.isSome = true := by decide +kernel
    obtain ⟨next, hnext⟩ : ∃ next, openCheckpoint samplePlatform againRequest = .ok next := by
      cases h : openCheckpoint samplePlatform againRequest with
      | error => rw [h] at hok; cases hok
      | ok next => exact ⟨next, rfl⟩
    exact ⟨next, hnext, (((hopens againRequest next hnext).2 greeting rfl).mpr openMeets_again).1⟩
  · have hcapture : capture samplePlatform (answerRequest (lit "7")) =
        .ok (captureTail samplePlatform (answerRequest (lit "7")) []) := by decide +kernel
    exact ⟨_, hcapture, (hcaptures _ _ hcapture).mpr captureMeets_answer⟩

/-- `1e400` is valid JSON; the checkpoint over it is returned, and is not valid. -/
theorem capture_out_of_range :
    validCheckpoint samplePlatform greeting = true ∧
      ∃ next, capture samplePlatform (answerRequest (lit "1e400")) = .ok next ∧
        validCheckpoint samplePlatform next = false :=
  ⟨by decide +kernel, captureTail samplePlatform (answerRequest (lit "1e400")) [],
    by decide +kernel, by decide +kernel⟩

end ContextWindow
