/-
The operations on context windows.

`Open` puts a durable host transcript onto the active window, `Capture` seals a model
request that extends it, `Rollover` rewrites it in a new generation, and
`BindModelWindow` records the window of the routed model.  None of them changes a
checkpoint; each returns the one it was given or a successor of it.
-/
import AgentRuntime.ContextWindow

namespace ContextWindow

open GoString GoJson Model

/-! ### Requests -/

structure OpenRequest where
  scopeID : GoString
  staticFingerprint : GoString
  sourcePath : List GoString
  entries : List Entry
  instructions : GoString := []
  sourceDelta : Bool := false
  resetCacheIdentity : Bool := false
  previous : Option Checkpoint := none
  deriving DecidableEq

structure CaptureRequest where
  previous : Checkpoint
  staticFingerprint : GoString
  runID : GoString
  messages : List Message
  artifacts : List Artifact := []
  assessment : Option Assessment := none
  deriving DecidableEq

structure RolloverRequest where
  previous : Checkpoint
  window : Window
  artifacts : List Artifact := []
  reason : GoString
  modelWindowFingerprint : GoString := []
  assessment : Option Assessment := none
  deriving DecidableEq

/-! ### Normalization of an open request -/

def Entry.canonicalUTF8 (e : Entry) : Bool :=
  [e.id, e.turnID, e.sourceID].all validUTF8 && e.message.canonicalUTF8

def Checkpoint.strings (c : Checkpoint) : List GoString :=
  [c.id, c.scopeID, c.cacheIdentity, c.parentCheckpointID, c.lineageHash,
    c.coveredThroughSourceID, c.coveredPathHash, c.staticFingerprint, c.modelWindowFingerprint,
    c.contentHash, c.window.instructions, c.trace.reason] ++ c.artifactIDs ++
    (c.trace.lastAssessment.map Assessment.tokenCountSource).toList

def Checkpoint.canonicalUTF8 (c : Checkpoint) : Bool :=
  c.strings.all validUTF8 && c.window.entries.all Entry.canonicalUTF8

/-- `jsoncontract.ValidateCanonicalUTF8` of a request, with the checkpoint in it. -/
def OpenRequest.canonicalUTF8 (r : OpenRequest) : Bool :=
  ([r.scopeID, r.staticFingerprint, r.instructions] ++ r.sourcePath).all validUTF8 &&
    r.entries.all Entry.canonicalUTF8 && r.previous.all Checkpoint.canonicalUTF8

def normalizeStrings (values : List GoString) : List GoString :=
  (values.map trimSpace).filter (· ≠ [])

def OpenRequest.normalize (r : OpenRequest) : OpenRequest :=
  { r with
    scopeID := trimSpace r.scopeID
    staticFingerprint := trimSpace r.staticFingerprint
    instructions := trimSpace r.instructions
    sourcePath := normalizeStrings r.sourcePath
    entries := r.entries.map normalizeEntry }

def validSourceEntries (P : Platform) (sourcePath : List GoString) (entries : List Entry) : Bool :=
  sourcePath.length = entries.length &&
    ((sourcePath.zip entries).all fun p =>
      p.1 ≠ [] && p.2.sourceID = p.1 && p.2.id ≠ [] && validMessage P p.2.message) &&
    decide sourcePath.Nodup && validToolTranscriptMessages (entries.map Entry.message)

def normalizeOpenRequest (P : Platform) (r : OpenRequest) : Except Failure OpenRequest :=
  let n := r.normalize
  if !r.canonicalUTF8 then .error .invalidInput
  else if n.scopeID = [] || n.staticFingerprint = [] ||
      n.sourcePath.length ≠ n.entries.length then .error .invalidInput
  else if !n.sourceDelta && (n.sourcePath.isEmpty || n.entries.isEmpty) then .error .invalidInput
  else if n.sourceDelta && n.previous.isNone then .error .invalidInput
  else if !validSourceEntries P n.sourcePath n.entries then .error .invalidInput
  else .ok n

/-! ### Open -/

section Operations

variable (P : Platform) {next previous : Checkpoint} {request r : OpenRequest}

/-- The checkpoint with its own ID. -/
def Checkpoint.identified (c : Checkpoint) : Checkpoint := { c with id := checkpointID P c }

/-- The entries behind the covered source, if the checkpoint covers a beginning of the
path. -/
def sourceDelta (previous : Checkpoint) (r : OpenRequest) : Option (List Entry) :=
  if previous.scopeID ≠ r.scopeID || previous.staticFingerprint ≠ r.staticFingerprint then none
  else match r.sourcePath.findIdx? (· = previous.coveredThroughSourceID) with
    | none => none
    | some covered =>
      if lineageHash P (r.sourcePath.take (covered + 1)) ≠ previous.coveredPathHash then none
      else some (r.entries.drop (covered + 1))

/-- The fields that `newCheckpoint` fills, before the ID. -/
def checkpointFields (r : OpenRequest) (generation revision : Int64) (parentID : GoString)
    (entries : List Entry) (reason : GoString) (appended : ℤ) : Checkpoint where
  scopeID := r.scopeID
  cacheIdentity :=
    stableID P (lit "ctxk") [r.scopeID, r.staticFingerprint, lineageHash P r.sourcePath]
  generation := generation
  revision := revision
  parentCheckpointID := trimSpace parentID
  lineageHash := lineageHash P r.sourcePath
  coveredThroughSourceID := r.sourcePath.getLastD []
  coveredPathHash := lineageHash P r.sourcePath
  staticFingerprint := r.staticFingerprint
  contentHash := windowHash P (normalizeWindow ⟨r.instructions, entries⟩)
  window := normalizeWindow ⟨r.instructions, entries⟩
  trace := {
    reason := reason
    sourceEntryCount := r.sourcePath.length
    activeEntryCount := entries.length
    appendedEntryCount := appended }

def newCheckpoint (r : OpenRequest) (generation revision : Int64) (parentID : GoString)
    (entries : List Entry) (reason : GoString) (appended : ℤ) : Checkpoint :=
  (checkpointFields P r generation revision parentID entries reason appended).identified P

def resetCacheIdentity (previous : Checkpoint) (staticFingerprint lineageHash : GoString)
    (generation : Int64) : GoString :=
  stableID P (lit "ctxk") [previous.scopeID, trimSpace staticFingerprint, trimSpace lineageHash,
    previous.cacheIdentity, itoa generation]

/-- A new generation over the request's own entries. -/
def openReset (previous : Checkpoint) (r : OpenRequest) : Checkpoint :=
  let next := newCheckpoint P r (previous.generation + 1) 1 previous.id r.entries
    (lit "lineage_reset") 0
  let cacheIdentity :=
    resetCacheIdentity P previous next.staticFingerprint next.lineageHash next.generation
  { next with cacheIdentity := cacheIdentity }.identified P

/-- The next revision, with the entries that the previous one does not cover. -/
def openAppend (previous : Checkpoint) (r : OpenRequest) (delta : List Entry) : Checkpoint :=
  let next := newCheckpoint P r previous.generation (previous.revision + 1) previous.id
    (previous.window.entries ++ delta) (lit "append_source_delta") delta.length
  { next with
    cacheIdentity := previous.cacheIdentity
    modelWindowFingerprint := previous.modelWindowFingerprint
    artifactIDs := previous.artifactIDs
    trace := { next.trace with
      artifactCount := previous.artifactIDs.length
      lastAssessment := previous.trace.lastAssessment } }.identified P

/-- The next revision over a source delta, or the first one of a new generation. -/
def extendSource (previous : Checkpoint) (r : OpenRequest) : Checkpoint :=
  let lineage := extendLineageHash P previous.coveredPathHash r.sourcePath
  let window := normalizeWindow ⟨r.instructions, previous.window.entries ++ r.entries⟩
  { previous with
    generation := if r.resetCacheIdentity then previous.generation + 1 else previous.generation
    revision := if r.resetCacheIdentity then 1 else previous.revision + 1
    cacheIdentity :=
      if r.resetCacheIdentity then
        resetCacheIdentity P previous r.staticFingerprint lineage (previous.generation + 1)
      else previous.cacheIdentity
    parentCheckpointID := previous.id
    lineageHash := lineage
    coveredPathHash := lineage
    coveredThroughSourceID := r.sourcePath.getLastD previous.coveredThroughSourceID
    window := window
    contentHash := windowHash P window
    trace := {
      reason := if r.resetCacheIdentity then lit "lineage_reset" else lit "append_source_delta"
      sourceEntryCount := previous.trace.sourceEntryCount + r.sourcePath.length
      activeEntryCount := window.entries.length
      appendedEntryCount := r.sourcePath.length
      artifactCount := previous.artifactIDs.length
      lastAssessment := previous.trace.lastAssessment } }.identified P

def openSourceDelta (previous : Checkpoint) (r : OpenRequest) : Except Failure Checkpoint :=
  if previous.scopeID ≠ r.scopeID || previous.staticFingerprint ≠ r.staticFingerprint ||
      previous.window.instructions ≠ r.instructions then .error .lineageConflict
  else if r.sourcePath.isEmpty && !r.resetCacheIdentity then .ok previous
  else .ok (extendSource P previous r)

/-- Nothing of the request is new. -/
def unchanged (previous : Checkpoint) (r : OpenRequest) (delta : List Entry) : Bool :=
  delta.isEmpty && r.instructions = previous.window.instructions &&
    r.staticFingerprint = previous.staticFingerprint &&
    lineageHash P r.sourcePath = previous.lineageHash

/-- `Open` of a normalized request over a previous checkpoint. -/
def openOver (previous : Checkpoint) (r : OpenRequest) : Except Failure Checkpoint :=
  if !validCheckpoint P previous then .error .invalidInput
  else if r.sourceDelta then openSourceDelta P previous r
  else match sourceDelta P previous r with
    | none => .ok (openReset P previous r)
    | some delta =>
      if r.resetCacheIdentity then .ok (openReset P previous r)
      else if unchanged P previous r delta then .ok previous
      else .ok (openAppend P previous r delta)

/-- `Open`. -/
def openCheckpoint (request : OpenRequest) : Except Failure Checkpoint :=
  match normalizeOpenRequest P request with
  | .error e => .error e
  | .ok r =>
    match r.previous with
    | some previous => openOver P previous r
    | none =>
      if r.sourceDelta then .error .invalidInput
      else .ok (newCheckpoint P r 1 1 [] r.entries (lit "open") 0)

/-! ### Capture -/

def runtimeEntry (runID : GoString) (previous : Checkpoint) (index : ℕ) (m : Message) : Entry where
  id := stableID P (lit "ctxe") [previous.scopeID, itoa previous.generation, runID,
    formatUint index, hashBytes P ((canonicalJSON m.encode).getD [])]
  turnID := trimSpace runID
  message := m

/-- The entries of the tail; both the position and the number of entries so far go into
the index of an entry. -/
def runtimeEntries (runID : GoString) (previous : Checkpoint) :
    ℕ → ℕ → List Message → List Entry
  | _, _, [] => []
  | count, index, m :: ms =>
    runtimeEntry P runID previous (count + index) m ::
      runtimeEntries runID previous (count + 1) (index + 1) ms

/-- Adjacent repetitions are left out. -/
def dropRepeats : List GoString → List GoString
  | [] => []
  | [s] => [s]
  | s :: t :: ss => if s = t then dropRepeats (t :: ss) else s :: dropRepeats (t :: ss)

def sortedUniqueStrings (values : List GoString) : List GoString :=
  dropRepeats (values.insertionSort (· ≤ ·))

/-- The artifacts of a capture belong to the scope and the generation of the checkpoint. -/
def captureArtifacts (previous : Checkpoint) : List Artifact → Except Failure (List Artifact)
  | [] => .ok []
  | a :: as =>
    match normalizeArtifact P a previous.scopeID previous.generation with
    | .error e => .error e
    | .ok a =>
      if a.scopeID ≠ previous.scopeID || a.generation ≠ previous.generation then
        .error .lineageConflict
      else match captureArtifacts previous as with
        | .error e => .error e
        | .ok as => .ok (a :: as)

/-- The IDs of a checkpoint with those of more artifacts. -/
def joinArtifactIDs (previous : Checkpoint) (artifacts : List Artifact) : List GoString :=
  sortedUniqueStrings (previous.artifactIDs ++ artifacts.map Artifact.id)

def captureArtifactIDs (previous : Checkpoint) (artifacts : List Artifact) :
    Except Failure (List GoString) :=
  match captureArtifacts P previous artifacts with
  | .error e => .error e
  | .ok normalized => .ok (joinArtifactIDs previous normalized)

/-- The messages of the request behind the active window. -/
def CaptureRequest.tail (r : CaptureRequest) : List Message :=
  r.messages.drop (materialize r.previous.window).length

/-- The next revision, with nothing new but artifacts. -/
def captureArtifactsOnly (r : CaptureRequest) (artifactIDs : List GoString) : Checkpoint :=
  { r.previous with
    revision := r.previous.revision + 1
    parentCheckpointID := r.previous.id
    artifactIDs := artifactIDs
    trace := { r.previous.trace with
      reason := lit "append_runtime_artifacts"
      artifactCount := artifactIDs.length
      lastAssessment := r.assessment } }.identified P

/-- The next revision, with the runtime tail. -/
def captureTail (r : CaptureRequest) (artifactIDs : List GoString) : Checkpoint :=
  let entries := r.previous.window.entries ++
    runtimeEntries P r.runID r.previous r.previous.window.entries.length 0 r.tail
  let window : Window := { r.previous.window with entries := entries }
  { r.previous with
    revision := r.previous.revision + 1
    parentCheckpointID := r.previous.id
    window := window
    artifactIDs := artifactIDs
    contentHash := windowHash P window
    trace := {
      reason := lit "append_runtime_tail"
      sourceEntryCount := r.previous.trace.sourceEntryCount
      activeEntryCount := entries.length
      appendedEntryCount := r.tail.length
      artifactCount := artifactIDs.length
      lastAssessment := r.assessment } }.identified P

def capture (r : CaptureRequest) : Except Failure Checkpoint :=
  if !validCheckpoint P r.previous || blank r.runID || blank r.staticFingerprint ||
      r.staticFingerprint ≠ r.previous.staticFingerprint then .error .invalidInput
  else if !messagesPrefix (materialize r.previous.window) r.messages then .error .lineageConflict
  else if !r.messages.all (validMessage P) then .error .lineageConflict
  else if !validToolTranscriptMessages r.messages then .error .lineageConflict
  else match captureArtifactIDs P r.previous r.artifacts with
    | .error e => .error e
    | .ok artifactIDs =>
      if r.messages.length = (materialize r.previous.window).length then
        if artifactIDs = r.previous.artifactIDs then .ok r.previous
        else .ok (captureArtifactsOnly P r artifactIDs)
      else .ok (captureTail P r artifactIDs)

/-! ### Rollover -/

/-- Unlike those of a capture, the artifacts may name another scope or generation. -/
def rolloverArtifacts (previous : Checkpoint) : List Artifact → Except Failure (List Artifact)
  | [] => .ok []
  | a :: as =>
    match normalizeArtifact P a previous.scopeID (previous.generation + 1) with
    | .error e => .error e
    | .ok a =>
      match rolloverArtifacts previous as with
      | .error e => .error e
      | .ok as => .ok (a :: as)

/-- The first revision of the next generation. -/
def rolloverCheckpoint (r : RolloverRequest) (artifacts : List Artifact) : Checkpoint :=
  let window := normalizeWindow r.window
  let artifactIDs := joinArtifactIDs r.previous artifacts
  { r.previous with
    generation := r.previous.generation + 1
    revision := 1
    parentCheckpointID := r.previous.id
    modelWindowFingerprint := trimSpace r.modelWindowFingerprint
    window := window
    artifactIDs := artifactIDs
    contentHash := windowHash P window
    trace := {
      reason := trimSpace r.reason
      sourceEntryCount := r.previous.trace.sourceEntryCount
      activeEntryCount := window.entries.length
      compactedEntryCount := max (r.previous.window.entries.length - window.entries.length : ℤ) 0
      artifactCount := artifactIDs.length
      lastAssessment := r.assessment } }.identified P

def rollover (r : RolloverRequest) : Except Failure Checkpoint :=
  if !validCheckpoint P r.previous || blank r.reason || r.window.entries.isEmpty then
    .error .invalidInput
  else match rolloverArtifacts P r.previous r.artifacts with
    | .error e => .error e
    | .ok artifacts => .ok (rolloverCheckpoint P r artifacts)

/-! ### The model's window -/

/-- The next revision, with the fingerprint of the model's window. -/
def bindFirst (previous : Checkpoint) (fingerprint : GoString) : Checkpoint :=
  { previous with
    revision := previous.revision + 1
    parentCheckpointID := previous.id
    modelWindowFingerprint := fingerprint
    trace := { previous.trace with reason := lit "model_window_bound" } }.identified P

/-- The rollover for a changed fingerprint. -/
def rebindRequest (previous : Checkpoint) (fingerprint : GoString) : RolloverRequest where
  previous := previous
  window := previous.window
  reason := lit "model_window_changed"
  modelWindowFingerprint := fingerprint

def bindModelWindow (previous : Checkpoint) (fingerprint : GoString) : Except Failure Checkpoint :=
  if !validCheckpoint P previous || blank fingerprint then .error .invalidInput
  else if previous.modelWindowFingerprint = trimSpace fingerprint then .ok previous
  else if previous.modelWindowFingerprint ≠ [] then
    rollover P (rebindRequest previous (trimSpace fingerprint))
  else .ok (bindFirst P previous (trimSpace fingerprint))

/-! ### What the operations return -/

lemma normalizeOpenRequest_ok (h : normalizeOpenRequest P request = .ok r) :
    r = request.normalize ∧ r.scopeID ≠ [] ∧ r.staticFingerprint ≠ [] ∧
      r.sourcePath.length = r.entries.length ∧ (r.sourceDelta = false → r.sourcePath ≠ []) ∧
      Bracketed (r.entries.map Entry.message) := by
  simp only [normalizeOpenRequest] at h
  split at h
  · cases h
  split at h
  · cases h
  rename_i hfields
  split at h
  · cases h
  rename_i hpath
  split at h
  · cases h
  split at h
  · cases h
  rename_i hsources
  cases h
  simp only [Bool.or_eq_true, decide_eq_true_eq, not_or, ne_eq, not_not] at hfields
  simp only [Bool.and_eq_true, Bool.not_eq_true', Bool.or_eq_true, List.isEmpty_iff, not_and,
    not_or] at hpath
  simp only [validSourceEntries, Bool.and_eq_true, Bool.not_eq_true', Bool.not_eq_false] at hsources
  exact ⟨rfl, hfields.1.1, hfields.1.2, hfields.2, fun hdelta => (hpath hdelta).1, hsources.2⟩

/-- What `Open` makes of a checkpoint. -/
inductive Opened (previous : Checkpoint) (r : OpenRequest) : Checkpoint → Prop
  | keptDelta (hdelta : r.sourceDelta = true) (hpath : r.sourcePath = [])
      (hreset : r.resetCacheIdentity = false)
      (hinstructions : previous.window.instructions = r.instructions) : Opened previous r previous
  | extended (hdelta : r.sourceDelta = true)
      (hnew : r.sourcePath ≠ [] ∨ r.resetCacheIdentity = true)
      (hinstructions : previous.window.instructions = r.instructions) :
      Opened previous r (extendSource P previous r)
  | reset (hdelta : r.sourceDelta = false)
      (hreset : r.resetCacheIdentity = true ∨ sourceDelta P previous r = none) :
      Opened previous r (openReset P previous r)
  | kept {delta : List Entry} (hdelta : r.sourceDelta = false)
      (hreset : r.resetCacheIdentity = false) (hsource : sourceDelta P previous r = some delta)
      (hunchanged : unchanged P previous r delta = true) : Opened previous r previous
  | appended {delta : List Entry} (hdelta : r.sourceDelta = false)
      (hreset : r.resetCacheIdentity = false) (hsource : sourceDelta P previous r = some delta)
      (hchanged : unchanged P previous r delta = false) :
      Opened previous r (openAppend P previous r delta)

lemma openOver_cases
    (h : openOver P previous r = .ok next) : Valid P previous ∧ Opened P previous r next := by
  rw [openOver] at h
  split at h
  · cases h
  rename_i hvalid
  refine ⟨(validCheckpoint_iff P previous).mp (by simpa using hvalid), ?_⟩
  split at h
  · rename_i hdelta
    rw [openSourceDelta] at h
    split at h
    · cases h
    rename_i hsame
    simp only [Bool.or_eq_true, decide_eq_true_eq, not_or, ne_eq, not_not] at hsame
    split at h
    · rename_i hkept
      cases h
      simp only [Bool.and_eq_true, List.isEmpty_iff, Bool.not_eq_true'] at hkept
      exact .keptDelta hdelta hkept.1 hkept.2 hsame.2
    rename_i hnew
    cases h
    refine .extended hdelta ?_ hsame.2
    by_cases hpath : r.sourcePath = []
    · exact .inr (by simpa [hpath] using hnew)
    · exact .inl hpath
  · rename_i hdelta
    have hfalse : r.sourceDelta = false := by simpa using hdelta
    split at h
    · rename_i hnone
      cases h
      exact .reset hfalse (.inr hnone)
    rename_i hsource
    split at h
    · rename_i hreset
      cases h
      exact .reset hfalse (.inl hreset)
    rename_i hreset
    split at h
    · rename_i hunchanged
      cases h
      exact .kept hfalse (by simpa using hreset) hsource hunchanged
    rename_i hchanged
    cases h
    exact .appended hfalse (by simpa using hreset) hsource (by simpa using hchanged)

theorem openCheckpoint_cases (h : openCheckpoint P request = .ok next) :
    normalizeOpenRequest P request = .ok request.normalize ∧
      ((∃ previous, request.previous = some previous ∧ Valid P previous ∧
          Opened P previous request.normalize next) ∨
        request.previous = none ∧ request.sourceDelta = false ∧
          next = newCheckpoint P request.normalize 1 1 [] request.normalize.entries
            (lit "open") 0) := by
  rw [openCheckpoint] at h
  split at h
  · cases h
  rename_i hr
  obtain ⟨rfl, -⟩ := normalizeOpenRequest_ok P hr
  refine ⟨hr, ?_⟩
  split at h
  · rename_i previous hprevious
    exact .inl ⟨previous, hprevious, openOver_cases P h⟩
  rename_i hprevious
  split at h
  · cases h
  rename_i hdelta
  have hfalse : request.normalize.sourceDelta = false := by simpa using hdelta
  exact .inr ⟨hprevious, hfalse, (Except.ok.inj h).symm⟩

/-- What `Capture` makes of a checkpoint. -/
inductive Captured (r : CaptureRequest) : Checkpoint → Prop
  | kept (htail : r.tail = [])
      (hids : captureArtifactIDs P r.previous r.artifacts = .ok r.previous.artifactIDs) :
      Captured r r.previous
  | artifacts {ids : List GoString} (htail : r.tail = [])
      (hids : captureArtifactIDs P r.previous r.artifacts = .ok ids)
      (hnew : ids ≠ r.previous.artifactIDs) : Captured r (captureArtifactsOnly P r ids)
  | tail {ids : List GoString} (htail : r.tail ≠ [])
      (hids : captureArtifactIDs P r.previous r.artifacts = .ok ids) :
      Captured r (captureTail P r ids)

lemma messagesPrefix_length : ∀ {ms ns : List Message}, messagesPrefix ms ns = true →
    ms.length ≤ ns.length
  | [], _, _ => Nat.zero_le _
  | _ :: _, [], h => by cases h
  | m :: ms, n :: ns, h => by
    rw [messagesPrefix, Bool.and_eq_true] at h
    exact Nat.succ_le_succ (messagesPrefix_length h.2)

theorem capture_cases {r : CaptureRequest} (h : capture P r = .ok next) :
    Valid P r.previous ∧ messagesPrefix (materialize r.previous.window) r.messages = true ∧
      (r.messages.all (validMessage P) = true) ∧ Bracketed r.messages ∧ Captured P r next := by
  rw [capture] at h
  split at h
  · cases h
  rename_i hvalid
  simp only [Bool.or_eq_true, Bool.not_eq_true', not_or, Bool.not_eq_false] at hvalid
  split at h
  · cases h
  rename_i hstart
  split at h
  · cases h
  rename_i hmessages
  split at h
  · cases h
  rename_i hbracketed
  have hstart : messagesPrefix (materialize r.previous.window) r.messages = true := by
    simpa using hstart
  refine ⟨(validCheckpoint_iff P _).mp hvalid.1.1.1, hstart, by simpa using hmessages,
    by simpa [Bracketed] using hbracketed, ?_⟩
  have hlength := messagesPrefix_length hstart
  split at h
  · cases h
  rename_i hids
  split at h
  · rename_i hsame
    have htail : r.tail = [] := List.drop_eq_nil_of_le (le_of_eq hsame)
    split at h
    · rename_i hkept
      cases h
      exact .kept htail (hkept ▸ hids)
    rename_i hnew
    cases h
    exact .artifacts htail hids hnew
  · rename_i hlonger
    cases h
    refine .tail (fun htail => hlonger ?_) hids
    exact Nat.le_antisymm (List.drop_eq_nil_iff.mp htail) hlength

theorem rollover_cases {r : RolloverRequest} (h : rollover P r = .ok next) :
    Valid P r.previous ∧ r.window.entries ≠ [] ∧ ∃ artifacts,
      rolloverArtifacts P r.previous r.artifacts = .ok artifacts ∧
        next = rolloverCheckpoint P r artifacts := by
  rw [rollover] at h
  split at h
  · cases h
  rename_i hvalid
  simp only [Bool.or_eq_true, Bool.not_eq_true', not_or, Bool.not_eq_false,
    List.isEmpty_iff] at hvalid
  split at h
  · cases h
  rename_i artifacts hartifacts
  exact ⟨(validCheckpoint_iff P _).mp hvalid.1.1, hvalid.2, artifacts, hartifacts,
    (Except.ok.inj h).symm⟩

theorem bindModelWindow_cases {fingerprint : GoString}
    (h : bindModelWindow P previous fingerprint = .ok next) :
    Valid P previous ∧
      (previous.modelWindowFingerprint = trimSpace fingerprint ∧ next = previous ∨
        previous.modelWindowFingerprint ≠ trimSpace fingerprint ∧
          previous.modelWindowFingerprint ≠ [] ∧
          rollover P (rebindRequest previous (trimSpace fingerprint)) = .ok next ∨
        previous.modelWindowFingerprint ≠ trimSpace fingerprint ∧
          previous.modelWindowFingerprint = [] ∧
          next = bindFirst P previous (trimSpace fingerprint)) := by
  rw [bindModelWindow] at h
  split at h
  · cases h
  rename_i hvalid
  simp only [Bool.or_eq_true, Bool.not_eq_true', not_or, Bool.not_eq_false] at hvalid
  refine ⟨(validCheckpoint_iff P _).mp hvalid.1, ?_⟩
  split at h
  · rename_i hsame
    exact .inl ⟨hsame, (Except.ok.inj h).symm⟩
  rename_i hother
  split at h
  · rename_i hbound
    exact .inr (.inl ⟨hother, hbound, h⟩)
  · rename_i hunbound
    exact .inr (.inr ⟨hother, not_not.mp hunbound, (Except.ok.inj h).symm⟩)

end Operations

end ContextWindow
