/-
Context windows and their checkpoints.

A window is the active history of a model: instructions, which are materialized as the
first system message, and entries that carry one transcript message each.  A checkpoint
is one immutable revision of a window.  It names its parent, the source path that it
covers, and the artifacts that were sealed so far; its content hash is that of the
window's canonical JSON, and its ID is derived from all of these.

* **`windowHash_blank_iff`** — a window has a hash if every message of it can be stored.
-/
import AgentRuntime.DeliveryQueue
import AgentRuntime.ToolTranscripts

namespace ContextWindow

open GoString GoJson Model List

/-! ### Windows -/

/-- A transcript message with its lineage; `sourceID` is set for host transcript facts
only. -/
structure Entry where
  id : GoString := []
  turnID : GoString := []
  sourceID : GoString := []
  required : Bool := false
  message : Message
  deriving DecidableEq, Repr

structure Window where
  instructions : GoString := []
  entries : List Entry
  deriving DecidableEq, Repr

def normalizeEntry (e : Entry) : Entry where
  id := trimSpace e.id
  turnID := trimSpace e.turnID
  sourceID := trimSpace e.sourceID
  required := e.required
  message := { e.message with
    role := trimSpace e.message.role, toolCallID := trimSpace e.message.toolCallID }

def normalizeWindow (w : Window) : Window where
  instructions := trimSpace w.instructions
  entries := w.entries.map normalizeEntry

/-- The system message that the instructions are materialized as. -/
def instructionMessage (instructions : GoString) : Message :=
  { role := roleSystem, content := textParts instructions }

def instructionMessages (instructions : GoString) : List Message :=
  if instructions = [] then [] else [instructionMessage instructions]

/-- The messages of entries as they are materialized. -/
def entryMessages (entries : List Entry) : List Message :=
  entries.map fun e => (normalizeEntry e).message

def materialize (w : Window) : List Message :=
  instructionMessages (trimSpace w.instructions) ++ entryMessages w.entries

def Entry.fields (e : Entry) : List (GoString × Option Value) :=
  [(lit "id", some (.string e.id)), (lit "turnID", omitEmpty e.turnID),
    (lit "sourceID", omitEmpty e.sourceID),
    (lit "required", if e.required then some (.bool true) else none),
    (lit "message", some e.message.tree)]

def Entry.tree (e : Entry) : Value := struct e.fields

def Window.fields (w : Window) : List (GoString × Option Value) :=
  [(lit "instructions", omitEmpty w.instructions),
    (lit "entries", some (.array (w.entries.map Entry.tree)))]

def Window.tree (w : Window) : Value := struct w.fields

def Window.encode (w : Window) : Option Value :=
  if w.entries.all fun e => e.message.encodable then some w.tree else none

/-! ### Checkpoints -/

structure Assessment where
  hardInputTokens : ℤ
  softInputTokens : ℤ
  rawTokenEstimate : ℤ
  adjustedTokenEstimate : ℤ
  hardTokenEstimate : ℤ
  tokenCountSource : GoString
  serializedBytes : ℤ
  deriving DecidableEq, Repr

/-- Content-free facts about how the checkpoint came about. -/
structure Trace where
  reason : GoString
  sourceEntryCount : ℤ
  activeEntryCount : ℤ
  appendedEntryCount : ℤ := 0
  compactedEntryCount : ℤ := 0
  artifactCount : ℤ := 0
  lastAssessment : Option Assessment := none
  deriving DecidableEq, Repr

structure Checkpoint where
  id : GoString := []
  scopeID : GoString
  cacheIdentity : GoString
  generation : Int64
  revision : Int64
  parentCheckpointID : GoString
  lineageHash : GoString
  coveredThroughSourceID : GoString
  coveredPathHash : GoString
  staticFingerprint : GoString
  modelWindowFingerprint : GoString := []
  contentHash : GoString := []
  window : Window
  artifactIDs : List GoString := []
  trace : Trace
  deriving DecidableEq

/-- What the package takes from its platform: a hash with 32 bytes, and whether `net/url`
accepts a media reference. -/
structure Platform where
  sha256 : GoString → GoString
  sha256_length : ∀ s, (sha256 s).length = 32
  acceptsURL : GoString → Bool

/-- Why an operation of the package fails. -/
inductive Failure where
  | invalidInput
  | lineageConflict
  | budgetExceeded
  /-- `ArtifactPayloadLimitError`. -/
  | payloadLimit (payloadBytes limitBytes : ℤ)
  deriving DecidableEq, Repr

section Hashes

variable (P : Platform)

/-- The same texts as for the IDs of the queue. -/
def stableID (kind : GoString) (values : List GoString) : GoString :=
  Queue.stableID P.sha256 kind values

def hashBytes (value : GoString) : GoString := Queue.hashBytes P.sha256 value

/-- A window that cannot be encoded has no hash, and that is not an error. -/
def windowHash (w : Window) : GoString :=
  match canonicalJSON (normalizeWindow w).encode with
  | none => []
  | some encoded => hashBytes P encoded

def itoa (n : Int64) : GoString := formatInt n.toInt

def checkpointID (c : Checkpoint) : GoString :=
  stableID P (lit "ctxc") [c.scopeID, itoa c.generation, itoa c.revision, c.parentCheckpointID,
    c.cacheIdentity, c.lineageHash, c.coveredThroughSourceID, c.coveredPathHash,
    c.staticFingerprint, c.modelWindowFingerprint, c.contentHash,
    (lit ",").intercalate c.artifactIDs]

def blank (s : GoString) : Bool := trimSpace s = []

def validCheckpoint (c : Checkpoint) : Bool :=
  !(blank c.id || blank c.scopeID || blank c.cacheIdentity || c.generation ≤ 0 || c.revision ≤ 0 ||
    blank c.lineageHash || blank c.coveredThroughSourceID || blank c.coveredPathHash ||
    blank c.staticFingerprint || blank c.contentHash || c.window.entries.isEmpty) &&
  c.contentHash = windowHash P c.window && c.id = checkpointID P c

/-- `ExtendLineageHash`. -/
def extendLineageHash (previous : GoString) (parts : List GoString) : GoString :=
  parts.foldl (fun current part =>
    if trimSpace part = [] then current else hashBytes P (current ++ [0] ++ trimSpace part))
    (trimSpace previous)

def lineageHash (parts : List GoString) : GoString := extendLineageHash P [] parts

end Hashes

/-! ### Messages of a transcript -/

def validMessage (P : Platform) (m : Message) : Bool :=
  validateMessage P.acceptsURL m &&
    (m.role ≠ roleAssistant || m.toolCalls.all fun call =>
      trimSpace call.id ≠ [] && trimSpace call.toolKey ≠ [] && valid call.arguments)

def canonicalMessage (m : Message) : Message :=
  { m with role := trimSpace m.role, toolCallID := trimSpace m.toolCallID }

def sameMessage (left right : Message) : Bool :=
  match canonicalJSON (canonicalMessage left).encode,
    canonicalJSON (canonicalMessage right).encode with
  | some leftJSON, some rightJSON => leftJSON = rightJSON
  | _, _ => false

/-- `messagesPrefix`: the first list is compared with the beginning of the second. -/
def messagesPrefix : List Message → List Message → Bool
  | [], _ => true
  | _ :: _, [] => false
  | m :: ms, n :: ns => sameMessage m n && messagesPrefix ms ns

/-! ### Artifacts -/

structure Artifact where
  id : GoString := []
  kind : GoString
  scopeID : GoString
  generation : Int64
  sourceID : GoString
  content : GoString
  contentJSON : GoString
  contentHash : GoString := []
  tokenEstimate : ℤ := 0
  deriving DecidableEq

def artifactCompaction : GoString := lit "compaction"
def artifactToolResult : GoString := lit "tool_result"

def maxArtifactPayloadBytes : ℕ := 4 * 2 ^ 20

/-- `normalizeRawJSON`: the text stays as it is if it cannot be decoded. -/
def normalizeRawJSON (value : GoString) : GoString :=
  if value = [] then [] else (recode value).getD value

def estimatedTokens (serialized : GoString) : ℤ := ((serialized.length + 3) / 4 : ℕ)

/-- The JSON of an artifact's payload. -/
def payloadValue (content contentJSON : GoString) : Option Value :=
  match readRaw contentJSON with
  | none => none
  | some v => some (struct [(lit "content", omitEmpty content),
      (lit "contentJSON", if contentJSON = [] then none else some v)])

/-- The artifact with its defaults, before its payload is looked at. -/
def Artifact.defaults (a : Artifact) (scopeID : GoString) (generation : Int64) : Artifact :=
  { a with
    scopeID := if trimSpace a.scopeID = [] then trimSpace scopeID else trimSpace a.scopeID
    sourceID := trimSpace a.sourceID
    generation := if a.generation ≤ 0 then generation else a.generation }

/-- The artifact with the fields that are derived from its payload. -/
def Artifact.seal (P : Platform) (a : Artifact) (payload : GoString) : Artifact :=
  let contentHash := hashBytes P payload
  { a with
    contentHash := contentHash
    tokenEstimate := estimatedTokens payload
    id := stableID P (lit "ctxa") [a.scopeID, itoa a.generation, a.kind, a.sourceID, contentHash] }

def sealArtifact (P : Platform) (a : Artifact) : Except Failure Artifact :=
  if a.scopeID = [] || a.generation ≤ 0 ||
      (a.kind ≠ artifactCompaction && a.kind ≠ artifactToolResult) then
    .error .invalidInput
  else if a.content.length + a.contentJSON.length > maxArtifactPayloadBytes then
    .error (.payloadLimit (a.content.length + a.contentJSON.length) maxArtifactPayloadBytes)
  else
    match canonicalJSON (payloadValue a.content (normalizeRawJSON a.contentJSON)) with
    | none => .error .invalidInput
    | some payload =>
      .ok (Artifact.seal P { a with contentJSON := normalizeRawJSON a.contentJSON } payload)

def normalizeArtifact (P : Platform) (a : Artifact) (scopeID : GoString) (generation : Int64) :
    Except Failure Artifact := sealArtifact P (a.defaults scopeID generation)

/-! ### Normal forms -/

@[simp] lemma normalizeEntry_idem (e : Entry) :
    normalizeEntry (normalizeEntry e) = normalizeEntry e := by
  simp [normalizeEntry]

@[simp] lemma entryMessages_append (xs ys : List Entry) :
    entryMessages (xs ++ ys) = entryMessages xs ++ entryMessages ys := map_append

@[simp] lemma entryMessages_normalize (xs : List Entry) :
    entryMessages (xs.map normalizeEntry) = entryMessages xs := by
  simp [entryMessages]

@[simp] lemma materialize_normalizeWindow (w : Window) :
    materialize (normalizeWindow w) = materialize w := by
  simp [materialize, normalizeWindow]

/-! ### Which windows have a hash -/

/-- Raw JSON that can be stored: it is JSON, nested at most `n` levels deep, and its numbers
are in the range of a `float64`. -/
def StorableRaw (n : ℕ) (s : GoString) : Prop := ∃ v, readRaw s = some v ∧ Legible v n ∧ InRange v

/-- A message that can be stored in a window.  An argument stands six levels below the
window, replay data five. -/
def Storable (m : Message) : Prop :=
  (∀ c ∈ m.toolCalls, StorableRaw 9994 c.arguments) ∧
    ∀ r ∈ m.providerReplay, StorableRaw 9995 r.data

lemma storable_iff {m : Message} :
    Storable m ↔ m.encodable = true ∧ Legible m.tree 9997 ∧ InRange m.tree := by
  have hraw : ∀ {n s}, StorableRaw n s ↔
      (readRaw s).isSome = true ∧ Legible (rawTree s) n ∧ InRange (rawTree s) := by
    intro n s
    rw [StorableRaw, rawTree]
    cases readRaw s with
    | none | some => simp
  have hlegible : Legible m.tree 9997 ↔ (∀ c ∈ m.toolCalls, Legible (rawTree c.arguments) 9994) ∧
      ∀ r ∈ m.providerReplay, Legible (rawTree r.data) 9995 := Message.legible_iff
  have hrange : InRange m.tree ↔ (∀ c ∈ m.toolCalls, InRange (rawTree c.arguments)) ∧
      ∀ r ∈ m.providerReplay, InRange (rawTree r.data) := by
    simp only [InRange, Message.numbers_tree, Message.raws, mem_flatMap, mem_append,
      mem_map, Option.mem_toList, Option.map_eq_some_iff]
    constructor
    · intro h
      exact ⟨fun c hc l hl => h l ⟨_, .inl ⟨c, hc, rfl⟩, hl⟩,
        fun r hr l hl => h l ⟨_, .inr ⟨r, hr, rfl⟩, hl⟩⟩
    rintro ⟨hcalls, hreplay⟩ l ⟨-, ⟨c, hc, rfl⟩ | ⟨r, hr, rfl⟩, hl⟩
    · exact hcalls c hc l hl
    · exact hreplay r hr l hl
  have hencodable : m.encodable = true ↔
      (∀ c ∈ m.toolCalls, (readRaw c.arguments).isSome = true) ∧
        ∀ r ∈ m.providerReplay, (readRaw r.data).isSome = true := by
    simp [Message.encodable, Message.raws]
  rw [Storable, hencodable, hlegible, hrange]
  simp only [hraw]
  constructor
  · rintro ⟨hcalls, hreplay⟩
    exact ⟨⟨fun c hc => (hcalls c hc).1, fun r hr => (hreplay r hr).1⟩,
      ⟨fun c hc => (hcalls c hc).2.1, fun r hr => (hreplay r hr).2.1⟩,
      fun c hc => (hcalls c hc).2.2, fun r hr => (hreplay r hr).2.2⟩
  rintro ⟨⟨hc, hr⟩, ⟨hc', hr'⟩, hc'', hr''⟩
  exact ⟨fun c hmem => ⟨hc c hmem, hc' c hmem, hc'' c hmem⟩,
    fun r hmem => ⟨hr r hmem, hr' r hmem, hr'' r hmem⟩⟩

lemma storable_normalizeEntry (e : Entry) :
    Storable (normalizeEntry e).message ↔ Storable e.message := Iff.rfl

lemma Entry.numbers_tree (e : Entry) : numbers e.tree = numbers e.message.tree := by
  obtain ⟨_, _, _, required, _⟩ := e
  cases required with
  | true | false => simp [Entry.tree, Entry.fields, numbers_struct, numbers]

lemma Entry.legible_iff {e : Entry} {n : ℕ} :
    Legible e.tree (n + 1) ↔ Legible e.message.tree n := by
  rw [Entry.tree, legible_struct]
  simp only [Entry.fields, forall_mem_cons, Option.mem_def, Option.some.injEq, forall_eq']
  refine ⟨fun h => h.2.2.2.2.1, fun h => ⟨trivial, legible_omitEmpty, legible_omitEmpty, ?_, h,
    by simp⟩⟩
  intro v hv
  split at hv
  · cases hv
    trivial
  · cases hv

variable {w : Window}

lemma Window.legible_iff {n : ℕ} :
    Legible w.tree (n + 3) ↔ ∀ e ∈ w.entries, Legible e.message.tree n := by
  rw [Window.tree, legible_struct]
  simp only [Window.fields, forall_mem_cons, Option.mem_def, Option.some.injEq, forall_eq']
  rw [legible_array]
  simp only [forall_mem_map, Entry.legible_iff]
  exact ⟨fun h => h.2.1, fun h => ⟨legible_omitEmpty, h, by simp⟩⟩

lemma Window.inRange_iff : InRange w.tree ↔ ∀ e ∈ w.entries, InRange e.message.tree := by
  have hnumbers : numbers w.tree = w.entries.flatMap fun e => numbers e.message.tree := by
    simp [Window.tree, Window.fields, numbers_struct, flatMap_map, Entry.numbers_tree]
  simp only [InRange, hnumbers, mem_flatMap]
  exact ⟨fun h e he l hl => h l ⟨e, he, hl⟩, fun h l ⟨e, he, hl⟩ => h e he l hl⟩

lemma Window.encode_eq_some {v : Value} (h : w.encode = some v) :
    v = w.tree ∧ ∀ e ∈ w.entries, e.message.encodable = true := by
  rw [Window.encode] at h
  split at h
  · rename_i hall
    exact ⟨(Option.some.inj h).symm, all_eq_true.mp hall⟩
  · cases h

lemma Window.legible (w : Window) : Legible w.tree 10006 :=
  Window.legible_iff.mpr fun e _ => e.message.legible

/-- A window can be encoded if every message of it can be stored, and only then. -/
lemma Window.encodes_iff :
    (canonicalJSON w.encode).isSome = true ↔ ∀ e ∈ w.entries, Storable e.message := by
  have htree := canonicalJSON_isSome w.legible
  have hlegible : Legible w.tree 10000 ↔ ∀ e ∈ w.entries, Legible e.message.tree 9997 :=
    Window.legible_iff
  rw [hlegible, Window.inRange_iff] at htree
  simp only [storable_iff]
  constructor
  · intro h
    rcases hw : w.encode with _ | v
    · rw [hw] at h
      cases h
    obtain ⟨rfl, hencodable⟩ := Window.encode_eq_some hw
    rw [hw] at h
    obtain ⟨hl, hr⟩ := htree.mp h
    exact fun e he => ⟨hencodable e he, hl e he, hr e he⟩
  · intro h
    have hall : (w.entries.all fun e => e.message.encodable) = true :=
      all_eq_true.mpr fun e he => (h e he).1
    rw [Window.encode, if_pos hall]
    exact htree.mpr ⟨fun e he => (h e he).2.1, fun e he => (h e he).2.2⟩

section Hashes

variable (P : Platform) {kind : GoString}

lemma hashBytes_length (s : GoString) : (hashBytes P s).length = 64 := by
  rw [hashBytes, Queue.hashBytes, length_hexEncode, P.sha256_length]

lemma hashBytes_ne_nil (s : GoString) : hashBytes P s ≠ [] := by
  intro h
  have := hashBytes_length P s
  rw [h] at this
  cases this

lemma hashBytes_not_blank (s : GoString) : blank (hashBytes P s) = false := by
  rw [blank, hashBytes, Queue.hashBytes, trimSpace_of_graphic fun _ hb => hexEncode_graphic hb]
  simpa [hashBytes, Queue.hashBytes] using hashBytes_ne_nil P s

lemma trimSpace_stableID (hkind : ∀ b ∈ kind, isGraphic b = true)
    (values : List GoString) : trimSpace (stableID P kind values) = stableID P kind values :=
  Queue.stableID_trimmed P.sha256 hkind values

lemma stableID_not_blank (hkind : ∀ b ∈ kind, isGraphic b = true)
    (hne : kind ≠ []) (values : List GoString) : blank (stableID P kind values) = false := by
  rw [blank, trimSpace_stableID P hkind]
  simp [stableID, Queue.stableID, hne]

/-- **A window has a hash** if every message of it can be stored, and only then. -/
theorem windowHash_blank_iff (w : Window) :
    blank (windowHash P w) = false ↔ ∀ e ∈ w.entries, Storable e.message := by
  have hencodes : (canonicalJSON (normalizeWindow w).encode).isSome = true ↔
      ∀ e ∈ w.entries, Storable e.message := by
    rw [Window.encodes_iff]
    simp [normalizeWindow, storable_normalizeEntry]
  rw [← hencodes, windowHash]
  cases canonicalJSON (normalizeWindow w).encode with
  | none =>
    have hblank : blank [] = true := by decide
    simp [hblank]
  | some t => exact ⟨fun _ => rfl, fun _ => hashBytes_not_blank P t⟩

/-- What a valid checkpoint is. -/
structure Valid (c : Checkpoint) : Prop where
  scopeID : blank c.scopeID = false
  cacheIdentity : blank c.cacheIdentity = false
  generation : 0 < c.generation
  revision : 0 < c.revision
  lineageHash : blank c.lineageHash = false
  coveredThroughSourceID : blank c.coveredThroughSourceID = false
  coveredPathHash : blank c.coveredPathHash = false
  staticFingerprint : blank c.staticFingerprint = false
  entries : c.window.entries ≠ []
  storable : ∀ e ∈ c.window.entries, Storable e.message
  contentHash : c.contentHash = windowHash P c.window
  id : c.id = checkpointID P c

lemma ctxc_graphic : ∀ b ∈ lit "ctxc", isGraphic b = true := by decide +kernel

lemma validCheckpoint_iff (c : Checkpoint) : validCheckpoint P c = true ↔ Valid P c := by
  have hid : c.id = checkpointID P c → blank c.id = false := by
    intro h
    rw [h]
    exact stableID_not_blank P ctxc_graphic (by decide +kernel) _
  have hhash : c.contentHash = windowHash P c.window →
      (blank c.contentHash = false ↔ ∀ e ∈ c.window.entries, Storable e.message) := by
    intro h
    rw [h]
    exact windowHash_blank_iff P c.window
  rw [validCheckpoint]
  simp only [Bool.and_eq_true, Bool.not_eq_true', Bool.or_eq_false_iff, decide_eq_true_eq,
    decide_eq_false_iff_not, isEmpty_eq_false_iff, ne_eq]
  constructor
  · rintro ⟨⟨⟨⟨⟨⟨⟨⟨⟨⟨⟨⟨-, h1⟩, h2⟩, h3⟩, h4⟩, h5⟩, h6⟩, h7⟩, h8⟩, h9⟩, h10⟩, h11⟩, h12⟩
    exact ⟨h1, h2, Int64.not_le.mp h3, Int64.not_le.mp h4, h5, h6, h7, h8, h10, (hhash h11).mp h9,
      h11, h12⟩
  rintro ⟨h1, h2, h3, h4, h5, h6, h7, h8, h9, h10, h11, h12⟩
  exact ⟨⟨⟨⟨⟨⟨⟨⟨⟨⟨⟨⟨hid h12, h1⟩, h2⟩, Int64.not_le.mpr h3⟩, Int64.not_le.mpr h4⟩, h5⟩, h6⟩, h7⟩,
    h8⟩, (hhash h11).mpr h10⟩, h9⟩, h11⟩, h12⟩

end Hashes

end ContextWindow
