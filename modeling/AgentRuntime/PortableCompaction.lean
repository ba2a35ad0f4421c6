/-
Portable compaction: old turns leave the window and are archived.

`CompactPortable` cuts the transcript before the last user turns, seals the removed messages
in artifacts of bounded size, and puts a marker in their place.  A message passes through
canonical JSON on its way into an artifact.  So the archive holds the removed messages in
order, cut nowhere inside a message, but it holds their numbers as doubles.

* **`portable_compaction`** — the archive is lossless if every number is kept, and only then.
-/
import AgentRuntime.StablePrefix

namespace ContextWindow

open GoString GoJson Model List

/-! ### Policy -/

structure Policy where
  maxInputTokens : ℤ := 0
  softLimitPercent : ℤ := 0
  estimateSafetyPercent : ℤ := 0
  maxSerializedBytes : ℤ := 0
  preserveRecentTurns : ℤ := 0
  minimumRecentTurns : ℤ := 0
  maxCompactionTokens : ℤ := 0
  maxToolResultBytes : ℤ := 0
  deriving DecidableEq, Repr

/-- A setting that is not positive is replaced by its default. -/
def orDefault (value default : ℤ) : ℤ := if value ≤ 0 then default else value

def normalizePolicy (p : Policy) : Policy :=
  let minimum := orDefault p.minimumRecentTurns 1
  { p with
    softLimitPercent :=
      if p.softLimitPercent ≤ 0 || p.softLimitPercent ≥ 100 then 80 else p.softLimitPercent
    estimateSafetyPercent := orDefault p.estimateSafetyPercent 15
    maxSerializedBytes := orDefault p.maxSerializedBytes (4 * 2 ^ 20)
    preserveRecentTurns := max (orDefault p.preserveRecentTurns 8) minimum
    minimumRecentTurns := minimum
    maxCompactionTokens := orDefault p.maxCompactionTokens 1024
    maxToolResultBytes := orDefault p.maxToolResultBytes 2048 }

/-! ### The cut -/

/-- The instructions leave the front of the messages if they stand there. -/
def splitWindowInstructions (instructions : GoString) (messages : List Message) :
    GoString × List Message :=
  let instructions := trimSpace instructions
  match messages with
  | m :: ms =>
    if instructions ≠ [] ∧ m.role = roleSystem ∧ trimSpace (textValue m.parts) = instructions then
      (instructions, ms)
    else (instructions, m :: ms)
  | [] => (instructions, [])

/-- From the end towards the front, up to the user message that completes the turns; nothing
at or behind the index was counted in `turns` yet. -/
def splitScan (messages : List Message) (preserve : ℤ) : ℕ → ℤ → ℕ
  | 0, _ => 0
  | index + 1, turns =>
    if (messages[index]?.map Message.role) ≠ some roleUser then
      splitScan messages preserve index turns
    else if turns + 1 ≥ preserve then index
    else splitScan messages preserve index (turns + 1)

def portableCompactionSplit (messages : List Message) (preserveRecentTurns : ℤ) : ℕ :=
  if messages.length < 2 then 0
  else splitScan messages (orDefault preserveRecentTurns 1) messages.length 0

/-! ### The archive -/

/-- The canonical JSON of each message; no one may be too long for an artifact. -/
def encodeMessages : List Message → Except Failure (List GoString)
  | [] => .ok []
  | m :: ms =>
    match canonicalJSON m.encode with
    | none => .error .invalidInput
    | some data =>
      if data.length > maxArtifactPayloadBytes - 2 then
        .error (.payloadLimit (data.length + 2) maxArtifactPayloadBytes)
      else match encodeMessages ms with
        | .error e => .error e
        | .ok encoded => .ok (data :: encoded)

/-- Texts are taken while the array with them stays within the ceiling; `size` is that of
the array so far. -/
def takeChunk (size : ℕ) (first : Bool) : List GoString → List GoString × List GoString
  | [] => ([], [])
  | t :: ts =>
    let nextSize := size + t.length + if first then 0 else 1
    if nextSize > maxArtifactPayloadBytes then ([], t :: ts)
    else
      let next := takeChunk nextSize false ts
      (t :: next.1, next.2)

/-- An array of raw messages. -/
def encodeRaws (texts : List GoString) : Option Value :=
  if texts.all fun t => (readRaw t).isSome then some (.array (texts.map rawTree)) else none

section Archive

variable (P : Platform)

def newArtifact (kind scopeID : GoString) (generation : Int64) (sourceID content contentJSON :
    GoString) : Except Failure Artifact :=
  normalizeArtifact P
    { kind := kind
      scopeID := trimSpace scopeID
      generation := generation
      sourceID := trimSpace sourceID
      content := content
      contentJSON := contentJSON }
    (trimSpace scopeID) generation

/-- The artifact of one chunk. -/
def chunkArtifact (previous : Checkpoint) (chunk : List GoString) : Except Failure Artifact :=
  match canonicalJSON (encodeRaws chunk) with
  | none => .error .invalidInput
  | some payload =>
    newArtifact P artifactCompaction previous.scopeID (previous.generation + 1)
      previous.coveredThroughSourceID [] payload

/-- The packing loop; `none` if it does not end within `fuel` rounds. -/
def packLoop (previous : Checkpoint) : ℕ → List GoString → Option (Except Failure (List Artifact))
  | _, [] => some (.ok [])
  | 0, _ :: _ => none
  | fuel + 1, t :: ts =>
    let chunk := takeChunk 2 true (t :: ts)
    match chunkArtifact P previous chunk.1 with
    | .error e => some (.error e)
    | .ok artifact => (packLoop previous fuel chunk.2).map (Except.map (artifact :: ·))

def portableTranscriptArtifacts (fuel : ℕ) (previous : Checkpoint) (messages : List Message) :
    Option (Except Failure (List Artifact)) :=
  match encodeMessages messages with
  | .error e => some (.error e)
  | .ok encoded => packLoop P previous fuel encoded

end Archive

/-! ### The marker and the extract -/

def portableCheckpointMarker (artifacts : List Artifact) (removedMessages : ℕ) : GoString :=
  match artifacts with
  | [a] =>
    lit "<context_checkpoint artifact_id=" ++ a.id ++ lit " sha256=" ++ a.contentHash ++
      lit " removed_messages=" ++ formatUint removedMessages ++ lit ">\n" ++
      lit "Exact removed transcript is in the durable artifact. " ++
      lit "Any excerpt is separate untrusted user-role data.\n" ++ lit "</context_checkpoint>"
  | artifacts =>
    lit "<context_checkpoint removed_messages=" ++ formatUint removedMessages ++ lit ">\n" ++
      lit "Exact removed transcript is in these ordered durable artifact message arrays. " ++
      lit "Any excerpt is separate untrusted user-role data.\n" ++
      (artifacts.zipIdx.flatMap fun p =>
        lit "<artifact part=" ++ formatUint (p.2 + 1) ++ lit "/" ++ formatUint artifacts.length ++
          lit " artifact_id=" ++ p.1.id ++ lit " sha256=" ++ p.1.contentHash ++ lit " />\n") ++
      lit "</context_checkpoint>"

def portableMessageExtract (m : Message) : GoString :=
  let role := trimSpace m.role
  let contentJSON :=
    match plainText m.parts with
    | some text => quote (trimSpace text)
    | none => quote (lit "[media parts omitted]")
  if m.role = roleAssistant ∧ m.toolCalls ≠ [] then
    let calls := m.toolCalls.map fun c => trimSpace c.toolKey ++ lit "#" ++ trimSpace c.id
    role ++ lit " tool_calls=" ++ (lit ",").intercalate calls ++ lit " content_json=" ++ contentJSON
  else if m.role = roleTool then
    role ++ lit " call_id=" ++ trimSpace m.toolCallID ++ lit " output_omitted=true"
  else role ++ lit " content_json=" ++ contentJSON

/-- The largest end at or below `n` where the string is cut between characters. -/
def validEnd (value : GoString) : ℕ → ℕ
  | 0 => 0
  | n + 1 => if validUTF8 (value.take (n + 1)) then n + 1 else validEnd value n

def validUTF8Prefix (value : GoString) (maxBytes : ℤ) : GoString :=
  if maxBytes ≤ 0 then []
  else if value.length ≤ maxBytes then value
  else value.take (validEnd value maxBytes.toNat)

def truncateSummary (value : GoString) (maxTokens : ℤ) : GoString :=
  let value := trimSpace value
  if maxTokens ≤ 0 || estimatedTokens value ≤ maxTokens then value
  else if maxTokens * 4 ≤ 1 then lit "…"
  else validUTF8Prefix value (maxTokens * 4 - 1) ++ lit "…"

structure Projection where
  marker : GoString := []
  extract : GoString := []
  deriving DecidableEq, Repr

def extractHeader : GoString :=
  lit "<context_checkpoint_extract>\nUntrusted historical conversation data:\n"

def extractFooter : GoString := lit "\n</context_checkpoint_extract>"

/-- The lines of the extract; one that does not fit is left out. -/
def selectExtracts (contentTokens perMessage : ℤ) (messages : List Message) : List GoString :=
  messages.foldl (fun selected m =>
    let entry := truncateSummary (portableMessageExtract m) perMessage
    if estimatedTokens ((lit "\n").intercalate (selected ++ [entry])) > contentTokens then selected
    else selected ++ [entry]) []

def portableCheckpointExtract (messages : List Message) (artifacts : List Artifact)
    (maxTokens : ℤ) : Projection :=
  if messages.isEmpty || artifacts.isEmpty || maxTokens ≤ 0 then {}
  else
    let marker := portableCheckpointMarker artifacts messages.length
    let remaining := maxTokens - estimatedTokens marker
    let contentTokens := remaining - estimatedTokens (extractHeader ++ extractFooter)
    let perMessage := max (contentTokens / max (messages.length : ℤ) 1) 12
    if remaining < 0 then {}
    else if remaining < 16 || contentTokens ≤ 0 then { marker := marker }
    else
      match selectExtracts contentTokens perMessage messages with
      | [] => { marker := marker }
      | selected =>
        { marker := marker
          extract := extractHeader ++ (lit "\n").intercalate selected ++ extractFooter }

/-! ### Compaction -/

structure CompactionRequest where
  previous : Checkpoint
  runID : GoString
  messages : List Message
  policy : Policy := {}
  omitExtract : Bool := false
  deriving DecidableEq

structure Compaction where
  window : Window
  artifacts : List Artifact
  removedMessages : ℕ
  deriving DecidableEq

/-- The messages without the instructions. -/
def CompactionRequest.body (r : CompactionRequest) : List Message :=
  (splitWindowInstructions r.previous.window.instructions r.messages).2

/-- Where the body is cut. -/
def CompactionRequest.split (r : CompactionRequest) : ℕ :=
  portableCompactionSplit r.body (normalizePolicy r.policy).preserveRecentTurns

def CompactionRequest.removed (r : CompactionRequest) : List Message := r.body.take r.split

def CompactionRequest.retained (r : CompactionRequest) : List Message := r.body.drop r.split

section Compaction

variable (P : Platform)

/-- The entry of a retained message; it keeps the source of the entry at its place. -/
def retainedEntry (r : CompactionRequest) (index : ℕ) (m : Message) : Entry :=
  let id := stableID P (lit "ctxe") [r.previous.scopeID, itoa (r.previous.generation + 1),
    trimSpace r.runID, formatUint index, hashBytes P ((canonicalJSON m.encode).getD [])]
  match r.previous.window.entries[r.split + index]? with
  | some source =>
    { id := id
      turnID := source.turnID
      sourceID := source.sourceID
      required := source.required
      message := m }
  | none => { id := id, turnID := trimSpace r.runID, message := m }

/-- The entries that stand for the removed messages. -/
def rolloverEntries (r : CompactionRequest) (artifacts : List Artifact) (projection : Projection) :
    List Entry :=
  let archive := (lit ",").intercalate (artifacts.map Artifact.id)
  let generation := itoa (r.previous.generation + 1)
  let marker : Entry :=
    { id := stableID P (lit "ctxe") [r.previous.scopeID, generation, archive]
      turnID := lit "context_rollover"
      required := true
      message := { role := roleSystem, content := textParts projection.marker } }
  let extract : Entry :=
    { id := stableID P (lit "ctxe") [r.previous.scopeID, generation, archive, lit "extract"]
      turnID := lit "context_rollover"
      required := true
      message := { role := roleUser, content := textParts projection.extract } }
  if blank projection.extract || r.omitExtract then [marker] else [marker, extract]

/-- The compacted window. -/
def compactedWindow (r : CompactionRequest) (artifacts : List Artifact) (projection : Projection) :
    Window where
  instructions := (splitWindowInstructions r.previous.window.instructions r.messages).1
  entries := rolloverEntries P r artifacts projection ++
    r.retained.mapIdx fun index m => retainedEntry P r index m

/-- The end of a compaction: the marker must fit into its budget. -/
def compactInto (r : CompactionRequest) (artifacts : List Artifact) (projection : Projection) :
    Except Failure Compaction :=
  if blank projection.marker then .error .budgetExceeded
  else .ok
    { window := compactedWindow P r artifacts projection
      artifacts := artifacts
      removedMessages := r.removed.length }

/-- `CompactPortable`; `none` if the packing loop does not end within `fuel` rounds. -/
def compactPortable (fuel : ℕ) (r : CompactionRequest) : Option (Except Failure Compaction) :=
  if !validCheckpoint P r.previous || blank r.runID || r.messages.isEmpty then
    some (.error .invalidInput)
  else if !messagesPrefix (materialize r.previous.window) r.messages then
    some (.error .lineageConflict)
  else if r.split = 0 || r.split ≥ r.body.length then some (.error .budgetExceeded)
  else match portableTranscriptArtifacts P fuel r.previous r.removed with
    | none => none
    | some (.error e) => some (.error e)
    | some (.ok artifacts) =>
      some (compactInto P r artifacts (portableCheckpointExtract r.removed artifacts
        (normalizePolicy r.policy).maxCompactionTokens))

end Compaction

/-! ### Where the transcript is cut -/

/-- The number of user messages. -/
def userTurns (messages : List Message) : ℕ := messages.countP fun m => m.role = roleUser

/-- The cut stands before a user message, and what lies between it and the index completes
the turns. -/
theorem splitScan_spec {messages : List Message} {preserve : ℤ} :
    ∀ {index : ℕ} {turns : ℤ}, index ≤ messages.length → turns < preserve →
      splitScan messages preserve index turns ≠ 0 →
      ∃ m rest, (messages.take index).drop (splitScan messages preserve index turns) = m :: rest ∧
        m.role = roleUser ∧
        turns + userTurns ((messages.take index).drop (splitScan messages preserve index turns)) =
          preserve := by
  intro index
  induction index with
  | zero => exact fun _ _ h => absurd rfl h
  | succ index ih =>
    intro _ hindex hturns hsplit
    have htake : messages.take (index + 1) = messages.take index ++ [messages[index]] :=
      take_succ_eq_append_getElem hindex
    have hsome : messages[index]? = some messages[index] := getElem?_eq_getElem hindex
    have hlength : (messages.take index).length = index := by
      rw [length_take]
      exact Nat.min_eq_left (Nat.le_of_succ_le hindex)
    -- a cut further in front keeps the message at the index
    have hlonger : ∀ k m rest, (messages.take index).drop k = m :: rest →
        (messages.take (index + 1)).drop k = m :: (rest ++ [messages[index]]) := by
      intro k m _ h
      have hk : k ≤ (messages.take index).length := by
        by_contra hk
        rw [drop_eq_nil_of_le (by omega)] at h
        cases h
      rw [htake, drop_append_of_le_length hk, h, cons_append]
    rw [splitScan, hsome] at hsplit ⊢
    split at hsplit
    · rename_i hrole
      rw [if_pos hrole]
      obtain ⟨m, rest, hdrop, hm, hcount⟩ := ih (Nat.le_of_succ_le hindex) hturns hsplit
      refine ⟨m, rest ++ [messages[index]], hlonger _ m rest hdrop, hm, ?_⟩
      have hother : messages[index].role ≠ roleUser := by simpa using hrole
      rw [hlonger _ m rest hdrop]
      rw [hdrop] at hcount
      simpa [userTurns, countP_cons, countP_append, hother] using hcount
    · rename_i hrole
      have huser : messages[index].role = roleUser := by simpa using hrole
      rw [if_neg hrole]
      split at hsplit
      · rename_i hdone
        rw [if_pos hdone]
        have hdrop : (messages.take (index + 1)).drop index = [messages[index]] := by
          rw [htake, drop_append_of_le_length (by omega),
            drop_eq_nil_of_le (by omega), nil_append]
        refine ⟨_, [], hdrop, huser, ?_⟩
        rw [hdrop]
        simp [userTurns, huser]
        omega
      · rename_i hmore
        rw [if_neg hmore]
        obtain ⟨m, rest, hdrop, hm, hcount⟩ :=
          ih (Nat.le_of_succ_le hindex) (by omega) hsplit
        refine ⟨m, rest ++ [messages[index]], hlonger _ m rest hdrop, hm, ?_⟩
        rw [hlonger _ m rest hdrop]
        rw [hdrop] at hcount
        simp only [userTurns, countP_cons, countP_append, countP_nil, huser] at hcount ⊢
        simp only [decide_true, if_true]
        omega

lemma preserveRecentTurns_pos (p : Policy) : 0 < (normalizePolicy p).preserveRecentTurns := by
  have hmin : 0 < orDefault p.minimumRecentTurns 1 := by
    rw [orDefault]
    split <;> omega
  exact lt_of_lt_of_le hmin (le_max_right _ _)

/-- What is retained begins with the user message that opens the last turns. -/
lemma retained_spec {r : CompactionRequest} (h : r.split ≠ 0) :
    ∃ m rest, r.retained = m :: rest ∧ m.role = roleUser ∧
      (userTurns r.retained : ℤ) = (normalizePolicy r.policy).preserveRecentTurns := by
  have hpos := preserveRecentTurns_pos r.policy
  have hdefault : orDefault (normalizePolicy r.policy).preserveRecentTurns 1 =
      (normalizePolicy r.policy).preserveRecentTurns := if_neg (by omega)
  have hsplit : r.split = splitScan r.body (normalizePolicy r.policy).preserveRecentTurns
      r.body.length 0 := by
    rw [CompactionRequest.split, portableCompactionSplit] at h ⊢
    split
    · rename_i hshort
      rw [if_pos hshort] at h
      exact absurd rfl h
    · rw [hdefault]
  rw [hsplit] at h
  obtain ⟨m, rest, hdrop, hm, hcount⟩ := splitScan_spec le_rfl hpos h
  rw [take_length, ← hsplit] at hdrop hcount
  refine ⟨m, rest, hdrop, hm, ?_⟩
  rw [CompactionRequest.retained]
  omega

/-! ### Packing -/

lemma takeChunk_append (size : ℕ) (first : Bool) (ts : List GoString) :
    (takeChunk size first ts).1 ++ (takeChunk size first ts).2 = ts := by
  induction ts generalizing size first with
  | nil => rfl
  | cons t _ ih =>
    by_cases hlarge : size + t.length + (if first then 0 else 1) > maxArtifactPayloadBytes
    · rw [takeChunk, if_pos hlarge]
      rfl
    · rw [takeChunk, if_neg hlarge]
      exact congrArg (t :: ·) (ih _ _)

lemma takeChunk_progress {t : GoString} (ts : List GoString)
    (h : t.length ≤ maxArtifactPayloadBytes - 2) :
    (takeChunk 2 true (t :: ts)).2.length ≤ ts.length := by
  have hmax : 2 ≤ maxArtifactPayloadBytes := by decide
  have hfits : ¬ 2 + t.length + (if true then 0 else 1) > maxArtifactPayloadBytes := by
    simp only [if_true]
    omega
  rw [takeChunk, if_neg hfits]
  have happend := congrArg length (takeChunk_append
    (2 + t.length + if true then 0 else 1) false ts)
  rw [length_append] at happend
  exact Nat.le.intro ((Nat.add_comm _ _).trans happend)

section Archive

variable {P : Platform} {a : Artifact} {v : Value} {previous : Checkpoint}

/-- **The packing ends**: every round takes at least one text. -/
theorem packLoop_isSome (previous : Checkpoint) : ∀ {fuel : ℕ} {ts : List GoString},
    (∀ t ∈ ts, t.length ≤ maxArtifactPayloadBytes - 2) → ts.length ≤ fuel →
      (packLoop P previous fuel ts).isSome = true := by
  intro fuel
  induction fuel with
  | zero =>
    intro _ _ hfuel
    obtain rfl := length_eq_zero_iff.mp (Nat.le_zero.mp hfuel)
    rfl
  | succ _ ih =>
    intro ts hsmall hfuel
    obtain _ | ⟨t, ts⟩ := ts
    · rfl
    have hprogress := takeChunk_progress ts (hsmall t mem_cons_self)
    rw [packLoop]
    split
    · rfl
    rw [Option.isSome_map]
    refine ih (fun u hu => hsmall u ?_) ?_
    · rw [← takeChunk_append 2 true (t :: ts)]
      exact mem_append_right _ hu
    · rw [length_cons] at hfuel
      omega

/-- The canonical text of a message. -/
def text (m : Message) : GoString := render (decoded m.tree)

lemma encodeMessages_ok : ∀ {ms : List Message} {encoded : List GoString},
    encodeMessages ms = .ok encoded → encoded = ms.map text ∧
      ∀ m ∈ ms, canonicalJSON m.encode = some (text m) ∧
        (text m).length ≤ maxArtifactPayloadBytes - 2
  | [], encoded, h => by
    rw [← Except.ok.inj h]
    exact ⟨rfl, by simp⟩
  | m :: ms, encoded, h => by
    rw [encodeMessages] at h
    split at h
    · cases h
    rename_i hdata
    obtain ⟨-, rfl, -⟩ := Message.canonicalJSON_eq_some hdata
    split at h
    · cases h
    rename_i hsmall
    split at h
    · cases h
    rename_i hrest
    obtain ⟨rfl, hall⟩ := encodeMessages_ok hrest
    rw [← Except.ok.inj h]
    exact ⟨rfl, forall_mem_cons.mpr ⟨⟨hdata, Nat.le_of_not_lt hsmall⟩, hall⟩⟩

/-! ### What an artifact holds -/

/-- The messages that the payload of an artifact decodes to. -/
def Artifact.messages (a : Artifact) : Option (List Message) :=
  (parse a.contentJSON).bind (decodeSlice decodeMessage)

lemma sealArtifact_ok {b : Artifact} (h : sealArtifact P a = .ok b) :
    b.contentJSON = normalizeRawJSON a.contentJSON ∧ b.content = a.content ∧
      a.content.length + a.contentJSON.length ≤ maxArtifactPayloadBytes := by
  rw [sealArtifact] at h
  split at h
  · cases h
  split at h
  · cases h
  rename_i hsize
  split at h
  · cases h
  rw [← Except.ok.inj h]
  exact ⟨rfl, rfl, Nat.le_of_not_lt hsize⟩

/-- A value that a round left stays as it is. -/
lemma decoded_of_canonical {n : ℕ} (h : Canonical v n) : decoded v = v := by
  rw [decoded, h.clean]
  exact (decodeAny_eq_some.mp h.decoded).2.symm

lemma render_ne_nil {n : ℕ} (h : Legible v n) : render v ≠ [] := by
  obtain ⟨b, u, hrender, -⟩ := render_head h
  rw [hrender]
  exact cons_ne_nil _ _

lemma readRaw_render (h : Canonical v 10000) : readRaw (render v) = some v := by
  rw [readRaw, if_neg (render_ne_nil h.legible), h.parse]

/-- **What the artifact of a chunk holds.** -/
theorem chunkArtifact_ok {ms : List Message} (hms : ∀ m ∈ ms, Canonical (decoded m.tree) 10000)
    (h : chunkArtifact P previous (ms.map text) = .ok a) :
    a.messages = some (ms.map Message.round) ∧
      a.content.length + a.contentJSON.length ≤ maxArtifactPayloadBytes := by
  have hread : ∀ m ∈ ms, readRaw (text m) = some (decoded m.tree) :=
    fun m hm => readRaw_render (hms m hm)
  have hraws : encodeRaws (ms.map text) = some (.array (ms.map fun m => decoded m.tree)) := by
    have hall : ((ms.map text).all fun t => (readRaw t).isSome) = true := by
      rw [all_eq_true]
      intro t ht
      obtain ⟨m, hm, rfl⟩ := mem_map.mp ht
      rw [hread m hm]
      rfl
    rw [encodeRaws, if_pos hall, map_map]
    refine congrArg (fun vs => some (Value.array vs)) (map_congr_left fun m hm => ?_)
    rw [Function.comp_apply, rawTree, hread m hm, Option.getD_some]
  have hlegible : ∀ u ∈ encodeRaws (ms.map text), Legible u 10001 := by
    rw [hraws]
    intro u hu
    rw [← Option.some.inj hu, legible_array]
    exact forall_mem_map.mpr fun m hm => (hms m hm).legible
  rw [chunkArtifact] at h
  split at h
  · cases h
  rename_i payload hpayload
  obtain ⟨u, hu, -, hcanonical, rfl⟩ := canonicalJSON_eq_some hlegible hpayload
  obtain hu := Option.some.inj (hu.symm.trans hraws)
  obtain ⟨hcontent, hempty, _⟩ := sealArtifact_ok h
  -- the payload is canonical already, so that the artifact keeps it
  have hjson : a.contentJSON = render (decoded u) := by
    have hrecode : recode (render (decoded u)) = some (render (decoded u)) := by
      rw [recode, hcanonical.parse, Option.bind_some, hcanonical.decoded]
      rfl
    rw [hcontent]
    show normalizeRawJSON (render (decoded u)) = _
    rw [normalizeRawJSON, if_neg (render_ne_nil hcanonical.legible), hrecode]
    rfl
  constructor
  · rw [Artifact.messages, hjson, hcanonical.parse]
    have hdecode : decodeSlice decodeMessage (decoded (.array (ms.map Message.tree))) =
        some (ms.map Message.round) := decodeSlice_decoded decodeMessage_decoded ms
    rw [← hdecode, hu, decoded_array, decoded_array, map_map, map_map]
    refine congrArg (fun vs => decodeSlice decodeMessage (Value.array vs))
      (map_congr_left fun m hm => ?_)
    exact decoded_of_canonical (hms m hm)
  · rwa [hempty, hjson]

/-- **What the archive holds**, and how large its artifacts are. -/
theorem packLoop_ok : ∀ {fuel : ℕ} {ms : List Message}
    {artifacts : List Artifact}, (∀ m ∈ ms, Canonical (decoded m.tree) 10000) →
      packLoop P previous fuel (ms.map text) = some (.ok artifacts) →
      (artifacts.mapM Artifact.messages).map flatten = some (ms.map Message.round) ∧
        ∀ a ∈ artifacts, a.content.length + a.contentJSON.length ≤ maxArtifactPayloadBytes := by
  intro fuel
  induction fuel with
  | zero =>
    intro ms _ _ h
    cases ms with
    | nil =>
      rw [← Except.ok.inj (Option.some.inj h)]
      exact ⟨rfl, by simp⟩
    | cons => cases h
  | succ _ ih =>
    intro ms _ hms h
    obtain _ | ⟨m, ms⟩ := ms
    · rw [← Except.ok.inj (Option.some.inj h)]
      exact ⟨rfl, by simp⟩
    have happend := takeChunk_append 2 true ((m :: ms).map text)
    obtain ⟨_, _, hsplit, hxs, hys⟩ := map_eq_append_iff.mp happend.symm
    rw [map_cons, packLoop, ← map_cons, ← hxs, ← hys] at h
    split at h
    · cases h
    rename_i hartifact
    obtain ⟨result, hresult, hmap⟩ := Option.map_eq_some_iff.mp h
    obtain e | _ := result
    · cases hmap
    rw [hsplit] at hms
    obtain ⟨hfirst, hsize⟩ := chunkArtifact_ok
      (fun m hm => hms m (mem_append_left _ hm)) hartifact
    obtain ⟨hrest, hsizes⟩ := ih (fun m hm => hms m (mem_append_right _ hm)) hresult
    rw [← Except.ok.inj hmap, hsplit]
    refine ⟨?_, forall_mem_cons.mpr ⟨hsize, hsizes⟩⟩
    obtain ⟨_, harchived, hflatten⟩ := Option.map_eq_some_iff.mp hrest
    rw [mapM_cons, hfirst, harchived, map_append, ← hflatten]
    rfl

end Archive

/-! ### The compaction -/

section Compaction

variable {P : Platform} {fuel : ℕ} {ms : List Message}

/-- What a compaction has checked and made. -/
lemma compactPortable_ok {r : CompactionRequest} {result : Compaction}
    (h : compactPortable P fuel r = some (.ok result)) :
    Valid P r.previous ∧ r.split ≠ 0 ∧ r.split < r.body.length ∧
      portableTranscriptArtifacts P fuel r.previous r.removed = some (.ok result.artifacts) ∧
      result.removedMessages = r.removed.length ∧
      ∃ projection, result.window = compactedWindow P r result.artifacts projection := by
  rw [compactPortable] at h
  split at h
  · cases h
  rename_i hvalid
  simp only [Bool.or_eq_true, Bool.not_eq_true', not_or, Bool.not_eq_false] at hvalid
  split at h
  · cases h
  split at h
  · cases h
  rename_i hsplit
  simp only [Bool.or_eq_true, decide_eq_true_eq, not_or, ge_iff_le, not_le] at hsplit
  split at h
  · cases h
  · cases h
  rename_i hartifacts
  have hinto := Option.some.inj h
  rw [compactInto] at hinto
  split at hinto
  · cases hinto
  rw [← Except.ok.inj hinto]
  exact ⟨(validCheckpoint_iff P _).mp hvalid.1.1, hsplit.1, hsplit.2, hartifacts, rfl, _, rfl⟩

lemma compactedWindow_messages (r : CompactionRequest) (artifacts : List Artifact)
    (projection : Projection) :
    ∃ head, (compactedWindow P r artifacts projection).entries.map Entry.message =
      head ++ r.retained ∧ (head.length = 1 ∨ head.length = 2) := by
  have hmessage : ∀ index m, (retainedEntry P r index m).message = m := by
    intro _ m
    simp only [retainedEntry]
    split <;> rfl
  have hretained : (r.retained.mapIdx (retainedEntry P r)).map
      Entry.message = r.retained := by
    refine ext_getElem (by simp) fun index _ _ => ?_
    simp [hmessage]
  refine ⟨(rolloverEntries P r artifacts projection).map Entry.message, ?_, ?_⟩
  · rw [compactedWindow, map_append, hretained]
  rw [rolloverEntries]
  split
  · exact .inl rfl
  · exact .inr rfl

lemma portableTranscriptArtifacts_ok {previous : Checkpoint} {artifacts : List Artifact}
    (h : portableTranscriptArtifacts P fuel previous ms = some (.ok artifacts)) :
    (artifacts.mapM Artifact.messages).map flatten = some (ms.map Message.round) ∧
      (∀ a ∈ artifacts, a.content.length + a.contentJSON.length ≤ maxArtifactPayloadBytes) ∧
      (List.Forall₂ SameMessage (ms.map Message.round) ms ↔ ∀ m ∈ ms, Faithful m) := by
  rw [portableTranscriptArtifacts] at h
  split at h
  · cases h
  rename_i hencoded
  obtain ⟨rfl, hall⟩ := encodeMessages_ok hencoded
  obtain ⟨hmessages, hsizes⟩ := packLoop_ok
    (fun m hm => (Message.canonicalJSON_eq_some (hall m hm).1).1) h
  refine ⟨hmessages, hsizes, ?_⟩
  rw [forall₂_map_same]
  exact forall₂_congr fun m hm => sameMessage_round (hall m hm).1

lemma portableTranscriptArtifacts_isSome (previous : Checkpoint) (h : ms.length ≤ fuel) :
    (portableTranscriptArtifacts P fuel previous ms).isSome = true := by
  rw [portableTranscriptArtifacts]
  split
  · rfl
  rename_i hencoded
  obtain ⟨rfl, hall⟩ := encodeMessages_ok hencoded
  refine packLoop_isSome previous ?_ (by rwa [length_map])
  exact forall_mem_map.mpr fun m hm => (hall m hm).2

lemma compactPortable_isSome (r : CompactionRequest) (h : r.removed.length ≤ fuel) :
    (compactPortable P fuel r).isSome = true := by
  rw [compactPortable]
  split
  · rfl
  split
  · rfl
  split
  · rfl
  split
  · rename_i hnone
    have hsome := portableTranscriptArtifacts_isSome (P := P) r.previous h
    rw [hnone] at hsome
    cases hsome
  all_goals rfl

end Compaction

/-- **Portable compaction.**  It ends; what it removes and retains is the body, cut before the
user message that opens the last turns; the brackets stay in order; the artifacts are within
their ceiling; and they decode to the removed messages if every number is kept and every
string is Unicode, those inside raw JSON included, and only then. -/
theorem portable_compaction (P : Platform) (r : CompactionRequest) (fuel : ℕ) :
    (r.removed.length ≤ fuel → (compactPortable P fuel r).isSome = true) ∧
    ∀ result, compactPortable P fuel r = some (.ok result) →
      r.removed ++ r.retained = r.body ∧ result.removedMessages = r.removed.length ∧
      (∃ head, result.window.entries.map Entry.message = head ++ r.retained ∧
        (head.length = 1 ∨ head.length = 2)) ∧
      (∃ m rest, r.retained = m :: rest ∧ m.role = roleUser ∧
        (userTurns r.retained : ℤ) = (normalizePolicy r.policy).preserveRecentTurns) ∧
      (∀ a ∈ result.artifacts, a.content.length + a.contentJSON.length ≤ maxArtifactPayloadBytes) ∧
      (Bracketed r.body → Bracketed r.removed ∧ Bracketed r.retained) ∧
      ∃ archived, (result.artifacts.mapM Artifact.messages).map List.flatten = some archived ∧
        (List.Forall₂ SameMessage archived r.removed ↔ ∀ m ∈ r.removed, Faithful m) := by
  refine ⟨compactPortable_isSome r, fun result h => ?_⟩
  obtain ⟨-, hsplit, -, hartifacts, hcount, projection, hwindow⟩ := compactPortable_ok h
  obtain ⟨harchived, hsizes, hfaithful⟩ := portableTranscriptArtifacts_ok hartifacts
  obtain ⟨m, rest, hretained, hm, hturns⟩ := retained_spec hsplit
  have hbody : r.removed ++ r.retained = r.body := take_append_drop _ _
  refine ⟨hbody, hcount, ?_, ⟨m, rest, hretained, hm, hturns⟩, hsizes, fun hbracketed => ?_,
    _, harchived, hfaithful⟩
  · rw [hwindow]
    exact compactedWindow_messages r result.artifacts projection
  rw [← hbody, hretained] at hbracketed
  rw [hretained]
  exact bracketed_cut hm hbracketed

/-! ### Numbers in the archive -/

/-- The exchange before one more user message is to be compacted. -/
def exchangeCompaction (data : GoString) : CompactionRequest where
  previous := answered data
  runID := lit "run"
  messages := exchange data ++ [{ role := roleUser, content := textParts (lit "again") }]
  policy := { preserveRecentTurns := 1 }

/-- The result of that. -/
def exchangeResult (data : GoString) : Option Compaction :=
  (compactPortable samplePlatform 2 (exchangeCompaction data)).bind Except.toOption

lemma exchangeResult_eq_some {data : GoString} {result : Compaction}
    (h : exchangeResult data = some result) :
    compactPortable samplePlatform 2 (exchangeCompaction data) = some (.ok result) := by
  obtain ⟨x, hx, hok⟩ := Option.bind_eq_some_iff.mp h
  cases x with
  | error => cases hok
  | ok =>
    cases hok
    exact hx

theorem portable_compaction_exchange :
    ∃ result archived,
      compactPortable samplePlatform 2 (exchangeCompaction (lit "1.0")) = some (.ok result) ∧
        (result.artifacts.mapM Artifact.messages).map List.flatten = some archived ∧
        List.Forall₂ SameMessage archived (exchange (lit "1.0")) := by
  have hremoved : (exchangeCompaction (lit "1.0")).removed = exchange (lit "1.0") := by
    decide +kernel
  have hsome : (exchangeResult (lit "1.0")).isSome = true := by decide +kernel
  obtain ⟨result, hresult⟩ := Option.isSome_iff_exists.mp hsome
  have hcompact := exchangeResult_eq_some hresult
  obtain ⟨-, -, -, -, -, -, archived, harchived, hiff⟩ :=
    (portable_compaction samplePlatform (exchangeCompaction (lit "1.0")) 2).2 result hcompact
  rw [hremoved] at hiff
  refine ⟨result, archived, hcompact, harchived, hiff.mpr ?_⟩
  have hkept : KeptRaw (lit "1.0") := by
    intro v hv
    obtain rfl : .number (lit "1.0") = v := Option.some.inj hv
    refine ⟨fun path l hl => ?_, fun path s hs => ?_, fun path w hw => ?_⟩
    · obtain ⟨-, hl⟩ := follow_number hl
      cases hl
      exact ⟨lit "1", by decide +kernel, by decide +kernel⟩
    · obtain ⟨-, hs⟩ := follow_number hs
      cases hs
    · obtain ⟨rfl, -⟩ := follow_number hw
      simp
  rw [exchange, forall_mem_cons, forall_mem_singleton]
  refine ⟨⟨by decide +kernel, fun r hr => ?_⟩, ⟨by decide +kernel, fun r hr => ?_⟩⟩
  · cases hr
  · rwa [mem_singleton.mp hr]

/-- A payload is archived as another one. -/
theorem compaction_aliased : aliases.Forall fun p => ∃ result,
    compactPortable samplePlatform 2 (exchangeCompaction p.1) = some (.ok result) ∧
      (result.artifacts.mapM Artifact.messages).map List.flatten = some (exchange p.2) ∧
      ¬ List.Forall₂ SameMessage (exchange p.2) (exchangeCompaction p.1).removed := by
  have hdecoded : ∀ p ∈ aliases, ((exchangeResult p.1).map fun result =>
      (result.artifacts.mapM Artifact.messages).map flatten) = some (some (exchange p.2)) ∧
      (exchangeCompaction p.1).removed = exchange p.1 := by decide +kernel
  have hdiffer : ∀ p ∈ aliases, p.2 ≠ p.1 ∧
      (exactRaw p.2).map top ≠ (exactRaw p.1).map top := by decide +kernel
  refine forall_iff_forall_mem.mpr fun p hp => ?_
  obtain ⟨hsome, hremoved⟩ := hdecoded p hp
  obtain ⟨result, hresult, harchived⟩ := Option.map_eq_some_iff.mp hsome
  refine ⟨result, exchangeResult_eq_some hresult, harchived, fun h => ?_⟩
  rw [hremoved] at h
  obtain ⟨-, hsecond⟩ := forall₂_cons.mp h
  obtain ⟨⟨-, -, -, -, hreplay⟩, -⟩ := forall₂_cons.mp hsecond
  cases hreplay with
  | some hreplay => exact not_sameRaw (hdiffer p hp).1 (hdiffer p hp).2 hreplay.2.2

end ContextWindow
