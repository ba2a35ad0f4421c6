/-
The stable prefix of a model request, and what the content hash of a window tells.

`Capture` compares the messages of the active window with the beginning of a request by
their canonical JSON, and a checkpoint carries the hash of its window's canonical JSON.
Both see numbers as doubles only: two different numbers that become the same double are
taken for one, and a window with a number out of range has no hash at all.  Where nothing
is aliased, the comparison and the hash are exact.

* **`stable_prefix`** — the comparison and the hash are exact where nothing is aliased.
-/
import AgentRuntime.CheckpointLineage

namespace ContextWindow

open GoString GoJson Model List

/-- The same message, up to blanks around the role and the ID of the answered call. -/
def Same (m n : Message) : Prop := SameMessage (canonicalMessage m) (canonicalMessage n)

/-- Nothing in the two messages is different and looks alike. -/
def Clear (m n : Message) : Prop := NoAliasMessage (canonicalMessage m) (canonicalMessage n)

/-- Every message of the window can be stored, so that the window has a hash. -/
def Window.Hashed (w : Window) : Prop := ∀ e ∈ w.entries, Storable e.message

lemma same_canonicalMessage (m : Message) : Same (canonicalMessage m) m := by
  rw [Same, show canonicalMessage (canonicalMessage m) = canonicalMessage m by simp [canonicalMessage]]
  exact SameMessage.refl _

lemma forall₂_iff {α β : Type} {R S T : α → β → Prop} {xs : List α} {ys : List β}
    (h : List.Forall₂ R xs ys) (hiff : ∀ x y, R x y → (S x y ↔ T x y)) :
    List.Forall₂ S xs ys ↔ List.Forall₂ T xs ys :=
  ⟨fun hs => forall₂_and h hs fun x y hr => (hiff x y hr).mp,
    fun ht => forall₂_and h ht fun x y hr => (hiff x y hr).mpr⟩

/-! ### Capture -/

variable {m : Message} {P : Platform} {r : CaptureRequest} {next : Checkpoint} {w : Window}

lemma same_iff_of_sameMessage {n : Message} (h : sameMessage m n = true) :
    Same m n ↔ Clear m n := by
  rw [sameMessage] at h
  split at h
  · rename_i s t hs ht
    obtain rfl : s = t := by simpa using h
    exact sameMessage_iff_of_text hs ht
  · cases h

lemma forall₂_of_messagesPrefix : ∀ {ms ns : List Message}, messagesPrefix ms ns = true →
    List.Forall₂ (fun m n => sameMessage m n = true) ms (ns.take ms.length)
  | [], _, _ => by simp
  | _ :: _, [], h => by cases h
  | m :: ms, n :: ns, h => by
    rw [messagesPrefix, Bool.and_eq_true] at h
    exact .cons h.1 (forall₂_of_messagesPrefix h.2)

lemma entryMessages_runtimeEntries (P : Platform) (runID : GoString) (previous : Checkpoint)
    (count index : ℕ) (ms : List Message) :
    entryMessages (runtimeEntries P runID previous count index ms) = ms.map canonicalMessage := by
  have h := congrArg (map canonicalMessage) (runtimeEntries_messages (P := P) runID previous
    count index ms)
  rwa [map_map] at h

/-- The window of a captured checkpoint is the one before, with the rest of the request. -/
lemma materialize_captured (h : Captured P r next) :
    materialize next.window = materialize r.previous.window ++ r.tail.map canonicalMessage := by
  cases h with
  | kept htail => rw [htail, map_nil, append_nil]
  | artifacts htail =>
    rw [htail, map_nil, append_nil]
    rfl
  | tail =>
    show materialize ⟨r.previous.window.instructions, r.previous.window.entries ++ _⟩ = _
    rw [materialize, materialize, entryMessages_append, entryMessages_runtimeEntries,
      append_assoc]

/-- **What a capture has compared** is the same where nothing is aliased, and only there. -/
theorem capture_same (h : capture P r = .ok next) :
    (List.Forall₂ Same (materialize r.previous.window)
          (r.messages.take (materialize r.previous.window).length) ∧
        List.Forall₂ Same (materialize next.window) r.messages) ↔
      List.Forall₂ Clear (materialize r.previous.window)
        (r.messages.take (materialize r.previous.window).length) := by
  obtain ⟨-, hstart, -, -, hcaptured⟩ := capture_cases P h
  have hiff := forall₂_iff (forall₂_of_messagesPrefix hstart) fun _ _ => same_iff_of_sameMessage
  rw [← hiff]
  refine ⟨fun h => h.1, fun hsame => ⟨hsame, ?_⟩⟩
  have htail : List.Forall₂ Same (r.tail.map canonicalMessage) r.tail :=
    forall₂_map_same.mpr fun m _ => same_canonicalMessage m
  have hrequest : r.messages.take (materialize r.previous.window).length ++ r.tail = r.messages :=
    take_append_drop _ _
  rw [materialize_captured hcaptured, ← hrequest]
  exact rel_append hsame htail

/-! ### What a hash was taken of -/

/-- The message of an encoded entry. -/
def decodeEntry : Value → Option Message
  | .object ms => (optionField decodeMessage (lit "message") ms).join
  | _ => none

/-- The instructions and the messages of an encoded window. -/
def decodeWindow : Value → Option (GoString × List Message)
  | .object ms => do
    let instructions ← stringField (lit "instructions") ms
    let messages ← optionField (decodeSlice decodeEntry) (lit "entries") ms
    return (instructions, messages.getD [])
  | _ => none

lemma decodeEntry_decoded (e : Entry) : decodeEntry (decoded e.tree) = some e.message.round := by
  have hnames : Fields [lit "id", lit "turnID", lit "sourceID", lit "required", lit "message"] := by
    decide +kernel
  obtain ⟨ms, hms, hfield⟩ := membersNamed_decoded e.fields hnames
  simp only [Entry.fields, forall_mem_cons] at hfield
  obtain ⟨-, -, -, -, hmessage, -⟩ := hfield
  have hsome : membersNamed (lit "message") ms =
      (((some e.message).map Message.tree).map decoded).toList := hmessage
  rw [Entry.tree, hms, decodeEntry, optionField_decoded hsome
    (fun m => decoded_struct_ne_null m.fields) decodeMessage_decoded]
  rfl

/-- **Decoding a window after a round.** -/
theorem decodeWindow_decoded (w : Window) : decodeWindow (decoded w.tree) =
    some (toValidUTF8 w.instructions, w.entries.map fun e => e.message.round) := by
  have hnames : Fields [lit "instructions", lit "entries"] := by decide +kernel
  obtain ⟨ms, hms, hfield⟩ := membersNamed_decoded w.fields hnames
  simp only [Window.fields, forall_mem_cons] at hfield
  obtain ⟨hinstructions, hentries, -⟩ := hfield
  have hsome : membersNamed (lit "entries") ms =
      (((some w.entries).map fun es => Value.array (es.map Entry.tree)).map decoded).toList :=
    hentries
  have hnull : ∀ es : List Entry, decoded (.array (es.map Entry.tree)) ≠ .null := by
    intro _ h
    cases h
  rw [Window.tree, hms, decodeWindow, stringField_omitEmpty hinstructions,
    optionField_decoded hsome hnull (decodeSlice_decoded decodeEntry_decoded)]
  rfl

lemma instructionMessages_alike {s t : GoString} (h : toValidUTF8 s = toValidUTF8 t) :
    List.Forall₂ (fun m n => m.round = n.round) (instructionMessages s)
      (instructionMessages t) := by
  by_cases hs : s = []
  · have ht : t = [] := by
      rw [hs] at h
      exact toValidUTF8_eq_nil.mp h.symm
    rw [hs, ht]
    exact .nil
  have ht : t ≠ [] := by
    rintro rfl
    exact hs (toValidUTF8_eq_nil.mp h)
  rw [instructionMessages, instructionMessages, if_neg hs, if_neg ht]
  refine .cons ?_ .nil
  simp [Message.round, Message.map, instructionMessage, textParts, hs, ht, ContentPart.map, h]

lemma Storable.raws (h : Storable m) : ∀ r ∈ m.raws, ∃ v, readRaw r = some v ∧ InRange v := by
  intro r hr
  rcases mem_append.mp hr with hr | hr
  · obtain ⟨c, hc, rfl⟩ := mem_map.mp hr
    obtain ⟨v, hv, -, hrange⟩ := h.1 c hc
    exact ⟨v, hv, hrange⟩
  obtain ⟨x, hx, rfl⟩ := Option.map_eq_some_iff.mp (Option.mem_toList.mp hr)
  obtain ⟨v, hv, -, hrange⟩ := h.2 x hx
  exact ⟨v, hv, hrange⟩

/-- The messages of a window with a hash can be read. -/
lemma Window.Hashed.raws (h : w.Hashed) :
    ∀ m ∈ materialize w, ∀ r ∈ m.raws, ∃ v, readRaw r = some v ∧ InRange v := by
  intro m hm
  rcases mem_append.mp hm with hm | hm
  · rw [instructionMessages] at hm
    split at hm
    · cases hm
    rw [mem_singleton.mp hm]
    intro r hr
    cases hr
  · obtain ⟨e, he, rfl⟩ := mem_map.mp hm
    exact Storable.raws ((storable_normalizeEntry e).mpr (h e he))

lemma canonicalMessage_of_mem (h : m ∈ materialize w) : canonicalMessage m = m := by
  rcases mem_append.mp h with hm | hm
  · rw [instructionMessages] at hm
    split at hm
    · cases hm
    have hrole : trimSpace roleSystem = roleSystem := by decide +kernel
    have hnil : trimSpace [] = [] := by decide
    rw [mem_singleton.mp hm]
    simp [canonicalMessage, instructionMessage, hrole, hnil]
  · obtain ⟨e, -, rfl⟩ := mem_map.mp hm
    simp [canonicalMessage, normalizeEntry]

section Hashes

variable {w' : Window} {t : GoString}

lemma windowHash_of_not_hashed (h : ¬ w.Hashed) : windowHash P w = [] := by
  have hblank := (windowHash_blank_iff P w).not.mpr h
  rw [windowHash] at hblank ⊢
  split
  · rfl
  rename_i t ht
  rw [ht] at hblank
  exact absurd (hashBytes_not_blank P t) hblank

lemma windowHash_ne_nil (h : w.Hashed) : windowHash P w ≠ [] := by
  intro hnil
  have hblank := (windowHash_blank_iff P w).mpr h
  rw [hnil] at hblank
  cases hblank

/-- The canonical text that the hash of a window is taken of. -/
def Window.text (w : Window) : Option GoString := canonicalJSON (normalizeWindow w).encode

/-- The texts of the two windows are not a collision. -/
def NoCollision (P : Platform) (w w' : Window) : Prop :=
  ∀ t ∈ w.text, ∀ t' ∈ w'.text, P.sha256 t = P.sha256 t' → t = t'

lemma text_of_windowHash (hfree : NoCollision P w w') (hw : w.Hashed)
    (h : windowHash P w = windowHash P w') : ∃ t, w.text = some t ∧ w'.text = some t := by
  have hne := windowHash_ne_nil (P := P) hw
  rw [windowHash, ← Window.text] at h hne
  rw [windowHash, ← Window.text] at h
  rcases ht : w.text with _ | t
  · rw [ht] at hne
    exact absurd rfl hne
  rw [ht] at h
  cases ht' : w'.text with
  | none =>
    rw [ht'] at h
    exact absurd h (hashBytes_ne_nil P t)
  | some t' =>
    rw [ht'] at h
    rw [hfree t ht t' ht' (hexEncode_inj h)]
    exact ⟨t', rfl, rfl⟩

lemma Window.text_eq_some (h : w.text = some t) :
    Canonical (decoded (normalizeWindow w).tree) 10000 ∧
      t = render (decoded (normalizeWindow w).tree) := by
  have hlegible : ∀ u ∈ (normalizeWindow w).encode, Legible u 10006 := by
    intro u hu
    rw [(Window.encode_eq_some hu).1]
    exact Window.legible _
  obtain ⟨u, hu, -, hcanonical, rfl⟩ := canonicalJSON_eq_some hlegible h
  obtain ⟨rfl, -⟩ := Window.encode_eq_some hu
  exact ⟨hcanonical, rfl⟩

/-- Windows with one text come out of a round alike. -/
lemma alike_of_text (h : w.text = some t) (h' : w'.text = some t) :
    List.Forall₂ (fun m n => m.round = n.round) (materialize w) (materialize w') := by
  obtain ⟨hcanonical, ht⟩ := w.text_eq_some h
  obtain ⟨hcanonical', ht'⟩ := w'.text_eq_some h'
  have htree := hcanonical.render_inj hcanonical' (ht.symm.trans ht')
  have hdecode := decodeWindow_decoded (normalizeWindow w)
  rw [htree, decodeWindow_decoded, Option.some.injEq, Prod.mk.injEq] at hdecode
  obtain ⟨hinstructions, hmessages⟩ := hdecode
  refine rel_append (instructionMessages_alike hinstructions.symm) ?_
  have hrounds : (entryMessages w.entries).map Message.round =
      (entryMessages w'.entries).map Message.round := by
    simp only [normalizeWindow, map_map] at hmessages
    simpa [entryMessages, Function.comp_def] using hmessages.symm
  exact forall₂_of_map_eq hrounds

/-- **What two windows of one hash hold** is the same where nothing is aliased, and only
there. -/
theorem same_of_windowHash (hfree : NoCollision P w w') (hw : w.Hashed)
    (h : windowHash P w = windowHash P w') :
    List.Forall₂ Same (materialize w) (materialize w') ↔
      List.Forall₂ Clear (materialize w) (materialize w') := by
  have hw' : w'.Hashed := by
    by_contra hnot
    exact windowHash_ne_nil hw (h.trans (windowHash_of_not_hashed hnot))
  obtain ⟨t, ht, ht'⟩ := text_of_windowHash hfree hw h
  refine forall₂_iff (forall₂_mem (alike_of_text ht ht')) ?_
  rintro m n ⟨hm, hn, hround⟩
  rw [Same, Clear, canonicalMessage_of_mem hm, canonicalMessage_of_mem hn]
  exact sameMessage_iff_of_round hround (hw.raws m hm) (hw'.raws n hn)

end Hashes

/-! ### Exactness -/

/-- **The stable-prefix check and the content hash are exact where nothing is aliased**, and
only there.  A window that cannot be stored shares its empty hash with every other such
window. -/
theorem stable_prefix (P : Platform) :
    (∀ r next, capture P r = .ok next →
      ((List.Forall₂ Same (materialize r.previous.window)
            (r.messages.take (materialize r.previous.window).length) ∧
          List.Forall₂ Same (materialize next.window) r.messages) ↔
        List.Forall₂ Clear (materialize r.previous.window)
          (r.messages.take (materialize r.previous.window).length))) ∧
    ∀ w w', NoCollision P w w' →
      (w.Hashed → windowHash P w = windowHash P w' →
        (List.Forall₂ Same (materialize w) (materialize w') ↔
          List.Forall₂ Clear (materialize w) (materialize w'))) ∧
      (w.Hashed → ¬ w'.Hashed → windowHash P w ≠ windowHash P w') ∧
      (¬ w.Hashed → ¬ w'.Hashed → windowHash P w = windowHash P w') := by
  refine ⟨fun r next => capture_same, fun w w' hfree => ⟨same_of_windowHash hfree, ?_, ?_⟩⟩
  · intro hw hnot h
    exact windowHash_ne_nil hw (h.trans (windowHash_of_not_hashed hnot))
  · intro hnot hnot'
    rw [windowHash_of_not_hashed hnot, windowHash_of_not_hashed hnot']

/-! ### Numbers as replay payloads -/

/-- The messages of a greeting and an answer with a replay payload. -/
def exchange (data : GoString) : List Message :=
  [{ role := roleUser, content := textParts (lit "hello") },
    { role := roleAssistant, providerReplay := some ⟨lit "p", lit "f", data⟩ }]

/-- The checkpoint over the exchange. -/
def answered (data : GoString) : Checkpoint := captureTail samplePlatform (answerRequest data) []

/-- A request over the exchange with one payload, which now holds the other one. -/
def replacedRequest (data other : GoString) : CaptureRequest :=
  { answerRequest other with previous := answered data }

theorem stable_prefix_answered :
    List.Forall₂ Same (materialize (answered (lit "1.0")).window)
      (replacedRequest (lit "1.0") (lit "1")).messages := by
  have hcapture : capture samplePlatform (replacedRequest (lit "1.0") (lit "1")) =
      .ok (answered (lit "1.0")) := by decide +kernel
  have hwindow : materialize (answered (lit "1.0")).window = exchange (lit "1.0") := by
    decide +kernel
  have hmessages : (replacedRequest (lit "1.0") (lit "1")).messages = exchange (lit "1") := by
    decide +kernel
  have hraw : NoAliasRaw (lit "1.0") (lit "1") := by
    intro v w hv hw
    obtain rfl : .number (lit "1.0") = v := Option.some.inj hv
    obtain rfl : .number (lit "1") = w := Option.some.inj hw
    refine ⟨fun path l r hl hr _ => ?_, fun path s _ hs => ?_, fun path k hk => ?_⟩
    · obtain ⟨-, hl⟩ := follow_number hl
      obtain ⟨-, hr⟩ := follow_number hr
      cases hl
      cases hr
      decide +kernel
    · obtain ⟨-, hs⟩ := follow_number hs
      cases hs
    · cases path with
      | nil => cases hk
      | cons => exact fun _ => rfl
  have hstring : ∀ s, NoAliasString s s := fun s _ => rfl
  refine ((( stable_prefix samplePlatform).1 _ _ hcapture).mpr ?_).2
  show List.Forall₂ Clear (materialize (answered (lit "1.0")).window)
    ((replacedRequest (lit "1.0") (lit "1")).messages.take
      (materialize (answered (lit "1.0")).window).length)
  refine .cons ?_ (.cons ?_ .nil)
  · refine ⟨hstring _, .some (.cons ⟨hstring _, hstring _, hstring _, .none⟩ .nil), .nil,
      hstring _, .none⟩
  · exact ⟨hstring _, .none, .nil, hstring _, .some ⟨hstring _, hstring _, hraw⟩⟩

/-- Payloads that the encoder does not tell apart: two to the 53rd, plus one and plus nothing, and a
surrogate without a partner and U+FFFD. -/
def aliases : List (GoString × GoString) :=
  [(lit "9007199254740993", lit "9007199254740992"),
    (lit "\"\\ud800\"", 0x22 :: (replacement ++ [0x22]))]

/-- A payload is taken for another one. -/
theorem capture_aliased : aliases.Forall fun p =>
    validCheckpoint samplePlatform (answered p.1) = true ∧
      capture samplePlatform (replacedRequest p.1 p.2) = .ok (answered p.1) ∧
      ¬ List.Forall₂ Same (materialize (answered p.1).window) (replacedRequest p.1 p.2).messages := by
  have hcapture : ∀ p ∈ aliases, validCheckpoint samplePlatform (answered p.1) = true ∧
      capture samplePlatform (replacedRequest p.1 p.2) = .ok (answered p.1) := by decide +kernel
  have hmessages : ∀ p ∈ aliases, materialize (answered p.1).window = exchange p.1 ∧
      (replacedRequest p.1 p.2).messages = exchange p.2 := by decide +kernel
  have hdiffer : ∀ p ∈ aliases, p.1 ≠ p.2 ∧
      (exactRaw p.1).map top ≠ (exactRaw p.2).map top := by decide +kernel
  refine forall_iff_forall_mem.mpr fun p hp => ⟨(hcapture p hp).1, (hcapture p hp).2, fun h => ?_⟩
  -- the messages differ in the replay payload of the second one
  rw [(hmessages p hp).1, (hmessages p hp).2] at h
  obtain ⟨-, hsecond⟩ := forall₂_cons.mp h
  obtain ⟨⟨-, -, -, -, hreplay⟩, -⟩ := forall₂_cons.mp hsecond
  cases hreplay with
  | some hreplay => exact not_sameRaw (hdiffer p hp).1 (hdiffer p hp).2 hreplay.2.2

end ContextWindow
