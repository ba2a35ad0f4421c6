/-
Model messages: the transcript items that a model consumes.

A message has a role, ordered content parts, tool calls, the call that it answers, and an
opaque replay of the provider.  Arguments and replay data are raw JSON.  Messages are
checked before they reach a transcript, and they are written as JSON where a transcript is
hashed or archived.  There the strings lose their stray bytes, and the numbers inside the
raw JSON pass through a `float64`.

* **`decodeMessage_decoded`** — decoding after a round gives the message with its strings
  and raw JSON as the round leaves them;
* `SameMessage`, **`sameMessage_iff_of_round`**, **`sameMessage_round`** — when that is the
  same message.
-/
import AgentRuntime.JsonStructs

namespace Model

open GoString GoJson List

/-! ### Messages -/

structure MediaSource where
  kind : GoString
  url : GoString
  fileID : GoString
  deriving DecidableEq, Repr

structure ContentPart where
  kind : GoString
  text : GoString
  mediaType : GoString
  source : Option MediaSource
  deriving DecidableEq, Repr

/-- A tool call; empty arguments are a nil slice. -/
structure Call where
  id : GoString
  toolKey : GoString
  name : GoString
  arguments : GoString
  deriving DecidableEq, Repr

structure ProviderReplay where
  provider : GoString
  format : GoString
  data : GoString
  deriving DecidableEq, Repr

/-- A transcript item.  A nil slice of content parts is not written like an empty one. -/
structure Message where
  role : GoString
  content : Option (List ContentPart) := none
  toolCalls : List Call := []
  toolCallID : GoString := []
  providerReplay : Option ProviderReplay := none
  deriving DecidableEq, Repr

def roleSystem : GoString := lit "system"
def roleUser : GoString := lit "user"
def roleAssistant : GoString := lit "assistant"
def roleTool : GoString := lit "tool"

def contentText : GoString := lit "text"
def contentImage : GoString := lit "image"
def contentFile : GoString := lit "file"
def contentAudio : GoString := lit "audio"

def mediaSourceURL : GoString := lit "url"
def mediaSourceFileID : GoString := lit "file_id"

/-- The parts of a message, nil or not. -/
def Message.parts (m : Message) : List ContentPart := m.content.getD []

def textParts (text : GoString) : Option (List ContentPart) :=
  if text = [] then none else some [⟨contentText, text, [], none⟩]

def plainText (parts : List ContentPart) : Option GoString :=
  if parts.all fun part => part.kind = contentText && part.source.isNone && part.mediaType = []
  then some (parts.flatMap ContentPart.text) else none

def textValue (parts : List ContentPart) : GoString := (plainText parts).getD []

/-! ### The strings and the raw JSON of a message -/

def MediaSource.strings (x : MediaSource) : List GoString := [x.kind, x.url, x.fileID]

def ContentPart.strings (p : ContentPart) : List GoString :=
  [p.kind, p.text, p.mediaType] ++ (p.source.map MediaSource.strings).getD []

def Call.strings (c : Call) : List GoString := [c.id, c.toolKey, c.name]

def ProviderReplay.strings (r : ProviderReplay) : List GoString := [r.provider, r.format]

def Message.strings (m : Message) : List GoString :=
  m.role :: m.toolCallID :: (m.parts.flatMap ContentPart.strings ++
    m.toolCalls.flatMap Call.strings ++ (m.providerReplay.map ProviderReplay.strings).getD [])

def Message.raws (m : Message) : List GoString :=
  m.toolCalls.map Call.arguments ++ (m.providerReplay.map ProviderReplay.data).toList

/-! ### Validation -/

/-- The surrogate escapes of a text that is JSON come in pairs; the second argument tells
whether the text starts inside a string literal. -/
def surrogatesPaired : ℕ → Bool → GoString → Bool
  | 0, _, _ => true
  | _ + 1, _, [] => true
  | fuel + 1, false, b :: t => surrogatesPaired fuel (b == 0x22) t
  | fuel + 1, true, b :: t =>
    if b = 0x22 then surrogatesPaired fuel false t
    else if b ≠ 0x5C then surrogatesPaired fuel true t
    else match t with
      | [] => true
      | e :: u =>
        if e ≠ 0x75 then surrogatesPaired fuel true u
        else match hex4 u with
          | none => false
          | some (r, v) =>
            if 0xDC00 ≤ r ∧ r ≤ 0xDFFF then false
            else if 0xD800 ≤ r ∧ r ≤ 0xDBFF then
              match v with
              | 0x5C :: 0x75 :: w =>
                match hex4 w with
                | none => false
                | some (low, x) =>
                  0xDC00 ≤ low && low ≤ 0xDFFF && surrogatesPaired fuel true x
              | _ => false
            else surrogatesPaired fuel true v

/-- `jsoncontract.ValidateCanonicalJSONUnicode`; a nil slice is not looked at. -/
def validateCanonicalJSONUnicode (raw : GoString) : Bool :=
  raw = [] || validUTF8 raw && valid raw && surrogatesPaired raw.length false raw

/-- `jsoncontract.ValidateCanonicalUTF8` of a message. -/
def Message.canonicalUTF8 (m : Message) : Bool :=
  m.strings.all validUTF8 && m.raws.all validateCanonicalJSONUnicode

section Validation

-- `net/url` parses the text as an `https` URL with a host and with neither user
-- information, fragment nor opaque part
variable (acceptsURL : GoString → Bool)

def MediaSource.valid (x : MediaSource) : Bool :=
  if x.kind = mediaSourceFileID then
    x.url = [] && trimSpace x.fileID = x.fileID && x.fileID ≠ [] && x.fileID.length ≤ 512
  else if x.kind = mediaSourceURL then
    x.fileID = [] && x.url.length ≤ 4096 && trimSpace x.url = x.url && acceptsURL x.url
  else false

def mediaTypeAllowed (kind mediaType : GoString) : Bool :=
  if kind = contentImage then
    mediaType = lit "image/png" || mediaType = lit "image/jpeg" ||
      mediaType = lit "image/webp" || mediaType = lit "image/gif"
  else if kind = contentFile then mediaType = lit "application/pdf"
  else mediaType = lit "audio/mpeg" || mediaType = lit "audio/wav"

def validatePart (part : ContentPart) : Bool :=
  if part.kind = contentText then
    part.source.isNone && part.mediaType = [] && trimSpace part.text ≠ []
  else if part.kind = contentImage || part.kind = contentFile || part.kind = contentAudio then
    match part.source with
    | none => false
    | some source =>
      part.text = [] && trimSpace part.mediaType = part.mediaType && part.mediaType ≠ [] &&
        part.mediaType.length ≤ 128 && mediaTypeAllowed part.kind part.mediaType &&
        source.valid acceptsURL
  else false

/-- Some part is neither a blank text nor nothing. -/
def Message.nonempty (m : Message) : Bool :=
  m.parts.any fun part => part.kind ≠ contentText || trimSpace part.text ≠ []

def Message.roleAllows (m : Message) : Bool :=
  if m.role = roleSystem || m.role = roleUser then
    m.nonempty && m.toolCalls.isEmpty && m.toolCallID = [] && m.providerReplay.isNone
  else if m.role = roleAssistant then m.toolCallID = []
  else if m.role = roleTool then
    m.toolCallID ≠ [] && m.toolCalls.isEmpty && m.providerReplay.isNone && m.nonempty
  else false

def validateMessage (m : Message) : Bool :=
  m.canonicalUTF8 && m.parts.length ≤ 64 && m.parts.all (validatePart acceptsURL) &&
    (m.parts.all fun part => part.kind = contentText || m.role = roleUser) && m.roleAllows

end Validation

/-! ### JSON -/

def MediaSource.fields (x : MediaSource) : List (GoString × Option Value) :=
  [(lit "kind", some (.string x.kind)), (lit "url", omitEmpty x.url),
    (lit "fileID", omitEmpty x.fileID)]

def MediaSource.tree (x : MediaSource) : Value := struct x.fields

def ContentPart.fields (p : ContentPart) : List (GoString × Option Value) :=
  [(lit "kind", some (.string p.kind)), (lit "text", omitEmpty p.text),
    (lit "mediaType", omitEmpty p.mediaType), (lit "source", p.source.map MediaSource.tree)]

def ContentPart.tree (p : ContentPart) : Value := struct p.fields

def Call.fields (c : Call) : List (GoString × Option Value) :=
  [(lit "id", some (.string c.id)), (lit "toolKey", some (.string c.toolKey)),
    (lit "name", omitEmpty c.name), (lit "arguments", some (rawTree c.arguments))]

def Call.tree (c : Call) : Value := struct c.fields

def ProviderReplay.fields (r : ProviderReplay) : List (GoString × Option Value) :=
  [(lit "provider", some (.string r.provider)), (lit "format", some (.string r.format)),
    (lit "data", some (rawTree r.data))]

def ProviderReplay.tree (r : ProviderReplay) : Value := struct r.fields

def contentTree (parts : List ContentPart) : Value := .array (parts.map ContentPart.tree)

def callsTree (calls : List Call) : Value := .array (calls.map Call.tree)

/-- A nil slice of content parts is written as `null`; tool calls are left out if there are
none. -/
def Message.fields (m : Message) : List (GoString × Option Value) :=
  [(lit "role", some (.string m.role)),
    (lit "content", some ((m.content.map contentTree).getD .null)),
    (lit "toolCalls", if m.toolCalls = [] then none else some (callsTree m.toolCalls)),
    (lit "toolCallID", omitEmpty m.toolCallID),
    (lit "providerReplay", m.providerReplay.map ProviderReplay.tree)]

def Message.tree (m : Message) : Value := struct m.fields

/-- All raw JSON of the message is JSON. -/
def Message.encodable (m : Message) : Bool := m.raws.all fun r => (readRaw r).isSome

/-- The JSON of a message; `none` if its raw JSON is none.  What is written for a raw message
is its value; the decoder makes no difference between that and the text itself. -/
def Message.encode (m : Message) : Option Value := if m.encodable then some m.tree else none

/-! ### Decoding -/

/-- Decode the members of a name into a string field. -/
def stringField (name : GoString) (ms : List (GoString × Value)) : Option GoString :=
  decodeString [] (membersNamed name ms)

/-- Decode the last member of a name into a field that may be nil. -/
def optionField {α : Type} (decode : Value → Option α) (name : GoString)
    (ms : List (GoString × Value)) : Option (Option α) :=
  match (membersNamed name ms).getLast? with
  | none => some none
  | some .null => some none
  | some v => (decode v).map some

/-- A raw message takes the text of the member as it stands. -/
def rawField (name : GoString) (ms : List (GoString × Value)) : GoString :=
  ((membersNamed name ms).getLast?.map render).getD []

def decodeSlice {α : Type} (decode : Value → Option α) : Value → Option (List α)
  | .array items => items.mapM decode
  | _ => none

def decodeMediaSource : Value → Option MediaSource
  | .object ms => do
    let kind ← stringField (lit "kind") ms
    let url ← stringField (lit "url") ms
    let fileID ← stringField (lit "fileID") ms
    return ⟨kind, url, fileID⟩
  | _ => none

def decodePart : Value → Option ContentPart
  | .object ms => do
    let kind ← stringField (lit "kind") ms
    let text ← stringField (lit "text") ms
    let mediaType ← stringField (lit "mediaType") ms
    let source ← optionField decodeMediaSource (lit "source") ms
    return ⟨kind, text, mediaType, source⟩
  | _ => none

def decodeCall : Value → Option Call
  | .object ms => do
    let id ← stringField (lit "id") ms
    let toolKey ← stringField (lit "toolKey") ms
    let name ← stringField (lit "name") ms
    return ⟨id, toolKey, name, rawField (lit "arguments") ms⟩
  | _ => none

def decodeReplay : Value → Option ProviderReplay
  | .object ms => do
    let provider ← stringField (lit "provider") ms
    let format ← stringField (lit "format") ms
    return ⟨provider, format, rawField (lit "data") ms⟩
  | _ => none

/-- Decode a message from an object in which every name occurs once. -/
def decodeMessage : Value → Option Message
  | .object ms => do
    let role ← stringField (lit "role") ms
    let content ← optionField (decodeSlice decodePart) (lit "content") ms
    let toolCalls ← optionField (decodeSlice decodeCall) (lit "toolCalls") ms
    let toolCallID ← stringField (lit "toolCallID") ms
    let providerReplay ← optionField decodeReplay (lit "providerReplay") ms
    return ⟨role, content, toolCalls.getD [], toolCallID, providerReplay⟩
  | _ => none

/-! ### A round -/

section Map

variable (f g : GoString → GoString)

def MediaSource.map (x : MediaSource) : MediaSource := ⟨f x.kind, f x.url, f x.fileID⟩

def ContentPart.map (p : ContentPart) : ContentPart :=
  ⟨f p.kind, f p.text, f p.mediaType, p.source.map (MediaSource.map f)⟩

def Call.map (c : Call) : Call := ⟨f c.id, f c.toolKey, f c.name, g c.arguments⟩

def ProviderReplay.map (r : ProviderReplay) : ProviderReplay :=
  ⟨f r.provider, f r.format, g r.data⟩

/-- The message with a function applied to its strings and one to its raw JSON. -/
def Message.map (m : Message) : Message where
  role := f m.role
  content := m.content.map fun parts => parts.map (ContentPart.map f)
  toolCalls := m.toolCalls.map (Call.map f g)
  toolCallID := f m.toolCallID
  providerReplay := m.providerReplay.map (ProviderReplay.map f g)

end Map

/-- The message after a round: strings lose their stray bytes, numbers become doubles. -/
def Message.round (m : Message) : Message := m.map toValidUTF8 roundRaw

variable {name s : GoString} {ms : List (GoString × Value)} {m : Message}

lemma stringField_decoded
    (h : membersNamed name ms = ((some (Value.string s)).map decoded).toList) :
    stringField name ms = some (toValidUTF8 s) := by
  rw [stringField, h]
  rfl

lemma stringField_omitEmpty (h : membersNamed name ms = ((omitEmpty s).map decoded).toList) :
    stringField name ms = some (toValidUTF8 s) := by
  rw [omitEmpty] at h
  split at h
  · rename_i hs
    rw [stringField, h, hs]
    rfl
  · exact stringField_decoded h

variable {α β : Type} {decode : Value → Option β} {tree : α → Value} {next : α → β} {o : Option α}

lemma optionField_decoded (h : membersNamed name ms = ((o.map tree).map decoded).toList)
    (hnull : ∀ a, decoded (tree a) ≠ .null)
    (hdecode : ∀ a, decode (decoded (tree a)) = some (next a)) :
    optionField decode name ms = some (o.map next) := by
  obtain _ | a := o
  · rw [optionField, h]
    rfl
  have hlast : (membersNamed name ms).getLast? = some (decoded (tree a)) := by
    rw [h]
    rfl
  rw [optionField, hlast]
  split
  · rename_i heq
    cases heq
  · rename_i heq
    exact absurd (Option.some.inj heq) (hnull a)
  rename_i heq
  rw [← Option.some.inj heq, hdecode]
  rfl

lemma rawField_decoded (h : membersNamed name ms = ((some (rawTree s)).map decoded).toList) :
    rawField name ms = roundRaw s := by
  rw [rawField, h]
  rfl

lemma decodeSlice_decoded (hdecode : ∀ a, decode (decoded (tree a)) = some (next a)) (items : List α) :
    decodeSlice decode (decoded (.array (items.map tree))) = some (items.map next) := by
  rw [decoded_array, decodeSlice]
  induction items with
  | nil => rfl
  | cons _ _ ih =>
    rw [map_cons, map_cons, mapM_cons, hdecode, ih]
    rfl

lemma decoded_struct_ne_null (fields : List (GoString × Option Value)) :
    decoded (struct fields) ≠ .null := by
  simp [decoded, struct, clean, generic, reformat]

lemma decodeMediaSource_decoded (x : MediaSource) :
    decodeMediaSource (decoded x.tree) = some (x.map toValidUTF8) := by
  have hnames : Fields [lit "kind", lit "url", lit "fileID"] := by decide +kernel
  obtain ⟨_, hms, hfield⟩ := membersNamed_decoded x.fields hnames
  simp only [MediaSource.fields, forall_mem_cons] at hfield
  obtain ⟨hkind, hurl, hfileID, -⟩ := hfield
  rw [MediaSource.tree, hms, decodeMediaSource, stringField_decoded hkind,
    stringField_omitEmpty hurl, stringField_omitEmpty hfileID]
  rfl

lemma decodePart_decoded (p : ContentPart) :
    decodePart (decoded p.tree) = some (p.map toValidUTF8) := by
  have hnames : Fields [lit "kind", lit "text", lit "mediaType", lit "source"] := by decide +kernel
  obtain ⟨_, hms, hfield⟩ := membersNamed_decoded p.fields hnames
  simp only [ContentPart.fields, forall_mem_cons] at hfield
  obtain ⟨hkind, htext, hmediaType, hsource, -⟩ := hfield
  rw [ContentPart.tree, hms, decodePart, stringField_decoded hkind, stringField_omitEmpty htext,
    stringField_omitEmpty hmediaType, optionField_decoded hsource
      (fun x => decoded_struct_ne_null x.fields) decodeMediaSource_decoded]
  rfl

lemma decodeCall_decoded (c : Call) :
    decodeCall (decoded c.tree) = some (c.map toValidUTF8 roundRaw) := by
  have hnames : Fields [lit "id", lit "toolKey", lit "name", lit "arguments"] := by decide +kernel
  obtain ⟨_, hms, hfield⟩ := membersNamed_decoded c.fields hnames
  simp only [Call.fields, forall_mem_cons] at hfield
  obtain ⟨hid, hkey, hname, harguments, -⟩ := hfield
  rw [Call.tree, hms, decodeCall, stringField_decoded hid, stringField_decoded hkey,
    stringField_omitEmpty hname, rawField_decoded harguments]
  rfl

lemma decodeReplay_decoded (r : ProviderReplay) :
    decodeReplay (decoded r.tree) = some (r.map toValidUTF8 roundRaw) := by
  have hnames : Fields [lit "provider", lit "format", lit "data"] := by decide +kernel
  obtain ⟨_, hms, hfield⟩ := membersNamed_decoded r.fields hnames
  simp only [ProviderReplay.fields, forall_mem_cons] at hfield
  rfl

/-- **Decoding a message after a round.** -/
theorem decodeMessage_decoded (m : Message) : decodeMessage (decoded m.tree) = some m.round := by
  have hnames : Fields [lit "role", lit "content", lit "toolCalls", lit "toolCallID",
    lit "providerReplay"] := by decide +kernel
  obtain ⟨ms, hms, hfield⟩ := membersNamed_decoded m.fields hnames
  simp only [Message.fields, forall_mem_cons] at hfield
  obtain ⟨hrole, hcontent, hcalls, hcallID, hreplay, -⟩ := hfield
  have hparts : optionField (decodeSlice decodePart) (lit "content") ms =
      some (m.content.map fun parts => parts.map (ContentPart.map toValidUTF8)) := by
    rcases hc : m.content with _ | parts
    · rw [hc] at hcontent
      rw [optionField, hcontent]
      rfl
    rw [hc] at hcontent
    have hsome : membersNamed (lit "content") ms =
        (((some parts).map contentTree).map decoded).toList := hcontent
    refine optionField_decoded hsome (fun parts h => ?_) (decodeSlice_decoded decodePart_decoded)
    cases h
  have htools : (optionField (decodeSlice decodeCall) (lit "toolCalls") ms).map (·.getD []) =
      some (m.toolCalls.map (Call.map toValidUTF8 roundRaw)) := by
    by_cases hc : m.toolCalls = []
    · rw [if_pos hc] at hcalls
      rw [optionField, hcalls, hc]
      rfl
    rw [if_neg hc] at hcalls
    have hsome : membersNamed (lit "toolCalls") ms =
        (((some m.toolCalls).map callsTree).map decoded).toList := hcalls
    have hnull : ∀ calls, decoded (callsTree calls) ≠ .null := by
      intro _ h
      cases h
    rw [optionField_decoded hsome hnull (decodeSlice_decoded decodeCall_decoded)]
    rfl
  obtain ⟨_, htools, hgetD⟩ := Option.map_eq_some_iff.mp htools
  rw [Message.tree, hms, decodeMessage, stringField_decoded hrole, hparts, htools,
    stringField_omitEmpty hcallID, optionField_decoded hreplay
      (fun r => decoded_struct_ne_null r.fields) decodeReplay_decoded]
  simp only [Option.bind_eq_bind, Option.bind_some, hgetD, Option.pure_def]
  rfl

/-! ### Depth and numbers -/

variable {n : ℕ}

lemma legible_omitEmpty : ∀ v ∈ omitEmpty s, Legible v n := by
  intro v hv
  rw [omitEmpty] at hv
  split at hv
  · cases hv
  · cases hv
    trivial

lemma ContentPart.legible (p : ContentPart) (n : ℕ) : Legible p.tree (n + 2) := by
  refine legible_struct.mpr ?_
  simp only [ContentPart.fields, forall_mem_cons, Option.mem_def, Option.some.injEq,
    forall_eq']
  refine ⟨trivial, legible_omitEmpty, legible_omitEmpty, fun v hv => ?_, by simp⟩
  obtain ⟨x, -, rfl⟩ := Option.map_eq_some_iff.mp hv
  refine legible_struct.mpr ?_
  simp only [MediaSource.fields, forall_mem_cons, Option.mem_def, Option.some.injEq,
    forall_eq']
  exact ⟨trivial, legible_omitEmpty, legible_omitEmpty, by simp⟩

lemma Call.legible_iff {c : Call} : Legible c.tree (n + 1) ↔ Legible (rawTree c.arguments) n := by
  rw [Call.tree, legible_struct]
  simp only [Call.fields, forall_mem_cons, Option.mem_def, Option.some.injEq, forall_eq']
  exact ⟨fun h => h.2.2.2.1, fun h => ⟨trivial, trivial, legible_omitEmpty, h, by simp⟩⟩

lemma ProviderReplay.legible_iff {r : ProviderReplay} :
    Legible r.tree (n + 1) ↔ Legible (rawTree r.data) n := by
  rw [ProviderReplay.tree, legible_struct]
  simp only [ProviderReplay.fields, forall_mem_cons, Option.mem_def, Option.some.injEq,
    forall_eq']
  exact ⟨fun h => h.2.2.1, fun h => ⟨trivial, trivial, h, by simp⟩⟩

/-- How deep a message is nested depends on its raw JSON. -/
lemma Message.legible_iff : Legible m.tree (n + 4) ↔
    (∀ c ∈ m.toolCalls, Legible (rawTree c.arguments) (n + 1)) ∧
      ∀ r ∈ m.providerReplay, Legible (rawTree r.data) (n + 2) := by
  rw [Message.tree, legible_struct]
  simp only [Message.fields, forall_mem_cons, Option.mem_def, Option.some.injEq, forall_eq']
  constructor
  · rintro ⟨-, -, hcalls, -, hreplay, -⟩
    refine ⟨fun c hc => ?_, fun r hr => ?_⟩
    · have h := hcalls (callsTree m.toolCalls) (if_neg (ne_nil_of_mem hc))
      exact Call.legible_iff.mp (legible_array.mp h _ (mem_map_of_mem hc))
    · exact ProviderReplay.legible_iff.mp (hreplay r.tree (congrArg _ hr))
  rintro ⟨hcalls, hreplay⟩
  refine ⟨trivial, ?_, fun v hv => ?_, legible_omitEmpty, fun v hv => ?_, by simp⟩
  · obtain _ | _ := m.content
    · exact trivial
    exact legible_array.mpr (forall_mem_map.mpr fun p _ => p.legible n)
  · split at hv
    · cases hv
    cases hv
    exact legible_array.mpr (forall_mem_map.mpr fun c hc => Call.legible_iff.mpr (hcalls c hc))
  · obtain ⟨r, hr, rfl⟩ := Option.map_eq_some_iff.mp hv
    exact ProviderReplay.legible_iff.mpr (hreplay r hr)

lemma Message.legible (m : Message) : Legible m.tree 10003 :=
  Message.legible_iff.mpr
    ⟨fun _ _ => legible_rawTree _, fun _ _ => (legible_rawTree _).mono (by omega)⟩

lemma ContentPart.numbers_tree (p : ContentPart) : numbers p.tree = [] := by
  obtain ⟨_, _, _, source⟩ := p
  obtain _ | x := source
  · simp [ContentPart.tree, ContentPart.fields, numbers_struct, numbers]
  have hsource : numbers x.tree = [] := by
    simp [MediaSource.tree, MediaSource.fields, numbers_struct, numbers]
  simp [ContentPart.tree, ContentPart.fields, numbers_struct, numbers, hsource]

lemma Call.numbers_tree (c : Call) : numbers c.tree = numbers (rawTree c.arguments) := by
  simp [Call.tree, Call.fields, numbers_struct, numbers]

lemma ProviderReplay.numbers_tree (r : ProviderReplay) :
    numbers r.tree = numbers (rawTree r.data) := by
  simp [ProviderReplay.tree, ProviderReplay.fields, numbers_struct, numbers]

/-- The numbers of a message are those of its raw JSON. -/
lemma Message.numbers_tree (m : Message) :
    numbers m.tree = m.raws.flatMap fun r => numbers (rawTree r) := by
  have hcontent : numbers ((m.content.map contentTree).getD .null) = [] := by
    cases m.content with
    | none => rfl
    | some => simp [contentTree, flatMap_map, ContentPart.numbers_tree]
  have hcalls : ((if m.toolCalls = [] then none else some (callsTree m.toolCalls)).map
      numbers).getD [] = (m.toolCalls.map Call.arguments).flatMap fun r => numbers (rawTree r) := by
    split
    · rename_i hnone
      rw [hnone]
      rfl
    · simp [callsTree, flatMap_map, Call.numbers_tree]
  have hreplay : ((m.providerReplay.map ProviderReplay.tree).map numbers).getD [] =
      (m.providerReplay.map ProviderReplay.data).toList.flatMap fun r => numbers (rawTree r) := by
    cases m.providerReplay with
    | none => rfl
    | some => simp [ProviderReplay.numbers_tree]
  rw [Message.tree, numbers_struct, Message.raws, flatMap_append, ← hcalls, ← hreplay]
  simp [Message.fields, hcontent, numbers]

lemma Message.encode_eq_some {v : Value} (h : m.encode = some v) :
    v = m.tree ∧ ∀ r ∈ m.raws, ∃ w, readRaw r = some w := by
  rw [Message.encode] at h
  split at h
  · rename_i hencodable
    rw [Message.encodable, all_eq_true] at hencodable
    exact ⟨(Option.some.inj h).symm, fun r hr => Option.isSome_iff_exists.mp (hencodable r hr)⟩
  · cases h

variable {t : GoString}

/-- What `canonicalJSON` makes of a message. -/
lemma Message.canonicalJSON_eq_some (h : canonicalJSON m.encode = some t) :
    Canonical (decoded m.tree) 10000 ∧ t = render (decoded m.tree) ∧
      ∀ r ∈ m.raws, ∃ w, readRaw r = some w ∧ InRange w := by
  have hlegible : ∀ u ∈ m.encode, Legible u 10003 := by
    intro u hu
    rw [(Message.encode_eq_some hu).1]
    exact m.legible
  obtain ⟨u, hu, hrange, hcanonical, rfl⟩ := GoJson.canonicalJSON_eq_some hlegible h
  obtain ⟨rfl, hraws⟩ := Message.encode_eq_some hu
  refine ⟨hcanonical, rfl, fun r hr => ?_⟩
  obtain ⟨w, hw⟩ := hraws r hr
  refine ⟨w, hw, fun l hl => hrange l ?_⟩
  rw [Message.numbers_tree, mem_flatMap]
  exact ⟨r, hr, by rwa [rawTree, hw]⟩

/-! ### The same message -/

section Rel

variable (p q : GoString → GoString → Prop)

def MediaSource.Rel (x y : MediaSource) : Prop :=
  p x.kind y.kind ∧ p x.url y.url ∧ p x.fileID y.fileID

def ContentPart.Rel (a b : ContentPart) : Prop :=
  p a.kind b.kind ∧ p a.text b.text ∧ p a.mediaType b.mediaType ∧
    Option.Rel (MediaSource.Rel p) a.source b.source

def Call.Rel (c d : Call) : Prop :=
  p c.id d.id ∧ p c.toolKey d.toolKey ∧ p c.name d.name ∧ q c.arguments d.arguments

def ProviderReplay.Rel (r s : ProviderReplay) : Prop :=
  p r.provider s.provider ∧ p r.format s.format ∧ q r.data s.data

/-- Two messages of one shape whose strings are related by `p` and whose raw JSON by `q`. -/
def Message.Rel (m n : Message) : Prop :=
  p m.role n.role ∧ Option.Rel (List.Forall₂ (ContentPart.Rel p)) m.content n.content ∧
    List.Forall₂ (Call.Rel p q) m.toolCalls n.toolCalls ∧ p m.toolCallID n.toolCallID ∧
    Option.Rel (ProviderReplay.Rel p q) m.providerReplay n.providerReplay

end Rel

/-- The same message: the raw JSON counts by its values, with exact numbers and strings. -/
def SameMessage (m n : Message) : Prop := Message.Rel Eq SameRaw m n

/-- Strings that are different stay so when their stray bytes are replaced. -/
def NoAliasString (s t : GoString) : Prop := toValidUTF8 s = toValidUTF8 t → s = t

/-- Nothing at one place of the two messages is different and comes out of a round alike. -/
def NoAliasMessage (m n : Message) : Prop := Message.Rel NoAliasString NoAliasRaw m n

/-- All strings are valid UTF-8, and all that counts in the raw JSON is kept. -/
def Faithful (m : Message) : Prop :=
  (∀ s ∈ m.strings, validUTF8 s = true) ∧ ∀ r ∈ m.raws, KeptRaw r

variable {R : α → β → Prop} {xs : List α} {ys : List β}

/-- What relates two lists relates members of them. -/
lemma forall₂_mem
    (h : List.Forall₂ R xs ys) : List.Forall₂ (fun x y => x ∈ xs ∧ y ∈ ys ∧ R x y) xs ys := by
  induction h with
  | nil => exact .nil
  | cons hxy _ ih =>
    refine .cons ⟨mem_cons_self, mem_cons_self, hxy⟩ (ih.imp fun x y hmem => ?_)
    exact ⟨mem_cons_of_mem _ hmem.1, mem_cons_of_mem _ hmem.2.1, hmem.2.2⟩

lemma forall₂_of_map_eq {f : α → β} {ys : List α} (h : xs.map f = ys.map f) :
    List.Forall₂ (fun x y => f x = f y) xs ys := by
  have hsame : List.Forall₂ Eq (xs.map f) (ys.map f) := by
    rw [h]
    exact forall₂_same.mpr fun _ _ => rfl
  rwa [forall₂_map_left_iff, forall₂_map_right_iff] at hsame

lemma optionRel_of_map_eq {f : α → β} {o' : Option α} (h : o.map f = o'.map f) :
    Option.Rel (fun x y => f x = f y) o o' := by
  cases o with
  | none =>
    rw [Option.map_eq_none_iff.mp h.symm]
    exact .none
  | some =>
    obtain ⟨y, rfl, hxy⟩ := Option.map_eq_some_iff.mp h.symm
    exact .some hxy.symm

variable {o' : Option β} {S : α → β → Prop}

lemma optionRel_imp
    (h : Option.Rel R o o') (himp : ∀ x ∈ o, ∀ y ∈ o', R x y → S x y) : Option.Rel S o o' := by
  cases h with
  | none => exact .none
  | some hxy => exact .some (himp _ rfl _ rfl hxy)

/-- Messages that come out of a round alike have one shape. -/
lemma rel_of_round_eq {n : Message} (h : m.round = n.round) :
    Message.Rel (fun s t => toValidUTF8 s = toValidUTF8 t)
      (fun a b => a ∈ m.raws ∧ b ∈ n.raws ∧ roundRaw a = roundRaw b) m n := by
  simp only [Message.round, Message.map, Message.mk.injEq] at h
  obtain ⟨hrole, hcontent, hcalls, hcallID, hreplay⟩ := h
  refine ⟨hrole, ?_, ?_, hcallID, ?_⟩
  · refine optionRel_imp (optionRel_of_map_eq hcontent) fun xs _ ys _ hparts => ?_
    refine (forall₂_of_map_eq hparts).imp fun x y hxy => ?_
    simp only [ContentPart.map, ContentPart.mk.injEq] at hxy
    refine ⟨hxy.1, hxy.2.1, hxy.2.2.1, ?_⟩
    refine optionRel_imp (optionRel_of_map_eq hxy.2.2.2) fun a _ b _ hab => ?_
    simpa [MediaSource.map, MediaSource.Rel] using hab
  · refine (forall₂_mem (forall₂_of_map_eq hcalls)).imp fun c d hcd => ?_
    obtain ⟨hc, hd, hcd⟩ := hcd
    simp only [Call.map, Call.mk.injEq] at hcd
    exact ⟨hcd.1, hcd.2.1, hcd.2.2.1, mem_append_left _ (mem_map_of_mem hc),
      mem_append_left _ (mem_map_of_mem hd), hcd.2.2.2⟩
  refine optionRel_imp (optionRel_of_map_eq hreplay) fun r hr s hs hrs => ?_
  simp only [ProviderReplay.map, ProviderReplay.mk.injEq] at hrs
  refine ⟨hrs.1, hrs.2.1, mem_append_right _ ?_, mem_append_right _ ?_, hrs.2.2⟩
  · rw [Option.mem_def.mp hr]
    exact mem_singleton_self _
  · rw [Option.mem_def.mp hs]
    exact mem_singleton_self _

variable {T : α → β → Prop}

lemma forall₂_and
    (h : List.Forall₂ R xs ys) (h' : List.Forall₂ S xs ys) (himp : ∀ x y, R x y → S x y → T x y) :
    List.Forall₂ T xs ys := by
  induction h with
  | nil => exact .nil
  | cons hxy _ ih =>
    cases h' with
    | cons hxy' hrest => exact .cons (himp _ _ hxy hxy') (ih hrest)

lemma optionRel_and
    (h : Option.Rel R o o') (h' : Option.Rel S o o') (himp : ∀ x y, R x y → S x y → T x y) :
    Option.Rel T o o' := by
  cases h with
  | none => exact .none
  | some hxy =>
    cases h' with
    | some hxy' => exact .some (himp _ _ hxy hxy')

/-- Relations between messages are combined string by string and raw JSON by raw JSON. -/
lemma Message.Rel.and {p q p' q' p'' q'' : GoString → GoString → Prop} {n : Message}
    (h : Message.Rel p q m n) (h' : Message.Rel p' q' m n)
    (hp : ∀ s t, p s t → p' s t → p'' s t) (hq : ∀ a b, q a b → q' a b → q'' a b) :
    Message.Rel p'' q'' m n := by
  obtain ⟨hrole, hcontent, hcalls, hcallID, hreplay⟩ := h
  obtain ⟨hrole', hcontent', hcalls', hcallID', hreplay'⟩ := h'
  refine ⟨hp _ _ hrole hrole', ?_, ?_, hp _ _ hcallID hcallID', ?_⟩
  · refine optionRel_and hcontent hcontent' fun xs ys hxs hxs' => ?_
    refine forall₂_and hxs hxs' fun x y hx hx' => ?_
    refine ⟨hp _ _ hx.1 hx'.1, hp _ _ hx.2.1 hx'.2.1, hp _ _ hx.2.2.1 hx'.2.2.1, ?_⟩
    refine optionRel_and hx.2.2.2 hx'.2.2.2 fun a b ha ha' => ?_
    exact ⟨hp _ _ ha.1 ha'.1, hp _ _ ha.2.1 ha'.2.1, hp _ _ ha.2.2 ha'.2.2⟩
  · refine forall₂_and hcalls hcalls' fun c d hc hc' => ?_
    exact ⟨hp _ _ hc.1 hc'.1, hp _ _ hc.2.1 hc'.2.1, hp _ _ hc.2.2.1 hc'.2.2.1,
      hq _ _ hc.2.2.2 hc'.2.2.2⟩
  · refine optionRel_and hreplay hreplay' fun r s hr hr' => ?_
    exact ⟨hp _ _ hr.1 hr'.1, hp _ _ hr.2.1 hr'.2.1, hq _ _ hr.2.2 hr'.2.2⟩

/-- **Two messages that come out of a round alike** are the same message, unless something
in them is aliased. -/
theorem sameMessage_iff_of_round {n : Message} (hround : m.round = n.round)
    (hm : ∀ r ∈ m.raws, ∃ w, readRaw r = some w ∧ InRange w)
    (hn : ∀ r ∈ n.raws, ∃ w, readRaw r = some w ∧ InRange w) :
    SameMessage m n ↔ NoAliasMessage m n := by
  have halike := rel_of_round_eq hround
  have hraw : ∀ a b, (a ∈ m.raws ∧ b ∈ n.raws ∧ roundRaw a = roundRaw b) →
      (SameRaw a b ↔ NoAliasRaw a b) := by
    rintro a b ⟨ha, hb, hab⟩
    obtain ⟨v, hv, hvrange⟩ := hm a ha
    obtain ⟨w, hw, hwrange⟩ := hn b hb
    exact sameRaw_iff hv hw hvrange hwrange hab
  constructor
  · intro h
    exact halike.and h (fun s t _ hst _ => hst) fun a b hab hsame => (hraw a b hab).mp hsame
  intro h
  exact halike.and h (fun s t hst hfree => hfree hst) fun a b hab hfree =>
    (hraw a b hab).mpr hfree

/-- Messages with one canonical text come out of a round alike. -/
lemma sameMessage_iff_of_text {n : Message}
    (hm : canonicalJSON m.encode = some t) (hn : canonicalJSON n.encode = some t) :
    SameMessage m n ↔ NoAliasMessage m n := by
  obtain ⟨hcm, htm, hmraws⟩ := Message.canonicalJSON_eq_some hm
  obtain ⟨hcn, htn, hnraws⟩ := Message.canonicalJSON_eq_some hn
  have htree := hcm.render_inj hcn (htm.symm.trans htn)
  have hround : m.round = n.round := by
    have hdecode := decodeMessage_decoded m
    rw [htree, decodeMessage_decoded n, Option.some.injEq] at hdecode
    exact hdecode.symm
  exact sameMessage_iff_of_round hround hmraws hnraws

section RelMap

variable {p q : GoString → GoString → Prop} {f g : GoString → GoString}

lemma MediaSource.rel_map (x : MediaSource) :
    MediaSource.Rel p (x.map f) x ↔ ∀ s ∈ x.strings, p (f s) s := by
  simp [MediaSource.Rel, MediaSource.map, MediaSource.strings]

lemma ContentPart.rel_map (x : ContentPart) :
    ContentPart.Rel p (x.map f) x ↔ ∀ s ∈ x.strings, p (f s) s := by
  obtain ⟨_, _, _, source⟩ := x
  cases source with
  | none => simp [ContentPart.Rel, ContentPart.map, ContentPart.strings]
  | some =>
    simp [ContentPart.Rel, ContentPart.map, ContentPart.strings, MediaSource.rel_map]

lemma Call.rel_map (c : Call) : Call.Rel p q (c.map f g) c ↔
    (∀ s ∈ c.strings, p (f s) s) ∧ q (g c.arguments) c.arguments := by
  simp [Call.Rel, Call.map, Call.strings, and_assoc]

lemma ProviderReplay.rel_map (r : ProviderReplay) : ProviderReplay.Rel p q (r.map f g) r ↔
    (∀ s ∈ r.strings, p (f s) s) ∧ q (g r.data) r.data := by
  simp [ProviderReplay.Rel, ProviderReplay.map, ProviderReplay.strings, and_assoc]

lemma forall₂_map_same {R : β → α → Prop} {f : α → β} :
    List.Forall₂ R (xs.map f) xs ↔ ∀ x ∈ xs, R (f x) x := by
  rw [forall₂_map_left_iff, forall₂_same]

lemma Message.rel_map (m : Message) : Message.Rel p q (m.map f g) m ↔
    (∀ s ∈ m.strings, p (f s) s) ∧ ∀ r ∈ m.raws, q (g r) r := by
  obtain ⟨_, content, _, _, replay⟩ := m
  have hcontent : Option.Rel (List.Forall₂ (ContentPart.Rel p))
      (content.map fun parts => parts.map (ContentPart.map f)) content ↔
      ∀ s ∈ (content.getD []).flatMap ContentPart.strings, p (f s) s := by
    obtain _ | _ := content
    · simp
    rw [Option.map_some, Option.rel_some_some, forall₂_map_same]
    simp only [ContentPart.rel_map, Option.getD_some, mem_flatMap]
    exact ⟨fun h s ⟨x, hx, hs⟩ => h x hx s hs, fun h x hx s hs => h s ⟨x, hx, hs⟩⟩
  have hreplay : Option.Rel (ProviderReplay.Rel p q) (replay.map (ProviderReplay.map f g)) replay ↔
      (∀ s ∈ (replay.map ProviderReplay.strings).getD [], p (f s) s) ∧
        ∀ r ∈ (replay.map ProviderReplay.data).toList, q (g r) r := by
    cases replay with
    | none => simp
    | some => simp [ProviderReplay.rel_map]
  simp only [Message.Rel, Message.map, hcontent, forall₂_map_same, Call.rel_map, hreplay,
    Message.strings, Message.raws, Message.parts, forall_mem_cons, forall_mem_append,
    forall_mem_map, mem_flatMap]
  constructor
  · rintro ⟨hrole, hparts, hcalls, hcallID, hstrings, hdata⟩
    exact ⟨⟨hrole, hcallID, ⟨hparts, fun s ⟨c, hc, hs⟩ => (hcalls c hc).1 s hs⟩, hstrings⟩,
      fun c hc => (hcalls c hc).2, hdata⟩
  rintro ⟨⟨hrole, hcallID, ⟨hparts, hcalls⟩, hstrings⟩, harguments, hdata⟩
  exact ⟨hrole, hparts, fun c hc => ⟨fun s hs => hcalls s ⟨c, hc, hs⟩, harguments c hc⟩, hcallID,
    hstrings, hdata⟩

end RelMap

lemma SameMessage.refl (m : Message) : SameMessage m m := by
  have hid : m.map id id = m := by
    obtain ⟨_, content, _, _, _⟩ := m
    have hsource : (Option.map (MediaSource.map id)) = id := by
      funext o
      cases o with
      | none | some => rfl
    have hpart : ContentPart.map id = id := by
      funext x
      simp [ContentPart.map, hsource]
    have hcall : Call.map id id = id := rfl
    have hreplay : ProviderReplay.map id id = id := rfl
    cases content with
    | none => simp [Message.map, hcall, hreplay]
    | some => simp [Message.map, hpart, hcall, hreplay]
  have h := (Message.rel_map (q := SameRaw) (f := id) (g := id) m).mpr
    ⟨fun _ _ => rfl, fun _ _ => .inl rfl⟩
  rwa [hid] at h

/-- **A message is the same after a round** if all its strings are valid UTF-8 and every
number that counts is kept, and only then. -/
theorem sameMessage_round (h : canonicalJSON m.encode = some t) :
    SameMessage m.round m ↔ Faithful m := by
  obtain ⟨-, -, hraws⟩ := Message.canonicalJSON_eq_some h
  rw [SameMessage, Message.round, Message.rel_map]
  refine and_congr (forall₂_congr fun s _ => ?_) (forall₂_congr fun r hr => ?_)
  · constructor
    · intro hs
      rw [← hs]
      exact validUTF8_toValidUTF8 s
    · exact toValidUTF8_of_valid
  · obtain ⟨v, hv, hrange⟩ := hraws r hr
    exact sameRaw_roundRaw hv hrange

end Model
