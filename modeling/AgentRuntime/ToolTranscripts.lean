/-
Well-bracketed tool transcripts.

An assistant message with tool calls opens them, and the tool messages that follow it
answer them, each exactly once, before anything else may be said.  A call ID opens once in
a whole transcript.  The check scans the messages with the calls that are open and the
IDs that were seen; what it says about a transcript that is put together from two depends
on the IDs of the first one only.

* **`scanMessages_seen`** — what was seen before matters by its IDs;
* **`bracketed_append`** — a transcript behind a well-bracketed one;
* **`bracketed_cut`** — a transcript cut before a user message.
-/
import AgentRuntime.ModelMessages

namespace Model

open GoString GoJson List Option

/-- The calls that are open, and all call IDs so far. -/
structure Scan where
  pending : List GoString
  seen : List GoString
  deriving DecidableEq, Repr

/-- Open the calls of one message. -/
def openCalls : Scan → List Call → Option Scan
  | st, [] => some st
  | st, c :: cs =>
    if trimSpace c.id = [] ∨ trimSpace c.id ∈ st.seen then none
    else openCalls ⟨trimSpace c.id :: st.pending, trimSpace c.id :: st.seen⟩ cs

def scanMessage (st : Scan) (m : Message) : Option Scan :=
  if m.role = roleAssistant ∧ m.toolCalls ≠ [] then
    if st.pending ≠ [] then none else openCalls st m.toolCalls
  else if st.pending ≠ [] ∧ m.role ≠ roleTool then none
  else if m.role ≠ roleTool then some st
  else if trimSpace m.toolCallID ∈ st.pending then
    some { st with pending := st.pending.filter (· ≠ trimSpace m.toolCallID) }
  else none

def scanMessages : Scan → List Message → Option Scan
  | st, [] => some st
  | st, m :: ms => (scanMessage st m).bind fun st => scanMessages st ms

def validToolTranscriptMessages (messages : List Message) : Bool :=
  match scanMessages ⟨[], []⟩ messages with
  | none => false
  | some st => st.pending = []

/-- The transcript is well bracketed. -/
def Bracketed (messages : List Message) : Prop := validToolTranscriptMessages messages = true

instance (messages : List Message) : Decidable (Bracketed messages) :=
  inferInstanceAs (Decidable (_ = true))

def idsOf (calls : List Call) : List GoString := calls.map fun c => trimSpace c.id

/-- The IDs of the calls that a message opens. -/
def Message.callIDs (m : Message) : List GoString :=
  if m.role = roleAssistant then idsOf m.toolCalls else []

def callIDs (messages : List Message) : List GoString := messages.flatMap Message.callIDs

/-! ### What was seen before -/

/-- A scan that began with more IDs. -/
def Scan.after (ids : List GoString) (st : Scan) : Scan := ⟨st.pending, st.seen ++ ids⟩

lemma openCalls_seen (ids : List GoString) : ∀ (calls : List Call) (st : Scan),
    openCalls (st.after ids) calls =
      if ∀ id ∈ idsOf calls, id ∉ ids then
        (openCalls st calls).map (Scan.after ids) else none
  | [], st => by simp [openCalls, idsOf]
  | c :: cs, st => by
    have hrest := openCalls_seen ids cs ⟨trimSpace c.id :: st.pending, trimSpace c.id :: st.seen⟩
    by_cases hnew : trimSpace c.id ∈ ids
    · have hleft : trimSpace c.id = [] ∨ trimSpace c.id ∈ (st.after ids).seen :=
        .inr (mem_append_right _ hnew)
      rw [openCalls, if_pos hleft, if_neg]
      exact fun h => h _ mem_cons_self hnew
    have hseen : (trimSpace c.id = [] ∨ trimSpace c.id ∈ (st.after ids).seen) ↔
        (trimSpace c.id = [] ∨ trimSpace c.id ∈ st.seen) := by
      simp [Scan.after, hnew]
    have hall : (∀ id ∈ idsOf (c :: cs), id ∉ ids) ↔
        ∀ id ∈ idsOf cs, id ∉ ids := by
      simp [idsOf, hnew]
    simp only [openCalls, hseen, hall]
    by_cases hbad : trimSpace c.id = [] ∨ trimSpace c.id ∈ st.seen
    · simp [hbad]
    · rwa [if_neg hbad, if_neg hbad]

variable {m : Message} {xs ys : List Message}

lemma callIDs_of_not_open (h : ¬ (m.role = roleAssistant ∧ m.toolCalls ≠ [])) :
    m.callIDs = [] := by
  rw [Message.callIDs]
  split
  · rename_i hrole
    have hnone : m.toolCalls = [] := not_not.mp fun hne => h ⟨hrole, hne⟩
    rw [hnone]
    rfl
  · rfl

lemma scanMessage_seen (ids : List GoString) (m : Message) (st : Scan) :
    scanMessage (st.after ids) m =
      if ∀ id ∈ m.callIDs, id ∉ ids then (scanMessage st m).map (Scan.after ids) else none := by
  by_cases hopen : m.role = roleAssistant ∧ m.toolCalls ≠ []
  · rw [scanMessage, if_pos hopen, scanMessage, if_pos hopen, Message.callIDs, if_pos hopen.1]
    by_cases hpending : st.pending ≠ []
    · simp [Scan.after, hpending]
    have hafter : ¬ (st.after ids).pending ≠ [] := hpending
    rw [if_neg hafter, if_neg hpending]
    exact openCalls_seen ids m.toolCalls st
  · -- a message that opens nothing is scanned without a look at the IDs
    have hids := callIDs_of_not_open hopen
    have hall : ∀ id ∈ m.callIDs, id ∉ ids := by simp [hids]
    rw [scanMessage, if_neg hopen, scanMessage, if_neg hopen, if_pos hall]
    have hpending : (st.after ids).pending = st.pending := rfl
    rw [hpending]
    by_cases hwaits : st.pending ≠ [] ∧ m.role ≠ roleTool
    · rw [if_pos hwaits, if_pos hwaits]
      rfl
    rw [if_neg hwaits, if_neg hwaits]
    by_cases htool : m.role ≠ roleTool
    · rw [if_pos htool, if_pos htool]
      rfl
    rw [if_neg htool, if_neg htool]
    by_cases hanswers : trimSpace m.toolCallID ∈ st.pending
    · rw [if_pos hanswers, if_pos hanswers]
      rfl
    · rw [if_neg hanswers, if_neg hanswers]
      rfl

/-- **What was seen before** matters by its IDs: none of them may be opened again. -/
theorem scanMessages_seen (ids : List GoString) : ∀ (messages : List Message) (st : Scan),
    scanMessages (st.after ids) messages =
      if ∀ id ∈ callIDs messages, id ∉ ids then
        (scanMessages st messages).map (Scan.after ids) else none
  | [], st => by simp [scanMessages, callIDs]
  | m :: ms, st => by
    have hall : (∀ id ∈ callIDs (m :: ms), id ∉ ids) ↔
        (∀ id ∈ m.callIDs, id ∉ ids) ∧ ∀ id ∈ callIDs ms, id ∉ ids := by
      rw [callIDs, flatMap_cons, forall_mem_append]
      rfl
    rw [scanMessages, scanMessages, scanMessage_seen]
    by_cases hm : ∀ id ∈ m.callIDs, id ∉ ids
    · rw [if_pos hm]
      rcases hst : scanMessage st m with _ | st'
      · simp
      rw [map_some, bind_some, bind_some, scanMessages_seen ids ms st']
      by_cases hms : ∀ id ∈ callIDs ms, id ∉ ids
      · rw [if_pos hms, if_pos (hall.mpr ⟨hm, hms⟩)]
      · rw [if_neg hms, if_neg fun h => hms (hall.mp h).2]
    · rw [if_neg hm, if_neg fun h => hm (hall.mp h).1]
      rfl

lemma scanMessages_append : ∀ (xs ys : List Message) (st : Scan),
    scanMessages st (xs ++ ys) = (scanMessages st xs).bind fun st => scanMessages st ys
  | [], ys, st => rfl
  | m :: ms, ys, st => by
    rw [cons_append, scanMessages, scanMessages, bind_assoc]
    exact congrArg _ (funext (scanMessages_append ms ys))

lemma openCalls_ids : ∀ {calls : List Call} {st st' : Scan}, openCalls st calls = some st' →
    ∀ id, id ∈ st'.seen ↔ id ∈ idsOf calls ∨ id ∈ st.seen
  | [], st, st', h => by
    cases h
    simp [idsOf]
  | c :: cs, st, st', h => by
    rw [openCalls] at h
    split at h
    · cases h
    intro id
    rw [openCalls_ids h id]
    simp only [idsOf, map_cons, mem_cons]
    tauto

lemma scanMessage_ids {st st' : Scan} (h : scanMessage st m = some st') :
    ∀ id, id ∈ st'.seen ↔ id ∈ m.callIDs ∨ id ∈ st.seen := by
  rw [scanMessage] at h
  split at h
  · rename_i hopen
    split at h
    · cases h
    · rw [Message.callIDs, if_pos hopen.1]
      exact openCalls_ids h
  rename_i hopen
  have hids := callIDs_of_not_open hopen
  have hseen : st'.seen = st.seen := by
    split at h
    · cases h
    split at h
    · rw [some.inj h]
    split at h
    · rw [← some.inj h]
    · cases h
  intro _
  simp [hids, hseen]

/-- A scan has seen the IDs of the calls that it opened. -/
lemma scanMessages_ids : ∀ {messages : List Message} {st st' : Scan},
    scanMessages st messages = some st' → ∀ id, id ∈ st'.seen ↔ id ∈ callIDs messages ∨ id ∈ st.seen
  | [], st, st', h => by
    cases h
    simp [callIDs]
  | m :: ms, st, st', h => by
    obtain ⟨_, hm, hms⟩ := bind_eq_some_iff.mp h
    intro id
    rw [scanMessages_ids hms id, scanMessage_ids hm id, callIDs, callIDs, flatMap_cons,
      mem_append]
    tauto

/-! ### Two parts -/

lemma bracketed_iff {messages : List Message} :
    Bracketed messages ↔ ∃ ids, scanMessages ⟨[], []⟩ messages = some ⟨[], ids⟩ := by
  rw [Bracketed, validToolTranscriptMessages]
  cases h : scanMessages ⟨[], []⟩ messages with
  | none => simp
  | some st =>
    obtain ⟨_, _⟩ := st
    simp

/-- A scan from some IDs, with nothing open. -/
lemma scanMessages_from (ids : List GoString) (messages : List Message) :
    (∃ ids', scanMessages ⟨[], ids⟩ messages = some ⟨[], ids'⟩) ↔
      Bracketed messages ∧ ∀ id ∈ callIDs messages, id ∉ ids := by
  have hseen := scanMessages_seen ids messages ⟨[], []⟩
  simp only [Scan.after, nil_append] at hseen
  rw [hseen, bracketed_iff]
  split
  · rename_i hnew
    simp only [map_eq_some_iff]
    constructor
    · rintro ⟨_, ⟨_, seen⟩, hscan, heq⟩
      obtain ⟨rfl, -⟩ := Scan.mk.inj heq
      exact ⟨⟨seen, hscan⟩, hnew⟩
    · rintro ⟨⟨_, hscan⟩, -⟩
      exact ⟨_, _, hscan, rfl⟩
  · rename_i hold
    simp [hold]

/-- **A transcript behind a well-bracketed one** is well bracketed with it if it is so by
itself and its calls are new. -/
theorem bracketed_append (h : Bracketed xs) :
    Bracketed (xs ++ ys) ↔ Bracketed ys ∧ ∀ id ∈ callIDs ys, id ∉ callIDs xs := by
  obtain ⟨ids, hscan⟩ := bracketed_iff.mp h
  have hids : ∀ id, id ∈ ids ↔ id ∈ callIDs xs := by
    intro id
    simpa using scanMessages_ids hscan id
  rw [bracketed_iff, scanMessages_append, hscan]
  simp only [bind_some]
  rw [scanMessages_from]
  simp [hids]

lemma roles_distinct : roleUser ≠ roleAssistant ∧ roleUser ≠ roleTool ∧
    roleSystem ≠ roleAssistant ∧ roleSystem ≠ roleTool ∧ roleSystem ≠ roleUser := by
  decide +kernel

/-- **A transcript cut before a user message**: both parts are well bracketed. -/
theorem bracketed_cut (hm : m.role = roleUser)
    (h : Bracketed (xs ++ m :: ys)) : Bracketed xs ∧ Bracketed (m :: ys) := by
  obtain ⟨ids, hscan⟩ := bracketed_iff.mp h
  rw [scanMessages_append] at hscan
  obtain ⟨⟨pending, seen⟩, hxs, hys⟩ := bind_eq_some_iff.mp hscan
  -- while a call is open nobody but the tools may speak
  have hpending : pending = [] := by
    rw [scanMessages] at hys
    obtain ⟨_, hst, -⟩ := bind_eq_some_iff.mp hys
    rw [scanMessage, hm, if_neg fun h => roles_distinct.1 h.1] at hst
    by_contra hne
    rw [if_pos ⟨hne, roles_distinct.2.1⟩] at hst
    cases hst
  subst hpending
  exact ⟨bracketed_iff.mpr ⟨seen, hxs⟩, ((scanMessages_from seen _).mp ⟨ids, hys⟩).1⟩

lemma bracketed_system (hm : m.role = roleSystem) (ms : List Message) :
    Bracketed (m :: ms) ↔ Bracketed ms := by
  have hscan : scanMessage ⟨[], []⟩ m = some ⟨[], []⟩ := by
    rw [scanMessage, hm, if_neg fun h => roles_distinct.2.2.1 h.1, if_neg (by simp),
      if_pos roles_distinct.2.2.2.1]
  rw [bracketed_iff, bracketed_iff, scanMessages, hscan]
  rfl

lemma callIDs_system (hm : m.role = roleSystem) (ms : List Message) :
    callIDs (m :: ms) = callIDs ms := by
  rw [callIDs, flatMap_cons, Message.callIDs, hm]
  rfl

end Model
