/-
The facts that the timeline of a Turn keeps about tool calls (`timeline.go`).

The ID of such a fact is a hash of the Turn, the call ID and the status.  The Store takes an ID that
it knows for a replay, and a replay has to agree in the Run, too.

* `Timeline` — the Stores that calls lead to, with the facts that were recorded;
* **`tool_fact_refused_iff`** — when the fact of one Run is in the way of that of another.
-/
import AgentRuntime.DispatchArbitration

namespace Harness

open GoString GoJson Kernel FiniteMap MemoryStore

def ItemStatus.text : ItemStatus → GoString
  | .started => lit "started"
  | .waiting => lit "waiting"
  | .completed => lit "completed"
  | .failed => lit "failed"
  | .cancelled => lit "cancelled"
  | .other name => name

/-- A tool call of a Run, and the Invocation that executes the Run. -/
structure ToolInvocation where
  turnID : GoString
  invocationID : GoString
  runID : GoString
  callID : GoString
  toolKey : GoString := []
  arguments : RawMessage := []

structure ExecutionResult where
  content : RawMessage := []
  executionID : GoString := []
  disposition : GoString := []

section Facts

variable (sha256 : GoString → GoString)

def hashTimelineBytes (value : GoString) : GoString :=
  if value = [] then [] else hexEncode (sha256 value)

def toolTimelinePayload (v : ToolInvocation) (result : ExecutionResult) : Value :=
  struct [(lit "callID", some (.string v.callID)), (lit "toolKey", some (.string v.toolKey)),
    (lit "argumentsHash", some (.string (hashTimelineBytes sha256 v.arguments))),
    (lit "contentHash", omitEmpty (hashTimelineBytes sha256 result.content)),
    (lit "executionID", omitEmpty result.executionID),
    (lit "disposition", omitEmpty result.disposition)]

def toolItemID (v : ToolInvocation) (status : ItemStatus) : GoString :=
  stableID sha256 (lit "hit") [v.turnID, v.callID, status.text]

def toolTimelineItem (v : ToolInvocation) (result : ExecutionResult) (status : ItemStatus)
    (parentItemID : GoString) (now : Time) : Item where
  id := toolItemID sha256 v status
  turnID := v.turnID
  kind := .tool
  status := status
  runID := v.runID
  invocationID := v.invocationID
  parentItemID := parentItemID
  payload := render (toolTimelinePayload sha256 v result)
  createdAt := now
  updatedAt := now

def appendToolTimelineItem (s : MemoryStore) (v : ToolInvocation) (result : ExecutionResult)
    (status : ItemStatus) (parentItemID : GoString) (now : Time) :
    Except StoreError (MemoryStore × GoString) :=
  let item := toolTimelineItem sha256 v result status parentItemID now
  (s.appendItem item).map fun r => (r.1, item.id)

/-- The middleware around a call, whose handler is `next`: the store, the result and what the
middleware itself has to report. -/
def ToolTimelineMiddleware.tool (s : MemoryStore) (v : ToolInvocation) (now later : Time)
    (next : MemoryStore → MemoryStore × ExecutionResult × Bool) :
    MemoryStore × ExecutionResult × Option StoreError :=
  match appendToolTimelineItem sha256 s v {} .started [] now with
  | .error e => (s, {}, some e)
  | .ok (s, startedID) =>
    let (s, result, failed) := next s
    if !failed && trimSpace result.disposition = lit "pending" then (s, result, none)
    else
      let status := if failed then .failed else .completed
      match appendToolTimelineItem sha256 s v result status startedID later with
      | .error e => (s, result, some e)
      | .ok (s, _) => (s, result, none)

end Facts

/-- The text that the ID of a fact is a hash of. -/
def hashed (v : ToolInvocation) (status : ItemStatus) : GoString :=
  [v.turnID, v.callID, status.text].flatMap fun value => trimSpace value ++ [0]

variable {sha256 : GoString → GoString} {s s' : MemoryStore} {v : ToolInvocation}
  {result : ExecutionResult} {status : ItemStatus} {parentItemID id : GoString} {now : Time} {e : Item}
  {facts : List (ToolInvocation × ItemStatus)}

/-- The Stores that calls lead to, with the tool facts that were recorded.  Whatever else is called
records no Item under the ID of a tool fact. -/
inductive Timeline (sha256 : GoString → GoString) :
    MemoryStore → List (ToolInvocation × ItemStatus) → Prop
  | start : Timeline sha256 {} []
  | other {s s' : MemoryStore} {facts : List (ToolInvocation × ItemStatus)}
      (h : Timeline sha256 s facts) (hlater : Follows sha256 s s')
      (hspared : ∀ v status, (s'.itemIDs.lookup (toolItemID sha256 v status)).isSome = true →
        (s.itemIDs.lookup (toolItemID sha256 v status)).isSome = true) : Timeline sha256 s' facts
  | recorded {s s' : MemoryStore} {facts : List (ToolInvocation × ItemStatus)} {v : ToolInvocation}
      {result : ExecutionResult} {status : ItemStatus} {parentItemID id : GoString} {now : Time}
      (h : Timeline sha256 s facts)
      (hok : appendToolTimelineItem sha256 s v result status parentItemID now = .ok (s', id)) :
      Timeline sha256 s' ((v, status) :: facts)

/-- An Item that is recorded stays. -/
lemma MemoryStore.Change.itemIDs (h : Change sha256 s s') (he : s.itemIDs.lookup id = some e) :
    s'.itemIDs.lookup id = some e := by
  cases h with
  | created value =>
    rw [addInvocation]
    split
    all_goals exact he
  | appended given hnew =>
    -- an append under an ID that is taken is a replay or a conflict, and changes nothing
    refine (lookup_insert_of_ne fun heq => ?_).trans he
    rw [heq] at he
    exact absurd (he.symm.trans hnew) (by simp)
  | _ => exact he

lemma Follows.itemIDs (h : Follows sha256 s s') (he : s.itemIDs.lookup id = some e) :
    s'.itemIDs.lookup id = some e := by
  induction h with
  | refl => exact he
  | tail _ hstep ih =>
    obtain ⟨call, rfl⟩ := hstep
    cases call with
    | arbitrated request => exact (serve_change sha256 _ request).itemIDs ih
    | updateInteraction value expected =>
      rw [(perform_updateInteraction _ value expected).itemIDs]
      exact ih

/-- What the Store keeps of an Item that it has accepted. -/
lemma appendItem_kept {given : Item} {r : Item × Bool} (h : s.appendItem given = .ok (s', r)) :
    (∃ e, s'.itemIDs.lookup given.id = some e ∧ e.runID = given.runID) ∧
      ∀ id, id ≠ given.id → s'.itemIDs.lookup id = s.itemIDs.lookup id := by
  rw [appendItem] at h
  split at h
  · cases h
  split at h
  · rename_i existing hfound
    split at h
    · rename_i hsame
      cases h
      simp only [sameItemIdentity, Bool.and_eq_true, decide_eq_true_eq] at hsame
      exact ⟨⟨existing, hfound, hsame.1.1.1.1.2⟩, fun _ _ => rfl⟩
    · cases h
  · split at h
    · cases h
    · cases h
      exact ⟨⟨_, AList.lookup_insert _, rfl⟩, fun _ hne => lookup_insert_of_ne hne⟩

/-- **In every run** the Items under the IDs of tool facts are those of the recorded facts, each with
the Run of its fact. -/
theorem Timeline.spec (h : Timeline sha256 s facts) :
    (∀ f ∈ facts, ∃ e, s.itemIDs.lookup (toolItemID sha256 f.1 f.2) = some e ∧ e.runID = f.1.runID) ∧
      ∀ v status, (s.itemIDs.lookup (toolItemID sha256 v status)).isSome = true →
        ∃ f ∈ facts, toolItemID sha256 f.1 f.2 = toolItemID sha256 v status := by
  induction h with
  | start => exact ⟨by simp, fun _ _ h => by cases h⟩
  | other _ hlater hspared ih =>
    refine ⟨fun f hf => ?_, fun v status h => ih.2 v status (hspared v status h)⟩
    obtain ⟨e, he, hrun⟩ := ih.1 f hf
    exact ⟨e, hlater.itemIDs he, hrun⟩
  | @recorded s s' facts v result status parentItemID id now _ hok ih =>
    obtain ⟨⟨_, r⟩, happend, heq⟩ := map_eq_ok hok
    cases heq
    obtain ⟨⟨e, he, hrun⟩, hrest⟩ := appendItem_kept happend
    refine ⟨List.forall_mem_cons.mpr ⟨⟨e, he, hrun⟩, fun f hf => ?_⟩, fun w status' h => ?_⟩
    · obtain ⟨e', he', hrun'⟩ := ih.1 f hf
      exact ⟨e', (@appendItem_change sha256 _ _ _ _ happend).itemIDs he', hrun'⟩
    · -- an Item that is there is the new one, or was there before
      by_cases hsame : toolItemID sha256 w status' = toolItemID sha256 v status
      · exact ⟨_, List.mem_cons_self, hsame.symm⟩
      · rw [hrest _ hsame] at h
        obtain ⟨f, hf, heq⟩ := ih.2 w status' h
        exact ⟨f, List.mem_cons_of_mem _ hf, heq⟩

lemma toolItemID_of_hashed {w : ToolInvocation} {status' : ItemStatus}
    (h : hashed w status' = hashed v status) :
    toolItemID sha256 w status' = toolItemID sha256 v status := by
  rw [toolItemID, stableID, ← hashed, h]
  rfl

section Append

variable (hvalid : validItem (toolTimelineItem sha256 v result status parentItemID now) = true)

include hvalid

/-- An Item of another Run is no replay. -/
lemma append_conflict (he : s.itemIDs.lookup (toolItemID sha256 v status) = some e)
    (hrun : e.runID ≠ v.runID) :
    appendToolTimelineItem sha256 s v result status parentItemID now = .error .conflict := by
  have hfound : s.itemIDs.lookup (toolTimelineItem sha256 v result status parentItemID now).id =
      some e := he
  have hdiffers : e.runID ≠ (toolTimelineItem sha256 v result status parentItemID now).runID := hrun
  simp [appendToolTimelineItem, appendItem, hvalid, hfound, sameItemIdentity, hdiffers, Except.map]

lemma append_new (hnew : s.itemIDs.lookup (toolItemID sha256 v status) = none)
    (hparent : ∀ grant, s.itemIDs.lookup parentItemID = some grant → grant.isGrant = false) :
    ∃ s', appendToolTimelineItem sha256 s v result status parentItemID now =
      .ok (s', toolItemID sha256 v status) := by
  have hnone : s.itemIDs.lookup (toolTimelineItem sha256 v result status parentItemID now).id =
      none := hnew
  -- a tool fact is neither a fence nor a grant, and its parent is no grant either
  have hadmitted : s.itemAdmitted (toolTimelineItem sha256 v result status parentItemID now) = true :=
    rfl
  have hreceipt : s.receiptAdmitted
      (s.stored (toolTimelineItem sha256 v result status parentItemID now)) = true := by
    rw [receiptAdmitted]
    split
    · rename_i grant hgrant
      rw [hparent grant hgrant]
      rfl
    · rfl
  refine ⟨s.push (s.stored (toolTimelineItem sha256 v result status parentItemID now)), ?_⟩
  simp only [appendToolTimelineItem, appendItem, hvalid, hnone, hadmitted, hreceipt, Except.map]
  rfl

end Append

/-- **When a Run is in the way of another.**  In every run, a fact is refused because of a fact of
another Run exactly if a fact of another Run was recorded for the same Turn, call ID and status: what
is hashed does not name the Run.  Where no fact was recorded for them, it is appended. -/
theorem tool_fact_refused_iff (h : Timeline sha256 s facts)
    (hfree : ∀ f ∈ facts, toolItemID sha256 f.1 f.2 = toolItemID sha256 v status →
      hashed f.1 f.2 = hashed v status)
    (hvalid : validItem (toolTimelineItem sha256 v result status parentItemID now) = true) :
    ((∃ e, s.itemIDs.lookup (toolItemID sha256 v status) = some e ∧ e.runID ≠ v.runID ∧
        appendToolTimelineItem sha256 s v result status parentItemID now = .error .conflict) ↔
      ∃ f ∈ facts, f.1.runID ≠ v.runID ∧ hashed f.1 f.2 = hashed v status) ∧
    ((∀ f ∈ facts, hashed f.1 f.2 ≠ hashed v status) →
      (∀ grant, s.itemIDs.lookup parentItemID = some grant → grant.isGrant = false) →
        ∃ s', appendToolTimelineItem sha256 s v result status parentItemID now =
          .ok (s', toolItemID sha256 v status)) := by
  obtain ⟨hfacts, hknown⟩ := h.spec
  refine ⟨⟨?_, ?_⟩, fun hnew => append_new hvalid ?_⟩
  · rintro ⟨e, he, hrun, -⟩
    obtain ⟨f, hf, heq⟩ := hknown v status (by rw [he]; rfl)
    obtain ⟨e', he', hrun'⟩ := hfacts f hf
    rw [heq, he] at he'
    cases he'
    exact ⟨f, hf, hrun' ▸ hrun, hfree f hf heq⟩
  · rintro ⟨f, hf, hother, hsame⟩
    obtain ⟨e, he, hrun⟩ := hfacts f hf
    rw [toolItemID_of_hashed hsame] at he
    exact ⟨e, he, hrun ▸ hother, append_conflict hvalid he (hrun ▸ hother)⟩
  · rw [← Option.not_isSome_iff_eq_none]
    intro hsome
    obtain ⟨f, hf, heq⟩ := hknown v status hsome
    exact hnew f hf (hfree f hf heq)

/-- A call of a Run of a Turn; the model numbers the calls of each Run from one. -/
def numberedCall (invocationID runID callID : GoString) : ToolInvocation :=
  ⟨lit "t", invocationID, runID, callID, lit "k", []⟩

/-- The first call of the root, and one of a child. -/
def rootCall : ToolInvocation := numberedCall (lit "i") (lit "root") (lit "1")

def childCall (callID : GoString) : ToolInvocation := numberedCall (lit "j") (lit "child") callID

/-- The Store after the call of the root has started. -/
def rootStarted : Except StoreError (MemoryStore × GoString) :=
  appendToolTimelineItem hexEncode {} rootCall {} .started [] 1

/-- The first call of the child is refused, and its second one is appended. -/
theorem child_call_met : ∃ s id, rootStarted = .ok (s, id) ∧
    appendToolTimelineItem hexEncode s (childCall (lit "1")) {} .started [] 2 =
      .error .conflict ∧
    ∃ s', appendToolTimelineItem hexEncode s (childCall (lit "2")) {} .started [] 2 =
      .ok (s', toolItemID hexEncode (childCall (lit "2")) .started) := by
  obtain ⟨s, id, hroot⟩ : ∃ s id, rootStarted = .ok (s, id) := ⟨_, _, rfl⟩
  have hrun : Timeline hexEncode s [(rootCall, .started)] := .recorded .start hroot
  have hstored : ∀ grant, s.itemIDs.lookup [] = some grant → grant.isGrant = false := by
    cases hroot
    exact fun _ h => by cases h
  refine ⟨s, id, hroot, ?_, ?_⟩
  · obtain ⟨_, _, _, hconflict⟩ := (@tool_fact_refused_iff _ _ (childCall (lit "1")) {} .started []
      2 _ hrun (by simp [childCall, rootCall, numberedCall, hashed]) (by decide +kernel)).1.mpr
        ⟨_, List.mem_singleton_self _, by decide, rfl⟩
    exact hconflict
  · refine (tool_fact_refused_iff hrun ?_ (by decide +kernel)).2 ?_ hstored
    · exact List.forall_mem_singleton.mpr (by decide +kernel)
    · exact List.forall_mem_singleton.mpr (by decide +kernel)

/-- The middleware refuses the call of the child, whatever its handler does. -/
theorem child_call_refused : ∃ s id, rootStarted = .ok (s, id) ∧ ∀ next,
    ToolTimelineMiddleware.tool hexEncode s (childCall (lit "1")) 2 3 next =
      (s, {}, some .conflict) :=
  ⟨_, _, rfl, fun _ => rfl⟩

end Harness
