/-
Model responses: what a provider returns for one request.

A response carries the text, the local tool calls, facts about tools that the provider runs
itself, artifact references, token usage and an opaque replay.  Facts about one provider
tool call may be repeated in a response; a terminal fact outranks all others.

* **`observed_collapse`** — every call is observed once, and as terminal if any fact about it
  is;
* **`collapse_laws`** — what is left of a list of facts, and where; a list may be collapsed in
  parts.
-/
import AgentRuntime.ModelMessages

namespace Model

open GoString GoJson List

/-! ### Responses -/

/-- Token usage as the provider reports it. -/
structure TokenUsage where
  inputTokens : ℤ := 0
  outputTokens : ℤ := 0
  cacheReadTokens : ℤ := 0
  cacheWriteTokens : ℤ := 0
  cacheWrite5mTokens : ℤ := 0
  cacheWrite1hTokens : ℤ := 0
  reasoningTokens : ℤ := 0
  speed : GoString := []
  serviceTier : GoString := []
  billingRateClass : GoString := []
  deriving DecidableEq, Repr

/-- One fact about a tool call that the provider executes. -/
structure HostedToolCall where
  id : GoString := []
  toolKey : GoString
  status : GoString := []
  input : GoString := []
  output : GoString := []
  error : GoString := []
  deriving DecidableEq, Repr

structure ArtifactRef where
  id : GoString
  kind : GoString
  mediaType : GoString := []
  name : GoString := []
  sizeBytes : ℤ := 0
  metadata : GoString := []
  deriving DecidableEq, Repr

structure Response where
  content : GoString := []
  toolCalls : List Call := []
  hostedToolCalls : List HostedToolCall := []
  artifacts : List ArtifactRef := []
  citations : List GoString := []
  responseID : GoString := []
  usage : Option TokenUsage := none
  providerReplay : Option ProviderReplay := none
  refused : Bool := false
  continues : Bool := false
  deriving DecidableEq, Repr

/-! ### JSON -/

def omitZero (n : ℤ) : Option Value := if n = 0 then none else some (.number (formatInt n))

def omitFalse (b : Bool) : Option Value := if b then some (.bool true) else none

/-- A raw message is left out if it is empty. -/
def omitRaw (s : GoString) : Option Value := if s = [] then none else some (rawTree s)

/-- A slice is left out if it is empty. -/
def omitNil {α : Type} (tree : α → Value) (items : List α) : Option Value :=
  if items.isEmpty then none else some (.array (items.map tree))

def TokenUsage.tree (u : TokenUsage) : Value :=
  struct [(lit "inputTokens", omitZero u.inputTokens), (lit "outputTokens", omitZero u.outputTokens),
    (lit "cacheReadTokens", omitZero u.cacheReadTokens),
    (lit "cacheWriteTokens", omitZero u.cacheWriteTokens),
    (lit "cacheWrite5mTokens", omitZero u.cacheWrite5mTokens),
    (lit "cacheWrite1hTokens", omitZero u.cacheWrite1hTokens),
    (lit "reasoningTokens", omitZero u.reasoningTokens), (lit "speed", omitEmpty u.speed),
    (lit "serviceTier", omitEmpty u.serviceTier),
    (lit "billingRateClass", omitEmpty u.billingRateClass)]

def HostedToolCall.tree (c : HostedToolCall) : Value :=
  struct [(lit "id", omitEmpty c.id), (lit "toolKey", some (.string c.toolKey)),
    (lit "status", omitEmpty c.status), (lit "input", omitRaw c.input),
    (lit "output", omitRaw c.output), (lit "error", omitRaw c.error)]

def ArtifactRef.tree (a : ArtifactRef) : Value :=
  struct [(lit "id", some (.string a.id)), (lit "kind", some (.string a.kind)),
    (lit "mediaType", omitEmpty a.mediaType), (lit "name", omitEmpty a.name),
    (lit "sizeBytes", omitZero a.sizeBytes), (lit "metadata", omitRaw a.metadata)]

def Response.fields (r : Response) : List (GoString × Option Value) :=
  [(lit "content", omitEmpty r.content), (lit "toolCalls", omitNil Call.tree r.toolCalls),
    (lit "hostedToolCalls", omitNil HostedToolCall.tree r.hostedToolCalls),
    (lit "artifacts", omitNil ArtifactRef.tree r.artifacts),
    (lit "citations", omitNil Value.string r.citations),
    (lit "responseID", omitEmpty r.responseID), (lit "usage", r.usage.map TokenUsage.tree),
    (lit "providerReplay", r.providerReplay.map ProviderReplay.tree),
    (lit "refused", omitFalse r.refused), (lit "continue", omitFalse r.continues)]

def Response.raws (r : Response) : List GoString :=
  r.toolCalls.map Call.arguments ++ r.hostedToolCalls.flatMap (fun c => [c.input, c.output, c.error]) ++
    r.artifacts.map ArtifactRef.metadata ++ (r.providerReplay.map ProviderReplay.data).toList

/-- Raw messages must be JSON; an empty one is `null` or left out. -/
def Response.encodable (r : Response) : Bool := r.raws.all fun s => (readRaw s).isSome

/-! ### Facts about provider tools -/

/-- `strings.ToLower`, as far as the result can be one of a few ASCII words: only the capital
letters of ASCII, U+0130 and U+212A become ASCII letters. -/
def lowerASCII : GoString → GoString
  | 0xC4 :: 0xB0 :: t => 0x69 :: lowerASCII t
  | 0xE2 :: 0x84 :: 0xAA :: t => 0x6B :: lowerASCII t
  | b :: t => (if 0x41 ≤ b && b ≤ 0x5A then b + 0x20 else b) :: lowerASCII t
  | [] => []

def hostedToolTerminalStatus (status : GoString) : Bool :=
  let s := lowerASCII (trimSpace status)
  s = lit "completed" || s = lit "failed" || s = lit "error" || s = lit "cancelled" ||
    s = lit "canceled"

def HostedToolCall.terminal (c : HostedToolCall) : Bool := hostedToolTerminalStatus c.status

/-- The tool key and the call ID. -/
def HostedToolCall.identity (c : HostedToolCall) : GoString × GoString := (c.toolKey, c.id)

/-- A fact about a call that was observed replaces the observation if it is terminal and that
one is not. -/
def upgrade (call old : HostedToolCall) : HostedToolCall :=
  if old.id ≠ [] ∧ old.identity = call.identity ∧ old.terminal = false ∧ call.terminal = true then
    call
  else old

/-- One round of the loop of `CollapseHostedToolCalls`. -/
def observe (result : List HostedToolCall) (call : HostedToolCall) : List HostedToolCall :=
  if call.id = [] then result ++ [call]
  else if result.any fun old => old.identity = call.identity then result.map (upgrade call)
  else result ++ [call]

def collapseHostedToolCalls (calls : List HostedToolCall) : List HostedToolCall :=
  calls.foldl observe []

/-- What has been observed after some calls. -/
structure Observed (calls result : List HostedToolCall) : Prop where
  distinct : ((result.filter fun c => c.id ≠ []).map HostedToolCall.identity).Nodup
  identities : ∀ i, i ∈ result.map HostedToolCall.identity ↔ i ∈ calls.map HostedToolCall.identity
  terminal : ∀ c ∈ result, c.id ≠ [] →
    (c.terminal = true ↔ ∃ f ∈ calls, f.identity = c.identity ∧ f.terminal = true)

/-- The first fact about every call, and every fact about a call without an ID. -/
def firstFacts : List HostedToolCall → List HostedToolCall
  | [] => []
  | c :: calls => c :: (firstFacts calls).filter fun d => d.id = [] ∨ d.identity ≠ c.identity

/-- The fact about an observed call that counts: the first terminal one, if there is any. -/
def bestFact (calls : List HostedToolCall) (c : HostedToolCall) : HostedToolCall :=
  if c.id = [] then c else (calls.find? fun f => f.identity = c.identity ∧ f.terminal).getD c

/-- The call has no ID, or nothing is known about it. -/
abbrev IsNew (calls : List HostedToolCall) (call : HostedToolCall) : Prop :=
  call.id = [] ∨ call.identity ∉ calls.map HostedToolCall.identity

variable {call c : HostedToolCall} {calls result : List HostedToolCall}

lemma mem_identities (h : c ∈ calls) : c.identity ∈ calls.map HostedToolCall.identity :=
  mem_map_of_mem h

lemma id_of_identity (h : c.identity = call.identity) : c.id = call.id := congrArg Prod.snd h

lemma observe_eq (result : List HostedToolCall) (call : HostedToolCall) : observe result call =
    result.map (upgrade call) ++ if IsNew result call then [call] else [] := by
  -- a call that is new upgrades nothing
  have hsame : IsNew result call → result.map (upgrade call) = result := by
    intro hnew
    conv_rhs => rw [← map_id result]
    refine map_congr_left fun old hold => if_neg ?_
    rintro ⟨hne, hid, -⟩
    rcases hnew with hempty | hnone
    · exact hne ((id_of_identity hid).trans hempty)
    · exact hnone (hid ▸ mem_identities hold)
  by_cases hnew : IsNew result call
  · rw [hsame hnew, observe]
    split
    · rfl
    rename_i hid
    refine if_neg fun hany => hnew.elim hid fun hnone => hnone ?_
    obtain ⟨_, hold, heq⟩ := any_eq_true.mp hany
    exact of_decide_eq_true heq ▸ mem_identities hold
  · rw [if_neg hnew, append_nil, observe, if_neg fun hid => hnew (.inl hid)]
    refine if_pos (any_eq_true.mpr ?_)
    obtain ⟨old, hold, heq⟩ := mem_map.mp (not_not.mp fun hnone => hnew (.inr hnone))
    exact ⟨old, hold, decide_eq_true heq⟩

lemma firstFacts_append (calls : List HostedToolCall) (call : HostedToolCall) :
    firstFacts (calls ++ [call]) = firstFacts calls ++ if IsNew calls call then [call] else [] := by
  induction calls with
  | nil => simp [firstFacts, IsNew]
  | cons c calls ih =>
    have hnew : IsNew (c :: calls) call ↔
        IsNew calls call ∧ (call.id = [] ∨ call.identity ≠ c.identity) := by
      simp only [IsNew, map_cons, mem_cons]
      tauto
    rw [cons_append, firstFacts, ih, firstFacts, cons_append]
    by_cases h : IsNew calls call
    · simp [hnew, h, filter_singleton, Bool.cond_eq_ite]
    · simp [hnew, h]

lemma firstFacts_subset (h : c ∈ firstFacts calls) : c ∈ calls := by
  induction calls with
  | nil => exact h
  | cons _ _ ih =>
    rcases mem_cons.mp h with rfl | h
    · exact mem_cons_self
    · exact mem_cons_of_mem _ (ih (mem_of_mem_filter h))

lemma mem_firstFacts_identities (calls : List HostedToolCall) (i : GoString × GoString) :
    i ∈ (firstFacts calls).map HostedToolCall.identity ↔ i ∈ calls.map HostedToolCall.identity := by
  induction calls using reverseRecOn with
  | nil => rfl
  | append_singleton _ _ ih =>
    rw [firstFacts_append, map_append, map_append, mem_append, mem_append, ih]
    refine or_congr_right' fun hold => ?_
    split
    · rfl
    · rename_i hnew
      have hknown := not_not.mp fun hnone => hnew (.inr hnone)
      simp only [map_nil, not_mem_nil, map_singleton, mem_singleton, false_iff]
      rintro rfl
      exact hold hknown

lemma bestFact_found {f : HostedToolCall}
    (h : calls.find? (fun f => f.identity = c.identity ∧ f.terminal) = some f) :
    f.identity = c.identity ∧ f.terminal = true := by
  simpa using find?_some h

lemma bestFact_identity (calls : List HostedToolCall) (c : HostedToolCall) :
    (bestFact calls c).identity = c.identity := by
  rw [bestFact]
  split
  · rfl
  cases hfind : calls.find? fun f => f.identity = c.identity ∧ f.terminal with
  | none => rfl
  | some => exact (bestFact_found hfind).1

lemma map_bestFact (calls result : List HostedToolCall) :
    (result.map (bestFact calls)).map HostedToolCall.identity =
      result.map HostedToolCall.identity := by
  rw [map_map]
  exact map_congr_left fun c _ => bestFact_identity calls c

/-- Of a call that was observed, one more fact makes what the loop makes of it. -/
lemma bestFact_append (hc : c ∈ calls) :
    bestFact (calls ++ [call]) c = upgrade call (bestFact calls c) := by
  by_cases hid : c.id = []
  · simp [bestFact, upgrade, hid]
  rw [bestFact, bestFact, if_neg hid, if_neg hid, find?_append]
  cases hfind : calls.find? fun f => f.identity = c.identity ∧ f.terminal with
  | some =>
    exact (if_neg fun hup => by simp [(bestFact_found hfind).2] at hup).symm
  | none =>
    have hopen : c.terminal = false := by
      simpa using find?_eq_none.mp hfind c hc
    by_cases hup : call.identity = c.identity ∧ call.terminal = true
    · simp [upgrade, hid, hopen, hup.1, hup.2]
    · have hnot : ¬ (c.identity = call.identity ∧ call.terminal = true) := by
        rwa [eq_comm]
      simp [upgrade, hid, hopen, hup, hnot]

lemma bestFact_new (h : IsNew calls call) : bestFact (calls ++ [call]) call = call := by
  rw [bestFact]
  split
  · rfl
  rename_i hid
  have hnone : calls.find? (fun f => f.identity = call.identity ∧ f.terminal) = none := by
    refine find?_eq_none.mpr fun f hf => ?_
    have hne : f.identity ≠ call.identity := fun heq => h.elim hid (· (heq ▸ mem_identities hf))
    simp [hne]
  rw [find?_append, hnone, find?_singleton]
  split <;> rfl

lemma collapse_append_singleton (calls : List HostedToolCall) (call : HostedToolCall) :
    collapseHostedToolCalls (calls ++ [call]) = observe (collapseHostedToolCalls calls) call := by
  rw [collapseHostedToolCalls, foldl_append]
  rfl

/-- Every call stands where the first fact about it was, with the fact that counts. -/
lemma collapse_eq (calls : List HostedToolCall) :
    collapseHostedToolCalls calls = (firstFacts calls).map (bestFact calls) := by
  induction calls using reverseRecOn with
  | nil => rfl
  | append_singleton calls call ih =>
    have hids : IsNew (collapseHostedToolCalls calls) call ↔ IsNew calls call := by
      refine or_congr_right (not_congr ?_)
      rw [ih, map_bestFact, mem_firstFacts_identities]
    rw [collapse_append_singleton, observe_eq, firstFacts_append, map_append, if_congr hids rfl rfl]
    congr 1
    · rw [ih, map_map]
      exact map_congr_left fun c hc => (bestFact_append (firstFacts_subset hc)).symm
    · split
      · rename_i hnew
        rw [map_singleton, bestFact_new hnew]
      · rfl

lemma bestFact_terminal (hc : c ∈ calls) (hid : c.id ≠ []) : (bestFact calls c).terminal = true ↔
    ∃ f ∈ calls, f.identity = c.identity ∧ f.terminal = true := by
  rw [bestFact, if_neg hid]
  cases hfind : calls.find? fun f => f.identity = c.identity ∧ f.terminal with
  | some f =>
    have hfound := bestFact_found hfind
    exact iff_of_true hfound.2 ⟨f, mem_of_find?_eq_some hfind, hfound⟩
  | none =>
    have hnone : ∀ f ∈ calls, ¬ (f.identity = c.identity ∧ f.terminal = true) := by
      simpa using find?_eq_none.mp hfind
    exact iff_of_false (fun h => hnone c hc ⟨rfl, h⟩) fun ⟨f, hf, h⟩ => hnone f hf h

lemma firstFacts_distinct (calls : List HostedToolCall) :
    (((firstFacts calls).filter fun c => c.id ≠ []).map HostedToolCall.identity).Nodup := by
  induction calls with
  | nil => exact .nil
  | cons c _ ih =>
    have hrest := ih.sublist ((filter_sublist (p := fun d : HostedToolCall =>
      d.id = [] ∨ d.identity ≠ c.identity).filter _).map _)
    rw [firstFacts]
    by_cases hid : c.id = []
    · rwa [filter_cons_of_neg (by simp [hid])]
    rw [filter_cons_of_pos (by simp [hid]), map_cons, nodup_cons]
    refine ⟨fun hmem => ?_, hrest⟩
    obtain ⟨d, hd, heq⟩ := mem_map.mp hmem
    simp only [mem_filter, decide_eq_true_eq] at hd
    exact hd.1.2.elim hd.2 fun hne => hne heq

/-- **Every call of a response is observed once**, and as terminal if any fact about it is. -/
theorem observed_collapse (calls : List HostedToolCall) :
    Observed calls (collapseHostedToolCalls calls) := by
  rw [collapse_eq]
  have hid : ∀ c, (bestFact calls c).id = c.id := fun c => id_of_identity (bestFact_identity calls c)
  refine ⟨?_, fun i => ?_, fun c hc hne => ?_⟩
  · rw [filter_map, map_bestFact]
    simpa only [Function.comp_def, hid] using firstFacts_distinct calls
  · rw [map_bestFact, mem_firstFacts_identities]
  · obtain ⟨d, hd, rfl⟩ := mem_map.mp hc
    rw [bestFact_identity]
    exact bestFact_terminal (firstFacts_subset hd) (hid d ▸ hne)

/-- A list that tells of every call once is left as it is. -/
lemma collapse_of_distinct
    (h : ((calls.filter fun c => c.id ≠ []).map HostedToolCall.identity).Nodup) :
    collapseHostedToolCalls calls = calls := by
  induction calls using reverseRecOn with
  | nil => rfl
  | append_singleton _ _ ih =>
    rw [filter_append, map_append] at h
    rw [collapse_append_singleton, ih h.of_append_left, observe]
    split
    · rfl
    rename_i hid
    refine if_neg fun hany => ?_
    obtain ⟨old, hold, heq⟩ := any_eq_true.mp hany
    have hsame := of_decide_eq_true heq
    refine (disjoint_of_nodup_append h) (mem_map.mpr ⟨old, ?_, hsame⟩) ?_
    · simpa [hold, id_of_identity hsame] using hid
    · simp [hid]

lemma filter_anonymous (calls : List HostedToolCall) :
    (firstFacts calls).filter (fun c => c.id = []) = calls.filter fun c => c.id = [] := by
  induction calls using reverseRecOn with
  | nil => rfl
  | append_singleton _ call ih =>
    rw [firstFacts_append, filter_append, filter_append, ih]
    by_cases hid : call.id = []
    · rw [if_pos (.inl hid)]
    · split <;> simp [hid]

/-- **Collapsing.**  Calls without an ID are kept, every other call is there once and stands where
the first fact about it was, with the first terminal fact if there is one.  Nothing is left to
collapse, and a part may be collapsed before the rest is there. -/
theorem collapse_laws (calls more : List HostedToolCall) :
    collapseHostedToolCalls calls = (firstFacts calls).map (bestFact calls) ∧
    (collapseHostedToolCalls calls).filter (fun c => c.id = []) =
      calls.filter (fun c => c.id = []) ∧
    Observed calls (collapseHostedToolCalls calls) ∧
    collapseHostedToolCalls (collapseHostedToolCalls calls) = collapseHostedToolCalls calls ∧
    collapseHostedToolCalls (collapseHostedToolCalls calls ++ more) =
      collapseHostedToolCalls (calls ++ more) := by
  have hagain := collapse_of_distinct (observed_collapse calls).distinct
  refine ⟨collapse_eq calls, ?_, observed_collapse calls, hagain, ?_⟩
  · rw [collapse_eq, filter_map, ← filter_anonymous calls]
    simp only [Function.comp_def, id_of_identity (bestFact_identity calls _)]
    conv_rhs => rw [← map_id (filter _ _)]
    refine map_congr_left fun c hc => if_pos ?_
    simpa using (mem_filter.mp hc).2
  · rw [collapseHostedToolCalls, foldl_append, ← collapseHostedToolCalls, hagain,
      collapseHostedToolCalls, collapseHostedToolCalls, ← foldl_append]

end Model
