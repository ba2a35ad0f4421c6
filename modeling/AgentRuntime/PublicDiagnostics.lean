/-
What the HTTP adapter shows of a feature's payload (`agent-runtime-http/public_diagnostics.go`).

A payload is decoded into an `any`, stripped of private and diagnostic members in place and
encoded again.  Which members go depends on where they are: below a key of business content
ordinary outcomes stay, outside of it errors go, and the object of a failure has rules of its
own.

* `Same`, **`publicDiagnosticPayload_same`** — it does not depend on what is hidden;
* **`publicDiagnosticPayload_again`** — a second time changes nothing;
* `modeAt`, **`follow_strip`** — what is kept, along every path.
-/
import AgentRuntime.ModelResponses

namespace PublicHTTP

open GoString GoJson Model List

/-! ### Failures -/

def publicUnknownFailureCode : GoString := lit "execution.failed"

/-- The failure codes that are public as they are. -/
def publicCodes : List GoString := [
  lit "run.cancelled", lit "run.deadline_exceeded",
  lit "agent.model_failed", lit "agent.model_retry_exhausted",
  lit "agent.tool_failed", lit "agent.tool_invalid", lit "agent.discovery_invalid",
  lit "agent.tool_deadline_exceeded", lit "agent.tool_wait_invalid",
  lit "agent.deadline_exceeded", lit "agent.llm_limit", lit "agent.tool_limit",
  lit "agent.shared_budget_exhausted", lit "agent.model_allowance_exhausted",
  lit "agent.tool_allowance_exhausted", lit "agent.total_tokens_budget",
  lit "agent.output_bytes_budget", lit "agent.model_invocation_invalid",
  lit "agent.model_invocation.pending", lit "agent.model_invocation.claimed",
  lit "agent.completion_validation_failed", lit "agent.usage_invalid",
  lit "agent.completion_repair_exhausted", lit "agent.model_response_rejected",
  lit "model.post_generation_failed",
  lit "agent.model_invocation.retryable", lit "agent.model_invocation.completed",
  lit "model.upstream_auth_failed", lit "model.upstream_access_denied",
  lit "model.upstream_quota_exhausted", lit "model.upstream_rate_limited",
  lit "model.upstream_unavailable", lit "model.upstream_timeout",
  lit "model.upstream_context_exceeded", lit "model.upstream_request_invalid",
  lit "model.upstream_request_rejected", lit "model.upstream_model_unavailable",
  lit "model.upstream_safety_rejected", lit "model_route_not_configured",
  lit "model.access_denied", lit "model.entitlement_denied",
  lit "context.artifact_payload_too_large", lit "context.input_budget_exceeded",
  publicUnknownFailureCode]

/-- The dimensions of a shared budget that are public. -/
def budgetDimensions : List GoString := [
  lit "llm_calls", lit "tool_calls", lit "input_tokens", lit "output_tokens",
  lit "total_tokens", lit "child_runs", lit "concurrent_runs", lit "output_bytes",
  lit "state_bytes", lit "cost_units"]

/-- `strings.TrimPrefix`. -/
def trimStart (start s : GoString) : GoString := if start.isPrefixOf s then s.drop start.length else s

/-- `strings.TrimSuffix`. -/
def trimEnd (ending s : GoString) : GoString :=
  if ending.isSuffixOf s then s.take (s.length - ending.length) else s

/-- The code of a shared budget of one of the dimensions. -/
def isSharedBudget (code : GoString) : Bool :=
  (lit "agent.shared_").isPrefixOf code && (lit "_budget").isSuffixOf code &&
    decide (trimEnd (lit "_budget") (trimStart (lit "agent.shared_") code) ∈ budgetDimensions)

/-- `PublicFailureCode`. -/
def publicFailureCode (code : GoString) : GoString :=
  let code := trimSpace code
  if code = [] then []
  else if code ∈ publicCodes then code
  else if isSharedBudget code then code
  else publicUnknownFailureCode

/-- The texts of the public failure codes; the other codes share one text. -/
def publicTexts : List (List GoString × GoString) := [
  ([lit "run.cancelled"], lit "execution was cancelled"),
  ([lit "agent.model_allowance_exhausted", lit "agent.tool_allowance_exhausted"],
    lit "execution paused at its current call allowance"),
  ([lit "model.upstream_auth_failed"], lit "model provider authentication failed"),
  ([lit "model.upstream_access_denied", lit "model.access_denied"], lit "model access is denied"),
  ([lit "model.entitlement_denied", lit "model.upstream_quota_exhausted"],
    lit "model usage entitlement or quota is unavailable"),
  ([lit "model.upstream_rate_limited"], lit "model provider is limiting requests"),
  ([lit "model.upstream_unavailable", lit "model.upstream_timeout"],
    lit "model provider could not complete the request"),
  ([lit "model.upstream_context_exceeded", lit "model.upstream_request_invalid"],
    lit "model input must be adjusted"),
  ([lit "model.upstream_model_unavailable", lit "model_route_not_configured"],
    lit "model execution route is unavailable"),
  ([lit "agent.tool_failed"], lit "tool execution failed"),
  ([lit "agent.completion_repair_exhausted"],
    lit "model could not produce an acceptable final answer within its repair allowance"),
  ([lit "agent.model_response_rejected"],
    lit "completed model response violated its response or tool contract"),
  ([lit "model.post_generation_failed"],
    lit "model generation completed but its local receipt or artifacts could not be saved"),
  ([lit "agent.tool_deadline_exceeded"],
    lit "external tool result did not arrive before its deadline"),
  ([lit "context.artifact_payload_too_large"],
    lit "context archive exceeds the 4 MiB storage limit; shorten the input or start a new conversation"),
  ([lit "context.input_budget_exceeded"],
    lit "context request exceeds its token or serialized size limit; " ++
      lit "shorten the input or start a new conversation")]

/-- `PublicFailureDetail`. -/
def publicFailureDetail (code detail : GoString) : GoString :=
  let code := publicFailureCode code
  if code = [] ∧ trimSpace detail = [] then []
  else ((publicTexts.find? fun entry => code ∈ entry.1).map Prod.snd).getD
    (lit "execution could not be completed")

/-! ### Payloads -/

/-- The key as it is compared: without case, underscores and hyphens. -/
def normalizeKey (key : GoString) : GoString :=
  lowerASCII (key.filter fun b => b != 0x5F && b != 0x2D)

def privateNames : List GoString := [lit "providerreplay", lit "preparedinput"]

def errorNames : List GoString := [lit "error", lit "errors"]

def waitNames : List GoString := [lit "toolwait", lit "externalsignals"]

def diagnosticNames : List GoString := [
  lit "errordetail", lit "errormessage", lit "errorpreview", lit "cancelerror",
  lit "diagnostic", lit "diagnostics", lit "privatedebug", lit "upstreamdebug",
  lit "providererror", lit "providerresponse", lit "providerrequest",
  lit "requestbody", lit "responsebody", lit "rawerror", lit "stacktrace",
  lit "traceback", lit "debug", lit "exception", lit "headers", lit "requestheaders",
  lit "responseheaders", lit "authorization", lit "apikey", lit "accesstoken",
  lit "secret", lit "credentials"]

/-- The keys of business content. -/
def businessNames : List GoString := [
  lit "result", lit "results", lit "output", lit "outputs", lit "items", lit "content",
  lit "toolresult", lit "toolresults", lit "userdata", lit "input"]

/-- The fields of a failure that are deleted. -/
def failureTexts : List GoString := [lit "detail", lit "message", lit "error"]

/-- Where a value is: outside of business content, inside of it, or the object of a failure. -/
inductive Mode where
  | diagnostic
  | business
  | failure
  deriving DecidableEq, Repr

/-- What becomes of a member: it is deleted, its value is replaced, or its value is visited. -/
inductive Rule where
  | drop
  | write (v : Value)
  | enter (mode : Mode)

/-- A failure code is bounded; what is no string is no failure code. -/
def boundedCode : Value → Rule
  | .string code => .write (.string (publicFailureCode code))
  | _ => .drop

/-- A failure that is no object is nothing to show. -/
def failureObject : Value → Rule
  | .object _ => .enter .failure
  | _ => .drop

/-- One round of the loop of `stripDiagnosticFields`. -/
def memberRule (businessContent : Bool) (key : GoString) (child : Value) : Rule :=
  let normalized := normalizeKey key
  if normalized ∈ privateNames then .drop
  else if normalized ∈ errorNames ∧ ¬ businessContent then .drop
  else if normalized = lit "failure" ∧ ¬ businessContent then failureObject child
  else if normalized = lit "errorcode" ∧ ¬ businessContent then boundedCode child
  else if normalized ∈ waitNames ∧ ¬ businessContent then .drop
  else if normalized ∈ diagnosticNames then .drop
  else .enter (if businessContent ∨ normalized ∈ businessNames then .business else .diagnostic)

/-- A field of a failure: the loop over its fields, and then `stripDiagnosticFields` of what is
left.  A field that the loop takes for the code is none of the names of the other pass. -/
def failureRule (field : GoString) (raw : Value) : Rule :=
  if lowerASCII field ∈ failureTexts then .drop
  else if lowerASCII field = lit "code" then boundedCode raw
  else memberRule false field raw

def rule : Mode → GoString → Value → Rule
  | .diagnostic => memberRule false
  | .business => memberRule true
  | .failure => failureRule

mutual

/-- `stripDiagnosticFields`; the order in which a map is visited does not matter, since every
member is treated by itself. -/
def strip : Mode → Value → Value
  | mode, .array items => .array (stripItems mode items)
  | mode, .object members => .object (stripMembers mode members)
  | _, .null => .null
  | _, .bool b => .bool b
  | _, .number literal => .number literal
  | _, .string s => .string s

def stripItems : Mode → List Value → List Value
  | _, [] => []
  | mode, v :: vs => strip mode v :: stripItems mode vs

def stripMembers : Mode → List (GoString × Value) → List (GoString × Value)
  | _, [] => []
  | mode, (key, child) :: ms =>
    match rule mode key child with
    | .drop => stripMembers mode ms
    | .write v => (key, v) :: stripMembers mode ms
    | .enter inner => (key, strip inner child) :: stripMembers mode ms

end

/-- `PublicDiagnosticPayload`; nothing for a text that is not JSON. -/
def publicDiagnosticPayload (value : GoString) : GoString :=
  match parse value with
  | none => []
  | some v => render (strip .diagnostic (generic v))

/-! ### Members -/

/-- What is left of one member. -/
def stripMember (mode : Mode) (m : GoString × Value) : Option (GoString × Value) :=
  match rule mode m.1 m.2 with
  | .drop => none
  | .write v => some (m.1, v)
  | .enter inner => some (m.1, strip inner m.2)

@[simp] lemma stripItems_eq (mode : Mode) (items : List Value) :
    stripItems mode items = items.map (strip mode) := by
  induction items with
  | nil => rfl
  | cons _ _ ih => rw [stripItems, ih, map_cons]

@[simp] lemma stripMembers_eq (mode : Mode) (ms : List (GoString × Value)) :
    stripMembers mode ms = ms.filterMap (stripMember mode) := by
  induction ms with
  | nil => rfl
  | cons m _ ih =>
    obtain ⟨key, child⟩ := m
    rw [stripMembers, filterMap_cons, stripMember]
    cases rule mode key child with
    | drop => exact ih
    | write | enter => exact congrArg _ ih

variable {mode : Mode} {m m' : GoString × Value} {key : GoString} {ms ns : List (GoString × Value)}
  {v : Value}

lemma stripMember_key (h : stripMember mode m = some m') : m'.1 = m.1 := by
  rw [stripMember] at h
  split at h
  · cases h
  all_goals
    cases h
    rfl

/-- The names that are hidden outside of business content. -/
def hiddenNames : List GoString := privateNames ++ errorNames ++ waitNames ++ diagnosticNames

/-- The keys whose values are hidden, whatever they are. -/
def hidden : Mode → GoString → Bool
  | .diagnostic, key => decide (normalizeKey key ∈ hiddenNames)
  | .business, key => decide (normalizeKey key ∈ privateNames ++ diagnosticNames)
  | .failure, key => decide (lowerASCII key ∈ failureTexts) || decide (normalizeKey key ∈ hiddenNames)

/-- The keys of failure codes. -/
def coded : Mode → GoString → Bool
  | .diagnostic, key => decide (normalizeKey key = lit "errorcode")
  | .business, _ => false
  | .failure, key =>
    decide (lowerASCII key = lit "code") || decide (normalizeKey key = lit "errorcode")

/-- Where the value of a key is visited. -/
def innerMode : Mode → GoString → Mode
  | .business, _ => .business
  | _, key =>
    if normalizeKey key = lit "failure" then .failure
    else if normalizeKey key ∈ businessNames then .business else .diagnostic

/-- A separator stays where it is. -/
lemma mem_lowerASCII {b : UInt8} (hb : b = 0x5F ∨ b = 0x2D) (h : b ∈ key) :
    b ∈ lowerASCII key := by
  fun_induction lowerASCII key with
  | case1 t ih | case2 t ih =>
    rcases hb with rfl | rfl <;> simp_all
  | case3 c t _ _ ih =>
    rcases mem_cons.mp h with rfl | ht
    · rcases hb with rfl | rfl <;> simp
    · exact mem_cons_of_mem _ (ih ht)
  | case4 => cases h

/-- A key that is `code` up to case has no separators. -/
lemma normalizeKey_of_lower {name : GoString} (h : lowerASCII key = name)
    (hname : ∀ b ∈ name, b ≠ 0x5F ∧ b ≠ 0x2D) : normalizeKey key = name := by
  have hfilter : key.filter (fun b => b != 0x5F && b != 0x2D) = key := by
    refine filter_eq_self.mpr fun b hb => ?_
    rw [Bool.and_eq_true, bne_iff_ne, bne_iff_ne]
    constructor
    · exact fun heq => (hname b (h ▸ mem_lowerASCII (.inl heq) hb)).1 heq
    · exact fun heq => (hname b (h ▸ mem_lowerASCII (.inr heq) hb)).2 heq
  rw [normalizeKey, hfilter, h]

/-- What `stripDiagnosticFields` does outside of business content. -/
lemma memberRule_false (key : GoString) (child : Value) : memberRule false key child =
    if normalizeKey key ∈ hiddenNames then .drop
    else if normalizeKey key = lit "errorcode" then boundedCode child
    else if normalizeKey key = lit "failure" then failureObject child
    else .enter (if normalizeKey key ∈ businessNames then .business else .diagnostic) := by
  rw [memberRule]
  generalize normalizeKey key = name
  have hfailure : lit "failure" ∉ hiddenNames := by decide +kernel
  have hcode : lit "errorcode" ∉ hiddenNames := by decide +kernel
  have hne : lit "errorcode" ≠ lit "failure" := by decide +kernel
  simp only [hiddenNames, mem_append, not_or] at hfailure hcode ⊢
  by_cases hprivate : name ∈ privateNames
  · rw [if_pos hprivate, if_pos (.inl (.inl (.inl hprivate)))]
  rw [if_neg hprivate]
  by_cases herror : name ∈ errorNames
  · rw [if_pos ⟨herror, by simp⟩, if_pos (.inl (.inl (.inr herror)))]
  rw [if_neg (fun h => herror h.1)]
  by_cases hf : name = lit "failure"
  · subst hf
    rw [if_pos ⟨rfl, by simp⟩, if_neg (by tauto), if_neg hne.symm, if_pos rfl]
  rw [if_neg (fun h => hf h.1)]
  by_cases hc : name = lit "errorcode"
  · subst hc
    rw [if_pos ⟨rfl, by simp⟩, if_neg (by tauto), if_pos rfl]
  rw [if_neg (fun h => hc h.1)]
  by_cases hwait : name ∈ waitNames
  · rw [if_pos ⟨hwait, by simp⟩, if_pos (.inl (.inr hwait))]
  rw [if_neg (fun h => hwait h.1)]
  by_cases hdiagnostic : name ∈ diagnosticNames
  · rw [if_pos hdiagnostic, if_pos (.inr hdiagnostic)]
  have hshown : ¬ (((name ∈ privateNames ∨ name ∈ errorNames) ∨ name ∈ waitNames) ∨
      name ∈ diagnosticNames) := by tauto
  rw [if_neg hdiagnostic, if_neg hshown, if_neg hc, if_neg hf]
  simp only [Bool.false_eq_true, false_or]

lemma memberRule_true (key : GoString) (child : Value) : memberRule true key child =
    if normalizeKey key ∈ privateNames ++ diagnosticNames then .drop else .enter .business := by
  rw [memberRule]
  generalize normalizeKey key = name
  by_cases hprivate : name ∈ privateNames
  · simp [hprivate]
  · by_cases hdiagnostic : name ∈ diagnosticNames
    all_goals simp [hprivate, hdiagnostic]

/-- A value that is visited in a mode; only an object is visited as a failure. -/
def visit : Mode → Value → Rule
  | .failure, child => failureObject child
  | mode, _ => .enter mode

/-- **What becomes of a member.** -/
theorem rule_eq (mode : Mode) (key : GoString) (child : Value) : rule mode key child =
    if hidden mode key then .drop
    else if coded mode key then boundedCode child
    else visit (innerMode mode key) child := by
  have houtside : ∀ mode' : Mode, mode' ≠ .business → memberRule false key child =
      if normalizeKey key ∈ hiddenNames then .drop
      else if normalizeKey key = lit "errorcode" then boundedCode child
      else visit (innerMode mode' key) child := by
    intro mode' hmode'
    have hinner : innerMode mode' key = if normalizeKey key = lit "failure" then .failure
        else if normalizeKey key ∈ businessNames then .business else .diagnostic := by
      cases mode' with
      | business => exact absurd rfl hmode'
      | diagnostic | failure => rfl
    rw [memberRule_false, hinner]
    by_cases hf : normalizeKey key = lit "failure"
    · rw [if_pos hf, if_pos hf]
      rfl
    rw [if_neg hf, if_neg hf]
    by_cases hb : normalizeKey key ∈ businessNames
    · rw [if_pos hb]
      rfl
    · rw [if_neg hb]
      rfl
  cases mode with
  | diagnostic =>
    rw [rule, houtside .diagnostic (by decide)]
    simp only [hidden, coded, decide_eq_true_eq]
  | business =>
    rw [rule, memberRule_true]
    simp only [hidden, coded, decide_eq_true_eq, Bool.false_eq_true, if_false, innerMode, visit]
  | failure =>
    rw [rule, failureRule]
    simp only [hidden, coded, Bool.or_eq_true, decide_eq_true_eq]
    by_cases htext : lowerASCII key ∈ failureTexts
    · rw [if_pos htext, if_pos (.inl htext)]
    rw [if_neg htext]
    by_cases hcode : lowerASCII key = lit "code"
    · -- such a key is no name of the second pass
      have hname := normalizeKey_of_lower hcode (by decide +kernel)
      rw [if_pos hcode, if_neg (by rw [hname]; tauto), if_pos (.inl hcode)]
    · rw [if_neg hcode, houtside .failure (by decide)]
      simp only [htext, hcode, false_or]

/-! ### What is hidden does not matter -/

mutual

/-- Values that differ only in what is stored under hidden keys, for a value that is visited in
the mode. -/
def Same : Mode → Value → Value → Prop
  | mode, .array xs, .array ys => SameItems mode xs ys
  | mode, .object ms, .object ns => SameMembers mode ms ns
  | _, v, w => v = w

def SameItems : Mode → List Value → List Value → Prop
  | _, [], [] => True
  | mode, x :: xs, y :: ys => Same mode x y ∧ SameItems mode xs ys
  | _, _, _ => False

def SameMembers : Mode → List (GoString × Value) → List (GoString × Value) → Prop
  | _, [], [] => True
  | mode, (key, a) :: ms, (key', b) :: ns =>
    key = key' ∧ (hidden mode key = true ∨ Same (innerMode mode key) a b) ∧ SameMembers mode ms ns
  | _, _, _ => False

end

/-- Two members of one key. -/
def SameMember (mode : Mode) (m n : GoString × Value) : Prop :=
  m.1 = n.1 ∧ (hidden mode m.1 = true ∨ Same (innerMode mode m.1) m.2 n.2)

lemma sameItems_iff {xs ys : List Value} :
    SameItems mode xs ys ↔ List.Forall₂ (Same mode) xs ys := by
  induction xs generalizing ys with
  | nil => cases ys <;> simp [SameItems]
  | cons _ _ ih => cases ys <;> simp [SameItems, ih]

lemma sameMembers_iff : SameMembers mode ms ns ↔ List.Forall₂ (SameMember mode) ms ns := by
  induction ms generalizing ns with
  | nil => cases ns <;> simp [SameMembers]
  | cons _ _ ih =>
    cases ns with
    | nil => simp [SameMembers]
    | cons => simp [SameMembers, SameMember, ih, and_assoc]

variable {a b w : Value} {s : GoString}

lemma boundedCode_same (h : Same mode a b) : boundedCode a = boundedCode b := by
  cases a <;> cases b <;> simp_all [Same, boundedCode]

/-- One member, if the projection of its value is settled. -/
lemma stripMember_same {n : GoString × Value} (h : SameMember mode m n)
    (hvalue : ∀ inner, Same inner m.2 n.2 → strip inner m.2 = strip inner n.2) :
    stripMember mode m = stripMember mode n := by
  obtain ⟨key, a⟩ := m
  obtain ⟨_, b⟩ := n
  obtain ⟨rfl, h⟩ := h
  simp only [stripMember, rule_eq]
  by_cases hhidden : hidden mode key = true
  · simp [hhidden]
  have hsame := h.resolve_left hhidden
  simp only [if_neg hhidden]
  by_cases hcoded : coded mode key = true
  · simp only [if_pos hcoded, boundedCode_same hsame]
    -- a code is replaced or deleted, not visited
    cases b <;> rfl
  simp only [if_neg hcoded]
  have hstrip := hvalue _ hsame
  cases hinner : innerMode mode key with
  | failure =>
    cases a <;> cases b <;> simp_all [Same, visit, failureObject]
  | diagnostic | business =>
    rw [hinner] at hstrip
    simp only [visit, hstrip]

variable {α β γ : Type} {R : α → β → Prop} {xs : List α} {ys : List β}

lemma filterMap_eq_of_forall₂ {f : α → Option γ} {g : β → Option γ} (h : List.Forall₂ R xs ys)
    (heq : ∀ x ∈ xs, ∀ y, R x y → f x = g y) : xs.filterMap f = ys.filterMap g := by
  induction h with
  | nil => rfl
  | cons hhead _ ih =>
    rw [filterMap_cons, filterMap_cons, heq _ mem_cons_self _ hhead,
      ih (forall_mem_cons.mp heq).2]

lemma forall₂_of_mem {S : α → β → Prop}
    (h : List.Forall₂ R xs ys) (himp : ∀ x ∈ xs, ∀ y, R x y → S x y) : List.Forall₂ S xs ys := by
  induction h with
  | nil => exact .nil
  | cons hhead _ ih =>
    exact .cons (himp _ mem_cons_self _ hhead) (ih (forall_mem_cons.mp himp).2)

/-- **The projection does not depend on what is hidden.** -/
theorem strip_same : ∀ {mode : Mode}, Same mode v w → strip mode v = strip mode w := by
  induction v generalizing w with
  | null | bool | number | string => intro mode h; cases w <;> simp_all [Same]
  | array _ ih =>
    intro _ h
    cases w with
    | array =>
      simp only [strip, stripItems_eq, Value.array.injEq, ← filterMap_eq_map]
      exact filterMap_eq_of_forall₂ (sameItems_iff.mp h)
        fun v hv w hvw => congrArg some (ih v hv hvw)
    | _ => simp [Same] at h
  | object _ ih =>
    intro _ h
    cases w with
    | object =>
      simp only [strip, stripMembers_eq, Value.object.injEq]
      exact filterMap_eq_of_forall₂ (sameMembers_iff.mp h) fun m hm n hmn =>
        stripMember_same hmn fun inner hinner => ih m hm hinner
    | _ => simp [Same] at h

lemma insertMember_same (h : List.Forall₂ (SameMember mode) ms ns)
    (hab : hidden mode key = true ∨ Same (innerMode mode key) a b) :
    List.Forall₂ (SameMember mode) (insertMember key a ms) (insertMember key b ns) := by
  induction h with
  | nil => exact .cons ⟨rfl, hab⟩ .nil
  | @cons m n _ _ hhead htail ih =>
    obtain ⟨k, x⟩ := m
    obtain ⟨_, y⟩ := n
    obtain ⟨rfl, hxy⟩ := hhead
    rw [insertMember, insertMember]
    split_ifs
    · exact .cons ⟨rfl, hab⟩ htail
    · exact .cons ⟨rfl, hab⟩ (.cons ⟨rfl, hxy⟩ htail)
    · exact .cons ⟨rfl, hxy⟩ ih

/-- Of several members of one key the last ones count in both. -/
lemma genericMembers_same (h : List.Forall₂ (SameMember mode) ms ns)
    (hvalue : ∀ m ∈ ms, ∀ inner w, Same inner m.2 w → Same inner (generic m.2) (generic w))
    {written written' : List (GoString × Value)}
    (hwritten : List.Forall₂ (SameMember mode) written written') :
    List.Forall₂ (SameMember mode) (genericMembers written ms) (genericMembers written' ns) := by
  induction h generalizing written written' with
  | nil => exact hwritten
  | @cons m n _ _ hhead _ ih =>
    obtain ⟨k, a⟩ := m
    obtain ⟨_, b⟩ := n
    obtain ⟨rfl, hab⟩ := hhead
    rw [genericMembers]
    refine ih (forall_mem_cons.mp hvalue).2 (insertMember_same hwritten ?_)
    exact hab.imp_right (hvalue _ mem_cons_self _ _)

lemma generic_same : ∀ {mode : Mode}, Same mode v w → Same mode (generic v) (generic w) := by
  induction v generalizing w with
  | null | bool | number | string => intro mode h; cases w <;> simp_all [Same, generic]
  | array _ ih =>
    intro _ h
    cases w with
    | array =>
      simp only [generic, genericItems_eq, Same, sameItems_iff, forall₂_map_left_iff,
        forall₂_map_right_iff]
      exact forall₂_of_mem (sameItems_iff.mp h) fun v hv w hvw => ih v hv hvw
    | _ => simp [Same] at h
  | object _ ih =>
    intro _ h
    cases w with
    | object =>
      simp only [generic, Same, sameMembers_iff]
      exact genericMembers_same (sameMembers_iff.mp h) (fun m hm inner w hw => ih m hm hw) .nil
    | _ => simp [Same] at h

/-- **The payload does not depend on what is hidden.** -/
theorem publicDiagnosticPayload_same {t : GoString} (hs : parse s = some v)
    (ht : parse t = some w) (h : Same .diagnostic v w) :
    publicDiagnosticPayload s = publicDiagnosticPayload t := by
  rw [publicDiagnosticPayload, publicDiagnosticPayload, hs, ht]
  dsimp only
  rw [strip_same (generic_same h)]

/-! ### Once is enough -/

lemma publicFailureCode_again (code : GoString) :
    publicFailureCode (publicFailureCode code) = publicFailureCode code := by
  have hunknown : publicFailureCode publicUnknownFailureCode = publicUnknownFailureCode := by
    decide +kernel
  have hempty : publicFailureCode [] = [] := by decide
  rw [publicFailureCode.eq_def code]
  by_cases hblank : trimSpace code = []
  · rw [if_pos hblank, hempty]
  rw [if_neg hblank]
  by_cases hknown : trimSpace code ∈ publicCodes
  · rw [if_pos hknown, publicFailureCode, trimSpace_idem]
    rw [if_neg hblank, if_pos hknown]
  rw [if_neg hknown]
  by_cases hbudget : isSharedBudget (trimSpace code) = true
  · rw [if_pos hbudget, publicFailureCode, trimSpace_idem]
    rw [if_neg hblank, if_neg hknown, if_pos hbudget]
  · rw [if_neg hbudget, hunknown]

lemma isSharedBudget_spelled {code : GoString} (h : isSharedBudget code = true) :
    ∃ dimension ∈ budgetDimensions, code = lit "agent.shared_" ++ dimension ++ lit "_budget" := by
  simp only [isSharedBudget, Bool.and_eq_true, decide_eq_true_eq] at h
  obtain ⟨⟨hstart, hend⟩, hdimension⟩ := h
  obtain ⟨rest, rfl⟩ := isPrefixOf_iff_prefix.mp hstart
  rw [trimStart, if_pos hstart, drop_left, trimEnd] at hdimension
  by_cases hrest : (lit "_budget").isSuffixOf rest = true
  · rw [if_pos hrest] at hdimension
    obtain ⟨dimension, rfl⟩ := isSuffixOf_iff_suffix.mp hrest
    rw [length_append, Nat.add_sub_cancel, take_left] at hdimension
    exact ⟨dimension, hdimension, (append_assoc _ _ _).symm⟩
  rw [if_neg hrest] at hdimension
  -- a dimension by itself does not end like a budget
  have hnone : ∀ d ∈ budgetDimensions,
      (lit "_budget").isSuffixOf (lit "agent.shared_" ++ d) = false := by decide +kernel
  rw [hnone rest hdimension] at hend
  cases hend

lemma publicFailureCode_clean (code : GoString) :
    toValidUTF8 (publicFailureCode code) = publicFailureCode code := by
  have hcodes : ∀ c ∈ publicCodes, toValidUTF8 c = c := by decide +kernel
  have hbudgets : ∀ d ∈ budgetDimensions,
      toValidUTF8 (lit "agent.shared_" ++ d ++ lit "_budget") =
        lit "agent.shared_" ++ d ++ lit "_budget" := by decide +kernel
  have hunknown : toValidUTF8 publicUnknownFailureCode = publicUnknownFailureCode := by
    decide +kernel
  rw [publicFailureCode]
  split_ifs with hblank hknown hbudget
  · rfl
  · exact hcodes _ hknown
  · obtain ⟨d, hd, heq⟩ := isSharedBudget_spelled hbudget
    rw [heq]
    exact hbudgets d hd
  · exact hunknown

lemma rule_write {child : Value}
    (h : rule mode key child = .write v) : ∃ code, v = .string (publicFailureCode code) := by
  rw [rule_eq] at h
  split_ifs at h with hhidden hcoded
  · cases child with
    | string code => exact ⟨code, (Rule.write.inj h).symm⟩
    | _ => cases h
  cases hinner : innerMode mode key with
  | failure =>
    rw [hinner] at h
    cases child <;> cases h
  | diagnostic | business => rw [hinner] at h; cases h

/-- What is left of a member is a failure code or what is left of its value. -/
lemma stripMember_cases (h : stripMember mode m = some m') :
    m'.1 = m.1 ∧ ((∃ code, m'.2 = .string (publicFailureCode code)) ∨
      ∃ inner, m'.2 = strip inner m.2) := by
  refine ⟨stripMember_key h, ?_⟩
  rw [stripMember] at h
  cases hrule : rule mode m.1 m.2 with
  | drop =>
    rw [hrule] at h
    cases h
  | write =>
    rw [hrule] at h
    cases h
    exact .inl (rule_write hrule)
  | enter inner =>
    rw [hrule] at h
    cases h
    exact .inr ⟨inner, rfl⟩

lemma stripMember_again (h : stripMember mode m = some m')
    (hvalue : ∀ inner, strip inner (strip inner m.2) = strip inner m.2) :
    stripMember mode m' = some m' := by
  obtain ⟨key, a⟩ := m
  simp only [stripMember, rule_eq] at h ⊢
  by_cases hhidden : hidden mode key = true
  · simp [hhidden] at h
  simp only [if_neg hhidden] at h
  by_cases hcoded : coded mode key = true
  · simp only [if_pos hcoded] at h
    cases a with
    | string =>
      cases h
      simp only [if_neg hhidden, if_pos hcoded, boundedCode, publicFailureCode_again]
    | _ => cases h
  simp only [if_neg hcoded] at h
  cases hinner : innerMode mode key with
  | failure =>
    rw [hinner] at h
    cases a with
    | object =>
      cases h
      have hagain := hvalue .failure
      simp only [strip] at hagain
      simp only [if_neg hhidden, if_neg hcoded, hinner, visit, strip, failureObject, hagain]
    | _ => cases h
  | diagnostic | business =>
    rw [hinner] at h
    cases h
    simp only [if_neg hhidden, if_neg hcoded, hinner, visit, hvalue]

lemma filterMap_again {f : α → Option α}
    (h : ∀ x ∈ xs, ∀ y, f x = some y → f y = some y) : (xs.filterMap f).filterMap f = xs.filterMap f := by
  induction xs with
  | nil => rfl
  | cons x _ ih =>
    have htail := ih (forall_mem_cons.mp h).2
    cases hx : f x with
    | none => rw [filterMap_cons_none hx, htail]
    | some y =>
      rw [filterMap_cons_some hx, filterMap_cons_some (h x mem_cons_self y hx), htail]

/-- **A second pass finds nothing.** -/
theorem strip_strip (v : Value) : ∀ mode, strip mode (strip mode v) = strip mode v := by
  induction v with
  | null | bool | number | string => exact fun _ => rfl
  | array _ ih =>
    intro mode
    simp only [strip, stripItems_eq, map_map, Value.array.injEq]
    exact map_congr_left fun v hv => ih v hv mode
  | object _ ih =>
    intro _
    simp only [strip, stripMembers_eq, Value.object.injEq]
    exact filterMap_again fun m hm m' hm' => stripMember_again hm' (ih m hm)

lemma readable_strip : ∀ {n : ℕ}, Readable v n → ∀ mode, Readable (strip mode v) n := by
  induction v with
  | null | bool | number | string => exact fun h _ => h
  | array _ ih =>
    intro n h mode
    simp only [strip, stripItems_eq, readable_array, forall_mem_map] at h ⊢
    exact ⟨h.1, fun v hv => ih v hv (h.2 v hv) mode⟩
  | object _ ih =>
    intro n h _
    simp only [strip, stripMembers_eq, readable_object] at h ⊢
    refine ⟨h.1, fun m' hm' => ?_⟩
    obtain ⟨m, hm, hstrip⟩ := mem_filterMap.mp hm'
    obtain ⟨hkey, hvalue⟩ := h.2 m hm
    obtain ⟨hname, hleft⟩ := stripMember_cases hstrip
    rw [hname]
    refine ⟨hkey, ?_⟩
    rcases hleft with ⟨code, hcode⟩ | ⟨inner, hinner⟩
    · rw [hcode]
      exact ⟨trivial, congrArg _ (publicFailureCode_clean code)⟩
    · rw [hinner]
      exact ih m hm hvalue inner

lemma generic_strip_generic (v : Value) :
    ∀ mode, generic (strip mode (generic v)) = strip mode (generic v) := by
  induction v with
  | null | bool | number | string => exact fun _ => rfl
  | array _ ih =>
    intro mode
    simp only [generic, genericItems_eq, strip, stripItems_eq, map_map, Value.array.injEq]
    exact map_congr_left fun v hv => ih v hv mode
  | object ms ih =>
    intro mode
    have hascending : Ascending ([] ++ (genericMembers [] ms).filterMap (stripMember mode)) := by
      refine (genericMembers_ascending .nil).filterMap _ fun m n hmn m' hm' n' hn' => ?_
      rwa [stripMember_key hm', stripMember_key hn']
    simp only [generic, strip, stripMembers_eq, Value.object.injEq]
    rw [genericMembers_of_ascending hascending]
    conv_rhs => rw [← map_id ((genericMembers [] ms).filterMap (stripMember mode))]
    refine map_congr_left fun m' hm' => ?_
    obtain ⟨m, hm, hstrip⟩ := mem_filterMap.mp hm'
    refine Prod.ext rfl ?_
    show generic m'.2 = m'.2
    rcases (stripMember_cases hstrip).2 with ⟨_, hcode⟩ | ⟨inner, hinner⟩
    · rw [hcode]
      rfl
    obtain ⟨w, hw, hwm⟩ := mem_generic hm
    rw [hinner, ← hwm]
    exact ih _ hw inner

lemma parse_publicDiagnosticPayload (h : parse s = some v) :
    parse (publicDiagnosticPayload s) = some (strip .diagnostic (generic v)) := by
  have hread : Readable v 10000 := parse_legible h
  obtain ⟨hlegible, hclean⟩ := readable_strip hread.generic .diagnostic
  rw [publicDiagnosticPayload, h]
  rw [parse_render hlegible, hclean]

/-- **A second projection changes nothing.** -/
theorem publicDiagnosticPayload_again (s : GoString) :
    publicDiagnosticPayload (publicDiagnosticPayload s) = publicDiagnosticPayload s := by
  cases h : parse s with
  | none =>
    have hnone : publicDiagnosticPayload s = [] := by rw [publicDiagnosticPayload, h]
    rw [hnone]
    rfl
  | some =>
    rw [publicDiagnosticPayload.eq_def (publicDiagnosticPayload s), parse_publicDiagnosticPayload h]
    dsimp only
    rw [generic_strip_generic, strip_strip, publicDiagnosticPayload, h]

/-! ### What is kept -/

def isObject : Value → Bool
  | .object _ => true
  | _ => false

/-- The value of the member is visited. -/
def shown (mode : Mode) (key : GoString) (v : Value) : Bool :=
  !hidden mode key && !coded mode key && (decide (innerMode mode key ≠ .failure) || isObject v)

/-- Where the value at a path is visited; `none` if something on the way is not shown as it is. -/
def modeAt : Mode → Value → List Step → Option Mode
  | mode, _, [] => some mode
  | mode, v, .index i :: path => (child v (.index i)).bind fun w => modeAt mode w path
  | mode, v, .key k :: path =>
    (child v (.key k)).bind fun w => if shown mode k w then modeAt (innerMode mode k) w path else none

/-- In a map every member is treated by itself. -/
lemma member_strip (h : Ascending ms) (mode : Mode) (k : GoString) :
    member k (ms.filterMap (stripMember mode)) =
      (member k ms).bind fun v => (stripMember mode (k, v)).map Prod.snd := by
  induction ms with
  | nil => rfl
  | cons m ms ih =>
    obtain ⟨key, v⟩ := m
    obtain ⟨hhead, htail⟩ := pairwise_cons.mp h
    have hrest := ih htail
    by_cases hk : key = k
    · subst hk
      have hnone : member key ms = none :=
        member_eq_none fun m hm heq => List.lt_irrefl key (heq ▸ hhead m hm)
      rw [hnone, Option.bind_none] at hrest
      rw [member, hnone, if_pos rfl, Option.none_or, Option.bind_some]
      rcases hstrip : stripMember mode (key, v) with _ | m'
      · rw [filterMap_cons_none hstrip, hrest, Option.map_none]
      have hname := stripMember_key hstrip
      obtain ⟨key', _⟩ := m'
      obtain rfl : key' = key := hname
      rw [filterMap_cons_some hstrip, member, hrest, if_pos rfl]
      rfl
    · rw [member, if_neg hk, Option.or_none, ← hrest]
      rcases hstrip : stripMember mode (key, v) with _ | m'
      · rw [filterMap_cons_none hstrip]
      have hname := stripMember_key hstrip
      obtain ⟨key', _⟩ := m'
      obtain rfl : key' = key := hname
      rw [filterMap_cons_some hstrip, member, if_neg hk, Option.or_none]

lemma child_strip_key (v : Value) (mode : Mode) (k : GoString) :
    child (strip mode (generic v)) (.key k) =
      (child v (.key k)).bind fun w => (stripMember mode (k, generic w)).map Prod.snd := by
  have hchild : child (generic v) (.key k) = (child v (.key k)).map generic := child_generic v (.key k)
  cases v with
  | object ms =>
    rw [generic] at hchild ⊢
    rw [strip, stripMembers_eq]
    show member k _ = _
    rw [member_strip (genericMembers_ascending List.Pairwise.nil)]
    rw [show member k (genericMembers [] ms) = _ from hchild]
    cases child (.object ms) (.key k) <;> rfl
  | array | null | bool | number | string => rfl

lemma child_strip_index (v : Value) (mode : Mode) (i : ℕ) :
    child (strip mode (generic v)) (.index i) =
      (child v (.index i)).map fun w => strip mode (generic w) := by
  cases v with
  | array => simp [generic, strip, child, Function.comp_def]
  | object | null | bool | number | string => rfl

lemma stripMember_shown (h : shown mode k v = true) :
    stripMember mode (k, v) = some (k, strip (innerMode mode k) v) := by
  simp only [shown, Bool.and_eq_true, Bool.not_eq_true', Bool.or_eq_true, decide_eq_true_eq] at h
  obtain ⟨⟨hhidden, hcoded⟩, hobject⟩ := h
  simp only [stripMember, rule_eq, hhidden, hcoded, Bool.false_eq_true, if_false]
  cases hinner : innerMode mode k with
  | failure =>
    have hv := hobject.resolve_left (fun hne => hne hinner)
    cases v with
    | object => rfl
    | _ => cases hv
  | diagnostic | business => rfl

/-- **What is kept**: along a path on which everything is shown the projection has what the
payload has. -/
theorem follow_strip {m : Mode} {path : List Step} (h : modeAt mode v path = some m) :
    follow (strip mode (generic v)) path = (follow v path).map fun w => strip m (generic w) := by
  induction path generalizing v mode with
  | nil =>
    cases h
    rfl
  | cons s _ ih =>
    rw [follow, follow]
    cases s with
    | index =>
      rw [modeAt] at h
      obtain ⟨w, hw, h⟩ := Option.bind_eq_some_iff.mp h
      rw [child_strip_index, hw]
      exact ih h
    | key k =>
      rw [modeAt] at h
      obtain ⟨w, hw, h⟩ := Option.bind_eq_some_iff.mp h
      split at h
      · have hgeneric : shown mode k (generic w) = true := by
          cases w <;> assumption
        rw [child_strip_key, hw, Option.bind_some, stripMember_shown hgeneric]
        exact ih h
      · cases h

/-- What is shown of a failure code. -/
def shownCode : Value → Option Value
  | .string code => some (.string (publicFailureCode code))
  | _ => none

/-- A failure code is shown if it is a string, and bounded. -/
lemma child_strip_code (v : Value) (hhidden : hidden mode k = false)
    (hcoded : coded mode k = true) : child (strip mode (generic v)) (.key k) =
      (child v (.key k)).bind shownCode := by
  rw [child_strip_key]
  obtain _ | w := child v (.key k)
  · rfl
  simp only [Option.bind_some, stripMember, rule_eq, hhidden, hcoded, Bool.false_eq_true, if_false,
    if_true]
  cases w <;> rfl

end PublicHTTP
