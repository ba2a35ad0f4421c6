/-
Charges for provider-hosted tool calls
(`hosted_tool_receipts.go` and `settleModel` of `budget_middleware.go` of the harness).

A provider that runs tools itself reports facts about its calls in model responses.  The
charge for a call sits on the reservation of the model call whose response first reports
its end; a receipt of its own, under a hash of Run, tool key and call ID, is held from the
first fact on and settled with the end.  Both are written by one `SettleWithReceipts`.

Two identities whose strings differ only in stray bytes have one JSON text, and so one
receipt: the second call is never charged.  For all other identities every call is charged
once, whatever facts are repeated or come late.

* **`hosted_charged_once`** — the charges of a Run are exact.
-/
import AgentRuntime.BudgetCoordinator
import AgentRuntime.HarnessRecords
import AgentRuntime.LedgerTotals
import AgentRuntime.ModelResponses

namespace Harness

open GoString GoJson Model Budget FiniteMap List

/-! ### Receipts -/

def hostedReceiptPrefix : GoString := lit "hosted:"

/-- One call of a provider tool. -/
def hostedCharge : Usage
  | .toolCalls => 1
  | .hostedToolCalls => 1
  | _ => 0

/-- The JSON text that identifies a call of a Run, by tool key and call ID. -/
def hostedIdentity (runID : GoString) (i : GoString × GoString) : GoString :=
  render (.array [.string runID, .string i.1, .string i.2])

section Receipts

variable (sha256 : GoString → GoString)

def hostedID (runID : GoString) (i : GoString × GoString) : GoString :=
  hostedReceiptPrefix ++ hashInvocationBytes sha256 (hostedIdentity runID i)

/-- The receipt of a call; the output of the provider is not copied into the ledger. -/
def hostedReceipt (runID : GoString) (call : HostedToolCall) : Reservation where
  id := hostedID sha256 runID call.identity
  runID := runID
  requestHash := hashInvocationBytes sha256 (hostedIdentity runID call.identity)
  requested := hostedCharge
  status := if call.terminal then .settled else .held
  dispatched := true
  receipt := render (HostedToolCall.tree
    { id := call.id, toolKey := call.toolKey, status := call.status })

/-- The receipt of the identity is settled. -/
def isSettled (L : Ledger) (runID : GoString) (i : GoString × GoString) : Bool :=
  (L.reservations.lookup (hostedID sha256 runID i)).any fun r => r.status = .settled

/-- The loop of `hostedReceiptTransfers`: how many calls ended, and the receipts to write. -/
def transferCalls (L : Ledger) (runID : GoString) :
    List HostedToolCall → Except BudgetError (ℕ × List Reservation)
  | [] => .ok (0, [])
  | call :: calls =>
    if trimSpace call.id = [] then .error .invalidUsage
    else match transferCalls L runID calls with
      | .error e => .error e
      | .ok (completed, related) =>
        if isSettled sha256 L runID call.identity then .ok (completed, related)
        else .ok (if call.terminal then completed + 1 else completed,
          hostedReceipt sha256 runID call :: related)

def hostedReceiptTransfers (L : Ledger) (runID : GoString) (calls : List HostedToolCall) :
    Except BudgetError (ℕ × List Reservation) :=
  transferCalls sha256 L runID (collapseHostedToolCalls calls)

/-- How many calls of the Run are held. -/
def pendingHostedAllowance (L : Ledger) (runID : GoString) : ℤ :=
  ((L.reservations.entries.filter fun e => hostedReceiptPrefix.isPrefixOf e.1 &&
    e.2.runID = runID && e.2.status = .held).map fun e => e.2.requested .hostedToolCalls).sum

/-! ### Settling a model call -/

/-- `budget.ChargeModelCall` of an empty usage. -/
def chargeModelCall : Option TokenUsage → Except BudgetError Usage
  | none => .ok fun
    | .llmCalls => 1
    | _ => 0
  | some t =>
    if t.inputTokens < 0 || t.outputTokens < 0 || t.cacheReadTokens < 0 || t.cacheWriteTokens < 0 ||
        t.reasoningTokens < 0 || t.inputTokens > maxInt - t.outputTokens then
      .error .invalidUsage
    else .ok fun
      | .llmCalls => 1
      | .inputTokens => t.inputTokens
      | .outputTokens => t.outputTokens
      | .totalTokens => t.inputTokens + t.outputTokens
      | .cacheReadTokens => t.cacheReadTokens
      | .cacheWriteTokens => t.cacheWriteTokens
      | .reasoningTokens => t.reasoningTokens
      | _ => 0

def hasTokenLimits (limits : Limits) : Bool :=
  0 < limits .inputTokens || 0 < limits .outputTokens || 0 < limits .totalTokens

def hasRunTokenLimits (L : Ledger) (runID : GoString) : Bool :=
  (L.scopesOf runID).any fun scope => hasTokenLimits (L.limitsOf scope)

/-- The error of a model call: a rejection with the code that is kept, or anything else. -/
inductive CallError where
  | rejected (code : GoString)
  | other
  deriving DecidableEq, Repr

def CallError.isRejected : CallError → Bool
  | rejected _ => true
  | other => false

/-- `encodeBudgetModelReceipt`; `none` if the response holds raw messages that are not JSON. -/
def encodeBudgetModelReceipt (response : Response) (callErr : Option CallError) : Option GoString :=
  let code : CallError → Value
    | .rejected code => struct [(lit "code", omitEmpty code)]
    | .other => struct [(lit "code", none)]
  if response.encodable then
    some (render (struct (response.fields ++ [(lit "rejected", callErr.map code)])))
  else none

/-- The ledger after a settlement, and whether the facts of the response were written. -/
structure Settlement where
  ledger : Ledger
  settled : Bool

/-- The reservation gives up its slot; it stays as it is if it is not there. -/
def suspended (L : Ledger) (id : GoString) : Ledger :=
  (L.changeReservation id Ledger.suspend).toOption.getD L

/-- `SettleWithReceipts` with its check of the arguments. -/
def settleReceipts (L : Ledger) (id : GoString) (usage : Usage) (raw : GoString)
    (related : List Reservation) : Settlement :=
  if (Change.settleWithReceipts id usage raw related).check.isSome then ⟨L, false⟩
  else match L.settleWithReceipts id usage raw related with
    | .error _ => ⟨L, false⟩
    | .ok L' => ⟨L', (L.reservations.lookup id).any fun r => r.status = .held⟩

/-- What a rejected response leaves. -/
def rejectedResponse (response : Response) : Response :=
  { responseID := response.responseID, usage := response.usage }

/-- The usage that a model call is settled with. -/
def settledUsage (usage : Usage) (hosted : ℕ) : Usage :=
  fun m => if m = .hostedToolCalls ∨ m = .toolCalls then (hosted : ℤ) else usage m

/-- `settleModel`.  The first ledger is the one that the middleware holds from `Reserve`, the
second one that of the store. -/
def settleModel (seen L : Ledger) (reservation : Reservation) (response : Response)
    (callErr : Option CallError) : Settlement :=
  let known := callErr.any CallError.isRejected && response.usage.isSome
  if (callErr.isSome && !known) ||
      (hasRunTokenLimits seen reservation.runID && response.usage.isNone) then
    ⟨suspended L reservation.id, false⟩
  else match chargeModelCall response.usage with
    | .error _ => ⟨L, false⟩
    | .ok usage =>
      match hostedReceiptTransfers sha256 seen reservation.runID response.hostedToolCalls with
      | .error _ => ⟨suspended L reservation.id, false⟩
      | .ok (completed, related) =>
        match encodeBudgetModelReceipt (if known then rejectedResponse response else response)
          callErr with
        | none => ⟨L, false⟩
        | some raw =>
          settleReceipts L reservation.id (settledUsage usage completed) raw related

end Receipts

/-! ### Runs -/

section Runs

variable (sha256 : GoString → GoString) (runID : GoString) {shown : List HostedToolCall}

/-- What the settled reservations of the Run have been charged for provider tools. -/
def hostedWeight (r : Reservation) : ℤ :=
  if r.status = .settled ∧ r.runID = runID then r.usage .hostedToolCalls else 0

def settledHosted (L : Ledger) : ℤ := total (hostedWeight runID) L.reservations

/-- Nothing about provider tools of the Run is in the ledger. -/
structure Fresh (L : Ledger) : Prop where
  receipts : ∀ i, L.reservations.lookup (hostedID sha256 runID i) = none
  own : ∀ id r, hostedReceiptPrefix <+: id → L.reservations.lookup id = some r → r.runID ≠ runID
  settled : settledHosted runID L = 0

/-- Whatever else happens to the ledger, the provider tools of the Run are left alone. -/
structure Undisturbed (L L' : Ledger) : Prop where
  receipts : ∀ i, L'.reservations.lookup (hostedID sha256 runID i) =
    L.reservations.lookup (hostedID sha256 runID i)
  own : ∀ id r, hostedReceiptPrefix <+: id → L'.reservations.lookup id = some r →
    r.runID = runID → L.reservations.lookup id = some r
  settled : settledHosted runID L' = settledHosted runID L

/-- The ledger that the middleware holds from `Reserve` shows the provider tools of the Run as the
store has them: no response of the Run was settled in between. -/
def UpToDate (seen L : Ledger) : Prop :=
  ∀ i, seen.reservations.lookup (hostedID sha256 runID i) =
    L.reservations.lookup (hostedID sha256 runID i)

/-- The responses of a Run are settled one after another, each with an up-to-date ledger.  The first
list holds the facts that were settled, the second one all that were shown. -/
inductive Settling : Ledger → List HostedToolCall → List HostedToolCall → Prop
  | start {L : Ledger} (hfresh : Fresh sha256 runID L) : Settling L [] []
  | other {L L' : Ledger} {facts shown : List HostedToolCall} (h : Settling L facts shown)
      (hframe : Undisturbed sha256 runID L L') : Settling L' facts shown
  | settle {L seen : Ledger} {facts shown : List HostedToolCall} (h : Settling L facts shown)
      (reservation : Reservation) (response : Response) (callErr : Option CallError)
      (hseen : UpToDate sha256 runID seen L)
      (hrun : reservation.runID = runID) (hid : ¬ hostedReceiptPrefix <+: reservation.id) :
      Settling (settleModel sha256 seen L reservation response callErr).ledger
        (if (settleModel sha256 seen L reservation response callErr).settled then
          response.hostedToolCalls ++ facts else facts)
        (response.hostedToolCalls ++ shown)

/-- A settlement that takes effect. -/
lemma Settling.settled {sha256 : GoString → GoString} {runID : GoString} {L : Ledger}
    {facts : List HostedToolCall} (h : Settling sha256 runID L facts shown)
    (reservation : Reservation) (response : Response) (hrun : reservation.runID = runID)
    (hid : ¬ hostedReceiptPrefix <+: reservation.id)
    (hsettled : (settleModel sha256 L L reservation response none).settled = true) :
    Settling sha256 runID (settleModel sha256 L L reservation response none).ledger
      (response.hostedToolCalls ++ facts) (response.hostedToolCalls ++ shown) := by
  have hnext := h.settle reservation response none (fun _ => rfl) hrun hid
  rwa [if_pos hsettled] at hnext

/-- The calls that facts are about. -/
def seenCalls (facts : List HostedToolCall) : Finset (GoString × GoString) :=
  (facts.map HostedToolCall.identity).toFinset

/-- The calls that ended. -/
def endedCalls (facts : List HostedToolCall) : Finset (GoString × GoString) :=
  ((facts.filter HostedToolCall.terminal).map HostedToolCall.identity).toFinset

/-- The ledger agrees with the facts. -/
structure Exact (L : Ledger) (facts : List HostedToolCall) : Prop where
  /-- The Run was charged for every call that ended, once. -/
  charged : settledHosted runID L = (endedCalls facts).card
  /-- A call has one receipt, which is settled if the call ended and held if it did not. -/
  receipts : ∀ i ∈ seenCalls facts, ∃ r,
    L.reservations.lookup (hostedID sha256 runID i) = some r ∧ r.runID = runID ∧
      r.requested = hostedCharge ∧ r.status = if i ∈ endedCalls facts then .settled else .held
  /-- As many calls are held as have not ended. -/
  pending : pendingHostedAllowance L runID = (seenCalls facts \ endedCalls facts).card

/-- All keys and IDs are valid UTF-8. -/
def ValidIdentities (calls : List HostedToolCall) : Prop :=
  ∀ c ∈ calls, validUTF8 c.toolKey = true ∧ validUTF8 c.id = true

/-- No two of the identities are a collision. -/
def CollisionFree (calls : List HostedToolCall) : Prop :=
  ∀ c ∈ calls, ∀ d ∈ calls, sha256 (hostedIdentity runID c.identity) =
    sha256 (hostedIdentity runID d.identity) →
      hostedIdentity runID c.identity = hostedIdentity runID d.identity

variable {sha256 runID} {i j : GoString × GoString} {calls : List HostedToolCall}
  {seen : List GoString} {related : List Reservation} {m m' : Map GoString Reservation}
  {owner raw : GoString} {usage : Usage}

/-! ### Identities -/

/-- The text of an identity determines it, up to stray bytes. -/
lemma hostedIdentity_inj (h : hostedIdentity runID i = hostedIdentity runID j) :
    toValidUTF8 i.1 = toValidUTF8 j.1 ∧ toValidUTF8 i.2 = toValidUTF8 j.2 := by
  have hlegible : ∀ k : GoString × GoString,
      Legible (.array [.string runID, .string k.1, .string k.2]) 10000 :=
    fun k => ⟨by decide, trivial, trivial, trivial, trivial⟩
  have hparse := parse_render (hlegible i)
  rw [show render (.array [.string runID, .string i.1, .string i.2]) =
      render (.array [.string runID, .string j.1, .string j.2]) from h,
    parse_render (hlegible j)] at hparse
  simp only [clean, cleanItems, Option.some.injEq, Value.array.injEq, cons.injEq,
    Value.string.injEq, and_true] at hparse
  exact ⟨hparse.2.1.symm, hparse.2.2.symm⟩

/-- Different calls have different receipts. -/
lemma hostedID_inj (hvalid : ValidIdentities calls) (hfree : CollisionFree sha256 runID calls)
    (hi : i ∈ seenCalls calls) (hj : j ∈ seenCalls calls)
    (h : hostedID sha256 runID i = hostedID sha256 runID j) : i = j := by
  obtain ⟨c, hc, rfl⟩ := mem_map.mp (mem_toFinset.mp hi)
  obtain ⟨d, hd, rfl⟩ := mem_map.mp (mem_toFinset.mp hj)
  have hhash := hexEncode_inj (append_cancel_left h)
  obtain ⟨hkey, hcall⟩ := hostedIdentity_inj (hfree c hc d hd hhash)
  obtain ⟨hc1, hc2⟩ := hvalid c hc
  obtain ⟨hd1, hd2⟩ := hvalid d hd
  simp only [HostedToolCall.identity, toValidUTF8_of_valid, hc1, hc2, hd1, hd2] at hkey hcall
  simp [HostedToolCall.identity, hkey, hcall]

/-! ### What a settlement writes -/

/-- A call whose receipt is not settled. -/
def isOpen (sha256 : GoString → GoString) (L : Ledger) (runID : GoString) (c : HostedToolCall) :
    Bool := !isSettled sha256 L runID c.identity

lemma transferCalls_ok {L : Ledger} : ∀ {calls : List HostedToolCall} {completed : ℕ}
    {related : List Reservation}, transferCalls sha256 L runID calls = .ok (completed, related) →
      (∀ c ∈ calls, trimSpace c.id ≠ []) ∧
        related = (calls.filter (isOpen sha256 L runID)).map (hostedReceipt sha256 runID) ∧
        completed = ((calls.filter (isOpen sha256 L runID)).filter HostedToolCall.terminal).length
  | [], completed, related, h => by
    cases h
    exact ⟨by simp, rfl, rfl⟩
  | call :: calls, completed, related, h => by
    rw [transferCalls] at h
    split at h
    · cases h
    rename_i hid
    split at h
    · cases h
    rename_i hrest
    obtain ⟨hids, rfl, rfl⟩ := transferCalls_ok hrest
    refine ⟨forall_mem_cons.mpr ⟨hid, hids⟩, ?_⟩
    split at h
    · rename_i hsettled
      cases h
      simp [isOpen, hsettled]
    rename_i hopen
    cases h
    have hopen' : isOpen sha256 L runID call = true := by simpa [isOpen] using hopen
    rw [filter_cons_of_pos hopen']
    refine ⟨rfl, ?_⟩
    cases hterminal : call.terminal with
    | true | false => simp [hterminal]

lemma transferred_unseen (h : Transferred owner seen related m m') :
    ∀ r ∈ related, r.id ∉ seen := by
  induction h with
  | done => exact fun r hr => nomatch hr
  | skip hrelated _ _ _ ih | write hrelated _ _ ih =>
    exact forall_mem_cons.mpr
      ⟨hrelated.unseen, fun r hr hmem => ih r hr (mem_cons_of_mem _ hmem)⟩

/-- Receipts are written under their IDs, and nothing else is. -/
lemma transferred_lookup (h : Transferred owner seen related m m') :
    (∀ id, id ∉ related.map Reservation.id → m'.lookup id = m.lookup id) ∧
      ∀ r ∈ related, (∀ old, m.lookup r.id = some old → old.status ≠ .settled) →
        m'.lookup r.id = some r := by
  induction h with
  | done => exact ⟨fun _ _ => rfl, fun r hr => nomatch hr⟩
  | skip _ hold hsettled _ ih =>
    refine ⟨fun id hid => ih.1 id fun hmem => hid (mem_cons_of_mem _ hmem), ?_⟩
    refine forall_mem_cons.mpr ⟨fun hopen => absurd hsettled (hopen _ hold), ih.2⟩
  | @write _ _ r _ m' _ _ hrest ih =>
    have hkept : m'.lookup r.id = some r := by
      rw [hrest.lookup_seen mem_cons_self, AList.lookup_insert]
    refine ⟨fun id hid => ?_, forall_mem_cons.mpr ⟨fun _ => hkept, fun s hs hopen => ?_⟩⟩
    · rw [map_cons, mem_cons, not_or] at hid
      rw [ih.1 id hid.2, lookup_insert_of_ne hid.1]
    have hne : s.id ≠ r.id := by
      intro heq
      exact transferred_unseen hrest s hs (heq ▸ mem_cons_self)
    refine ih.2 s hs fun old hlookup => ?_
    rw [lookup_insert_of_ne hne] at hlookup
    exact hopen old hlookup

lemma transferred_total (runID : GoString) (h : Transferred owner seen related m m') :
    total (hostedWeight runID) m' = total (hostedWeight runID) m := by
  induction h with
  | done => rfl
  | skip _ _ _ _ ih => exact ih
  | @write _ _ r m _ hrelated hold _ ih =>
    have hnew : hostedWeight runID r = 0 := by simp [hostedWeight, hrelated.usage]
    rw [ih, total_insert, hnew, zero_add]
    cases hlookup : m.lookup r.id with
    | none => rw [erase_of_notMem (AList.lookup_eq_none.mp hlookup)]
    | some old =>
      have hzero : hostedWeight runID old = 0 := by simp [hostedWeight, (hold old hlookup).1]
      rw [total_of_lookup hlookup, hzero, zero_add]

/-- A settlement that took effect. -/
lemma settleReceipts_settled {L : Ledger} {id : GoString}
    (h : (settleReceipts L id usage raw related).settled = true) :
    ∃ current m, L.reservations.lookup id = some current ∧ current.status = .held ∧
      Transferred current.runID [id] related L.reservations m ∧
      (settleReceipts L id usage raw related).ledger = { L with
        reservations := m.insert id { current with
          status := .settled, active := false, usage := usage, receipt := raw } } := by
  rw [settleReceipts] at h ⊢
  split at h
  · cases h
  rename_i hcheck
  rw [if_neg hcheck]
  split at h
  · cases h
  rename_i hL'
  obtain ⟨current, hcurrent, hheld⟩ : ∃ current, L.reservations.lookup id = some current ∧
      current.status = .held := by
    cases hlookup : L.reservations.lookup id with
    | none => simp [hlookup] at h
    | some current => exact ⟨current, rfl, by simpa [hlookup] using h⟩
  rw [Ledger.settleWithReceipts, hcurrent] at hL'
  simp only [hheld] at hL'
  split at hL'
  · cases hL'
  obtain ⟨m, hm, heq⟩ := bind_eq_ok hL'
  exact ⟨current, m, hcurrent, hheld, transferred_of_ok hm, (Except.ok.inj heq).symm⟩

lemma settleReceipts_refused {L : Ledger} {id : GoString}
    (h : (settleReceipts L id usage raw related).settled = false) :
    (settleReceipts L id usage raw related).ledger = L := by
  rw [settleReceipts] at h ⊢
  split at h
  · rename_i hcheck
    rw [if_pos hcheck]
  rename_i hcheck
  rw [if_neg hcheck]
  split at h
  · rfl
  rename_i hL'
  rw [Ledger.settleWithReceipts] at hL'
  split at hL'
  · cases hL'
  rename_i hcurrent
  rw [hcurrent] at h
  split at hL'
  · cases hL'
  split at hL'
  · split at hL'
    · cases hL'
    · exact (Except.ok.inj hL').symm
  · rename_i hheld
    simp [hheld] at h
  · cases hL'

/-! ### The ledger agrees with the facts -/

/-- The ledger agrees with the facts; `U` holds all calls that will ever be shown. -/
structure Agrees (sha256 : GoString → GoString) (runID : GoString) (U : Finset (GoString × GoString))
    (L : Ledger) (facts : List HostedToolCall) : Prop where
  known : seenCalls facts ⊆ U
  charged : settledHosted runID L = (endedCalls facts).card
  receipts : ∀ i ∈ seenCalls facts, ∃ r,
    L.reservations.lookup (hostedID sha256 runID i) = some r ∧ r.runID = runID ∧
      r.requested = hostedCharge ∧ r.status = if i ∈ endedCalls facts then .settled else .held
  unseen : ∀ i ∈ U, i ∉ seenCalls facts →
    L.reservations.lookup (hostedID sha256 runID i) = none
  own : ∀ id r, hostedReceiptPrefix <+: id → L.reservations.lookup id = some r →
    r.runID = runID → ∃ i ∈ seenCalls facts, id = hostedID sha256 runID i

variable {U : Finset (GoString × GoString)} {L L' seen : Ledger} {facts : List HostedToolCall}
  {reservation : Reservation} {response : Response} {callErr : Option CallError}

-- the receipts of different calls have different keys
variable
  (hinj : ∀ i ∈ U, ∀ j ∈ U, hostedID sha256 runID i = hostedID sha256 runID j → i = j)

lemma Agrees.undisturbed (h : Agrees sha256 runID U L facts)
    (hframe : Undisturbed sha256 runID L L') : Agrees sha256 runID U L' facts where
  known := h.known
  charged := hframe.settled.trans h.charged
  receipts i hi := by
    rw [hframe.receipts]
    exact h.receipts i hi
  unseen i hi hnot := by
    rw [hframe.receipts]
    exact h.unseen i hi hnot
  own id r hid hlookup hrun := h.own id r hid (hframe.own id r hid hlookup hrun) hrun

lemma Fresh.agrees (h : Fresh sha256 runID L) (U : Finset (GoString × GoString)) :
    Agrees sha256 runID U L [] where
  known := by simp [seenCalls]
  charged := by simpa [endedCalls] using h.settled
  receipts i hi := by simp [seenCalls] at hi
  unseen i _ _ := h.receipts i
  own id r hid hlookup hrun := absurd hrun (h.own id r hid hlookup)

lemma hostedID_starts (i : GoString × GoString) :
    hostedReceiptPrefix <+: hostedID sha256 runID i := prefix_append _ _

lemma undisturbed_refl (L : Ledger) : Undisturbed sha256 runID L L :=
  ⟨fun _ => rfl, fun _ _ _ hlookup _ => hlookup, rfl⟩

/-- A reservation that is no receipt of a provider tool may be written with the same weight. -/
lemma withReservation_undisturbed {id : GoString} {r : Reservation}
    (hid : ¬ hostedReceiptPrefix <+: id)
    (hweight : hostedWeight runID r = (L.reservations.lookup id).elim 0 (hostedWeight runID)) :
    Undisturbed sha256 runID L (L.withReservation id r) := by
  have hother : ∀ id', hostedReceiptPrefix <+: id' →
      (L.reservations.insert id r).lookup id' = L.reservations.lookup id' :=
    fun id' hid' => lookup_insert_of_ne fun heq => hid (heq ▸ hid')
  refine ⟨fun i => hother _ (hostedID_starts i), fun id' r' hid' hr' _ => ?_, ?_⟩
  · rwa [← hother id' hid']
  show total (hostedWeight runID) (L.reservations.insert id r) = settledHosted runID L
  rw [total_insert, hweight, settledHosted]
  cases hlookup : L.reservations.lookup id with
  | none => rw [erase_of_notMem (AList.lookup_eq_none.mp hlookup), Option.elim_none, zero_add]
  | some => rw [total_of_lookup hlookup, Option.elim_some]

lemma suspended_undisturbed {id : GoString} (hid : ¬ hostedReceiptPrefix <+: id) :
    Undisturbed sha256 runID L (suspended L id) := by
  rw [suspended, Ledger.changeReservation]
  rcases hlookup : L.reservations.lookup id with _ | r
  · exact undisturbed_refl L
  refine withReservation_undisturbed hid ?_
  rw [hlookup]
  rfl

lemma isSettled_iff (h : Agrees sha256 runID U L facts) (hi : i ∈ U) :
    isSettled sha256 L runID i = true ↔ i ∈ endedCalls facts := by
  rw [isSettled]
  by_cases hseen : i ∈ seenCalls facts
  · obtain ⟨r, hlookup, -, -, hstatus⟩ := h.receipts i hseen
    rw [hlookup, Option.any_some, hstatus]
    split
    · rename_i hended
      simp [hended]
    · rename_i hopen
      simp [hopen]
  · rw [h.unseen i hi hseen]
    refine ⟨fun hfalse => (nomatch hfalse), fun hended => absurd ?_ hseen⟩
    obtain ⟨c, hc, rfl⟩ := mem_map.mp (mem_toFinset.mp hended)
    exact mem_toFinset.mpr (mem_identities (mem_of_mem_filter hc))

lemma mem_seenCalls : i ∈ seenCalls calls ↔ ∃ c ∈ calls, c.identity = i := by
  simp [seenCalls]

lemma mem_endedCalls :
    i ∈ endedCalls calls ↔ ∃ c ∈ calls, c.identity = i ∧ c.terminal = true := by
  simp only [endedCalls, mem_toFinset, mem_map, mem_filter]
  constructor
  · rintro ⟨c, ⟨hc, hterminal⟩, hi⟩
    exact ⟨c, hc, hi, hterminal⟩
  · rintro ⟨c, hc, hi, hterminal⟩
    exact ⟨c, ⟨hc, hterminal⟩, hi⟩

lemma seenCalls_append (calls facts : List HostedToolCall) :
    seenCalls (calls ++ facts) = seenCalls calls ∪ seenCalls facts := by
  simp [seenCalls]

lemma endedCalls_append (calls facts : List HostedToolCall) :
    endedCalls (calls ++ facts) = endedCalls calls ∪ endedCalls facts := by
  simp [endedCalls]

lemma endedCalls_subset (calls : List HostedToolCall) : endedCalls calls ⊆ seenCalls calls := by
  intro i hi
  obtain ⟨c, hc, hci, -⟩ := mem_endedCalls.mp hi
  exact mem_seenCalls.mpr ⟨c, hc, hci⟩

/-- The calls of a response that have an ID, each once. -/
structure Response.Calls (calls result : List HostedToolCall) : Prop where
  distinct : (result.map HostedToolCall.identity).Nodup
  seen : ∀ i, (∃ c ∈ result, c.identity = i) ↔ i ∈ seenCalls calls
  ended : ∀ c ∈ result, c.terminal = true ↔ c.identity ∈ endedCalls calls

lemma calls_collapse (hids : ∀ c ∈ collapseHostedToolCalls calls, trimSpace c.id ≠ []) :
    Response.Calls calls (collapseHostedToolCalls calls) := by
  have hobserved := observed_collapse calls
  have hne : ∀ c ∈ collapseHostedToolCalls calls, c.id ≠ [] := by
    intro c hc hnil
    refine hids c hc ?_
    rw [hnil]
    decide
  refine ⟨?_, fun i => ?_, fun c hc => ?_⟩
  · have hall : (collapseHostedToolCalls calls).filter (fun c => c.id ≠ []) =
        collapseHostedToolCalls calls := by
      refine filter_eq_self.mpr fun c hc => ?_
      simpa using hne c hc
    rw [← hall]
    exact hobserved.distinct
  · have hi := hobserved.identities i
    rw [mem_seenCalls]
    simpa using hi
  · rw [hobserved.terminal c hc (hne c hc), mem_endedCalls]

/-- How many calls a settlement charges: those that end with it. -/
lemma completed_eq (h : Agrees sha256 runID U L facts) {result : List HostedToolCall}
    (hcalls : Response.Calls calls result) (hU : seenCalls calls ⊆ U) :
    ((result.filter (isOpen sha256 L runID)).filter HostedToolCall.terminal).length =
      (endedCalls calls \ endedCalls facts).card := by
  have hnodup : (((result.filter (isOpen sha256 L runID)).filter HostedToolCall.terminal).map
      HostedToolCall.identity).Nodup := by
    refine hcalls.distinct.sublist (List.Sublist.map _ ?_)
    exact filter_sublist.trans filter_sublist
  have hset : (((result.filter (isOpen sha256 L runID)).filter HostedToolCall.terminal).map
      HostedToolCall.identity).toFinset = endedCalls calls \ endedCalls facts := by
    ext i
    simp only [mem_toFinset, mem_map, mem_filter, Finset.mem_sdiff]
    constructor
    · rintro ⟨c, ⟨⟨hc, hopen⟩, hterminal⟩, rfl⟩
      have hmem := hU ((hcalls.seen _).mp ⟨c, hc, rfl⟩)
      refine ⟨(hcalls.ended c hc).mp hterminal, fun hended => ?_⟩
      rw [isOpen, (isSettled_iff h hmem).mpr hended] at hopen
      cases hopen
    rintro ⟨hended, _⟩
    obtain ⟨f, hf, hfi, -⟩ := mem_endedCalls.mp hended
    have hseen := mem_seenCalls.mpr ⟨f, hf, hfi⟩
    obtain ⟨c, hc, rfl⟩ := (hcalls.seen i).mpr hseen
    refine ⟨c, ⟨⟨hc, ?_⟩, (hcalls.ended c hc).mpr hended⟩, rfl⟩
    rwa [isOpen, Bool.not_eq_true', ← Bool.not_eq_true, isSettled_iff h (hU hseen)]
  rw [← hset, toFinset_card_of_nodup hnodup, length_map]

/-- The calls of a response whose receipts are written. -/
def openCalls (sha256 : GoString → GoString) (runID : GoString) (L : Ledger)
    (result : List HostedToolCall) : List HostedToolCall :=
  result.filter (isOpen sha256 L runID)

/-- How many of them end. -/
def endingCalls (sha256 : GoString → GoString) (runID : GoString) (L : Ledger)
    (result : List HostedToolCall) : ℕ :=
  ((openCalls sha256 runID L result).filter HostedToolCall.terminal).length

section Settle

variable {result : List HostedToolCall} {id : GoString} {current : Reservation}
  (h : Agrees sha256 runID U L facts) (hcalls : Response.Calls calls result) (hU : seenCalls calls ⊆ U)
  (hcurrent : L.reservations.lookup id = some current) (hheld : current.status = .held)
  (htransfer : Transferred current.runID [id]
    ((openCalls sha256 runID L result).map (hostedReceipt sha256 runID)) L.reservations m)

include h hcalls hU hcurrent hheld htransfer in
/-- The model reservation bears the charge for all calls that end with it. -/
lemma settled_charged :
    total (hostedWeight runID) (m.insert id { current with
        status := .settled, active := false,
        usage := settledUsage usage (endingCalls sha256 runID L result), receipt := raw }) =
      (endedCalls (calls ++ facts)).card := by
  have hm : m.lookup id = some current := by
    rw [htransfer.lookup_seen mem_cons_self, hcurrent]
  have hzero : hostedWeight runID current = 0 := by simp [hostedWeight, hheld]
  have hrest : total (hostedWeight runID) (m.erase id) = settledHosted runID L := by
    have htotal := transferred_total runID htransfer
    rwa [total_of_lookup hm, hzero, zero_add] at htotal
  have hweight : hostedWeight runID { current with
      status := .settled, active := false,
      usage := settledUsage usage (endingCalls sha256 runID L result), receipt := raw } =
        endingCalls sha256 runID L result := by
    by_cases hrun : current.runID = runID
    · simp [hostedWeight, hrun, settledUsage]
    -- receipts of another Run are refused, so that there are none
    have hnone : openCalls sha256 runID L result = [] := by
      rcases hopen : openCalls sha256 runID L result with _ | ⟨c, _⟩
      · rfl
      rw [hopen, map_cons] at htransfer
      have hrelated : Related current.runID [id] (hostedReceipt sha256 runID c) := by
        cases htransfer with
        | skip hrelated | write hrelated => exact hrelated
      exact absurd hrelated.run.symm hrun
    simp [hostedWeight, hrun, endingCalls, hnone]
  rw [total_insert, hweight, hrest, h.charged, endedCalls_append,
    show endingCalls sha256 runID L result = _ from completed_eq h hcalls hU]
  exact_mod_cast Finset.card_sdiff_add_card (endedCalls calls) (endedCalls facts)

include hinj hcalls hU htransfer in
/-- What the receipts are after a settlement. -/
lemma settled_lookup :
    (∀ c ∈ openCalls sha256 runID L result,
        m.lookup (hostedID sha256 runID c.identity) = some (hostedReceipt sha256 runID c)) ∧
      (∀ i ∈ U, (∀ c ∈ openCalls sha256 runID L result, c.identity ≠ i) →
        m.lookup (hostedID sha256 runID i) = L.reservations.lookup (hostedID sha256 runID i)) ∧
      ∀ id', (∀ c ∈ openCalls sha256 runID L result, hostedID sha256 runID c.identity ≠ id') →
        m.lookup id' = L.reservations.lookup id' := by
  obtain ⟨hother, hwritten⟩ := transferred_lookup htransfer
  have hrest : ∀ id', (∀ c ∈ openCalls sha256 runID L result,
      hostedID sha256 runID c.identity ≠ id') → m.lookup id' = L.reservations.lookup id' := by
    intro id' hnot
    refine hother id' fun hin => ?_
    obtain ⟨r, hr, rfl⟩ := mem_map.mp hin
    obtain ⟨c, hc, rfl⟩ := mem_map.mp hr
    exact hnot c hc rfl
  refine ⟨fun c hc => ?_, fun i hi hnot => hrest _ fun c hc heq => hnot c hc ?_, hrest⟩
  · obtain ⟨_, hopen⟩ := mem_filter.mp hc
    refine hwritten (hostedReceipt sha256 runID c) (mem_map_of_mem hc) fun old hold hsettled => ?_
    have hyes : isSettled sha256 L runID c.identity = true := by
      rw [isSettled, show L.reservations.lookup (hostedID sha256 runID c.identity) = some old from
        hold, Option.any_some, hsettled]
      rfl
    rw [isOpen, hyes] at hopen
    cases hopen
  · have hmem := (mem_filter.mp hc).1
    exact hinj _ (hU ((hcalls.seen _).mp ⟨c, hmem, rfl⟩)) i hi heq

include h hcalls hU in
/-- A call of the response is open unless it ended before. -/
lemma mem_openCalls {c : HostedToolCall} :
    c ∈ openCalls sha256 runID L result ↔ c ∈ result ∧ c.identity ∉ endedCalls facts := by
  rw [openCalls, mem_filter]
  refine and_congr_right fun hc => ?_
  rw [isOpen, Bool.not_eq_true', ← Bool.not_eq_true,
    isSettled_iff h (hU ((hcalls.seen _).mp ⟨c, hc, rfl⟩))]

include hinj h hcalls hU hcurrent hheld htransfer in
/-- **A settlement that takes effect** keeps the ledger in agreement with the facts. -/
theorem Agrees.settle (hid : ¬ hostedReceiptPrefix <+: id) :
    Agrees sha256 runID U { L with reservations := m.insert id { current with
        status := .settled, active := false,
        usage := settledUsage usage (endingCalls sha256 runID L result),
        receipt := raw } } (calls ++ facts) := by
  obtain ⟨hnew, hkept, hrest⟩ := settled_lookup hinj hcalls hU htransfer
  have hlookup : ∀ id', hostedReceiptPrefix <+: id' → ∀ r : Reservation,
      (m.insert id r).lookup id' = m.lookup id' :=
    fun id' hid' r => lookup_insert_of_ne fun heq => hid (heq ▸ hid')
  refine ⟨?_, settled_charged h hcalls hU hcurrent hheld htransfer, fun i hi => ?_,
    fun i hi hnot => ?_, fun id' r hid' hr hrun => ?_⟩
  · rw [seenCalls_append]
    exact Finset.union_subset hU h.known
  · rw [hlookup _ (hostedID_starts i), endedCalls_append]
    rw [seenCalls_append] at hi
    by_cases hopen : ∃ c ∈ openCalls sha256 runID L result, c.identity = i
    · obtain ⟨c, hc, rfl⟩ := hopen
      obtain ⟨hmem, hnot⟩ := (mem_openCalls h hcalls hU).mp hc
      refine ⟨_, hnew c hc, rfl, rfl, ?_⟩
      simp [hostedReceipt, hcalls.ended c hmem, Finset.mem_union, hnot]
    have hclosed : ∀ c ∈ openCalls sha256 runID L result, c.identity ≠ i :=
      fun c hc heq => hopen ⟨c, hc, heq⟩
    have hpast : i ∈ seenCalls calls → i ∈ endedCalls facts := by
      intro hcall
      obtain ⟨c, hc, rfl⟩ := (hcalls.seen i).mpr hcall
      by_contra hnot
      exact hclosed c ((mem_openCalls h hcalls hU).mpr ⟨hc, hnot⟩) rfl
    have hold : i ∈ seenCalls facts ∧ (i ∈ endedCalls calls → i ∈ endedCalls facts) :=
      ⟨(Finset.mem_union.mp hi).elim (fun hcall => endedCalls_subset _ (hpast hcall))
        fun hold => hold, fun hend => hpast (endedCalls_subset _ hend)⟩
    obtain ⟨r, hr, hrun, hrequested, hstatus⟩ := h.receipts i hold.1
    refine ⟨r, ?_, hrun, hrequested, ?_⟩
    · rw [hkept i (h.known hold.1) hclosed, hr]
    rw [hstatus]
    have hiff : i ∈ endedCalls calls ∪ endedCalls facts ↔ i ∈ endedCalls facts := by
      rw [Finset.mem_union]
      exact ⟨fun hi => hi.elim hold.2 fun hi => hi, .inr⟩
    simp [hiff]
  · rw [seenCalls_append, Finset.mem_union, not_or] at hnot
    rw [hlookup _ (hostedID_starts i), hkept i hi fun c hc heq => ?_, h.unseen i hi hnot.2]
    exact hnot.1 ((hcalls.seen i).mp ⟨c, (mem_filter.mp hc).1, heq⟩)
  rw [hlookup id' hid'] at hr
  rw [seenCalls_append]
  by_cases hin : ∃ c ∈ openCalls sha256 runID L result, hostedID sha256 runID c.identity = id'
  · obtain ⟨c, hc, rfl⟩ := hin
    have hseen := (hcalls.seen _).mp ⟨c, (mem_filter.mp hc).1, rfl⟩
    exact ⟨c.identity, Finset.mem_union_left _ hseen, rfl⟩
  rw [hrest id' fun c hc heq => hin ⟨c, hc, heq⟩] at hr
  obtain ⟨i, hi, rfl⟩ := h.own id' r hid' hr hrun
  exact ⟨i, Finset.mem_union_right _ hi, rfl⟩

end Settle

/-! ### Runs of settlements -/

/-- What `settleModel` does to the ledger. -/
lemma settleModel_cases (sha256 : GoString → GoString) (seen L : Ledger) (reservation : Reservation)
    (response : Response) (callErr : Option CallError) :
    settleModel sha256 seen L reservation response callErr = ⟨L, false⟩ ∨
      settleModel sha256 seen L reservation response callErr =
        ⟨suspended L reservation.id, false⟩ ∨
      ∃ usage completed related raw,
        hostedReceiptTransfers sha256 seen reservation.runID response.hostedToolCalls =
          .ok (completed, related) ∧
        settleModel sha256 seen L reservation response callErr =
          settleReceipts L reservation.id (settledUsage usage completed) raw related := by
  simp only [settleModel]
  split
  · exact .inr (.inl rfl)
  split
  · exact .inl rfl
  rename_i usage _
  split
  · exact .inr (.inl rfl)
  rename_i completed related htransfers
  split
  · exact .inl rfl
  rename_i raw _
  exact .inr (.inr ⟨usage, completed, related, raw, htransfers, rfl⟩)

/-- A settlement that takes no effect disturbs nothing. -/
lemma settleModel_unsettled (hid : ¬ hostedReceiptPrefix <+: reservation.id)
    (h : (settleModel sha256 seen L reservation response callErr).settled = false) :
    Undisturbed sha256 runID L (settleModel sha256 seen L reservation response callErr).ledger := by
  obtain heq | heq | ⟨_, _, _, _, -, heq⟩ :=
    settleModel_cases sha256 seen L reservation response callErr
  · rw [heq]
    exact undisturbed_refl L
  · rw [heq]
    exact suspended_undisturbed hid
  rw [heq] at h ⊢
  rw [settleReceipts_refused h]
  exact undisturbed_refl L

include hinj in
/-- One settlement. -/
lemma Agrees.step (h : Agrees sha256 runID U L facts)
    (hU : seenCalls response.hostedToolCalls ⊆ U)
    (hseen : UpToDate sha256 runID seen L)
    (hrun : reservation.runID = runID) (hid : ¬ hostedReceiptPrefix <+: reservation.id) :
    Agrees sha256 runID U (settleModel sha256 seen L reservation response callErr).ledger
      (if (settleModel sha256 seen L reservation response callErr).settled then
        response.hostedToolCalls ++ facts else facts) := by
  cases hsettled : (settleModel sha256 seen L reservation response callErr).settled with
  | false => exact h.undisturbed (settleModel_unsettled hid hsettled)
  | true =>
    obtain heq | heq | ⟨_, _, _, _, htransfers, heq⟩ :=
      settleModel_cases sha256 seen L reservation response callErr
    · rw [heq] at hsettled
      cases hsettled
    · rw [heq] at hsettled
      cases hsettled
    rw [heq] at hsettled ⊢
    rw [hrun] at htransfers
    have hopen : isOpen sha256 seen runID = isOpen sha256 L runID := by
      funext c
      simp [isOpen, isSettled, hseen c.identity]
    obtain ⟨hids, hrelated, hcompleted⟩ := transferCalls_ok htransfers
    rw [hopen] at hrelated hcompleted
    obtain ⟨_, m, hcurrent, hheld, htransfer, hledger⟩ := settleReceipts_settled hsettled
    rw [hledger, if_pos rfl, hcompleted]
    rw [hrelated] at htransfer
    exact h.settle hinj (calls_collapse hids) hU hcurrent hheld htransfer hid

include hinj in
/-- **In every run** the ledger agrees with the facts that were settled. -/
theorem Settling.agrees (h : Settling sha256 runID L facts shown)
    (hU : seenCalls shown ⊆ U) : Agrees sha256 runID U L facts := by
  induction h with
  | start hfresh => exact hfresh.agrees U
  | other _ hframe ih => exact (ih hU).undisturbed hframe
  | settle _ _ _ _ hseen hrun hid ih =>
    rw [seenCalls_append] at hU
    exact (ih (Finset.union_subset_right hU)).step hinj (Finset.union_subset_left hU) hseen hrun hid

include hinj in
/-- The held receipts are those of the calls that have not ended. -/
lemma Agrees.pending (h : Agrees sha256 runID U L facts) :
    pendingHostedAllowance L runID = (seenCalls facts \ endedCalls facts).card := by
  rw [pendingHostedAllowance]
  generalize hheld : (L.reservations.entries.filter fun e => hostedReceiptPrefix.isPrefixOf e.1 &&
    e.2.runID = runID && e.2.status = .held) = held
  have hentry : ∀ e : Sigma fun _ => Reservation, e ∈ held ↔
      ∃ i ∈ seenCalls facts \ endedCalls facts, e.1 = hostedID sha256 runID i ∧
        L.reservations.lookup e.1 = some e.2 := by
    intro e
    rw [← hheld, mem_filter]
    simp only [Bool.and_eq_true, decide_eq_true_eq, isPrefixOf_iff_prefix]
    constructor
    · rintro ⟨he, ⟨hstart, hrun⟩, hstatus⟩
      have hlookup : L.reservations.lookup e.1 = some e.2 := AList.mem_lookup_iff.mpr he
      obtain ⟨i, hi, heq⟩ := h.own e.1 e.2 hstart hlookup hrun
      obtain ⟨r, hr, -, -, hr'⟩ := h.receipts i hi
      rw [← heq, hlookup] at hr
      cases hr
      refine ⟨i, Finset.mem_sdiff.mpr ⟨hi, fun hended => ?_⟩, heq, hlookup⟩
      rw [hstatus, if_pos hended] at hr'
      cases hr'
    · rintro ⟨i, hi, heq, hlookup⟩
      obtain ⟨hseen, hopen⟩ := Finset.mem_sdiff.mp hi
      obtain ⟨r, hr, hrun, -, hr'⟩ := h.receipts i hseen
      rw [← heq, hlookup] at hr
      cases hr
      rw [if_neg hopen] at hr'
      exact ⟨AList.mem_lookup_iff.mp hlookup, ⟨heq ▸ hostedID_starts i, hrun⟩, hr'⟩
  -- every receipt stands for one call
  have hone : held.map (fun e => e.2.requested .hostedToolCalls) = held.map fun _ => (1 : ℤ) := by
    refine map_congr_left fun e he => ?_
    obtain ⟨i, hi, heq, hlookup⟩ := (hentry e).mp he
    obtain ⟨r, hr, -, hrequested, -⟩ := h.receipts i (Finset.mem_sdiff.mp hi).1
    rw [← heq, hlookup] at hr
    cases hr
    rw [hrequested]
    rfl
  have hnodup : (held.map Sigma.fst).Nodup := by
    rw [← hheld]
    exact List.NodupKeys.sublist filter_sublist L.reservations.nodupKeys
  have hkeys : (held.map Sigma.fst).toFinset =
      (seenCalls facts \ endedCalls facts).image (hostedID sha256 runID) := by
    ext id
    simp only [mem_toFinset, mem_map, Finset.mem_image]
    constructor
    · rintro ⟨e, he, rfl⟩
      obtain ⟨i, hi, heq, -⟩ := (hentry e).mp he
      exact ⟨i, hi, heq.symm⟩
    rintro ⟨i, hi, rfl⟩
    obtain ⟨r, hr, -⟩ := h.receipts i (Finset.mem_sdiff.mp hi).1
    exact ⟨⟨_, r⟩, (hentry _).mpr ⟨i, hi, rfl, hr⟩, rfl⟩
  have hcard : held.length = (seenCalls facts \ endedCalls facts).card := by
    rw [← length_map (f := Sigma.fst), ← toFinset_card_of_nodup hnodup, hkeys]
    refine Finset.card_image_of_injOn fun i hi j hj hij => ?_
    exact hinj i (h.known (Finset.mem_sdiff.mp hi).1) j (h.known (Finset.mem_sdiff.mp hj).1) hij
  rw [hone, map_const', sum_replicate, hcard]
  simp

/-- A response that reports a call without an ID settles nothing. -/
lemma settleModel_blank (sha256 : GoString → GoString) (seen L : Ledger)
    (reservation : Reservation) (callErr : Option CallError)
    (hblank : ∃ c ∈ response.hostedToolCalls, trimSpace c.id = []) :
    settleModel sha256 seen L reservation response callErr = ⟨L, false⟩ ∨
      settleModel sha256 seen L reservation response callErr =
        ⟨suspended L reservation.id, false⟩ := by
  obtain heq | heq | ⟨usage, completed, related, raw, htransfers, -⟩ :=
    settleModel_cases sha256 seen L reservation response callErr
  · exact .inl heq
  · exact .inr heq
  obtain ⟨c, hc, hid⟩ := hblank
  have hmem := ((observed_collapse response.hostedToolCalls).identities c.identity).mpr
    (mem_map_of_mem hc)
  obtain ⟨d, hd, hcd⟩ := mem_map.mp hmem
  refine absurd ?_ ((transferCalls_ok htransfers).1 d hd)
  rw [show d.id = c.id from congrArg Prod.snd hcd, hid]

/-! ### What else happens -/

/-- The change is not about a receipt of a provider tool, and charges none. -/
def SparesHosted : Change → Prop
  | .registerRun _ _ | .finishRuns _ => True
  | .reserve request _ => ¬ hostedReceiptPrefix <+: request.id
  | .dispatch id | .requeueProvenUnsent id _ | .suspend id | .release id =>
    ¬ hostedReceiptPrefix <+: id
  | .settle id usage _ => ¬ hostedReceiptPrefix <+: id ∧ usage .hostedToolCalls = 0
  | .settleWithReceipts _ _ _ _ | .cancel | .cancelRun _ => False

instance : (c : Change) → Decidable (SparesHosted c)
  | .registerRun _ _ | .finishRuns _ => isTrue trivial
  | .reserve request _ => inferInstanceAs (Decidable (¬ hostedReceiptPrefix <+: request.id))
  | .dispatch id | .requeueProvenUnsent id _ | .suspend id | .release id =>
    inferInstanceAs (Decidable (¬ hostedReceiptPrefix <+: id))
  | .settle id usage _ =>
    inferInstanceAs (Decidable (¬ hostedReceiptPrefix <+: id ∧ usage .hostedToolCalls = 0))
  | .settleWithReceipts _ _ _ _ | .cancel | .cancelRun _ => isFalse id

/-- Booking reservations, dispatching and releasing them, charging other tools and binding Runs change
nothing about the provider tools of a Run. -/
lemma effect_undisturbed {order : RangeOrder} {c : Change} {next : Ledger}
    (h : Effect order L c next) (hchildren : OwnChildren L) (hspares : SparesHosted c) :
    Undisturbed sha256 runID L next := by
  -- a reservation that `Reserve` may book has no weight, before and after
  have hbook : ∀ {request source r : Reservation}, Origin L request source →
      r.status ≠ .settled → ¬ hostedReceiptPrefix <+: request.id →
      Undisturbed sha256 runID L (L.withReservation request.id r) := by
    intro _ _ r horigin hopen hid
    refine withReservation_undisturbed hid ?_
    have hzero : hostedWeight runID r = 0 := by simp [hostedWeight, hopen]
    obtain ⟨hnone, -⟩ | ⟨hsome, -, -, hstatus⟩ := horigin
    · rw [hnone, hzero, Option.elim_none]
    · rw [hsome, hzero, Option.elim_some, hostedWeight]
      obtain hstatus | hstatus := hstatus <;> simp [hstatus]
  cases h with
  | unchanged => exact undisturbed_refl L
  | root | finished => exact ⟨fun _ => rfl, fun _ _ _ hlookup _ => hlookup, rfl⟩
  | @child childRun binding hnew =>
    have hid : ¬ hostedReceiptPrefix <+: childID childRun := by
      rintro ⟨rest, hrest⟩
      have hhead : some (104 : UInt8) = some 99 := congrArg head? hrest
      cases hhead
    have hnone : L.reservations.lookup (childID childRun) = none :=
      AList.lookup_eq_none.mpr fun hmem => hnew (hchildren childRun hmem)
    have hframe : Undisturbed sha256 runID L (L.withReservation (childID childRun)
        (childReservation binding.parentRunID childRun)) := by
      refine withReservation_undisturbed hid ?_
      rw [hnone]
      simp [hostedWeight, childReservation, childCharge]
    exact ⟨hframe.receipts, hframe.own, hframe.settled⟩
  | booked _ horigin | parked _ horigin => exact hbook horigin (by simp) hspares
  | @touched _ id old _ hold htouch =>
    cases htouch with
    | kept =>
      have hsame : ∀ id', (L.withReservation id old).reservations.lookup id' =
          L.reservations.lookup id' := by
        intro id'
        by_cases heq : id' = id
        · rw [heq, hold]
          exact AList.lookup_insert _
        · exact lookup_insert_of_ne heq
      refine ⟨fun i => hsame _, fun id' r _ hlookup _ => hsame id' ▸ hlookup, ?_⟩
      rw [settledHosted, settledHosted, total_of_lookup hold]
      exact total_insert
    | dispatch | suspend =>
      refine withReservation_undisturbed hspares ?_
      simp [hold, hostedWeight]
    | requeue _ hopen | release _ hopen =>
      refine withReservation_undisturbed hspares ?_
      simp [hold, hostedWeight, hopen]
    | settle hheld =>
      refine withReservation_undisturbed hspares.1 ?_
      simp [hold, hostedWeight, hheld, hspares.2]
  | cancelled | cancelledRun | transferred => exact hspares.elim

lemma Undisturbed.trans {L' L'' : Ledger} (h : Undisturbed sha256 runID L L')
    (h' : Undisturbed sha256 runID L' L'') : Undisturbed sha256 runID L L'' where
  receipts i := (h'.receipts i).trans (h.receipts i)
  own id r hid hlookup hrun := h.own id r hid (h'.own id r hid hlookup hrun) hrun
  settled := h'.settled.trans h.settled

/-- The induction is on the later part of the history; each of its entries was computed from the
entry below it. -/
lemma story_undisturbed {scope : GoString} {newer older : List LedgerWrite} {write : LedgerWrite}
    (h : LedgerStory scope (newer ++ write :: older))
    (hbound : (newer ++ write :: older).length < 2 ^ 64)
    (hids : ∀ x ∈ newer ++ write :: older, ∀ change ∈ x.change, change.CallerIDs)
    (hspares : ∀ x ∈ newer, ∀ change ∈ x.change, SparesHosted change) :
    ∃ newest rest, newer ++ write :: older = newest :: rest ∧
      Undisturbed sha256 runID write.after newest.after := by
  induction newer with
  | nil => exact ⟨write, older, rfl, undisturbed_refl _⟩
  | cons x newer ih =>
    rw [cons_append] at h
    have hrest : LedgerStory scope (newer ++ write :: older) := h.of_suffix (suffix_cons _ _)
    have hids' := (forall_mem_cons.mp hids).2
    have hlength : (newer ++ write :: older).length < 2 ^ 64 := by
      rw [cons_append, length_cons] at hbound
      omega
    obtain ⟨newest, _, heq, hframe⟩ := ih hrest hlength hids' (forall_mem_cons.mp hspares).2
    refine ⟨x, newer ++ write :: older, rfl, hframe.trans ?_⟩
    obtain ⟨hnil, -⟩ | ⟨previous, tail, change, hcons, hchange, -, -, -, order, next, heffect, hafter⟩ :=
      LedgerStory.before_eq h hlength
    · rw [heq] at hnil
      cases hnil
    rw [heq] at hcons
    cases hcons
    -- a child Run that is registered now was not there, so its reservation is a new one
    have hchildren := hrest.children hids' newest.after (mem_map_after (heq ▸ mem_cons_self))
    have hstep : Undisturbed sha256 runID newest.after next :=
      effect_undisturbed heffect hchildren ((forall_mem_cons.mp hspares).1 change hchange)
    rw [hafter]
    exact ⟨hstep.receipts, hstep.own, hstep.settled⟩

/-- **Other work leaves provider tools alone.**  Between two moments of a run with fewer than 2^64
saves, in which the methods that commit book and dispatch reservations, release them, charge other
tools or bind Runs, no receipt of a provider tool and no charge for one changes. -/
theorem hosted_undisturbed (c c' : System) (scope : GoString) (L L' : Ledger)
    (newer : List LedgerWrite) (hreach : c.Reachable) (hlater : c.Later c')
    (hbound : (c'.shared.history scope).length < 2 ^ 64)
    (hids : ∀ write ∈ c'.shared.history scope, ∀ change ∈ write.change, change.CallerIDs)
    (hledger : c.shared.ledger scope = some L) (hledger' : c'.shared.ledger scope = some L')
    (hnewer : c'.shared.history scope = newer ++ c.shared.history scope)
    (hspares : ∀ write ∈ newer, ∀ change ∈ write.change, SparesHosted change) :
    Undisturbed sha256 runID L L' := by
  have hstory := reachable_story (hreach.trans hlater) scope
  obtain ⟨write, older, hhistory, rfl⟩ := ledger_eq_some hledger
  obtain ⟨write', older', hhistory', rfl⟩ := ledger_eq_some hledger'
  rw [hhistory] at hnewer
  rw [hnewer] at hstory hbound hids hhistory'
  obtain ⟨newest, _, heq, hframe⟩ := story_undisturbed hstory hbound hids hspares
  rw [heq] at hhistory'
  cases hhistory'
  exact hframe

/-- The call of a provider tool, as it is reported. -/
def searchCall (id status : GoString) : HostedToolCall :=
  { id := id, toolKey := lit "web_search", status := status }

/-- A model call of the Run, whose response reports one search that ended and one under way. -/
def searchedSystem : System :=
  let calls : List Budget.Request :=
    [.ensure 1 (lit "t") 0,
      .change 1 (lit "t") (.registerRun (lit "r") {}),
      .change 1 (lit "t") (.reserve
        { id := lit "model:1", runID := lit "r", requestHash := lit "h" } true),
      .change 1 (lit "t") (.dispatch (lit "model:1")),
      .change 1 (lit "t") (.settleWithReceipts (lit "model:1") hostedCharge (lit "true")
        [hostedReceipt id (lit "r") (searchCall (lit "a") (lit "completed")),
          hostedReceipt id (lit "r") (searchCall (lit "b") (lit "in_progress"))])]
  calls.foldl System.serve ⟨{}, []⟩

/-- Then another tool of the Run is charged. -/
def workedSystem : System :=
  let calls : List Budget.Request :=
    [.change 1 (lit "t") (.reserve { id := lit "k", runID := lit "r", requestHash := lit "h" } true),
      .change 1 (lit "t") (.dispatch (lit "k")),
      .change 1 (lit "t") (.settle (lit "k") (Pi.single .toolCalls 1) [])]
  calls.foldl System.serve searchedSystem

theorem hosted_undisturbed_searched : ∃ L L', searchedSystem.shared.ledger (lit "t") = some L ∧
    workedSystem.shared.ledger (lit "t") = some L' ∧ settledHosted (lit "r") L = 1 ∧
    pendingHostedAllowance L (lit "r") = 1 ∧
    (L'.reservations.lookup (lit "k")).map Reservation.status = some .settled ∧
    Undisturbed id (lit "r") L L' := by
  have hbefore : (searchedSystem.shared.ledger (lit "t")).any (fun L =>
      settledHosted (lit "r") L = 1 && pendingHostedAllowance L (lit "r") = 1) = true := by
    decide +kernel
  have hafter : (workedSystem.shared.ledger (lit "t")).any (fun L' =>
      (L'.reservations.lookup (lit "k")).map Reservation.status = some .settled) = true := by
    decide +kernel
  obtain ⟨L, hL, hsearched⟩ := Option.any_eq_true _ _ |>.mp hbefore
  obtain ⟨L', hL', hworked⟩ := Option.any_eq_true _ _ |>.mp hafter
  rw [Bool.and_eq_true, decide_eq_true_eq, decide_eq_true_eq] at hsearched
  refine ⟨L, L', hL, hL', hsearched.1, hsearched.2, of_decide_eq_true hworked, ?_⟩
  exact hosted_undisturbed searchedSystem workedSystem (lit "t") L L'
    ((workedSystem.shared.history (lit "t")).take 3) (System.later_foldl _ _) (System.later_foldl _ _)
    (by decide +kernel) (by decide +kernel) hL hL' rfl (by decide +kernel)

/-! ### The charges of a Run -/

/-- The reservation without its slot. -/
def idle (r : Reservation) : Reservation := { r with active := false }

lemma idle_suspended (id id' : GoString) :
    ((suspended L id).reservations.lookup id').map idle =
      (L.reservations.lookup id').map idle := by
  rw [suspended, Ledger.changeReservation]
  rcases hlookup : L.reservations.lookup id with _ | r
  · rfl
  show ((L.reservations.insert id { r with active := false }).lookup id').map idle = _
  by_cases heq : id' = id
  · rw [heq, AList.lookup_insert, hlookup]
    rfl
  · rw [lookup_insert_of_ne heq]

/-- **Charged once.**  In every state of a Run whose calls have keys and IDs that JSON keeps
apart, the charges are those of the calls that ended and the holds those of the others.  A
response with a call that has no ID settles nothing: all reservations stay as they are, but
for the slot of the model call. -/
theorem hosted_charged_once (sha256 : GoString → GoString) (runID : GoString) :
    (∀ L facts shown, Settling sha256 runID L facts shown → ValidIdentities shown →
      CollisionFree sha256 runID shown → Exact sha256 runID L facts) ∧
    ∀ (seen L : Ledger) (reservation : Reservation) (response : Response)
      (callErr : Option CallError),
      (∃ c ∈ response.hostedToolCalls, trimSpace c.id = []) →
        (settleModel sha256 seen L reservation response callErr).settled = false ∧
        ∀ id, ((settleModel sha256 seen L reservation response callErr).ledger.reservations.lookup
          id).map idle = (L.reservations.lookup id).map idle := by
  refine ⟨fun L facts shown h hvalid hfree => ?_, fun seen L reservation response callErr hblank => ?_⟩
  · have hinj : ∀ i ∈ seenCalls shown, ∀ j ∈ seenCalls shown,
        hostedID sha256 runID i = hostedID sha256 runID j → i = j :=
      fun i hi j hj => hostedID_inj hvalid hfree hi hj
    have hagrees := h.agrees hinj (Finset.Subset.refl _)
    exact ⟨hagrees.charged, hagrees.receipts, hagrees.pending hinj⟩
  obtain heq | heq := settleModel_blank sha256 seen L reservation callErr hblank
  · rw [heq]
    exact ⟨rfl, fun _ => rfl⟩
  · rw [heq]
    exact ⟨rfl, idle_suspended reservation.id⟩

/-- A dispatched model call. -/
def dispatchedModel (id : GoString) : Reservation where
  id := id
  runID := lit "r"
  status := .held
  dispatched := true

/-- Two dispatched model calls of one Run. -/
def twoModels : Ledger where
  runs := (∅ : Map GoString RunBudget).insert (lit "r") {}
  reservations := ((∅ : Map GoString Reservation).insert (lit "model:1")
    (dispatchedModel (lit "model:1"))).insert (lit "model:2") (dispatchedModel (lit "model:2"))

lemma twoModels_fresh : Fresh id (lit "r") twoModels := by
  have hids : ∀ id', hostedReceiptPrefix <+: id' → twoModels.reservations.lookup id' = none := by
    intro id' hid'
    refine AList.lookup_eq_none.mpr fun hmem => ?_
    have hkeys : ∀ k ∈ twoModels.reservations.keys, ¬ hostedReceiptPrefix <+: k := by decide +kernel
    exact hkeys id' (AList.mem_keys.mp hmem) hid'
  refine ⟨fun i => hids _ (hostedID_starts i), fun id' r hid' hlookup => ?_, by decide +kernel⟩
  rw [hids id' hid'] at hlookup
  cases hlookup

/-- A search that ended, and one that is under way. -/
def searches : Response where
  hostedToolCalls := [searchCall (lit "a") (lit "completed"), searchCall (lit "b") (lit "in_progress")]

theorem hosted_charged_once_searches :
    ValidIdentities searches.hostedToolCalls ∧
      Exact id (lit "r") (settleModel id twoModels twoModels (dispatchedModel (lit "model:1"))
        searches none).ledger searches.hostedToolCalls := by
  have hvalid : ValidIdentities searches.hostedToolCalls := by
    rw [ValidIdentities]
    decide +kernel
  have hrun := (Settling.start twoModels_fresh).settled (dispatchedModel (lit "model:1")) searches
    rfl (by decide +kernel) (by decide +kernel)
  exact ⟨hvalid, (hosted_charged_once id (lit "r")).1 _ _ _ hrun hvalid fun _ _ _ _ heq => heq⟩

/-- A search that ended, with that ID. -/
def oneSearch (id : GoString) : Response where
  hostedToolCalls := [searchCall id (lit "completed")]

/-- The ledger after the response of the first model call. -/
def firstSettled (response : Response) : Ledger :=
  (settleModel id twoModels twoModels (dispatchedModel (lit "model:1")) response none).ledger

/-- **Stray bytes and stale ledgers.**  Two searches ended, under IDs that are one stray byte each.
Both responses are settled, and the Run is charged for one.  And where the second call had reserved
before the first response was settled, one search that both report is charged twice. -/
theorem hosted_charged_stray :
    (∃ L facts, Settling id (lit "r") L facts facts ∧
      facts = (oneSearch [0xfe]).hostedToolCalls ++ (oneSearch [0xff]).hostedToolCalls ∧
      (endedCalls facts).card = 2 ∧ settledHosted (lit "r") L = 1) ∧
    ∃ L, settleModel id twoModels (firstSettled (oneSearch (lit "a")))
        (dispatchedModel (lit "model:2")) (oneSearch (lit "a")) none = ⟨L, true⟩ ∧
      settledHosted (lit "r") L = 2 := by
  have hfirst := (Settling.start twoModels_fresh).settled (dispatchedModel (lit "model:1"))
    (oneSearch [0xff]) rfl (by decide +kernel) (by decide +kernel)
  have hsecond := hfirst.settled (dispatchedModel (lit "model:2")) (oneSearch [0xfe]) rfl
    (by decide +kernel) (by decide +kernel)
  refine ⟨⟨_, _, hsecond, rfl, by decide +kernel, by decide +kernel⟩, ?_⟩
  exact ⟨_, rfl, by decide +kernel⟩

end Runs

end Harness
