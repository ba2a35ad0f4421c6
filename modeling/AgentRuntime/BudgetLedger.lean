/-
The shared budget ledger of one Turn
(`budget/budget.go`, `budget/ledger.go`, `budget/ledger_usage.go`,
`budget/receipt_transfer.go`).

A ledger records the Runs of a Turn with their ancestry and ceilings, and one
reservation for every logical call.  Everything else is a projection of it:
`View` adds up the reservations of a subtree, `admit` compares that with the
ceilings of all ancestors, and the methods of the Coordinator move reservations
between waiting, held, settled and released.

Two traits of the source matter for what can be proved.  `View` ignores the error
of `AddUsage` and then starts again from zero, so a sum that overflows loses what
was added before, and since Go visits a map in no particular order, which part is
lost depends on that order (`RangeOrder`).  And the walks from a Run to its
ancestors end because a parent is registered before its children
(`Ledger.lineage`).
-/
import AgentRuntime.Json
import AgentRuntime.FiniteMaps
import Mathlib.Data.Fintype.Pi

namespace Budget

open GoString FiniteMap

/-! ### Usage and limits -/

/-- The fields of `Usage`. -/
inductive Meter where
  | llmCalls | toolCalls | hostedToolCalls | inputTokens | outputTokens | totalTokens
  | cacheReadTokens | cacheWriteTokens | reasoningTokens | outputBytes | stateBytes | childRuns
  | costUnits
  deriving DecidableEq, Repr

instance : Fintype Meter :=
  .ofList [.llmCalls, .toolCalls, .hostedToolCalls, .inputTokens, .outputTokens, .totalTokens,
    .cacheReadTokens, .cacheWriteTokens, .reasoningTokens, .outputBytes, .stateBytes, .childRuns,
    .costUnits] fun m => by cases m <;> decide

/-- The common runtime budget dimensions, which are the fields of `Limits`. -/
inductive Dimension where
  | llmCalls | toolCalls | hostedToolCalls | inputTokens | outputTokens | totalTokens | outputBytes
  | stateBytes | childRuns | costUnits | concurrentRuns | concurrentDescendants
  deriving DecidableEq, Repr

instance : Fintype Dimension :=
  .ofList [.llmCalls, .toolCalls, .hostedToolCalls, .inputTokens, .outputTokens, .totalTokens,
    .outputBytes, .stateBytes, .childRuns, .costUnits, .concurrentRuns, .concurrentDescendants]
    fun d => by cases d <;> decide

/-- One durable, logically consumed usage ledger. -/
abbrev Usage : Type := Meter → ℤ

/-- Optional ceilings; zero means that the dimension is not limited. -/
abbrev Limits : Type := Dimension → ℤ

/-- `math.MaxInt64`, and `math.MaxInt` of a 64-bit platform. -/
def maxInt : ℤ := 2 ^ 63 - 1

/-- The errors of the package; a denial carries the dimension responsible for it. -/
inductive BudgetError where
  | invalidUsage
  | ledgerNotFound
  | ledgerConflict
  | waiting (dimension : Option Dimension)
  | exhausted (dimension : Option Dimension)
  | context
  deriving DecidableEq, Repr

namespace BudgetError

/-- `errors.Is(err, ErrWaiting)`. -/
def isWaiting : BudgetError → Bool
  | waiting _ => true
  | _ => false

/-- The dimension `admit` returns next to the error. -/
def dimension : BudgetError → Option Dimension
  | waiting d => d
  | exhausted d => d
  | _ => none

end BudgetError

def ValidLimits (limits : Limits) : Prop := ∀ d, 0 ≤ limits d

instance : DecidablePred ValidLimits := fun _ => inferInstanceAs (Decidable (∀ _, _))

/-- Total tokens are exactly the sum of input and output tokens. -/
def ValidUsage (u : Usage) : Prop :=
  (∀ m, 0 ≤ u m) ∧ u .inputTokens ≤ maxInt - u .outputTokens ∧
    u .totalTokens = u .inputTokens + u .outputTokens

instance : DecidablePred ValidUsage := fun _ => inferInstanceAs (Decidable (_ ∧ _ ∧ _))

/-- `AddUsage` rejects overflow in all dimensions. -/
def addUsage (left right : Usage) : Except BudgetError Usage :=
  if ValidUsage left ∧ ValidUsage right ∧ ∀ m, left m ≤ maxInt - right m then .ok (left + right)
  else .error .invalidUsage

/-- `value, _ = AddUsage(value, more)`: the error is dropped and the sum is lost. -/
def addOrReset (left right : Usage) : Usage := (addUsage left right).toOption.getD 0

/-- The dimensions with a meter, in the order in which `Exceeded` looks at them. -/
def metered : List (Dimension × Meter) :=
  [(.llmCalls, .llmCalls), (.toolCalls, .toolCalls), (.hostedToolCalls, .hostedToolCalls),
    (.inputTokens, .inputTokens), (.outputTokens, .outputTokens), (.totalTokens, .totalTokens),
    (.outputBytes, .outputBytes), (.stateBytes, .stateBytes), (.childRuns, .childRuns),
    (.costUnits, .costUnits)]

/-- The first dimension whose ceiling was crossed; equality is within budget. -/
def exceeded (limits : Limits) (usage : Usage) : Option Dimension :=
  (metered.find? fun p => 0 < limits p.1 && limits p.1 < usage p.2).map Prod.fst

/-- `remainingUsage`; the subtractions are those of 64-bit integers. -/
def remainingUsage (limits : Limits) (used reserved : Usage) : Usage :=
  let left (d : Dimension) (m : Meter) : ℤ :=
    max 0 (Int.bmod (limits d - used m - reserved m) (2 ^ 64))
  fun
    | .llmCalls => left .llmCalls .llmCalls
    | .toolCalls => left .toolCalls .toolCalls
    | .hostedToolCalls => left .hostedToolCalls .hostedToolCalls
    | .childRuns => left .childRuns .childRuns
    | .inputTokens => left .inputTokens .inputTokens
    | .outputTokens => left .outputTokens .outputTokens
    | .totalTokens => left .totalTokens .totalTokens
    | _ => 0

/-! ### Reservations and the ledger -/

inductive ReservationStatus where
  | waiting | held | settled | released
  deriving DecidableEq, Repr

/-- Durable ancestry and additional ceilings of a subtree. -/
structure RunBudget where
  parentRunID : GoString := []
  limits : Limits := 0
  deriving DecidableEq

structure Reservation where
  id : GoString
  runID : GoString
  requestHash : GoString := []
  requested : Usage := 0
  usage : Usage := 0
  status : ReservationStatus := .waiting
  active : Bool := false
  dispatched : Bool := false
  receipt : GoString := []
  dimension : Option Dimension := none
  deriving DecidableEq

/-- The accounting state of one Turn.  `CancelledRuns` and `FinishedRuns` only ever
hold `true`. -/
structure Ledger where
  id : GoString := []
  revision : UInt64 := 0
  limits : Limits := 0
  runs : Map GoString RunBudget := ∅
  reservations : Map GoString Reservation := ∅
  cancelled : Bool := false
  cancelledRuns : Finset GoString := ∅
  finishedRuns : Finset GoString := ∅

/-- One iteration over a Go map of reservations visits its entries in any order, a
new one each time.  No method adds up the reservations of one scope twice. -/
structure RangeOrder where
  visit : GoString → List (Σ _ : GoString, Reservation) → List (Σ _ : GoString, Reservation)
  perm : ∀ scope l, (visit scope l).Perm l

/-- Entries as they are stored. -/
def RangeOrder.stored : RangeOrder := ⟨fun _ l => l, fun _ _ => .refl _⟩

namespace Ledger

/-- `reflect.DeepEqual`; maps are compared without order. -/
def same (L L' : Ledger) : Bool :=
  L.id = L'.id && L.revision = L'.revision && L.limits = L'.limits &&
    L.runs.entries.isPerm L'.runs.entries && L.reservations.entries.isPerm L'.reservations.entries &&
    L.cancelled = L'.cancelled && L.cancelledRuns = L'.cancelledRuns &&
    L.finishedRuns = L'.finishedRuns

/-- `ledger.Runs[runID].ParentRunID`, empty for a Run that is not registered. -/
def parentOf (L : Ledger) (runID : GoString) : GoString :=
  ((L.runs.lookup runID).map RunBudget.parentRunID).getD []

/-- The values of the loop `for child != "" { child = ledger.Runs[child].ParentRunID }`. -/
def lineage (L : Ledger) (runID : GoString) : List GoString :=
  walk [] L.parentOf (L.runs.entries.length + 1) runID

/-- The same with the Turn scope at its end: the values of
`for current := runID; ; current = ledger.Runs[current].ParentRunID`. -/
def scopesOf (L : Ledger) (runID : GoString) : List GoString := L.lineage runID ++ [[]]

def contains (L : Ledger) (parent child : GoString) : Bool :=
  parent = [] || decide (parent ∈ L.lineage child)

/-- The method `cancelled`. -/
def cancelledAt (L : Ledger) (runID : GoString) : Bool :=
  L.cancelled || (L.lineage runID).any (· ∈ L.cancelledRuns)

def active (L : Ledger) (runID subtree : GoString) : Bool :=
  L.reservations.entries.any fun e =>
    e.2.runID = runID && e.2.active && L.contains subtree e.2.runID

end Ledger

/-! ### The projection -/

/-- What one iteration over the reservations accumulates. -/
structure Tally where
  usage : Usage := 0
  reserved : Usage := 0
  active : Finset GoString := ∅
  waiting : Finset GoString := ∅
  unknownUsage : Bool := false

/-- The body of the loop, for a reservation of the subtree. -/
def Tally.add (t : Tally) (r : Reservation) : Tally :=
  match r.status with
  | .settled => { t with usage := addOrReset t.usage r.usage }
  | .held =>
    { t with
      reserved := addOrReset t.reserved r.requested
      active := if r.active then insert r.runID t.active else t.active
      unknownUsage := t.unknownUsage || r.dispatched }
  | .waiting => { t with waiting := insert r.runID t.waiting }
  | .released => t

structure LedgerView where
  scopeID : GoString
  revision : UInt64
  limits : Limits
  usage : Usage
  reserved : Usage
  remaining : Usage
  activeRuns : ℕ
  waitingRuns : ℕ
  unfinishedDescendants : ℕ
  unknownUsage : Bool
  cancelled : Bool

namespace Ledger

/-- The ceilings of a scope: those of the Turn or those of a Run. -/
def limitsOf (L : Ledger) (scope : GoString) : Limits :=
  if scope = [] then L.limits else ((L.runs.lookup scope).map RunBudget.limits).getD 0

/-- Registered below the scope, with a parent, and not finished. -/
def isUnfinished (L : Ledger) (scope id : GoString) (binding : RunBudget) : Bool :=
  binding.parentRunID ≠ [] && id ≠ scope && id ∉ L.finishedRuns && L.contains scope id

def unfinishedDescendants (L : Ledger) (scope : GoString) : ℕ :=
  L.runs.entries.countP fun e => L.isUnfinished scope e.1 e.2

def tally (L : Ledger) (order : RangeOrder) (scope : GoString) : Tally :=
  (order.visit scope L.reservations.entries).foldl
    (fun t e => if L.contains scope e.2.runID then t.add e.2 else t) {}

/-- `View` computes the projection of a scope from its reservations. -/
def view (L : Ledger) (order : RangeOrder) (scope : GoString) : LedgerView :=
  let t := L.tally order scope
  { scopeID := L.id
    revision := L.revision
    limits := L.limitsOf scope
    usage := t.usage
    reserved := t.reserved
    remaining := remainingUsage (L.limitsOf scope) t.usage t.reserved
    activeRuns := t.active.card
    waitingRuns := t.waiting.card
    unfinishedDescendants := L.unfinishedDescendants scope
    unknownUsage := t.unknownUsage
    cancelled := L.cancelledAt scope }

/-! ### Admission -/

/-- One level of `admit`. -/
def admitAt (L : Ledger) (order : RangeOrder) (runID : GoString) (requested : Usage)
    (active : Bool) (current : GoString) : Except BudgetError Unit := do
  let view := L.view order current
  let used ← addUsage view.usage requested
  match exceeded view.limits used with
  | some d => throw (.exhausted (some d))
  | none =>
    let occupied ← addUsage used view.reserved
    match exceeded view.limits occupied with
    | some d => throw (.waiting (some d))
    | none =>
      if active && 0 < view.limits .concurrentRuns && !L.active runID current &&
          view.limits .concurrentRuns ≤ view.activeRuns then
        throw (.waiting (some .concurrentRuns))

/-- The request fits under the ceilings of the Run, of its ancestors and of the Turn. -/
def admission (L : Ledger) (order : RangeOrder) (runID : GoString) (requested : Usage)
    (active : Bool) : Except BudgetError Unit :=
  (L.scopesOf runID).forM (L.admitAt order runID requested active)

end Ledger

/-! ### The methods of the Coordinator -/

/-- What every new descendant is charged to its parent. -/
def childCharge : Usage := Pi.single .childRuns 1

/-- The identifier under which that charge is booked. -/
def childID (runID : GoString) : GoString := lit "child:" ++ runID

def childReservation (parentRunID runID : GoString) : Reservation where
  id := childID runID
  runID := parentRunID
  requested := childCharge
  usage := childCharge
  status := .settled

namespace Ledger

/-- One level of the loop over the ancestors in `RegisterRun`. -/
def descendantSlot (L : Ledger) (order : RangeOrder) (current : GoString) :
    Except BudgetError Unit :=
  let view := L.view order current
  if 0 < view.limits .concurrentDescendants &&
      view.limits .concurrentDescendants ≤ view.unfinishedDescendants then
    throw (.waiting (some .concurrentDescendants))
  else pure ()

/-- Replayed registrations are free. -/
def registerRun (order : RangeOrder) (runID : GoString) (binding : RunBudget) (L : Ledger) :
    Except BudgetError Ledger :=
  match L.runs.lookup runID with
  | some existing => if existing ≠ binding then .error .ledgerConflict else .ok L
  | none =>
    if L.cancelledAt runID || L.cancelledAt binding.parentRunID then .error (.exhausted none)
    else if binding.parentRunID = [] then .ok { L with runs := L.runs.insert runID binding }
    else if binding.parentRunID ∉ L.runs then .error .ledgerConflict
    else if binding.parentRunID ∈ L.finishedRuns then .error (.exhausted none)
    else do
      (L.scopesOf binding.parentRunID).forM (L.descendantSlot order)
      L.admission order binding.parentRunID childCharge false
      return { L with
        reservations := L.reservations.insert (childID runID)
          (childReservation binding.parentRunID runID)
        runs := L.runs.insert runID binding }

def finishRuns (runIDs : List GoString) (L : Ledger) : Except BudgetError Ledger :=
  if runIDs.all (· ∈ L.runs) then
    .ok { L with finishedRuns := L.finishedRuns ∪ runIDs.toFinset }
  else .error .ledgerNotFound

def withReservation (L : Ledger) (id : GoString) (r : Reservation) : Ledger :=
  { L with reservations := L.reservations.insert id r }

def withoutReservation (L : Ledger) (id : GoString) : Ledger :=
  { L with reservations := L.reservations.erase id }

/-- The part of `Reserve` after the replay checks.  The first component is the new
value of the captured variable `request`. -/
def book (order : RangeOrder) (active : Bool) (request : Reservation) (wasHeld : Bool)
    (L : Ledger) : Reservation × Except BudgetError (Ledger × Option BudgetError) :=
  if L.cancelledAt request.runID then (request, .error (.exhausted none))
  else
    let bare := L.withoutReservation request.id
    match bare.admission order request.runID request.requested active with
    | .error denied =>
      if wasHeld then (request, .ok (bare.withReservation request.id request, some denied))
      else if !denied.isWaiting then (request, .error denied)
      else
        let parked := { request with
          status := .waiting, active := false, dimension := denied.dimension }
        (parked, .ok (bare.withReservation request.id parked, some denied))
    | .ok _ =>
      let booked := { request with status := .held, active := active, dimension := none }
      (booked, .ok (bare.withReservation request.id booked, none))

/-- Waiting attempts are persisted without consuming quota, and replays keep the
original estimate. -/
def reserve (order : RangeOrder) (request : Reservation) (active : Bool) (L : Ledger) :
    Reservation × Except BudgetError (Ledger × Option BudgetError) :=
  if request.runID ∉ L.runs then (request, .error .ledgerConflict)
  else match L.reservations.lookup request.id with
    | none => L.book order active request false
    | some existing =>
      if existing.runID ≠ request.runID || existing.requestHash ≠ request.requestHash then
        (request, .error .ledgerConflict)
      else match existing.status with
        | .settled => (request, .ok (L, none))
        | .released => (request, .error .ledgerConflict)
        | .waiting => L.book order active existing false
        | .held => L.book order active existing true

def changeReservation (id : GoString) (change : Reservation → Except BudgetError Reservation)
    (L : Ledger) : Except BudgetError Ledger :=
  match L.reservations.lookup id with
  | none => .error .ledgerNotFound
  | some value => do return L.withReservation id (← change value)

/-- The marker after which timeouts and cancellation cannot refund the reservation. -/
def dispatch : Reservation → Except BudgetError Reservation := fun value =>
  if value.status ≠ .held then .error .ledgerConflict
  else if value.dispatched then .error (.waiting none)
  else .ok { value with dispatched := true }

/-- It revokes the marker of a request that was never sent. -/
def requeueProvenUnsent (id : GoString) (dispatchRevision : UInt64) (L : Ledger) :
    Except BudgetError Ledger :=
  if L.revision ≠ dispatchRevision then .error .ledgerConflict
  else match L.reservations.lookup id with
    | none => .error .ledgerConflict
    | some value =>
      if value.status ≠ .held || !value.active || !value.dispatched || value.receipt ≠ [] ||
          value.usage ≠ 0 then .error .ledgerConflict
      else .ok (L.withReservation id { value with
        status := .waiting, active := false, dispatched := false, dimension := none })

/-- It gives up the execution slot and keeps the quota. -/
def suspend : Reservation → Except BudgetError Reservation := fun value =>
  .ok { value with active := false }

def settle (usage : Usage) (receipt : GoString) : Reservation → Except BudgetError Reservation :=
  fun value =>
    match value.status with
    | .settled =>
      if value.usage ≠ usage || value.receipt ≠ receipt then .error .ledgerConflict else .ok value
    | .held => .ok { value with status := .settled, active := false, usage := usage, receipt := receipt }
    | _ => .error .ledgerConflict

def release : Reservation → Except BudgetError Reservation := fun value =>
  if value.dispatched || value.status = .settled then .error .ledgerConflict
  else .ok { value with status := .released, active := false }

/-- What `Cancel` and `CancelRun` do to one reservation. -/
def releaseUnsent (value : Reservation) : Reservation :=
  if !value.dispatched && value.status ≠ .settled then
    { value with status := .released, active := false }
  else value

def cancel (L : Ledger) : Ledger :=
  { L with cancelled := true, reservations := mapValues releaseUnsent L.reservations }

/-- It stops new admissions in a subtree without affecting siblings. -/
def cancelRun (runID : GoString) (L : Ledger) : Ledger :=
  { L with
    cancelledRuns := insert runID L.cancelledRuns
    reservations := mapValues
      (fun value => if L.contains runID value.runID then releaseUnsent value else value)
      L.reservations }

/-- A related receipt as `SettleWithReceipts` accepts it. -/
def validRelated (runID : GoString) (seen : List GoString) (next : Reservation) : Bool :=
  next.id ≠ [] && next.id ∉ seen && next.runID = runID && next.requestHash ≠ [] &&
    ValidUsage next.requested && next.usage = 0 && GoJson.valid next.receipt && next.dispatched &&
    !next.active && (next.status = .held || next.status = .settled)

/-- The loop of `SettleWithReceipts` over the related receipts. -/
def transferReceipts (runID : GoString) : List GoString → List Reservation →
    Map GoString Reservation → Except BudgetError (Map GoString Reservation)
  | _, [], m => .ok m
  | seen, next :: related, m =>
    if !validRelated runID seen next then .error .invalidUsage
    else match m.lookup next.id with
      | none => transferReceipts runID (next.id :: seen) related (m.insert next.id next)
      | some previous =>
        if previous.runID ≠ next.runID || previous.requestHash ≠ next.requestHash ||
            previous.requested ≠ next.requested ||
            (previous.status ≠ .held && previous.status ≠ .settled) then .error .ledgerConflict
        else if previous.status = .settled then
          transferReceipts runID (next.id :: seen) related m
        else transferReceipts runID (next.id :: seen) related (m.insert next.id next)

/-- It settles a dispatched call and transfers its unfinished effects to separate
receipts of the same Run. -/
def settleWithReceipts (id : GoString) (usage : Usage) (receipt : GoString)
    (related : List Reservation) (L : Ledger) : Except BudgetError Ledger :=
  match L.reservations.lookup id with
  | none => .error .ledgerConflict
  | some current =>
    if !current.dispatched then .error .ledgerConflict
    else match current.status with
      | .settled =>
        -- a replay must not reintroduce already reconciled effects
        if current.usage ≠ usage || current.receipt ≠ receipt then .error .ledgerConflict
        else .ok L
      | .held => do
        let m ← transferReceipts current.runID [id] related L.reservations
        return { L with reservations := m.insert id { current with
          status := .settled, active := false, usage := usage, receipt := receipt } }
      | _ => .error .ledgerConflict

end Ledger

/-! ### One round of a method -/

/-- The methods that update a ledger, with their arguments. -/
inductive Change where
  | registerRun (runID : GoString) (binding : RunBudget)
  | finishRuns (runIDs : List GoString)
  | reserve (request : Reservation) (active : Bool)
  | dispatch (id : GoString)
  | requeueProvenUnsent (id : GoString) (dispatchRevision : UInt64)
  | suspend (id : GoString)
  | settle (id : GoString) (usage : Usage) (receipt : GoString)
  | settleWithReceipts (id : GoString) (usage : Usage) (receipt : GoString)
      (related : List Reservation)
  | release (id : GoString)
  | cancel
  | cancelRun (runID : GoString)
  deriving DecidableEq

namespace Change

/-- The checks of the arguments, before the ledger is read. -/
def check : Change → Option BudgetError
  | registerRun runID binding =>
    if runID = [] || runID = binding.parentRunID || ¬ ValidLimits binding.limits then
      some .invalidUsage
    else none
  | reserve request _ =>
    if request.id = [] || request.runID = [] || request.requestHash = [] ||
        ¬ ValidUsage request.requested then some .invalidUsage
    else none
  | requeueProvenUnsent id dispatchRevision =>
    if dispatchRevision = 0 || ¬ lit "model:" <+: id || id.length ≤ (lit "model:").length then
      some .ledgerConflict
    else none
  | settle _ usage receipt =>
    if ¬ ValidUsage usage || (receipt ≠ [] && !GoJson.valid receipt) then some .invalidUsage
    else none
  | settleWithReceipts _ usage receipt _ =>
    if ¬ ValidUsage usage || !GoJson.valid receipt then some .invalidUsage else none
  | cancelRun runID => if trimSpace runID = [] then some .invalidUsage else none
  | _ => none

/-- The closure of a method, applied to the ledger that was read.  It returns the
new ledger with the error of an admission that is persisted as waiting, and the
method as it will run in the next round: `Reserve` overwrites its captured request. -/
def attempt (order : RangeOrder) (L : Ledger) :
    Change → Change × Except BudgetError (Ledger × Option BudgetError)
  | reserve request active =>
    let (request', result) := L.reserve order request active
    (reserve request' active, result)
  | c@(registerRun runID binding) => (c, (L.registerRun order runID binding).map (·, none))
  | c@(finishRuns runIDs) => (c, (L.finishRuns runIDs).map (·, none))
  | c@(dispatch id) => (c, (L.changeReservation id Ledger.dispatch).map (·, none))
  | c@(requeueProvenUnsent id revision) => (c, (L.requeueProvenUnsent id revision).map (·, none))
  | c@(suspend id) => (c, (L.changeReservation id Ledger.suspend).map (·, none))
  | c@(settle id usage receipt) =>
    (c, (L.changeReservation id (Ledger.settle usage receipt)).map (·, none))
  | c@(settleWithReceipts id usage receipt related) =>
    (c, (L.settleWithReceipts id usage receipt related).map (·, none))
  | c@(release id) => (c, (L.changeReservation id Ledger.release).map (·, none))
  | cancel => (cancel, .ok (L.cancel, none))
  | cancelRun runID => (cancelRun runID, .ok (L.cancelRun runID, none))

end Change

end Budget
