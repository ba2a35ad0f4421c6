/-
The records of the harness: Turns, Invocations, Interactions and Items
(`session.go`, `turn.go`, `invocation.go`, `interaction.go` and `item.go`).

A Turn is the root of one execution tree.  An Invocation is the envelope of one execution
of a capability; its Attempt and its execution reference rotate when it is retried.  An
Interaction is a request for input.  Items are facts in an append-only log of the Turn.
A child Invocation carries the Attempts of its root and of its ancestors, sealed in its
hashed input.
-/
import AgentRuntime.JsonStructs
import AgentRuntime.KernelTypes

namespace Harness

open GoString GoJson Kernel

/-! ### References of the host -/

/-- An identity that the host owns. -/
structure HostRef where
  kind : GoString
  id : GoString
  deriving DecidableEq, Repr

def maxHostRefKindBytes : ℕ := 64
def maxHostRefIDBytes : ℕ := 128

def normalizeHostRef (r : HostRef) : Option HostRef :=
  if !(validUTF8 r.kind && validUTF8 r.id) then none
  else if trimSpace r.kind = [] || trimSpace r.id = [] ||
      (trimSpace r.kind).length > maxHostRefKindBytes ||
      (trimSpace r.id).length > maxHostRefIDBytes then none
  else some ⟨trimSpace r.kind, trimSpace r.id⟩

def validHostRef (r : HostRef) : Bool := (normalizeHostRef r).isSome

/-- A reference that is its own normal form. -/
def normalHostRef (r : HostRef) : Bool := normalizeHostRef r = some r

/-! ### Hashes -/

section Hashes

variable (sha256 : GoString → GoString)

def hashInvocationBytes (value : GoString) : GoString := hexEncode (sha256 value)

/-- `stableID` of the harness: every value is trimmed and ends in a zero byte. -/
def stableID (kind : GoString) (values : List GoString) : GoString :=
  kind ++ lit "_" ++
    (hexEncode (sha256 (values.flatMap fun value => trimSpace value ++ [0]))).take 24

end Hashes

/-! ### Turns -/

inductive TurnStatus where
  | accepted
  | running
  | waitingInput
  | pausedBudget
  | completed
  | failed
  | cancelled
  | other (name : GoString)
  deriving DecidableEq, Repr

def terminalTurnStatus : TurnStatus → Bool
  | .completed => true
  | .failed => true
  | .cancelled => true
  | _ => false

def validTurnStatus : TurnStatus → Bool
  | .other _ => false
  | _ => true

/-- What a Turn keeps of its context checkpoint. -/
structure ContextCheckpointRef where
  id : GoString := []
  generation : Int64 := 0
  revision : Int64 := 0
  lineageHash : GoString := []
  coveredThroughSourceID : GoString := []
  contentHash : GoString := []
  deriving DecidableEq

structure Turn where
  id : GoString
  sessionID : GoString
  hostTurn : HostRef
  configSnapshotID : GoString
  contextCheckpointID : GoString := []
  contextRef : ContextCheckpointRef := {}
  status : TurnStatus
  revision : UInt64
  errorCode : GoString := []
  errorDetail : GoString := []
  createdAt : Time
  updatedAt : Time
  deriving DecidableEq

def validTurn (t : Turn) : Bool :=
  trimSpace t.id ≠ [] && trimSpace t.sessionID ≠ [] && validHostRef t.hostTurn &&
    trimSpace t.configSnapshotID ≠ [] && validTurnStatus t.status && 0 < t.revision &&
    !isZero t.createdAt && !isZero t.updatedAt

def sameTurnIdentity (left right : Turn) : Bool :=
  left.id = right.id && left.sessionID = right.sessionID && left.hostTurn = right.hostTurn &&
    left.configSnapshotID = right.configSnapshotID

/-! ### Invocations -/

inductive ExecutionClass where
  | agent
  | team
  | groupChat
  | workflow
  | application
  | other (name : GoString)
  deriving DecidableEq, Repr

inductive InvocationStatus where
  | accepted
  | running
  | waitingInput
  | pausedBudget
  | completed
  | failed
  | cancelled
  | other (name : GoString)
  deriving DecidableEq, Repr

def validExecutionClass : ExecutionClass → Bool
  | .other _ => false
  | _ => true

def validInvocationStatus : InvocationStatus → Bool
  | .other _ => false
  | _ => true

def terminalInvocationStatus : InvocationStatus → Bool
  | .completed => true
  | .failed => true
  | .cancelled => true
  | _ => false

def retryableInvocationStatus : InvocationStatus → Bool
  | .failed => true
  | .cancelled => true
  | _ => false

def capabilityAgent : GoString := lit "runtime.agent"

structure Invocation where
  id : GoString
  turnID : GoString
  parentItemID : GoString := []
  capabilityKey : GoString
  definitionVersion : GoString := []
  executionClass : ExecutionClass
  input : RawMessage := []
  inputHash : GoString := []
  executionRefID : GoString := []
  status : InvocationStatus
  attempt : ℤ
  outputRefs : List HostRef := []
  errorCode : GoString := []
  errorDetail : GoString := []
  revision : UInt64
  createdAt : Time
  updatedAt : Time
  deriving DecidableEq

def validInvocationIdentity (v : Invocation) : Bool :=
  trimSpace v.id ≠ [] && trimSpace v.turnID ≠ [] && trimSpace v.capabilityKey ≠ []

def validInvocationLifecycle (v : Invocation) : Bool :=
  validExecutionClass v.executionClass && validInvocationStatus v.status && 0 < v.attempt &&
    0 < v.revision && !isZero v.createdAt && !isZero v.updatedAt

/-- The hash belongs to the input; only some Invocations may have none. -/
def validInvocationInput (sha256 : GoString → GoString) (v : Invocation) : Bool :=
  if v.input = [] then
    v.inputHash = [] && !(v.parentItemID ≠ [] && v.executionClass = .agent &&
      v.capabilityKey = capabilityAgent)
  else valid v.input && hashInvocationBytes sha256 v.input = v.inputHash

def validInvocationExecutionAuthority (sha256 : GoString → GoString) (v : Invocation) : Bool :=
  validInvocationIdentity v && validInvocationLifecycle v &&
    !(v.executionRefID = [] && v.status ≠ .accepted) && validInvocationInput sha256 v

def validInvocation (sha256 : GoString → GoString) (v : Invocation) : Bool :=
  validInvocationExecutionAuthority sha256 v && v.outputRefs.all validHostRef

def sameInvocationIdentity (left right : Invocation) : Bool :=
  left.id = right.id && left.turnID = right.turnID && left.parentItemID = right.parentItemID &&
    left.capabilityKey = right.capabilityKey &&
    left.definitionVersion = right.definitionVersion &&
    left.executionClass = right.executionClass && left.input = right.input &&
    left.inputHash = right.inputHash && left.attempt = right.attempt

/-- `InvocationID`. -/
def invocationID (sha256 : GoString → GoString)
    (turnID parentItemID capabilityKey requestID : GoString) : Option GoString :=
  if trimSpace turnID = [] || trimSpace capabilityKey = [] || trimSpace requestID = [] then none
  else some (stableID sha256 (lit "hiv")
    [trimSpace turnID, parentItemID, trimSpace capabilityKey, trimSpace requestID])

/-! ### Interactions -/

inductive InteractionKind where
  | choice
  | confirmation
  | input
  | other (name : GoString)
  deriving DecidableEq, Repr

inductive InteractionStatus where
  | waiting
  | resolved
  | other (name : GoString)
  deriving DecidableEq, Repr

structure Interaction where
  id : GoString
  turnID : GoString
  invocationID : GoString
  parentItemID : GoString := []
  applicationRef : Option HostRef := none
  artifactRefs : List HostRef := []
  key : GoString
  kind : InteractionKind
  schema : RawMessage
  presentation : RawMessage := []
  status : InteractionStatus
  response : RawMessage := []
  revision : UInt64
  createdAt : Time
  updatedAt : Time
  deriving DecidableEq

def validInteractionIdentity (i : Interaction) : Bool :=
  trimSpace i.id ≠ [] && trimSpace i.turnID ≠ [] && trimSpace i.invocationID ≠ [] &&
    trimSpace i.key ≠ []

def validInteractionKind : InteractionKind → Bool
  | .other _ => false
  | _ => true

def validInteractionStatus : InteractionStatus → Bool
  | .other _ => false
  | _ => true

def validInteractionLifecycle (i : Interaction) : Bool :=
  validInteractionKind i.kind && validInteractionStatus i.status && 0 < i.revision &&
    !isZero i.createdAt && !isZero i.updatedAt

def validInteractionJSON (value : RawMessage) (required : Bool) : Bool :=
  if value = [] then !required else valid value

def validInteractionReferences (applicationRef : Option HostRef) (artifactRefs : List HostRef) :
    Bool :=
  applicationRef.all normalHostRef && artifactRefs.all normalHostRef

def validInteraction (i : Interaction) : Bool :=
  validInteractionIdentity i && validInteractionLifecycle i && validInteractionJSON i.schema true &&
    validInteractionJSON i.presentation false && validInteractionJSON i.response false &&
    validInteractionReferences i.applicationRef i.artifactRefs

def sameInteractionIdentity (left right : Interaction) : Bool :=
  left.id = right.id && left.turnID = right.turnID && left.invocationID = right.invocationID &&
    left.parentItemID = right.parentItemID && left.key = right.key && left.kind = right.kind &&
    left.applicationRef = right.applicationRef && left.artifactRefs = right.artifactRefs &&
    left.schema = right.schema && left.presentation = right.presentation

def validResolvedInteraction (i : Interaction) (expectedRevision : UInt64) : Bool :=
  validInteraction i && 0 < expectedRevision && i.status = .resolved && i.response ≠ [] &&
    valid i.response

/-! ### Items -/

inductive ItemKind where
  | userMessage
  | agentRun
  | agentMessage
  | tool
  | approval
  | delegation
  | invocation
  | interaction
  | artifact
  | context
  | diagnostic
  | budget
  | subtask
  | groupChatHandoff
  | other (name : GoString)
  deriving DecidableEq, Repr

inductive ItemStatus where
  | started
  | waiting
  | completed
  | failed
  | cancelled
  | other (name : GoString)
  deriving DecidableEq, Repr

structure Item where
  id : GoString
  turnID : GoString
  seq : ℕ := 0
  kind : ItemKind
  status : ItemStatus
  hostRef : Option HostRef := none
  runID : GoString := []
  invocationID : GoString := []
  parentItemID : GoString := []
  payload : RawMessage := []
  createdAt : Time := 0
  updatedAt : Time := 0
  deriving DecidableEq

def validItemKind : ItemKind → Bool
  | .other _ => false
  | _ => true

def validItemStatus : ItemStatus → Bool
  | .other _ => false
  | _ => true

def defaultJSON (value : RawMessage) : RawMessage :=
  if trimSpace value = [] then lit "\x7b\x7d" else value

def normalizedItemPayload (value : RawMessage) : RawMessage := trimSpace (defaultJSON value)

def validItem (i : Item) : Bool :=
  trimSpace i.id ≠ [] && trimSpace i.turnID ≠ [] && validItemKind i.kind &&
    validItemStatus i.status && i.hostRef.all validHostRef && valid (defaultJSON i.payload)

def sameItemIdentity (left right : Item) : Bool :=
  left.id = right.id && left.turnID = right.turnID && left.kind = right.kind &&
    left.status = right.status && left.runID = right.runID &&
    left.invocationID = right.invocationID && left.parentItemID = right.parentItemID &&
    normalizedItemPayload left.payload = normalizedItemPayload right.payload &&
    left.hostRef = right.hostRef

/-! ### Typed JSON -/

/-- Every member of the name can be decoded into the field, or is `null`. -/
def fieldFits (check : Value → Bool) (name : GoString) (ms : List (GoString × Value)) : Bool :=
  (membersNamed name ms).all fun v => match v with
    | .null => true
    | v => check v

def isText : Value → Bool
  | .string _ => true
  | _ => false

def isTextOrNull : Value → Bool
  | .string _ => true
  | .null => true
  | _ => false

def isTexts : Value → Bool
  | .array items => items.all isTextOrNull
  | _ => false

def isUint64 (v : Value) : Bool := (decodeUint64 0 [v]).isSome

def isInt64 (v : Value) : Bool := (decodeInt64 0 [v]).isSome

/-- An object whose members of these names fit. -/
def isStruct (fields : List (GoString × (Value → Bool))) : Value → Bool
  | .object ms => fields.all fun f => fieldFits f.2 f.1 ms
  | .null => true
  | _ => false

def textMember (name : GoString) (ms : List (GoString × Value)) : GoString :=
  (decodeString [] (membersNamed name ms)).getD []

/-! ### Attempts of ancestors -/

/-- One Attempt of an Invocation. -/
structure ChildAttemptBinding where
  invocationID : GoString
  executionRefID : GoString
  attempt : ℤ
  deriving DecidableEq, Repr

/-- The root Attempt of a child, and the Attempts of all ancestors between them. -/
structure ChildRootBinding where
  root : ChildAttemptBinding
  parents : List ChildAttemptBinding := []
  deriving DecidableEq, Repr

def childRootKey : GoString := lit "harnessRoot"

def invocationAttempt (v : Invocation) : ChildAttemptBinding :=
  ⟨v.id, v.executionRefID, v.attempt⟩

def validChildAttempt (b : ChildAttemptBinding) : Bool :=
  trimSpace b.invocationID ≠ [] && trimSpace b.executionRefID ≠ [] && 0 < b.attempt

/-- The fields that the two kinds of bindings share. -/
def decodeAttempt (ms : List (GoString × Value)) : Option ChildAttemptBinding := do
  let invocationID ← decodeString [] (membersNamed (lit "invocationID") ms)
  let executionRefID ← decodeString [] (membersNamed (lit "executionRefID") ms)
  let attempt ← decodeInt64 0 (membersNamed (lit "attempt") ms)
  return ⟨invocationID, executionRefID, attempt⟩

def decodeParent : Value → Option ChildAttemptBinding
  | .object ms => decodeAttempt ms
  | .null => some ⟨[], [], 0⟩
  | _ => none

/-- The last member of a name that occurs more than once counts. -/
def decodeParents (ms : List (GoString × Value)) : Option (List ChildAttemptBinding) :=
  match (membersNamed (lit "parents") ms).getLast? with
  | none => some []
  | some .null => some []
  | some (.array items) => items.mapM decodeParent
  | some _ => none

def decodeRootBinding : Value → Option ChildRootBinding
  | .object ms => do
    let root ← decodeAttempt ms
    let parents ← decodeParents ms
    return ⟨root, parents⟩
  | .null => some ⟨⟨[], [], 0⟩, []⟩
  | _ => none

/-- The members of a JSON object, each name with its last value. -/
def objectMembers (raw : RawMessage) : Option (List (GoString × Value)) :=
  match parse raw with
  | some (.object ms) => some ms
  | some .null => some []
  | _ => none

/-- `frozenChildRoot`: the binding that the hashed input carries. -/
def frozenChildRoot (sha256 : GoString → GoString) (v : Invocation) : Option ChildRootBinding :=
  if trimSpace v.parentItemID = [] || v.input = [] ||
      hashInvocationBytes sha256 v.input ≠ v.inputHash then none
  else do
    let ms ← objectMembers v.input
    let raw ← ((ms.filter fun m => m.1 = childRootKey).getLast?).map Prod.snd
    let binding ← decodeRootBinding raw
    if validChildAttempt binding.root && binding.parents.all validChildAttempt &&
        (binding.root.invocationID ::
          binding.parents.map ChildAttemptBinding.invocationID).Nodup then some binding
    else none

/-! ### Handoffs -/

/-- The fields of the limits of an agent. -/
def limitFields : List (GoString × (Value → Bool)) :=
  [lit "maxLLMCalls", lit "maxToolCalls", lit "maxHostedToolCalls", lit "maxInputTokens",
    lit "maxOutputTokens", lit "maxTotalTokens", lit "maxOutputBytes", lit "maxStateBytes",
    lit "maxChildRuns", lit "maxCostUnits", lit "maxConcurrentRuns",
    lit "maxConcurrentDescendants"].map fun name => (name, isInt64)

def grantFields : List (GoString × (Value → Bool)) :=
  [(lit "key", isText), (lit "definitionVersion", isText)]

def isGrants : Value → Bool
  | .array items => items.all (isStruct grantFields)
  | _ => false

/-- The fields of a `handoff.Delegation`. -/
def delegationFields : List (GoString × (Value → Bool)) :=
  [(lit "id", isText), (lit "memberID", isText), (lit "memberRevision", isText),
    (lit "roleID", isText), (lit "roleRevision", isUint64), (lit "roleName", isText),
    (lit "instructions", isText), (lit "limits", isStruct limitFields),
    (lit "childRunID", isText), (lit "goal", isText), (lit "model", isText),
    (lit "toolKeys", isTexts), (lit "initialToolKeys", isTexts),
    (lit "hostedToolGrants", isGrants), (lit "status", isText), (lit "errorCode", isText),
    (lit "error", isText)]

/-- The input is a complete Delegation, and the Invocation has the ID that belongs to it. -/
def isHandoffDelegationInvocation (sha256 : GoString → GoString) (v : Invocation) : Bool :=
  if v.parentItemID = [] || v.executionClass ≠ .agent || v.capabilityKey ≠ capabilityAgent ||
      v.input = [] || hashInvocationBytes sha256 v.input ≠ v.inputHash then false
  else match parse v.input with
    | some (.object ms) =>
      isStruct delegationFields (.object ms) && trimSpace (textMember (lit "id") ms) ≠ [] &&
        trimSpace (textMember (lit "memberID") ms) ≠ [] &&
        trimSpace (textMember (lit "childRunID") ms) ≠ [] &&
        trimSpace (textMember (lit "goal") ms) ≠ [] &&
        invocationID sha256 v.turnID v.parentItemID capabilityAgent (textMember (lit "id") ms) =
          some v.id
    | _ => false

/-! ### Relations between Runs -/

/-- One Run owns another (`runrelation.Relation`). -/
structure Relation where
  parentRunID : GoString
  childRunID : GoString
  kind : GoString
  ownerNodeID : GoString
  createdAt : Time
  deriving DecidableEq, Repr

end Harness
