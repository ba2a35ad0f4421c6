/-
The registry of Workflow Definitions (`workflow/registry.go`, `workflow/memory_store.go`).

A published Definition is immutable; what moves is the head of its identity, under
compare-and-swap.  Identities live in scopes, and a reference is looked up from the most
specific visible scope to the least specific one.  The store keeps three maps under keys that
are put together from strings: revisions, heads, and the requests that were served.

* **`definition_history`** — revisions are contiguous and final, heads move one version at a
  time, and requests are replayed;
* **`resolveExact_stable_iff`** — when a resolved reference stays resolved: a more specific
  scope can take it over (`resolveExact_shadowed`).
-/
import AgentRuntime.WorkflowDefinition
import AgentRuntime.FiniteMaps
import Mathlib.Data.List.Lex

namespace Workflow

open GoString FiniteMap Option
open Kernel (Time isZero)

/-! ### Scopes -/

structure DefinitionScope where
  kind : GoString := []
  tenantID : GoString := []
  actorID : GoString := []
  deriving DecidableEq, Repr

def definitionScopeSystem : GoString := lit "system"
def definitionScopeTenant : GoString := lit "tenant"
def definitionScopeActor : GoString := lit "actor"

/-- `PrepareDefinitionScope`. -/
def prepareDefinitionScope (scope : DefinitionScope) : Option DefinitionScope :=
  let scope : DefinitionScope :=
    ⟨trimSpace scope.kind, trimSpace scope.tenantID, trimSpace scope.actorID⟩
  if scope.kind = definitionScopeSystem then
    if scope.tenantID ≠ [] ∨ scope.actorID ≠ [] then none else some scope
  else if scope.kind = definitionScopeTenant then
    if scope.tenantID = [] ∨ scope.actorID ≠ [] then none else some scope
  else if scope.kind = definitionScopeActor then
    if scope.tenantID = [] ∨ scope.actorID = [] then none else some scope
  else none

/-- `VisibleDefinitionScopes`: from the most specific one to the least specific one. -/
def visibleDefinitionScopes (scope : DefinitionScope) : Option (List DefinitionScope) :=
  (prepareDefinitionScope scope).map fun normalized =>
    let system : DefinitionScope := { kind := definitionScopeSystem }
    if normalized.kind = definitionScopeSystem then [system]
    else if normalized.kind = definitionScopeTenant then [normalized, system]
    else [normalized, { kind := definitionScopeTenant, tenantID := normalized.tenantID }, system]

/-- `DefinitionScopeKey`. -/
def definitionScopeKey (scope : DefinitionScope) : GoString :=
  scope.kind ++ 0 :: (scope.tenantID ++ 0 :: scope.actorID)

/-! ### Revisions and heads -/

inductive DefinitionAvailability where
  | active
  | disabled
  deriving DecidableEq, Repr

inductive DefinitionPublishMode where
  | activate
  | stage
  deriving DecidableEq, Repr

/-- The availability that a text names. -/
def availabilityOf (text : GoString) : Option DefinitionAvailability :=
  if trimSpace text = lit "active" then some .active
  else if trimSpace text = lit "disabled" then some .disabled
  else none

/-- The mode that a text names. -/
def publishModeOf (text : GoString) : Option DefinitionPublishMode :=
  if trimSpace text = lit "activate" then some .activate
  else if trimSpace text = lit "stage" then some .stage
  else none

structure DefinitionRevision where
  scope : DefinitionScope
  definition : Definition
  publishedBy : GoString
  idempotencyKey : GoString
  requestFingerprint : GoString
  publishedAt : Time
  deriving DecidableEq, Repr

structure DefinitionHead where
  scope : DefinitionScope := {}
  definitionID : GoString := []
  latestRevision : ℤ := 0
  activeRevision : ℤ := 0
  availability : Option DefinitionAvailability := none
  version : UInt64 := 0
  updatedAt : Time := 0
  deriving DecidableEq, Repr

structure DefinitionPublishMutation where
  revision : DefinitionRevision
  expectedRevision : ℤ
  mode : GoString
  deriving DecidableEq, Repr

structure DefinitionActivationMutation where
  scope : DefinitionScope
  definitionID : GoString
  targetRevision : ℤ
  availability : GoString
  expectedVersion : UInt64
  updatedAt : Time
  deriving DecidableEq, Repr

/-- The errors of the package. -/
inductive RegistryError where
  | invalidDefinitionRegistry
  | definitionConflict
  | definitionNotFound
  | definitionHash
  deriving DecidableEq, Repr

/-- `CloneDefinitionRevision`. -/
def cloneDefinitionRevision (revision : DefinitionRevision) : DefinitionRevision :=
  { revision with definition := cloneDefinition revision.definition }

variable (C : Contracts)

/-- `PrepareDefinitionRevision`. -/
def prepareDefinitionRevision (revision : DefinitionRevision) : Option DefinitionRevision :=
  match prepareDefinitionScope revision.scope with
  | none => none
  | some scope =>
    let revision : DefinitionRevision := { revision with
      scope := scope
      publishedBy := trimSpace revision.publishedBy
      idempotencyKey := trimSpace revision.idempotencyKey
      requestFingerprint := trimSpace revision.requestFingerprint
      definition := cloneDefinition revision.definition }
    if revision.publishedBy = [] ∨ revision.idempotencyKey = [] ∨ revision.requestFingerprint = [] ∨
        isZero revision.publishedAt ∨ validateDefinition C revision.definition = false then none
    else some revision

/-- A mutation as it is prepared: its revision and what becomes of the active pointer. -/
structure PreparedPublish where
  revision : DefinitionRevision
  expectedRevision : ℤ
  mode : DefinitionPublishMode

/-- `PrepareDefinitionPublishMutation`. -/
def prepareDefinitionPublishMutation (m : DefinitionPublishMutation) : Option PreparedPublish :=
  match prepareDefinitionRevision C m.revision, publishModeOf m.mode with
  | some revision, some mode =>
    if m.expectedRevision < 0 ∨ revision.definition.revision ≠ m.expectedRevision + 1 ∨
        (m.expectedRevision = 0 ∧ mode ≠ .activate) then none
    else some ⟨revision, m.expectedRevision, mode⟩
  | _, _ => none

structure PreparedActivation where
  scope : DefinitionScope
  definitionID : GoString
  targetRevision : ℤ
  availability : DefinitionAvailability
  expectedVersion : UInt64
  updatedAt : Time

/-- `PrepareDefinitionActivationMutation`. -/
def prepareDefinitionActivationMutation (m : DefinitionActivationMutation) :
    Option PreparedActivation :=
  match prepareDefinitionScope m.scope with
  | none => none
  | some scope =>
    if trimSpace m.definitionID = [] ∨ m.expectedVersion = 0 ∨ isZero m.updatedAt then none
    else match availabilityOf m.availability with
      | some .active =>
        if m.targetRevision ≤ 0 then none
        else some ⟨scope, trimSpace m.definitionID, m.targetRevision, .active, m.expectedVersion,
          m.updatedAt⟩
      | some .disabled =>
        some ⟨scope, trimSpace m.definitionID, 0, .disabled, m.expectedVersion, m.updatedAt⟩
      | none => none

/-! ### The store -/

structure DefinitionStore where
  revisions : Map GoString DefinitionRevision := ∅
  heads : Map GoString DefinitionHead := ∅
  requests : Map GoString DefinitionRevision := ∅

/-- `memoryDefinitionHeadKey`. -/
def headKey (scope : DefinitionScope) (definitionID : GoString) : GoString :=
  definitionScopeKey scope ++ 0 :: definitionID

/-- `memoryDefinitionRevisionKey`, of the key of the head. -/
def revisionKey (head : GoString) (revision : ℤ) : GoString := head ++ 0 :: formatInt revision

/-- `memoryDefinitionRequestKey`. -/
def requestKey (revision : DefinitionRevision) : GoString :=
  definitionScopeKey revision.scope ++ 0 :: revision.idempotencyKey

/-- The key of the head that a mutation is about. -/
def PreparedPublish.key (p : PreparedPublish) : GoString :=
  headKey p.revision.scope p.revision.definition.id

def PreparedActivation.key (p : PreparedActivation) : GoString := headKey p.scope p.definitionID

/-- The head after an accepted change of the activation. -/
def DefinitionHead.activated (head : DefinitionHead) (p : PreparedActivation) : DefinitionHead :=
  { head with
    activeRevision := if p.availability = .active then p.targetRevision else head.activeRevision
    availability := some p.availability
    version := head.version + 1
    updatedAt := p.updatedAt }

namespace DefinitionStore

variable (s : DefinitionStore)

/-- The head after a publication. -/
def nextHead (p : PreparedPublish) : DefinitionHead :=
  let head := (s.heads.lookup p.key).getD {
    scope := p.revision.scope, definitionID := p.revision.definition.id, availability := some .active }
  { head with
    latestRevision := p.revision.definition.revision
    activeRevision :=
      if p.mode = .activate then p.revision.definition.revision else head.activeRevision
    availability := if p.mode = .activate then some .active else head.availability
    version := head.version + 1
    updatedAt := p.revision.publishedAt }

/-- The writes of a publication. -/
def published (p : PreparedPublish) : DefinitionStore where
  revisions := s.revisions.insert (revisionKey p.key p.revision.definition.revision)
    (cloneDefinitionRevision p.revision)
  heads := s.heads.insert p.key (s.nextHead p)
  requests := s.requests.insert (requestKey p.revision) (cloneDefinitionRevision p.revision)

/-- What `Publish` returns: the revision, its head, and whether the request was served before. -/
abbrev Publication : Type := Except RegistryError (DefinitionRevision × DefinitionHead × Bool)

/-- `Publish`. -/
def publish (m : DefinitionPublishMutation) : Publication × DefinitionStore :=
  match prepareDefinitionPublishMutation C m with
  | none => (.error .invalidDefinitionRegistry, s)
  | some p =>
    match s.requests.lookup (requestKey p.revision) with
    | some existing =>
      if existing.requestFingerprint ≠ p.revision.requestFingerprint then
        (.error .definitionConflict, s)
      else (.ok (cloneDefinitionRevision existing,
        (s.heads.lookup (headKey existing.scope existing.definition.id)).getD {}, true), s)
    | none =>
      if ((s.heads.lookup p.key).map DefinitionHead.latestRevision).getD 0 ≠ p.expectedRevision then
        (.error .definitionConflict, s)
      else if revisionKey p.key p.revision.definition.revision ∈ s.revisions then
        (.error .definitionConflict, s)
      else (.ok (cloneDefinitionRevision (cloneDefinitionRevision p.revision), s.nextHead p, false),
        s.published p)

/-- `GetRevision`. -/
def getRevision (scope : DefinitionScope) (definitionID : GoString) (revision : ℤ) :
    Except RegistryError DefinitionRevision :=
  match prepareDefinitionScope scope with
  | none => .error .invalidDefinitionRegistry
  | some scope =>
    if trimSpace definitionID = [] ∨ revision ≤ 0 then .error .invalidDefinitionRegistry
    else match s.revisions.lookup (revisionKey (headKey scope (trimSpace definitionID)) revision) with
      | none => .error .definitionNotFound
      | some item => .ok (cloneDefinitionRevision item)

/-- `GetHead`. -/
def getHead (scope : DefinitionScope) (definitionID : GoString) :
    Except RegistryError DefinitionHead :=
  match prepareDefinitionScope scope with
  | none => .error .invalidDefinitionRegistry
  | some scope =>
    if trimSpace definitionID = [] then .error .invalidDefinitionRegistry
    else match s.heads.lookup (headKey scope (trimSpace definitionID)) with
      | none => .error .definitionNotFound
      | some head => .ok head

/-- `SetActivation`. -/
def setActivation (m : DefinitionActivationMutation) :
    Except RegistryError (DefinitionHead × Bool) × DefinitionStore :=
  match prepareDefinitionActivationMutation m with
  | none => (.error .invalidDefinitionRegistry, s)
  | some p =>
    match s.heads.lookup p.key with
    | none => (.error .definitionNotFound, s)
    | some head =>
      if head.availability = some p.availability ∧
          (p.availability = .disabled ∨ head.activeRevision = p.targetRevision) then (.ok (head, true), s)
      else if head.version ≠ p.expectedVersion then (.error .definitionConflict, s)
      else if p.availability = .active ∧ revisionKey p.key p.targetRevision ∉ s.revisions then
        (.error .definitionNotFound, s)
      else (.ok (head.activated p, false), { s with heads := s.heads.insert p.key (head.activated p) })

/-- Heads in the order of `SortDefinitionHeads`. -/
def headLE (left right : DefinitionHead) : Prop :=
  left.definitionID < right.definitionID ∨ left.definitionID = right.definitionID ∧
    definitionScopeKey left.scope ≤ definitionScopeKey right.scope

instance : DecidableRel headLE := fun _ _ => inferInstanceAs (Decidable (_ ∨ _ ∧ _))

/-- An iteration over the heads visits them in any order. -/
structure HeadOrder where
  visit : List DefinitionHead → List DefinitionHead
  perm : ∀ l, (visit l).Perm l

/-- `ListHeads`. -/
def listHeads (order : HeadOrder) (scope : DefinitionScope) : Except RegistryError (List DefinitionHead) :=
  match prepareDefinitionScope scope with
  | none => .error .invalidDefinitionRegistry
  | some scope => .ok <|
    ((order.visit (s.heads.entries.map Sigma.snd)).filter fun head => head.scope = scope).insertionSort
      headLE

end DefinitionStore

/-! ### Resolution -/

/-- The loop of `ResolveExact` over the scopes. -/
def resolveIn (s : DefinitionStore) (reference : DefinitionReference) :
    List DefinitionScope → Except RegistryError DefinitionRevision
  | [] => .error .definitionNotFound
  | scope :: scopes =>
    match s.getRevision scope reference.id reference.revision with
    | .error .definitionNotFound => resolveIn s reference scopes
    | .error e => .error e
    | .ok published =>
      if published.definition.hash ≠ reference.hash then .error .definitionHash else .ok published

/-- `ResolveExact`. -/
def resolveExact (s : DefinitionStore) (visibility : DefinitionScope) (reference : DefinitionReference) :
    Except RegistryError DefinitionRevision :=
  let reference := normalizeReference reference
  if validDefinitionReference reference = false then .error .invalidDefinitionRegistry
  else match visibleDefinitionScopes visibility with
    | none => .error .invalidDefinitionRegistry
    | some scopes => resolveIn s reference scopes

/-! ### Calls -/

/-- A call of the store. -/
inductive DefinitionOp where
  | publish (m : DefinitionPublishMutation)
  | setActivation (m : DefinitionActivationMutation)
  | getRevision (scope : DefinitionScope) (definitionID : GoString) (revision : ℤ)
  | getHead (scope : DefinitionScope) (definitionID : GoString)
  | listHeads (order : DefinitionStore.HeadOrder) (scope : DefinitionScope)

inductive DefinitionAnswer where
  | published (p : DefinitionStore.Publication)
  | activated (a : Except RegistryError (DefinitionHead × Bool))
  | revision (r : Except RegistryError DefinitionRevision)
  | head (h : Except RegistryError DefinitionHead)
  | heads (l : Except RegistryError (List DefinitionHead))

def DefinitionStore.perform (s : DefinitionStore) : DefinitionOp → DefinitionAnswer × DefinitionStore
  | .publish m => (.published (s.publish C m).1, (s.publish C m).2)
  | .setActivation m => (.activated (s.setActivation m).1, (s.setActivation m).2)
  | .getRevision scope id revision => (.revision (s.getRevision scope id revision), s)
  | .getHead scope id => (.head (s.getHead scope id), s)
  | .listHeads order scope => (.heads (s.listHeads order scope), s)

/-- The store after calls, one after the other; the store serves any number of callers so. -/
def DefinitionStore.run (s : DefinitionStore) (ops : List DefinitionOp) : DefinitionStore :=
  ops.foldl (fun s op => (s.perform C op).2) s

variable {C} {s t : DefinitionStore} {op : DefinitionOp} {k : GoString} {r : DefinitionRevision}
  {m : DefinitionPublishMutation} {p : PreparedActivation} {reference : DefinitionReference}
  {scopes : List DefinitionScope}

/-- A call is an accepted change of the head under a key, not the repetition of one. -/
def DefinitionStore.Changes (C : Contracts) (s : DefinitionStore) (k : GoString) : DefinitionOp → Prop
  | .publish m => ∃ p r head, prepareDefinitionPublishMutation C m = some p ∧ p.key = k ∧
      (s.publish C m).1 = .ok (r, head, false)
  | .setActivation m => ∃ p head, prepareDefinitionActivationMutation m = some p ∧ p.key = k ∧
      (s.setActivation m).1 = .ok (head, false)
  | _ => False

/-- What a call does to the maps. -/
inductive DefinitionMove (C : Contracts) (s : DefinitionStore) : DefinitionOp → DefinitionStore → Prop
  | kept {op : DefinitionOp} (hchanges : ∀ k, ¬ s.Changes C k op) : DefinitionMove C s op s
  | published {m : DefinitionPublishMutation} {p : PreparedPublish}
      (hp : prepareDefinitionPublishMutation C m = some p)
      (hnew : s.requests.lookup (requestKey p.revision) = none)
      (hexpected : ((s.heads.lookup p.key).map DefinitionHead.latestRevision).getD 0 =
        p.expectedRevision)
      (hfree : revisionKey p.key p.revision.definition.revision ∉ s.revisions)
      (hchanges : ∀ k, s.Changes C k (.publish m) ↔ k = p.key) :
      DefinitionMove C s (.publish m) (s.published p)
  | activated {m : DefinitionActivationMutation} {p : PreparedActivation} {head : DefinitionHead}
      (hp : prepareDefinitionActivationMutation m = some p)
      (hhead : s.heads.lookup p.key = some head) (hversion : head.version = p.expectedVersion)
      (htarget : p.availability = .active → revisionKey p.key p.targetRevision ∈ s.revisions)
      (hchanges : ∀ k, s.Changes C k (.setActivation m) ↔ k = p.key) :
      DefinitionMove C s (.setActivation m)
        { s with heads := s.heads.insert p.key (head.activated p) }

/-- `Publish` answers without a change, or it publishes. -/
theorem publish_cases (m : DefinitionPublishMutation) :
    (∃ answer, s.publish C m = (answer, s) ∧ ∀ r head, answer ≠ .ok (r, head, false)) ∨
    ∃ p, prepareDefinitionPublishMutation C m = some p ∧
      s.requests.lookup (requestKey p.revision) = none ∧
      ((s.heads.lookup p.key).map DefinitionHead.latestRevision).getD 0 = p.expectedRevision ∧
      revisionKey p.key p.revision.definition.revision ∉ s.revisions ∧
      s.publish C m = (.ok (cloneDefinitionRevision (cloneDefinitionRevision p.revision), s.nextHead p,
        false), s.published p) := by
  rw [DefinitionStore.publish]
  rcases hp : prepareDefinitionPublishMutation C m with _ | p
  · exact .inl ⟨_, rfl, by simp⟩
  dsimp only
  cases hrequest : s.requests.lookup (requestKey p.revision) with
  | some =>
    dsimp only
    split <;> exact .inl ⟨_, rfl, by simp⟩
  | none =>
    dsimp only
    split
    · exact .inl ⟨_, rfl, by simp⟩
    rename_i hexpected
    split
    · exact .inl ⟨_, rfl, by simp⟩
    rename_i hfree
    exact .inr ⟨p, rfl, hrequest, not_not.mp hexpected, hfree, rfl⟩

/-- `SetActivation` answers without a change, or it moves the head. -/
theorem setActivation_cases (m : DefinitionActivationMutation) :
    (∃ answer, s.setActivation m = (answer, s) ∧ ∀ head, answer ≠ .ok (head, false)) ∨
    ∃ p head, prepareDefinitionActivationMutation m = some p ∧ s.heads.lookup p.key = some head ∧
      head.version = p.expectedVersion ∧
      (p.availability = .active → revisionKey p.key p.targetRevision ∈ s.revisions) ∧
      s.setActivation m = (.ok (head.activated p, false),
        { s with heads := s.heads.insert p.key (head.activated p) }) := by
  rw [DefinitionStore.setActivation]
  rcases hp : prepareDefinitionActivationMutation m with _ | p
  · exact .inl ⟨_, rfl, by simp⟩
  dsimp only
  rcases hhead : s.heads.lookup p.key with _ | head
  · exact .inl ⟨_, rfl, by simp⟩
  dsimp only
  split
  · exact .inl ⟨_, rfl, by simp⟩
  split
  · exact .inl ⟨_, rfl, by simp⟩
  rename_i hversion
  split
  · exact .inl ⟨_, rfl, by simp⟩
  rename_i htarget
  refine .inr ⟨p, head, rfl, hhead, not_not.mp hversion, fun hactive => ?_, rfl⟩
  exact not_not.mp fun hmissing => htarget ⟨hactive, hmissing⟩

/-- **Everything that a call can do.** -/
theorem perform_move (op : DefinitionOp) : DefinitionMove C s op (s.perform C op).2 := by
  cases op with
  | publish m =>
    show DefinitionMove C s _ (s.publish C m).2
    obtain ⟨_, h, hnot⟩ | ⟨p, hp, hnew, hexpected, hfree, h⟩ := publish_cases m
    · rw [h]
      exact .kept fun k ⟨_, _, _, _, _, hanswer⟩ => hnot _ _ (by rw [← hanswer, h])
    rw [h]
    refine .published hp hnew hexpected hfree fun k => ⟨?_, ?_⟩
    · rintro ⟨_, _, _, hp', rfl, -⟩
      rw [some.inj (hp'.symm.trans hp)]
    · rintro rfl
      exact ⟨p, _, _, hp, rfl, congrArg Prod.fst h⟩
  | setActivation m =>
    show DefinitionMove C s _ (s.setActivation m).2
    obtain ⟨_, h, hnot⟩ | ⟨p, _, hp, hhead, hversion, htarget, h⟩ :=
      setActivation_cases m
    · rw [h]
      exact .kept fun k ⟨_, _, _, _, hanswer⟩ => hnot _ (by rw [← hanswer, h])
    rw [h]
    refine .activated hp hhead hversion htarget fun k => ⟨?_, ?_⟩
    · rintro ⟨_, _, hp', rfl, -⟩
      rw [some.inj (hp'.symm.trans hp)]
    · rintro rfl
      exact ⟨p, _, hp, rfl, congrArg Prod.fst h⟩
  | getRevision | getHead | listHeads => exact .kept fun k h => h

/-- What every move keeps holds after any calls. -/
lemma run_induction {P : DefinitionStore → Prop}
    (hstep : ∀ {s op t}, P s → DefinitionMove C s op t → P t) (h : P s) (ops : List DefinitionOp) :
    P (s.run C ops) := by
  induction ops generalizing s with
  | nil => exact h
  | cons op _ ih => exact ih (hstep h (perform_move op))

/-! ### Revisions are final -/

lemma DefinitionMove.revision (h : DefinitionMove C s op t) (hr : s.revisions.lookup k = some r) :
    t.revisions.lookup k = some r := by
  cases h with
  | kept | activated => exact hr
  | published _ _ _ hfree =>
    refine (lookup_insert_of_ne ?_).trans hr
    rintro rfl
    exact hfree (mem_of_lookup hr)

lemma run_revision (hr : s.revisions.lookup k = some r)
    (ops : List DefinitionOp) : (s.run C ops).revisions.lookup k = some r :=
  run_induction (P := fun t => t.revisions.lookup k = some r) (fun h hmove => hmove.revision h) hr ops

/-! ### The history of an identity -/

/-- The number of the newest revision under a key, zero where there is none. -/
def DefinitionStore.latest (s : DefinitionStore) (k : GoString) : ℤ :=
  ((s.heads.lookup k).map DefinitionHead.latestRevision).getD 0

/-- The version of the head under a key, zero where there is none. -/
def DefinitionStore.version (s : DefinitionStore) (k : GoString) : UInt64 :=
  ((s.heads.lookup k).map DefinitionHead.version).getD 0

lemma zero_notMem_formatInt (n : ℤ) : 0 ∉ formatInt n := by
  have hdigits : ∀ m, (0 : UInt8) ∉ formatUint m := by
    intro m hm
    exact absurd (formatUint_digits hm) (by decide)
  rw [formatInt]
  split
  · intro hmem
    exact hdigits _ ((List.mem_cons.mp hmem).resolve_left (by decide))
  · exact hdigits _

lemma formatInt_inj {m n : ℤ} (h : formatInt m = formatInt n) : m = n := by
  have hminus : ∀ a b, 0x2D :: formatUint a ≠ formatUint b := by
    intro a b hab
    have hmem : 0x2D ∈ formatUint b := hab ▸ List.mem_cons_self
    exact absurd (formatUint_digits hmem) (by decide)
  rw [formatInt, formatInt] at h
  split at h <;> split at h
  · have := formatUint_inj (List.cons.inj h).2
    omega
  · exact absurd h (hminus _ _)
  · exact absurd h.symm (hminus _ _)
  · have := formatUint_inj h
    omega

/-- The key of a revision names its head and its number, whatever the identifiers hold. -/
lemma revisionKey_inj {a b : GoString} {m n : ℤ} (h : revisionKey a m = revisionKey b n) :
    a = b ∧ m = n :=
  (append_cons_inj (zero_notMem_formatInt m) (zero_notMem_formatInt n) h).imp_right formatInt_inj

/-- The three maps agree. -/
structure Catalogued (s : DefinitionStore) : Prop where
  contiguous : ∀ k n, revisionKey k n ∈ s.revisions ↔ 1 ≤ n ∧ n ≤ s.latest k
  numbered : ∀ {k n r}, s.revisions.lookup (revisionKey k n) = some r → r.definition.revision = n
  active : ∀ {k head}, s.heads.lookup k = some head →
    1 ≤ head.activeRevision ∧ head.activeRevision ≤ head.latestRevision

lemma catalogued_empty : Catalogued {} where
  contiguous k n := by
    show revisionKey k n ∈ (∅ : Map GoString DefinitionRevision) ↔ 1 ≤ n ∧ n ≤ 0
    simp only [AList.notMem_empty, false_iff]
    omega
  numbered h := absurd h (by simp)
  active h := absurd h (by simp)

lemma prepared_number {p : PreparedPublish} (h : prepareDefinitionPublishMutation C m = some p) :
    p.expectedRevision = m.expectedRevision ∧ 0 ≤ p.expectedRevision ∧
      p.revision.definition.revision = p.expectedRevision + 1 ∧
      (p.expectedRevision = 0 → p.mode = .activate) := by
  rw [prepareDefinitionPublishMutation] at h
  split at h
  · split at h
    · cases h
    rename_i hguard
    push Not at hguard
    cases h
    exact ⟨rfl, hguard.1, hguard.2.1, hguard.2.2⟩
  · cases h

lemma latest_insert (k k' : GoString) (head : DefinitionHead) :
    ((s.heads.insert k' head).lookup k).map DefinitionHead.latestRevision =
      if k = k' then some head.latestRevision
      else (s.heads.lookup k).map DefinitionHead.latestRevision := by
  split
  · rename_i h
    rw [h, AList.lookup_insert, map_some]
  · rename_i h
    rw [lookup_insert_of_ne h]

/-- A publication appends one revision to the history of its key. -/
lemma latest_published (p : PreparedPublish) (k : GoString) :
    (s.published p).latest k = if k = p.key then p.revision.definition.revision else s.latest k := by
  rw [DefinitionStore.latest, DefinitionStore.published, latest_insert]
  split <;> rfl

lemma latest_activated {head : DefinitionHead}
    (h : s.heads.lookup p.key = some head) (k : GoString) :
    DefinitionStore.latest { s with heads := s.heads.insert p.key (head.activated p) } k =
      s.latest k := by
  rw [DefinitionStore.latest, latest_insert, DefinitionStore.latest]
  split
  · rename_i hk
    rw [hk, h]
    rfl
  · rfl

lemma Catalogued.published {p : PreparedPublish}
    (h : Catalogued s) (hp : prepareDefinitionPublishMutation C m = some p)
    (hexpected : s.latest p.key = p.expectedRevision) : Catalogued (s.published p) := by
  obtain ⟨-, _, _, hmode⟩ := prepared_number hp
  refine ⟨fun k n => ?_, fun {k n r} hr => ?_, fun {k head} hhead => ?_⟩
  · have hmem : revisionKey k n ∈ (s.published p).revisions ↔
        (k = p.key ∧ n = p.revision.definition.revision) ∨ revisionKey k n ∈ s.revisions := by
      rw [DefinitionStore.published, AList.mem_insert]
      refine or_congr_left ⟨revisionKey_inj, ?_⟩
      rintro ⟨rfl, rfl⟩
      rfl
    rw [hmem, h.contiguous, latest_published]
    split
    · rename_i hk
      subst hk
      constructor
      · rintro (⟨-, rfl⟩ | hn) <;> omega
      intro _
      by_cases hnew : n = p.revision.definition.revision
      · exact .inl ⟨rfl, hnew⟩
      · exact .inr (by omega)
    · rename_i hk
      exact ⟨fun hn => hn.resolve_left fun hnew => hk hnew.1, .inr⟩
  · obtain ⟨hk, rfl⟩ | ⟨-, hr⟩ := lookup_insert_cases hr
    · exact (revisionKey_inj hk).2.symm
    · exact h.numbered hr
  obtain ⟨rfl, rfl⟩ | ⟨-, hhead⟩ := lookup_insert_cases hhead
  · -- the new head: its active revision is the new one, or the one the old head had
    rw [DefinitionStore.nextHead]
    dsimp only
    split
    · omega
    rename_i hstage
    rcases hold : s.heads.lookup p.key with _ | old
    · rw [DefinitionStore.latest, hold] at hexpected
      exact absurd (hmode hexpected.symm) hstage
    rw [DefinitionStore.latest, hold] at hexpected
    have hlatest : old.latestRevision = p.expectedRevision := hexpected
    have hactive := h.active hold
    simp only [getD_some]
    omega
  · exact h.active hhead

lemma Catalogued.activated {head : DefinitionHead} (h : Catalogued s)
    (hhead : s.heads.lookup p.key = some head)
    (htarget : p.availability = .active → revisionKey p.key p.targetRevision ∈ s.revisions) :
    Catalogued { s with heads := s.heads.insert p.key (head.activated p) } := by
  refine ⟨fun k n => ?_, h.numbered, fun {k head'} hhead' => ?_⟩
  · rw [latest_activated hhead]
    exact h.contiguous k n
  obtain ⟨rfl, rfl⟩ | ⟨-, hhead'⟩ := lookup_insert_cases hhead'
  · show 1 ≤ (if p.availability = .active then p.targetRevision else head.activeRevision) ∧
      (if p.availability = .active then p.targetRevision else head.activeRevision) ≤
        head.latestRevision
    split
    · rename_i hactive
      have hrange := (h.contiguous _ _).mp (htarget hactive)
      rwa [DefinitionStore.latest, hhead] at hrange
    · exact h.active hhead
  · exact h.active hhead'

lemma DefinitionMove.catalogued (h : Catalogued s)
    (hmove : DefinitionMove C s op t) : Catalogued t := by
  cases hmove with
  | kept => exact h
  | published hp _ hexpected => exact h.published hp hexpected
  | activated _ hhead _ htarget => exact h.activated hhead htarget

/-- What a call expects of the head that it changes is so. -/
def DefinitionStore.Expected (s : DefinitionStore) (k : GoString) : DefinitionOp → Prop
  | .publish m => m.expectedRevision = s.latest k
  | .setActivation m => m.expectedVersion = s.version k
  | _ => True

lemma prepared_version {m : DefinitionActivationMutation}
    (h : prepareDefinitionActivationMutation m = some p) : p.expectedVersion = m.expectedVersion := by
  rw [prepareDefinitionActivationMutation] at h
  split at h
  · cases h
  split at h
  · cases h
  split at h
  · split at h
    · cases h
    · rw [← some.inj h]
  · rw [← some.inj h]
  · cases h

lemma version_insert (heads : Map GoString DefinitionHead) (k : GoString) (head : DefinitionHead) :
    (((heads.insert k head).lookup k).map DefinitionHead.version).getD 0 = head.version := by
  rw [AList.lookup_insert]
  rfl

/-- An accepted change meets the head that it expects and moves its version on by one. -/
lemma DefinitionMove.version (h : DefinitionMove C s op t)
    (hk : s.Changes C k op) : s.Expected k op ∧ t.version k = s.version k + 1 := by
  cases h with
  | kept hchanges => exact absurd hk (hchanges k)
  | @published _ p hp _ hexpected _ hchanges =>
    obtain rfl := (hchanges k).mp hk
    refine ⟨(prepared_number hp).1.symm.trans hexpected.symm, ?_⟩
    rw [DefinitionStore.version, DefinitionStore.published, version_insert, DefinitionStore.nextHead,
      DefinitionStore.version]
    cases s.heads.lookup p.key <;> rfl
  | @activated _ p head hp hhead hversion _ hchanges =>
    obtain rfl := (hchanges k).mp hk
    have hcurrent : s.version p.key = head.version := by
      rw [DefinitionStore.version, hhead]
      rfl
    refine ⟨(prepared_version hp).symm.trans (hversion.symm.trans hcurrent.symm), ?_⟩
    rw [hcurrent, DefinitionStore.version, version_insert]
    rfl

lemma DefinitionMove.head (h : DefinitionMove C s op t)
    (hk : ¬ s.Changes C k op) : t.heads.lookup k = s.heads.lookup k := by
  cases h with
  | kept => rfl
  | published _ _ _ _ hchanges | activated _ _ _ _ hchanges =>
    exact lookup_insert_of_ne fun heq => hk ((hchanges k).mpr heq)

lemma DefinitionMove.still (h : DefinitionMove C s op t)
    (hkeys : ∀ k, ¬ s.Changes C k op) : t = s := by
  cases h with
  | kept => rfl
  | published _ _ _ _ hchanges | activated _ _ _ _ hchanges =>
    exact absurd ((hchanges _).mpr rfl) (hkeys _)

/-! ### Requests are served once -/

lemma DefinitionMove.request (h : DefinitionMove C s op t) (hr : s.requests.lookup k = some r) :
    t.requests.lookup k = some r := by
  cases h with
  | kept | activated => exact hr
  | published _ hnew =>
    refine (lookup_insert_of_ne ?_).trans hr
    rintro rfl
    rw [hr] at hnew
    cases hnew

/-- What an accepted publication leaves in the store, and answers. -/
lemma publish_accepted {head : DefinitionHead} (h : s.publish C m = (.ok (r, head, false), t)) :
    ∃ stored, cloneDefinitionRevision stored = r ∧ requestKey stored = requestKey r ∧
      stored.requestFingerprint = r.requestFingerprint ∧
      t.requests.lookup (requestKey stored) = some stored ∧
      t.revisions.lookup (revisionKey (headKey r.scope r.definition.id) r.definition.revision) =
        some stored := by
  obtain ⟨_, hcase, hnot⟩ | ⟨p, -, -, -, -, hcase⟩ := publish_cases m
  · rw [hcase] at h
    exact absurd (congrArg Prod.fst h) (hnot _ _)
  rw [hcase] at h
  cases h
  refine ⟨cloneDefinitionRevision p.revision, rfl, rfl, rfl, AList.lookup_insert _, ?_⟩
  exact AList.lookup_insert _

/-- A request that was served once is answered from the books. -/
lemma publish_repeated {p : PreparedPublish}
    {stored : DefinitionRevision} (hp : prepareDefinitionPublishMutation C m = some p)
    (h : s.requests.lookup (requestKey p.revision) = some stored) :
    s.publish C m = if p.revision.requestFingerprint = stored.requestFingerprint then
        (.ok (cloneDefinitionRevision stored,
          (s.heads.lookup (headKey stored.scope stored.definition.id)).getD {}, true), s)
      else (.error .definitionConflict, s) := by
  rw [DefinitionStore.publish, hp]
  dsimp only
  rw [h]
  dsimp only
  by_cases hsame : p.revision.requestFingerprint = stored.requestFingerprint
  · rw [if_pos hsame, if_neg (not_not.mpr hsame.symm)]
  · rw [if_neg hsame, if_pos (Ne.symm hsame)]

/-- **The history of every identity is right** after any calls: its revisions are numbered from
one without a gap, the active one is among them, and none ever changes; a head moves by accepted
changes only, each of which met the revision or version that it expected and moves the version on
by one; and a publication that is repeated is answered with the revision that was stored, or
refused when it is another one, and changes nothing. -/
theorem definition_history (C : Contracts) (ops : List DefinitionOp) :
    let s := DefinitionStore.run C {} ops
    (∀ scope id,
      (∀ n, revisionKey (headKey scope id) n ∈ s.revisions ↔ 1 ≤ n ∧ n ≤ s.latest (headKey scope id)) ∧
      (∀ n r, s.revisions.lookup (revisionKey (headKey scope id) n) = some r →
        r.definition.revision = n ∧
        ∀ more, (s.run C more).revisions.lookup (revisionKey (headKey scope id) n) = some r) ∧
      (∀ head, s.heads.lookup (headKey scope id) = some head →
        revisionKey (headKey scope id) head.activeRevision ∈ s.revisions) ∧
      ∀ op, (s.Changes C (headKey scope id) op → s.Expected (headKey scope id) op ∧
          (s.perform C op).2.version (headKey scope id) = s.version (headKey scope id) + 1) ∧
        (¬ s.Changes C (headKey scope id) op →
          (s.perform C op).2.heads.lookup (headKey scope id) = s.heads.lookup (headKey scope id))) ∧
    (∀ op, (∀ k, ¬ s.Changes C k op) → (s.perform C op).2 = s) ∧
    ∀ m r head t, s.publish C m = (.ok (r, head, false), t) →
      ∀ more m' p', prepareDefinitionPublishMutation C m' = some p' →
        p'.revision.scope = r.scope → p'.revision.idempotencyKey = r.idempotencyKey →
        (p'.revision.requestFingerprint = r.requestFingerprint →
          ∃ head', (t.run C more).publish C m' = (.ok (r, head', true), t.run C more)) ∧
        (p'.revision.requestFingerprint ≠ r.requestFingerprint →
          (t.run C more).publish C m' = (.error .definitionConflict, t.run C more)) := by
  intro s
  have hreg : Catalogued s :=
    run_induction DefinitionMove.catalogued catalogued_empty ops
  refine ⟨fun scope id => ⟨hreg.contiguous _, fun n r hr => ⟨hreg.numbered hr, run_revision hr⟩,
    fun head hhead => ?_, fun op => ⟨(perform_move op).version, (perform_move op).head⟩⟩,
    fun op => (perform_move op).still, ?_⟩
  · refine (hreg.contiguous _ _).mpr ?_
    rw [DefinitionStore.latest, hhead]
    exact hreg.active hhead
  intro m r _ t hpublish more _ p' hp' hscope hkey
  obtain ⟨stored, rfl, hrequest, hfingerprint, hlookup, -⟩ := publish_accepted hpublish
  have hsame : requestKey p'.revision = requestKey stored := by
    rw [requestKey, hscope, hkey]
    rfl
  have hstored : (t.run C more).requests.lookup (requestKey p'.revision) = some stored := by
    rw [hsame]
    exact run_induction (P := fun t => t.requests.lookup (requestKey stored) = some stored)
      (fun h hmove => hmove.request h) hlookup more
  rw [publish_repeated hp' hstored]
  constructor
  · intro heq
    exact ⟨_, if_pos heq⟩
  · intro hne
    exact if_neg hne

/-! ### A reference that was resolved -/

/-- The first scope with the revision answers. -/
def firstPublished (s : DefinitionStore) (reference : DefinitionReference)
    (scopes : List DefinitionScope) : Option DefinitionRevision :=
  scopes.findSome? fun scope => (s.getRevision scope reference.id reference.revision).toOption

/-- The scopes before the one that answers. -/
def scopesBefore (s : DefinitionStore) (reference : DefinitionReference)
    (scopes : List DefinitionScope) : List DefinitionScope :=
  scopes.takeWhile fun scope => (s.getRevision scope reference.id reference.revision).toOption.isNone

/-- Reading a revision: what the books hold is final, what they do not hold may come. -/
lemma getRevision_run (scope : DefinitionScope) (id : GoString) (n : ℤ)
    (ops : List DefinitionOp) :
    (s.run C ops).getRevision scope id n = s.getRevision scope id n ∨
      s.getRevision scope id n = .error .definitionNotFound ∧
        ∃ r, (s.run C ops).getRevision scope id n = .ok r := by
  simp only [DefinitionStore.getRevision]
  obtain _ | scope := prepareDefinitionScope scope
  · exact .inl rfl
  dsimp only
  split
  · exact .inl rfl
  cases hs : s.revisions.lookup (revisionKey (headKey scope (trimSpace id)) n) with
  | some =>
    rw [run_revision hs ops]
    exact .inl rfl
  | none =>
    cases (s.run C ops).revisions.lookup (revisionKey (headKey scope (trimSpace id)) n) with
    | none => exact .inl rfl
    | some => exact .inr ⟨rfl, _, rfl⟩

lemma hash_of_resolveIn (h : resolveIn s reference scopes = .ok r) :
    r.definition.hash = reference.hash := by
  induction scopes with
  | nil => cases h
  | cons _ _ ih =>
    rw [resolveIn] at h
    split at h
    · exact ih h
    · cases h
    split at h
    · cases h
    rename_i hhash
    cases h
    exact not_not.mp hhash

/-- A resolved reference after further calls, from one scope to the next. -/
lemma resolveIn_stable (h : resolveIn s reference scopes = .ok r) (ops : List DefinitionOp) :
    (∃ r', resolveIn (s.run C ops) reference scopes = .ok r' ∧ r'.definition = r.definition) ↔
      ∀ r', firstPublished (s.run C ops) reference (scopesBefore s reference scopes) = some r' →
        r'.definition = r.definition := by
  have hhash := hash_of_resolveIn h
  induction scopes with
  | nil => cases h
  | cons scope scopes ih =>
    have hread := getRevision_run (C := C) (s := s) scope reference.id reference.revision ops
    rw [resolveIn] at h
    cases hget : s.getRevision scope reference.id reference.revision with
    | ok published =>
      -- this scope answered, and it answers still
      have hlater : (s.run C ops).getRevision scope reference.id reference.revision =
          .ok published := by
        rw [hget] at hread
        exact hread.resolve_right fun hnone => nomatch hnone.1
      rw [hget] at h
      dsimp only at h
      split at h
      · cases h
      rename_i hsame
      obtain rfl := Except.ok.inj h
      have hbefore : scopesBefore s reference (scope :: scopes) = [] := by
        rw [scopesBefore, List.takeWhile_cons, hget]
        rfl
      rw [hbefore, resolveIn, hlater]
      dsimp only
      rw [if_neg hsame]
      exact ⟨fun _ r' hr' => (nomatch hr'), fun _ => ⟨published, rfl, rfl⟩⟩
    | error e =>
      rw [hget] at h
      cases e with
      | invalidDefinitionRegistry | definitionConflict | definitionHash => cases h
      | definitionNotFound =>
        have hbefore : scopesBefore s reference (scope :: scopes) =
            scope :: scopesBefore s reference scopes := by
          rw [scopesBefore, List.takeWhile_cons, hget]
          rfl
        rw [hbefore, resolveIn, firstPublished, List.findSome?_cons]
        rw [hget] at hread
        obtain hlater | ⟨-, published, hlater⟩ := hread
        · rw [hlater]
          exact ih h
        -- the scope has the revision by now, and it answers before the others are asked
        rw [hlater]
        dsimp only [Except.toOption]
        constructor
        · rintro ⟨_, hr', hdefinition⟩ _ ⟨⟩
          split at hr'
          · cases hr'
          · cases hr'
            exact hdefinition
        intro hall
        have hdefinition := hall published rfl
        rw [if_neg (not_not.mpr (by rw [hdefinition, hhash]))]
        exact ⟨published, rfl, hdefinition⟩

/-- The visible scopes that are more specific than the one that answers a reference. -/
def moreSpecific (s : DefinitionStore) (visibility : DefinitionScope)
    (reference : DefinitionReference) : List DefinitionScope :=
  scopesBefore s (normalizeReference reference) ((visibleDefinitionScopes visibility).getD [])

/-- **When a resolved reference stays resolved**: whatever calls follow, `ResolveExact` still
finds the same Definition exactly if the first of the more specific visible scopes that has
the revision by then, if there is one, has the same Definition. -/
theorem resolveExact_stable_iff {visibility : DefinitionScope} {reference : DefinitionReference}
    {r : DefinitionRevision} (h : resolveExact s visibility reference = .ok r)
    (ops : List DefinitionOp) :
    (∃ r', resolveExact (s.run C ops) visibility reference = .ok r' ∧ r'.definition = r.definition) ↔
      ∀ r', firstPublished (s.run C ops) (normalizeReference reference)
          (moreSpecific s visibility reference) = some r' → r'.definition = r.definition := by
  simp only [resolveExact, moreSpecific] at h ⊢
  split at h
  · cases h
  rename_i hvalid
  rw [if_neg hvalid]
  cases hscopes : visibleDefinitionScopes visibility with
  | none =>
    rw [hscopes] at h
    cases h
  | some =>
    rw [hscopes] at h
    exact resolveIn_stable h ops

/-! ### A reference that is taken over -/

/-- The hash of a Definition is its name. -/
def namedContracts : Contracts where
  compiles _ := true
  violation _ _ := none
  definitionHash draft := some draft.name

def actorScope : DefinitionScope := ⟨lit "actor", lit "t", lit "a"⟩
def tenantScope : DefinitionScope := ⟨lit "tenant", lit "t", []⟩

/-- The first revision of a Definition that returns at once. -/
def publishNamed (scope : DefinitionScope) (name : GoString) : DefinitionOp :=
  .publish {
    revision := {
      scope
      definition := {
        id := lit "d", revision := 1, name, inputSchema := lit "true", outputSchema := lit "true"
        nodes := [{ id := lit "end", body := .ret { value := lit "2" } }]
        limits := ⟨0, 0, 0, 0, 0, 0, 0, 0, 0⟩
        policy := { maxCostUnits := 9 }
        hash := name }
      publishedBy := lit "p"
      idempotencyKey := name
      requestFingerprint := name
      publishedAt := 1 }
    expectedRevision := 0
    mode := lit "activate" }

def namedReference : DefinitionReference := { id := lit "d", revision := 1, hash := lit "n" }

def tenantStore : DefinitionStore :=
  DefinitionStore.run namedContracts {} [publishNamed tenantScope (lit "n")]

/-- **A resolved reference is taken over**: once the actor publishes another Definition under the
same identity and revision, the one of the tenant is not found any more. -/
theorem resolveExact_shadowed :
    (resolveExact tenantStore actorScope namedReference).isOk = true ∧
      resolveExact (tenantStore.run namedContracts [publishNamed actorScope (lit "m")]) actorScope
        namedReference = .error .definitionHash := by
  decide +kernel

/-- It stays while the actor publishes the same Definition. -/
theorem resolveExact_stable_same :
    ∃ r, resolveExact tenantStore actorScope namedReference = .ok r ∧
      ∃ r', resolveExact (tenantStore.run namedContracts [publishNamed actorScope (lit "n")]) actorScope
        namedReference = .ok r' ∧ r'.definition = r.definition := by
  have hok : (resolveExact tenantStore actorScope namedReference).isOk = true := by decide +kernel
  have hsame : (firstPublished (tenantStore.run namedContracts [publishNamed actorScope (lit "n")])
      (normalizeReference namedReference) (moreSpecific tenantStore actorScope namedReference)).all
        (fun r' => (resolveExact tenantStore actorScope namedReference).toOption.any
          fun r => r'.definition = r.definition) = true := by decide +kernel
  cases hr : resolveExact tenantStore actorScope namedReference with
  | error =>
    rw [hr] at hok
    cases hok
  | ok r =>
    refine ⟨r, rfl, (resolveExact_stable_iff hr _).mpr fun r' hr' => ?_⟩
    rw [hr', hr] at hsame
    exact of_decide_eq_true hsame

end Workflow
