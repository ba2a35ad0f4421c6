/-
Scopes of the definition store do not see each other (`workflow/registry.go`,
`workflow/memory_store.go`).

All scopes share the three maps of the store.  What keeps them apart is the key of an entry: the
scope, a zero byte, and what the entry is in its scope.

* **`scopes_isolated`** — what a scope is told does not depend on the calls in another one,
  as long as no key of one scope is a key of the other;
  with a zero byte in an identifier it can be (`scopes_entangled`).
-/
import AgentRuntime.DefinitionStore

namespace Workflow

open GoString FiniteMap List DefinitionStore

variable {C : Contracts} {s t : DefinitionStore} {op : DefinitionOp} {a b : DefinitionScope}
  {S : Set DefinitionScope} {m : DefinitionActivationMutation}

/-! ### Keys -/

/-- No entry of one scope has the key of an entry of the other one. -/
def Apart (a b : DefinitionScope) : Prop :=
  ¬ definitionScopeKey a ++ [0] <+: definitionScopeKey b ++ [0] ∧
  ¬ definitionScopeKey b ++ [0] <+: definitionScopeKey a ++ [0]

theorem key_inj {x y : GoString} (hS : S.Pairwise Apart) (ha : a ∈ S) (hb : b ∈ S)
    (h : definitionScopeKey a ++ 0 :: x = definitionScopeKey b ++ 0 :: y) : a = b ∧ x = y := by
  by_cases hab : a = b
  · subst hab
    rw [append_cancel_left_eq, cons.injEq] at h
    exact ⟨rfl, h.2⟩
  -- both scopes begin the same key, so one of them begins the other
  have hleft : definitionScopeKey a ++ [0] <+: definitionScopeKey a ++ 0 :: x := ⟨x, by simp⟩
  have hright : definitionScopeKey b ++ [0] <+: definitionScopeKey a ++ 0 :: x := ⟨y, by simp [h]⟩
  obtain ⟨hnot, hnot'⟩ := hS ha hb hab
  have hbegins := prefix_or_prefix_of_prefix hleft hright
  exact hbegins.elim (absurd · hnot) (absurd · hnot')

/-- A scope that `PrepareDefinitionScope` returns, with no zero byte in its identifiers. -/
structure Plain (a : DefinitionScope) : Prop where
  accepted : ∃ raw, prepareDefinitionScope raw = some a
  tenantID : 0 ∉ a.tenantID
  actorID : 0 ∉ a.actorID

lemma Plain.kind (h : Plain a) : 0 ∉ a.kind := by
  obtain ⟨_, hraw⟩ := h.accepted
  have hkind : a.kind = definitionScopeSystem ∨ a.kind = definitionScopeTenant ∨
      a.kind = definitionScopeActor := by
    simp only [prepareDefinitionScope] at hraw
    grind
  rcases hkind with hkind | hkind | hkind
  all_goals
    rw [hkind]
    decide +kernel

lemma Plain.eq_of_begins (ha : Plain a) (hb : Plain b)
    (h : definitionScopeKey a ++ [0] <+: definitionScopeKey b ++ [0]) : a = b := by
  obtain ⟨rest, h⟩ := h
  simp only [definitionScopeKey, append_assoc, cons_append] at h
  obtain ⟨hkind, h⟩ := cons_append_inj ha.kind hb.kind h
  obtain ⟨htenant, h⟩ := cons_append_inj ha.tenantID hb.tenantID h
  obtain ⟨hactor, -⟩ := cons_append_inj ha.actorID hb.actorID h
  cases a
  cases b
  rw [DefinitionScope.mk.injEq]
  exact ⟨hkind, htenant, hactor⟩

/-- **Zero bytes in identifiers are what it takes** for scopes to share keys. -/
theorem plain_apart : {a | Plain a}.Pairwise Apart :=
  fun _ ha _ hb hab => ⟨fun h => hab (ha.eq_of_begins hb h), fun h => hab (hb.eq_of_begins ha h).symm⟩

/-- A key of a scope. -/
def Owns (a : DefinitionScope) (k : GoString) : Prop := ∃ rest, k = definitionScopeKey a ++ 0 :: rest

lemma owns_headKey (id : GoString) : Owns a (headKey a id) := ⟨_, rfl⟩

lemma owns_revisionKey (id : GoString) (n : ℤ) : Owns a (revisionKey (headKey a id) n) :=
  ⟨id ++ 0 :: formatInt n, by simp [revisionKey, headKey]⟩

/-! ### Stores that look alike -/

section Agree

variable {ν : Type} {m m' : Map GoString ν} {k : GoString} {v : ν}

/-- Two maps hold the same under the keys of a scope. -/
def Agree (a : DefinitionScope) (m m' : Map GoString ν) : Prop :=
  ∀ k, Owns a k → m.lookup k = m'.lookup k

lemma Agree.insert (h : Agree a m m') : Agree a (m.insert k v) (m'.insert k v) := by
  intro i hi
  by_cases heq : i = k
  · rw [heq, AList.lookup_insert, AList.lookup_insert]
  · rw [lookup_insert_of_ne heq, lookup_insert_of_ne heq, h i hi]

theorem Agree.foreign (h : Agree a m m') (hS : S.Pairwise Apart) (ha : a ∈ S) (hb : b ∈ S)
    (hab : a ≠ b) (hk : Owns b k) : Agree a (m.insert k v) m' := by
  intro i hi
  rw [lookup_insert_of_ne, h i hi]
  rintro rfl
  obtain ⟨_, hi⟩ := hi
  obtain ⟨_, hk⟩ := hk
  exact hab (key_inj hS ha hb (hi.symm.trans hk)).1

lemma Agree.mem (h : Agree a m m') (hk : Owns a k) : k ∈ m ↔ k ∈ m' := by
  rw [← AList.lookup_isSome, h k hk, AList.lookup_isSome]

end Agree

/-- A scope cannot tell the stores apart. -/
structure Alike (a : DefinitionScope) (s t : DefinitionStore) : Prop where
  revisions : Agree a s.revisions t.revisions
  heads : Agree a s.heads t.heads
  requests : Agree a s.requests t.requests

lemma Alike.symm (h : Alike a s t) : Alike a t s :=
  ⟨fun k hk => (h.revisions k hk).symm, fun k hk => (h.heads k hk).symm,
    fun k hk => (h.requests k hk).symm⟩

/-- The scope of a call, as the store prepares it. -/
def DefinitionOp.scope : DefinitionOp → Option DefinitionScope
  | .publish m => prepareDefinitionScope m.revision.scope
  | .setActivation m => prepareDefinitionScope m.scope
  | .getRevision scope _ _ | .getHead scope _ | .listHeads _ scope => prepareDefinitionScope scope

lemma publish_scope {m : DefinitionPublishMutation} {p : PreparedPublish}
    (h : prepareDefinitionPublishMutation C m = some p) :
    prepareDefinitionScope m.revision.scope = some p.revision.scope := by
  simp only [prepareDefinitionPublishMutation, prepareDefinitionRevision] at h
  grind

lemma activation_scope {p : PreparedActivation}
    (h : prepareDefinitionActivationMutation m = some p) :
    prepareDefinitionScope m.scope = some p.scope := by
  simp only [prepareDefinitionActivationMutation] at h
  grind

/-- Entries are kept under their own keys. -/
structure Placed (S : Set DefinitionScope) (s : DefinitionStore) : Prop where
  head : ∀ {k head}, s.heads.lookup k = some head → k = headKey head.scope head.definitionID
  request : ∀ {k r}, s.requests.lookup k = some r → k = requestKey r ∧ r.scope ∈ S

lemma placed_empty : Placed S {} := ⟨fun h => absurd h (by simp), fun h => absurd h (by simp)⟩

lemma DefinitionMove.placed (hmove : DefinitionMove C s op t) (h : Placed S s)
    (hop : ∀ b, op.scope = some b → b ∈ S) : Placed S t := by
  cases hmove with
  | kept => exact h
  | @published _ p hp =>
    refine ⟨fun {k head} hhead => ?_, fun {k r} hr => ?_⟩
    · obtain ⟨rfl, rfl⟩ | ⟨-, hhead⟩ := lookup_insert_cases hhead
      · rw [nextHead]
        cases hold : s.heads.lookup p.key with
        | none => rfl
        | some =>
          have hkey := h.head hold
          exact hkey
      · exact h.head hhead
    · obtain ⟨rfl, rfl⟩ | ⟨-, hr⟩ := lookup_insert_cases hr
      · exact ⟨rfl, hop _ (publish_scope hp)⟩
      · exact h.request hr
  | @activated _ _ _ _ hhead =>
    refine ⟨fun {k head'} hhead' => ?_, h.request⟩
    obtain ⟨rfl, rfl⟩ | ⟨-, hhead'⟩ := lookup_insert_cases hhead'
    · have hkey := h.head hhead
      exact hkey
    · exact h.head hhead'

/-- Calls in other scopes go unnoticed. -/
theorem Alike.foreign {u : DefinitionStore} (h : Alike a s t) (hS : S.Pairwise Apart) (ha : a ∈ S)
    (hmove : DefinitionMove C s op u) (hop : ∀ b, op.scope = some b → a ≠ b ∧ b ∈ S) :
    Alike a u t := by
  cases hmove with
  | kept => exact h
  | @published _ _ hp =>
    obtain ⟨hab, hb⟩ := hop _ (publish_scope hp)
    exact ⟨h.revisions.foreign hS ha hb hab (owns_revisionKey _ _),
      h.heads.foreign hS ha hb hab (owns_headKey _), h.requests.foreign hS ha hb hab ⟨_, rfl⟩⟩
  | @activated _ _ _ hp =>
    obtain ⟨hab, hb⟩ := hop _ (activation_scope hp)
    exact ⟨h.revisions, h.heads.foreign hS ha hb hab (owns_headKey _), h.requests⟩

lemma Alike.publish {m : DefinitionPublishMutation} (h : Alike a s t) (hS : S.Pairwise Apart)
    (ht : Placed S t) (ha : a ∈ S)
    (hscope : prepareDefinitionScope m.revision.scope = some a) :
    (s.publish C m).1 = (t.publish C m).1 ∧ Alike a (s.publish C m).2 (t.publish C m).2 := by
  simp only [DefinitionStore.publish]
  rcases hp : prepareDefinitionPublishMutation C m with _ | p
  · exact ⟨rfl, h⟩
  obtain rfl : a = p.revision.scope := Option.some.inj (hscope.symm.trans (publish_scope hp))
  have hhead : s.heads.lookup p.key = t.heads.lookup p.key := h.heads _ (owns_headKey _)
  have hnext : s.nextHead p = t.nextHead p := by
    rw [nextHead, hhead, nextHead]
  dsimp only
  rw [show s.requests.lookup (requestKey p.revision) = _ from h.requests _ ⟨_, rfl⟩]
  cases hrequest : t.requests.lookup (requestKey p.revision) with
  | some existing =>
    -- the request is one of the scope, so its head is looked up there
    obtain ⟨hkey, hmem⟩ := ht.request hrequest
    have hexisting : p.revision.scope = existing.scope := (key_inj hS ha hmem hkey).1
    dsimp only
    rw [h.heads _ (hexisting ▸ owns_headKey _)]
    split <;> exact ⟨rfl, h⟩
  | none =>
    have hmem : revisionKey p.key p.revision.definition.revision ∈ s.revisions ↔
      revisionKey p.key p.revision.definition.revision ∈ t.revisions :=
        h.revisions.mem (owns_revisionKey _ _)
    simp only [hhead, hnext, hmem]
    by_cases hexpected :
        ((t.heads.lookup p.key).map DefinitionHead.latestRevision).getD 0 ≠ p.expectedRevision
    · simp only [if_pos hexpected]
      exact ⟨trivial, h⟩
    by_cases hfree : revisionKey p.key p.revision.definition.revision ∈ t.revisions
    · simp only [if_neg hexpected, if_pos hfree]
      exact ⟨trivial, h⟩
    · simp only [if_neg hexpected, if_neg hfree, published, hnext]
      exact ⟨trivial, h.revisions.insert, h.heads.insert, h.requests.insert⟩

lemma Alike.setActivation (h : Alike a s t) (hscope : prepareDefinitionScope m.scope = some a) :
    (s.setActivation m).1 = (t.setActivation m).1 ∧
      Alike a (s.setActivation m).2 (t.setActivation m).2 := by
  simp only [DefinitionStore.setActivation]
  rcases hp : prepareDefinitionActivationMutation m with _ | p
  · exact ⟨rfl, h⟩
  obtain rfl : a = p.scope := Option.some.inj (hscope.symm.trans (activation_scope hp))
  have hmem : revisionKey p.key p.targetRevision ∈ s.revisions ↔
    revisionKey p.key p.targetRevision ∈ t.revisions := h.revisions.mem (owns_revisionKey _ _)
  have hhead : s.heads.lookup p.key = t.heads.lookup p.key := h.heads _ (owns_headKey _)
  simp only [hhead, hmem]
  obtain _ | _ := t.heads.lookup p.key
  · exact ⟨rfl, h⟩
  dsimp only
  split_ifs
  · exact ⟨rfl, h⟩
  · exact ⟨rfl, h⟩
  · exact ⟨rfl, h⟩
  · exact ⟨rfl, h.revisions, h.heads.insert, h.requests⟩

instance : Std.Total DefinitionStore.headLE where
  total x y := by
    by_cases hxy : x.definitionID < y.definitionID
    · exact .inl (.inl hxy)
    by_cases hyx : y.definitionID < x.definitionID
    · exact .inr (.inl hyx)
    have hid := Std.Trichotomous.trichotomous _ _ hxy hyx
    exact (List.le_total _ _).imp (fun h => .inr ⟨hid, h⟩) fun h => .inr ⟨hid.symm, h⟩

instance : IsTrans DefinitionHead DefinitionStore.headLE where
  trans x y z hxy hyz := by
    rcases hxy with hxy | ⟨hid, hxy⟩ <;> rcases hyz with hyz | ⟨hid', hyz⟩
    · exact .inl (List.lt_trans hxy hyz)
    · exact .inl (hid' ▸ hxy)
    · exact .inl (hid ▸ hyz)
    · exact .inr ⟨hid.trans hid', List.le_trans hxy hyz⟩

/-- The heads of a scope, in any order. -/
lemma Placed.mem_heads (h : Placed S s) (order : DefinitionStore.HeadOrder) (head : DefinitionHead) :
    head ∈ (order.visit (s.heads.entries.map Sigma.snd)).filter (fun head => head.scope = a) ↔
      head.scope = a ∧ s.heads.lookup (headKey a head.definitionID) = some head := by
  rw [mem_filter, (order.perm _).mem_iff, mem_map, decide_eq_true_iff, and_comm]
  refine and_congr_right fun hscope => ?_
  subst hscope
  constructor
  · rintro ⟨e, he, rfl⟩
    have hlookup := mem_entries.mp he
    rwa [h.head hlookup] at hlookup
  · intro hlookup
    exact ⟨⟨_, head⟩, mem_entries.mpr hlookup, rfl⟩

lemma Placed.nodup_heads (h : Placed S s) : (s.heads.entries.map Sigma.snd).Nodup := by
  refine List.Nodup.map_on ?_ s.heads.nodupKeys.nodup
  rintro ⟨k, head⟩ hk ⟨k', head'⟩ hk' heq
  obtain rfl : head = head' := heq
  obtain rfl : k = k' := (h.head (mem_entries.mp hk)).trans (h.head (mem_entries.mp hk')).symm
  rfl

lemma Alike.listHeads (h : Alike a s t) (hs : Placed S s) (ht : Placed S t)
    (order : DefinitionStore.HeadOrder) (scope : DefinitionScope)
    (hscope : prepareDefinitionScope scope = some a) :
    s.listHeads order scope = t.listHeads order scope := by
  have hmem := fun head => hs.mem_heads (a := a) order head
  have hperm : ((order.visit (s.heads.entries.map Sigma.snd)).filter fun head => head.scope = a).Perm
      ((order.visit (t.heads.entries.map Sigma.snd)).filter fun head => head.scope = a) := by
    refine (perm_ext_iff_of_nodup ?_ ?_).mpr fun head => ?_
    · exact ((order.perm _).nodup_iff.mpr hs.nodup_heads).filter _
    · exact ((order.perm _).nodup_iff.mpr ht.nodup_heads).filter _
    · rw [hmem, ht.mem_heads, h.heads _ (owns_headKey _)]
  simp only [DefinitionStore.listHeads, hscope]
  refine congrArg Except.ok (List.Perm.eq_of_pairwise (fun x y hx hy hxy hyx => ?_)
    (pairwise_insertionSort _ _) (pairwise_insertionSort _ _)
    ((perm_insertionSort _ _).trans (hperm.trans (perm_insertionSort _ _).symm)))
  -- heads of one scope with one identity are the same entry
  rw [mem_insertionSort] at hx hy
  have hid : x.definitionID = y.definitionID := by
    rcases hxy with hlt | ⟨heq, -⟩
    · rcases hyx with hlt' | ⟨heq, -⟩
      · exact absurd hlt' (List.lt_asymm hlt)
      · exact heq.symm
    · exact heq
  have hx := ((hmem x).mp hx).2
  rw [hid, h.heads _ (owns_headKey _), ((ht.mem_heads order y).mp hy).2] at hx
  exact (Option.some.inj hx).symm

/-- **The calls of a scope are answered alike**, and the stores stay alike. -/
theorem Alike.perform (h : Alike a s t) (hS : S.Pairwise Apart) (hs : Placed S s)
    (ht : Placed S t) (ha : a ∈ S) (hscope : op.scope = some a) :
    (s.perform C op).1 = (t.perform C op).1 ∧ Alike a (s.perform C op).2 (t.perform C op).2 := by
  cases op with
  | publish =>
    obtain ⟨hanswer, halike⟩ := h.publish hS ht ha hscope
    exact ⟨congrArg DefinitionAnswer.published hanswer, halike⟩
  | setActivation =>
    obtain ⟨hanswer, halike⟩ := h.setActivation hscope
    exact ⟨congrArg DefinitionAnswer.activated hanswer, halike⟩
  | getRevision scope =>
    refine ⟨congrArg DefinitionAnswer.revision ?_, h⟩
    have hscope : prepareDefinitionScope scope = some a := hscope
    simp [getRevision, hscope, h.revisions _ (owns_revisionKey _ _)]
  | getHead scope =>
    refine ⟨congrArg DefinitionAnswer.head ?_, h⟩
    have hscope : prepareDefinitionScope scope = some a := hscope
    simp [getHead, hscope, h.heads _ (owns_headKey _)]
  | listHeads order scope =>
    exact ⟨congrArg DefinitionAnswer.heads (h.listHeads hs ht order scope hscope), h⟩

/-! ### What a scope is told -/

/-- The answers to the calls in a scope. -/
def DefinitionStore.answers (C : Contracts) (a : DefinitionScope) :
    DefinitionStore → List DefinitionOp → List DefinitionAnswer
  | _, [] => []
  | s, op :: ops =>
    (if op.scope = some a then [(s.perform C op).1] else []) ++ answers C a (s.perform C op).2 ops

lemma answers_without (hS : S.Pairwise Apart) (hs : Placed S s) (ht : Placed S t) (h : Alike a s t)
    (ha : a ∈ S) (hab : a ≠ b) {ops : List DefinitionOp}
    (hscopes : ∀ op ∈ ops, ∀ c, op.scope = some c → c ∈ S) :
    answers C a s ops =
      answers C a t (ops.filter fun op => op.scope ≠ some b) := by
  induction ops generalizing s t with
  | nil => rfl
  | cons op ops ih =>
    have hop := hscopes op mem_cons_self
    replace hscopes : ∀ op ∈ ops, ∀ c, op.scope = some c → c ∈ S :=
      (forall_mem_cons.mp hscopes).2
    have hs' : Placed S (s.perform C op).2 := (perform_move op).placed hs hop
    have ht' : Placed S (t.perform C op).2 := (perform_move op).placed ht hop
    rw [answers]
    by_cases hown : op.scope = some a
    · obtain ⟨hanswer, halike⟩ := h.perform hS hs ht ha hown
      rw [filter_cons_of_pos (by simpa [hown] using hab), answers, hanswer,
        ih hs' ht' halike hscopes]
    have hforeign : ∀ c, op.scope = some c → a ≠ c ∧ c ∈ S :=
      fun c hc => ⟨fun heq => hown (heq ▸ hc), hop c hc⟩
    have hleft : Alike a (s.perform C op).2 t := h.foreign hS ha (perform_move op) hforeign
    rw [if_neg hown, nil_append]
    by_cases hother : op.scope = some b
    · rw [filter_cons_of_neg (by simpa using hother), ih hs' ht hleft hscopes]
    rw [filter_cons_of_pos (by simpa using hother), answers, if_neg hown]
    exact ih hs' ht' (hleft.symm.foreign hS ha (perform_move op) hforeign).symm hscopes

/-- **Scopes do not interfere** as long as they are apart: two histories that differ in the
calls of another scope only are answered alike, and the keys are injective.  Scopes whose
identifiers hold no zero byte are apart. -/
theorem scopes_isolated (C : Contracts) (hS : S.Pairwise Apart) (ha : a ∈ S) (hb : b ∈ S)
    (hab : a ≠ b) (ops ops' : List DefinitionOp)
    (hscopes : ∀ op ∈ ops ++ ops', ∀ c, op.scope = some c → c ∈ S)
    (hsame : ops.filter (fun op => op.scope ≠ some b) = ops'.filter fun op => op.scope ≠ some b) :
    DefinitionStore.answers C a {} ops = DefinitionStore.answers C a {} ops' ∧
    definitionScopeKey a ≠ definitionScopeKey b ∧
    (∀ c ∈ S, ∀ i j m n r r', r.scope = a → r'.scope = c →
      (headKey a i = headKey c j → a = c ∧ i = j) ∧
      (revisionKey (headKey a i) m = revisionKey (headKey c j) n → a = c ∧ i = j ∧ m = n) ∧
      (requestKey r = requestKey r' → a = c ∧ r.idempotencyKey = r'.idempotencyKey)) ∧
    {c | Plain c}.Pairwise Apart := by
  have halike : Alike a {} {} := ⟨fun _ _ => rfl, fun _ _ => rfl, fun _ _ => rfl⟩
  refine ⟨?_, ?_, ?_, plain_apart⟩
  · -- both histories are answered like the one without the calls of the other scope
    obtain ⟨hleft, hright⟩ := forall_mem_append.mp hscopes
    rw [answers_without hS placed_empty placed_empty halike ha hab hleft, hsame,
      ← answers_without hS placed_empty placed_empty halike ha hab hright]
  · intro heq
    exact hab (key_inj hS ha hb (congrArg (· ++ [0]) heq)).1
  rintro c hc i j m n r _ rfl rfl
  refine ⟨key_inj hS ha hc, fun heq => ?_, key_inj hS ha hc⟩
  obtain ⟨hhead, hn⟩ := revisionKey_inj heq
  obtain ⟨hscope, hid⟩ := key_inj hS ha hc hhead
  exact ⟨hscope, hid, hn⟩

/-- An actor does not see what its tenant publishes. -/
theorem scopes_isolated_actor :
    DefinitionStore.answers namedContracts actorScope {}
        [publishNamed tenantScope (lit "n"), .getHead actorScope (lit "d")] =
      DefinitionStore.answers namedContracts actorScope {} [.getHead actorScope (lit "d")] := by
  have hactor : prepareDefinitionScope actorScope = some actorScope := by decide +kernel
  have htenant : prepareDefinitionScope tenantScope = some tenantScope := by decide +kernel
  have ha : Plain actorScope := ⟨⟨_, hactor⟩, by decide +kernel, by decide +kernel⟩
  have hb : Plain tenantScope := ⟨⟨_, htenant⟩, by decide +kernel, by decide +kernel⟩
  have hab : actorScope ≠ tenantScope := by decide +kernel
  have hpublish : (publishNamed tenantScope (lit "n")).scope = some tenantScope := htenant
  have hget : (DefinitionOp.getHead actorScope (lit "d")).scope = some actorScope := hactor
  refine (scopes_isolated namedContracts plain_apart ha hb hab _ _ ?_ ?_).1
  · simp [hpublish, hget, ha, hb]
  · simp [hpublish, hget, hab]

/-- **A zero byte lets one tenant write into another one**: two actors of different tenants have
the same key. -/
theorem scopes_entangled :
    let a : DefinitionScope := ⟨lit "actor", [116], [120, 0, 121]⟩
    let b : DefinitionScope := ⟨lit "actor", [116, 0, 120], [121]⟩
    prepareDefinitionScope a = some a ∧ prepareDefinitionScope b = some b ∧ a ≠ b ∧
      definitionScopeKey a = definitionScopeKey b ∧
      DefinitionStore.getHead {} a (lit "d") = .error .definitionNotFound ∧
      ((DefinitionStore.run namedContracts {} [publishNamed b (lit "n")]).getHead a (lit "d")).isOk := by
  decide +kernel

end Workflow
