import Mathlib.Data.List.Basic
import MetadataGraph.Proofs.Outcome
import MetadataGraph.Proofs.Store.Chain
import MetadataGraph.Proofs.Store.Clock

/-!
# What a commit does to the chains

A commit carries out its statements one after the other at one valid time. Of one identity only the
last write counts, so that a commit that does not evict the identity pushes at most one revision of
it. We prove:

* `submit_eq_ok_iff`: a submit is accepted exactly when its guards pass, and what it gives then;
* `chain_carriedOut_of_ne`: an identity that no statement names keeps its chain;
* `chain_carriedOut`: an identity that is named and not evicted gets one revision pushed, of a
  record that one of the statements puts;
* `AllRevisions.carriedOut`: what all records have that are stored or put, all revisions have.
-/

namespace MetadataGraph.Store

variable {store : Store} {validTime transactionTime : Instant}

/-! ## One statement -/

@[simp]
theorem chain_apply_put (record : Record) (guard : Guard) (guid : Guid) :
    (store.apply validTime transactionTime (.put record guard)).chain guid =
      if record.guid = guid then (store.chain guid).push record validTime transactionTime
      else store.chain guid := by
  simp only [apply, chain, NameMap.get?_insert]
  split
  · rename_i heq
    subst heq
    rfl
  · rfl

@[simp]
theorem chain_apply_evict (evicted guid : Guid) :
    (store.apply validTime transactionTime (.evict evicted)).chain guid =
      if evicted = guid then [] else store.chain guid := by
  simp only [apply, chain, NameMap.get?_erase]
  split <;> rfl

/-- A statement does not change the chain of another identity than the one it names. -/
theorem chain_apply_of_ne {statement : Statement} {guid : Guid} (h : statement.guid ≠ guid) :
    (store.apply validTime transactionTime statement).chain guid = store.chain guid := by
  cases statement with
  | put record guard => rw [chain_apply_put, if_neg (show record.guid ≠ guid from h)]
  | evict evicted => rw [chain_apply_evict, if_neg (show evicted ≠ guid from h)]

/-- What is current after a put. -/
theorem latest_apply_put (record : Record) (guard : Guard) (guid : Guid) :
    (store.apply validTime transactionTime (.put record guard)).latest guid =
      if record.guid = guid then some record else store.latest guid := by
  unfold latest read
  rw [chain_apply_put]
  split
  · exact Chain.visible?_push_now _ _ _ _
  · rfl

/-- What is current after an eviction. -/
theorem latest_apply_evict (evicted guid : Guid) :
    (store.apply validTime transactionTime (.evict evicted)).latest guid =
      if evicted = guid then none else store.latest guid := by
  unfold latest read
  rw [chain_apply_evict]
  split <;> rfl

/-! ## All statements of a commit -/

/-- An identity that no statement names keeps its chain. -/
theorem chain_foldl_apply_of_ne {statements : List Statement} {guid : Guid}
    (h : ∀ statement ∈ statements, statement.guid ≠ guid) :
    (statements.foldl (apply validTime transactionTime) store).chain guid = store.chain guid := by
  induction statements generalizing store with
  | nil => rfl
  | cons statement rest ih =>
    rw [List.foldl_cons, ih fun later hmem => h later (List.mem_cons_of_mem _ hmem)]
    exact chain_apply_of_ne (h statement List.mem_cons_self)

/-- An identity that is named but not evicted gets one revision pushed, of a record that one of the
statements puts. -/
theorem chain_foldl_apply {statements : List Statement} {guid : Guid}
    (hevict : .evict guid ∉ statements) (hnamed : ∃ statement ∈ statements, statement.guid = guid) :
    ∃ record guard, .put record guard ∈ statements ∧ record.guid = guid ∧
      (statements.foldl (apply validTime transactionTime) store).chain guid =
        (store.chain guid).push record validTime transactionTime := by
  induction statements generalizing store with
  | nil => simp at hnamed
  | cons statement rest ih =>
    rw [List.foldl_cons]
    -- the last statement that names the identity decides
    by_cases hrest : ∃ later ∈ rest, later.guid = guid
    · obtain ⟨record, guard, hmem, hguid, hchain⟩ :=
        @ih (store.apply validTime transactionTime statement)
          (fun hmem => hevict (List.mem_cons_of_mem _ hmem)) hrest
      refine ⟨record, guard, List.mem_cons_of_mem _ hmem, hguid, ?_⟩
      rw [hchain]
      by_cases hfirst : statement.guid = guid
      -- a write of the same commit before the last one leaves no revision
      · cases statement with
        | evict evicted =>
          cases hfirst
          exact absurd List.mem_cons_self hevict
        | put earlier guard' =>
          rw [chain_apply_put, if_pos (show earlier.guid = guid from hfirst), Chain.push_push]
      · rw [chain_apply_of_ne hfirst]
    · have hnone : ∀ later ∈ rest, later.guid ≠ guid :=
        fun later hmem heq => hrest ⟨later, hmem, heq⟩
      obtain ⟨named, hmem, hguid⟩ := hnamed
      rcases List.mem_cons.mp hmem with rfl | hmem
      · cases named with
        | evict evicted =>
          cases hguid
          exact absurd List.mem_cons_self hevict
        | put record guard =>
          refine ⟨record, guard, List.mem_cons_self, hguid, ?_⟩
          rw [chain_foldl_apply_of_ne hnone, chain_apply_put,
            if_pos (show record.guid = guid from hguid)]
      · exact absurd hguid (hnone named hmem)

/-- Evictions leave a chain as it is or remove all of it. -/
theorem chain_foldl_apply_of_evictions {statements : List Statement}
    (h : ∀ statement ∈ statements, ∃ guid, statement = .evict guid) (guid : Guid) :
    (statements.foldl (apply validTime transactionTime) store).chain guid = store.chain guid ∨
      (statements.foldl (apply validTime transactionTime) store).chain guid = [] := by
  induction statements generalizing store with
  | nil => exact Or.inl rfl
  | cons statement rest ih =>
    obtain ⟨evicted, rfl⟩ := h statement List.mem_cons_self
    rw [List.foldl_cons]
    have hrest := @ih (store.apply validTime transactionTime (.evict evicted))
      fun later hmem => h later (List.mem_cons_of_mem _ hmem)
    rw [chain_apply_evict] at hrest
    split at hrest
    · exact Or.inr (or_self_iff.mp hrest)
    · exact hrest

/-! ## Submitting -/

/-- The valid time that a commit gets when the wall clock reads `now`. -/
def commitTime (store : Store) (now : Instant) : Instant := (store.clock.tick now.toMicros).2.1

/-- The store after statements are carried out as one commit, whatever their guards say. -/
def carriedOut (store : Store) (statements : List Statement) (now : Instant) : Store :=
  statements.foldl (apply (store.commitTime now) now)
    { store with clock := (store.clock.tick now.toMicros).2.2 }

/-- An identity that no statement of a commit names keeps its chain. -/
theorem chain_carriedOut_of_ne (store : Store) {statements : List Statement} {guid : Guid}
    (h : ∀ statement ∈ statements, statement.guid ≠ guid) (now : Instant) :
    (store.carriedOut statements now).chain guid = store.chain guid :=
  chain_foldl_apply_of_ne h

/-- An identity that a commit names and does not evict gets one revision pushed. -/
theorem chain_carriedOut (store : Store) {statements : List Statement} {guid : Guid}
    (hevict : .evict guid ∉ statements) (hnamed : ∃ statement ∈ statements, statement.guid = guid)
    (now : Instant) :
    ∃ record guard, .put record guard ∈ statements ∧ record.guid = guid ∧
      (store.carriedOut statements now).chain guid =
        (store.chain guid).push record (store.commitTime now) now :=
  chain_foldl_apply hevict hnamed

/-- A submit is accepted exactly when its guards pass. -/
theorem submit_eq_ok_iff {statements : List Statement} {now : Instant} {next : Store}
    {receipt : Receipt} :
    store.submit statements now = .ok (next, receipt) ↔
      store.checkGuards ∅ statements = .ok () ∧ store.carriedOut statements now = next ∧
        ⟨store.clock.nextId, store.commitTime now, now, statements.length⟩ = receipt := by
  unfold submit
  rw [Outcome.bind_eq_ok_iff]
  constructor
  · rintro ⟨⟨⟩, hguards, hresult⟩
    cases hresult
    exact ⟨hguards, rfl, rfl⟩
  · rintro ⟨hguards, rfl, rfl⟩
    exact ⟨(), hguards, rfl⟩

/-- A submit is refused exactly when its guards are. -/
theorem submit_eq_error_iff {statements : List Statement} {now : Instant} {failure : Failure} :
    store.submit statements now = .error failure ↔
      store.checkGuards ∅ statements = .error failure := by
  unfold submit
  rw [Outcome.bind_eq_error_iff]
  constructor
  · rintro (hguards | ⟨⟨⟩, -, hresult⟩)
    · exact hguards
    · cases hresult
  · exact Or.inl

/-! ## Properties of all revisions -/

/-- Every revision of every identity is of a record with a property. -/
def AllRevisions (p : Record → Prop) (store : Store) : Prop :=
  ∀ guid, ∀ revision ∈ store.chain guid, p revision.data

theorem allRevisions_empty (p : Record → Prop) : empty.AllRevisions p :=
  fun _ _ hmem => absurd hmem List.not_mem_nil

/-- What is current is a record with the property. -/
theorem AllRevisions.of_latest {p : Record → Prop} (h : store.AllRevisions p) {guid : Guid}
    {record : Record} (hlatest : store.latest guid = some record) : p record := by
  obtain ⟨revision, hfind, rfl⟩ := Option.map_eq_some_iff.mp hlatest
  exact h guid revision (List.mem_of_find?_eq_some hfind)

/-- A statement keeps a property of all revisions if what it puts has the property. -/
theorem AllRevisions.apply {p : Record → Prop} (h : store.AllRevisions p) {statement : Statement}
    (hput : ∀ record guard, statement = .put record guard → p record) :
    (store.apply validTime transactionTime statement).AllRevisions p := by
  intro guid
  cases statement with
  | put record guard =>
    rw [chain_apply_put]
    split
    · exact Chain.forall_mem_push (p := fun data _ => p data) (h guid) (hput record guard rfl)
    · exact h guid
  | evict evicted =>
    rw [chain_apply_evict]
    split
    · exact fun _ hmem => absurd hmem List.not_mem_nil
    · exact h guid

/-- A commit keeps a property of all revisions if all that it puts has the property. -/
theorem AllRevisions.carriedOut {p : Record → Prop} (h : store.AllRevisions p)
    {statements : List Statement}
    (hputs : ∀ record guard, .put record guard ∈ statements → p record) (now : Instant) :
    (store.carriedOut statements now).AllRevisions p := by
  have hfold : ∀ ticked : Store, ticked.AllRevisions p →
      (statements.foldl (Store.apply (store.commitTime now) now) ticked).AllRevisions p := by
    induction statements with
    | nil => exact fun _ hticked => hticked
    | cons statement rest ih =>
      intro ticked hticked
      refine ih (fun record guard hmem => hputs record guard (List.mem_cons_of_mem _ hmem)) _
        (hticked.apply fun record guard heq => ?_)
      exact hputs record guard (heq ▸ List.mem_cons_self)
  -- the tick of the clock comes first and leaves the chains as they are
  exact hfold { store with clock := (store.clock.tick now.toMicros).2.2 } h

end MetadataGraph.Store
