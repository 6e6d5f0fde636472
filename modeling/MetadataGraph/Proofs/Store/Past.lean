import MetadataGraph.Proofs.Store.Reachable

/-!
# The past does not change

A commit adds revisions from its valid time on, ends others there and enters relationships in the
index. What a read, a query or a traversal sees at an earlier time stays as it was, unless the
commit evicts identities with all their past. We prove:

* `read_carriedOut_of_lt`: before its valid time a commit only changes what is seen of the
  identities that it evicts;
* `SameAt.of_submit`: without evictions it changes nothing there;
* `past_immutable`: the same over runs of commits.
-/

namespace MetadataGraph.Store

variable {store next last : Store}

/-- Reads, queries and traversals at a time give the same in both stores. -/
structure SameAt (time : Instant) (store next : Store) : Prop where
  /-- Reads see the same. -/
  read : ∀ guid, next.read guid (.atTime time) = store.read guid (.atTime time)
  /-- Queries find the same. -/
  query : ∀ query, next.query query (.atTime time) = store.query query (.atTime time)
  /-- Traversals find the same. -/
  traverse : ∀ node, next.traverse node (.atTime time) = store.traverse node (.atTime time)

theorem SameAt.refl (time : Instant) (store : Store) : store.SameAt time store :=
  ⟨fun _ => rfl, fun _ => rfl, fun _ => rfl⟩

theorem SameAt.trans {time : Instant} (h : store.SameAt time next) (h' : next.SameAt time last) :
    store.SameAt time last where
  read guid := (h'.read guid).trans (h.read guid)
  query query := (h'.query query).trans (h.query query)
  traverse node := (h'.traverse node).trans (h.traverse node)

/-- In coherent stores it is enough that reads see the same. -/
theorem SameAt.of_read {time : Instant} (h : store.Coherent) (hnext : next.Coherent)
    (hread : ∀ guid, next.read guid (.atTime time) = store.read guid (.atTime time)) :
    store.SameAt time next where
  read := hread
  query := query_congr hread
  traverse := hnext.traverse_congr h hread

/-! ## One commit -/

/-- Before its valid time a commit only changes what is seen of the identities that it evicts. -/
theorem Reachable.read_carriedOut_of_lt (h : store.Reachable) {statements : List Statement}
    {now time : Instant} (hlt : time < store.commitTime now) {guid : Guid}
    (hevict : .evict guid ∉ statements) :
    (store.carriedOut statements now).read guid (.atTime time) =
      store.read guid (.atTime time) := by
  unfold read
  by_cases hnamed : ∃ statement ∈ statements, statement.guid = guid
  · obtain ⟨record, -, -, -, hchain⟩ := store.chain_carriedOut hevict hnamed now
    rw [hchain]
    exact (h.coherent.linked guid).visible?_push_of_lt hlt record now
  · rw [chain_carriedOut_of_ne]
    exact fun statement hmem heq => hnamed ⟨statement, hmem, heq⟩

/-- Before its valid time a commit without evictions changes nothing. -/
theorem SameAt.of_submit (h : store.Reachable) {statements : List Statement} {now : Instant}
    {receipt : Receipt} (hsubmit : store.submit statements now = .ok (next, receipt))
    (hevict : ∀ guid, .evict guid ∉ statements) {time : Instant}
    (hlt : time < receipt.validTime) : store.SameAt time next := by
  apply SameAt.of_read h.coherent (h.of_submit hsubmit).coherent
  intro guid
  obtain ⟨-, rfl, rfl⟩ := submit_eq_ok_iff.mp hsubmit
  exact h.read_carriedOut_of_lt hlt (hevict guid)

/-! ## Runs of commits -/

/-- Accepted submits without evictions that lead from one store to another, with their receipts. -/
inductive EvictFreeRun : Store → List Receipt → Store → Prop
  | nil (store : Store) : EvictFreeRun store [] store
  | cons {store next last : Store} {statements : List Statement} {now : Instant}
      {receipt : Receipt} {receipts : List Receipt}
      (hsubmit : store.submit statements now = .ok (next, receipt))
      (hevict : ∀ guid, .evict guid ∉ statements) (hrest : EvictFreeRun next receipts last) :
      EvictFreeRun store (receipt :: receipts) last

/-- No commit of a run is earlier than a time that the clock has reached at its start. -/
theorem EvictFreeRun.le_validTime {receipts : List Receipt} (h : EvictFreeRun store receipts last)
    {time : Instant} (hreached : store.clock.Reached time) :
    ∀ receipt ∈ receipts, time ≤ receipt.validTime := by
  induction h with
  | nil store => simp
  | @cons store next last statements now receipt receipts hsubmit hevict hrest ih =>
    have hfirst : time ≤ receipt.validTime := by
      obtain ⟨-, -, rfl⟩ := submit_eq_ok_iff.mp hsubmit
      exact hreached.le_tick now.toMicros
    intro later hmem
    rcases List.mem_cons.mp hmem with rfl | hmem
    · exact hfirst
    · exact ih ((reached_of_submit hsubmit).of_le hfirst) later hmem

/-- Before the valid times of all its commits a run changes nothing. -/
theorem EvictFreeRun.sameAt {receipts : List Receipt} (h : EvictFreeRun store receipts last)
    (hreachable : store.Reachable) {time : Instant}
    (hlt : ∀ receipt ∈ receipts, time < receipt.validTime) : store.SameAt time last := by
  induction h with
  | nil store => exact SameAt.refl time store
  | @cons store next last statements now receipt receipts hsubmit hevict hrest ih =>
    have hfirst : store.SameAt time next :=
      SameAt.of_submit hreachable hsubmit hevict (hlt receipt List.mem_cons_self)
    refine hfirst.trans (ih (hreachable.of_submit hsubmit) ?_)
    exact fun later hmem => hlt later (List.mem_cons_of_mem _ hmem)

/-- What is seen before the valid time of a commit stays as it was, of every identity that the
commit does not evict, and altogether over any run of commits without evictions. -/
theorem past_immutable (hreachable : store.Reachable) :
    (∀ statements now next receipt, store.submit statements now = .ok (next, receipt) →
      ∀ time, time < receipt.validTime →
        (∀ guid, .evict guid ∉ statements →
          next.read guid (.atTime time) = store.read guid (.atTime time)) ∧
        ((∀ guid, .evict guid ∉ statements) → store.SameAt time next)) ∧
    ∀ receipt receipts last, EvictFreeRun store (receipt :: receipts) last →
      ∀ time, time < receipt.validTime → store.SameAt time last := by
  constructor
  · intro statements now next receipt hsubmit time hlt
    refine ⟨fun guid hevict => ?_, fun hevict => SameAt.of_submit hreachable hsubmit hevict hlt⟩
    obtain ⟨-, rfl, rfl⟩ := submit_eq_ok_iff.mp hsubmit
    exact hreachable.read_carriedOut_of_lt hlt hevict
  · intro receipt receipts last hrun time hlt
    apply hrun.sameAt hreachable
    -- the commits after the first one are not earlier than it
    intro later hmem
    refine Int.lt_of_lt_of_le hlt ?_
    rcases List.mem_cons.mp hmem with rfl | hmem
    · exact Int.le_refl _
    · cases hrun with
      | cons hsubmit hevict hrest =>
        exact hrest.le_validTime (reached_of_submit hsubmit) later hmem

/-- After a change of the asset its first version is still seen at the time of its creation. -/
theorem read_changed_asset :
    ∃ next receipt, assetStore.submit [.replace 1 (asset 2)] .earliest = .ok (next, receipt) ∧
      next.latest "asset" = some (.entity (asset 2)) ∧
      next.read "asset" (.atTime .earliest) = some (.entity (asset 1)) ∧
      assetStore.SameAt .earliest next := by
  have hpast := past_immutable reachable_assetStore
  have hevict (guid : Guid) : .evict guid ∉ [Statement.replace 1 (asset 2)] := by
    simp [Statement.replace]
  refine ⟨_, _, rfl, by decide, ?_, ?_⟩
  · rw [(hpast.1 _ _ _ _ rfl .earliest (by decide)).1 "asset" (hevict "asset")]
    decide
  · exact hpast.2 _ _ _ (.cons rfl hevict (.nil _)) .earliest (by decide)

end MetadataGraph.Store
