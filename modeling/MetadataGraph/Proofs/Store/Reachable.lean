import MetadataGraph.Proofs.Store.Coherent

/-!
# Reachable stores

A store is reachable when transactions, accepted or refused, lead to it from the empty store. We
prove:

* `Reachable.coherent`: reachable stores are coherent;
* `Reachable.clockReached`: their clock has reached the times of all revisions, so that no commit is
  earlier than what is stored, and none at the same time while the clock is in range;
* `Reachable.numbered`: it has not given more numbers than microseconds.
-/

namespace MetadataGraph.Store

variable {store : Store} {validTime transactionTime : Instant}

/-! ## Reachable stores -/

/-- The store after statements were submitted: the store itself if they were refused. -/
def afterSubmit (store : Store) (statements : List Statement) (now : Instant) : Store :=
  match store.submit statements now with
  | .ok (next, _) => next
  | .error _ => store

/-- Stores that transactions, accepted or refused, lead to from the empty store. -/
inductive Reachable : Store → Prop
  | empty : Reachable empty
  | submit {store : Store} (h : Reachable store) (statements : List Statement) (now : Instant) :
      Reachable (store.afterSubmit statements now)

/-- An accepted submit leads to the store that it gives. -/
theorem afterSubmit_eq_of_ok {statements : List Statement} {now : Instant} {next : Store}
    {receipt : Receipt} (h : store.submit statements now = .ok (next, receipt)) :
    store.afterSubmit statements now = next := by
  rw [afterSubmit, h]

/-- A refused submit leads nowhere. -/
theorem afterSubmit_eq_of_error {statements : List Statement} {now : Instant} {failure : Failure}
    (h : store.submit statements now = .error failure) :
    store.afterSubmit statements now = store := by
  rw [afterSubmit, h]

/-- An accepted submit leads from a reachable store to a reachable store. -/
theorem Reachable.of_submit (h : store.Reachable) {statements : List Statement} {now : Instant}
    {next : Store} {receipt : Receipt}
    (hsubmit : store.submit statements now = .ok (next, receipt)) : next.Reachable :=
  afterSubmit_eq_of_ok hsubmit ▸ h.submit statements now

/-- The clock of the store has reached the times at which its revisions begin. -/
def ClockReached (store : Store) : Prop :=
  ∀ guid, ∀ revision ∈ store.chain guid, store.clock.Reached revision.validTime

/-- No revision begins after the next commit. -/
theorem ClockReached.within (h : store.ClockReached) (now : Instant) :
    store.Within (store.commitTime now) :=
  fun guid revision hmem => (h guid revision hmem).le_tick now.toMicros

/-- While the clock is in range, all revisions begin before the next commit. -/
theorem ClockReached.lt_commitTime (h : store.ClockReached) (hrange : store.clock.InRange)
    (now : Instant) (guid : Guid) :
    ∀ revision ∈ store.chain guid, revision.validTime < store.commitTime now :=
  fun revision hmem => (h guid revision hmem).lt_tick hrange now.toMicros

/-- Statements do not change the clock. -/
theorem clock_foldl_apply (statements : List Statement) :
    (statements.foldl (Store.apply validTime transactionTime) store).clock = store.clock := by
  induction statements generalizing store with
  | nil => rfl
  | cons statement rest ih =>
    rw [List.foldl_cons, ih]
    cases statement <;> rfl

/-- The clock of a store after a commit. -/
theorem clock_carriedOut (statements : List Statement) (now : Instant) :
    (store.carriedOut statements now).clock = (store.clock.tick now.toMicros).2.2 := by
  rw [carriedOut, clock_foldl_apply]

/-- The clock has reached the valid time of the last commit. -/
theorem reached_of_submit {statements : List Statement} {now : Instant} {next : Store}
    {receipt : Receipt} (h : store.submit statements now = .ok (next, receipt)) :
    next.clock.Reached receipt.validTime := by
  obtain ⟨-, rfl, rfl⟩ := submit_eq_ok_iff.mp h
  rw [clock_carriedOut]
  exact CommitClock.reached_tick store.clock now

/-- Carrying out a commit keeps a store coherent and its times reached. -/
theorem Coherent.carriedOut (h : store.Coherent) (hreached : store.ClockReached)
    (statements : List Statement) (now : Instant) :
    (store.carriedOut statements now).Coherent ∧
      (store.carriedOut statements now).ClockReached := by
  -- the tick of the clock comes first and changes neither chains nor index
  have hticked : Coherent { store with clock := (store.clock.tick now.toMicros).2.2 } :=
    ⟨h.nonempty, h.linked, h.guid_eq, h.indexed⟩
  obtain ⟨hcoherent, hwithin⟩ := hticked.foldl_apply (hreached.within now) now
    statements
  refine ⟨hcoherent, fun guid revision hmem => ?_⟩
  rw [clock_carriedOut]
  exact (CommitClock.reached_tick store.clock now).of_le (hwithin guid revision hmem)

/-- What the empty store has and commits keep, all reachable stores have. -/
theorem Reachable.invariant {p : Store → Prop} (h : store.Reachable) (hempty : p Store.empty)
    (hstep : ∀ store statements now, p store → p (store.carriedOut statements now)) :
    p store := by
  induction h with
  | empty => exact hempty
  | @submit store _ statements now ih =>
    -- a refused submit leaves the store, which has the property already
    cases hsubmit : store.submit statements now with
    | error e => rwa [afterSubmit_eq_of_error hsubmit]
    | ok result =>
      obtain ⟨next, receipt⟩ := result
      obtain ⟨-, hnext, -⟩ := submit_eq_ok_iff.mp hsubmit
      rw [afterSubmit_eq_of_ok hsubmit, ← hnext]
      exact hstep store statements now ih

private theorem Reachable.coherent_clockReached (h : store.Reachable) :
    store.Coherent ∧ store.ClockReached := by
  refine h.invariant (p := fun store => store.Coherent ∧ store.ClockReached)
    ⟨coherent_empty, fun _ _ hmem => absurd hmem List.not_mem_nil⟩ ?_
  rintro store statements now ⟨hcoherent, hreached⟩
  exact hcoherent.carriedOut hreached statements now

/-- Reachable stores are coherent. -/
theorem Reachable.coherent (h : store.Reachable) : store.Coherent := h.coherent_clockReached.1

/-- The clock of a reachable store has reached the times of its revisions. -/
theorem Reachable.clockReached (h : store.Reachable) : store.ClockReached :=
  h.coherent_clockReached.2

/-- The clock of a reachable store has not given more numbers than microseconds. -/
theorem Reachable.numbered (h : store.Reachable) : store.clock.Numbered := by
  refine h.invariant (p := fun store => store.clock.Numbered) CommitClock.numbered_new ?_
  intro store statements now hnumbered
  rw [clock_carriedOut]
  exact hnumbered.tick now.toMicros

/-! ## A store with one entity -/

/-- An asset with a version of its own. -/
def asset (version : UInt64) : Entity :=
  .new { Header.new "asset" ⟨"Asset", []⟩ "catalog" ⟨"ada", .earliest⟩ with version } ∅ []

/-- The store with the first version of the asset. -/
def assetStore : Store := empty.afterSubmit [.create (asset 1)] .earliest

theorem reachable_assetStore : assetStore.Reachable := Reachable.empty.submit _ _

end MetadataGraph.Store
