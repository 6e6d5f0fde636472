import Mathlib.Logic.Function.Basic
import MetadataGraph.Proofs.Store.Reachable

/-!
# Transactions as sequences of guarded writes

A transaction checks its guards first, against records that it stages, and changes the chains only
afterwards. Seen from the current records alone it is simpler: `Records.runAll` carries out one
statement after the other, each guard against what the statements before it have left, and stops at
the first guard that fails. We prove that a submit is that:

* `checkGuards_eq_runAll`: the staged check passes and fails as the sequence does;
* `latest_foldl_apply`: the changed chains have the sequence's records as their current ones;
* `runAll_eq_error_iff`: the sequence fails at its first guard that does not hold;
* `submit_eq_sequential`: a submit is accepted exactly when no guard of the sequence fails, and what
  it changes then.
-/

namespace MetadataGraph

/-! ## The sequence -/

/-- What a guard demands of the record stored so far. -/
def Guard.Holds : Guard → Option Record → Prop
  | always, _ => True
  | absent, current => current = none
  | version v, current => ∃ record, current = some record ∧ record.header.version = v
  | noFullEntity, current => ∀ entity, current ≠ some (.entity entity)

/-- A guard lets a write pass exactly when it holds. -/
theorem Guard.accepts_iff_holds {guard : Guard} {current : Option Record} :
    guard.accepts current ↔ guard.Holds current := by
  cases guard with
  | always => simp [accepts, Holds]
  | absent => simp [accepts, Holds]
  | version v => simp [accepts, Holds, Option.any_eq_true]
  | noFullEntity =>
    rcases current with _ | _ | _ | _ <;> simp [accepts, Holds, Record.entity?]

instance (guard : Guard) (current : Option Record) : Decidable (guard.Holds current) :=
  decidable_of_iff _ Guard.accepts_iff_holds

/-- The current record of every identity. -/
abbrev Records := Guid → Option Record

namespace Records

/-- Carry out one statement, if its guard holds of what is stored so far. -/
def run (records : Records) : Statement → Outcome Records
  | .put record guard =>
    if guard.Holds (records record.guid) then
      .ok (Function.update records record.guid (some record))
    else
      .error (.refused (.transactionConflict record.guid guard
        ((records record.guid).map fun current => current.header.version)))
  | .evict guid => .ok (Function.update records guid none)

/-- Carry out statements in order up to the first guard that does not hold. -/
def runAll (records : Records) (statements : List Statement) : Outcome Records :=
  statements.foldlM run records

/-- A refusal by the first guard of a sequence that does not hold. -/
def RefusedAt (records : Records) (statements : List Statement) (failure : Failure) : Prop :=
  ∃ before record guard after stored,
    statements = before ++ .put record guard :: after ∧ records.runAll before = .ok stored ∧
      ¬guard.Holds (stored record.guid) ∧
        failure = .refused (.transactionConflict record.guid guard
          ((stored record.guid).map fun current => current.header.version))

/-- A put goes through exactly when its guard holds. -/
theorem run_put_eq_ok_iff {records next : Records} {record : Record} {guard : Guard} :
    records.run (.put record guard) = .ok next ↔
      guard.Holds (records record.guid) ∧
        Function.update records record.guid (some record) = next := by
  rw [run]
  by_cases hguard : guard.Holds (records record.guid)
  · rw [if_pos hguard, Except.ok.injEq]
    exact (and_iff_right hguard).symm
  · rw [if_neg hguard]
    simp [hguard]

/-- A put is refused exactly when its guard does not hold. -/
theorem run_put_eq_error_iff {records : Records} {record : Record} {guard : Guard}
    {failure : Failure} :
    records.run (.put record guard) = .error failure ↔
      ¬guard.Holds (records record.guid) ∧
        .refused (.transactionConflict record.guid guard
          ((records record.guid).map fun current => current.header.version)) = failure := by
  rw [run]
  by_cases hguard : guard.Holds (records record.guid)
  · rw [if_pos hguard]
    simp [hguard]
  · rw [if_neg hguard, Except.error.injEq]
    exact (and_iff_right hguard).symm

theorem runAll_cons (records : Records) (statement : Statement) (rest : List Statement) :
    records.runAll (statement :: rest) = records.run statement >>= fun next => next.runAll rest :=
  List.foldlM_cons ..

/-- A sequence of one put goes through exactly when its guard holds. -/
theorem runAll_put_eq_ok_iff {records stored : Records} {record : Record} {guard : Guard} :
    records.runAll [.put record guard] = .ok stored ↔
      guard.Holds (records record.guid) ∧
        Function.update records record.guid (some record) = stored := by
  have hrun : records.runAll [.put record guard] = records.run (.put record guard) := by
    rw [runAll_cons]
    exact bind_pure _
  rw [hrun]
  exact run_put_eq_ok_iff

/-- A sequence fails exactly at its first guard that does not hold. -/
theorem runAll_eq_error_iff {records : Records} {statements : List Statement}
    {failure : Failure} :
    records.runAll statements = .error failure ↔ records.RefusedAt statements failure := by
  constructor
  · intro h
    -- by induction on the statements: either the first is refused, or the rest is from there on
    induction statements generalizing records with
    | nil => cases h
    | cons statement rest ih =>
      rw [runAll_cons, Outcome.bind_eq_error_iff] at h
      rcases h with h | ⟨next, hnext, h⟩
      · cases statement with
        | evict guid => cases h
        | put record guard =>
          obtain ⟨hguard, rfl⟩ := run_put_eq_error_iff.mp h
          exact ⟨[], record, guard, rest, records, rfl, rfl, hguard, rfl⟩
      · obtain ⟨before, record, guard, after, stored, rfl, hbefore, hguard, hfailure⟩ := ih h
        refine ⟨statement :: before, record, guard, after, stored, rfl, ?_, hguard, hfailure⟩
        rw [runAll_cons, hnext]
        exact hbefore
  · rintro ⟨before, record, guard, after, stored, rfl, hbefore, hguard, rfl⟩
    induction before generalizing records with
    | nil =>
      cases hbefore
      rw [List.nil_append, runAll_cons, run_put_eq_error_iff.mpr ⟨hguard, rfl⟩]
      rfl
    | cons statement before ih =>
      rw [runAll_cons, Outcome.bind_eq_ok_iff] at hbefore
      obtain ⟨next, hnext, hbefore⟩ := hbefore
      rw [List.cons_append, runAll_cons, hnext]
      exact ih hbefore

theorem runAll_append (records : Records) (statements rest : List Statement) :
    records.runAll (statements ++ rest) =
      records.runAll statements >>= fun next => next.runAll rest :=
  List.foldlM_append ..

/-- Of an identity a sequence leaves what was there, nothing, or a record that it puts. -/
theorem runAll_cases {records stored : Records} {statements : List Statement}
    (h : records.runAll statements = .ok stored) (guid : Guid) :
    (stored guid = records guid ∧ ∀ statement ∈ statements, statement.guid ≠ guid) ∨
    (stored guid = none ∧ .evict guid ∈ statements) ∨
    ∃ record guard, stored guid = some record ∧ .put record guard ∈ statements ∧
      record.guid = guid := by
  induction statements generalizing records with
  | nil =>
    cases h
    exact Or.inl ⟨rfl, by simp⟩
  | cons statement rest ih =>
    rw [runAll_cons, Outcome.bind_eq_ok_iff] at h
    obtain ⟨next, hnext, hrest⟩ := h
    rcases ih hrest with ⟨hsame, hunnamed⟩ | ⟨hnone, hmem⟩ | ⟨record, guard, hrecord, hmem, hguid⟩
    · -- no later statement names the identity, so the first one decides
      rw [hsame]
      cases statement with
      | evict evicted =>
        cases hnext
        by_cases hguid : evicted = guid
        · subst hguid
          exact Or.inr (Or.inl ⟨Function.update_self .., List.mem_cons_self⟩)
        · exact Or.inl ⟨Function.update_of_ne (Ne.symm hguid) ..,
            List.forall_mem_cons.mpr ⟨hguid, hunnamed⟩⟩
      | put record guard =>
        obtain ⟨-, rfl⟩ := run_put_eq_ok_iff.mp hnext
        by_cases hguid : record.guid = guid
        · subst hguid
          exact Or.inr (Or.inr ⟨record, guard, Function.update_self .., List.mem_cons_self, rfl⟩)
        · exact Or.inl ⟨Function.update_of_ne (Ne.symm hguid) ..,
            List.forall_mem_cons.mpr ⟨hguid, hunnamed⟩⟩
    · exact Or.inr (Or.inl ⟨hnone, List.mem_cons_of_mem _ hmem⟩)
    · exact Or.inr (Or.inr ⟨record, guard, hrecord, List.mem_cons_of_mem _ hmem, hguid⟩)

/-- Where a sequence without an eviction leaves nothing, nothing was before and it wrote nothing. -/
theorem runAll_eq_none {records stored : Records} {statements : List Statement} {guid : Guid}
    (h : records.runAll statements = .ok stored) (hevict : .evict guid ∉ statements)
    (hnone : stored guid = none) :
    records guid = none ∧ ∀ statement ∈ statements, statement.guid ≠ guid := by
  induction statements generalizing records with
  | nil =>
    cases h
    exact ⟨hnone, by simp⟩
  | cons statement rest ih =>
    rw [runAll_cons, Outcome.bind_eq_ok_iff] at h
    obtain ⟨next, hnext, hrest⟩ := h
    -- nothing is there after the first statement either, so it neither evicts nor puts it
    obtain ⟨hguid, hothers⟩ := ih hrest fun hmem => hevict (List.mem_cons_of_mem _ hmem)
    cases statement with
    | evict evicted =>
      cases hnext
      have hne : evicted ≠ guid := by
        rintro rfl
        exact hevict List.mem_cons_self
      rw [Function.update_of_ne hne.symm] at hguid
      exact ⟨hguid, List.forall_mem_cons.mpr ⟨hne, hothers⟩⟩
    | put record guard =>
      obtain ⟨-, rfl⟩ := run_put_eq_ok_iff.mp hnext
      have hne : record.guid ≠ guid := by
        rintro rfl
        simp at hguid
      rw [Function.update_of_ne hne.symm] at hguid
      exact ⟨hguid, List.forall_mem_cons.mpr ⟨hne, hothers⟩⟩

/-- A sequence of puts at distinct identities goes through if their guards hold at its start. -/
theorem runAll_isOk {records : Records} {statements : List Statement}
    (hputs : ∀ statement ∈ statements, ∃ record guard,
      statement = .put record guard ∧ guard.Holds (records record.guid))
    (hdistinct : statements.Pairwise (·.guid ≠ ·.guid)) :
    ∃ stored, records.runAll statements = .ok stored := by
  induction statements generalizing records with
  | nil => exact ⟨records, rfl⟩
  | cons statement rest ih =>
    obtain ⟨hfirst, hrest⟩ := List.pairwise_cons.mp hdistinct
    obtain ⟨record, guard, rfl, hguard⟩ := hputs statement List.mem_cons_self
    rw [runAll_cons, run_put_eq_ok_iff.mpr ⟨hguard, rfl⟩]
    refine ih (fun later hmem => ?_) hrest
    obtain ⟨other, guard', rfl, hguard'⟩ := hputs later (List.mem_cons_of_mem _ hmem)
    have hne : other.guid ≠ record.guid := (hfirst _ hmem).symm
    refine ⟨other, guard', rfl, ?_⟩
    -- the first put does not write where the later one looks
    rwa [Function.update_of_ne hne]

/-- What a sequence puts last is there at its end. -/
theorem runAll_concat_put {records stored : Records} {statements : List Statement}
    {record : Record} {guard : Guard}
    (h : records.runAll (statements ++ [.put record guard]) = .ok stored) :
    stored record.guid = some record := by
  rw [runAll_append, Outcome.bind_eq_ok_iff] at h
  obtain ⟨before, -, hlast⟩ := h
  rw [runAll_cons, Outcome.bind_eq_ok_iff] at hlast
  obtain ⟨next, hnext, hend⟩ := hlast
  obtain ⟨-, rfl⟩ := run_put_eq_ok_iff.mp hnext
  cases hend
  exact Function.update_self ..

/-- A creation at the end of a sequence without evictions goes through only if nothing was stored
under its identity and no statement before it writes there. -/
theorem runAll_create {records stored : Records} {statements : List Statement} {record : Record}
    (h : records.runAll (statements ++ [.create record]) = .ok stored)
    (hevict : ∀ guid, .evict guid ∉ statements) :
    records record.guid = none ∧ ∀ statement ∈ statements, statement.guid ≠ record.guid := by
  rw [runAll_append, Outcome.bind_eq_ok_iff] at h
  obtain ⟨before, hbefore, hcreate⟩ := h
  rw [runAll_cons, Outcome.bind_eq_ok_iff] at hcreate
  obtain ⟨created, hcreated, -⟩ := hcreate
  obtain ⟨hguard, -⟩ := run_put_eq_ok_iff.mp hcreated
  exact runAll_eq_none hbefore (hevict record.guid) hguard

/-- A sequence that creates an identity and does not evict it finds nothing there. -/
theorem eq_none_of_create {records stored : Records} {statements : List Statement} {record : Record}
    (h : records.runAll statements = .ok stored) (hmem : .create record ∈ statements)
    (hevict : .evict record.guid ∉ statements) : records record.guid = none := by
  obtain ⟨before, after, rfl⟩ := List.append_of_mem hmem
  rw [runAll_append, Outcome.bind_eq_ok_iff] at h
  obtain ⟨created, hbefore, hcreate⟩ := h
  rw [runAll_cons, Outcome.bind_eq_ok_iff] at hcreate
  obtain ⟨next, hnext, -⟩ := hcreate
  obtain ⟨hguard, -⟩ := run_put_eq_ok_iff.mp hnext
  exact (runAll_eq_none hbefore (fun hearlier => hevict (List.mem_append_left _ hearlier)) hguard).1

/-- Of the statements that name an identity, the first one looks at what was there. -/
theorem exists_holds_of_named {records stored : Records} {statements : List Statement} {guid : Guid}
    (h : records.runAll statements = .ok stored) (hevict : .evict guid ∉ statements)
    (hnamed : ∃ statement ∈ statements, statement.guid = guid) :
    ∃ record guard, .put record guard ∈ statements ∧ record.guid = guid ∧
      guard.Holds (records guid) := by
  induction statements generalizing records with
  | nil => simp at hnamed
  | cons statement rest ih =>
    rw [runAll_cons, Outcome.bind_eq_ok_iff] at h
    obtain ⟨next, hnext, hrest⟩ := h
    by_cases hguid : statement.guid = guid
    · cases statement with
      | evict evicted =>
        cases hguid
        exact absurd List.mem_cons_self hevict
      | put record guard =>
        obtain ⟨hguard, -⟩ := run_put_eq_ok_iff.mp hnext
        cases hguid
        exact ⟨record, guard, List.mem_cons_self, rfl, hguard⟩
    · -- the first statement writes elsewhere, so the rest finds the same
      have hsame : next guid = records guid := by
        cases statement with
        | evict evicted =>
          cases hnext
          exact Function.update_of_ne (Ne.symm hguid) ..
        | put record guard =>
          obtain ⟨-, rfl⟩ := run_put_eq_ok_iff.mp hnext
          exact Function.update_of_ne (Ne.symm hguid) ..
      obtain ⟨record, guard, hmem, hrecord, hguard⟩ := ih hrest
        (fun hlater => hevict (List.mem_cons_of_mem _ hlater)) (by simpa [hguid] using hnamed)
      exact ⟨record, guard, List.mem_cons_of_mem _ hmem, hrecord, hsame ▸ hguard⟩

end Records

namespace Store

variable {store : Store}

/-! ## The guards of a submit -/

/-- The current records as statements staged so far have left them. -/
def stagedRecords (store : Store) (staged : NameMap (Option Record)) : Records :=
  fun guid => (staged.get? guid).getD (store.latest guid)

theorem stagedRecords_empty : store.stagedRecords ∅ = store.latest := rfl

theorem stagedRecords_insert (staged : NameMap (Option Record)) (guid : Guid)
    (record : Option Record) :
    store.stagedRecords (staged.insert guid record) =
      Function.update (store.stagedRecords staged) guid record := by
  funext query
  unfold stagedRecords Function.update
  rw [NameMap.get?_insert]
  by_cases h : guid = query
  · subst h
    simp
  · simp [h, Ne.symm h]

/-- The staged check passes and fails as the sequence of guarded writes does. -/
theorem checkGuards_eq_runAll (staged : NameMap (Option Record)) (statements : List Statement) :
    store.checkGuards staged statements =
      ((store.stagedRecords staged).runAll statements).map fun _ => () := by
  induction statements generalizing staged with
  | nil => rfl
  | cons statement rest ih =>
    rw [Records.runAll_cons]
    cases statement with
    | evict guid =>
      rw [checkGuards, ih, stagedRecords_insert]
      rfl
    | put record guard =>
      -- what the check looks up is the staged record, or else the stored one
      have hcurrent : (staged.get? record.guid).getD (store.latest record.guid) =
          store.stagedRecords staged record.guid := rfl
      rw [checkGuards, hcurrent, ih, stagedRecords_insert, Records.run, Guard.check]
      by_cases hguard : guard.Holds (store.stagedRecords staged record.guid)
      · rw [if_pos hguard, Guard.accepts_iff_holds.mpr hguard]
        rfl
      · rw [if_neg hguard, Bool.eq_false_iff.mpr (mt Guard.accepts_iff_holds.mp hguard)]
        rfl

/-! ## The current records after a submit -/

/-- The chains that a commit changes have the sequence's records as their current ones. -/
theorem latest_foldl_apply (store : Store) (validTime transactionTime : Instant)
    {statements : List Statement} {records : Records}
    (h : Records.runAll store.latest statements = .ok records) :
    (statements.foldl (apply validTime transactionTime) store).latest = records := by
  induction statements generalizing store with
  | nil => cases h; rfl
  | cons statement rest ih =>
    rw [Records.runAll_cons, Outcome.bind_eq_ok_iff] at h
    obtain ⟨next, hnext, hrest⟩ := h
    have hlatest : (store.apply validTime transactionTime statement).latest = next := by
      funext guid
      cases statement with
      | evict evicted =>
        cases hnext
        rw [latest_apply_evict]
        by_cases heq : evicted = guid
        · subst heq
          simp
        · simp [heq, Ne.symm heq]
      | put record guard =>
        obtain ⟨-, rfl⟩ := Records.run_put_eq_ok_iff.mp hnext
        rw [latest_apply_put]
        by_cases heq : record.guid = guid
        · subst heq
          simp
        · simp [heq, Ne.symm heq]
    rw [List.foldl_cons]
    refine ih _ ?_
    rwa [hlatest]

/-! ## The submit as a whole -/

/-- A submit is accepted exactly when no guard of the sequence fails. -/
theorem submit_isOk_iff {statements : List Statement} (now : Instant) :
    (∃ next receipt, store.submit statements now = .ok (next, receipt)) ↔
      ∃ records, Records.runAll store.latest statements = .ok records := by
  simp only [submit_eq_ok_iff, checkGuards_eq_runAll, stagedRecords_empty]
  cases Records.runAll store.latest statements with
  | ok records => simp [Except.map]
  | error failure => simp [Except.map]

/-- A submit is refused exactly as the sequence is. -/
theorem submit_eq_error_iff_runAll {statements : List Statement} {now : Instant}
    {failure : Failure} :
    store.submit statements now = .error failure ↔
      Records.runAll store.latest statements = .error failure := by
  rw [submit_eq_error_iff, checkGuards_eq_runAll, stagedRecords_empty]
  cases Records.runAll store.latest statements with
  | ok records => simp [Except.map]
  | error failure => simp [Except.map]

/-- A submit is refused because of what is in the repository. -/
theorem kind_of_submit_eq_error {statements : List Statement} {now : Instant} {failure : Failure}
    (h : store.submit statements now = .error failure) : failure.kind? = some .repository := by
  obtain ⟨-, -, -, -, -, -, -, -, rfl⟩ :=
    Records.runAll_eq_error_iff.mp (submit_eq_error_iff_runAll.mp h)
  rfl

/-- The current records after an accepted submit are those of the sequence. -/
theorem runAll_of_submit {statements : List Statement} {now : Instant} {next : Store}
    {receipt : Receipt} (h : store.submit statements now = .ok (next, receipt)) :
    Records.runAll store.latest statements = .ok next.latest := by
  obtain ⟨records, hrecords⟩ := (submit_isOk_iff now).mp ⟨next, receipt, h⟩
  obtain ⟨-, rfl, -⟩ := submit_eq_ok_iff.mp h
  rw [hrecords]
  congr 1
  -- the tick of the clock does not change what is current before the first statement
  exact (latest_foldl_apply { store with clock := (store.clock.tick now.toMicros).2.2 } _ _
    hrecords).symm

/-- While the clock is in range, an identity that a commit names and does not evict keeps all its
revisions, the newest with an end, and gets one more. -/
theorem Reachable.chain_carriedOut (h : store.Reachable) (hrange : store.clock.InRange)
    {statements : List Statement} {guid : Guid} (hevict : .evict guid ∉ statements)
    (hnamed : ∃ statement ∈ statements, statement.guid = guid) (now : Instant) :
    ∃ record, (store.carriedOut statements now).latest guid = some record ∧
      (store.carriedOut statements now).chain guid =
        .new record (store.commitTime now) now ::
          (store.chain guid).closeAt (store.commitTime now) := by
  obtain ⟨record, -, -, -, hchain⟩ := store.chain_carriedOut hevict hnamed now
  refine ⟨record, ?_, ?_⟩
  · rw [latest, read, hchain]
    exact Chain.visible?_push_now _ _ _ _
  · rw [hchain, Chain.push_eq_cons (h.clockReached.lt_commitTime hrange now guid)]

/-- The effect of statements on a store when they are carried out in order, as one commit. -/
structure CommitsInOrder (store next : Store) (statements : List Statement) (receipt : Receipt) :
    Prop where
  /-- The current records are those that the sequence leaves. -/
  latest : Records.runAll store.latest statements = .ok next.latest
  /-- An identity that no statement names keeps its revisions. -/
  unnamed : ∀ guid, (∀ statement ∈ statements, statement.guid ≠ guid) →
    next.chain guid = store.chain guid
  /-- An identity that is written and not evicted keeps its revisions, the newest of which ends with
  the commit, and gets exactly one more. -/
  written : ∀ guid, (∃ statement ∈ statements, statement.guid = guid) → .evict guid ∉ statements →
    ∃ record, next.latest guid = some record ∧
      next.chain guid = .new record receipt.validTime receipt.transactionTime ::
        (store.chain guid).closeAt receipt.validTime
  /-- The commit gets the next number. -/
  id_eq : receipt.id = store.clock.nextId
  /-- The number after it is one more. -/
  nextId_eq : next.clock.nextId.toNat = store.clock.nextId.toNat + 1

/-- A submit is its statements one after the other, each guard checked against what the statements
before it have left. It is accepted exactly when no guard fails. If one does, the submit is refused
by the first that does, and the store stays as it was. -/
theorem submit_eq_sequential (hreachable : store.Reachable) (hrange : store.clock.InRange)
    (statements : List Statement) (now : Instant) :
    ((∃ next receipt, store.submit statements now = .ok (next, receipt)) ↔
      ∃ records, Records.runAll store.latest statements = .ok records) ∧
    (∀ next receipt, store.submit statements now = .ok (next, receipt) →
      store.CommitsInOrder next statements receipt) ∧
    ∀ failure, store.submit statements now = .error failure →
      Records.RefusedAt store.latest statements failure ∧ failure.kind? = some .repository ∧
        store.afterSubmit statements now = store := by
  refine ⟨submit_isOk_iff now, ?_, ?_⟩
  · intro next receipt hsubmit
    have hrecords := runAll_of_submit hsubmit
    obtain ⟨-, rfl, rfl⟩ := submit_eq_ok_iff.mp hsubmit
    refine ⟨hrecords, ?_, ?_, rfl, ?_⟩
    · intro guid hunnamed
      exact chain_carriedOut_of_ne store hunnamed now
    · intro guid hnamed hevict
      exact hreachable.chain_carriedOut hrange hevict hnamed now
    · rw [clock_carriedOut]
      exact hreachable.numbered.nextId_tick hrange now.toMicros
  · intro failure hsubmit
    have hrefused := Records.runAll_eq_error_iff.mp (submit_eq_error_iff_runAll.mp hsubmit)
    refine ⟨hrefused, ?_, afterSubmit_eq_of_error hsubmit⟩
    obtain ⟨-, -, -, -, -, -, -, -, rfl⟩ := hrefused
    rfl

/-- An asset that is evicted, created again and changed in one commit has the last state, and a
commit with a change of an old version in it is refused as a whole. -/
theorem submit_asset :
    let rewrite := [.evict "asset", .create (asset 1), .replace 1 (asset 2)]
    let conflict := [.replace 1 (asset 2), .replace 1 (asset 3)]
    (∃ next receipt, assetStore.submit rewrite .earliest = .ok (next, receipt) ∧
      next.latest "asset" = some (.entity (asset 2)) ∧ receipt.id = 2) ∧
    assetStore.afterSubmit conflict .earliest = assetStore := by
  intro rewrite conflict
  have hrange : assetStore.clock.InRange := by decide
  constructor
  · obtain ⟨haccepted, hresult, -⟩ :=
      submit_eq_sequential reachable_assetStore hrange rewrite .earliest
    obtain ⟨next, receipt, hsubmit⟩ := haccepted.mpr ⟨_, rfl⟩
    have heffect := hresult next receipt hsubmit
    refine ⟨next, receipt, hsubmit, ?_, heffect.id_eq⟩
    rw [← Except.ok.inj heffect.latest]
    rfl
  · obtain ⟨-, -, hrefused⟩ :=
      submit_eq_sequential reachable_assetStore hrange conflict .earliest
    obtain ⟨-, -, hsame⟩ := hrefused _ rfl
    exact hsame

end Store

end MetadataGraph
