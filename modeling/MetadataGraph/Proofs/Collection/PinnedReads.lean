import MetadataGraph.Proofs.Collection.Neighborhood
import MetadataGraph.Proofs.Collection.Planned
import MetadataGraph.Proofs.Collection.Searches
import MetadataGraph.Proofs.Store.Past

/-!
# Pinned reads

A read at a time is accepted up to the time of the call. It is repeatable if no commit can begin at
that time any more. Commits begin at whole microseconds, so that the call may be in the microsecond
that a commit after it will begin at. We prove:

* `Store.lt_commitTime_of_le`: a time before the next commit is before all later ones;
* `sameAt_run`: a run without purges changes nothing at a time before the next commit;
* `SameAt.ball_eq`: walks at a time are the same in stores that reads at the time see alike,
  although one may be larger;
* `pinned_repeatable`: answers at a time before the next commit are repeatable; any other time sees
  the next commit;
* `moved_draft`: a read at the time of the call that is not repeatable.
-/

namespace MetadataGraph

open Element

/-! ## Times before the next commit -/

namespace Store

variable {store : Store}

/-- A time before the next commit, and not after the wall clock, is before all later commits. -/
theorem lt_commitTime_of_le {time now later : Instant} (hlt : time < store.commitTime now)
    (hnow : time ≤ now) (hlater : now ≤ later) : time < store.commitTime later :=
  CommitClock.lt_tick_of_le hlt hnow hlater

/-- A time before the microsecond of the wall clock is before the next commit. -/
theorem lt_commitTime_of_lt {time now : Instant} (h : time < .ofMicros now.toMicros) :
    time < store.commitTime now :=
  Int.lt_of_lt_of_le h (store.clock.ofMicros_le_tick now)

/-- A time that all revisions have begun by sees what is current. -/
theorem Coherent.read_atTime (h : store.Coherent) {time : Instant} (hwithin : store.Within time)
    (guid : Guid) : store.read guid (.atTime time) = store.latest guid :=
  (h.linked guid).visible?_atTime_of_within (hwithin guid)

end Store

/-! ## Runs -/

/-- The operation removes what is stored with all its past. -/
def Operation.IsPurge : Operation → Prop
  | change _ _ .purge | purgeCopy _ _ _ _ => True
  | _ => False

namespace Collection

variable {collection last : Collection} {call later : Call} {time : Instant} {guid : Guid}
  {filter : WalkFilter}

/-- Only a purge evicts anything. -/
theorem Planned.evict_not_mem {fresh : Guid} {operation : Operation} {statements : List Statement}
    (h : collection.Planned call fresh operation statements) (hpurge : ¬operation.IsPurge)
    (guid : Guid) : .evict guid ∉ statements := by
  cases h with
  | purge kind guid current hoperation | purgeCopy kind guid type home hoperation =>
    subst hoperation
    exact absurd trivial hpurge
  | reIdentify => simp [evict_not_mem_moves, Statement.create]
  | saveRelationship => simp [Statement.putProxy, Statement.overwrite]
  | _ => simp [Statement.create, Statement.putProxy, Statement.replace, Statement.overwrite]

/-- Calls of operations that purge nothing, under a wall clock that does not go back from one time
to another. -/
inductive Continues : Instant → List Event → Instant → Prop
  | nil {now finish : Instant} (h : now ≤ finish) : Continues now [] finish
  | cons {now finish : Instant} {call : Call} {fresh : Guid} {operation : Operation}
      {events : List Event} (h : now ≤ call.now) (hpurge : ¬operation.IsPurge)
      (hlater : Continues call.now events finish) :
      Continues now (.operate call fresh operation :: events) finish

theorem Continues.le {now finish : Instant} {events : List Event}
    (h : Continues now events finish) : now ≤ finish := by
  induction h with
  | nil h => exact h
  | cons h _ _ ih => exact Int.le_trans h ih

/-- A collection differs from another one in its store only, and not in what that shows at a
time. -/
structure SameAt (time : Instant) (collection last : Collection) : Prop where
  /-- Types and configuration are the same. -/
  eq_withStore : last = { collection with store := last.store }
  /-- The store shows the same. -/
  store : collection.store.SameAt time last.store

theorem SameAt.refl (time : Instant) (collection : Collection) :
    collection.SameAt time collection :=
  ⟨rfl, .refl time collection.store⟩

theorem SameAt.trans {next : Collection} (h : collection.SameAt time next)
    (h' : next.SameAt time last) : collection.SameAt time last where
  eq_withStore := by
    have hnext := h.eq_withStore
    have hlast := h'.eq_withStore
    rw [hnext] at hlast
    exact hlast
  store := h.store.trans h'.store

/-- An operation that purges nothing changes nothing at a time before the next commit, and the time
is before the commit after it too. -/
theorem sameAt_after (hreachable : collection.Reachable) {fresh : Guid} {operation : Operation}
    (hpurge : ¬operation.IsPurge) (hlt : time < collection.store.commitTime call.now) :
    collection.SameAt time (collection.after (.operate call fresh operation)) ∧
      time < (collection.after (.operate call fresh operation)).store.commitTime call.now := by
  cases hexecute : collection.execute call fresh operation with
  | error failure =>
    rw [after_eq_of_error hexecute]
    exact ⟨.refl time collection, hlt⟩
  | ok result =>
    obtain ⟨next, reply⟩ := result
    rw [after_eq_of_ok hexecute]
    have hnext := eq_of_execute hexecute
    obtain ⟨plan, hplan, hcommit⟩ := execute_eq_ok_iff.mp hexecute
    rcases submit_of_commit hcommit with ⟨-, rfl⟩ | ⟨⟨receipt, hsubmit⟩, -⟩
    · exact ⟨.refl time next, hlt⟩
    · obtain ⟨-, -, hreceipt⟩ := Store.submit_eq_ok_iff.mp hsubmit
      have hvalid : time < receipt.validTime := by
        rw [← hreceipt]
        exact hlt
      -- without evictions the past is as it was
      have hevict := (planned_of_plan hplan).evict_not_mem hpurge
      refine ⟨⟨hnext, .of_submit hreachable.store hsubmit hevict hvalid⟩, ?_⟩
      exact Int.lt_of_lt_of_le hvalid ((Store.reached_of_submit hsubmit).le_tick call.now.toMicros)

/-- A run without purges changes nothing at a time before the next commit. -/
theorem sameAt_run (hreachable : collection.Reachable) {now finish : Instant}
    (hnow : time ≤ now) (hlt : time < collection.store.commitTime now) {events : List Event}
    (hrun : Continues now events finish) : collection.SameAt time (collection.run events) := by
  -- before each call of the run the time is still before the next commit
  induction hrun generalizing collection with
  | nil => exact .refl time collection
  | @cons now finish call fresh operation events hcall hpurge hlater ih =>
    have hbefore := Store.lt_commitTime_of_le hlt hnow hcall
    obtain ⟨hsame, hafter⟩ : collection.SameAt time
        (collection.after (.operate call fresh operation)) ∧ _ :=
      sameAt_after hreachable hpurge hbefore
    exact hsame.trans (ih (hreachable.after _) (Int.le_trans hnow hcall) hafter)

/-! ## Reads of one element -/

theorem SameAt.find_eq (h : collection.SameAt time last) (α : Type) [Element α] (guid : Guid) :
    last.find α guid (.atTime time) = collection.find α guid (.atTime time) :=
  congrArg Element.lookup (h.store.read guid)

theorem SameAt.catalog_eq (h : collection.SameAt time last) :
    last.catalog = collection.catalog := by
  rw [h.eq_withStore]

theorem SameAt.config_eq (h : collection.SameAt time last) : last.config = collection.config := by
  rw [h.eq_withStore]

/-- A call is repeated by the same user, and the time that it reads at is not in the future. -/
structure Repeats (time : Instant) (call later : Call) : Prop where
  user : later.user = call.user
  accepted : Validation.asOf (.atTime time) call.now = .ok ()
  still : Validation.asOf (.atTime time) later.now = .ok ()

theorem SameAt.detail_eq (h : collection.SameAt time last) (hcalls : Repeats time call later)
    (kind : ElementKind) (guid : Guid) :
    last.detail later guid kind.Carrier (.atTime time) =
      collection.detail call guid kind.Carrier (.atTime time) := by
  rw [detail, detail, hcalls.user, hcalls.accepted, hcalls.still, h.find_eq]

/-! ## Searches -/

theorem SameAt.scopedQuery_eq (h : collection.SameAt time last) (hcalls : Repeats time call later)
    (α : Type) [Element α] {scope : SearchScope} (hscope : scope.asOf = .atTime time)
    (query : Query) :
    last.scopedQuery later α scope query = collection.scopedQuery call α scope query := by
  simp only [scopedQuery, hscope, hcalls.accepted, hcalls.still, h.catalog_eq, pageSize,
    h.config_eq]

theorem SameAt.search_eq (h : collection.SameAt time last) (hcalls : Repeats time call later)
    (α : Type) [Element α] {scope : SearchScope} (hscope : scope.asOf = .atTime time)
    (query : Query) :
    last.search later α scope query = collection.search call α scope query := by
  simp only [search, h.scopedQuery_eq hcalls α hscope, answer, hscope, h.store.query]

/-- A search in a scope at the time gives the same. -/
theorem SameAt.run_eq (h : collection.SameAt time last) (hcalls : Repeats time call later)
    {kind : ElementKind} (search : Search kind) {scope : SearchScope}
    (hscope : scope.asOf = .atTime time) :
    search.run last later scope = search.run collection call scope := by
  have hcheck : search.check last later scope = search.check collection call scope := by
    cases search <;>
      simp only [Search.check, hcalls.user, h.catalog_eq, hscope, hcalls.accepted, hcalls.still,
        h.find_eq]
  rw [Search.run_eq, Search.run_eq, hcheck]
  simp only [h.search_eq hcalls _ hscope]

/-! ## Walks -/

/-- The nodes that a walk of some rounds makes steps from. -/
theorem get?_inner {rounds : Nat} {node : Guid} {distance : Nat} :
    ((collection.distances filter guid rounds).filter fun _ distance => distance < rounds).get?
        node = some distance ↔
      Walk.IsDistance (collection.targets filter) guid node distance ∧ distance < rounds := by
  rw [NameMap.get?_filter, Option.filter_eq_some_iff, decide_eq_true_eq]
  constructor
  · rintro ⟨hget, hless⟩
    exact ⟨(Walk.get?_distances_eq_some_iff.mp hget).1, hless⟩
  · rintro ⟨hdistance, hless⟩
    exact ⟨Walk.get?_distances_eq_some_iff.mpr ⟨hdistance, Nat.le_of_lt hless⟩, hless⟩

/-- The steps of a filter at the time are the same. -/
theorem SameAt.steps_eq (h : collection.SameAt time last) (hfilter : filter.asOf = .atTime time) :
    filter.steps last.store = filter.steps collection.store := by
  funext node
  rw [WalkFilter.steps, WalkFilter.steps, hfilter, h.store.traverse]

/-- Walks at the time from an entity are the same, although the bound on their rounds that comes
from the size of the store may differ. -/
theorem SameAt.ball_eq (h : collection.SameAt time last) (hreachable : collection.Reachable)
    (hlast : last.Reachable) (hfilter : filter.asOf = .atTime time) {start : Entity}
    (hstart : collection.store.read guid (.atTime time) = some (.entity start)) (depth : Int32) :
    last.ball filter start guid (last.walkRounds depth) =
      collection.ball filter start guid (collection.walkRounds depth) := by
  have hsteps := h.steps_eq hfilter
  have htargets : last.targets filter = collection.targets filter := by
    funext node
    rw [targets, targets, hsteps]
  have hstart' : last.store.read guid (.atTime time) = some (.entity start) :=
    (h.store.read guid).trans hstart
  rw [← hfilter] at hstart hstart'
  have hrounds {node : Guid} {distance : Nat}
      (hdistance : Walk.IsDistance (collection.targets filter) guid node distance) :
      distance < last.walkRounds depth ↔ distance < collection.walkRounds depth := by
    have hsize := distance_lt_size hreachable.store.coherent hstart hdistance
    have hsize' := distance_lt_size hlast.store.coherent hstart' (htargets ▸ hdistance)
    -- the distance is below the size of both stores, so that only the depth and the cap decide
    rw [walkRounds, walkRounds, h.config_eq]
    split
    · omega
    · change distance < min _ _ ↔ distance < min _ _
      cases collection.config.maxTraversalDepth with
      | none =>
        rw [Option.getD_none, Option.getD_none]
        omega
      | some cap =>
        rw [Option.getD_some, Option.getD_some]
        omega
  have hinner : (last.distances filter guid (last.walkRounds depth)).filter
        (fun _ distance => distance < last.walkRounds depth) =
      (collection.distances filter guid (collection.walkRounds depth)).filter
        (fun _ distance => distance < collection.walkRounds depth) := by
    refine NameMap.ext_get? fun node => Option.ext fun distance => ?_
    rw [get?_inner, get?_inner, htargets]
    exact and_congr_right hrounds
  rw [ball, ball, ballSteps, ballSteps, hinner, hsteps]

/-- The neighborhood of an entity at the time is the same. -/
theorem SameAt.neighborhood_eq (h : collection.SameAt time last) (hcalls : Repeats time call later)
    (hreachable : collection.Reachable) (hlast : last.Reachable)
    (hfilter : filter.asOf = .atTime time) (guid : Guid) (depth : Int32) :
    last.neighborhood later guid filter depth = collection.neighborhood call guid filter depth := by
  have hcheck : last.checkFilter later filter = collection.checkFilter call filter := by
    simp only [checkFilter, hfilter, hcalls.accepted, hcalls.still, h.catalog_eq]
  have hwalk : last.walkStart guid filter.asOf = collection.walkStart guid filter.asOf := by
    rw [walkStart, walkStart, hfilter, h.find_eq]
  rw [neighborhood, neighborhood, hcalls.user, hcheck, hwalk]
  cases hstart : collection.walkStart guid filter.asOf with
  | error failure => simp only [Outcome.error_bind]
  | ok start =>
    have hread := (walkStart_eq_ok_iff.mp hstart).1
    rw [hfilter] at hread
    have hball := h.ball_eq hreachable hlast hfilter hread depth
    rw [ball, ball, ballSteps, ballSteps] at hball
    simp only [Outcome.ok_bind, hball]

/-! ## Repeatable reads -/

/-- Reads at a time that are repeated give the same: those of elements, searches and
neighborhoods. -/
structure AnswersAlike (time : Instant) (collection : Collection) (call : Call) (last : Collection)
    (later : Call) : Prop where
  detail : ∀ (kind : ElementKind) guid, last.detail later guid kind.Carrier (.atTime time) =
    collection.detail call guid kind.Carrier (.atTime time)
  search : ∀ {kind : ElementKind} (search : Search kind) (scope : SearchScope),
    scope.asOf = .atTime time → search.run last later scope = search.run collection call scope
  neighborhood : ∀ guid (filter : WalkFilter) depth, filter.asOf = .atTime time →
    last.neighborhood later guid filter depth = collection.neighborhood call guid filter depth

/-- Reads at a time before the next commit are repeatable. -/
theorem answersAlike_run (hreachable : collection.Reachable)
    (haccepted : Validation.asOf (.atTime time) call.now = .ok ())
    (hlt : time < collection.store.commitTime call.now) {events : List Event}
    (hrun : Continues call.now events later.now) (huser : later.user = call.user) :
    AnswersAlike time collection call (collection.run events) later := by
  have hnow : time ≤ call.now := by
    simpa [Validation.asOf, AsOf.atTime, Outcome.require_eq_ok_iff] using haccepted
  have hcalls : Repeats time call later :=
    ⟨huser, haccepted, Validation.asOf_later haccepted hrun.le⟩
  have hsame := sameAt_run hreachable hnow hlt hrun
  exact ⟨hsame.detail_eq hcalls, fun search scope hscope => hsame.run_eq hcalls search hscope,
    fun guid filter depth hfilter =>
      hsame.neighborhood_eq hcalls hreachable (hreachable.run events) hfilter guid depth⟩

/-- At a time that is not before the next commit, a read sees what is current. It does so after the
commit too, if this is made at the time of the call. -/
theorem read_eq_latest_of_commitTime_le (hreachable : collection.Reachable) {now : Instant}
    (hle : collection.store.commitTime now ≤ time) :
    (∀ guid, collection.store.read guid (.atTime time) = collection.store.latest guid) ∧
      ∀ (call : Call) fresh operation next reply, call.now = now →
        collection.execute call fresh operation = .ok (next, reply) →
          ∀ guid, next.store.read guid (.atTime time) = next.store.latest guid := by
  have hbefore : collection.store.Within time := fun guid revision hmem =>
    Int.le_trans (hreachable.store.clockReached.within now guid revision hmem) hle
  refine ⟨hreachable.store.coherent.read_atTime hbefore, ?_⟩
  rintro call fresh operation next reply rfl hexecute
  have hnext := hreachable.execute hexecute
  refine hnext.store.coherent.read_atTime fun guid revision hmem => ?_
  rcases store_of_execute hexecute with hsame | ⟨statements, receipt, hsubmit⟩
  · rw [hsame] at hmem
    exact hbefore guid revision hmem
  · -- no revision begins after the last commit
    obtain ⟨-, hlast, -⟩ := Store.submit_eq_ok_iff.mp hsubmit
    have hreached := (hnext.store.clockReached guid revision hmem).2
    rw [← hlast, Store.clock_carriedOut] at hreached
    exact Int.le_trans hreached hle

/-- Reads at an accepted time are repeatable in all runs without purges if the time is before the
next commit, as are all times before the microsecond of the call. Any other time sees what is
current, before a commit at the time of the call and after it. -/
theorem pinned_repeatable (hreachable : collection.Reachable)
    (haccepted : Validation.asOf (.atTime time) call.now = .ok ()) :
    (time < collection.store.commitTime call.now → ∀ events (later : Call),
        Continues call.now events later.now → later.user = call.user →
          AnswersAlike time collection call (collection.run events) later) ∧
      (time < .ofMicros call.now.toMicros → time < collection.store.commitTime call.now) ∧
      (¬time < collection.store.commitTime call.now →
        (∀ guid, collection.store.read guid (.atTime time) = collection.store.latest guid) ∧
          ∀ (writer : Call) fresh operation next reply, writer.now = call.now →
            collection.execute writer fresh operation = .ok (next, reply) →
              ∀ guid, next.store.read guid (.atTime time) = next.store.latest guid) := by
  refine ⟨fun hlt events later hrun huser => answersAlike_run hreachable haccepted hlt hrun huser,
    Store.lt_commitTime_of_lt, fun hnot => ?_⟩
  exact read_eq_latest_of_commitTime_le hreachable (Int.not_lt.mp hnot)

/-- A collection with one asset, which was added in the first second. -/
private def earlyAsset : Collection :=
  run ⟨default, ∅, .empty⟩
    [.addType ⟨"Asset", .entity, none, [], [], [], none, []⟩,
      .operate ⟨"ada", .ofMicros 1000000⟩ "asset" (.addEntity ⟨"Asset", ∅, [], .active, none⟩)]

/-- A call that reads it a second later. -/
private def reading : Call := ⟨"ada", .ofMicros 2000000⟩

/-- A change of its status at that time. -/
private def draft : Event := .operate reading "" (.change .entity "asset" (.status .draft))

/-- A call that reads it again another second later. -/
private def rereading : Call := ⟨"ada", .ofMicros 3000000⟩

private theorem reachable_earlyAsset : earlyAsset.Reachable := (Reachable.start _ _).run _

private theorem continues_draft : Continues reading.now [draft] rereading.now :=
  .cons (Int.le_refl _) not_false (.nil (by decide))

/-- At the time when it was added the asset is seen as before, although it has a second version. -/
theorem pinned_repeatable_earlyAsset :
    ∃ asset, earlyAsset.detail reading "asset" Entity (.atTime (.ofMicros 1000000)) = .ok asset ∧
      asset.header.version = 1 ∧
      (earlyAsset.run [draft]).detail rereading "asset" Entity (.atTime (.ofMicros 1000000)) =
        .ok asset ∧
      ((earlyAsset.run [draft]).store.latest "asset").map (·.header.version) = some 2 := by
  obtain ⟨asset, hasset⟩ : ∃ asset,
      earlyAsset.detail reading "asset" Entity (.atTime (.ofMicros 1000000)) = .ok asset := ⟨_, rfl⟩
  have haccepted : Validation.asOf (.atTime (.ofMicros 1000000)) reading.now = .ok () := by decide
  have hlt : .ofMicros 1000000 < earlyAsset.store.commitTime reading.now := by decide
  have halike := (pinned_repeatable reachable_earlyAsset haccepted).1 hlt [draft] rereading
    continues_draft rfl
  refine ⟨asset, hasset, ?_, (halike.detail .entity "asset").trans hasset, rfl⟩
  cases hasset
  rfl

/-- At the time of the call, which is accepted, the asset is not seen as before once its status has
been changed at that time. -/
theorem moved_draft :
    earlyAsset.Reachable ∧ Validation.asOf (.atTime reading.now) reading.now = .ok () ∧
      Continues reading.now [draft] rereading.now ∧ rereading.user = reading.user ∧
      ∃ before after, earlyAsset.detail reading "asset" Entity (.atTime reading.now) = .ok before ∧
        (earlyAsset.run [draft]).detail rereading "asset" Entity (.atTime reading.now) =
          .ok after ∧
        before.header.version = 1 ∧ after.header.version = 2 :=
  ⟨reachable_earlyAsset, by decide, continues_draft, rfl, _, _, rfl, rfl, rfl, rfl⟩

end Collection

end MetadataGraph
