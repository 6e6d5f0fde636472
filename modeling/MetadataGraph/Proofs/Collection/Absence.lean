import MetadataGraph.Proofs.Collection.Neighborhood
import MetadataGraph.Proofs.Collection.Searches

/-!
# Absent results

Searches, walks to all that can be reached and histories give a page of a list, and nothing if the
page is empty. We prove:

* `exists_isComplete`: whichever call it is, its result is a page of the complete one;
* `run_eq_none_iff`: nothing is given when there is nothing from the offset on, or when neither the
  call nor the configuration asks for a page with room.
-/

namespace MetadataGraph

/-- With a limit, the page size that is used is only zero if none is asked for and the usual size is
zero. -/
theorem Validation.pageSize_eq_zero_iff {size default limit used : Nat} (hlimit : limit ≠ 0)
    (h : Validation.pageSize size default limit = .ok used) :
    used = 0 ↔ size = 0 ∧ default = 0 := by
  unfold pageSize at h
  split at h
  · cases h
  · cases h
    split <;> omega

/-- The calls that give elements of a kind by page. -/
inductive Inquiry : ElementKind → Type
  /-- A search in a scope, whose own page does not count. -/
  | search {kind : ElementKind} (asked : Search kind) (scope : SearchScope) : Inquiry kind
  /-- The entities that can be reached from an entity. -/
  | related (guid : Guid) (filter : WalkFilter) (sequencing : Sequencing) : Inquiry .entity
  /-- The versions of an element within a window. -/
  | history {kind : ElementKind} (guid : Guid) (window : Window) (order : HistoryOrder) :
      Inquiry kind

namespace Inquiry

variable {kind : ElementKind} {collection : Collection} {call : Call} {start size : Nat}
  {inquiry : Inquiry kind} {result : Option (List kind.Carrier)}

/-- What the operation of an inquiry answers from an offset on, with a page of a size. -/
def run (collection : Collection) (call : Call) (start size : Nat) {kind : ElementKind} :
    Inquiry kind → Outcome (Option (List kind.Carrier))
  | search asked scope => asked.run collection call { scope with start, size }
  | related guid filter sequencing =>
    collection.related call guid filter sequencing start size
  | history guid window order =>
    collection.history call guid kind.Carrier window order start size

/-- A list is the complete result of an inquiry: a listing of the search, the entities of the
neighborhood without a bound in the order asked for, or the versions that meet the window in either
direction. -/
def IsComplete (collection : Collection) (call : Call) {kind : ElementKind} :
    Inquiry kind → List kind.Carrier → Prop
  | search asked scope, complete => asked.IsListing collection scope complete
  | related guid filter sequencing, complete =>
    ∃ graph, collection.neighborhood call guid filter (-1) = .ok graph ∧
      complete.Perm graph.entities ∧ complete.Pairwise fun entity later =>
        sequencing.compareRecords (.entity entity) (.entity later) = .lt
  | history guid window order, complete =>
    let versions := (collection.store.history guid window).filterMap fun revision =>
      Element.ofRecord? revision.data
    complete = match order with
      | .forwards => versions
      | .backwards => versions.reverse

/-- An accepted inquiry gives a page of its complete result. -/
theorem exists_isComplete (hreachable : collection.Reachable)
    (h : inquiry.run collection call start size = .ok result) :
    ∃ complete used, inquiry.IsComplete collection call complete ∧
      collection.pageSize size = .ok used ∧
        result = nonEmpty ((complete.drop start).take used) := by
  cases inquiry with
  | search asked scope =>
    obtain ⟨-, query, hquery, -, used, hused, rfl⟩ := Search.run_eq_ok_iff.mp h
    exact ⟨_, used, Search.isListing_listing hreachable.store.coherent hquery scope, hused, rfl⟩
  | related guid filter sequencing =>
    simp only [run, Collection.related, Outcome.bind_eq_ok_iff, Outcome.pure_eq_ok_iff] at h
    obtain ⟨⟨⟩, -, used, hused, graph, hgraph, rfl⟩ := h
    obtain ⟨-, source, -, rfl⟩ := Collection.neighborhood_eq_ok_iff.mp hgraph
    refine ⟨_, used, ⟨_, hgraph, sequencing.sortBy_perm Record.entity _, ?_⟩, hused, rfl⟩
    exact sequencing.pairwise_sortBy (Graph.pairwise_entities_ofSteps _ _)
  | history guid window order =>
    simp only [run, Collection.history, Outcome.bind_eq_ok_iff] at h
    obtain ⟨⟨⟩, -, ⟨⟩, -, ⟨⟩, -, used, hused, h⟩ := h
    refine ⟨_, used, rfl, hused, ?_⟩
    -- without a version in the window it is only checked that the element is known
    split at h
    · obtain ⟨⟨⟩, -, h⟩ := Outcome.bind_eq_ok_iff.mp h
      exact (Outcome.pure_eq_ok_iff.mp h).symm
    · exact (Outcome.pure_eq_ok_iff.mp h).symm

/-- In an accepted configuration, an accepted call gives nothing when its complete result has no
element at the offset or later; but also when it leaves the page size to a configuration in which
this is zero. -/
theorem run_eq_none_iff (hreachable : collection.Reachable)
    (hconfig : collection.config.check = .ok ())
    (h : inquiry.run collection call start size = .ok result) :
    ∃ complete, inquiry.IsComplete collection call complete ∧
      (result = none ↔
        complete.length ≤ start ∨ size = 0 ∧ collection.config.defaultPageSize = 0) := by
  obtain ⟨complete, used, hcomplete, hused, rfl⟩ := exists_isComplete hreachable h
  have hlimit : collection.config.maxPageSize ≠ 0 := by
    simp only [CollectionConfig.check, Outcome.bind_eq_ok_iff, Outcome.require_eq_ok_iff,
      decide_eq_true_eq] at hconfig
    exact hconfig.choose_spec.2
  refine ⟨complete, hcomplete, ?_⟩
  rw [nonEmpty_page_eq_none_iff, Validation.pageSize_eq_zero_iff hlimit hused]

/-- A collection with one asset and a usual page size. -/
private def oneAsset (defaultPageSize : Nat) : Collection :=
  Collection.run ⟨{ (default : CollectionConfig) with defaultPageSize }, ∅, .empty⟩
    [.addType ⟨"Asset", .entity, none, [], [], [], none, []⟩,
      .operate ⟨"ada", .earliest⟩ "asset" (.addEntity ⟨"Asset", ∅, [], .active, none⟩)]

private theorem reachable_oneAsset (defaultPageSize : Nat) : (oneAsset defaultPageSize).Reachable :=
  (Collection.Reachable.start _ _).run _

/-- The search for all entities. -/
private def allEntities : Inquiry .entity :=
  .search (.entities none none) ⟨none, [], [], .now, default, 0, 0⟩

/-- With a usual page size, nothing is given from the offset one on, as there is one asset. -/
theorem run_oneAsset :
    allEntities.run (oneAsset 100) ⟨"ada", .earliest⟩ 1 0 = .ok none ∧
      ∃ complete, allEntities.IsComplete (oneAsset 100) ⟨"ada", .earliest⟩ complete ∧
        complete.length = 1 := by
  have hnone : allEntities.run (oneAsset 100) ⟨"ada", .earliest⟩ 1 0 = .ok none := rfl
  obtain ⟨element, hsome⟩ : ∃ element,
    allEntities.run (oneAsset 100) ⟨"ada", .earliest⟩ 0 0 = .ok (some [element]) := ⟨_, rfl⟩
  obtain ⟨complete, hcomplete, hiff⟩ := run_eq_none_iff (reachable_oneAsset 100) rfl hnone
  obtain ⟨other, hother, hiff'⟩ := run_eq_none_iff (reachable_oneAsset 100) rfl hsome
  cases Search.IsListing.unique hcomplete hother
  refine ⟨hnone, complete, hcomplete, ?_⟩
  rcases hiff.mp rfl with hlength | ⟨-, ⟨⟩⟩
  refine Nat.le_antisymm hlength (Nat.lt_of_not_le fun hempty => ?_)
  cases hiff'.mpr (Or.inl hempty)

/-- If the usual page size is zero, a search that leaves it to this gives nothing, although there is
an asset. -/
theorem hidden_oneAsset :
    (oneAsset 0).config.check = .ok () ∧
      allEntities.run (oneAsset 0) ⟨"ada", .earliest⟩ 0 0 = .ok none ∧
        ∃ complete, allEntities.IsComplete (oneAsset 0) ⟨"ada", .earliest⟩ complete ∧
          ¬complete.length ≤ 0 := by
  obtain ⟨element, hsome⟩ : ∃ element,
    allEntities.run (oneAsset 0) ⟨"ada", .earliest⟩ 0 1 = .ok (some [element]) := ⟨_, rfl⟩
  obtain ⟨complete, used, hcomplete, -, hpage⟩ := exists_isComplete (reachable_oneAsset 0) hsome
  refine ⟨rfl, rfl, complete, hcomplete, fun hempty => ?_⟩
  rw [nonEmpty_page_eq_none_iff.mpr (Or.inl hempty)] at hpage
  cases hpage

end Inquiry

end MetadataGraph
