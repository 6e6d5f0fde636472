import Mathlib.Logic.Relation
import Mathlib.Order.WellFounded
import MetadataGraph.Proofs.Collection.Paths

/-!
# Shortest paths

What links two entities are the entities and relationships on shortest paths between them. They are
looked for from both ends: a leg is on a shortest path if the ways to it and from it are together as
long as one. The way from it is measured from the finish, against its direction, and a walk looks
only at where it leads to. We prove:

* `Shortest.parts` and `Shortest.exists_flipped`: the parts of a shortest path are shortest, and it
  can be taken back if both its ends are accepted;
* `advances_iff`: measured from both ends, a leg is on a shortest path. If it leaves from the start,
  this only shows if the filter accepts the start;
* `linking_exact_iff`: what is listed for the two entities. It is all that is on shortest paths,
  and connects the two, if and only if the status of the start is accepted.
-/

namespace MetadataGraph

namespace WalkFilter

variable {filter : WalkFilter} {store : Store} {start middle finish : Guid}
  {path before after : List Leg} {leg : Leg}

/-! ## Parts of shortest paths -/

/-- If there is a path, there is a shortest one. -/
theorem Path.exists_shortest (h : filter.Path store start path finish) :
    ∃ least, filter.Shortest store start least finish := by
  obtain ⟨least, hpath, hleast⟩ := (measure List.length).wf.has_min
    {path | filter.Path store start path finish} ⟨path, h⟩
  exact ⟨least, hpath, fun other hother => Nat.le_of_not_lt (hleast other hother)⟩

/-- Shortest paths between two nodes have the same length. -/
theorem Shortest.length_eq {other : List Leg} (h : filter.Shortest store start path finish)
    (hother : filter.Shortest store start other finish) : path.length = other.length :=
  Nat.le_antisymm (h.least other hother.isPath) (hother.least path h.isPath)

/-- The parts of a shortest path are shortest. -/
theorem Shortest.parts (h : filter.Shortest store start (before ++ after) finish) :
    ∃ middle, filter.Shortest store start before middle ∧
      filter.Shortest store middle after finish := by
  obtain ⟨middle, hbefore, hafter⟩ := path_append.mp h.isPath
  -- a shorter part would make a shorter whole
  refine ⟨middle, ⟨hbefore, fun other hother => ?_⟩, ⟨hafter, fun other hother => ?_⟩⟩
  · have hle := h.least (other ++ after) (path_append.mpr ⟨middle, hother, hafter⟩)
    simpa using hle
  · have hle := h.least (before ++ other) (path_append.mpr ⟨middle, hbefore, hother⟩)
    simpa using hle

/-- A shortest path can be taken back if both its ends are accepted. -/
theorem Shortest.exists_flipped (h : filter.Shortest store start path finish)
    (hstart : filter.AcceptsNode store start) (hfinish : filter.AcceptsNode store finish) :
    ∃ back, filter.Shortest store finish back start ∧ back.length = path.length := by
  obtain ⟨back, hback, hlength⟩ := h.isPath.exists_flipped hstart
  refine ⟨back, ⟨hback, fun other hother => ?_⟩, hlength⟩
  obtain ⟨forth, hforth, hsame⟩ := hother.exists_flipped hfinish
  rw [hlength, ← hsame]
  exact h.least forth hforth

/-! ## Legs on shortest paths -/

/-- The leg is on a shortest path from a node to another one. -/
def OnShortest (filter : WalkFilter) (store : Store) (start finish : Guid) (leg : Leg) : Prop :=
  ∃ path, filter.Shortest store start path finish ∧ leg ∈ path

/-- Ways to a leg and from it that are together as long as a shortest path make one. -/
theorem Shortest.onShortest (h : filter.Shortest store start path finish)
    (hbefore : filter.Path store start before leg.source) (hallows : filter.Allows store leg)
    (hafter : filter.Path store leg.target after finish)
    (hlength : before.length + 1 + after.length = path.length) :
    filter.OnShortest store start finish leg := by
  refine ⟨before ++ leg :: after, ⟨path_through_iff.mpr ⟨hbefore, hallows, hafter⟩,
    fun other hother => ?_⟩, by simp⟩
  have hle := h.least other hother
  rw [List.length_append, List.length_cons]
  omega

namespace OnShortest

/-- A leg on a shortest path has shortest paths before and after it. -/
theorem exists_parts (h : filter.OnShortest store start finish leg) :
    filter.Allows store leg ∧ ∃ before after,
      filter.Shortest store start before leg.source ∧
      filter.Shortest store leg.source (leg :: after) finish ∧
      filter.Shortest store leg.target after finish ∧
      filter.Shortest store start (before ++ leg :: after) finish := by
  obtain ⟨path, hshortest, hmem⟩ := h
  obtain ⟨before, after, rfl⟩ := List.append_of_mem hmem
  obtain ⟨_, hbefore, hrest⟩ := hshortest.parts
  obtain ⟨rfl, hallows, -⟩ := hrest.isPath
  have hsplit : filter.Shortest store leg.source ([leg] ++ after) finish := hrest
  obtain ⟨_, hleg, hafter⟩ := hsplit.parts
  obtain ⟨-, rfl, -⟩ := path_singleton.mp hleg.isPath
  exact ⟨hallows, before, after, hbefore, hrest, hafter, hshortest⟩

/-- No leg on a shortest path leads to the start. -/
theorem target_ne (h : filter.OnShortest store start finish leg) : leg.target ≠ start := by
  rintro rfl
  obtain ⟨-, before, after, -, -, hafter, hwhole⟩ := h.exists_parts
  have hlength := hwhole.length_eq hafter
  rw [List.length_append, List.length_cons] at hlength
  omega

end OnShortest

/-- The leg is on a shortest path, and if it leaves from the start, the filter accepts the start. -/
def Advances (filter : WalkFilter) (store : Store) (start finish : Guid) (leg : Leg) : Prop :=
  filter.OnShortest store start finish leg ∧
    (leg.source = start → filter.AcceptsNode store start)

/-- Whether a leg that the filter allows is on a shortest path can be measured from both ends: on
the one hand up to where it leaves, on the other one up to both its ends. -/
theorem advances_iff (hne : start ≠ finish) (hshortest : filter.Shortest store start path finish)
    (hallows : filter.Allows store leg) :
    filter.Advances store start finish leg ↔
      leg.source ≠ finish ∧ ∃ before, filter.Shortest store start before leg.source ∧
        (∃ rest, filter.Shortest store finish rest leg.source ∧
          before.length + rest.length = path.length) ∧
        ∃ after, filter.Shortest store finish after leg.target ∧
          before.length + 1 + after.length = path.length := by
  have hfinish := hshortest.isPath.acceptsNode hne
  constructor
  · rintro ⟨hon, hfirst⟩
    obtain ⟨-, before, after, hbefore, hrest, hafter, hwhole⟩ := hon.exists_parts
    have hlength := hwhole.length_eq hshortest
    rw [List.length_append, List.length_cons] at hlength
    -- to be measured from the finish, the node has to be accepted where the leg leaves
    have hsource : filter.AcceptsNode store leg.source := by
      by_cases hsource : start = leg.source
      · exact hsource ▸ hfirst hsource.symm
      · exact hbefore.isPath.acceptsNode hsource
    obtain ⟨rest, hrest, hsame⟩ := hrest.exists_flipped hsource hfinish
    obtain ⟨back, hback, hsameBack⟩ := hafter.exists_flipped hallows.lands hfinish
    rw [List.length_cons] at hsame
    refine ⟨?_, before, hbefore, ⟨rest, hrest, by omega⟩, back, hback, by omega⟩
    rintro heq
    -- the way to the leg would already lead to the finish
    have hless := hshortest.length_eq (heq ▸ hbefore)
    omega
  · rintro ⟨-, before, hbefore, ⟨rest, hrest, -⟩, after, hafter, hlength⟩
    obtain ⟨back, hback, hsame⟩ := hafter.exists_flipped hfinish hallows.lands
    refine ⟨hshortest.onShortest hbefore.isPath hallows hback.isPath (by omega), ?_⟩
    -- a start that is reached from the finish is accepted
    rintro heq
    exact (heq ▸ hrest).isPath.acceptsNode hne.symm

/-- If only statuses are looked at, a full entity is accepted at a node for its status. -/
theorem acceptsNode_ofStatuses_iff {statuses : List Status} {asOf : AsOf} {entity : Entity}
    (hread : store.read start asOf = some (.entity entity)) :
    (ofStatuses statuses asOf).AcceptsNode store start ↔
      (ofStatuses statuses asOf).acceptsStatus entity.header := by
  have hread' : store.read start (ofStatuses statuses asOf).asOf = some (.entity entity) := hread
  simp [AcceptsNode, hread', admits_ofStatuses_iff]

end WalkFilter

/-! ## What a graph links -/

namespace Graph

/-- The relationships of a graph lead from a node to another one. -/
def Connects (graph : Graph) : Guid → Guid → Prop :=
  Relation.ReflTransGen fun node other =>
    ∃ relationship ∈ graph.relationships, relationship.Connects node other

/-- A path connects its ends in every graph that has the relationships that it leads over. -/
theorem connects_of_path {graph : Graph} {filter : WalkFilter} {store : Store}
    {start finish : Guid} {path : List Leg} (h : filter.Path store start path finish)
    (hmem : ∀ leg ∈ path, leg.relationship ∈ graph.relationships) :
    graph.Connects start finish := by
  induction path generalizing start with
  | nil =>
    cases h
    exact .refl
  | cons leg rest ih =>
    obtain ⟨rfl, hallows, hrest⟩ := h
    obtain ⟨hleg, hlegs⟩ := List.forall_mem_cons.mp hmem
    exact (ih hrest hlegs).head ⟨leg.relationship, hleg, hallows.connects⟩

/-- A graph lists all that is on shortest paths between two nodes: the full entities that are seen
at the start and where the legs of these paths lead, and the relationships that they lead over. -/
def ListsShortest (graph : Graph) (filter : WalkFilter) (store : Store) (start finish : Guid) :
    Prop :=
  graph.Lists
    (fun entity => ∃ node path, filter.Shortest store start path finish ∧
      (node = start ∨ ∃ leg ∈ path, leg.target = node) ∧
      store.read node filter.asOf = some (.entity entity))
    (fun relationship => ∃ leg, filter.OnShortest store start finish leg ∧
      leg.relationship = relationship)

/-- A graph that lists all that is on shortest paths between two nodes connects them, if there is a
path. -/
theorem ListsShortest.connects {graph : Graph} {filter : WalkFilter} {store : Store}
    {start finish : Guid} {path : List Leg} (h : graph.ListsShortest filter store start finish)
    (hshortest : filter.Shortest store start path finish) : graph.Connects start finish :=
  connects_of_path hshortest.isPath fun leg hmem =>
    (h.mem_relationships _).mpr ⟨leg, ⟨path, hshortest, hmem⟩, rfl⟩

end Graph

namespace Collection

open WalkFilter

variable {collection : Collection} {call : Call} {start finish : Guid} {filter : WalkFilter}
  {asOf : AsOf} {first last : Entity} {path : List Leg} {step : Step}

/-! ## Shortest paths from both ends -/

/-- The steps taken are those from a node where the distances from both ends make up the length, to
one where they do so too. -/
theorem mem_shortestSteps_iff {fromStart fromFinish : NameMap Nat} {length : Nat} :
    step ∈ collection.shortestSteps filter fromStart fromFinish finish length ↔
      ∃ node, step ∈ filter.steps collection.store node ∧ node ≠ finish ∧
        ∃ before, fromStart.get? node = some before ∧
          (∃ rest, fromFinish.get? node = some rest ∧ before + rest = length) ∧
          ∃ after, fromFinish.get? step.target = some after ∧ before + 1 + after = length := by
  simp only [shortestSteps, List.mem_flatMap, List.mem_filter, Prod.exists,
    NameMap.mem_entries_iff, NameMap.get?_filter, Option.filter_eq_some_iff, Bool.and_eq_true,
    decide_eq_true_eq, Option.any_eq_true]
  refine exists_congr fun node => ?_
  constructor
  · rintro ⟨before, ⟨hbefore, hne, hrest⟩, hstep, hafter⟩
    exact ⟨hstep, hne, before, hbefore, hrest, hafter⟩
  · rintro ⟨hstep, hne, before, hbefore, hrest, hafter⟩
    exact ⟨before, ⟨hbefore, hne, hrest⟩, hstep, hafter⟩

/-- With the distances that walks from both ends find, the steps taken are those over the legs that
are on shortest paths, except from a start that is not accepted. -/
theorem mem_shortestSteps_distances_iff (hcoherent : collection.store.Coherent)
    (hstart : collection.store.read start filter.asOf = some (.entity first))
    (hne : start ≠ finish) (hshortest : filter.Shortest collection.store start path finish) :
    step ∈ collection.shortestSteps filter
        (collection.distances filter start collection.store.size)
        (collection.distances filter finish path.length) finish path.length ↔
      ∃ node, step ∈ filter.steps collection.store node ∧
        filter.Advances collection.store start finish ⟨node, step.relationship, step.target⟩ := by
  -- a distance from the finish that makes up the length is no larger than it
  have hfromFinish {node : Guid} {more : Nat} :
      (∃ rest, (collection.distances filter finish path.length).get? node = some rest ∧
          more + rest = path.length) ↔
        ∃ rest, filter.Shortest collection.store finish rest node ∧
          more + rest.length = path.length := by
    simp only [get?_distances_eq_some_iff hcoherent]
    constructor
    · rintro ⟨_, ⟨⟨rest, hrest, rfl⟩, -⟩, hsum⟩
      exact ⟨rest, hrest, hsum⟩
    · rintro ⟨rest, hrest, hsum⟩
      exact ⟨_, ⟨⟨rest, hrest, rfl⟩, by omega⟩, hsum⟩
  rw [mem_shortestSteps_iff]
  refine exists_congr fun node => and_congr_right fun hstep => ?_
  rw [advances_iff hne hshortest ((exists_step_iff hcoherent).mp ⟨step, hstep, rfl, rfl⟩)]
  simp only [get?_distances_size_iff hcoherent hstart, exists_exists_and_eq_and, hfromFinish]

/-! ## Linking -/

/-- What is checked before two entities are linked, and the entities at both ends. -/
structure LinksBetween (collection : Collection) (call : Call) (start finish : Guid) (asOf : AsOf)
    (first last : Entity) : Prop where
  /-- The user is named. -/
  named : Validation.userId call.user = .ok ()
  /-- The first identity is not blank. -/
  startNotBlank : Validation.notBlank start "startEntityGUID" = .ok ()
  /-- The second identity is not blank. -/
  finishNotBlank : Validation.notBlank finish "endEntityGUID" = .ok ()
  /-- The time is not in the future. -/
  past : Validation.asOf asOf call.now = .ok ()
  /-- The first entity is seen and live. -/
  first : collection.walkStart start asOf = .ok first
  /-- The second entity is seen and live. -/
  last : collection.walkStart finish asOf = .ok last

/-- The graph that links two entities by steps along shortest paths of a length. -/
def linkingGraph (collection : Collection) (filter : WalkFilter) (start finish : Guid)
    (first last : Entity) (length : Nat) : Graph :=
  .ofSteps [first, last] (collection.shortestSteps filter
    (collection.distances filter start collection.store.size)
    (collection.distances filter finish length) finish length)

/-- Nothing links two entities if there is no path between them, else a graph does. -/
theorem linking_eq (hlinks : collection.LinksBetween call start finish asOf first last)
    (hne : start ≠ finish) (statuses : List Status) :
    let filter := WalkFilter.ofStatuses statuses asOf
    collection.linking call start finish statuses asOf =
      .ok (((collection.distances filter start collection.store.size).get? finish).map
        (collection.linkingGraph filter start finish first last)) := by
  intro filter
  simp only [linking, hlinks.named, hlinks.startNotBlank, hlinks.finishNotBlank, hlinks.past,
    hlinks.first, hlinks.last, bind, Except.bind, if_neg hne]
  cases (collection.distances filter start collection.store.size).get? finish with
  | none => rfl
  | some length => rfl

/-- The graph that links two entities lists them, and what is seen along the legs on shortest paths,
except from a start that is not accepted. -/
theorem lists_linkingGraph (hcoherent : collection.store.Coherent)
    (hstart : collection.store.read start filter.asOf = some (.entity first))
    (hfinish : collection.store.read finish filter.asOf = some (.entity last))
    (hne : start ≠ finish) (hshortest : filter.Shortest collection.store start path finish) :
    (collection.linkingGraph filter start finish first last path.length).Lists
      (fun entity => entity = first ∨ entity = last ∨
        ∃ leg, filter.Advances collection.store start finish leg ∧
          collection.store.read leg.target filter.asOf = some (.entity entity))
      (fun relationship => ∃ leg, filter.Advances collection.store start finish leg ∧
        leg.relationship = relationship) := by
  have hstarts : ∀ entity ∈ [first, last],
      collection.store.read entity.header.guid filter.asOf = some (.entity entity) := by
    have hfirst : first.header.guid = start := hcoherent.guid_of_read hstart
    have hlast : last.header.guid = finish := hcoherent.guid_of_read hfinish
    simpa [hfirst, hlast] using ⟨hstart, hfinish⟩
  have hallows {leg : Leg} (h : filter.Advances collection.store start finish leg) :
      filter.Allows collection.store leg := h.1.exists_parts.1
  refine (Graph.lists_ofSteps hcoherent hstarts fun step =>
    mem_shortestSteps_distances_iff hcoherent hstart hne hshortest).congr (fun entity => ?_)
    fun relationship => ?_
  · simp only [List.mem_cons, List.not_mem_nil, or_false, or_assoc]
    refine or_congr_right (or_congr_right (exists_congr fun leg => ?_))
    exact and_iff_right_of_imp fun h => hallows h.1
  · exact exists_congr fun leg => and_iff_right_of_imp fun h => hallows h.1

section Linked

variable (hcoherent : collection.store.Coherent)
  (hstart : collection.store.read start filter.asOf = some (.entity first))
  (hfinish : collection.store.read finish filter.asOf = some (.entity last))
  (hne : start ≠ finish) (hshortest : filter.Shortest collection.store start path finish)

include hcoherent hstart hfinish hne hshortest

/-- If the start is accepted, all that is on shortest paths is listed. -/
theorem listsShortest_linkingGraph (haccepts : filter.AcceptsNode collection.store start) :
    (collection.linkingGraph filter start finish first last path.length).ListsShortest filter
      collection.store start finish := by
  refine (lists_linkingGraph hcoherent hstart hfinish hne hshortest).congr (fun entity => ?_)
    fun relationship => ?_
  · constructor
    · rintro (rfl | rfl | ⟨leg, ⟨⟨other, hother, hmem⟩, -⟩, hread⟩)
      · exact ⟨start, path, hshortest, Or.inl rfl, hstart⟩
      · exact ⟨finish, path, hshortest, Or.inr (hshortest.isPath.exists_last hne), hfinish⟩
      · exact ⟨leg.target, other, hother, Or.inr ⟨leg, hmem, rfl⟩, hread⟩
    · rintro ⟨node, other, hother, rfl | ⟨leg, hmem, rfl⟩, hread⟩
      · rw [hstart] at hread
        cases hread
        exact Or.inl rfl
      · exact Or.inr (Or.inr ⟨leg, ⟨⟨other, hother, hmem⟩, fun _ => haccepts⟩, hread⟩)
  · exact exists_congr fun leg => and_congr_left' (and_iff_left fun _ => haccepts)

/-- If the relationships listed connect the two entities, the start is accepted. -/
theorem acceptsNode_of_connects
    (h : (collection.linkingGraph filter start finish first last path.length).Connects start
      finish) : filter.AcceptsNode collection.store start := by
  rcases h.cases_head with heq | ⟨next, ⟨relationship, hmem, hconnects⟩, -⟩
  · exact absurd heq hne
  · obtain ⟨leg, ⟨hon, hfirst⟩, rfl⟩ := ((lists_linkingGraph hcoherent hstart hfinish hne
      hshortest).mem_relationships relationship).mp hmem
    -- the leg over the relationship leaves from the start, as it does not lead there
    rcases hon.exists_parts.1.connects.eq_or_eq hconnects with hsource | htarget
    · exact hfirst hsource
    · exact absurd htarget hon.target_ne

end Linked

/-- If there is a path, two entities are linked by a graph. -/
theorem linking_of_shortest (hcoherent : collection.store.Coherent)
    (hlinks : collection.LinksBetween call start finish asOf first last) (hne : start ≠ finish)
    {statuses : List Status}
    (hshortest : (WalkFilter.ofStatuses statuses asOf).Shortest collection.store start path
      finish) :
    collection.linking call start finish statuses asOf =
      .ok (some (collection.linkingGraph (.ofStatuses statuses asOf) start finish first last
        path.length)) := by
  have hstart := (walkStart_eq_ok_iff.mp hlinks.first).1
  have hlength := (get?_distances_size_iff hcoherent hstart).mpr ⟨path, hshortest, rfl⟩
  rw [linking_eq hlinks hne, hlength, Option.map_some]

/-- Nothing links two entities if and only if there is no path. -/
theorem linking_eq_none_iff (hcoherent : collection.store.Coherent)
    (hlinks : collection.LinksBetween call start finish asOf first last) (hne : start ≠ finish)
    {statuses : List Status} :
    collection.linking call start finish statuses asOf = .ok none ↔
      ¬∃ path, (WalkFilter.ofStatuses statuses asOf).Path collection.store start path finish := by
  have hstart := (walkStart_eq_ok_iff.mp hlinks.first).1
  constructor
  · rintro hnone ⟨path, hpath⟩
    obtain ⟨least, hshortest⟩ := hpath.exists_shortest
    rw [linking_of_shortest hcoherent hlinks hne hshortest] at hnone
    cases hnone
  · intro hno
    rw [linking_eq hlinks hne, Except.ok.injEq, Option.map_eq_none_iff]
    refine Option.eq_none_iff_forall_ne_some.mpr fun length hlength => ?_
    obtain ⟨path, hshortest, -⟩ := (get?_distances_size_iff hcoherent hstart).mp hlength
    exact hno ⟨path, hshortest.isPath⟩

/-- Two entities are linked if and only if there is a path between them. Then both are listed, and
the relationships and full entities along the legs on shortest paths, except that the legs from the
start are left out if its status is not accepted. What is listed is all that is on shortest paths,
and connects the two, if and only if it is. -/
theorem linking_exact_iff (hreachable : collection.Reachable) (hne : start ≠ finish)
    (hlinks : collection.LinksBetween call start finish asOf first last)
    (statuses : List Status) :
    let filter := WalkFilter.ofStatuses statuses asOf
    (collection.linking call start finish statuses asOf = .ok none ↔
        ¬∃ path, filter.Path collection.store start path finish) ∧
      ((∃ path, filter.Path collection.store start path finish) →
        ∃ graph, collection.linking call start finish statuses asOf = .ok (some graph) ∧
          graph.Lists
            (fun entity => entity = first ∨ entity = last ∨
              ∃ leg, filter.OnShortest collection.store start finish leg ∧
                (leg.source = start → filter.acceptsStatus first.header) ∧
                collection.store.read leg.target filter.asOf = some (.entity entity))
            (fun relationship => ∃ leg, filter.OnShortest collection.store start finish leg ∧
              (leg.source = start → filter.acceptsStatus first.header) ∧
              leg.relationship = relationship) ∧
          (graph.ListsShortest filter collection.store start finish ↔
            filter.acceptsStatus first.header) ∧
          (graph.Connects start finish ↔ filter.acceptsStatus first.header)) := by
  intro filter
  have hcoherent := hreachable.store.coherent
  have hstart : collection.store.read start filter.asOf = some (.entity first) :=
    (walkStart_eq_ok_iff.mp hlinks.first).1
  have hfinish : collection.store.read finish filter.asOf = some (.entity last) :=
    (walkStart_eq_ok_iff.mp hlinks.last).1
  have haccepts : filter.AcceptsNode collection.store start ↔ filter.acceptsStatus first.header :=
    acceptsNode_ofStatuses_iff hstart
  refine ⟨linking_eq_none_iff hcoherent hlinks hne, ?_⟩
  rintro ⟨path, hpath⟩
  obtain ⟨least, hshortest⟩ := hpath.exists_shortest
  have hlists := lists_linkingGraph hcoherent hstart hfinish hne hshortest
  have hall := listsShortest_linkingGraph hcoherent hstart hfinish hne hshortest
  have hfirst := acceptsNode_of_connects hcoherent hstart hfinish hne hshortest
  refine ⟨_, linking_of_shortest hcoherent hlinks hne hshortest, ?_, ?_, ?_⟩
  · simpa only [Advances, haccepts, and_assoc] using hlists
  · rw [← haccepts]
    exact ⟨fun h => hfirst (h.connects hshortest), hall⟩
  · rw [← haccepts]
    exact ⟨hfirst, fun h => (hall h).connects hshortest⟩

/-- A row of three assets, with two links between the first ones and one of the second with
itself. -/
private def linkedRow : Collection :=
  let call : Call := ⟨"ada", .earliest⟩
  let asset (guid : Guid) : Event :=
    .operate call guid (.addEntity ⟨"Asset", ∅, [], .active, none⟩)
  let link (guid one two : Guid) : Event :=
    .operate call guid (.addRelationship ⟨"Link", ∅, one, two, .active, none⟩)
  run ⟨default, ∅, .empty⟩
    [.addType ⟨"Asset", .entity, none, [], [], [], none, []⟩,
      .addType ⟨"Link", .relationship, none, [], [], [], none, []⟩,
      asset "a", asset "b", asset "c", link "ab" "a" "b", link "ba" "b" "a", link "bb" "b" "b",
      link "cb" "c" "b"]

/-- The link of the second asset with itself is on no shortest path along the row. -/
theorem linking_linkedRow :
    let filter := WalkFilter.ofStatuses [] .now
    ∃ first last graph, "a" ≠ "c" ∧
      linkedRow.LinksBetween ⟨"ada", .earliest⟩ "a" "c" .now first last ∧
      linkedRow.linking ⟨"ada", .earliest⟩ "a" "c" [] .now = .ok (some graph) ∧
      graph.entityGuids = ["a", "b", "c"] ∧ graph.relationshipGuids = ["ab", "ba", "cb"] ∧
      graph.ListsShortest filter linkedRow.store "a" "c" ∧ graph.Connects "a" "c" := by
  intro filter
  have hreachable : linkedRow.Reachable := (Reachable.start _ _).run _
  obtain ⟨first, hfirst⟩ : ∃ first, linkedRow.walkStart "a" .now = .ok first := ⟨_, rfl⟩
  obtain ⟨last, hlast⟩ : ∃ last, linkedRow.walkStart "c" .now = .ok last := ⟨_, rfl⟩
  have hne : "a" ≠ "c" := by decide
  have hlinks : linkedRow.LinksBetween ⟨"ada", .earliest⟩ "a" "c" .now first last :=
    ⟨rfl, rfl, rfl, rfl, hfirst, hlast⟩
  have hfound : (linkedRow.linking ⟨"ada", .earliest⟩ "a" "c" [] .now).map
      (Option.map fun graph => (graph.entityGuids, graph.relationshipGuids)) =
        .ok (some (["a", "b", "c"], ["ab", "ba", "cb"])) := by
    decide
  have haccepts : (linkedRow.walkStart "a" .now).map (filter.acceptsStatus ·.header) =
      .ok true := by
    decide
  obtain ⟨hnone, hsome⟩ := linking_exact_iff hreachable hne hlinks []
  have hpath : ∃ path, filter.Path linkedRow.store "a" path "c" := by
    by_contra hno
    rw [hnone.mpr hno] at hfound
    cases hfound
  obtain ⟨graph, hgraph, -, hall, hconnects⟩ := hsome hpath
  rw [hgraph] at hfound
  rw [hfirst] at haccepts
  obtain ⟨hentities, hrelationships⟩ := Prod.mk.inj (Option.some.inj (Except.ok.inj hfound))
  exact ⟨first, last, graph, hne, hlinks, hgraph, hentities, hrelationships,
    hall.mpr (Except.ok.inj haccepts), hconnects.mpr (Except.ok.inj haccepts)⟩

/-- A collection with an asset that is linked with a draft by a draft. -/
private def linkedDraft : Collection :=
  let call : Call := ⟨"ada", .earliest⟩
  run ⟨default, ∅, .empty⟩
    [.addType ⟨"Asset", .entity, none, [], [], [], none, []⟩,
      .addType ⟨"Link", .relationship, none, [], [], [], none, []⟩,
      .operate call "asset" (.addEntity ⟨"Asset", ∅, [], .active, none⟩),
      .operate call "draft" (.addEntity ⟨"Asset", ∅, [], .draft, none⟩),
      .operate call "link" (.addRelationship ⟨"Link", ∅, "asset", "draft", .draft, none⟩)]

/-- If only drafts are accepted, the link is a path from the asset to the draft, but it is not
listed, so that the two entities listed are not connected. -/
theorem not_connects_linkedDraft :
    let filter := WalkFilter.ofStatuses [.draft] .now
    ∃ first last link graph, linkedDraft.Reachable ∧
      linkedDraft.LinksBetween ⟨"ada", .earliest⟩ "asset" "draft" .now first last ∧
      filter.Shortest linkedDraft.store "asset" [⟨"asset", link, "draft"⟩] "draft" ∧
      linkedDraft.linking ⟨"ada", .earliest⟩ "asset" "draft" [.draft] .now = .ok (some graph) ∧
      graph.entityGuids = ["asset", "draft"] ∧ graph.relationshipGuids = [] ∧
      ¬graph.ListsShortest filter linkedDraft.store "asset" "draft" ∧
      ¬graph.Connects "asset" "draft" := by
  intro filter
  have hreachable : linkedDraft.Reachable := (Reachable.start _ _).run _
  obtain ⟨first, hfirst⟩ : ∃ first, linkedDraft.walkStart "asset" .now = .ok first := ⟨_, rfl⟩
  obtain ⟨last, hlast⟩ : ∃ last, linkedDraft.walkStart "draft" .now = .ok last := ⟨_, rfl⟩
  have hlinks : linkedDraft.LinksBetween ⟨"ada", .earliest⟩ "asset" "draft" .now first last :=
    ⟨rfl, rfl, rfl, rfl, hfirst, hlast⟩
  obtain ⟨graph, hgraph⟩ : ∃ graph,
    linkedDraft.linking ⟨"ada", .earliest⟩ "asset" "draft" [.draft] .now = .ok (some graph) :=
    ⟨_, rfl⟩
  have hfound : (linkedDraft.linking ⟨"ada", .earliest⟩ "asset" "draft" [.draft] .now).map
      (Option.map fun graph => (graph.entityGuids, graph.relationshipGuids)) =
        .ok (some (["asset", "draft"], [])) := by
    decide
  rw [hgraph] at hfound
  obtain ⟨hentities, hrelationships⟩ := Prod.mk.inj (Option.some.inj (Except.ok.inj hfound))
  obtain ⟨step, hstep, htarget⟩ :
    ∃ step ∈ filter.steps linkedDraft.store "asset", step.target = "draft" := by decide
  have hallows := (exists_step_iff hreachable.store.coherent).mp ⟨step, hstep, rfl, htarget⟩
  have hshortest : filter.Shortest linkedDraft.store "asset"
      [⟨"asset", step.relationship, "draft"⟩] "draft" := by
    refine ⟨path_singleton.mpr ⟨rfl, rfl, hallows⟩, fun other hother => ?_⟩
    obtain ⟨leg, hmem, -⟩ := hother.exists_last (by decide)
    exact List.length_pos_of_mem hmem
  have hapart : ¬graph.Connects "asset" "draft" := by
    intro hconnects
    rcases hconnects.cases_head with heq | ⟨next, ⟨relationship, hmem, -⟩, -⟩
    · exact absurd heq (by decide)
    · rw [List.map_eq_nil_iff.mp hrelationships] at hmem
      cases hmem
  exact ⟨first, last, step.relationship, graph, hreachable, hlinks, hshortest, hgraph, hentities,
    hrelationships, fun hall => hapart (hall.connects hshortest), hapart⟩

end Collection

end MetadataGraph
