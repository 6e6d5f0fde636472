import MetadataGraph.Proofs.Collection.Run
import MetadataGraph.Proofs.Store.Traversal
import MetadataGraph.Proofs.Walk

/-!
# Neighborhoods

The neighborhood of an entity holds the relationships that a walk from it takes in a number of
rounds, and the entities that it meets. We prove:

* `WalkFilter.acceptsEntity_iff`: which entities a filter accepts;
* `mem_steps_iff`: the steps from a node lead over the relationships seen there that the filter
  accepts, to entities and proxies that it accepts;
* `mem_relationships_ball_iff` and `mem_entities_ball_iff`: what a walk of some rounds takes and
  meets;
* `neighborhood_eq_ok_iff`: the depth only decides how many rounds there are;
* `neighborhood_grows`: neighborhoods grow with the depth, and the one without a bound is the
  largest up to the depth that the configuration sets for it.
-/

namespace MetadataGraph

/-! ## Steps -/

namespace WalkFilter

variable {filter : WalkFilter} {store : Store} {node : Guid} {step : Step}

/-- What a filter admits: the status is accepted, and of the types and of the classifications that
the filter names, if any, the entity has one each. -/
@[mk_iff]
structure Admits (filter : WalkFilter) (entity : Entity) : Prop where
  /-- The status is accepted. -/
  accepted : filter.acceptsStatus entity.header
  /-- The type is one of those that the filter names. -/
  typed : filter.entityTypes = [] ∨
    ∃ name ∈ filter.entityTypes, entity.header.typeRef.isA name
  /-- The entity carries one of the classifications that the filter names. -/
  classified : filter.classifications = [] ∨
    ∃ name ∈ filter.classifications, entity.isClassifiedAs name

/-- A filter accepts the entities that it admits. -/
theorem acceptsEntity_iff {entity : Entity} :
    filter.acceptsEntity entity ↔ filter.Admits entity := by
  simp [acceptsEntity, admits_iff, and_assoc]

/-- A filter that looks at statuses only admits an entity for its status. -/
theorem admits_ofStatuses_iff {statuses : List Status} {asOf : AsOf} {entity : Entity} :
    (ofStatuses statuses asOf).Admits entity ↔
      (ofStatuses statuses asOf).acceptsStatus entity.header :=
  ⟨Admits.accepted, fun haccepted => ⟨haccepted, Or.inl rfl, Or.inl rfl⟩⟩

/-- A step leads to a record that the filter accepts: an entity, which it names, or a proxy. -/
def Accepts (filter : WalkFilter) (step : Step) : Record → Prop
  | .entity entity => filter.Admits entity ∧ step.entity = some entity
  | .proxy proxy => filter.acceptsStatus proxy.header ∧ step.entity = none
  | .relationship _ => False

/-- A hop makes a step over its relationship to the other end, if the filter accepts both. -/
theorem step?_eq_some_iff {hop : Hop} :
    filter.step? node hop = some step ↔
      step.relationship = hop.relationship ∧ filter.acceptsRelationship hop.relationship ∧
        (∃ other, hop.relationship.otherEnd? node = some other ∧
          step.target = other.header.guid) ∧
        ∃ record, hop.neighbor = some record ∧ filter.Accepts step record := by
  obtain ⟨relationship, target, entity⟩ := step
  by_cases haccepts : filter.acceptsRelationship hop.relationship
  · simp only [step?, haccepts, guard, if_true, bind, pure, Option.bind_some,
      Option.bind_eq_some_iff, true_and]
    constructor
    · rintro ⟨other, hother, hstep⟩
      split at hstep
      · rename_i found hfound
        split at hstep
        · cases hstep
          exact ⟨rfl, ⟨other, hother, rfl⟩, _, hfound, acceptsEntity_iff.mp ‹_›, rfl⟩
        · cases hstep
      · rename_i found hfound
        split at hstep
        · cases hstep
          exact ⟨rfl, ⟨other, hother, rfl⟩, _, hfound, ‹_›, rfl⟩
        · cases hstep
      · cases hstep
    · rintro ⟨rfl, ⟨other, hother, rfl⟩, record, hrecord, htarget⟩
      refine ⟨other, hother, ?_⟩
      rw [hrecord]
      cases record with
      | entity found =>
        obtain ⟨hfound, rfl⟩ := htarget
        exact if_pos (acceptsEntity_iff.mpr hfound)
      | proxy found =>
        obtain ⟨hfound, rfl⟩ := htarget
        exact if_pos hfound
      | relationship found => exact htarget.elim
  · refine iff_of_false ?_ fun ⟨_, hhop, _⟩ => haccepts hhop
    simp [step?, haccepts, guard, failure]

/-- The steps from a node lead over the relationships that are seen there and accepted by the
filter, to what is seen and accepted at the other end. -/
theorem mem_steps_iff (h : store.Coherent) :
    step ∈ filter.steps store node ↔
      store.read step.relationship.header.guid filter.asOf =
          some (.relationship step.relationship) ∧
        filter.acceptsRelationship step.relationship ∧
          step.relationship.Connects node step.target ∧
            ∃ record, store.read step.target filter.asOf = some record ∧
              filter.Accepts step record := by
  simp only [steps, List.mem_filterMap, h.mem_traverse_iff, step?_eq_some_iff,
    ← Relationship.exists_otherEnd?_iff]
  constructor
  · rintro ⟨hop, ⟨hread, -, ⟨other, hother, rfl⟩, hneighbor⟩, hsame, haccepts,
      ⟨other', hother', htarget⟩, htargets⟩
    cases hother.symm.trans hother'
    rw [hsame, htarget, ← hneighbor]
    exact ⟨hread, haccepts, ⟨other, hother, rfl⟩, htargets⟩
  · rintro ⟨hread, haccepts, ⟨other, hother, htarget⟩, htargets⟩
    rw [← htarget] at htargets
    exact ⟨⟨step.relationship, store.read other.header.guid filter.asOf⟩,
      ⟨hread, _, ⟨other, hother, rfl⟩, rfl⟩, rfl, haccepts, ⟨other, hother, htarget.symm⟩,
      htargets⟩

/-- An entity that a step leads to is seen under its identity. -/
theorem read_of_mem_steps (h : store.Coherent) (hmem : step ∈ filter.steps store node)
    {entity : Entity} (hentity : step.entity = some entity) :
    store.read entity.header.guid filter.asOf = some (.entity entity) := by
  obtain ⟨-, -, -, record, hread, haccepts⟩ := (mem_steps_iff h).mp hmem
  cases record with
  | entity found =>
    cases hentity.symm.trans haccepts.2
    have hguid : entity.header.guid = step.target := h.guid_of_read hread
    rw [hguid]
    exact hread
  | proxy found => cases hentity.symm.trans haccepts.2
  | relationship found => exact haccepts.elim

end WalkFilter

/-! ## Graphs of steps -/

namespace Graph

/-- A graph is part of another one if all its entities and relationships are. -/
instance : HasSubset Graph where
  Subset graph larger :=
    graph.entities ⊆ larger.entities ∧ graph.relationships ⊆ larger.relationships

variable {starts : List Entity} {steps : List Step}

/-- If all entities are what a read sees, the graph of steps has all entities that are met. -/
theorem mem_entities_ofSteps_iff (store : Store) (asOf : AsOf) (hstarts : ∀ entity ∈ starts,
      store.read entity.header.guid asOf = some (.entity entity))
    (hsteps : ∀ step ∈ steps, ∀ entity, step.entity = some entity →
      store.read entity.header.guid asOf = some (.entity entity)) {entity : Entity} :
    entity ∈ (ofSteps starts steps).entities ↔
      entity ∈ starts ∨ ∃ step ∈ steps, step.entity = some entity := by
  have hread (met : Entity) (hmet : met ∈ starts ++ steps.filterMap (·.entity)) :
      store.read met.header.guid asOf = some (.entity met) := by
    rcases List.mem_append.mp hmet with hmet | hmet
    · exact hstarts met hmet
    · obtain ⟨step, hstep, hentity⟩ := List.mem_filterMap.mp hmet
      exact hsteps step hstep met hentity
  rw [ofSteps, NameMap.mem_values_ofList_iff]
  · simp [← or_and_right]
  · simp only [List.mem_map, Prod.mk.injEq]
    rintro guid one two ⟨_, hone, hguid, rfl⟩ ⟨_, htwo, rfl, rfl⟩
    have hsame := hread _ hone
    rw [hguid, hread _ htwo] at hsame
    exact (Record.entity.inj (Option.some.inj hsame)).symm

/-- If all relationships are what a read sees, the graph of steps has all that are walked over. -/
theorem mem_relationships_ofSteps_iff (store : Store) (asOf : AsOf) (hsteps : ∀ step ∈ steps,
      store.read step.relationship.header.guid asOf = some (.relationship step.relationship))
    {relationship : Relationship} :
    relationship ∈ (ofSteps starts steps).relationships ↔
      ∃ step ∈ steps, step.relationship = relationship := by
  rw [ofSteps, NameMap.mem_values_ofList_iff]
  · simp
  · simp only [List.mem_map, Prod.mk.injEq]
    rintro guid one two ⟨_, ⟨step, hstep, rfl⟩, hguid, rfl⟩ ⟨_, ⟨other, hother, rfl⟩, rfl, rfl⟩
    have hsame := hsteps step hstep
    rw [hguid, hsteps other hother] at hsame
    exact (Record.relationship.inj (Option.some.inj hsame)).symm

/-- The entities of a graph of steps are in the order of their identities. -/
theorem pairwise_entities_ofSteps (starts : List Entity) (steps : List Step) :
    (ofSteps starts steps).entities.Pairwise
      fun entity later => entity.header.guid < later.header.guid :=
  NameMap.pairwise_values_ofList _ _

end Graph

namespace Collection

variable {collection : Collection} {call : Call} {guid : Guid} {filter : WalkFilter}
  {start : Entity} {rounds more : Nat} {depth : Int32} {graph : Graph}

/-! ## Balls -/

/-- The nodes that the steps of a filter lead to from a node. -/
def targets (collection : Collection) (filter : WalkFilter) (node : Guid) : List Guid :=
  (filter.steps collection.store node).map (·.target)

/-- All nodes that a walk can reach from an entity are stored, so that they are at a smaller
distance than there are identities. -/
theorem distance_lt_size (hcoherent : collection.store.Coherent) {start : Entity} {node : Guid}
    {distance : Nat} (hstart : collection.store.read guid filter.asOf = some (.entity start))
    (h : Walk.IsDistance (collection.targets filter) guid node distance) :
    distance < collection.store.size := by
  have hlength : collection.store.chains.keys.length = collection.store.size := List.length_map ..
  rw [← hlength]
  refine h.lt_length fun steps met hreaches => ?_
  obtain ⟨record, hread⟩ : ∃ record, collection.store.read met filter.asOf = some record := by
    cases hreaches with
    | start => exact ⟨_, hstart⟩
    | step hbefore hnext =>
      obtain ⟨step, hstep, rfl⟩ := List.mem_map.mp hnext
      obtain ⟨-, -, -, record, hread, -⟩ := (WalkFilter.mem_steps_iff hcoherent).mp hstep
      exact ⟨record, hread⟩
  exact NameMap.mem_keys_iff.mpr (Store.isSome_get?_of_read hread)

/-- The steps that a walk of some rounds takes. -/
def ballSteps (collection : Collection) (filter : WalkFilter) (guid : Guid) (rounds : Nat) :
    List Step :=
  let inner := (collection.distances filter guid rounds).filter fun _ distance => distance < rounds
  inner.keys.flatMap (filter.steps collection.store)

/-- The graph of all steps that a walk of some rounds takes from an entity. -/
def ball (collection : Collection) (filter : WalkFilter) (start : Entity) (guid : Guid)
    (rounds : Nat) : Graph :=
  .ofSteps [start] (collection.ballSteps filter guid rounds)

/-- The steps that a walk of some rounds takes are those from the nodes at a smaller distance. -/
theorem mem_ballSteps_iff {step : Step} :
    step ∈ collection.ballSteps filter guid rounds ↔
      ∃ node distance, Walk.IsDistance (collection.targets filter) guid node distance ∧
        distance < rounds ∧ step ∈ filter.steps collection.store node := by
  simp only [ballSteps, List.mem_flatMap, NameMap.mem_keys_iff, NameMap.get?_filter,
    Option.isSome_iff_exists, Option.filter_eq_some_iff, decide_eq_true_eq]
  refine exists_congr fun node => ⟨?_, ?_⟩
  · rintro ⟨⟨distance, hget, hless⟩, hstep⟩
    exact ⟨distance, (Walk.get?_distances_eq_some_iff.mp hget).1, hless, hstep⟩
  · rintro ⟨distance, hdistance, hless, hstep⟩
    have hget := Walk.get?_distances_eq_some_iff.mpr ⟨hdistance, Nat.le_of_lt hless⟩
    exact ⟨⟨distance, hget, hless⟩, hstep⟩

/-- A walk of some rounds takes a step of some kind if there is one from a node at a smaller
distance. -/
theorem exists_mem_ballSteps_iff {ofKind : Step → Prop} :
    (∃ step ∈ collection.ballSteps filter guid rounds, ofKind step) ↔
      ∃ node distance, Walk.IsDistance (collection.targets filter) guid node distance ∧
        distance < rounds ∧ ∃ step ∈ filter.steps collection.store node, ofKind step := by
  simp only [mem_ballSteps_iff]
  constructor
  · rintro ⟨step, ⟨node, distance, hdistance, hless, hstep⟩, hkind⟩
    exact ⟨node, distance, hdistance, hless, step, hstep, hkind⟩
  · rintro ⟨node, distance, hdistance, hless, step, hstep, hkind⟩
    exact ⟨step, ⟨node, distance, hdistance, hless, hstep⟩, hkind⟩

/-- A walk takes the relationships of the steps from the nodes at a smaller distance. -/
theorem mem_relationships_ball_iff (h : collection.store.Coherent) {relationship : Relationship} :
    relationship ∈ (collection.ball filter start guid rounds).relationships ↔
      ∃ node distance, Walk.IsDistance (collection.targets filter) guid node distance ∧
        distance < rounds ∧
          ∃ step ∈ filter.steps collection.store node, step.relationship = relationship := by
  rw [ball, Graph.mem_relationships_ofSteps_iff collection.store filter.asOf]
  · exact exists_mem_ballSteps_iff
  · intro step hstep
    obtain ⟨node, -, -, -, hmem⟩ := mem_ballSteps_iff.mp hstep
    exact ((WalkFilter.mem_steps_iff h).mp hmem).1

/-- A walk meets its start and the entities that the steps from the nodes at a smaller distance lead
to. -/
theorem mem_entities_ball_iff (h : collection.store.Coherent)
    (hstart : collection.store.read guid filter.asOf = some (.entity start)) {entity : Entity} :
    entity ∈ (collection.ball filter start guid rounds).entities ↔
      entity = start ∨
        ∃ node distance, Walk.IsDistance (collection.targets filter) guid node distance ∧
          distance < rounds ∧
            ∃ step ∈ filter.steps collection.store node, step.entity = some entity := by
  rw [ball, Graph.mem_entities_ofSteps_iff collection.store filter.asOf]
  · exact or_congr List.mem_singleton exists_mem_ballSteps_iff
  · intro other hother
    have hguid : start.header.guid = guid := h.guid_of_read hstart
    rw [List.mem_singleton.mp hother, hguid]
    exact hstart
  · intro step hstep other hother
    obtain ⟨node, -, -, -, hmem⟩ := mem_ballSteps_iff.mp hstep
    exact WalkFilter.read_of_mem_steps h hmem hother

/-- Balls grow with the number of rounds. -/
theorem ball_subset (h : collection.store.Coherent)
    (hstart : collection.store.read guid filter.asOf = some (.entity start))
    (hrounds : rounds ≤ more) :
    collection.ball filter start guid rounds ⊆ collection.ball filter start guid more := by
  constructor
  · intro entity
    rw [mem_entities_ball_iff h hstart, mem_entities_ball_iff h hstart]
    refine Or.imp_right ?_
    rintro ⟨node, distance, hdistance, hless, hstep⟩
    exact ⟨node, distance, hdistance, Nat.lt_of_lt_of_le hless hrounds, hstep⟩
  · intro relationship
    rw [mem_relationships_ball_iff h, mem_relationships_ball_iff h]
    rintro ⟨node, distance, hdistance, hless, hstep⟩
    exact ⟨node, distance, hdistance, Nat.lt_of_lt_of_le hless hrounds, hstep⟩

/-! ## Neighborhoods -/

/-- An entity is found to start a walk from when it is seen and live. -/
theorem walkStart_eq_ok_iff {asOf : AsOf} :
    collection.walkStart guid asOf = .ok start ↔
      collection.store.read guid asOf = some (.entity start) ∧ start.header.isDeleted = false := by
  simp only [walkStart, Header.requireLive, Outcome.bind_eq_ok_iff, Outcome.pure_eq_ok_iff,
    Outcome.require_eq_ok_iff, Bool.not_eq_true', require_find_eq_ok_iff]
  constructor
  · rintro ⟨found, hfound, ⟨⟩, hlive, rfl⟩
    exact ⟨hfound, hlive⟩
  · rintro ⟨hfound, hlive⟩
    exact ⟨start, hfound, (), hlive, rfl⟩

/-- What a walk checks before it starts, whatever its depth, and the entity that it starts from. -/
structure WalksFrom (collection : Collection) (call : Call) (guid : Guid) (filter : WalkFilter)
    (start : Entity) : Prop where
  /-- The user is named. -/
  named : Validation.userId call.user = .ok ()
  /-- The identity is not blank. -/
  notBlank : Validation.notBlank guid "entityGUID" = .ok ()
  /-- The filter does not look into the future and its types are defined. -/
  checked : collection.checkFilter call filter = .ok ()
  /-- The entity is seen and live. -/
  found : collection.walkStart guid filter.asOf = .ok start

/-- The neighborhood is the ball of as many rounds as the depth allows for. -/
theorem neighborhood_eq_ok_iff :
    collection.neighborhood call guid filter depth = .ok graph ↔
      -1 ≤ depth.toInt ∧ ∃ start, collection.WalksFrom call guid filter start ∧
        graph = collection.ball filter start guid (collection.walkRounds depth) := by
  simp only [neighborhood, Outcome.bind_eq_ok_iff, Outcome.pure_eq_ok_iff, Validation.depth,
    Outcome.require_eq_ok_iff, decide_eq_true_eq]
  constructor
  · rintro ⟨⟨⟩, huser, ⟨⟩, hguid, ⟨⟩, hdepth, ⟨⟩, hfilter, start, hstart, rfl⟩
    exact ⟨hdepth, start, ⟨huser, hguid, hfilter, hstart⟩, rfl⟩
  · rintro ⟨hdepth, start, ⟨huser, hguid, hfilter, hstart⟩, rfl⟩
    exact ⟨(), huser, (), hguid, (), hdepth, (), hfilter, start, hstart, rfl⟩

theorem walkRounds_of_nonneg (h : 0 ≤ depth.toInt) :
    collection.walkRounds depth = min depth.toInt.toNat collection.store.size :=
  if_pos h

theorem walkRounds_unbounded : collection.walkRounds (-1) =
    min (collection.config.maxTraversalDepth.getD collection.store.size) collection.store.size := by
  rw [walkRounds, if_neg (by decide)]

/-- There are as many rounds at least for a larger depth. -/
theorem walkRounds_mono {near far : Int32} (hnear : 0 ≤ near.toInt)
    (hfar : near.toInt ≤ far.toInt) : collection.walkRounds near ≤ collection.walkRounds far := by
  rw [walkRounds_of_nonneg hnear, walkRounds_of_nonneg (Int.le_trans hnear hfar)]
  omega

/-- There are as many rounds at least without a bound as for a depth that the configuration allows
for. -/
theorem walkRounds_le_unbounded (hdepth : 0 ≤ depth.toInt)
    (hcap : ∀ cap, collection.config.maxTraversalDepth = some cap → depth.toInt ≤ cap) :
    collection.walkRounds depth ≤ collection.walkRounds (-1) := by
  rw [walkRounds_of_nonneg hdepth, walkRounds_unbounded]
  cases hmax : collection.config.maxTraversalDepth with
  | none =>
    rw [Option.getD_none]
    omega
  | some cap =>
    have hle := hcap cap hmax
    rw [Option.getD_some]
    omega

/-- There are no more rounds without a bound than for a depth that reaches what the configuration
allows for. -/
theorem walkRounds_unbounded_le {cap : Nat}
    (hmax : collection.config.maxTraversalDepth = some cap) (hdepth : cap ≤ depth.toInt) :
    collection.walkRounds (-1) ≤ collection.walkRounds depth := by
  have hnonneg : 0 ≤ depth.toInt := Int.le_trans (Int.natCast_nonneg cap) hdepth
  rw [walkRounds_of_nonneg hnonneg, walkRounds_unbounded, hmax, Option.getD_some]
  omega

/-- Neighborhoods are accepted at all depths or at none. They grow with the depth. The one without a
bound contains those of all depths, unless the configuration sets one for it: then it contains those
up to this depth, and is contained in those from this depth on. -/
theorem neighborhood_grows (hreachable : collection.Reachable) {near far : Int32} {inner : Graph}
    (hnear : 0 ≤ near.toInt) (hfar : near.toInt ≤ far.toInt)
    (h : collection.neighborhood call guid filter near = .ok inner) :
    ∃ outer unbounded, collection.neighborhood call guid filter far = .ok outer ∧
      collection.neighborhood call guid filter (-1) = .ok unbounded ∧ inner ⊆ outer ∧
        ((∀ cap, collection.config.maxTraversalDepth = some cap → far.toInt ≤ cap) →
          outer ⊆ unbounded) ∧
        ∀ cap, collection.config.maxTraversalDepth = some cap → cap ≤ far.toInt →
          unbounded ⊆ outer := by
  obtain ⟨-, start, hwalks, rfl⟩ := neighborhood_eq_ok_iff.mp h
  have hcoherent := hreachable.store.coherent
  have hstart := (walkStart_eq_ok_iff.mp hwalks.found).1
  refine ⟨collection.ball filter start guid (collection.walkRounds far),
    collection.ball filter start guid (collection.walkRounds (-1)), ?_, ?_, ?_, ?_, ?_⟩
  · exact neighborhood_eq_ok_iff.mpr ⟨by omega, start, hwalks, rfl⟩
  · exact neighborhood_eq_ok_iff.mpr ⟨by decide, start, hwalks, rfl⟩
  · exact ball_subset hcoherent hstart (walkRounds_mono hnear hfar)
  · exact fun hcap => ball_subset hcoherent hstart
      (walkRounds_le_unbounded (Int.le_trans hnear hfar) hcap)
  · exact fun cap hmax hcap => ball_subset hcoherent hstart (walkRounds_unbounded_le hmax hcap)

/-- A collection with two assets and a link between them, under a bound for traversals. -/
private def linkedPair (maxTraversalDepth : Option Nat) : Collection :=
  let call : Call := ⟨"ada", .earliest⟩
  run ⟨{ (default : CollectionConfig) with maxTraversalDepth }, ∅, .empty⟩
    [.addType ⟨"Asset", .entity, none, [], [], [], none, []⟩,
      .addType ⟨"Link", .relationship, none, [], [], [], none, []⟩,
      .operate call "asset" (.addEntity ⟨"Asset", ∅, [], .active, none⟩),
      .operate call "other" (.addEntity ⟨"Asset", ∅, [], .active, none⟩),
      .operate call "link" (.addRelationship ⟨"Link", ∅, "asset", "other", .active, none⟩)]

theorem neighborhood_linkedPair :
    ∃ inner outer unbounded,
      (linkedPair none).neighborhood ⟨"ada", .earliest⟩ "asset" (.ofStatuses [] .now) 0 =
          .ok inner ∧
        (linkedPair none).neighborhood ⟨"ada", .earliest⟩ "asset" (.ofStatuses [] .now) 1 =
          .ok outer ∧
        (linkedPair none).neighborhood ⟨"ada", .earliest⟩ "asset" (.ofStatuses [] .now) (-1) =
          .ok unbounded ∧
        inner.entityGuids = ["asset"] ∧ outer.relationshipGuids = ["link"] ∧ inner ⊆ outer ∧
          outer ⊆ unbounded := by
  have hreachable : (linkedPair none).Reachable := (Reachable.start _ _).run _
  obtain ⟨inner, hinner⟩ : ∃ inner, (linkedPair none).neighborhood ⟨"ada", .earliest⟩ "asset"
    (.ofStatuses [] .now) 0 = .ok inner := ⟨_, rfl⟩
  have hfar : (0 : Int32).toInt ≤ (1 : Int32).toInt := by decide
  obtain ⟨outer, unbounded, houter, hunbounded, hgrows, hlargest, -⟩ :=
    neighborhood_grows hreachable (by decide) hfar hinner
  refine ⟨inner, outer, unbounded, hinner, houter, hunbounded, ?_, ?_, hgrows, hlargest ?_⟩
  · cases hinner
    decide
  · cases houter
    decide
  · rintro cap ⟨⟩

/-- A bound for traversals bounds only those without a depth, so that one with a depth can give
more. -/
theorem neighborhood_boundedPair :
    (linkedPair (some 0)).config.check = .ok () ∧
      ∃ outer unbounded,
        (linkedPair (some 0)).neighborhood ⟨"ada", .earliest⟩ "asset" (.ofStatuses [] .now) 1 =
            .ok outer ∧
          (linkedPair (some 0)).neighborhood ⟨"ada", .earliest⟩ "asset" (.ofStatuses [] .now)
              (-1) = .ok unbounded ∧
            outer.relationshipGuids = ["link"] ∧ unbounded.relationshipGuids = [] ∧
              ¬outer ⊆ unbounded := by
  refine ⟨rfl, _, _, rfl, rfl, by decide, by decide, ?_⟩
  rintro ⟨hentities, -⟩
  revert hentities
  decide

end Collection

end MetadataGraph
