import MetadataGraph.Proofs.Collection.Neighborhood

/-!
# Paths

A path goes from node to node over relationships that a filter accepts, to entities and proxies that
it accepts; what stands at its start does not count. A walk goes along all paths at once, so that
what it finds can be said of paths. We prove:

* `exists_step_iff`: the steps of a walk are the legs that paths are made of;
* `reaches_iff` and `isDistance_iff`: a walk reaches a node in as many steps as a path has legs, and
  the distance of the node is the length of a shortest path;
* `Path.exists_flipped`: a path can be taken back if the filter accepts what stands at its start;
* `Graph.lists_ofSteps`: the graph of steps lists what is seen along the legs taken.
-/

namespace MetadataGraph

/-- A relationship connects two nodes in both directions. -/
theorem Relationship.Connects.symm {relationship : Relationship} {node other : Guid}
    (h : relationship.Connects node other) : relationship.Connects other node := by
  rcases h with ⟨hone, htwo⟩ | ⟨htwo, hone⟩
  · exact Or.inr ⟨htwo, hone⟩
  · exact Or.inl ⟨hone, htwo⟩

/-- Of two nodes that a relationship connects, one is any node that it connects with some node. -/
theorem Relationship.Connects.eq_or_eq {relationship : Relationship} {node other met next : Guid}
    (h : relationship.Connects node other) (hmet : relationship.Connects met next) :
    node = met ∨ other = met := by
  rcases h with ⟨rfl, rfl⟩ | ⟨rfl, rfl⟩
  · rcases hmet with ⟨rfl, -⟩ | ⟨rfl, -⟩
    · exact Or.inl rfl
    · exact Or.inr rfl
  · rcases hmet with ⟨rfl, -⟩ | ⟨rfl, -⟩
    · exact Or.inr rfl
    · exact Or.inl rfl

/-- A leg of a path: over a relationship from one node to another. -/
structure Leg where
  /-- The node that it leads from. -/
  source : Guid
  /-- The relationship that it leads over. -/
  relationship : Relationship
  /-- The node that it leads to. -/
  target : Guid

/-- The leg in the other direction. -/
def Leg.flip (leg : Leg) : Leg := ⟨leg.target, leg.relationship, leg.source⟩

namespace WalkFilter

variable {filter : WalkFilter} {store : Store}

/-! ## Legs -/

/-- At a node a full entity is seen that the filter accepts, or a proxy whose status it accepts. -/
def AcceptsNode (filter : WalkFilter) (store : Store) (node : Guid) : Prop :=
  (∃ entity, store.read node filter.asOf = some (.entity entity) ∧ filter.Admits entity) ∨
    ∃ proxy, store.read node filter.asOf = some (.proxy proxy) ∧ filter.acceptsStatus proxy.header

/-- A leg leads over a relationship that is seen with the two nodes at its ends and that the filter
accepts, to a node that it accepts. -/
structure Allows (filter : WalkFilter) (store : Store) (leg : Leg) : Prop where
  /-- The relationship is seen. -/
  seen : store.read leg.relationship.header.guid filter.asOf =
    some (.relationship leg.relationship)
  /-- It has the nodes at its ends. -/
  connects : leg.relationship.Connects leg.source leg.target
  /-- The filter accepts it. -/
  accepted : filter.acceptsRelationship leg.relationship
  /-- The filter accepts the node that it leads to. -/
  lands : filter.AcceptsNode store leg.target

theorem Allows.flip {leg : Leg} (h : filter.Allows store leg)
    (hsource : filter.AcceptsNode store leg.source) : filter.Allows store leg.flip where
  seen := h.seen
  connects := h.connects.symm
  accepted := h.accepted
  lands := hsource

/-- The steps of a walk from a node are the legs that lead from it. -/
theorem exists_step_iff (hcoherent : store.Coherent) {node target : Guid}
    {relationship : Relationship} :
    (∃ step ∈ filter.steps store node, step.relationship = relationship ∧ step.target = target) ↔
      filter.Allows store ⟨node, relationship, target⟩ := by
  simp only [mem_steps_iff hcoherent]
  constructor
  · rintro ⟨step, ⟨hseen, haccepted, hconnects, record, hread, haccepts⟩, rfl, rfl⟩
    refine ⟨hseen, hconnects, haccepted, ?_⟩
    cases record with
    | entity entity => exact Or.inl ⟨entity, hread, haccepts.1⟩
    | proxy proxy => exact Or.inr ⟨proxy, hread, haccepts.1⟩
    | relationship _ => exact haccepts.elim
  · rintro ⟨hseen, hconnects, haccepted, ⟨entity, hread, haccepts⟩ | ⟨proxy, hread, haccepts⟩⟩
    · exact ⟨⟨relationship, target, some entity⟩,
        ⟨hseen, haccepted, hconnects, _, hread, haccepts, rfl⟩, rfl, rfl⟩
    · exact ⟨⟨relationship, target, none⟩,
        ⟨hseen, haccepted, hconnects, _, hread, haccepts, rfl⟩, rfl, rfl⟩

/-- A step names the full entity that is seen where it leads, if one is. -/
theorem entity_eq_some_iff_of_mem_steps (hcoherent : store.Coherent) {node : Guid} {step : Step}
    (hmem : step ∈ filter.steps store node) {entity : Entity} :
    step.entity = some entity ↔ store.read step.target filter.asOf = some (.entity entity) := by
  obtain ⟨-, -, -, record, hread, haccepts⟩ := (mem_steps_iff hcoherent).mp hmem
  rw [hread]
  cases record with
  | entity found => simp [haccepts.2]
  | proxy found => simp [haccepts.2]
  | relationship found => exact haccepts.elim

/-! ## Paths -/

/-- Legs that the filter allows lead from one node to another one. -/
def Path (filter : WalkFilter) (store : Store) : Guid → List Leg → Guid → Prop
  | node, [], finish => node = finish
  | node, leg :: rest, finish =>
    leg.source = node ∧ filter.Allows store leg ∧ filter.Path store leg.target rest finish

/-- No path between two nodes has fewer legs than this one. -/
structure Shortest (filter : WalkFilter) (store : Store) (start : Guid) (path : List Leg)
    (finish : Guid) : Prop where
  /-- It is a path. -/
  isPath : filter.Path store start path finish
  /-- No other one has fewer legs. -/
  least : ∀ other, filter.Path store start other finish → path.length ≤ other.length

variable {start middle finish : Guid} {path before after : List Leg} {leg : Leg}

theorem path_append :
    filter.Path store start (before ++ after) finish ↔
      ∃ middle, filter.Path store start before middle ∧ filter.Path store middle after finish := by
  induction before generalizing start with
  | nil => simp [Path]
  | cons leg before ih => simp [Path, ih, and_assoc]

theorem path_singleton :
    filter.Path store start [leg] finish ↔
      leg.source = start ∧ leg.target = finish ∧ filter.Allows store leg := by
  simp [Path, and_comm]

/-- A path through a leg is made of one to it and one from it. -/
theorem path_through_iff :
    filter.Path store start (before ++ leg :: after) finish ↔
      filter.Path store start before leg.source ∧ filter.Allows store leg ∧
        filter.Path store leg.target after finish := by
  rw [path_append]
  constructor
  · rintro ⟨_, hbefore, rfl, hleg, hafter⟩
    exact ⟨hbefore, hleg, hafter⟩
  · rintro ⟨hbefore, hleg, hafter⟩
    exact ⟨_, hbefore, rfl, hleg, hafter⟩

/-- The legs of a path are allowed. -/
theorem Path.allows (h : filter.Path store start path finish) (hmem : leg ∈ path) :
    filter.Allows store leg := by
  obtain ⟨before, after, rfl⟩ := List.append_of_mem hmem
  exact (path_through_iff.mp h).2.1

/-- A path between different nodes has a last leg. -/
theorem Path.exists_last (h : filter.Path store start path finish) (hne : start ≠ finish) :
    ∃ leg ∈ path, leg.target = finish := by
  rcases List.eq_nil_or_concat path with rfl | ⟨before, leg, rfl⟩
  · exact absurd h hne
  · rw [List.concat_eq_append, path_append] at h
    obtain ⟨middle, -, hleg⟩ := h
    obtain ⟨-, rfl, -⟩ := path_singleton.mp hleg
    exact ⟨leg, by simp, rfl⟩

/-- What a path leads to from another node is accepted. -/
theorem Path.acceptsNode (h : filter.Path store start path finish) (hne : start ≠ finish) :
    filter.AcceptsNode store finish := by
  obtain ⟨leg, hmem, rfl⟩ := h.exists_last hne
  exact (h.allows hmem).lands

/-- A path can be taken back if what stands at its start is accepted. -/
theorem Path.exists_flipped (h : filter.Path store start path finish)
    (hstart : filter.AcceptsNode store start) :
    ∃ back, filter.Path store finish back start ∧ back.length = path.length := by
  induction path generalizing start with
  | nil =>
    cases h
    exact ⟨[], rfl, rfl⟩
  | cons leg rest ih =>
    obtain ⟨rfl, hallows, hrest⟩ := h
    -- each leg lands on what is accepted, so that the rest can be taken back before it
    obtain ⟨back, hback, hlength⟩ := ih hrest hallows.lands
    refine ⟨back ++ [leg.flip], path_append.mpr ⟨leg.target, hback, ?_⟩, by simp [hlength]⟩
    exact path_singleton.mpr ⟨rfl, rfl, hallows.flip hstart⟩

end WalkFilter

/-! ## Graphs along legs -/

namespace Graph

/-- A graph lists these entities and relationships and no others, each once and in the order of
their identities. -/
structure Lists (graph : Graph) (entities : Entity → Prop) (relationships : Relationship → Prop) :
    Prop where
  /-- The entities are in order. -/
  entitiesOnce : graph.entities.Pairwise fun entity later => entity.header.guid < later.header.guid
  /-- The relationships are in order. -/
  relationshipsOnce : graph.relationships.Pairwise
    fun relationship later => relationship.header.guid < later.header.guid
  /-- These are the entities. -/
  mem_entities : ∀ entity, entity ∈ graph.entities ↔ entities entity
  /-- These are the relationships. -/
  mem_relationships : ∀ relationship, relationship ∈ graph.relationships ↔
    relationships relationship

theorem Lists.congr {graph : Graph} {entities others : Entity → Prop}
    {relationships more : Relationship → Prop} (h : graph.Lists entities relationships)
    (hentities : ∀ entity, entities entity ↔ others entity)
    (hrelationships : ∀ relationship, relationships relationship ↔ more relationship) :
    graph.Lists others more where
  entitiesOnce := h.entitiesOnce
  relationshipsOnce := h.relationshipsOnce
  mem_entities entity := (h.mem_entities entity).trans (hentities entity)
  mem_relationships relationship :=
    (h.mem_relationships relationship).trans (hrelationships relationship)

variable {filter : WalkFilter} {store : Store} {steps : List Step} {taken : Leg → Prop}

/-- If the steps are those over the legs of some kind, what holds of a step holds of a leg. -/
theorem exists_taken_iff (hcoherent : store.Coherent)
    (hsteps : ∀ step, step ∈ steps ↔ ∃ node, step ∈ filter.steps store node ∧
      taken ⟨node, step.relationship, step.target⟩) {ofStep : Step → Prop} {ofLeg : Leg → Prop}
    (hsame : ∀ node, ∀ step ∈ filter.steps store node,
      (ofStep step ↔ ofLeg ⟨node, step.relationship, step.target⟩)) :
    (∃ step ∈ steps, ofStep step) ↔
      ∃ leg, filter.Allows store leg ∧ taken leg ∧ ofLeg leg := by
  constructor
  · rintro ⟨step, hstep, hkind⟩
    obtain ⟨node, hmem, htaken⟩ := (hsteps step).mp hstep
    exact ⟨_, (WalkFilter.exists_step_iff hcoherent).mp ⟨step, hmem, rfl, rfl⟩, htaken,
      (hsame node step hmem).mp hkind⟩
  · rintro ⟨⟨node, relationship, target⟩, hallows, htaken, hkind⟩
    obtain ⟨step, hmem, rfl, rfl⟩ := (WalkFilter.exists_step_iff hcoherent).mpr hallows
    exact ⟨step, (hsteps step).mpr ⟨node, hmem, htaken⟩, (hsame node step hmem).mpr hkind⟩

/-- If the steps are those over the legs of some kind, their graph lists the entities at the starts
and where these legs lead, and the relationships that they lead over. -/
theorem lists_ofSteps (hcoherent : store.Coherent) {starts : List Entity}
    (hstarts : ∀ entity ∈ starts,
      store.read entity.header.guid filter.asOf = some (.entity entity))
    (hsteps : ∀ step, step ∈ steps ↔ ∃ node, step ∈ filter.steps store node ∧
      taken ⟨node, step.relationship, step.target⟩) :
    (ofSteps starts steps).Lists
      (fun entity => entity ∈ starts ∨ ∃ leg, filter.Allows store leg ∧ taken leg ∧
        store.read leg.target filter.asOf = some (.entity entity))
      (fun relationship => ∃ leg, filter.Allows store leg ∧ taken leg ∧
        leg.relationship = relationship) where
  entitiesOnce := pairwise_entities_ofSteps starts steps
  relationshipsOnce := NameMap.pairwise_values_ofList _ _
  mem_entities entity := by
    rw [mem_entities_ofSteps_iff store filter.asOf hstarts]
    · exact or_congr_right (exists_taken_iff hcoherent hsteps fun _ _ hmem =>
        WalkFilter.entity_eq_some_iff_of_mem_steps hcoherent hmem)
    · intro step hstep met hmet
      obtain ⟨node, hmem, -⟩ := (hsteps step).mp hstep
      exact WalkFilter.read_of_mem_steps hcoherent hmem hmet
  mem_relationships relationship := by
    rw [mem_relationships_ofSteps_iff store filter.asOf]
    · exact exists_taken_iff hcoherent hsteps fun _ _ _ => Iff.rfl
    · intro step hstep
      obtain ⟨node, hmem, -⟩ := (hsteps step).mp hstep
      exact ((WalkFilter.mem_steps_iff hcoherent).mp hmem).1

end Graph

/-! ## Walks along paths -/

namespace Collection

open WalkFilter

variable {collection : Collection} {filter : WalkFilter} {start node : Guid} {steps distance : Nat}

theorem mem_targets_iff (hcoherent : collection.store.Coherent) {target : Guid} :
    target ∈ collection.targets filter node ↔
      ∃ relationship, filter.Allows collection.store ⟨node, relationship, target⟩ := by
  simp only [targets, List.mem_map, ← exists_step_iff hcoherent]
  constructor
  · rintro ⟨step, hstep, htarget⟩
    exact ⟨step.relationship, step, hstep, rfl, htarget⟩
  · rintro ⟨relationship, step, hstep, -, htarget⟩
    exact ⟨step, hstep, htarget⟩

/-- A walk reaches a node in as many steps as some path has legs. -/
theorem reaches_iff (hcoherent : collection.store.Coherent) :
    Walk.Reaches (collection.targets filter) start steps node ↔
      ∃ path, filter.Path collection.store start path node ∧ path.length = steps := by
  constructor
  · intro h
    induction h with
    | start => exact ⟨[], rfl, rfl⟩
    | @step steps node target _ hnext ih =>
      obtain ⟨path, hpath, hlength⟩ := ih
      obtain ⟨relationship, hallows⟩ := (mem_targets_iff hcoherent).mp hnext
      refine ⟨path ++ [⟨node, relationship, target⟩], path_append.mpr ⟨node, hpath, ?_⟩, ?_⟩
      · exact path_singleton.mpr ⟨rfl, rfl, hallows⟩
      · simp [hlength]
  · rintro ⟨path, hpath, rfl⟩
    -- a walk is known by its last step, so a path is taken apart at its last leg
    induction path using List.reverseRecOn generalizing node with
    | nil =>
      cases hpath
      exact .start
    | append_singleton before leg ih =>
      obtain ⟨middle, hbefore, hleg⟩ := path_append.mp hpath
      obtain ⟨rfl, rfl, hallows⟩ := path_singleton.mp hleg
      rw [List.length_append]
      exact (ih hbefore).step ((mem_targets_iff hcoherent).mpr ⟨leg.relationship, hallows⟩)

/-- The distance of a node is the length of a shortest path to it. -/
theorem isDistance_iff (hcoherent : collection.store.Coherent) :
    Walk.IsDistance (collection.targets filter) start node distance ↔
      ∃ path, filter.Shortest collection.store start path node ∧ path.length = distance := by
  simp only [Walk.IsDistance, reaches_iff hcoherent]
  constructor
  · rintro ⟨⟨path, hpath, rfl⟩, hleast⟩
    exact ⟨path, ⟨hpath, fun other hother => hleast _ ⟨other, hother, rfl⟩⟩, rfl⟩
  · rintro ⟨path, hshortest, rfl⟩
    refine ⟨⟨path, hshortest.isPath, rfl⟩, ?_⟩
    rintro steps ⟨other, hother, rfl⟩
    exact hshortest.least other hother

/-- A walk of some rounds finds the lengths of the shortest paths that have no more legs. -/
theorem get?_distances_eq_some_iff (hcoherent : collection.store.Coherent) {rounds : Nat} :
    (collection.distances filter start rounds).get? node = some distance ↔
      (∃ path, filter.Shortest collection.store start path node ∧ path.length = distance) ∧
        distance ≤ rounds := by
  rw [← isDistance_iff hcoherent]
  exact Walk.get?_distances_eq_some_iff

/-- A shortest path from an entity has fewer legs than there are identities. -/
theorem length_lt_size (hcoherent : collection.store.Coherent) {entity : Entity}
    (hstart : collection.store.read start filter.asOf = some (.entity entity)) {path : List Leg}
    (h : filter.Shortest collection.store start path node) :
    path.length < collection.store.size :=
  distance_lt_size hcoherent hstart ((isDistance_iff hcoherent).mpr ⟨path, h, rfl⟩)

/-- A walk from an entity of as many rounds as there are identities finds the lengths of all
shortest paths. -/
theorem get?_distances_size_iff (hcoherent : collection.store.Coherent) {entity : Entity}
    (hstart : collection.store.read start filter.asOf = some (.entity entity)) :
    (collection.distances filter start collection.store.size).get? node = some distance ↔
      ∃ path, filter.Shortest collection.store start path node ∧ path.length = distance := by
  rw [get?_distances_eq_some_iff hcoherent]
  refine and_iff_left_of_imp ?_
  rintro ⟨path, hshortest, rfl⟩
  exact Nat.le_of_lt (length_lt_size hcoherent hstart hshortest)

end Collection

end MetadataGraph
