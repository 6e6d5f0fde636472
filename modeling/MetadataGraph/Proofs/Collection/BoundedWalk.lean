import MetadataGraph.Proofs.Collection.Paths

/-!
# Walks of a bounded length

A neighborhood has a depth, which stands for a bound on the length of paths or for none. The walk
that finds it goes level by level and stops at the latest after as many rounds as there are
identities. We prove that it neither misses nor adds anything:

* `within_iff`: the nodes within some number of steps are the start and those next to a node that is
  nearer;
* `lists_ball`: what a walk of some rounds takes and meets, along legs;
* `neighborhood_exact`: a neighborhood lists the full entities at the ends of shortest paths within
  the bound, and the relationships over which the filter allows a leg from a node nearer than it.
-/

namespace MetadataGraph.Collection

open WalkFilter

variable {collection : Collection} {call : Call} {guid node : Guid} {filter : WalkFilter}
  {start : Entity} {rounds distance : Nat} {depth : Int32}

/-! ## Depths -/

/-- The bound on the length of paths that a depth stands for: itself, or if it is negative the one
that the configuration sets, if any. -/
def depthLimit (collection : Collection) (depth : Int32) : Option Nat :=
  if 0 ≤ depth.toInt then some depth.toInt.toNat else collection.config.maxTraversalDepth

/-- There are as many rounds as the bound allows for, but no more than there are identities. -/
theorem walkRounds_eq : collection.walkRounds depth =
    min ((collection.depthLimit depth).getD collection.store.size) collection.store.size := by
  unfold walkRounds depthLimit
  split <;> rfl

/-- Up to the number of identities, what is within the rounds is within the bound. -/
theorem le_walkRounds_iff (hsize : distance ≤ collection.store.size) :
    distance ≤ collection.walkRounds depth ↔
      ∀ limit ∈ collection.depthLimit depth, distance ≤ limit := by
  rw [walkRounds_eq]
  cases collection.depthLimit depth with
  | none => simpa using hsize
  | some limit =>
    simp only [Option.getD_some, Option.mem_some_iff, forall_eq']
    omega

/-! ## Balls along paths -/

/-- A leg leaves from a node at a smaller distance than there are rounds. -/
def LeavesWithin (collection : Collection) (filter : WalkFilter) (guid : Guid) (rounds : Nat)
    (leg : Leg) : Prop :=
  ∃ distance < rounds, Walk.IsDistance (collection.targets filter) guid leg.source distance

/-- The nodes within some number of steps are the start and those next to a node that is nearer. -/
theorem within_iff (hcoherent : collection.store.Coherent) :
    (∃ distance ≤ rounds, Walk.IsDistance (collection.targets filter) guid node distance) ↔
      node = guid ∨ ∃ leg, filter.Allows collection.store leg ∧
        collection.LeavesWithin filter guid rounds leg ∧ leg.target = node := by
  constructor
  · rintro ⟨distance, hle, hdistance⟩
    cases distance with
    | zero => exact Or.inl (Walk.isDistance_zero_iff.mp hdistance)
    | succ distance =>
      obtain ⟨before, hbefore, hnext⟩ := hdistance.exists_mem
      obtain ⟨relationship, hallows⟩ := (mem_targets_iff hcoherent).mp hnext
      exact Or.inr ⟨_, hallows, ⟨distance, hle, hbefore⟩, rfl⟩
  · rintro (rfl | ⟨leg, hallows, ⟨distance, hless, hdistance⟩, rfl⟩)
    · exact ⟨0, Nat.zero_le _, Walk.isDistance_zero_iff.mpr rfl⟩
    · have hnext := (mem_targets_iff hcoherent).mpr ⟨leg.relationship, hallows⟩
      obtain ⟨least, hle, hleast⟩ := (hdistance.1.step hnext).exists_distance
      exact ⟨least, Nat.le_trans hle hless, hleast⟩

/-- A walk of some rounds goes over the legs from the nodes at a smaller distance. It meets the
entities that are seen no farther away than there are rounds. -/
theorem lists_ball (hcoherent : collection.store.Coherent)
    (hstart : collection.store.read guid filter.asOf = some (.entity start)) :
    (collection.ball filter start guid rounds).Lists
      (fun entity => ∃ node,
        (∃ distance ≤ rounds, Walk.IsDistance (collection.targets filter) guid node distance) ∧
          collection.store.read node filter.asOf = some (.entity entity))
      (fun relationship => ∃ leg, filter.Allows collection.store leg ∧
        collection.LeavesWithin filter guid rounds leg ∧ leg.relationship = relationship) := by
  have hstarts : ∀ entity ∈ [start],
      collection.store.read entity.header.guid filter.asOf = some (.entity entity) := by
    have hguid : start.header.guid = guid := hcoherent.guid_of_read hstart
    simpa [hguid] using hstart
  have hsteps (step : Step) : step ∈ collection.ballSteps filter guid rounds ↔
      ∃ node, step ∈ filter.steps collection.store node ∧
        collection.LeavesWithin filter guid rounds ⟨node, step.relationship, step.target⟩ := by
    rw [mem_ballSteps_iff]
    refine exists_congr fun node => ⟨?_, ?_⟩
    · rintro ⟨distance, hdistance, hless, hstep⟩
      exact ⟨hstep, distance, hless, hdistance⟩
    · rintro ⟨hstep, distance, hless, hdistance⟩
      exact ⟨distance, hdistance, hless, hstep⟩
  -- the entity that the walk starts from is what is seen at distance zero
  refine (Graph.lists_ofSteps hcoherent hstarts hsteps).congr (fun entity => ?_)
    fun relationship => Iff.rfl
  simp only [within_iff hcoherent, List.mem_singleton]
  constructor
  · rintro (rfl | ⟨leg, hallows, hleaves, hread⟩)
    · exact ⟨guid, Or.inl rfl, hstart⟩
    · exact ⟨_, Or.inr ⟨leg, hallows, hleaves, rfl⟩, hread⟩
  · rintro ⟨node, rfl | ⟨leg, hallows, hleaves, rfl⟩, hread⟩
    · rw [hstart] at hread
      cases hread
      exact Or.inl rfl
    · exact Or.inr ⟨leg, hallows, hleaves, hread⟩

/-! ## Neighborhoods along paths -/

/-- What is no farther away than the rounds for a depth is at the end of a shortest path within the
bound. -/
theorem within_walkRounds_iff (hcoherent : collection.store.Coherent)
    (hstart : collection.store.read guid filter.asOf = some (.entity start)) :
    (∃ distance ≤ collection.walkRounds depth,
        Walk.IsDistance (collection.targets filter) guid node distance) ↔
      ∃ path, filter.Shortest collection.store guid path node ∧
        ∀ limit ∈ collection.depthLimit depth, path.length ≤ limit := by
  simp only [isDistance_iff hcoherent]
  constructor
  · rintro ⟨_, hle, path, hshortest, rfl⟩
    have hsize := length_lt_size hcoherent hstart hshortest
    exact ⟨path, hshortest, (le_walkRounds_iff (Nat.le_of_lt hsize)).mp hle⟩
  · rintro ⟨path, hshortest, hlimit⟩
    have hsize := length_lt_size hcoherent hstart hshortest
    exact ⟨_, (le_walkRounds_iff (Nat.le_of_lt hsize)).mpr hlimit, path, hshortest, rfl⟩

/-- A leg leaves within the rounds for a depth from the end of a shortest path that is shorter than
the bound. -/
theorem leavesWithin_walkRounds_iff (hcoherent : collection.store.Coherent)
    (hstart : collection.store.read guid filter.asOf = some (.entity start)) {leg : Leg} :
    collection.LeavesWithin filter guid (collection.walkRounds depth) leg ↔
      ∃ path, filter.Shortest collection.store guid path leg.source ∧
        ∀ limit ∈ collection.depthLimit depth, path.length < limit := by
  simp only [LeavesWithin, isDistance_iff hcoherent]
  constructor
  · rintro ⟨_, hless, path, hshortest, rfl⟩
    have hsize := length_lt_size hcoherent hstart hshortest
    exact ⟨path, hshortest, (le_walkRounds_iff hsize).mp hless⟩
  · rintro ⟨path, hshortest, hlimit⟩
    have hsize := length_lt_size hcoherent hstart hshortest
    exact ⟨_, (le_walkRounds_iff hsize).mpr hlimit, path, hshortest, rfl⟩

/-- A neighborhood lists the full entities that are seen at the ends of shortest paths within the
bound for the depth, so also the entity itself, whatever the filter says of it. It lists the
relationships over which the filter allows a leg from the end of a shortest path that is shorter
than the bound. No path is needed that has as many legs as there are identities, so that the walk
ends without a bound too. -/
theorem neighborhood_exact (hreachable : collection.Reachable) (hdepth : -1 ≤ depth.toInt)
    (hwalks : collection.WalksFrom call guid filter start) :
    (∃ graph, collection.neighborhood call guid filter depth = .ok graph ∧
      graph.Lists
        (fun entity => ∃ node,
          (∃ path, filter.Shortest collection.store guid path node ∧
            ∀ limit ∈ collection.depthLimit depth, path.length ≤ limit) ∧
          collection.store.read node filter.asOf = some (.entity entity))
        (fun relationship => ∃ leg, filter.Allows collection.store leg ∧
          (∃ path, filter.Shortest collection.store guid path leg.source ∧
            ∀ limit ∈ collection.depthLimit depth, path.length < limit) ∧
          leg.relationship = relationship)) ∧
      ∀ node path, filter.Shortest collection.store guid path node →
        path.length < collection.store.size := by
  have hcoherent := hreachable.store.coherent
  have hstart := (walkStart_eq_ok_iff.mp hwalks.found).1
  refine ⟨⟨_, neighborhood_eq_ok_iff.mpr ⟨hdepth, start, hwalks, rfl⟩,
    (lists_ball hcoherent hstart).congr (fun entity => ?_) fun relationship => ?_⟩,
    fun node path => length_lt_size hcoherent hstart⟩
  · simp only [within_walkRounds_iff hcoherent hstart]
  · simp only [leavesWithin_walkRounds_iff hcoherent hstart]

/-- A draft that is linked with an asset over a proxy of what another collection owns, and over it
with one more asset. -/
private def gatedAssets : Collection :=
  let call : Call := ⟨"ada", .earliest⟩
  let link (fresh one two : Guid) : Event :=
    .operate call fresh (.addRelationship ⟨"Link", ∅, one, two, .active, none⟩)
  run ⟨default, ∅, .empty⟩
    [.addType ⟨"Asset", .entity, none, [], [], [], none, []⟩,
      .addType ⟨"Link", .relationship, none, [], [], [], none, []⟩,
      .operate call "draft" (.addEntity ⟨"Asset", ∅, [], .draft, none⟩),
      .operate call "" (.addProxy
        ⟨Header.new "gate" ⟨"Asset", []⟩ "remote" ⟨"bob", .earliest⟩, ∅⟩),
      .operate call "near" (.addEntity ⟨"Asset", ∅, [], .active, none⟩),
      .operate call "far" (.addEntity ⟨"Asset", ∅, [], .active, none⟩),
      link "entry" "draft" "gate", link "exit" "near" "gate", link "beyond" "near" "far"]

/-- Two legs lead from the draft, which the filter does not accept, through the proxy. -/
theorem neighborhood_gatedAssets :
    let filter := WalkFilter.ofStatuses [.active] .now
    ∃ start graph, -1 ≤ (2 : Int32).toInt ∧
      gatedAssets.WalksFrom ⟨"ada", .earliest⟩ "draft" filter start ∧
      gatedAssets.neighborhood ⟨"ada", .earliest⟩ "draft" filter 2 = .ok graph ∧
      graph.entityGuids = ["draft", "near"] ∧ graph.relationshipGuids = ["entry", "exit"] ∧
      ∃ path, filter.Shortest gatedAssets.store "draft" path "near" ∧ path.length ≤ 2 := by
  intro filter
  have hreachable : gatedAssets.Reachable := (Reachable.start _ _).run _
  obtain ⟨start, hstart⟩ :
    ∃ start, gatedAssets.walkStart "draft" filter.asOf = .ok start := ⟨_, rfl⟩
  have hwalks : gatedAssets.WalksFrom ⟨"ada", .earliest⟩ "draft" filter start :=
    ⟨rfl, rfl, rfl, hstart⟩
  have hdepth : -1 ≤ (2 : Int32).toInt := by decide
  obtain ⟨⟨graph, hgraph, hlists⟩, -⟩ := neighborhood_exact hreachable hdepth hwalks
  have hfound : (gatedAssets.neighborhood ⟨"ada", .earliest⟩ "draft" filter 2).map
      (fun graph => (graph.entityGuids, graph.relationshipGuids)) =
        .ok (["draft", "near"], ["entry", "exit"]) := by
    decide
  rw [hgraph] at hfound
  obtain ⟨hentities, hrelationships⟩ := Prod.mk.inj (Except.ok.inj hfound)
  have hnear : "near" ∈ graph.entityGuids := hentities ▸ by decide
  obtain ⟨entity, hmem, hguid⟩ := List.mem_map.mp hnear
  obtain ⟨node, ⟨path, hshortest, hlimit⟩, hread⟩ := (hlists.mem_entities entity).mp hmem
  have hnode : entity.header.guid = node := hreachable.store.coherent.guid_of_read hread
  rw [← hnode, hguid] at hshortest
  exact ⟨start, graph, hdepth, hwalks, hgraph, hentities, hrelationships, path, hshortest,
    hlimit 2 rfl⟩

end MetadataGraph.Collection
