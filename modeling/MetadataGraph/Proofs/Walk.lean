import Mathlib.Data.Nat.Find
import MetadataGraph.Collection.Walking
import MetadataGraph.Proofs.Listing

/-!
# Distances of walks

A walk goes out from a start level by level and notes at what level it meets a node first. We prove
that this is the least number of steps in which the node can be reached:

* `IsDistance.exists_mem`: a node that is met later than the start is next to one that is met one
  level before;
* `get?_explore`: if all levels so far are known, some more rounds find those that come next;
* `get?_distances_eq_some_iff`: the distances found are the least numbers of steps, up to the number
  of rounds.
-/

namespace MetadataGraph.Walk

variable {next : Guid → List Guid} {start node : Guid} {distance steps rounds level : Nat}
  {distances : NameMap Nat} {frontier : List Guid}

/-- A node can be reached from a start in a number of steps. -/
inductive Reaches (next : Guid → List Guid) (start : Guid) : Nat → Guid → Prop
  | start : Reaches next start 0 start
  | step {steps : Nat} {node target : Guid} (h : Reaches next start steps node)
      (hnext : target ∈ next node) : Reaches next start (steps + 1) target

/-- The least number of steps in which a node can be reached. -/
def IsDistance (next : Guid → List Guid) (start node : Guid) (distance : Nat) : Prop :=
  Reaches next start distance node ∧ ∀ steps, Reaches next start steps node → distance ≤ steps

/-- What can be reached in some number of steps has a distance, which is no larger. -/
theorem Reaches.exists_distance (h : Reaches next start steps node) :
    ∃ distance ≤ steps, IsDistance next start node distance := by
  classical
  have hsome : ∃ steps, Reaches next start steps node := ⟨steps, h⟩
  exact ⟨Nat.find hsome, Nat.find_min' hsome h, Nat.find_spec hsome,
    fun _ hother => Nat.find_min' hsome hother⟩

theorem IsDistance.eq {other : Nat} (h : IsDistance next start node distance)
    (hother : IsDistance next start node other) : distance = other :=
  Nat.le_antisymm (h.2 other hother.1) (hother.2 distance h.1)

theorem isDistance_zero_iff : IsDistance next start node 0 ↔ node = start := by
  constructor
  · rintro ⟨⟨⟩, -⟩
    rfl
  · rintro rfl
    exact ⟨.start, fun _ _ => Nat.zero_le _⟩

/-- A node that is met later than the start is next to one that is met one level before. -/
theorem IsDistance.exists_mem (h : IsDistance next start node (distance + 1)) :
    ∃ before, IsDistance next start before distance ∧ node ∈ next before := by
  obtain ⟨hreaches, hleast⟩ := h
  cases hreaches with
  | step hbefore hnext =>
    refine ⟨_, ⟨hbefore, fun steps hsteps => ?_⟩, hnext⟩
    exact Nat.le_of_succ_le_succ (hleast _ (hsteps.step hnext))

/-- All levels before a level that is not empty are not empty either. -/
theorem IsDistance.exists_of_le (h : IsDistance next start node distance)
    (hlevel : level ≤ distance) : ∃ before, IsDistance next start before level := by
  induction distance generalizing node with
  | zero => exact ⟨node, Nat.le_zero.mp hlevel ▸ h⟩
  | succ distance ih =>
    rcases Nat.le_succ_iff.mp hlevel with hle | rfl
    · obtain ⟨before, hbefore, -⟩ := h.exists_mem
      exact ih hbefore hle
    · exact ⟨node, h⟩

/-- Up to a node that is met, every level has a node of its own. -/
theorem IsDistance.exists_nodup (h : IsDistance next start node distance) :
    ∃ nodes : List Guid, nodes.Nodup ∧ nodes.length = distance + 1 ∧
      ∀ met ∈ nodes, ∃ level ≤ distance, IsDistance next start met level := by
  induction distance generalizing node with
  | zero => exact ⟨[node], by simp, rfl, by simpa using h⟩
  | succ distance ih =>
    obtain ⟨before, hbefore, -⟩ := h.exists_mem
    obtain ⟨nodes, hnodup, hlength, hnodes⟩ := ih hbefore
    refine ⟨node :: nodes, List.nodup_cons.mpr ⟨fun hmem => ?_, hnodup⟩, by simp [hlength], ?_⟩
    · -- the node is met one level later than those
      obtain ⟨level, hle, hlevel⟩ := hnodes node hmem
      have hsame := h.eq hlevel
      omega
    · rintro met (⟨⟩ | ⟨-, hmem⟩)
      · exact ⟨_, Nat.le_refl _, h⟩
      · obtain ⟨level, hle, hlevel⟩ := hnodes met hmem
        exact ⟨level, Nat.le_succ_of_le hle, hlevel⟩

/-- If all nodes that can be reached are among some names, they are at a smaller distance than there
are names. -/
theorem IsDistance.lt_length {names : List Guid} (h : IsDistance next start node distance)
    (hnames : ∀ steps met, Reaches next start steps met → met ∈ names) :
    distance < names.length := by
  obtain ⟨nodes, hnodup, hlength, hnodes⟩ := h.exists_nodup
  have hsubset : nodes ⊆ names := by
    intro met hmem
    obtain ⟨level, -, hlevel⟩ := hnodes met hmem
    exact hnames level met hlevel.1
  have hle := (List.subperm_of_subset hnodup hsubset).length_le
  omega

/-! ## Rounds -/

/-- All nodes up to a level are known with their distances, and the frontier is the level. -/
structure Explored (next : Guid → List Guid) (start : Guid) (level : Nat)
    (distances : NameMap Nat) (frontier : List Guid) : Prop where
  /-- The distances known are those up to the level. -/
  known : ∀ node distance, distances.get? node = some distance ↔
    IsDistance next start node distance ∧ distance ≤ level
  /-- The frontier consists of the nodes of the level. -/
  frontier : ∀ node, node ∈ frontier ↔ IsDistance next start node level

/-- At first only the start is known. -/
theorem explored_start (next : Guid → List Guid) (start : Guid) :
    Explored next start 0 ((∅ : NameMap Nat).insert start 0) [start] where
  known node distance := by
    rw [NameMap.get?_insert]
    by_cases hstart : start = node
    · subst hstart
      rw [if_pos rfl, Option.some.injEq]
      constructor
      · rintro rfl
        exact ⟨isDistance_zero_iff.mpr rfl, Nat.le_refl 0⟩
      · rintro ⟨hdistance, -⟩
        exact (isDistance_zero_iff.mpr rfl).eq hdistance
    · rw [if_neg hstart, NameMap.get?_empty]
      refine iff_of_false (by simp) ?_
      rintro ⟨hdistance, hzero⟩
      rw [Nat.le_zero.mp hzero, isDistance_zero_iff] at hdistance
      exact hstart hdistance.symm
  frontier node := by rw [List.mem_singleton, isDistance_zero_iff]

/-- The nodes found in a round are those of the next level. -/
theorem Explored.mem_reached_iff (h : Explored next start level distances frontier) :
    node ∈ ((frontier.flatMap next).filter (!distances.contains ·)).eraseDups ↔
      IsDistance next start node (level + 1) := by
  simp only [List.mem_eraseDups, List.mem_filter, List.mem_flatMap, Bool.not_eq_true',
    h.frontier]
  constructor
  · rintro ⟨⟨before, hbefore, hnext⟩, hunknown⟩
    refine ⟨hbefore.1.step hnext, fun steps hsteps => ?_⟩
    -- a shorter way would have led to a level that is known
    by_contra hless
    obtain ⟨distance, hle, hdistance⟩ := hsteps.exists_distance
    have hget := (h.known node distance).mpr ⟨hdistance, by omega⟩
    rw [NameMap.contains, hget] at hunknown
    cases hunknown
  · intro hdistance
    refine ⟨hdistance.exists_mem, ?_⟩
    cases hget : distances.get? node with
    | none => rw [NameMap.contains, hget, Option.isSome_none]
    | some found =>
      obtain ⟨hfound, hle⟩ := (h.known node found).mp hget
      exact absurd (hdistance.eq hfound) (by omega)

/-- Names put into a map with the same value. -/
theorem get?_foldl_insert (names : List Guid) (value : Nat) (distances : NameMap Nat)
    (node : Guid) :
    (names.foldl (fun known name => known.insert name value) distances).get? node =
      if node ∈ names then some value else distances.get? node := by
  induction names generalizing distances with
  | nil => simp
  | cons name rest ih =>
    rw [List.foldl_cons, ih, NameMap.get?_insert]
    by_cases hrest : node ∈ rest
    · simp [hrest]
    · by_cases hname : name = node
      · simp [hname]
      · simp [hrest, hname, Ne.symm hname]

/-- A round leads from one level to the next. -/
theorem Explored.round (h : Explored next start level distances frontier) {reached : List Guid}
    (hreached : ∀ node, node ∈ reached ↔ IsDistance next start node (level + 1)) :
    Explored next start (level + 1)
      (reached.foldl (fun known node => known.insert node (level + 1)) distances) reached where
  known node distance := by
    rw [get?_foldl_insert]
    by_cases hnode : node ∈ reached
    · have hnew := (hreached node).mp hnode
      rw [if_pos hnode, Option.some.injEq]
      constructor
      · rintro rfl
        exact ⟨hnew, Nat.le_refl _⟩
      · rintro ⟨hdistance, -⟩
        exact hnew.eq hdistance
    · rw [if_neg hnode, h.known]
      refine and_congr_right fun hdistance => ⟨fun hle => Nat.le_succ_of_le hle, fun hle => ?_⟩
      -- a node of the new level would have been reached
      refine Nat.le_of_lt_succ (Nat.lt_of_le_of_ne hle ?_)
      rintro rfl
      exact hnode ((hreached node).mpr hdistance)
  frontier := hreached

/-- If all levels so far are known, some more rounds find those that come next. -/
theorem get?_explore (h : Explored next start level distances frontier) :
    (explore next rounds level distances frontier).get? node = some distance ↔
      IsDistance next start node distance ∧ distance ≤ level + rounds := by
  induction rounds generalizing level distances frontier with
  | zero => exact h.known node distance
  | succ rounds ih =>
    rw [explore]
    split
    · rename_i hempty
      rw [h.known]
      refine and_congr_right fun hdistance => ⟨fun hle => Nat.le_add_right_of_le hle, fun _ => ?_⟩
      -- if the next level is empty, so are all after it
      by_contra hlater
      obtain ⟨before, hbefore⟩ := hdistance.exists_of_le (Nat.lt_of_not_le hlater)
      have hmem := h.mem_reached_iff.mpr hbefore
      rw [List.isEmpty_iff.mp hempty] at hmem
      cases hmem
    · rw [ih (h.round fun node => h.mem_reached_iff), Nat.add_right_comm, Nat.add_assoc]

/-- The distances found are the least numbers of steps, up to the number of rounds. -/
theorem get?_distances_eq_some_iff :
    (Walk.distances next start rounds).get? node = some distance ↔
      IsDistance next start node distance ∧ distance ≤ rounds := by
  rw [Walk.distances, get?_explore (explored_start next start), Nat.zero_add]

end MetadataGraph.Walk
