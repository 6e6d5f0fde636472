import MetadataGraph.Proofs.Outcome
import MetadataGraph.Proofs.Store.Revisions
import MetadataGraph.Validation

/-!
# Histories and reads

A history lists the revisions whose time in effect meets a window with both ends included. The test
for this only compares begins and ends and finds no common instant, but there is one, as every
revision is in effect for some time and the window does not end before it starts. We prove:

* `Revision.overlaps_iff`: a revision meets a window exactly if it is in effect at an instant of it;
* `history_eq_reads`: a history lists the revisions that reads at the instants of the window see.
-/

namespace MetadataGraph

/-! ## Windows -/

/-- An instant is in a window if it is not outside of an end that the window has. -/
theorem Window.contains_iff {window : Window} {time : Instant} :
    window.contains time ↔
      (∀ start, window.start = some start → start ≤ time) ∧
        ∀ finish, window.finish = some finish → time ≤ finish := by
  simp [contains, Option.all_eq_true]

/-- A window is accepted if it does not end before it starts. -/
theorem Validation.window_eq_ok_iff {window : Window} :
    Validation.window window = .ok () ↔
      ∀ start finish, window.start = some start → window.finish = some finish →
        start ≤ finish := by
  obtain ⟨start, finish⟩ := window
  cases start <;> cases finish <;> simp [Validation.window, Outcome.require_eq_ok_iff]

/-- The window of one instant. -/
def Window.at (time : Instant) : Window := ⟨some time, some time⟩

/-- The window of one instant is accepted. -/
theorem Validation.window_at (time : Instant) : Validation.window (.at time) = .ok () := by
  rw [window_eq_ok_iff]
  rintro start finish ⟨⟩ ⟨⟩
  exact Int.le_refl _

/-- The window of one instant has no other one in it. -/
theorem Window.contains_at_iff {time other : Instant} :
    (Window.at time).contains other ↔ other = time := by
  rw [contains_iff]
  constructor
  · rintro ⟨hstart, hfinish⟩
    exact Instant.position_injective (Int.le_antisymm (hfinish time rfl) (hstart time rfl))
  · rintro rfl
    exact ⟨fun _ heq => by cases heq; exact Int.le_refl _,
      fun _ heq => by cases heq; exact Int.le_refl _⟩

/-! ## Revisions in a window -/

/-- No instant is before the first one. -/
theorem Instant.earliest_le_self (time : Instant) : Instant.earliest ≤ time := by
  have hsecond := time.earliest_le
  have hearliest : earliest.position = -8334601228800 * 2000000000 := by decide
  rw [le_def, hearliest, position]
  omega

/-- A time that a clock has reached is not a leap second after the last instant. -/
theorem CommitClock.Reached.le_latest {clock : CommitClock} {time : Instant}
    (h : clock.Reached time) : time ≤ .latest := by
  refine Int.le_trans h.2 ?_
  by_cases hbeyond : Instant.latest.toMicros < clock.lastMicros
  · exact Int.le_of_eq (congrArg Instant.position (Instant.ofMicros_eq_latest hbeyond))
  · have hrange := Instant.isMicros_iff.mpr ⟨h.1, Int.not_lt.mp hbeyond⟩
    exact Int.le_of_lt (Instant.ofMicros_lt_latest hrange)

namespace Revision

variable {α : Type} {revision : Revision α} {window : Window} {time : Instant}

/-- A revision is in effect from its begin on until before its end. -/
theorem isValidAt_iff :
    revision.isValidAt time ↔ revision.validTime ≤ time ∧
      ∀ ending, revision.validUntil = some ending → time < ending := by
  simp [isValidAt, Option.all_eq_true]

/-- What the test for a window compares: the begin with the end of the window, and the end with its
start. -/
theorem overlaps_iff_compare :
    revision.overlaps window ↔ revision.validTime ≤ window.finish.getD .latest ∧
      ∀ ending, revision.validUntil = some ending → window.start.getD .earliest < ending := by
  simp [overlaps, Option.all_eq_true]

/-- A revision meets an accepted window exactly if it is in effect at an instant of it, provided
that it begins before it ends and not in a leap second after the last instant. -/
theorem overlaps_iff (hwindow : Validation.window window = .ok ())
    (hbegin : revision.validTime ≤ .latest)
    (hend : ∀ ending, revision.validUntil = some ending → revision.validTime < ending) :
    revision.overlaps window ↔ ∃ time, window.contains time ∧ revision.isValidAt time := by
  rw [Validation.window_eq_ok_iff] at hwindow
  simp only [overlaps_iff_compare, Window.contains_iff, isValidAt_iff]
  constructor
  · rintro ⟨hbefore, hafter⟩
    -- the later one of the two begins is in both: the window starts within the revision, or the
    -- revision begins within the window
    by_cases hstart : ∃ start, window.start = some start ∧ revision.validTime ≤ start
    · obtain ⟨start, heq, hle⟩ := hstart
      rw [heq] at hafter
      refine ⟨start, ⟨fun other hother => ?_, fun finish hfinish => ?_⟩, hle, hafter⟩
      · cases heq.symm.trans hother
        exact Int.le_refl _
      · exact hwindow start finish heq hfinish
    · refine ⟨revision.validTime, ⟨fun start heq => ?_, fun finish heq => ?_⟩, Int.le_refl _, hend⟩
      · exact Int.le_of_lt (Int.not_le.mp fun hle => hstart ⟨start, heq, hle⟩)
      · rwa [heq] at hbefore
  · rintro ⟨time, ⟨hstart, hfinish⟩, hbegun, hlasts⟩
    -- an end that the window does not have stands for the first or the last instant
    constructor
    · cases heq : window.finish with
      | none => exact hbegin
      | some finish => exact Int.le_trans hbegun (hfinish finish heq)
    · intro ending hending
      refine Int.lt_of_le_of_lt ?_ (hlasts ending hending)
      cases heq : window.start with
      | none => exact time.earliest_le_self
      | some start => exact hstart start heq

end Revision

namespace Store

variable {store : Store} {guid : Guid} {window : Window} {revision : Revision Record}

/-! ## Histories -/

/-- In a coherent store the revision in effect is the one of the identity that is valid then. -/
theorem Coherent.inEffect?_eq_some_iff (h : store.Coherent) {time : Instant} :
    store.inEffect? guid time = some revision ↔
      revision ∈ store.revisions guid ∧ revision.isValidAt time := by
  rw [h.inEffect?_eq_lastBegun?, ← Option.mem_toList, ← h.filter_isValidAt, List.mem_filter]

/-- A revision of a reachable store meets an accepted window exactly if it is in effect at an
instant of it. -/
theorem Reachable.overlaps_iff (h : store.Reachable)
    (hwindow : Validation.window window = .ok ()) (hmem : revision ∈ store.revisions guid) :
    revision.overlaps window ↔ ∃ time, window.contains time ∧ revision.isValidAt time := by
  have hchain : revision ∈ store.chain guid := List.mem_reverse.mp hmem
  refine Revision.overlaps_iff hwindow (h.clockReached guid revision hchain).le_latest ?_
  exact (h.coherent.linked guid).validTime_lt_validUntil revision hchain

/-- In an accepted window the history lists, oldest first, exactly the revisions that are in effect
at some instant of the window, where a read sees their records. At a single instant it lists the one
revision that is in effect then, if there is one. -/
theorem history_eq_reads (h : store.Reachable) (guid : Guid) :
    (∀ window, Validation.window window = .ok () →
      (store.history guid window).Pairwise (·.validTime < ·.validTime) ∧
      ∀ revision, revision ∈ store.history guid window ↔
        ∃ time, window.contains time ∧ store.inEffect? guid time = some revision ∧
          store.read guid (.atTime time) = some revision.data) ∧
    ∀ time,
      store.history guid (.at time) = (store.inEffect? guid time).toList ∧
      (store.history guid (.at time)).map (·.data) = (store.read guid (.atTime time)).toList := by
  have hhistory (window : Window) :
      store.history guid window = (store.revisions guid).filter (·.overlaps window) := rfl
  constructor
  · intro window hwindow
    refine ⟨(h.inSuccession guid).increasing.filter _, fun revision => ?_⟩
    -- a read shows the record of the revision in effect, so that it asks for nothing more
    have hread (time : Instant) (heffect : store.inEffect? guid time = some revision) :
        store.read guid (.atTime time) = some revision.data := by
      rw [read_atTime, heffect]
      rfl
    rw [hhistory, List.mem_filter]
    constructor
    · rintro ⟨hmem, hoverlaps⟩
      obtain ⟨time, hcontains, hvalid⟩ := (h.overlaps_iff hwindow hmem).mp hoverlaps
      have heffect := h.coherent.inEffect?_eq_some_iff.mpr ⟨hmem, hvalid⟩
      exact ⟨time, hcontains, heffect, hread time heffect⟩
    · rintro ⟨time, hcontains, heffect, -⟩
      obtain ⟨hmem, hvalid⟩ := h.coherent.inEffect?_eq_some_iff.mp heffect
      exact ⟨hmem, (h.overlaps_iff hwindow hmem).mpr ⟨time, hcontains, hvalid⟩⟩
  · intro time
    -- the window of one instant tests for validity at this instant
    have hfilter : store.history guid (.at time) =
        (store.revisions guid).filter (·.isValidAt time) := by
      rw [hhistory]
      refine List.filter_congr fun revision hmem => Bool.eq_iff_iff.mpr ?_
      rw [h.overlaps_iff (Validation.window_at time) hmem]
      simp [Window.contains_at_iff]
    rw [hfilter, h.coherent.filter_isValidAt, read_atTime, h.coherent.inEffect?_eq_lastBegun?]
    exact ⟨rfl, by cases store.lastBegun? guid time <;> rfl⟩

/-- The asset changed once after its creation. -/
private def changedStore : Store :=
  (empty.afterSubmit [.create (asset 1)] (.ofMicros 4)).afterSubmit
    [.replace 1 (asset 2)] (.ofMicros 9)

/-- The change of the asset ends its first version, which a window that starts just before still
meets. Windows of one instant show the version at that time, and none before the creation. -/
theorem history_changedStore :
    ((changedStore.history "asset" ⟨some (.ofMicros 8), none⟩).map (·.data) =
      [.entity (asset 1), .entity (asset 2)] ∧
      ∀ revision ∈ changedStore.history "asset" ⟨some (.ofMicros 8), none⟩,
        ∃ time, changedStore.read "asset" (.atTime time) = some revision.data) ∧
    (changedStore.history "asset" (.at (.ofMicros 8))).map (·.data) = [.entity (asset 1)] ∧
    (changedStore.history "asset" (.at (.ofMicros 9))).map (·.data) = [.entity (asset 2)] ∧
    changedStore.history "asset" (.at (.ofMicros 3)) = [] := by
  have hreachable : changedStore.Reachable := (Reachable.empty.submit _ _).submit _ _
  obtain ⟨hwindows, hinstants⟩ := history_eq_reads hreachable "asset"
  refine ⟨⟨by decide, fun revision hmem => ?_⟩, ?_, ?_, ?_⟩
  · obtain ⟨time, -, -, hread⟩ := ((hwindows _ (by decide)).2 revision).mp hmem
    exact ⟨time, hread⟩
  · rw [(hinstants _).2]
    decide
  · rw [(hinstants _).2]
    decide
  · rw [(hinstants _).1]
    decide

end Store

end MetadataGraph
