import Mathlib.Data.List.Chain
import MetadataGraph.Proofs.Store.Reachable

/-!
# Revisions that follow each other

Seen from the oldest on, the revisions of an identity follow each other: every one is in effect
until the next begins, and the last without an end. So at any time at most one of them is in effect,
and it is the last one that has begun by then. We prove:

* `Chain.LinkedUntil.filter_isValidAt`: of a linked chain only the newest revision that has begun is
  in effect;
* `Reachable.inSuccession`: the revisions of every identity of a reachable store follow each other;
* `revisions_inSuccession`: and so reads see the last revision that has begun.
-/

namespace MetadataGraph

namespace Chain

variable {chain : Chain} {finish : Option Instant} {time : Instant}

/-! ## Revisions of a linked chain -/

/-- Every revision of a chain that is linked up to a time has ended by then. -/
theorem LinkedUntil.exists_validUntil (h : LinkedUntil (some time) chain) :
    ∀ revision ∈ chain, ∃ ending, revision.validUntil = some ending ∧ ending ≤ time := by
  induction chain generalizing time with
  | nil => simp
  | cons newest older ih =>
    obtain ⟨hfinish, hlt, holder⟩ := h
    intro revision hmem
    rcases List.mem_cons.mp hmem with rfl | hmem
    · exact ⟨time, hfinish, Int.le_refl _⟩
    · obtain ⟨ending, hending, hle⟩ := ih holder revision hmem
      exact ⟨ending, hending, Int.le_trans hle (Int.le_of_lt (hlt time rfl))⟩

/-- A revision that has ended is not in effect any more. -/
theorem not_isValidAt_of_validUntil {revision : Revision Record} {ending : Instant}
    (hending : revision.validUntil = some ending) (hle : ending ≤ time) :
    revision.isValidAt time = false := by
  have hover : ¬time < ending := Int.not_lt.mpr hle
  simp [Revision.isValidAt, hending, hover]

/-- At a time before the end of a linked chain the newest revision that has begun by then is in
effect, and no other one. -/
theorem LinkedUntil.filter_isValidAt (h : LinkedUntil finish chain)
    (hlt : ∀ ending, finish = some ending → time < ending) :
    chain.filter (·.isValidAt time) = (chain.find? (·.validTime ≤ time)).toList := by
  induction chain generalizing finish with
  | nil => rfl
  | cons newest older ih =>
    obtain ⟨hfinish, -, holder⟩ := h
    by_cases hbegun : newest.validTime ≤ time
    -- the newest one is in effect, and all others ended when it began
    · have hvalid : newest.isValidAt time := by
        rw [Revision.isValidAt, hfinish, Bool.and_eq_true, Option.all_eq_true]
        exact ⟨decide_eq_true hbegun, fun ending heq => decide_eq_true (hlt ending heq)⟩
      have hended : older.filter (·.isValidAt time) = [] := by
        rw [List.filter_eq_nil_iff]
        intro revision hmem
        obtain ⟨ending, hending, hle⟩ := holder.exists_validUntil revision hmem
        rw [not_isValidAt_of_validUntil hending (Int.le_trans hle hbegun)]
        exact Bool.false_ne_true
      rw [List.filter_cons, if_pos hvalid, hended, List.find?_cons_of_pos (by simpa using hbegun)]
      rfl
    -- it has not begun, so the older ones are those of a chain that ends after the time
    · have hinvalid : ¬newest.isValidAt time := by
        simp [Revision.isValidAt, hbegun]
      rw [List.filter_cons, if_neg hinvalid, List.find?_cons_of_neg (by simpa using hbegun)]
      refine ih holder fun ending heq => ?_
      cases heq
      exact Int.not_le.mp hbegun

/-- Every revision of a linked chain ends later than it begins. -/
theorem LinkedUntil.validTime_lt_validUntil (h : LinkedUntil finish chain) :
    ∀ revision ∈ chain, ∀ ending, revision.validUntil = some ending →
      revision.validTime < ending := by
  induction chain generalizing finish with
  | nil => simp
  | cons newest older ih =>
    obtain ⟨hfinish, hlt, holder⟩ := h
    intro revision hmem ending hending
    rcases List.mem_cons.mp hmem with rfl | hmem
    · exact hlt ending (hfinish.symm.trans hending)
    · exact ih holder revision hmem ending hending

/-- Each revision of a linked chain ends when the one after it begins. -/
theorem LinkedUntil.isChain (h : LinkedUntil finish chain) :
    chain.IsChain fun later earlier => earlier.validUntil = some later.validTime := by
  induction chain generalizing finish with
  | nil => exact .nil
  | cons newest older ih =>
    obtain ⟨-, -, holder⟩ := h
    cases older with
    | nil => exact .singleton newest
    | cons former oldest => exact .cons_cons holder.1 (ih holder)

/-- The revisions of a linked chain begin one after the other. -/
theorem LinkedUntil.pairwise_validTime (h : LinkedUntil finish chain) :
    chain.Pairwise fun later earlier => earlier.validTime < later.validTime := by
  induction chain generalizing finish with
  | nil => exact .nil
  | cons newest older ih =>
    obtain ⟨-, -, holder⟩ := h
    exact List.pairwise_cons.mpr ⟨holder.validTime_lt, ih holder⟩

/-- Only the newest revision of a linked chain has no end. -/
theorem Linked.validUntil_eq_none_iff (h : Linked chain) :
    ∀ revision ∈ chain, revision.validUntil = none ↔ chain.head? = some revision := by
  intro revision hmem
  cases chain with
  | nil => cases hmem
  | cons newest older =>
    obtain ⟨hfinish, -, holder⟩ := h
    rw [List.head?_cons, Option.some.injEq]
    constructor
    · intro hnone
      rcases List.mem_cons.mp hmem with rfl | hmem
      · rfl
      · obtain ⟨ending, hending, -⟩ := holder.exists_validUntil revision hmem
        cases hnone.symm.trans hending
    · rintro rfl
      exact hfinish

end Chain

namespace Store

variable {store : Store} {guid : Guid} {time : Instant}

/-! ## Revisions in succession -/

/-- The revisions of an identity, oldest first. -/
def revisions (store : Store) (guid : Guid) : List (Revision Record) := (store.chain guid).reverse

/-- The revision of an identity that a read at a time sees. -/
def inEffect? (store : Store) (guid : Guid) (time : Instant) : Option (Revision Record) :=
  (store.chain guid).find? (·.isValidAt time)

/-- A read at a time sees the state of the revision in effect. -/
theorem read_atTime (store : Store) (guid : Guid) (time : Instant) :
    store.read guid (.atTime time) = (store.inEffect? guid time).map (·.data) := rfl

/-- The last revision of an identity that has begun by a time. -/
def lastBegun? (store : Store) (guid : Guid) (time : Instant) : Option (Revision Record) :=
  ((store.revisions guid).filter (·.validTime ≤ time)).getLast?

/-- The revisions of an identity follow each other, the oldest first, and none begins after a
time. -/
structure InSuccession (guid : Guid) (last : Instant) (revisions : List (Revision Record)) :
    Prop where
  /-- All are of the identity. -/
  guid_eq : ∀ revision ∈ revisions, revision.data.guid = guid
  /-- They begin one after the other. -/
  increasing : revisions.Pairwise (·.validTime < ·.validTime)
  /-- None begins later. -/
  le_last : ∀ revision ∈ revisions, revision.validTime ≤ last
  /-- Each ends when the next begins. -/
  closed : revisions.IsChain fun revision next => revision.validUntil = some next.validTime
  /-- Exactly the last has no end. -/
  current_iff : ∀ revision ∈ revisions,
    revision.validUntil = none ↔ revisions.getLast? = some revision

/-- The revisions of an identity in a reachable store follow each other, and none begins after the
last commit. -/
theorem Reachable.inSuccession (h : store.Reachable) (guid : Guid) :
    InSuccession guid (.ofMicros store.clock.lastMicros) (store.revisions guid) := by
  have hlinked := h.coherent.linked guid
  -- a chain has the newest revision first, so what holds of it is turned around
  constructor
  · exact fun revision hmem => h.coherent.guid_eq guid revision (List.mem_reverse.mp hmem)
  · exact List.pairwise_reverse.mpr hlinked.pairwise_validTime
  · exact fun revision hmem => (h.clockReached guid revision (List.mem_reverse.mp hmem)).2
  · exact List.isChain_reverse.mpr hlinked.isChain
  · intro revision hmem
    rw [revisions, List.getLast?_reverse]
    exact hlinked.validUntil_eq_none_iff revision (List.mem_reverse.mp hmem)

/-- The last revision that has begun, found from the newest one on. -/
theorem lastBegun?_eq_find? (store : Store) (guid : Guid) (time : Instant) :
    store.lastBegun? guid time = (store.chain guid).find? (·.validTime ≤ time) := by
  rw [lastBegun?, revisions, List.filter_reverse, List.getLast?_reverse, List.head?_filter]

/-- In a coherent store exactly the last revision that has begun is in effect. -/
theorem Coherent.filter_isValidAt (h : store.Coherent) (guid : Guid) (time : Instant) :
    (store.revisions guid).filter (·.isValidAt time) = (store.lastBegun? guid time).toList := by
  have hfilter : (store.chain guid).filter (·.isValidAt time) = _ :=
    Chain.LinkedUntil.filter_isValidAt (h.linked guid) fun ending heq => by cases heq
  rw [lastBegun?_eq_find?, revisions, List.filter_reverse, hfilter]
  cases (store.chain guid).find? (·.validTime ≤ time) <;> rfl

/-- In a coherent store the revision in effect is the last one that has begun. -/
theorem Coherent.inEffect?_eq_lastBegun? (h : store.Coherent) (guid : Guid) (time : Instant) :
    store.inEffect? guid time = store.lastBegun? guid time := by
  have hfilter := h.filter_isValidAt guid time
  rw [revisions, List.filter_reverse] at hfilter
  rw [inEffect?, ← List.head?_filter, ← List.getLast?_reverse, hfilter]
  cases store.lastBegun? guid time <;> rfl

/-- In a reachable store every identity that is kept has revisions, and they follow each other up to
the last commit. At any time no other revision is in effect than the last one that has begun by
then, and this is what a read sees. -/
theorem revisions_inSuccession (h : store.Reachable) (guid : Guid) :
    store.chains.get? guid ≠ some [] ∧
      InSuccession guid (.ofMicros store.clock.lastMicros) (store.revisions guid) ∧
      ∀ time,
        (store.revisions guid).filter (·.isValidAt time) = (store.lastBegun? guid time).toList ∧
        store.read guid (.atTime time) = (store.lastBegun? guid time).map (·.data) := by
  refine ⟨h.coherent.nonempty guid, h.inSuccession guid, fun time => ?_⟩
  rw [read_atTime, h.coherent.inEffect?_eq_lastBegun? guid time]
  exact ⟨h.coherent.filter_isValidAt guid time, rfl⟩

/-- The asset evicted and created anew in one commit, and changed twice in another one for which the
wall clock went back. -/
private def rewrittenStore : Store :=
  ((empty.afterSubmit [.create (asset 7)] (.ofMicros 4)).afterSubmit
    [.evict "asset", .create (asset 1)] (.ofMicros 9)).afterSubmit
      [.replace 1 (asset 2), .replace 2 (asset 3)] (.ofMicros 5)

/-- The asset has one revision of each commit since the eviction. A read before them sees nothing,
and one from the time of either on sees what it wrote last. -/
theorem revisions_rewrittenStore :
    (rewrittenStore.revisions "asset").map
        (fun revision => (revision.data.header.version, revision.validTime.toMicros)) =
      [(1, 9), (3, 10)] ∧
    InSuccession "asset" (.ofMicros 10) (rewrittenStore.revisions "asset") ∧
    rewrittenStore.read "asset" (.atTime (.ofMicros 8)) = none ∧
    rewrittenStore.read "asset" (.atTime (.ofMicros 9)) = some (.entity (asset 1)) ∧
    rewrittenStore.read "asset" (.atTime (.ofMicros 10)) = some (.entity (asset 3)) := by
  have hreachable : rewrittenStore.Reachable := ((Reachable.empty.submit _ _).submit _ _).submit _ _
  obtain ⟨-, hsuccession, hreads⟩ := revisions_inSuccession hreachable "asset"
  refine ⟨by decide, hsuccession, ?_, ?_, ?_⟩
  · rw [(hreads _).2]
    decide
  · rw [(hreads _).2]
    decide
  · rw [(hreads _).2]
    decide

end Store

end MetadataGraph
