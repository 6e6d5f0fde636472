import MetadataGraph.Store

/-!
# Chains of revisions

A chain lists the revisions of one identity, newest first. It is linked when the newest revision is
in effect without an end and every other one until the next begins, at a later time. We prove:

* `Linked.push`: a revision pushed at a time not before the newest one leaves the chain linked;
* `visible?_push_of_lt`: pushing at a time does not change what is visible before that time;
* `push_push`: of two revisions pushed at one time the second counts;
* `push_eq_cons`: pushed at a later time, a revision keeps all older ones and ends the newest.
-/

namespace MetadataGraph.Chain

/-! ## Linked chains -/

/-- The newest revision is in effect until `finish`, and every other one until the next begins;
all end later than they begin. -/
def LinkedUntil : Option Instant → Chain → Prop
  | _, [] => True
  | finish, newest :: older =>
    newest.validUntil = finish ∧ (∀ time, finish = some time → newest.validTime < time) ∧
      LinkedUntil (some newest.validTime) older

/-- The newest revision is in effect without an end, and every other one until the next begins. -/
def Linked (chain : Chain) : Prop := LinkedUntil none chain

/-- All revisions of the chain begin at a time or before it. -/
def Within (time : Instant) (chain : Chain) : Prop :=
  ∀ revision ∈ chain, revision.validTime ≤ time

theorem linked_nil : Linked [] := trivial

/-- A chain whose newest revision already ends at an instant is not changed by closing it there. -/
theorem LinkedUntil.closeAt_eq {chain : Chain} {time : Instant}
    (h : LinkedUntil (some time) chain) : closeAt time chain = chain := by
  cases chain with
  | nil => rfl
  | cons newest older =>
    obtain ⟨hfinish, -, -⟩ := h
    rw [closeAt, ← hfinish]

/-- Closing a linked chain after its newest revision began links it up to there. -/
theorem Linked.closeAt {chain : Chain} {time : Instant} (h : Linked chain)
    (hlt : ∀ revision ∈ chain, revision.validTime < time) :
    LinkedUntil (some time) (closeAt time chain) := by
  cases chain with
  | nil => trivial
  | cons newest older =>
    obtain ⟨-, -, holder⟩ := h
    refine ⟨rfl, ?_, holder⟩
    intro time' heq
    cases heq
    exact hlt newest List.mem_cons_self

/-- Older revisions of a linked chain begin before the chain's end. -/
theorem LinkedUntil.validTime_lt {chain : Chain} {time : Instant}
    (h : LinkedUntil (some time) chain) : ∀ revision ∈ chain, revision.validTime < time := by
  induction chain generalizing time with
  | nil => simp
  | cons newest older ih =>
    obtain ⟨-, hlt, holder⟩ := h
    intro revision hmem
    rcases List.mem_cons.mp hmem with rfl | hmem
    · exact hlt time rfl
    · exact Int.lt_trans (ih holder revision hmem) (hlt time rfl)

/-- What is left of a linked chain after a drop at its last time is linked up to that time, once it
is closed there. -/
theorem Linked.closeAt_dropAt {chain : Chain} {time : Instant} (h : Linked chain)
    (hwithin : chain.Within time) :
    LinkedUntil (some time) (Chain.closeAt time (dropAt time chain)) := by
  cases chain with
  | nil => trivial
  | cons newest older =>
    obtain ⟨-, -, holder⟩ := id h
    rw [dropAt]
    split
    -- without the newest revision, the one before it already ends at the time of the drop
    · rename_i heq
      rw [heq] at holder
      rwa [holder.closeAt_eq]
    -- nothing is dropped, and then the newest revision began before
    · rename_i hne
      apply Linked.closeAt h
      have hnewest : newest.validTime < time := by
        have hle := hwithin newest List.mem_cons_self
        rw [Instant.le_def] at hle
        rw [Instant.lt_def]
        exact Int.lt_iff_le_and_ne.mpr ⟨hle, fun heq => hne (Instant.position_injective heq)⟩
      intro revision hmem
      rcases List.mem_cons.mp hmem with rfl | hmem
      · exact hnewest
      · exact Int.lt_trans (holder.validTime_lt revision hmem) hnewest

/-- A revision pushed at a time not before the newest one leaves a chain linked. -/
theorem Linked.push {chain : Chain} {validTime : Instant} (h : Linked chain)
    (hwithin : chain.Within validTime) (record : Record) (transactionTime : Instant) :
    Linked (chain.push record validTime transactionTime) := by
  refine ⟨rfl, ?_, h.closeAt_dropAt hwithin⟩
  intro time heq
  cases heq

/-- What a property keeps of the revisions of a chain it keeps of what is left of them after a push,
whatever their ends. -/
theorem forall_mem_push {chain : Chain} {record : Record} {validTime transactionTime : Instant}
    {p : Record → Instant → Prop} (h : ∀ revision ∈ chain, p revision.data revision.validTime)
    (hnew : p record validTime) :
    ∀ revision ∈ chain.push record validTime transactionTime,
      p revision.data revision.validTime := by
  -- a drop only leaves revisions out, and a close changes an end, which is not looked at
  have hdrop : ∀ revision ∈ dropAt validTime chain, p revision.data revision.validTime := by
    intro revision hmem
    apply h revision
    cases chain with
    | nil => exact hmem
    | cons newest older =>
      rw [dropAt] at hmem
      split at hmem
      · exact List.mem_cons_of_mem _ hmem
      · exact hmem
  intro revision hmem
  rcases List.mem_cons.mp hmem with rfl | hmem
  · exact hnew
  · cases hchain : dropAt validTime chain with
    | nil =>
      rw [hchain] at hmem
      cases hmem
    | cons newest older =>
      rw [hchain] at hmem hdrop
      rcases List.mem_cons.mp hmem with rfl | hmem
      · exact hdrop newest List.mem_cons_self
      · exact hdrop revision (List.mem_cons_of_mem _ hmem)

/-! ## Reading -/

/-- The newest revision of a linked chain is the current one. -/
theorem Linked.visible?_now {newest : Revision Record} {older : Chain}
    (h : Linked (newest :: older)) : visible? (newest :: older) .now = some newest.data := by
  obtain ⟨hfinish, -, -⟩ := h
  simp [visible?, Revision.isSeenBy, AsOf.now, Revision.isCurrent, hfinish]

/-- What was pushed last is current. -/
theorem visible?_push_now (chain : Chain) (record : Record) (validTime transactionTime : Instant) :
    (chain.push record validTime transactionTime).visible? .now = some record := by
  simp [push, visible?, Revision.isSeenBy, AsOf.now, Revision.isCurrent, Revision.new]

/-- Nothing is current in a linked chain only if it is empty. -/
theorem Linked.visible?_now_eq_none_iff {chain : Chain} (h : Linked chain) :
    chain.visible? .now = none ↔ chain = [] := by
  cases chain with
  | nil => simp [visible?]
  | cons newest older => simp [h.visible?_now]

/-- What is visible at an instant, read off the newest revision and the older ones. -/
theorem visible?_cons (newest : Revision Record) (older : Chain) (asOf : AsOf) :
    visible? (newest :: older) asOf =
      if newest.isSeenBy asOf then some newest.data else older.visible? asOf := by
  unfold visible?
  rw [List.find?_cons]
  split <;> simp_all

/-- From the last time at which a revision of a linked chain begins, the current one is visible. -/
theorem Linked.visible?_atTime_of_within {chain : Chain} {time : Instant} (h : Linked chain)
    (hwithin : chain.Within time) : chain.visible? (.atTime time) = chain.visible? .now := by
  cases chain with
  | nil => rfl
  | cons newest older =>
    have hbegun := hwithin newest List.mem_cons_self
    rw [h.visible?_now, visible?_cons, if_pos]
    simp [Revision.isSeenBy, AsOf.atTime, Revision.isValidAt, h.1, hbegun]

/-- Closing a linked chain at a time does not change what is visible before that time. -/
theorem Linked.visible?_closeAt {chain : Chain} {time validTime : Instant} (h : Linked chain)
    (hlt : time < validTime) :
    (Chain.closeAt validTime chain).visible? (.atTime time) = chain.visible? (.atTime time) := by
  cases chain with
  | nil => rfl
  | cons newest older =>
    obtain ⟨hfinish, -, -⟩ := h
    simp [Chain.closeAt, visible?_cons, Revision.isSeenBy, AsOf.atTime, Revision.isValidAt,
      hfinish, hlt]

/-- Pushing a revision at a time does not change what is visible before that time. -/
theorem Linked.visible?_push_of_lt {chain : Chain} {time validTime : Instant} (h : Linked chain)
    (hlt : time < validTime) (record : Record) (transactionTime : Instant) :
    (chain.push record validTime transactionTime).visible? (.atTime time) =
      chain.visible? (.atTime time) := by
  have hunseen (revision : Revision Record) (hbegin : revision.validTime = validTime) :
      revision.isSeenBy (.atTime time) = false := by
    have hle : ¬revision.validTime ≤ time := by
      rw [hbegin]
      exact Int.not_le.mpr hlt
    simp [Revision.isSeenBy, AsOf.atTime, Revision.isValidAt, hle]
  rw [Chain.push, visible?_cons, hunseen _ rfl, if_neg Bool.false_ne_true]
  cases chain with
  | nil => rfl
  | cons newest older =>
    rw [dropAt]
    split
    -- the newest revision began at the time of the push, so it was not visible before
    · rename_i heq
      obtain ⟨-, -, holder⟩ := h
      rw [heq] at holder
      rw [holder.closeAt_eq, visible?_cons, hunseen newest heq, if_neg Bool.false_ne_true]
    · exact h.visible?_closeAt hlt

/-! ## Pushing -/

/-- Closing a chain twice at one time is closing it once. -/
theorem closeAt_closeAt (time : Instant) (chain : Chain) :
    closeAt time (closeAt time chain) = closeAt time chain := by
  cases chain <;> rfl

/-- Of two revisions pushed at one time the second counts. -/
theorem push_push (chain : Chain) (first second : Record) (validTime transactionTime : Instant) :
    (chain.push first validTime transactionTime).push second validTime transactionTime =
      chain.push second validTime transactionTime := by
  simp [push, dropAt, Revision.new, closeAt_closeAt]

/-- Pushed at a time after all others, a revision keeps them all and ends the newest. -/
theorem push_eq_cons {chain : Chain} {validTime : Instant}
    (hlt : ∀ revision ∈ chain, revision.validTime < validTime) (record : Record)
    (transactionTime : Instant) :
    chain.push record validTime transactionTime =
      .new record validTime transactionTime :: closeAt validTime chain := by
  cases chain with
  | nil => rfl
  | cons newest older =>
    have hne : newest.validTime ≠ validTime := by
      intro heq
      have hnewest := hlt newest List.mem_cons_self
      rw [heq] at hnewest
      exact Int.lt_irrefl _ hnewest
    rw [push, dropAt, if_neg hne]

end MetadataGraph.Chain
