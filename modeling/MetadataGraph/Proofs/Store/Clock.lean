import MetadataGraph.Store.Clock

/-!
# Valid times of successive commits

The commit clock counts microseconds in 64 bits, more than instants can name. While the clock is
within the range of instants, a commit is strictly later than all before it. Past that range every
commit gets the last instant, which is still not before any other. We prove:

* `Reached.le_tick`: no commit is earlier than a time that the clock has reached;
* `Reached.lt_tick`: it is strictly later while the clock is in range;
* `reached_tick`: a commit reaches its own valid time;
* `Numbered.nextId_tick`: while the clock is in range, commits get successive numbers.
-/

namespace MetadataGraph

namespace Instant

theorem toMicros_earliest : earliest.toMicros = -8334601228800000000 := by decide

theorem toMicros_latest : latest.toMicros = 8210266876799999999 := by decide

theorem position_latest : latest.position = 16420533753598999999999 := by decide

/-- The microsecond counts that name an instant are those from the first to the last instant. -/
theorem isMicros_iff {n : Int} :
    IsMicros n ↔ earliest.toMicros ≤ n ∧ n ≤ latest.toMicros := by
  rw [toMicros_earliest, toMicros_latest, IsMicros]

/-- No instant has fewer microseconds than the first one. -/
theorem toMicros_earliest_le (t : Instant) : earliest.toMicros ≤ t.toMicros := by
  have hsecond := t.earliest_le
  rw [toMicros_earliest, toMicros]
  omega

/-- Microseconds within the range give an instant before the last one, which has nanoseconds. -/
theorem ofMicros_lt_latest {n : Int} (h : IsMicros n) : ofMicros n < latest := by
  obtain ⟨hsecond, hnanos⟩ := ofMicros_eq h
  unfold IsMicros at h
  rw [lt_def, position_latest, position]
  omega

/-- Microseconds after the range of instants give the last instant. -/
theorem ofMicros_eq_latest {n : Int} (h : latest.toMicros < n) : ofMicros n = latest := by
  rw [toMicros_latest] at h
  unfold ofMicros ofNanos
  rw [dif_neg (by omega)]

/-- From the first instant on, later microseconds do not give an earlier instant. -/
theorem ofMicros_le_ofMicros {m n : Int} (hm : earliest.toMicros ≤ m) (hmn : m ≤ n) :
    ofMicros m ≤ ofMicros n := by
  -- beyond the range every count gives the last instant, so the order is only that of the range
  by_cases hn : latest.toMicros < n
  · rw [ofMicros_eq_latest hn]
    by_cases hm' : latest.toMicros < m
    · rw [ofMicros_eq_latest hm']
      exact Int.le_refl _
    · have hlt := ofMicros_lt_latest (isMicros_iff.mpr ⟨hm, by omega⟩)
      rw [lt_def] at hlt
      rw [le_def]
      omega
  · have hiff := ofMicros_lt_iff (m := n) (n := m)
      (isMicros_iff.mpr ⟨by omega, by omega⟩) (isMicros_iff.mpr ⟨hm, by omega⟩)
    rw [lt_def] at hiff
    rw [le_def]
    omega

/-- An instant is before those of later seconds, also when these are cut to microseconds. -/
theorem lt_ofMicros_of_second_lt {t later : Instant} (h : t.second < later.second) :
    t < ofMicros later.toMicros := by
  have hnanos := t.nanos_lt
  have hsecond := later.le_latest
  rw [lt_def]
  by_cases hbeyond : latest.toMicros < later.toMicros
  · rw [ofMicros_eq_latest hbeyond, position_latest, position]
    omega
  · have hmicros : IsMicros later.toMicros :=
      isMicros_iff.mpr ⟨later.toMicros_earliest_le, Int.not_lt.mp hbeyond⟩
    obtain ⟨hsecond', hnanos'⟩ := ofMicros_eq hmicros
    rw [toMicros] at hsecond' hnanos'
    rw [toMicros, position, position]
    omega

/-- Later microseconds are those of a later instant, except in a leap second. -/
theorem toMicros_le_or_second_lt {t later : Instant} (h : t ≤ later) :
    t.toMicros ≤ later.toMicros ∨ t.second < later.second := by
  have hnanos := t.nanos_lt
  have hnanos' := later.nanos_lt
  rw [le_def, position, position] at h
  rw [toMicros, toMicros]
  omega

theorem second_le_second {t later : Instant} (h : t ≤ later) : t.second ≤ later.second := by
  have hnanos := t.nanos_lt
  have hnanos' := later.nanos_lt
  rw [le_def, position, position] at h
  omega

end Instant

namespace CommitClock

/-- The clock has not gone past the last microsecond that an instant can name. -/
def InRange (clock : CommitClock) : Prop := clock.lastMicros ≤ Instant.latest.toMicros

instance (clock : CommitClock) : Decidable clock.InRange := inferInstanceAs (Decidable (_ ≤ _))

/-- A commit has been given `time` or a later valid time. -/
def Reached (clock : CommitClock) (time : Instant) : Prop :=
  Instant.earliest.toMicros ≤ clock.lastMicros ∧ time ≤ Instant.ofMicros clock.lastMicros

/-- What is not later than a time that the clock has reached has been reached too. -/
theorem Reached.of_le {clock : CommitClock} {time earlier : Instant} (h : clock.Reached time)
    (hle : earlier ≤ time) : clock.Reached earlier :=
  ⟨h.1, Int.le_trans hle h.2⟩

/-- A commit reaches its own valid time. -/
theorem reached_tick (clock : CommitClock) (now : Instant) :
    (clock.tick now.toMicros).2.2.Reached (clock.tick now.toMicros).2.1 := by
  refine ⟨?_, Int.le_refl _⟩
  rw [tick_lastMicros]
  exact Int.le_trans now.toMicros_earliest_le (clock.le_nextMicros _)

/-- The microseconds of the next commit are later, unless both are after the range of instants. -/
private theorem lt_nextMicros_or (clock : CommitClock) (now : Int) :
    clock.lastMicros < clock.nextMicros now ∨
      Instant.latest.toMicros < clock.lastMicros ∧
        Instant.latest.toMicros < clock.nextMicros now := by
  by_cases hlast : clock.lastMicros < maxMicros
  · exact Or.inl (lastMicros_lt_nextMicros now hlast)
  · -- the clock stands still there, which is after the range
    have hmax : maxMicros = 9223372036854775807 := by decide
    rw [Instant.toMicros_latest, nextMicros, hmax]
    omega

/-- No commit is earlier than a time that the clock has reached. -/
theorem Reached.le_tick {clock : CommitClock} {time : Instant} (h : clock.Reached time)
    (now : Int) : time ≤ (clock.tick now).2.1 := by
  refine Int.le_trans h.2 ?_
  rcases clock.lt_nextMicros_or now with hlt | ⟨hlast, hnext⟩
  · exact Instant.ofMicros_le_ofMicros h.1 (Int.le_of_lt hlt)
  · change Instant.ofMicros clock.lastMicros ≤ Instant.ofMicros (clock.nextMicros now)
    rw [Instant.ofMicros_eq_latest hlast, Instant.ofMicros_eq_latest hnext]
    exact Int.le_refl _

/-- While the clock is in range, a commit is later than every time that the clock has reached. -/
theorem Reached.lt_tick {clock : CommitClock} {time : Instant} (h : clock.Reached time)
    (hrange : clock.InRange) (now : Int) : time < (clock.tick now).2.1 := by
  refine Int.lt_of_le_of_lt h.2 ?_
  have hlast : Instant.IsMicros clock.lastMicros := Instant.isMicros_iff.mpr ⟨h.1, hrange⟩
  change Instant.ofMicros clock.lastMicros < Instant.ofMicros (clock.nextMicros now)
  rcases clock.lt_nextMicros_or now with hlt | ⟨hbeyond, -⟩
  -- the next commit may be beyond the range although the clock is not
  · by_cases hnext : Instant.latest.toMicros < clock.nextMicros now
    · rw [Instant.ofMicros_eq_latest hnext]
      exact Instant.ofMicros_lt_latest hlast
    · have hstarted := h.1
      rw [Instant.ofMicros_lt_iff hlast (Instant.isMicros_iff.mpr ⟨by omega, by omega⟩)]
      exact hlt
  · exact absurd hrange (Int.not_le.mpr hbeyond)

/-- The valid time of a commit is not before the wall clock, cut to microseconds. -/
theorem ofMicros_le_tick (clock : CommitClock) (now : Instant) :
    Instant.ofMicros now.toMicros ≤ (clock.tick now.toMicros).2.1 :=
  Instant.ofMicros_le_ofMicros now.toMicros_earliest_le (clock.le_nextMicros _)

/-- If the next commit is after a time that is not after the wall clock, it stays so while the wall
clock goes on. -/
theorem lt_tick_of_le {clock : CommitClock} {time now later : Instant}
    (hlt : time < (clock.tick now.toMicros).2.1) (hnow : time ≤ now) (hlater : now ≤ later) :
    time < (clock.tick later.toMicros).2.1 := by
  rcases Instant.toMicros_le_or_second_lt hlater with hmicros | hsecond
  · refine Int.lt_of_lt_of_le hlt (Instant.ofMicros_le_ofMicros ?_ ?_)
    · exact Int.le_trans now.toMicros_earliest_le (clock.le_nextMicros _)
    · rw [nextMicros, nextMicros]
      omega
  · -- the wall clock has left a leap second, and with it the second of the time
    have htime := Int.lt_of_le_of_lt (Instant.second_le_second hnow) hsecond
    exact Int.lt_of_lt_of_le (Instant.lt_ofMicros_of_second_lt htime) (clock.ofMicros_le_tick later)

/-- A clock that is in range after a commit was so before. -/
theorem InRange.of_tick {clock : CommitClock} {now : Int} (h : (clock.tick now).2.2.InRange) :
    clock.InRange := by
  have hmax : maxMicros = 9223372036854775807 := by decide
  rw [InRange, tick_lastMicros, nextMicros, hmax, Instant.toMicros_latest] at h
  rw [InRange, Instant.toMicros_latest]
  omega

/-! ## Numbers -/

/-- No more numbers have been given than microseconds, as long as the clock has any left. -/
def Numbered (clock : CommitClock) : Prop :=
  clock.lastMicros < maxMicros → (clock.nextId.toNat : Int) ≤ clock.lastMicros - minMicros + 1

theorem numbered_new : new.Numbered := fun _ => by decide

/-- A commit takes one microsecond and one number, which is not the last one of 64 bits. -/
private theorem Numbered.toNat_add_one {clock : CommitClock} (h : clock.Numbered)
    (hlast : clock.lastMicros + 1 < maxMicros) :
    (clock.nextId + 1).toNat = clock.nextId.toNat + 1 := by
  have hcount := h (by omega)
  -- from the first to the last microsecond there are fewer than there are numbers
  have hmin : minMicros = -9223372036854775808 := by decide
  have hmax : maxMicros = 9223372036854775807 := by decide
  have hone : (1 : UInt64).toNat = 1 := rfl
  rw [UInt64.toNat_add, hone]
  omega

/-- A commit keeps the numbers within the microseconds. -/
theorem Numbered.tick {clock : CommitClock} (h : clock.Numbered) (now : Int) :
    (clock.tick now).2.2.Numbered := by
  intro hnext
  rw [tick_lastMicros, nextMicros] at *
  have hlast : clock.lastMicros + 1 < maxMicros := by omega
  have hcount := h (by omega)
  have hsucc : (clock.tick now).2.2.nextId.toNat = _ := h.toNat_add_one hlast
  rw [hsucc]
  omega

/-- While the clock is in range, the next number follows the one that a commit gets. -/
theorem Numbered.nextId_tick {clock : CommitClock} (h : clock.Numbered) (hrange : clock.InRange)
    (now : Int) : (clock.tick now).2.2.nextId.toNat = clock.nextId.toNat + 1 := by
  apply h.toNat_add_one
  have hmax : maxMicros = 9223372036854775807 := by decide
  rw [InRange, Instant.toMicros_latest] at hrange
  omega

end CommitClock

end MetadataGraph
