import Mathlib.Data.List.Induction
import MetadataGraph.Proofs.Store.Clock

/-!
# Ticks of a new commit clock

A reading of the wall clock holds for its own commit, and asks one microsecond more of each commit
after it. The microseconds of a commit are the most that the readings so far ask of it, as long as
64 bits can count them. We prove:

* `due_concat`: what readings ask of a commit, from what the earlier ones asked of the one before;
* `after_new`: the clock after some readings;
* `ticks_new`: all that a new clock gives;
* `ticks_closedForm`: this, and that commits within the range of instants have later and later
  times, which are not before their readings and not far after the latest of them.
-/

namespace MetadataGraph

namespace CommitClock

/-! ## What readings ask for -/

/-- The most microseconds that some readings ask of the commit with the last of them. Each reading
asks for one more with every commit since its own, and so does the first microsecond of a 64-bit
count, as if it had been read before all of them. -/
def due (readings : List Int64) : Int :=
  (readings.reverse.mapIdx fun since reading => reading.toInt + (since : Int)).foldr max
    (minMicros + readings.length)

/-- The microseconds of the commit with the last of some readings, in a 64-bit count. -/
def commitMicros (readings : List Int64) : Int := min (due readings) maxMicros

/-- The largest of some numbers is one more if all of them are. -/
theorem foldr_max_add_one (first : Int) (others : List Int) :
    (others.map (· + 1)).foldr max (first + 1) = others.foldr max first + 1 := by
  induction others with
  | nil => rfl
  | cons other others ih =>
    rw [List.map_cons, List.foldr_cons, List.foldr_cons, ih]
    omega

/-- With a further reading, the earlier ones ask for one microsecond more. -/
theorem due_concat (readings : List Int64) (now : Int64) :
    due (readings ++ [now]) = max now.toInt (due readings + 1) := by
  -- reversed, the new reading comes first and moves the others one place further from the end
  have hearlier :
      readings.reverse.mapIdx (fun since reading => reading.toInt + ((since + 1 : Nat) : Int)) =
        (readings.reverse.mapIdx fun since reading => reading.toInt + (since : Int)).map
          (· + 1) := by
    rw [List.mapIdx_eq_zipIdx_map, List.mapIdx_eq_zipIdx_map, List.map_map]
    refine List.map_congr_left fun entry _ => ?_
    simp [Int.add_assoc]
  rw [due, List.reverse_concat, List.mapIdx_cons, hearlier, List.foldr_cons, List.length_append,
    List.length_singleton, Int.natCast_add, Int.natCast_one, ← Int.add_assoc, foldr_max_add_one,
    due, Int.natCast_zero, Int.add_zero]

theorem minMicros_le_toInt (reading : Int64) : minMicros ≤ reading.toInt :=
  reading.minValue_le_toInt

theorem toInt_le_maxMicros (reading : Int64) : reading.toInt ≤ maxMicros := reading.toInt_le

/-- The largest reading and the number of commits bound what readings ask for. -/
theorem exists_due_le {readings : List Int64} (h : readings ≠ []) :
    ∃ reading ∈ readings, due readings ≤ reading.toInt + readings.length := by
  induction readings using List.reverseRecOn with
  | nil => exact absurd rfl h
  | append_singleton readings now ih =>
    rw [due_concat, List.length_append, List.length_singleton, Int.natCast_add, Int.natCast_one]
    by_cases hfirst : readings = []
    · -- no reading is before the first microsecond, so one more than that is within the bound
      subst hfirst
      have hdue : due [] = minMicros := rfl
      have hnow := minMicros_le_toInt now
      refine ⟨now, List.mem_singleton_self now, ?_⟩
      rw [hdue, List.length_nil]
      omega
    · obtain ⟨reading, hmem, hle⟩ := ih hfirst
      by_cases hnow : due readings + 1 ≤ now.toInt
      · refine ⟨now, List.mem_append_right _ (List.mem_singleton_self now), ?_⟩
        omega
      · refine ⟨reading, List.mem_append_left _ hmem, ?_⟩
        omega

/-- Later commits are asked for more microseconds. -/
theorem due_take_lt {readings : List Int64} {count later : Nat} (hlt : count < later)
    (hlater : later ≤ readings.length) :
    due (readings.take count) < due (readings.take later) := by
  induction later with
  | zero => exact absurd hlt (Nat.not_lt_zero count)
  | succ later ih =>
    have hstep : due (readings.take later) < due (readings.take (later + 1)) := by
      rw [← List.take_concat_get hlater, List.concat_eq_append, due_concat]
      omega
    rcases Nat.lt_succ_iff_lt_or_eq.mp hlt with hlt | rfl
    · exact Int.lt_trans (ih hlt (Nat.le_of_succ_le hlater)) hstep
    · exact hstep

/-! ## Ticks -/

/-- What a clock gives for some readings, one after the other: the number and the valid time of each
commit, and the clock after it. -/
def ticks : CommitClock → List Int64 → List (UInt64 × Instant × CommitClock)
  | _, [] => []
  | clock, now :: later =>
    clock.tick now.toInt :: (clock.tick now.toInt).2.2.ticks later

/-- The clock after some readings. -/
def after (clock : CommitClock) (readings : List Int64) : CommitClock :=
  readings.foldl (fun clock now => (clock.tick now.toInt).2.2) clock

theorem ticks_concat (clock : CommitClock) (readings : List Int64) (now : Int64) :
    clock.ticks (readings ++ [now]) =
      clock.ticks readings ++ [(clock.after readings).tick now.toInt] := by
  induction readings generalizing clock with
  | nil => rfl
  | cons first later ih =>
    rw [List.cons_append, ticks, ih, ticks, List.cons_append, after, after, List.foldl_cons]

/-- A clock that has given as many numbers as there are readings, and the microseconds that they ask
for. -/
def caughtUp (readings : List Int64) : CommitClock :=
  ⟨commitMicros readings, UInt64.ofNat (readings.length + 1)⟩

/-- Such a clock gives the next number, and catches up with the reading. -/
theorem tick_caughtUp (readings : List Int64) (now : Int64) :
    (caughtUp readings).tick now.toInt =
      (UInt64.ofNat (readings.length + 1), Instant.ofMicros (commitMicros (readings ++ [now])),
        caughtUp (readings ++ [now])) := by
  have hmicros : (caughtUp readings).nextMicros now.toInt = commitMicros (readings ++ [now]) := by
    have hnow := toInt_le_maxMicros now
    have hlast : (caughtUp readings).lastMicros = commitMicros readings := rfl
    rw [nextMicros, hlast, commitMicros, commitMicros, due_concat]
    -- the reading is within the count, so it does not matter when the earlier maximum is cut off
    omega
  have hid : (caughtUp readings).nextId + 1 = UInt64.ofNat ((readings ++ [now]).length + 1) := by
    rw [List.length_append, List.length_singleton, UInt64.ofNat_add (readings.length + 1) 1]
    rfl
  rw [tick, hmicros, hid]
  rfl

/-- A new clock has caught up with all readings. -/
theorem after_new (readings : List Int64) : new.after readings = caughtUp readings := by
  induction readings using List.reverseRecOn with
  | nil => decide
  | append_singleton readings now ih =>
    calc new.after (readings ++ [now])
      _ = ((new.after readings).tick now.toInt).2.2 := List.foldl_append ..
      _ = caughtUp (readings ++ [now]) := by rw [ih, tick_caughtUp]

/-- All that a new clock gives for some readings. -/
theorem ticks_new (readings : List Int64) :
    new.ticks readings = (List.range' 1 readings.length).map fun count =>
      (UInt64.ofNat count, Instant.ofMicros (commitMicros (readings.take count)),
        caughtUp (readings.take count)) := by
  induction readings using List.reverseRecOn with
  | nil => rfl
  | append_singleton readings now ih =>
    -- no earlier commit depends on the new reading
    have hearlier : ∀ count ∈ List.range' 1 readings.length,
        (readings ++ [now]).take count = readings.take count := by
      intro count hcount
      rw [List.mem_range'_1] at hcount
      exact List.take_append_of_le_length (by omega)
    have hlast : (readings ++ [now]).take (1 + readings.length) = readings ++ [now] :=
      List.take_of_length_le (by simp [Nat.add_comm])
    rw [ticks_concat, after_new, tick_caughtUp, ih, List.length_append, List.length_singleton,
      List.range'_1_concat, List.map_append, List.map_singleton, hlast, Nat.add_comm 1]
    congr 1
    exact List.map_congr_left fun count hcount => by rw [hearlier count hcount]

/-! ## The range of instants -/

/-- Within the range of instants, all that is asked for is given. -/
theorem due_eq_commitMicros {readings : List Int64}
    (h : Instant.IsMicros (commitMicros readings)) : due readings = commitMicros readings := by
  have hmax : maxMicros = 9223372036854775807 := by decide
  -- instants end before the count does
  unfold Instant.IsMicros commitMicros at h
  unfold commitMicros
  omega

/-- Within the range of instants, a later commit has a later valid time. -/
theorem ofMicros_commitMicros_lt {readings : List Int64} {count later : Nat} (hlt : count < later)
    (hlater : later ≤ readings.length)
    (hcount : Instant.IsMicros (commitMicros (readings.take count)))
    (hrange : Instant.IsMicros (commitMicros (readings.take later))) :
    Instant.ofMicros (commitMicros (readings.take count)) <
      Instant.ofMicros (commitMicros (readings.take later)) := by
  rw [Instant.ofMicros_lt_iff hcount hrange, ← due_eq_commitMicros hcount,
    ← due_eq_commitMicros hrange]
  exact due_take_lt hlt hlater

/-- A commit has no fewer microseconds than its reading. -/
theorem toInt_le_commitMicros {readings : List Int64} {place : Nat} {reading : Int64}
    (h : readings[place]? = some reading) :
    reading.toInt ≤ commitMicros (readings.take (place + 1)) := by
  have hmax := toInt_le_maxMicros reading
  rw [List.take_add_one, h, Option.toList_some, commitMicros, due_concat]
  omega

/-- A commit is ahead of some reading so far by no more microseconds than there were commits. -/
theorem exists_commitMicros_le {readings : List Int64} {place : Nat}
    (h : place < readings.length) :
    ∃ earlier ∈ readings.take (place + 1),
      commitMicros (readings.take (place + 1)) ≤ earlier.toInt + (place + 1) := by
  have hlength : (readings.take (place + 1)).length = place + 1 :=
    List.length_take_of_le h
  have hne : readings.take (place + 1) ≠ [] :=
    List.ne_nil_of_length_eq_add_one hlength
  obtain ⟨earlier, hmem, hle⟩ := exists_due_le hne
  rw [hlength, Int.natCast_add, Int.natCast_one] at hle
  exact ⟨earlier, hmem, Int.le_trans (Int.min_le_left ..) hle⟩

/-- The commits of a new clock have the numbers from 1 on, and each the most microseconds that its
reading and the earlier ones ask for, in 64 bits both. If these microseconds are all within the
range of instants, the valid times increase strictly, each is not before its reading, and it is
ahead of some reading so far by no more microseconds than there were commits. -/
theorem ticks_closedForm (readings : List Int64) :
    (new.ticks readings).map (·.1) = (List.range' 1 readings.length).map UInt64.ofNat ∧
      (readings.length < UInt64.size →
        (new.ticks readings).map (·.1.toNat) = List.range' 1 readings.length) ∧
      (new.ticks readings).map (fun given => (given.2.1, given.2.2.lastMicros)) =
        (List.range' 1 readings.length).map (fun count =>
          (Instant.ofMicros (commitMicros (readings.take count)),
            commitMicros (readings.take count))) ∧
      ((∀ count ∈ List.range' 1 readings.length,
          Instant.IsMicros (commitMicros (readings.take count))) →
        ((new.ticks readings).map (·.2.1)).Pairwise (· < ·) ∧
          ∀ place reading given, readings[place]? = some reading →
            (new.ticks readings)[place]? = some given →
            reading.toInt ≤ given.2.1.toMicros ∧
              ∃ earlier ∈ readings.take (place + 1),
                given.2.1.toMicros ≤ earlier.toInt + (place + 1)) := by
  rw [ticks_new, List.map_map, List.map_map, List.map_map, List.map_map, List.pairwise_map]
  refine ⟨rfl, fun hlength => ?_, rfl, fun hrange => ⟨?_, ?_⟩⟩
  · -- as long as there are few enough commits, no number starts again from 0
    refine (List.map_congr_left fun count hcount => ?_).trans (List.map_id _)
    rw [List.mem_range'_1] at hcount
    exact UInt64.toNat_ofNat_of_lt (Nat.lt_of_le_of_lt (by omega) hlength)
  · refine List.Pairwise.imp_of_mem (fun {count later} hcount hlater hlt => ?_)
      List.pairwise_lt_range'
    have hle := (List.mem_range'_1.mp hlater).2
    exact ofMicros_commitMicros_lt hlt (by omega) (hrange count hcount) (hrange later hlater)
  · intro place reading given hreading hgiven
    obtain ⟨hplace, -⟩ := List.getElem?_eq_some_iff.mp hreading
    have hcount : Instant.IsMicros (commitMicros (readings.take (1 + place))) :=
      hrange (1 + place) (List.mem_range'_1.mpr (by omega))
    -- the commit at this place is the one with as many readings as it takes to get there
    rw [List.getElem?_map, List.getElem?_range' hplace, Option.map_some, Option.some_inj,
      Nat.one_mul] at hgiven
    rw [← hgiven, Instant.toMicros_ofMicros hcount, Nat.add_comm 1 place]
    exact ⟨toInt_le_commitMicros hreading, exists_commitMicros_le hplace⟩

theorem ticks_closedForm_stalled :
    [1000, 1000, 500].length < UInt64.size ∧
      (∀ count ∈ List.range' 1 3,
        Instant.IsMicros (commitMicros (([1000, 1000, 500] : List Int64).take count))) ∧
      (new.ticks [1000, 1000, 500]).map (·.1.toNat) = [1, 2, 3] ∧
      ((new.ticks [1000, 1000, 500]).map (·.2.1)).Pairwise (· < ·) ∧
      ([1000, 1000, 500] : List Int64)[2]? = some 500 ∧
      (new.ticks [1000, 1000, 500])[2]? =
        some (3, Instant.ofMicros 1002, caughtUp [1000, 1000, 500]) ∧
      (500 : Int64).toInt ≤ (Instant.ofMicros 1002).toMicros ∧
      ∃ earlier ∈ ([1000, 1000, 500] : List Int64),
        (Instant.ofMicros 1002).toMicros ≤ earlier.toInt + 3 := by
  have hlength : ([1000, 1000, 500] : List Int64).length < UInt64.size := by decide
  have hrange : ∀ count ∈ List.range' 1 3,
      Instant.IsMicros (commitMicros (([1000, 1000, 500] : List Int64).take count)) := by
    decide
  have hreading : ([1000, 1000, 500] : List Int64)[2]? = some 500 := rfl
  have hgiven : (new.ticks [1000, 1000, 500])[2]? =
      some (3, Instant.ofMicros 1002, caughtUp [1000, 1000, 500]) := by decide
  obtain ⟨-, hids, -, hinstants⟩ := ticks_closedForm [1000, 1000, 500]
  obtain ⟨hincreasing, hbounds⟩ := hinstants hrange
  obtain ⟨hreached, hahead⟩ := hbounds 2 500 _ hreading hgiven
  exact ⟨hlength, hrange, hids hlength, hincreasing, hreading, hgiven, hreached, hahead⟩

end CommitClock

end MetadataGraph
