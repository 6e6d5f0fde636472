import MetadataGraph.Instant

/-!
# Commit clock

The clock that gives every commit its number and its valid time. It follows the wall clock but
never gives a microsecond twice, so commits stay in order when the wall clock stalls or goes back.
Main statements: `le_nextMicros` and `lastMicros_lt_nextMicros`.
-/

namespace MetadataGraph

/-- The state of a commit clock. -/
structure CommitClock where
  /-- The microsecond given last. -/
  lastMicros : Int
  /-- The number of the next commit. -/
  nextId : UInt64
  deriving DecidableEq

namespace CommitClock

/-- The first microsecond of a 64-bit count. -/
def minMicros : Int := Int64.minValue.toInt

/-- The last microsecond of a 64-bit count, at which the clock stands still. -/
def maxMicros : Int := Int64.maxValue.toInt

/-- The clock before the first commit. -/
def new : CommitClock := ⟨minMicros, 1⟩

instance : Inhabited CommitClock := ⟨new⟩

/-- The microsecond of the next commit when the wall clock reads `now`. -/
def nextMicros (clock : CommitClock) (now : Int) : Int :=
  max now (min (clock.lastMicros + 1) maxMicros)

/-- The clock does not fall behind the wall clock. -/
theorem le_nextMicros (clock : CommitClock) (now : Int) : now ≤ clock.nextMicros now :=
  Int.le_max_left ..

/-- Before its last microsecond the clock advances with every commit. -/
theorem lastMicros_lt_nextMicros {clock : CommitClock} (now : Int)
    (h : clock.lastMicros < maxMicros) : clock.lastMicros < clock.nextMicros now := by
  rw [nextMicros]
  omega

/-- Give the number and the valid time of a commit when the wall clock reads `now` microseconds. -/
def tick (clock : CommitClock) (now : Int) : UInt64 × Instant × CommitClock :=
  let micros := clock.nextMicros now
  (clock.nextId, Instant.ofMicros micros, ⟨micros, clock.nextId + 1⟩)

theorem tick_lastMicros (clock : CommitClock) (now : Int) :
    (clock.tick now).2.2.lastMicros = clock.nextMicros now := rfl

end CommitClock

end MetadataGraph
