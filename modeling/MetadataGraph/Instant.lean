/-!
# Instants

An `Instant` is a moment of universal time with nanosecond precision, within the range of years
that timestamps can name. Revisions carry instants for the time they are valid from and for the
time they were committed. Main statements: the order is that of `position` (`le_def`, `lt_def`),
`position_injective`, and `ofMicros_lt_iff` within the range.
-/

namespace MetadataGraph

/-- A moment of universal time. A leap second is written as the 59th second of its minute with
`nanos` from `10 ^ 9` on. -/
structure Instant where
  /-- Whole seconds since the start of 1970. -/
  second : Int
  /-- Nanoseconds into the second. -/
  nanos : Nat
  /-- Only a leap second has more than `10 ^ 9` nanoseconds. -/
  nanos_lt : nanos < 2000000000
  /-- Not before the start of the year -262143. -/
  earliest_le : -8334601228800 ≤ second
  /-- Not after the end of the year 262142. -/
  le_latest : second ≤ 8210266876799
  deriving DecidableEq

namespace Instant

/-- The first instant. -/
def earliest : Instant := ⟨-8334601228800, 0, by decide, by decide, by decide⟩

/-- The last instant outside a leap second. -/
def latest : Instant := ⟨8210266876799, 999999999, by decide, by decide, by decide⟩

instance : Inhabited Instant := ⟨earliest⟩

/-! ## Order -/

/-- Places the instants on the integers in their order: by second, then by nanoseconds. -/
def position (t : Instant) : Int := t.second * 2000000000 + t.nanos

instance : LE Instant := ⟨fun a b => a.position ≤ b.position⟩

instance : LT Instant := ⟨fun a b => a.position < b.position⟩

instance : DecidableLE Instant := fun a b => inferInstanceAs (Decidable (a.position ≤ b.position))

instance : DecidableLT Instant := fun a b => inferInstanceAs (Decidable (a.position < b.position))

instance : Ord Instant := ⟨fun a b => compare a.position b.position⟩

theorem le_def {a b : Instant} : a ≤ b ↔ a.position ≤ b.position := Iff.rfl

theorem lt_def {a b : Instant} : a < b ↔ a.position < b.position := Iff.rfl

theorem compare_def (a b : Instant) : compare a b = compare a.position b.position := rfl

theorem position_injective {a b : Instant} (h : a.position = b.position) : a = b := by
  obtain ⟨sa, na, ha, _, _⟩ := a
  obtain ⟨sb, nb, hb, _, _⟩ := b
  simp only [position] at h
  have : sa = sb ∧ na = nb := by omega
  simp [this]

/-! ## Counts of smaller units -/

/-- The instant a number of nanoseconds after the start of 1970; the last instant for every number
outside the range. -/
def ofNanos (n : Int) : Instant :=
  if h : -8334601228800 ≤ n / 1000000000 ∧ n / 1000000000 ≤ 8210266876799 then
    ⟨n / 1000000000, (n % 1000000000).toNat, by omega, h.1, h.2⟩
  else latest

/-- The instant a number of microseconds after the start of 1970; the last instant for every
number outside the range. -/
def ofMicros (n : Int) : Instant := ofNanos (n * 1000)

/-- The instant a number of milliseconds after the start of 1970; the last instant for every
number outside the range. -/
def ofMillis (n : Int) : Instant := ofNanos (n * 1000000)

/-- Microseconds since the start of 1970, rounded down. -/
def toMicros (t : Instant) : Int := t.second * 1000000 + t.nanos / 1000

/-- Milliseconds since the start of 1970, rounded down. -/
def toMillis (t : Instant) : Int := t.second * 1000 + t.nanos / 1000000

/-- The microsecond counts that name an instant. -/
def IsMicros (n : Int) : Prop := -8334601228800000000 ≤ n ∧ n ≤ 8210266876799999999

instance (n : Int) : Decidable (IsMicros n) := inferInstanceAs (Decidable (_ ∧ _))

theorem ofMicros_eq {n : Int} (h : IsMicros n) :
    (ofMicros n).second = n / 1000000 ∧ ((ofMicros n).nanos : Int) = n % 1000000 * 1000 := by
  unfold IsMicros at h
  have inRange : -8334601228800 ≤ n * 1000 / 1000000000 ∧
      n * 1000 / 1000000000 ≤ 8210266876799 := by omega
  simp only [ofMicros, ofNanos, inRange, and_self, dite_true]
  omega

theorem toMicros_ofMicros {n : Int} (h : IsMicros n) : (ofMicros n).toMicros = n := by
  obtain ⟨second, nanos⟩ := ofMicros_eq h
  unfold toMicros
  omega

/-- Within the range, instants stand in the order of their microsecond counts. -/
theorem ofMicros_lt_iff {m n : Int} (hm : IsMicros m) (hn : IsMicros n) :
    ofMicros m < ofMicros n ↔ m < n := by
  obtain ⟨secondM, nanosM⟩ := ofMicros_eq hm
  obtain ⟨secondN, nanosN⟩ := ofMicros_eq hn
  rw [lt_def]
  unfold position
  omega

end Instant

end MetadataGraph
