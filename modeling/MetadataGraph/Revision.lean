import MetadataGraph.Instant

/-!
# Revisions

Every change of an instance adds a revision. A revision is in effect from its valid time until the
valid time of the next one. Reads name a point in time (`AsOf`) or a window of time.
-/

namespace MetadataGraph

/-- One state of an instance and the times that belong to it. -/
structure Revision (α : Type) where
  /-- The state. -/
  data : α
  /-- The time from which it is in effect. -/
  validTime : Instant
  /-- The wall-clock time of the commit that wrote it. -/
  transactionTime : Instant
  /-- The time from which a later revision is in effect; none for the current one. -/
  validUntil : Option Instant
  deriving DecidableEq

/-- A window of valid time with both ends included; a missing end is open. -/
structure Window where
  /-- The first instant. -/
  start : Option Instant
  /-- The last instant. -/
  finish : Option Instant
  deriving DecidableEq, Inhabited

/-- A point in time to read at; none reads the current state. -/
structure AsOf where
  /-- The valid time to read at. -/
  validTime : Option Instant
  deriving DecidableEq, Inhabited

/-- The order in which a history lists revisions. -/
inductive HistoryOrder where
  /-- Oldest first. -/
  | forwards
  /-- Newest first. -/
  | backwards
  deriving DecidableEq, Inhabited

namespace Window

/-- The window of all time. -/
def all : Window := ⟨none, none⟩

/-- Whether an instant is in the window. -/
def contains (window : Window) (time : Instant) : Bool :=
  window.start.all (· ≤ time) && window.finish.all (time ≤ ·)

end Window

namespace AsOf

/-- Read the current state. -/
def now : AsOf := ⟨none⟩

/-- Read the state at an instant. -/
def atTime (time : Instant) : AsOf := ⟨some time⟩

/-- Whether the current state is read. -/
def isNow (asOf : AsOf) : Bool := asOf.validTime.isNone

end AsOf

namespace Revision

variable {α β : Type}

/-- A revision that no later one has superseded yet. -/
def new (data : α) (validTime transactionTime : Instant) : Revision α :=
  ⟨data, validTime, transactionTime, none⟩

/-- Whether no later revision has superseded this one. -/
def isCurrent (revision : Revision α) : Bool := revision.validUntil.isNone

/-- Whether the revision is in effect at an instant. -/
def isValidAt (revision : Revision α) (time : Instant) : Bool :=
  revision.validTime ≤ time && revision.validUntil.all (time < ·)

/-- Whether the revision is in effect at some instant of a window. -/
def overlaps (revision : Revision α) (window : Window) : Bool :=
  revision.validTime ≤ window.finish.getD .latest
    && revision.validUntil.all (window.start.getD .earliest < ·)

/-- Whether a read at a point in time sees the revision. -/
def isSeenBy (revision : Revision α) (asOf : AsOf) : Bool :=
  match asOf.validTime with
  | none => revision.isCurrent
  | some time => revision.isValidAt time

/-- The revision with its state replaced and its times kept. -/
def map (f : α → β) (revision : Revision α) : Revision β where
  data := f revision.data
  validTime := revision.validTime
  transactionTime := revision.transactionTime
  validUntil := revision.validUntil

end Revision

end MetadataGraph
