/-!
# Guards

A write to the store can demand what must be stored under its identity at that moment. A guard
carries the version that a change was computed from, which makes concurrent changes conflict
instead of overwriting each other.
-/

namespace MetadataGraph

/-- What a write demands of the record stored so far. -/
inductive Guard where
  /-- Nothing. -/
  | always
  /-- That there is none. -/
  | absent
  /-- That it has exactly this version. -/
  | version (version : UInt64)
  /-- That it is not an entity in full. -/
  | noFullEntity
  deriving DecidableEq

namespace Guard

/-- The guard's name in messages. -/
def text : Guard → String
  | always => "Any"
  | absent => "Absent"
  | version v => s!"Version({v})"
  | noFullEntity => "NoFullEntity"

end Guard

end MetadataGraph
