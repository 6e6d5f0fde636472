/-!
# Status and provenance

The lifecycle status of an instance and where it came from.
-/

namespace MetadataGraph

/-- Identifies an instance. -/
abbrev Guid := String

/-- Identifies a collection. -/
abbrev CollectionId := String

/-- Names the user on whose behalf an operation runs. -/
abbrev UserId := String

/-- Names a type of instances or of classifications. -/
abbrev TypeName := String

/-- The lifecycle status of an instance. -/
inductive Status where
  | draft
  | prepared
  | proposed
  | approved
  | rejected
  | active
  | deprecated
  | other
  | deleted
  deriving DecidableEq, Inhabited

namespace Status

/-- Every status but the deleted one. -/
def live : List Status :=
  [draft, prepared, proposed, approved, rejected, active, deprecated, other]

/-- Whether this is the status of soft-deleted instances. -/
def isDeleted (status : Status) : Bool := status = deleted

/-- The upper-case name of the status. -/
def name : Status → String
  | draft => "DRAFT"
  | prepared => "PREPARED"
  | proposed => "PROPOSED"
  | approved => "APPROVED"
  | rejected => "REJECTED"
  | active => "ACTIVE"
  | deprecated => "DEPRECATED"
  | other => "OTHER"
  | deleted => "DELETED"

@[simp] theorem isDeleted_iff {status : Status} : status.isDeleted = true ↔ status = deleted := by
  simp [isDeleted]

theorem mem_live_iff {status : Status} : status ∈ live ↔ status ≠ deleted := by
  cases status <;> decide

end Status

/-- Where an instance originated. -/
inductive Provenance where
  /-- In a collection of the cohort. -/
  | cohort
  /-- In a system outside the cohort, replicated by one of its collections. -/
  | externalSource
  deriving DecidableEq, Inhabited

end MetadataGraph
