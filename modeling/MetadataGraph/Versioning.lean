import MetadataGraph.Error
import MetadataGraph.Instance.Record

/-!
# Versions and status changes

Every accepted change of an instance makes a new value whose version is one more than before. That
of an instance at the last version is cut off, as there is no number left. A soft delete keeps the
status it replaces, so that a restore can bring it back.
-/

namespace MetadataGraph

namespace Header

/-- Refuse a deleted instance. -/
def requireLive (header : Header) : Outcome Unit :=
  .require (!header.isDeleted) (.alreadyDeleted header.guid)

/-- Refuse an instance that is not deleted. -/
def requireDeleted (header : Header) : Outcome Unit :=
  .require header.isDeleted (.notDeleted header.guid)

/-- Refuse a header whose status and status on delete do not fit: a deleted instance has a live
status on delete, a live one has none. -/
def checkStatus (header : Header) : Outcome Unit :=
  match header.isDeleted, header.statusOnDelete with
  | true, some .deleted => .error (.refused (.invalidState (.deletedOnDelete header.guid)))
  | true, some _ | false, none => .ok ()
  | true, none => .error (.refused (.invalidState (.noStatusOnDelete header.guid)))
  | false, some _ => .error (.refused (.invalidState (.liveWithStatusOnDelete header.guid)))

/-- Whether status and status on delete fit: a deleted instance has a live status on delete, a live
one has none. -/
def HasStatusInvariant (header : Header) : Prop :=
  if header.status = .deleted then ∃ status, header.statusOnDelete = some status ∧ status ≠ .deleted
  else header.statusOnDelete = none

theorem checkStatus_eq_ok_iff {header : Header} :
    header.checkStatus = .ok () ↔ header.HasStatusInvariant := by
  unfold checkStatus HasStatusInvariant isDeleted Status.isDeleted
  cases header.status <;> cases header.statusOnDelete with
  | none => simp
  | some status => cases status <;> simp

end Header

/-- The last version: the last number of 64 bits. -/
def lastVersion : UInt64 := 0xFFFFFFFFFFFFFFFF

namespace Versioning

variable {α : Type} [Instance α]

open Instance

/-- The version after a version. There is none after the last one. -/
def following (version : UInt64) : Outcome UInt64 :=
  if version = lastVersion then .error .overflow else .ok (version + 1)

/-- The next version of `prior` with the content of `mutated`, which must be the same instance. -/
def nextVersion (prior mutated : α) (stamp : Stamp) : Outcome α := do
  .require (guid prior = guid mutated)
    (.invalidState (.versionOfOther (guid mutated) (guid prior)))
  let version ← following (version prior)
  return setHeader mutated
    { header mutated with
      version
      updatedBy := some stamp.user
      updatedAt := some stamp.time }

/-- The next version of a live instance with changed content. -/
def update (current mutated : α) (stamp : Stamp) : Outcome α := do
  (header current).requireLive
  nextVersion current mutated stamp

/-- The next version of a live instance in another live status. -/
def changeStatus (current : α) (status : Status) (stamp : Stamp) : Outcome α := do
  (header current).requireLive
  .require (!status.isDeleted) (.invalidParameter .deletedStatus)
  nextVersion current (setHeader current { header current with status }) stamp

/-- The next version of a live instance, deleted and remembering its status. -/
def softDelete (current : α) (stamp : Stamp) : Outcome α := do
  (header current).requireLive
  nextVersion current
    (setHeader current
      { header current with
        status := .deleted
        statusOnDelete := some (header current).status })
    stamp

/-- The next version of a deleted instance, in the status it had before. -/
def restore (current : α) (stamp : Stamp) : Outcome α := do
  (header current).requireDeleted
  let status ← .ofOption (.invalidState (.noStatusOnDelete (guid current)))
    (header current).statusOnDelete
  let restored := setHeader current { header current with status, statusOnDelete := none }
  nextVersion current restored stamp

/-- The same instance under a new identity, remembering the old one. -/
def rekey (versioned : α) (newGuid : Guid) : α :=
  setHeader versioned
    { header versioned with
      reIdentifiedFrom := some (guid versioned)
      guid := newGuid }

end Versioning

end MetadataGraph
