import MetadataGraph.Proofs.Outcome
import MetadataGraph.Versioning

/-!
# Successive versions

Whatever a change does to the content of an instance, it keeps the identity and adds one to the
version. We prove:

* `following_eq_ok_iff` and `toNat_add_one`: the version after a version is one more in number, and
  the last one has none;
* `nextVersion_eq_ok_iff`: the next version is made of the new content and the old version;
* `update_eq_ok_iff` and its siblings: every kind of change checks the status and makes the next
  version;
* `Succeeds.of_nextVersion`: the next version succeeds the one it was made from;
* `softDelete_eq_ok_iff` and `rekey_of_nextVersion`: what a re-identification leaves under the old
  identity and puts under the new one.
-/

namespace MetadataGraph

/-- The header of the next version, as a change leaves it that touches nothing else. -/
def Header.next (header : Header) (stamp : Stamp) : Header :=
  { header with
    version := header.version + 1
    updatedBy := some stamp.user
    updatedAt := some stamp.time }

namespace Versioning

variable {α : Type} [Instance α] {current mutated next : α} {stamp : Stamp}

open Instance

/-! ## Numbers -/

/-- There is a version after every version but the last one. -/
theorem following_eq_ok_iff {version following : UInt64} :
    Versioning.following version = .ok following ↔
      version ≠ lastVersion ∧ version + 1 = following := by
  unfold Versioning.following
  split <;> simp_all

/-- The last version is where a change is cut off. -/
theorem following_eq_overflow_iff {version : UInt64} :
    following version = .error .overflow ↔ version = lastVersion := by
  unfold following
  split <;> simp_all

/-- The version after a version is one more in number. -/
theorem toNat_add_one {version : UInt64} (h : version ≠ lastVersion) :
    (version + 1).toNat = version.toNat + 1 := by
  have hne : version.toNat ≠ lastVersion.toNat := mt UInt64.toNat_inj.mp h
  have hlast : lastVersion.toNat = 18446744073709551615 := rfl
  have hlt := version.toNat_lt
  rw [UInt64.toNat_add, UInt64.toNat_one]
  omega

/-! ## Next versions -/

/-- The next version is made of the new content and the old version, if both are of one instance and
there is a version left. -/
theorem nextVersion_eq_ok_iff {prior : α} :
    nextVersion prior mutated stamp = .ok next ↔
      guid prior = guid mutated ∧ version prior ≠ lastVersion ∧
        setHeader mutated ({ header mutated with version := version prior }.next stamp) = next := by
  simp only [nextVersion, Outcome.bind_eq_ok_iff, Outcome.require_eq_ok_iff, decide_eq_true_eq,
    following_eq_ok_iff, Outcome.pure_eq_ok_iff]
  constructor
  · rintro ⟨⟨⟩, hguid, version, ⟨hfits, rfl⟩, hnext⟩
    exact ⟨hguid, hfits, hnext⟩
  · rintro ⟨hguid, hfits, hnext⟩
    exact ⟨(), hguid, _, ⟨hfits, rfl⟩, hnext⟩

/-- A next version is cut off at the last one. -/
theorem nextVersion_eq_overflow_iff {prior : α} :
    nextVersion prior mutated stamp = .error .overflow ↔
      guid prior = guid mutated ∧ version prior = lastVersion := by
  simp [nextVersion, Outcome.bind_eq_error_iff, Outcome.require_eq_ok_iff,
    Outcome.require_eq_error_iff, following_eq_overflow_iff, pure, Except.pure]

/-- An update makes the next version of a live instance. -/
theorem update_eq_ok_iff :
    update current mutated stamp = .ok next ↔
      (header current).isDeleted = false ∧ nextVersion current mutated stamp = .ok next := by
  simp [update, Header.requireLive, Outcome.bind_eq_ok_iff, Outcome.require_eq_ok_iff]

/-- An update is cut off where the next version of a live instance is. -/
theorem update_eq_overflow_iff :
    update current mutated stamp = .error .overflow ↔
      (header current).isDeleted = false ∧
        nextVersion current mutated stamp = .error .overflow := by
  simp [update, Header.requireLive, Outcome.bind_eq_error_iff, Outcome.require_eq_ok_iff,
    Outcome.require_eq_error_iff]

/-- A change of status makes the next version of a live instance, in a live status. -/
theorem changeStatus_eq_ok_iff {status : Status} :
    changeStatus current status stamp = .ok next ↔
      (header current).isDeleted = false ∧ status.isDeleted = false ∧
        nextVersion current (setHeader current { header current with status }) stamp =
          .ok next := by
  simp [changeStatus, Header.requireLive, Outcome.bind_eq_ok_iff, Outcome.require_eq_ok_iff]

/-- A restore makes the next version of a deleted instance, in the status that it kept. -/
theorem restore_eq_ok_iff :
    restore current stamp = .ok next ↔
      (header current).isDeleted ∧ ∃ status, (header current).statusOnDelete = some status ∧
        nextVersion current
          (setHeader current { header current with status, statusOnDelete := none }) stamp =
            .ok next := by
  simp [restore, Header.requireDeleted, Outcome.bind_eq_ok_iff, Outcome.require_eq_ok_iff,
    Outcome.ofOption_eq_ok_iff]

/-- An instance is the same as another one, one version later. -/
structure Succeeds (next prior : α) : Prop where
  /-- The identity stays. -/
  guid_eq : guid next = guid prior
  /-- The version is one more. -/
  version_eq : version next = version prior + 1
  /-- One more is a version too. -/
  fits : version prior ≠ lastVersion

theorem Succeeds.of_nextVersion {prior : α} (h : nextVersion prior mutated stamp = .ok next) :
    Succeeds next prior := by
  obtain ⟨hguid, hfits, rfl⟩ := nextVersion_eq_ok_iff.mp h
  constructor
  · simpa [guid, Header.next] using hguid.symm
  · simp [version, Header.next]
  · exact hfits

theorem Succeeds.of_update (h : update current mutated stamp = .ok next) :
    Succeeds next current :=
  .of_nextVersion (update_eq_ok_iff.mp h).2

/-! ## Re-identification -/

/-- What a soft delete leaves of an instance: only the status changes, and is kept as the status on
delete. -/
def retired (current : α) (stamp : Stamp) : α :=
  setHeader current ({ header current with
    status := .deleted
    statusOnDelete := some (header current).status }.next stamp)

/-- The next version of an instance under a new identity. -/
def renamed (current : α) (newGuid : Guid) (stamp : Stamp) : α :=
  setHeader current { (header current).next stamp with
    guid := newGuid
    reIdentifiedFrom := some (guid current) }

/-- An instance that is retired keeps its identity. -/
theorem guid_retired (current : α) (stamp : Stamp) :
    guid (retired current stamp) = guid current := by
  simp [guid, retired, Header.next]

/-- An instance that is retired has one version more. -/
theorem version_retired (current : α) (stamp : Stamp) :
    version (retired current stamp) = version current + 1 := by
  simp [version, retired, Header.next]

theorem succeeds_retired (h : version current ≠ lastVersion) (stamp : Stamp) :
    Succeeds (retired current stamp) current :=
  ⟨guid_retired current stamp, version_retired current stamp, h⟩

/-- A soft delete of a live instance leaves the instance retired, if there is a version left. -/
theorem softDelete_eq_ok_iff :
    softDelete current stamp = .ok next ↔
      (header current).isDeleted = false ∧ version current ≠ lastVersion ∧
        retired current stamp = next := by
  simp only [softDelete, Header.requireLive, Outcome.bind_eq_ok_iff, Outcome.require_eq_ok_iff,
    nextVersion_eq_ok_iff, Bool.not_eq_true', header_setHeader, setHeader_setHeader]
  constructor
  · rintro ⟨⟨⟩, hlive, -, hfits, hnext⟩
    exact ⟨hlive, hfits, hnext⟩
  · rintro ⟨hlive, hfits, hnext⟩
    exact ⟨(), hlive, by simp [guid], hfits, hnext⟩

/-- To rekey the next version of an instance is to rename it. -/
theorem rekey_of_nextVersion (h : nextVersion current current stamp = .ok next) (newGuid : Guid) :
    rekey next newGuid = renamed current newGuid stamp := by
  obtain ⟨-, -, rfl⟩ := nextVersion_eq_ok_iff.mp h
  rw [rekey, renamed, guid, header_setHeader, setHeader_setHeader]
  rfl

end Versioning

end MetadataGraph
