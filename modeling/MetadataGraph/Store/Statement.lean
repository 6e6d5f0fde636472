import MetadataGraph.Error
import MetadataGraph.Instance.Record

/-!
# Statements

A transaction is a list of statements that a store carries out all together or not at all.
-/

namespace MetadataGraph

/-- Whether a guard lets a write pass, given the record stored so far. -/
def Guard.accepts : Guard → Option Record → Bool
  | always, _ => true
  | absent, current => current.isNone
  | version v, current => current.any fun record => record.header.version = v
  | noFullEntity, current => (current.bind Record.entity?).isNone

/-- Refuse a write that a guard does not let pass. -/
def Guard.check (guard : Guard) (guid : Guid) (current : Option Record) : Outcome Unit :=
  .require (guard.accepts current)
    (.transactionConflict guid guard (current.map fun record => record.header.version))

/-- One write of a transaction. -/
inductive Statement where
  /-- Add a revision of a record if the guard lets it pass. -/
  | put (record : Record) (guard : Guard)
  /-- Remove every revision of an identity. -/
  | evict (guid : Guid)
  deriving DecidableEq

namespace Statement

/-- The identity that the statement writes to. -/
def guid : Statement → Guid
  | put record _ => record.guid
  | evict guid => guid

/-- Write a record whose identity is not used yet. -/
def create (record : Record) : Statement := put record .absent

/-- Write the next revision of a record that had a version when it was read. -/
def replace (prior : UInt64) (next : Record) : Statement := put next (.version prior)

/-- Write a record whatever is stored. -/
def overwrite (record : Record) : Statement := put record .always

/-- Write a proxy unless its entity is stored in full. -/
def putProxy (proxy : Proxy) : Statement := put (.proxy proxy) .noFullEntity

end Statement

/-- What a store tells of a transaction that it carried out. -/
structure Receipt where
  /-- The transaction's number. -/
  id : UInt64
  /-- The time from which its revisions are in effect. -/
  validTime : Instant
  /-- The wall-clock time of the commit. -/
  transactionTime : Instant
  /-- The number of its statements. -/
  statements : Nat
  deriving DecidableEq

end MetadataGraph
