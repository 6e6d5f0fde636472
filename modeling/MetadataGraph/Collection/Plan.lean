import MetadataGraph.Collection

/-!
# Plans

An operation that changes a collection works in two steps. It makes a `Plan` from what is stored:
the statements to submit and the answer to give. Committing the plan submits the statements, whose
guards see whether the plan still fits what is stored by then.
-/

namespace MetadataGraph

/-- Whether a copy of a classification changed anything. -/
inductive CopyOutcome where
  /-- The copy was written or removed. -/
  | applied
  /-- There was nothing to do. -/
  | unchanged
  deriving DecidableEq

/-- The answer of an operation that changes a collection. -/
inductive Reply where
  /-- The instance as written. -/
  | written (record : Record)
  /-- Nothing but that it is done. -/
  | done
  /-- Whether a copy of a classification changed anything. -/
  | copied (outcome : CopyOutcome)
  deriving DecidableEq

/-- What an operation wants to write and its answer once that is written. -/
structure Plan where
  /-- The statements of one transaction; none for no transaction. -/
  statements : List Statement
  /-- The answer. -/
  reply : Reply
  deriving DecidableEq

namespace Plan

variable {α : Type} [Element α]

open Element Instance

/-- Write nothing. -/
def nothing (reply : Reply) : Plan := ⟨[], reply⟩

/-- Write a new element. -/
def create (element : α) : Plan := ⟨[.create (toRecord element)], .written (toRecord element)⟩

/-- Write the next version of an element. -/
def replace (prior next : α) : Plan :=
  ⟨[.replace (version prior) (toRecord next)], .written (toRecord next)⟩

/-- Remove an element and relationships that have it at an end. -/
def purge (guid : Guid) (edges : List Relationship) : Plan :=
  ⟨edges.map (.evict ·.header.guid) ++ [.evict guid], .done⟩

end Plan

/-- Carry out a plan when the wall clock reads `now`. -/
def Collection.commit (collection : Collection) (plan : Plan) (now : Instant) :
    Outcome (Collection × Reply) := do
  if plan.statements.isEmpty then return (collection, plan.reply)
  let (store, _) ← collection.store.transact plan.statements now
  return ({ collection with store }, plan.reply)

end MetadataGraph
