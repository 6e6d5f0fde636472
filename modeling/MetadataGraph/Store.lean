import MetadataGraph.Revision
import MetadataGraph.Search.Query
import MetadataGraph.Store.Clock
import MetadataGraph.Store.Statement

/-!
# The bitemporal store

A `Store` keeps every revision of every record. Transactions add revisions that are in effect from
the commit on; reads see the record in effect at the time they name. An index from entities to the
relationships that ever had them at an end serves traversal.
-/

namespace MetadataGraph

/-- The revisions of one identity, newest first. -/
abbrev Chain := List (Revision Record)

namespace Chain

/-- The record that a read at a point in time sees. -/
def visible? (chain : Chain) (asOf : AsOf) : Option Record :=
  (chain.find? (·.isSeenBy asOf)).map (·.data)

/-- The chain with its newest revision in effect until an instant only. -/
def closeAt (time : Instant) : Chain → Chain
  | [] => []
  | newest :: older => { newest with validUntil := some time } :: older

/-- The chain without a newest revision that is in effect from an instant on. -/
def dropAt (time : Instant) : Chain → Chain
  | [] => []
  | newest :: older => if newest.validTime = time then older else newest :: older

/-- The chain with a revision of a record added. A second write at the same time replaces the
first. -/
def push (chain : Chain) (record : Record) (validTime transactionTime : Instant) : Chain :=
  .new record validTime transactionTime :: closeAt validTime (dropAt validTime chain)

end Chain

/-- Every revision of every record, the index of the relationships at an entity and the clock. -/
structure Store where
  /-- The revisions by identity. -/
  chains : NameMap Chain
  /-- For every entity the relationships that have or had it at an end. -/
  adjacency : NameMap NameSet
  /-- The clock of the commits. -/
  clock : CommitClock

/-- A relationship at an entity and what is stored of the entity at its other end. -/
structure Hop where
  /-- The relationship. -/
  relationship : Relationship
  /-- The record at the other end. -/
  neighbor : Option Record

namespace Store

/-- The store without records. -/
def empty : Store := ⟨∅, ∅, .new⟩

instance : Inhabited Store := ⟨empty⟩

/-! ## Reading -/

/-- The revisions of an identity, newest first. -/
def chain (store : Store) (guid : Guid) : Chain := (store.chains.get? guid).getD []

/-- The record that a read at a point in time sees. -/
def read (store : Store) (guid : Guid) (asOf : AsOf) : Option Record :=
  (store.chain guid).visible? asOf

/-- The current record. -/
def latest (store : Store) (guid : Guid) : Option Record := store.read guid .now

/-- The revisions in effect at some time of a window, oldest first. -/
def history (store : Store) (guid : Guid) (window : Window) : List (Revision Record) :=
  (store.chain guid).reverse.filter (·.overlaps window)

/-- Every record that a read at a point in time sees, in the order of identities. -/
def visibleRecords (store : Store) (asOf : AsOf) : List Record :=
  store.chains.values.filterMap (Chain.visible? · asOf)

/-- The answer to a query at a point in time. -/
def query (store : Store) (query : Query) (asOf : AsOf) : List Record :=
  query.apply (store.visibleRecords asOf)

/-- The relationship of an identity with what is stored at its other end, if a read at a point in
time sees it and it has the entity at an end. -/
def hop? (store : Store) (node relationship : Guid) (asOf : AsOf) : Option Hop := do
  let relationship ← (← store.read relationship asOf).relationship?
  let other ← relationship.otherEnd? node
  return ⟨relationship, store.read other.header.guid asOf⟩

/-- The relationships at an entity at a point in time, in the order of identities. -/
def traverse (store : Store) (node : Guid) (asOf : AsOf) : List Hop :=
  ((store.adjacency.get? node).getD ∅).keys.filterMap (store.hop? node · asOf)

/-- The number of identities with revisions. -/
def size (store : Store) : Nat := store.chains.size

/-! ## Writing -/

/-- The index with a relationship entered at both of its ends; other records have none. -/
def indexEnds (record : Record) (adjacency : NameMap NameSet) : NameMap NameSet :=
  match record.ends? with
  | none => adjacency
  | some (one, two) =>
    [one, two].foldl
      (fun index node => index.insert node (((index.get? node).getD ∅).add record.guid)) adjacency

/-- The index with a relationship removed from both of the ends it has in a revision. -/
def unindexEnds (guid : Guid) (adjacency : NameMap NameSet) (revision : Revision Record) :
    NameMap NameSet :=
  match revision.data.ends? with
  | none => adjacency
  | some (one, two) =>
    [one, two].foldl
      (fun index node =>
        match index.get? node with
        | none => index
        | some relationships => index.insert node (relationships.erase guid))
      adjacency

/-- Carry out one statement of a commit at a valid and a transaction time. -/
def apply (validTime transactionTime : Instant) (store : Store) : Statement → Store
  | .put record _ =>
    { store with
      chains := store.chains.insert record.guid
        ((store.chain record.guid).push record validTime transactionTime)
      adjacency := indexEnds record store.adjacency }
  | .evict guid =>
    { store with
      chains := store.chains.erase guid
      adjacency := (store.chain guid).foldl (unindexEnds guid) store.adjacency }

/-- Refuse statements of which a guard fails. A guard sees what the statements before it have
written, which is `staged`: none under an identity that they evicted. -/
def checkGuards (store : Store) (staged : NameMap (Option Record)) : List Statement → Outcome Unit
  | [] => .ok ()
  | .put record guard :: rest => do
    guard.check record.guid ((staged.get? record.guid).getD (store.latest record.guid))
    store.checkGuards (staged.insert record.guid (some record)) rest
  | .evict guid :: rest => store.checkGuards (staged.insert guid none) rest

/-- Carry out statements as one commit when the wall clock reads `now`, if all guards pass. -/
def submit (store : Store) (statements : List Statement) (now : Instant) :
    Outcome (Store × Receipt) := do
  store.checkGuards ∅ statements
  let (id, validTime, clock) := store.clock.tick now.toMicros
  return (statements.foldl (apply validTime now) { store with clock },
    ⟨id, validTime, now, statements.length⟩)

/-- Carry out a transaction, which must have statements. -/
def transact (store : Store) (statements : List Statement) (now : Instant) :
    Outcome (Store × Receipt) := do
  .require (!statements.isEmpty) (.invalidState .emptyTransaction)
  store.submit statements now

end Store

end MetadataGraph
