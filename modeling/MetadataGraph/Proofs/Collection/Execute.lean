import MetadataGraph.Collection.Operation
import MetadataGraph.Proofs.Collection.Element
import MetadataGraph.Proofs.Store.Sequential

/-!
# Carrying out operations

An operation is accepted when its plan can be made and the statements of the plan pass their guards.
Nothing but the store changes then. We prove:

* `require_eq_ok_iff`: an element is found where its record is stored;
* `execute_eq_ok_iff`: what an accepted operation submits and answers;
* `runAll_of_execute`: its statements, carried out one after the other, leave what is stored then;
* `Reachable.store`: the store of a reachable collection is reachable.
-/

namespace MetadataGraph

namespace Collection

open Element

variable {collection next : Collection}

/-- The element of an identity at a time is found where a read sees its record. -/
theorem require_find_eq_ok_iff {α : Type} [Element α] {guid : Guid} {asOf : AsOf} {a : α} :
    (collection.find α guid asOf).require guid = .ok a ↔
      collection.store.read guid asOf = some (toRecord a) := by
  have hfound : collection.find α guid asOf = .found a ↔
      collection.store.read guid asOf = some (toRecord a) := lookup_eq_found_iff _ a
  rw [← hfound]
  cases collection.find α guid asOf <;> simp [Lookup.require]

/-- The current element of an identity is found where its record is stored. -/
theorem require_eq_ok_iff {α : Type} [Element α] {guid : Guid} {a : α} :
    collection.require α guid = .ok a ↔ collection.store.latest guid = some (toRecord a) :=
  require_find_eq_ok_iff

/-- The proxy of an entity that is stored in full. -/
theorem proxy?_of_latest {guid : Guid} {entity : Entity}
    (h : collection.store.latest guid = some (.entity entity)) :
    collection.proxy? guid =
      some (entity.toProxy (collection.catalog.uniqueProperties entity.header.typeName)) := by
  have hfound : collection.find Entity guid .now = .found entity :=
    (lookup_eq_found_iff _ entity).mpr h
  rw [proxy?, hfound]
  rfl

/-- A plan with statements is carried out when they are accepted. -/
theorem commit_eq_ok_iff {plan : Plan} {now : Instant} {reply : Reply}
    (hstatements : plan.statements ≠ []) :
    collection.commit plan now = .ok (next, reply) ↔
      ∃ receipt, collection.store.submit plan.statements now = .ok (next.store, receipt) ∧
        next = { collection with store := next.store } ∧ plan.reply = reply := by
  have hsome : plan.statements.isEmpty = false := List.isEmpty_eq_false_iff.mpr hstatements
  simp only [commit, hsome, Store.transact, Bool.false_eq_true, if_false, Bool.not_false,
    Outcome.bind_eq_ok_iff, Outcome.require_eq_ok_iff, Outcome.pure_eq_ok_iff]
  constructor
  · rintro ⟨⟨store, receipt⟩, ⟨⟨⟩, -, hsubmit⟩, hresult⟩
    cases hresult
    exact ⟨receipt, hsubmit, rfl, rfl⟩
  · rintro ⟨receipt, hsubmit, hnext, rfl⟩
    exact ⟨(next.store, receipt), ⟨(), trivial, hsubmit⟩, by rw [← hnext]⟩

/-- A plan without statements changes nothing. -/
theorem commit_of_nil {plan : Plan} (hstatements : plan.statements = []) (now : Instant) :
    collection.commit plan now = .ok (collection, plan.reply) := by
  rw [commit, hstatements]
  rfl

/-- A plan that is carried out has no statements and changes nothing, or its statements are accepted
and nothing but the store changes. -/
theorem submit_of_commit {plan : Plan} {now : Instant} {reply : Reply}
    (h : collection.commit plan now = .ok (next, reply)) :
    plan.statements = [] ∧ next = collection ∨
      (∃ receipt, collection.store.submit plan.statements now = .ok (next.store, receipt)) ∧
        next = { collection with store := next.store } := by
  by_cases hstatements : plan.statements = []
  · rw [commit_of_nil hstatements] at h
    cases h
    exact Or.inl ⟨hstatements, rfl⟩
  · obtain ⟨receipt, hsubmit, hnext, -⟩ := (commit_eq_ok_iff hstatements).mp h
    exact Or.inr ⟨⟨receipt, hsubmit⟩, hnext⟩

/-- The current records after a plan is carried out are those that the sequence of its statements
leaves. -/
theorem runAll_of_commit {plan : Plan} {now : Instant} {reply : Reply}
    (h : collection.commit plan now = .ok (next, reply)) :
    Records.runAll collection.store.latest plan.statements = .ok next.store.latest := by
  rcases submit_of_commit h with ⟨hnil, rfl⟩ | ⟨⟨receipt, hsubmit⟩, -⟩
  · rw [hnil]
    rfl
  · exact Store.runAll_of_submit hsubmit

/-- The answer to an accepted plan is the one planned. -/
theorem reply_of_commit {plan : Plan} {now : Instant} {reply : Reply}
    (h : collection.commit plan now = .ok (next, reply)) : plan.reply = reply := by
  by_cases hstatements : plan.statements = []
  · rw [commit_of_nil hstatements] at h
    cases h
    rfl
  · obtain ⟨-, -, -, hreply⟩ := (commit_eq_ok_iff hstatements).mp h
    exact hreply

/-- A plan is refused only if its statements are. -/
theorem submit_of_commit_eq_error {plan : Plan} {now : Instant} {failure : Failure}
    (h : collection.commit plan now = .error failure) :
    collection.store.submit plan.statements now = .error failure := by
  by_cases hstatements : plan.statements = []
  · rw [commit_of_nil hstatements] at h
    cases h
  · have hsome : plan.statements.isEmpty = false := List.isEmpty_eq_false_iff.mpr hstatements
    simp only [commit, hsome, Store.transact, Bool.false_eq_true, if_false, Bool.not_false,
      Outcome.bind_eq_error_iff] at h
    rcases h with (hrequire | ⟨⟨⟩, -, hsubmit⟩) | ⟨⟨store, receipt⟩, -, hpure⟩
    · cases hrequire
    · exact hsubmit
    · cases hpure

/-- An operation is accepted when its plan is made and carried out. -/
theorem execute_eq_ok_iff {call : Call} {fresh : Guid} {operation : Operation} {reply : Reply} :
    collection.execute call fresh operation = .ok (next, reply) ↔
      ∃ plan, collection.plan call fresh operation = .ok plan ∧
        collection.commit plan call.now = .ok (next, reply) :=
  Outcome.bind_eq_ok_iff

/-- The current records after an accepted operation are those that the statements of its plan leave,
and its answer is the one planned. -/
theorem runAll_of_execute {call : Call} {fresh : Guid} {operation : Operation} {reply : Reply}
    (h : collection.execute call fresh operation = .ok (next, reply)) :
    ∃ plan, collection.plan call fresh operation = .ok plan ∧ plan.reply = reply ∧
      Records.runAll collection.store.latest plan.statements = .ok next.store.latest := by
  obtain ⟨plan, hplan, hcommit⟩ := execute_eq_ok_iff.mp h
  exact ⟨plan, hplan, reply_of_commit hcommit, runAll_of_commit hcommit⟩

/-- An accepted operation submits a transaction to the store or leaves the store as it was. -/
theorem store_of_execute {call : Call} {fresh : Guid} {operation : Operation} {reply : Reply}
    (h : collection.execute call fresh operation = .ok (next, reply)) :
    next.store = collection.store ∨
      ∃ statements receipt, collection.store.submit statements call.now =
        .ok (next.store, receipt) := by
  obtain ⟨plan, -, hcommit⟩ := execute_eq_ok_iff.mp h
  rcases submit_of_commit hcommit with ⟨-, rfl⟩ | ⟨⟨receipt, hsubmit⟩, -⟩
  · exact Or.inl rfl
  · exact Or.inr ⟨plan.statements, receipt, hsubmit⟩

/-- Nothing but the store changes in an accepted operation. -/
theorem eq_of_execute {call : Call} {fresh : Guid} {operation : Operation} {reply : Reply}
    (h : collection.execute call fresh operation = .ok (next, reply)) :
    next = { collection with store := next.store } := by
  obtain ⟨plan, -, hcommit⟩ := execute_eq_ok_iff.mp h
  rcases submit_of_commit hcommit with ⟨-, rfl⟩ | ⟨-, hnext⟩
  · rfl
  · exact hnext

/-- An accepted operation leaves the types. -/
theorem catalog_of_execute {call : Call} {fresh : Guid} {operation : Operation} {reply : Reply}
    (h : collection.execute call fresh operation = .ok (next, reply)) :
    next.catalog = collection.catalog := by
  obtain ⟨plan, -, hcommit⟩ := execute_eq_ok_iff.mp h
  rcases submit_of_commit hcommit with ⟨-, rfl⟩ | ⟨-, hnext⟩
  · rfl
  · rw [hnext]

/-- Collections that operations lead to from one without instances, whatever its configuration and
its types, and also when others submit transactions to its store. -/
inductive Reachable : Collection → Prop
  | start (config : CollectionConfig) (catalog : TypeCatalog) : Reachable ⟨config, catalog, .empty⟩
  | addType {collection : Collection} (h : Reachable collection) (type : TypeDefinition) :
      Reachable (collection.addType type).2
  | execute {collection next : Collection} {call : Call} {fresh : Guid} {operation : Operation}
      {reply : Reply} (h : Reachable collection)
      (hexecute : collection.execute call fresh operation = .ok (next, reply)) : Reachable next
  | submit {collection : Collection} (h : Reachable collection) (statements : List Statement)
      (now : Instant) :
      Reachable { collection with store := collection.store.afterSubmit statements now }

/-- The store of a reachable collection is reachable. -/
theorem Reachable.store (h : collection.Reachable) : collection.store.Reachable := by
  induction h with
  | start config catalog => exact .empty
  | addType _ type ih => exact ih
  | execute _ hexecute ih =>
    rcases store_of_execute hexecute with hstore | ⟨statements, receipt, hsubmit⟩
    · rw [hstore]
      exact ih
    · exact ih.of_submit hsubmit
  | submit _ statements now ih => exact ih.submit statements now

end Collection

end MetadataGraph
