import Mathlib.Data.List.Induction
import MetadataGraph.Proofs.Collection.Execute

/-!
# Runs of a collection

A collection lives through events: types are added and operations are called, which are accepted or
refused. We prove:

* `submitted_of_after`: what an event submits to the store;
* `Reachable.run`: a run leads from a reachable collection to a reachable one;
* `throughout_iff`: what every event keeps under a condition, a run keeps throughout if and only if
  all its events meet the condition;
* `inRange_of_after`: if the clock is in range after an event, it was so before.
-/

namespace MetadataGraph

/-- What happens to a collection. -/
inductive Event where
  /-- A type is added. -/
  | addType (type : TypeDefinition)
  /-- An operation is called, with a fresh identity for what it may create. -/
  | operate (call : Call) (fresh : Guid) (operation : Operation)

namespace Collection

variable {collection : Collection}

/-- The collection after an event; a refused operation leaves it as it was. -/
def after (collection : Collection) : Event → Collection
  | .addType type => (collection.addType type).2
  | .operate call fresh operation =>
    match collection.execute call fresh operation with
    | .ok (next, _) => next
    | .error _ => collection

/-- The collection after events in their order. -/
def run (collection : Collection) (events : List Event) : Collection :=
  events.foldl after collection

@[simp]
theorem run_nil : collection.run [] = collection := rfl

@[simp]
theorem run_cons (event : Event) (events : List Event) :
    collection.run (event :: events) = (collection.after event).run events := rfl

@[simp]
theorem run_append (events later : List Event) :
    collection.run (events ++ later) = (collection.run events).run later :=
  List.foldl_append ..

/-- An accepted operation leads to the collection that it gives. -/
theorem after_eq_of_ok {call : Call} {fresh : Guid} {operation : Operation} {next : Collection}
    {reply : Reply} (h : collection.execute call fresh operation = .ok (next, reply)) :
    collection.after (.operate call fresh operation) = next := by
  rw [after, h]

/-- A refused operation leads nowhere. -/
theorem after_eq_of_error {call : Call} {fresh : Guid} {operation : Operation} {failure : Failure}
    (h : collection.execute call fresh operation = .error failure) :
    collection.after (.operate call fresh operation) = collection := by
  rw [after, h]

/-- An operation fails if its plan does, and leads nowhere then. -/
theorem failed_of_plan {call : Call} {fresh : Guid} {operation : Operation} {failure : Failure}
    (h : collection.plan call fresh operation = .error failure) :
    collection.execute call fresh operation = .error failure ∧
      collection.after (.operate call fresh operation) = collection := by
  have hexecute : collection.execute call fresh operation = .error failure := by
    rw [execute, h]
    rfl
  exact ⟨hexecute, after_eq_of_error hexecute⟩

/-- An event is an accepted operation that submits the statements of its plan, or it leaves the
store as it was. -/
theorem submitted_of_after (collection : Collection) (event : Event) :
    (collection.after event).store = collection.store ∨
      ∃ call fresh operation plan reply receipt, event = .operate call fresh operation ∧
        collection.execute call fresh operation = .ok (collection.after event, reply) ∧
          collection.plan call fresh operation = .ok plan ∧
            collection.store.submit plan.statements call.now =
              .ok ((collection.after event).store, receipt) := by
  cases event with
  | addType type => exact Or.inl rfl
  | operate call fresh operation =>
    cases hexecute : collection.execute call fresh operation with
    | error failure =>
      rw [after_eq_of_error hexecute]
      exact Or.inl rfl
    | ok result =>
      obtain ⟨next, reply⟩ := result
      rw [after_eq_of_ok hexecute]
      obtain ⟨plan, hplan, hcommit⟩ := execute_eq_ok_iff.mp hexecute
      rcases submit_of_commit hcommit with ⟨-, rfl⟩ | ⟨⟨receipt, hsubmit⟩, -⟩
      · exact Or.inl rfl
      · exact Or.inr ⟨call, fresh, operation, plan, reply, receipt, rfl, hexecute, hplan, hsubmit⟩

/-- An event submits a transaction to the store or leaves the store as it was. -/
theorem store_after (collection : Collection) (event : Event) :
    (collection.after event).store = collection.store ∨
      ∃ statements now receipt, collection.store.submit statements now =
        .ok ((collection.after event).store, receipt) :=
  (collection.submitted_of_after event).imp_right
    fun ⟨call, _, _, plan, _, receipt, _, _, _, hsubmit⟩ =>
      ⟨plan.statements, call.now, receipt, hsubmit⟩

/-- An event leads from a reachable collection to a reachable one. -/
theorem Reachable.after (h : collection.Reachable) (event : Event) :
    (collection.after event).Reachable := by
  cases event with
  | addType type => exact h.addType type
  | operate call fresh operation =>
    cases hexecute : collection.execute call fresh operation with
    | error failure => rwa [after_eq_of_error hexecute]
    | ok result =>
      obtain ⟨next, reply⟩ := result
      rw [after_eq_of_ok hexecute]
      exact h.execute hexecute

/-- A run leads from a reachable collection to a reachable one. -/
theorem Reachable.run (h : collection.Reachable) (events : List Event) :
    (collection.run events).Reachable := by
  induction events generalizing collection with
  | nil => exact h
  | cons event events ih => exact ih (h.after event)

/-- What holds at the start, and what every event keeps if and only if it meets a condition, holds
throughout a run if and only if all its events meet the condition. -/
theorem throughout_iff (holds : Collection → Prop) (keeps : Collection → Event → Prop)
    {events : List Event} (hstart : holds collection)
    (hstep : ∀ part event, part ++ [event] <+: events → holds (collection.run part) →
      (holds ((collection.run part).after event) ↔ keeps (collection.run part) event)) :
    (∀ part, part <+: events → holds (collection.run part)) ↔
      ∀ part event, part ++ [event] <+: events → keeps (collection.run part) event := by
  constructor
  · intro hholds part event hevent
    have hpart : part <+: events := (List.prefix_append part [event]).trans hevent
    have hafter := hholds _ hevent
    rw [run_append] at hafter
    exact (hstep part event hevent (hholds part hpart)).mp hafter
  · intro hkeeps part
    -- the last event meets the state that the rest of the run has led to
    induction part using List.reverseRecOn with
    | nil => exact fun _ => hstart
    | append_singleton part event ih =>
      intro hevent
      have hpart : part <+: events := (List.prefix_append part [event]).trans hevent
      rw [run_append]
      exact (hstep part event hevent (ih hpart)).mpr (hkeeps part event hevent)

/-- If the clock is in range after an event, it was so before. -/
theorem inRange_of_after {event : Event} (h : (collection.after event).store.clock.InRange) :
    collection.store.clock.InRange := by
  rcases collection.store_after event with hstore | ⟨statements, now, receipt, hsubmit⟩
  · rwa [hstore] at h
  · obtain ⟨-, hnext, -⟩ := Store.submit_eq_ok_iff.mp hsubmit
    rw [← hnext, Store.clock_carriedOut] at h
    exact h.of_tick

end Collection

end MetadataGraph
