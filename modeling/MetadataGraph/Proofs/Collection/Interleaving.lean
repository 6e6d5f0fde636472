import Mathlib.Logic.Function.Basic
import MetadataGraph.Proofs.Collection.Run

/-!
# Interleaved operations

Clients that share a collection do not wait for each other: each of them plans an operation against
what is stored and submits the plan later, against what others have written meanwhile. A `Draft` is
a plan that is not submitted yet, together with the collection that it was made from, and a
`Workspace` is a shared collection with the drafts of all clients. Clients move in any order. We
prove:

* `collection_after` and `drafts_after`: what a move makes of the collection and of the drafts;
* `Reachable.run`: a run keeps the collection, and what drafts were made from, reachable;
* `after_submit_compose`: to submit a draft at once is to carry out the operation.
-/

namespace MetadataGraph

/-- An operation that is planned and not submitted yet. -/
structure Draft where
  /-- The operation. -/
  operation : Operation
  /-- On whose behalf and when it was planned. -/
  call : Call
  /-- The fresh identity that it was given. -/
  fresh : Guid
  /-- The collection as it was then. -/
  basis : Collection
  /-- The plan. -/
  plan : Plan
  /-- The plan was made from the collection as it was. -/
  planned : basis.plan call fresh operation = .ok plan

/-- A collection that clients share, and what each of them has planned. -/
structure Workspace where
  /-- The collection. -/
  collection : Collection
  /-- The drafts by client. -/
  drafts : Nat → Option Draft

/-- What happens in a workspace. -/
inductive Move where
  /-- A type is added. -/
  | addType (type : TypeDefinition)
  /-- A client plans an operation, with a fresh identity for what it may create. -/
  | compose (client : Nat) (call : Call) (fresh : Guid) (operation : Operation)
  /-- A client submits its draft when the wall clock reads `now`. -/
  | submit (client : Nat) (now : Instant)

/-- If the move plans an operation, the operation has a property. -/
def Move.Composes (p : Operation → Prop) : Move → Prop
  | compose _ _ _ operation => p operation
  | _ => True

namespace Collection

variable {collection : Collection}

/-- The draft of an operation, unless it is refused. -/
def draft? (collection : Collection) (call : Call) (fresh : Guid) (operation : Operation) :
    Option Draft :=
  match hplan : collection.plan call fresh operation with
  | .ok plan => some ⟨operation, call, fresh, collection, plan, hplan⟩
  | .error _ => none

theorem draft?_eq_some_iff {call : Call} {fresh : Guid} {operation : Operation} {draft : Draft} :
    collection.draft? call fresh operation = some draft ↔
      draft.operation = operation ∧ draft.call = call ∧ draft.fresh = fresh ∧
        draft.basis = collection := by
  obtain ⟨operation', call', fresh', basis, plan, hplanned⟩ := draft
  -- the plan follows from the rest, so that it does not have to be compared
  unfold draft?
  split
  · rename_i other hplan
    rw [Option.some.injEq, Draft.mk.injEq]
    constructor
    · rintro ⟨rfl, rfl, rfl, rfl, -⟩
      exact ⟨rfl, rfl, rfl, rfl⟩
    · rintro ⟨rfl, rfl, rfl, rfl⟩
      exact ⟨rfl, rfl, rfl, rfl, Except.ok.inj (hplan.symm.trans hplanned)⟩
  · rename_i failure hplan
    refine iff_of_false (Option.some_ne_none _).symm ?_
    rintro ⟨rfl, rfl, rfl, rfl⟩
    cases hplan.symm.trans hplanned

/-- A commit leads from a reachable collection to a reachable one. -/
theorem Reachable.commit (h : collection.Reachable) {plan : Plan} {now : Instant}
    {next : Collection} {reply : Reply}
    (hcommit : collection.commit plan now = .ok (next, reply)) : next.Reachable := by
  rcases submit_of_commit hcommit with ⟨-, rfl⟩ | ⟨⟨receipt, hsubmit⟩, hnext⟩
  · exact h
  · rw [hnext, ← Store.afterSubmit_eq_of_ok hsubmit]
    exact h.submit plan.statements now

end Collection

namespace Workspace

variable {workspace : Workspace} {client : Nat}

/-- A workspace without instances and drafts. -/
def start (config : CollectionConfig) (catalog : TypeCatalog) : Workspace where
  collection := ⟨config, catalog, .empty⟩
  drafts _ := none

/-- The workspace after a move. A refused operation leaves no draft, and a refused submission leaves
the collection as it was. -/
def after (workspace : Workspace) : Move → Workspace
  | .addType type => { workspace with collection := (workspace.collection.addType type).2 }
  | .compose client call fresh operation =>
    { workspace with
      drafts := Function.update workspace.drafts client
        (workspace.collection.draft? call fresh operation) }
  | .submit client now =>
    match workspace.drafts client with
    | none => workspace
    | some draft =>
      { collection :=
          match workspace.collection.commit draft.plan now with
          | .ok (next, _) => next
          | .error _ => workspace.collection
        drafts := Function.update workspace.drafts client none }

/-- The workspace after moves in their order. -/
def run (workspace : Workspace) (moves : List Move) : Workspace := moves.foldl after workspace

@[simp]
theorem run_nil : workspace.run [] = workspace := rfl

@[simp]
theorem run_cons (move : Move) (moves : List Move) :
    workspace.run (move :: moves) = (workspace.after move).run moves := rfl

@[simp]
theorem run_append (moves later : List Move) :
    workspace.run (moves ++ later) = (workspace.run moves).run later :=
  List.foldl_append ..

/-! ## One move -/

/-- An accepted submission leads to the collection that it gives. -/
theorem collection_after_of_ok {draft : Draft} {now : Instant} {next : Collection} {reply : Reply}
    (hdraft : workspace.drafts client = some draft)
    (hcommit : workspace.collection.commit draft.plan now = .ok (next, reply)) :
    (workspace.after (.submit client now)).collection = next := by
  simp only [after, hdraft, hcommit]

/-- A refused submission leaves the collection as it was. -/
theorem collection_after_of_error {draft : Draft} {now : Instant} {failure : Failure}
    (hdraft : workspace.drafts client = some draft)
    (hcommit : workspace.collection.commit draft.plan now = .error failure) :
    (workspace.after (.submit client now)).collection = workspace.collection := by
  simp only [after, hdraft, hcommit]

/-- A move commits a draft, adds a type, or leaves the collection as it was. -/
theorem collection_after (workspace : Workspace) (move : Move) :
    (∃ client now draft reply, move = .submit client now ∧ workspace.drafts client = some draft ∧
      workspace.collection.commit draft.plan now =
        .ok ((workspace.after move).collection, reply)) ∨
    (∃ type, move = .addType type) ∨ (workspace.after move).collection = workspace.collection := by
  cases move with
  | addType type => exact Or.inr (Or.inl ⟨type, rfl⟩)
  | compose client call fresh operation => exact Or.inr (Or.inr rfl)
  | submit client now =>
    cases hdraft : workspace.drafts client with
    | none =>
      right; right
      simp only [after, hdraft]
    | some draft =>
      cases hcommit : workspace.collection.commit draft.plan now with
      | error failure => exact Or.inr (Or.inr (collection_after_of_error hdraft hcommit))
      | ok result =>
        obtain ⟨next, reply⟩ := result
        rw [collection_after_of_ok hdraft hcommit]
        exact Or.inl ⟨client, now, draft, reply, rfl, hdraft, hcommit⟩

/-- A draft was there before the move, or the move has made it from the collection. -/
theorem drafts_after {move : Move} {draft : Draft}
    (h : (workspace.after move).drafts client = some draft) :
    workspace.drafts client = some draft ∨
      move = .compose client draft.call draft.fresh draft.operation ∧
        draft.basis = workspace.collection := by
  cases move with
  | addType type => exact Or.inl h
  | compose other call fresh operation =>
    by_cases hclient : client = other
    · subst hclient
      have hdraft : workspace.collection.draft? call fresh operation = some draft := by
        simpa [after] using h
      obtain ⟨rfl, rfl, rfl, hbasis⟩ := Collection.draft?_eq_some_iff.mp hdraft
      exact Or.inr ⟨rfl, hbasis⟩
    · left
      simpa [after, hclient] using h
  | submit other now =>
    left
    cases hdraft : workspace.drafts other with
    | none => simpa [after, hdraft] using h
    | some submitted =>
      by_cases hclient : client = other
      · subst hclient
        simp [after, hdraft] at h
      · simpa [after, hdraft, hclient] using h

/-- To submit a draft at once is to carry out the operation. -/
theorem after_submit_compose (workspace : Workspace) (client : Nat) (call : Call) (fresh : Guid)
    (operation : Operation) :
    ((workspace.after (.compose client call fresh operation)).after
      (.submit client call.now)).collection =
        workspace.collection.after (.operate call fresh operation) := by
  let composed := workspace.after (.compose client call fresh operation)
  have hdrafts : composed.drafts client = workspace.collection.draft? call fresh operation :=
    Function.update_self ..
  cases hplan : workspace.collection.plan call fresh operation with
  | error failure =>
    -- without a draft there is nothing to submit
    have hnone : composed.drafts client = none := by
      rw [hdrafts, Option.eq_none_iff_forall_ne_some]
      intro draft hdraft
      obtain ⟨rfl, rfl, rfl, hbasis⟩ := Collection.draft?_eq_some_iff.mp hdraft
      cases hplan.symm.trans (hbasis ▸ draft.planned)
    rw [(Collection.failed_of_plan hplan).2]
    show (composed.after (.submit client call.now)).collection = _
    simp only [after, hnone]
    rfl
  | ok plan =>
    have hdraft : composed.drafts client =
        some ⟨operation, call, fresh, workspace.collection, plan, hplan⟩ := by
      rw [hdrafts]
      exact Collection.draft?_eq_some_iff.mpr ⟨rfl, rfl, rfl, rfl⟩
    cases hcommit : workspace.collection.commit plan call.now with
    | error failure =>
      have hexecute : workspace.collection.execute call fresh operation = .error failure := by
        rw [Collection.execute, hplan]
        exact hcommit
      rw [Collection.after_eq_of_error hexecute]
      exact collection_after_of_error hdraft hcommit
    | ok result =>
      obtain ⟨next, reply⟩ := result
      have hexecute : workspace.collection.execute call fresh operation = .ok (next, reply) :=
        Collection.execute_eq_ok_iff.mpr ⟨plan, hplan, hcommit⟩
      rw [Collection.after_eq_of_ok hexecute]
      exact collection_after_of_ok hdraft hcommit

/-! ## Runs -/

/-- The collection is reachable, and so is all that drafts were made from. -/
structure Reachable (workspace : Workspace) : Prop where
  /-- The collection is reachable. -/
  collection : workspace.collection.Reachable
  /-- Drafts were made from reachable collections. -/
  basis : ∀ client draft, workspace.drafts client = some draft → draft.basis.Reachable

theorem reachable_start (config : CollectionConfig) (catalog : TypeCatalog) :
    (start config catalog).Reachable where
  collection := .start config catalog
  basis _ _ h := by cases h

/-- A move keeps a workspace reachable. -/
theorem Reachable.after (h : workspace.Reachable) (move : Move) :
    (workspace.after move).Reachable where
  collection := by
    rcases workspace.collection_after move with
      ⟨client, now, draft, reply, rfl, -, hcommit⟩ | ⟨type, rfl⟩ | hsame
    · exact h.collection.commit hcommit
    · exact h.collection.addType type
    · rw [hsame]
      exact h.collection
  basis client draft hdraft := by
    rcases drafts_after hdraft with hbefore | ⟨-, hbasis⟩
    · exact h.basis client draft hbefore
    · rw [hbasis]
      exact h.collection

/-- A run keeps a workspace reachable. -/
theorem Reachable.run (h : workspace.Reachable) (moves : List Move) :
    (workspace.run moves).Reachable := by
  induction moves generalizing workspace with
  | nil => exact h
  | cons move moves ih => exact ih (h.after move)

end Workspace

end MetadataGraph
