import MetadataGraph.Error

/-!
# When outcomes are results

An operation is a sequence of checks and computations that stops at the first failure. The lemmas
below take such a sequence apart: it gives a result exactly when every step of it does.
-/

namespace MetadataGraph.Outcome

variable {α β : Type}

/-- After a result the rest goes on from it. -/
theorem ok_bind (a : α) (next : α → Outcome β) : (Except.ok a >>= next) = next a := rfl

/-- A failure stops the sequence. -/
theorem error_bind (failure : Failure) (next : α → Outcome β) :
    (Except.error failure >>= next) = Except.error failure := rfl

/-- A sequence gives a result when its first step does and the rest does from there. -/
theorem bind_eq_ok_iff {outcome : Outcome α} {next : α → Outcome β} {result : β} :
    (outcome >>= next) = .ok result ↔ ∃ a, outcome = .ok a ∧ next a = .ok result := by
  cases outcome with
  | ok a => simp [bind, Except.bind]
  | error e => simp [bind, Except.bind]

/-- A sequence fails when its first step does, or the rest from there. -/
theorem bind_eq_error_iff {outcome : Outcome α} {next : α → Outcome β} {failure : Failure} :
    (outcome >>= next) = .error failure ↔
      outcome = .error failure ∨ ∃ a, outcome = .ok a ∧ next a = .error failure := by
  cases outcome with
  | ok a => simp [bind, Except.bind]
  | error e => simp [bind, Except.bind]

theorem pure_eq_ok_iff {a result : α} : (pure a : Outcome α) = .ok result ↔ a = result := by
  simp [pure, Except.pure]

/-- A condition that holds refuses nothing. -/
theorem require_true (error : Error) : require true error = .ok () := rfl

theorem require_eq_ok_iff {condition : Bool} {error : Error} {result : Unit} :
    require condition error = .ok result ↔ condition = true := by
  cases condition <;> simp [require]

theorem require_eq_error_iff {condition : Bool} {error : Error} {failure : Failure} :
    require condition error = .error failure ↔ condition = false ∧ .refused error = failure := by
  cases condition <;> simp [require]

theorem ofOption_eq_ok_iff {option : Option α} {error : Error} {a : α} :
    ofOption error option = .ok a ↔ option = some a := by
  cases option <;> simp [ofOption]

/-- The checks of all items of a list pass when each one does. -/
theorem forM_eq_ok_iff {items : List α} {check : α → Outcome Unit} :
    items.forM check = .ok () ↔ ∀ item ∈ items, check item = .ok () := by
  induction items with
  | nil => exact iff_of_true rfl (List.forall_mem_nil _)
  | cons item rest ih =>
    have hcons : (item :: rest).forM check = check item >>= fun _ => rest.forM check := rfl
    rw [hcons, bind_eq_ok_iff, List.forall_mem_cons, ← ih]
    exact ⟨fun ⟨_, hitem, hrest⟩ => ⟨hitem, hrest⟩, fun ⟨hitem, hrest⟩ => ⟨(), hitem, hrest⟩⟩

/-- All items of a list are converted when each one is allowed to be. -/
theorem mapM_eq_ok_iff {items : List α} {results : List β} {step : α → Outcome β}
    {allowed : α → Prop} {value : α → β}
    (h : ∀ item result, step item = .ok result ↔ allowed item ∧ value item = result) :
    items.mapM step = .ok results ↔
      (∀ item ∈ items, allowed item) ∧ items.map value = results := by
  induction items generalizing results with
  | nil => simp [pure_eq_ok_iff]
  | cons item rest ih =>
    simp only [List.mapM_cons, bind_eq_ok_iff, pure_eq_ok_iff, h, ih, List.forall_mem_cons,
      List.map_cons]
    constructor
    · rintro ⟨_, ⟨hitem, rfl⟩, _, ⟨hrest, rfl⟩, rfl⟩
      exact ⟨⟨hitem, hrest⟩, rfl⟩
    · rintro ⟨⟨hitem, hrest⟩, rfl⟩
      exact ⟨_, ⟨hitem, rfl⟩, _, ⟨hrest, rfl⟩, rfl⟩

end MetadataGraph.Outcome
