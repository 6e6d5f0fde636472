/-!
# Sets of places

The places of a text are the gaps before, between and after its characters. A set of places is a
number whose bit `i` says whether place `i`, the one before the `i`-th character, belongs to it, so
that a whole text is worked on by a few operations on numbers. The main statements are
`testBit_placesUpTo`, on sets given by a test, and `testBit_runs`, on the places that runs of
characters lead to.
-/

namespace MetadataGraph.Pattern

/-- The places that pass a test among `1 <<< level` of them from `start` on, counted from `start`.
Both halves are worked out apart, so that the numbers stay short for as long as possible. -/
def placesFrom (test : Nat → Bool) (start : Nat) : Nat → Nat
  | 0 => (test start).toNat
  | level + 1 =>
    placesFrom test start level
      ||| placesFrom test (start + 1 <<< level) level <<< (1 <<< level)

/-- The places up to `last` that pass a test. -/
def placesUpTo (last : Nat) (test : Nat → Bool) : Nat :=
  placesFrom (fun place => place ≤ last && test place) 0 (last.log2 + 1)

/-- All places up to `last`. -/
def allPlaces (last : Nat) : Nat := 1 <<< (last + 1) - 1

/-- The places one character after those of a set, where that character is accepted. -/
def stepOver (accepted places : Nat) : Nat := (places &&& accepted) <<< 1

/-- The places after any number of accepted characters. A sum carries from each place of the set
through the whole run of accepted characters after it. -/
def runs (accepted places : Nat) : Nat :=
  (((places &&& accepted) + accepted) ^^^ accepted) ||| places

/-- Follow a step a number of times, or until it leads nowhere else. -/
def follow (step : Nat → Nat) : Nat → Nat → Nat
  | 0, places => places
  | times + 1, places =>
    let next := step places
    if next = places then places else follow step times next

/-- Follow a step up to a number of times from the places `fresh`, and add all places on the way to
`reached`. No place is left twice: `left` are those that have been left or are about to be. -/
def explore (step : Nat → Nat) : Nat → Nat → Nat → Nat → Nat
  | 0, _, reached, _ => reached
  | times + 1, left, reached, fresh =>
    let next := step fresh
    let wider := left ||| next
    if wider = left then reached ||| next
    else explore step times wider (reached ||| next) (wider ^^^ left)

theorem testBit_placesFrom (test : Nat → Bool) (start level i : Nat) :
    (placesFrom test start level).testBit i = (decide (i < 1 <<< level) && test (start + i)) := by
  induction level generalizing start i with
  | zero =>
    cases i with
    | zero => cases h : test start <;> simp [placesFrom, h]
    | succ i => cases h : test start <;> simp [placesFrom, h, Nat.testBit_succ]
  | succ level ih =>
    have h : 1 <<< (level + 1) = 1 <<< level + 1 <<< level := by
      simp [Nat.shiftLeft_eq, Nat.pow_succ]; omega
    rw [placesFrom, Nat.testBit_or, Nat.testBit_shiftLeft, ih, ih, h]
    by_cases hi : i < 1 <<< level
    · have : ¬1 <<< level ≤ i := by omega
      have : i < 1 <<< level + 1 <<< level := by omega
      simp [*]
    · have : 1 <<< level ≤ i := by omega
      have : start + 1 <<< level + (i - 1 <<< level) = start + i := by omega
      have : i - 1 <<< level < 1 <<< level ↔ i < 1 <<< level + 1 <<< level := by omega
      simp [*]

@[simp] theorem testBit_placesUpTo (last : Nat) (test : Nat → Bool) (i : Nat) :
    (placesUpTo last test).testBit i = (decide (i ≤ last) && test i) := by
  have h : last < 1 <<< (last.log2 + 1) := by
    rw [Nat.shiftLeft_eq, Nat.one_mul]
    exact Nat.lt_log2_self
  rw [placesUpTo, testBit_placesFrom, Nat.zero_add]
  by_cases hi : i ≤ last
  · have : i < 1 <<< (last.log2 + 1) := by omega
    simp [*]
  · simp [hi]

/-- The bits of `runs` from some bit on, when `carry` says whether the place there has been reached
from below. -/
private def runsWith (carry : Bool) (accepted places : Nat) : Nat :=
  (((places &&& accepted) + accepted + carry.toNat) ^^^ accepted) ||| places

private theorem mod_two_cases (accepted places : Nat) :
    places % 2 = 1 ∧ accepted % 2 = 1 ∧ (places &&& accepted) % 2 = 1 ∨
      places % 2 = 1 ∧ accepted % 2 = 0 ∧ (places &&& accepted) % 2 = 0 ∨
      places % 2 = 0 ∧ accepted % 2 = 1 ∧ (places &&& accepted) % 2 = 0 ∨
      places % 2 = 0 ∧ accepted % 2 = 0 ∧ (places &&& accepted) % 2 = 0 := by
  have h := Nat.and_mod_two_eq_one (a := places) (b := accepted)
  omega

private theorem testBit_zero_runsWith (carry : Bool) (accepted places : Nat) :
    (runsWith carry accepted places).testBit 0 = (carry || places.testBit 0) := by
  rw [runsWith, Nat.testBit_or, Nat.testBit_xor]
  simp only [Nat.testBit_zero]
  rcases mod_two_cases accepted places
    with ⟨hp, ha, hb⟩ | ⟨hp, ha, hb⟩ | ⟨hp, ha, hb⟩ | ⟨hp, ha, hb⟩
    <;> cases carry <;> simp [Nat.add_mod, hp, ha, hb]

private theorem runsWith_div_two (carry : Bool) (accepted places : Nat) :
    runsWith carry accepted places / 2 =
      runsWith (accepted.testBit 0 && (carry || places.testBit 0)) (accepted / 2) (places / 2) := by
  have hsum : ((places &&& accepted) + accepted + carry.toNat) / 2 =
      (places / 2 &&& accepted / 2) + accepted / 2 +
        (accepted.testBit 0 && (carry || places.testBit 0)).toNat := by
    rw [← Nat.and_div_two]
    simp only [Nat.testBit_zero]
    rcases mod_two_cases accepted places
      with ⟨hp, ha, hb⟩ | ⟨hp, ha, hb⟩ | ⟨hp, ha, hb⟩ | ⟨hp, ha, hb⟩
      <;> cases carry <;> simp [hp, ha] <;> omega
  rw [runsWith, Nat.or_div_two, Nat.xor_div_two, hsum, runsWith]

private theorem testBit_runsWith (carry : Bool) (accepted places : Nat) (j : Nat) :
    (runsWith carry accepted places).testBit j = true ↔
      (carry = true ∧ ∀ k < j, accepted.testBit k = true) ∨
        ∃ i ≤ j, places.testBit i = true ∧ ∀ k, i ≤ k → k < j → accepted.testBit k = true := by
  induction j generalizing carry accepted places with
  | zero => rw [testBit_zero_runsWith]; simp
  | succ j ih =>
    rw [Nat.testBit_succ, runsWith_div_two, ih]
    simp only [← Nat.testBit_succ]
    constructor
    · rintro (⟨hc, h⟩ | ⟨i, hij, hi, h⟩)
      · simp only [Bool.and_eq_true, Bool.or_eq_true] at hc
        have hall : ∀ k < j + 1, accepted.testBit k = true := by
          rintro (_ | k) hk
          · exact hc.1
          · exact h k (by omega)
        rcases hc.2 with hc | hp
        · exact .inl ⟨hc, hall⟩
        · exact .inr ⟨0, by omega, hp, fun k _ hk => hall k hk⟩
      · refine .inr ⟨i + 1, by omega, hi, fun k hik hk => ?_⟩
        obtain ⟨k, rfl⟩ : ∃ k', k = k' + 1 := ⟨k - 1, by omega⟩
        exact h k (by omega) (by omega)
    · rintro (⟨hc, h⟩ | ⟨i, hij, hi, h⟩)
      · exact .inl ⟨by simp [h 0 (by omega), hc], fun k hk => h (k + 1) (by omega)⟩
      · cases i with
        | zero =>
          exact .inl ⟨by simp [h 0 (by omega) (by omega), hi],
            fun k hk => h (k + 1) (by omega) (by omega)⟩
        | succ i =>
          exact .inr ⟨i, by omega, hi, fun k hik hk => h (k + 1) (by omega) (by omega)⟩

/-- A place belongs to `runs` when only accepted characters lie between it and a place of the set
before it. -/
theorem testBit_runs (accepted places : Nat) (j : Nat) :
    (runs accepted places).testBit j = true ↔
      ∃ i ≤ j, places.testBit i = true ∧ ∀ k, i ≤ k → k < j → accepted.testBit k = true := by
  have h := testBit_runsWith false accepted places j
  simpa [runsWith, runs] using h

end MetadataGraph.Pattern
