import MetadataGraph.Proofs.Binary64
import MetadataGraph.Value.Order

/-!
# The sequence order of values

All values stand in one line: by kind, numbers by their places in the total order of doubles, lists
and maps by their first difference. The order is one of comparisons that are put one after the
other, where a later one only counts if the earlier ones find no difference. We prove:

* `Spans.then`: such a sequence of comparisons is transitive if each of them is;
* `sequenceCompare_number`: integers and doubles are compared by their places, then doubles come
  after integers, then integers by themselves;
* the instance of `TransCmp`: the sequence order is total and transitive.
-/

namespace MetadataGraph

/-! ## Comparisons one after the other -/

/-- How two things compare across a third one, which does not come before the first or after the
second: as the first difference on the way says. -/
def Spans (ab bc ac : Ordering) : Prop := ab ≠ .gt → bc ≠ .gt → ac = ab.then bc

theorem spans_of_transCmp {α : Type} (cmp : α → α → Ordering) [Std.TransCmp cmp] (a b c : α) :
    Spans (cmp a b) (cmp b c) (cmp a c) := by
  intro hab hbc
  cases h : cmp a b with
  | lt =>
    refine Std.TransCmp.lt_of_lt_of_isLE h ?_
    cases h' : cmp b c with
    | lt | eq => rfl
    | gt => exact absurd h' hbc
  | eq => exact Std.TransCmp.congr_left h
  | gt => exact absurd h hab

/-- A second comparison where the first finds no difference keeps the span. -/
theorem Spans.then {ab bc ac ab' bc' ac' : Ordering} (h : Spans ab bc ac)
    (h' : ab = .eq → bc = .eq → Spans ab' bc' ac') :
    Spans (ab.then ab') (bc.then bc') (ac.then ac') := by
  intro hab hbc
  cases ab with
  | gt => exact absurd rfl hab
  | lt =>
    have hac : ac = .lt := h (by decide) (by rintro rfl; exact hbc rfl)
    rw [hac]
    rfl
  | eq =>
    cases bc with
    | gt => exact absurd rfl hbc
    | lt =>
      have hac : ac = .lt := h (by decide) (by decide)
      rw [hac]
      cases ab' with
      | lt | eq => rfl
      | gt => exact absurd rfl hab
    | eq =>
      have hac : ac = .eq := h (by decide) (by decide)
      rw [hac]
      exact h' rfl rfl hab hbc

/-- Comparisons that are swapped with their sides and span are transitive. -/
theorem transCmp_of_spans {α : Type} {cmp : α → α → Ordering}
    (hswap : ∀ a b, cmp a b = (cmp b a).swap)
    (hspans : ∀ a b c, Spans (cmp a b) (cmp b c) (cmp a c)) : Std.TransCmp cmp where
  eq_swap := hswap _ _
  isLE_trans {a b c} hab hbc := by
    rw [hspans a b c (Ordering.isLE_iff_ne_gt.mp hab) (Ordering.isLE_iff_ne_gt.mp hbc)]
    cases h : cmp a b with
    | lt => rfl
    | eq => exact hbc
    | gt => rw [h] at hab; cases hab

namespace Value

/-! ## Numbers -/

/-- The place of a number among the doubles; an integer stands at the double nearest to it. -/
def numberKey : Value → Int
  | integer a => (Binary64.ofInt a.toInt).totalKey
  | float a => a.totalKey
  | _ => 0

/-- Whether the value is a double, which stands after the integers at its place. -/
def isFloat : Value → Bool
  | float _ => true
  | _ => false

/-- The integer that a value holds; other values stand at zero. -/
def integerKey : Value → Int
  | integer a => a.toInt
  | _ => 0

/-- The place of an integer says how it compares, if it differs. -/
theorem compare_eq_then_totalKey (a b : Int) :
    compare a b =
      (compare (Binary64.ofInt a).totalKey (Binary64.ofInt b).totalKey).then (compare a b) := by
  cases h : compare (Binary64.ofInt a).totalKey (Binary64.ofInt b).totalKey with
  | eq => rfl
  | lt =>
    have hless := Std.compare_eq_lt.mp h
    refine Std.compare_eq_lt.mpr (Int.lt_of_not_ge fun hle => ?_)
    exact Int.not_lt.mpr (Binary64.totalKey_ofInt_mono hle) hless
  | gt =>
    have hless := Std.compare_eq_gt.mp h
    refine Std.compare_eq_gt.mpr (Int.lt_of_not_ge fun hle => ?_)
    exact Int.not_lt.mpr (Binary64.totalKey_ofInt_mono hle) hless

theorem compare_int64 (a b : Int64) : compare a b = compare a.toInt b.toInt := by
  change compareOfLessAndEq a b = compareOfLessAndEq a.toInt b.toInt
  simp only [compareOfLessAndEq, Int64.lt_iff_toInt_lt, Int64.toInt_inj]

/-- Numbers are compared by their places, at one place by what they are, and integers at last by
themselves. -/
theorem sequenceCompare_number {a b : Value} (ha : a.kindRank = 2) (hb : b.kindRank = 2) :
    a.sequenceCompare b =
      (compare a.numberKey b.numberKey).then
        ((compare a.isFloat b.isFloat).then (compare a.integerKey b.integerKey)) := by
  cases a with
  | integer a =>
    cases b with
    | integer b =>
      change compare a b = _
      rw [compare_int64, compare_eq_then_totalKey]
      rfl
    | float b => rfl
    | _ => cases hb
  | float a =>
    cases b with
    | integer b => rfl
    | float b => exact Ordering.then_eq.symm
    | _ => cases hb
  | _ => cases ha

/-! ## Kinds -/

/-- Values are compared by their kinds first. -/
theorem sequenceCompare_eq_then (a b : Value) :
    a.sequenceCompare b = (compare a.kindRank b.kindRank).then (a.sequenceCompare b) := by
  cases a <;> cases b <;> rfl

/-! ## Scalars -/

/-- Whether the value holds no other values. -/
def IsScalar : Value → Prop
  | array _ | map _ => False
  | _ => True

theorem sequenceCompare_swap_of_isScalar {a b : Value} (h : a.kindRank = b.kindRank)
    (hscalar : a.IsScalar) : a.sequenceCompare b = (b.sequenceCompare a).swap := by
  by_cases hnumber : a.kindRank = 2
  · rw [sequenceCompare_number hnumber (h.symm.trans hnumber),
      sequenceCompare_number (h.symm.trans hnumber) hnumber, Ordering.swap_then, Ordering.swap_then,
      ← Std.OrientedOrd.eq_swap, ← Std.OrientedOrd.eq_swap, ← Std.OrientedOrd.eq_swap]
  · match a, b, h with
    | null, null, _ => rfl
    | boolean _, boolean _, _ | string _, string _, _ | dateTime _, dateTime _, _ =>
      exact Std.OrientedOrd.eq_swap
    | enumeration a n, enumeration b m, _ =>
      change (compare a b).then (compare n m) = ((compare b a).then (compare m n)).swap
      rw [Ordering.swap_then, ← Std.OrientedOrd.eq_swap, ← Std.OrientedOrd.eq_swap]
    | integer _, _, _ | float _, _, _ => exact absurd rfl hnumber
    | array _, _, _ | map _, _, _ => exact hscalar.elim

theorem spans_sequenceCompare_of_isScalar {a b c : Value} (hab : a.kindRank = b.kindRank)
    (hbc : b.kindRank = c.kindRank) (hscalar : a.IsScalar) :
    Spans (a.sequenceCompare b) (b.sequenceCompare c) (a.sequenceCompare c) := by
  by_cases hnumber : a.kindRank = 2
  · rw [hnumber] at hab
    rw [← hab] at hbc
    rw [sequenceCompare_number hnumber hab.symm, sequenceCompare_number hab.symm hbc.symm,
      sequenceCompare_number hnumber hbc.symm]
    refine (spans_of_transCmp compare _ _ _).then fun _ _ => ?_
    exact (spans_of_transCmp compare _ _ _).then fun _ _ => spans_of_transCmp compare _ _ _
  · match a, b, c, hab, hbc with
    | null, null, null, _, _ => exact fun _ _ => rfl
    | boolean a, boolean b, boolean c, _, _ => exact spans_of_transCmp compare a b c
    | string a, string b, string c, _, _ => exact spans_of_transCmp compare a b c
    | dateTime a, dateTime b, dateTime c, _, _ => exact spans_of_transCmp compare a b c
    | enumeration a n, enumeration b m, enumeration c l, _, _ =>
      exact (spans_of_transCmp compare a b c).then fun _ _ => spans_of_transCmp compare n m l
    | integer _, _, _, _, _ | float _, _, _, _, _ => exact absurd rfl hnumber
    | array _, _, _, _, _ | map _, _, _, _, _ => exact hscalar.elim

/-! ## The order -/

mutual

/-- The sequence order is swapped with its sides. -/
theorem sequenceCompare_swap (a b : Value) : a.sequenceCompare b = (b.sequenceCompare a).swap := by
  rw [sequenceCompare_eq_then a b, sequenceCompare_eq_then b a, Ordering.swap_then,
    ← Std.OrientedOrd.eq_swap]
  by_cases hkind : a.kindRank = b.kindRank
  · congr 1
    match a, b, hkind with
    | array as, array bs, _ => exact sequenceCompareItems_swap as bs
    | map as, map bs, _ => exact sequenceCompareEntries_swap as bs
    | null, b, h | boolean _, b, h | integer _, b, h | float _, b, h | string _, b, h
    | dateTime _, b, h | enumeration .., b, h => exact sequenceCompare_swap_of_isScalar h trivial
  · cases h : compare a.kindRank b.kindRank with
    | lt | gt => rfl
    | eq => exact absurd (Std.LawfulEqOrd.eq_of_compare h) hkind

theorem sequenceCompareItems_swap (as bs : List Value) :
    sequenceCompareItems as bs = (sequenceCompareItems bs as).swap := by
  match as, bs with
  | [], [] | [], _ :: _ | _ :: _, [] => rfl
  | a :: as, b :: bs =>
    rw [sequenceCompareItems, sequenceCompareItems, Ordering.swap_then, sequenceCompare_swap a b,
      sequenceCompareItems_swap as bs]

theorem sequenceCompareEntries_swap (as bs : List (String × Value)) :
    sequenceCompareEntries as bs = (sequenceCompareEntries bs as).swap := by
  match as, bs with
  | [], [] | [], _ :: _ | _ :: _, [] => rfl
  | (k, a) :: as, (l, b) :: bs =>
    rw [sequenceCompareEntries, sequenceCompareEntries, Ordering.swap_then, Ordering.swap_then,
      ← Std.OrientedOrd.eq_swap, sequenceCompare_swap a b, sequenceCompareEntries_swap as bs]

end

mutual

/-- The sequence order is transitive. -/
theorem spans_sequenceCompare (a b c : Value) :
    Spans (a.sequenceCompare b) (b.sequenceCompare c) (a.sequenceCompare c) := by
  rw [sequenceCompare_eq_then a b, sequenceCompare_eq_then b c, sequenceCompare_eq_then a c]
  refine (spans_of_transCmp compare a.kindRank b.kindRank c.kindRank).then fun hab hbc => ?_
  have hab : a.kindRank = b.kindRank := Std.LawfulEqOrd.eq_of_compare hab
  have hbc : b.kindRank = c.kindRank := Std.LawfulEqOrd.eq_of_compare hbc
  match a, b, c, hab, hbc with
  | array as, array bs, array cs, _, _ => exact spans_sequenceCompareItems as bs cs
  | map as, map bs, map cs, _, _ => exact spans_sequenceCompareEntries as bs cs
  | null, b, c, hab, hbc | boolean _, b, c, hab, hbc | integer _, b, c, hab, hbc
  | float _, b, c, hab, hbc | string _, b, c, hab, hbc | dateTime _, b, c, hab, hbc
  | enumeration .., b, c, hab, hbc => exact spans_sequenceCompare_of_isScalar hab hbc trivial

theorem spans_sequenceCompareItems (as bs cs : List Value) :
    Spans (sequenceCompareItems as bs) (sequenceCompareItems bs cs)
      (sequenceCompareItems as cs) := by
  match as, bs, cs with
  | a :: as, b :: bs, c :: cs =>
    exact (spans_sequenceCompare a b c).then fun _ _ => spans_sequenceCompareItems as bs cs
  | [], [], _ | [], _ :: _, _ :: _ => exact fun _ _ => rfl
  | [], _ :: _, [] | _ :: _, _ :: _, [] => exact fun _ hbc => absurd rfl hbc
  | _ :: _, [], _ => exact fun hab => absurd rfl hab

theorem spans_sequenceCompareEntries (as bs cs : List (String × Value)) :
    Spans (sequenceCompareEntries as bs) (sequenceCompareEntries bs cs)
      (sequenceCompareEntries as cs) := by
  match as, bs, cs with
  | (k, a) :: as, (l, b) :: bs, (m, c) :: cs =>
    exact (spans_of_transCmp compare k l m).then fun _ _ =>
      (spans_sequenceCompare a b c).then fun _ _ => spans_sequenceCompareEntries as bs cs
  | [], [], _ | [], _ :: _, _ :: _ => exact fun _ _ => rfl
  | [], _ :: _, [] | _ :: _, _ :: _, [] => exact fun _ hbc => absurd rfl hbc
  | _ :: _, [], _ => exact fun hab => absurd rfl hab

end

instance : Std.TransCmp sequenceCompare :=
  transCmp_of_spans sequenceCompare_swap spans_sequenceCompare

end Value

end MetadataGraph
