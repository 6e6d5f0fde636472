import MetadataGraph.Value

/-!
# Order of property values

Three relations on values. `equal` is equality as a search condition sees it: floats are compared
as numbers. `compare?` orders values of one kind, integers and floats mixed. `sequenceCompare`
puts all values in one line, which is the order of results.
-/

namespace MetadataGraph.Value

/-! ## Equality of content -/

mutual

/-- Whether two values are of one kind and hold the same content, floats compared as numbers: a
NaN equals nothing and the zeros equal each other. -/
def equal : Value → Value → Bool
  | null, null => true
  | boolean a, boolean b => a == b
  | integer a, integer b => a == b
  | float a, float b => a.numericallyEqual b
  | string a, string b => a == b
  | array as, array bs => equalItems as bs
  | map as, map bs => equalEntries as bs
  | dateTime a, dateTime b => a == b
  | enumeration a n, enumeration b m => a == b && n == m
  | _, _ => false

/-- Whether two lists hold equal values in the same places. -/
def equalItems : List Value → List Value → Bool
  | [], [] => true
  | a :: as, b :: bs => equal a b && equalItems as bs
  | _, _ => false

/-- Whether two maps hold equal values under the same names. -/
def equalEntries : List (String × Value) → List (String × Value) → Bool
  | [], [] => true
  | (k, a) :: as, (l, b) :: bs => k == l && equal a b && equalEntries as bs
  | _, _ => false

end

/-! ## Comparison -/

/-- Compare two values where that makes sense. Null comes before everything, integers and floats
compare as floats, enumeration members by their places; other values of different kinds, lists and
maps do not compare. -/
def compare? : Value → Value → Option Ordering
  | null, null => some .eq
  | null, _ => some .lt
  | _, null => some .gt
  | boolean a, boolean b => some (compare a b)
  | integer a, integer b => some (compare a b)
  | float a, float b => a.compare? b
  | integer a, float b => (Binary64.ofInt a.toInt).compare? b
  | float a, integer b => a.compare? (Binary64.ofInt b.toInt)
  | string a, string b => some (compare a b)
  | dateTime a, dateTime b => some (compare a b)
  | enumeration a _, enumeration b _ => some (compare a b)
  | _, _ => none

/-! ## Sequence order -/

/-- The place of the value's kind in the sequence; integers and floats share one. -/
def kindRank : Value → Nat
  | null => 0
  | boolean _ => 1
  | integer _ | float _ => 2
  | string _ => 3
  | dateTime _ => 4
  | enumeration _ _ => 5
  | array _ => 6
  | map _ => 7

mutual

/-- The order of values in a sequence: by kind, and within a kind by content. Floats stand in the
total order of their bits, an integer just before a float of its value; lists and maps are
compared element by element, a map's entries by name and then value. -/
def sequenceCompare : Value → Value → Ordering
  | null, null => .eq
  | boolean a, boolean b => compare a b
  | integer a, integer b => compare a b
  | float a, float b => a.totalCompare b
  | integer a, float b => ((Binary64.ofInt a.toInt).totalCompare b).then .lt
  | float a, integer b => (a.totalCompare (Binary64.ofInt b.toInt)).then .gt
  | string a, string b => compare a b
  | dateTime a, dateTime b => compare a b
  | enumeration a n, enumeration b m => (compare a b).then (compare n m)
  | array as, array bs => sequenceCompareItems as bs
  | map as, map bs => sequenceCompareEntries as bs
  | a, b => compare a.kindRank b.kindRank

/-- The first difference decides; without one the shorter list comes first. -/
def sequenceCompareItems : List Value → List Value → Ordering
  | [], [] => .eq
  | [], _ :: _ => .lt
  | _ :: _, [] => .gt
  | a :: as, b :: bs => (sequenceCompare a b).then (sequenceCompareItems as bs)

/-- The first difference in a name or a value decides; without one the smaller map comes first. -/
def sequenceCompareEntries : List (String × Value) → List (String × Value) → Ordering
  | [], [] => .eq
  | [], _ :: _ => .lt
  | _ :: _, [] => .gt
  | (k, a) :: as, (l, b) :: bs =>
    (compare k l).then ((sequenceCompare a b).then (sequenceCompareEntries as bs))

end

end MetadataGraph.Value
