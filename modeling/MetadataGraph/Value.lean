import MetadataGraph.Binary64
import MetadataGraph.NameMap

/-!
# Property values

A `Value` is what a property of an instance can hold: a scalar, a list of values or a map of
values by name. Maps are held with their entries in name order (`Value.ofPairs`), so that equal
maps are equal lists.
-/

namespace MetadataGraph

/-- A property value. -/
inductive Value where
  /-- No value. -/
  | null
  /-- A truth value. -/
  | boolean (value : Bool)
  /-- A 64-bit integer. -/
  | integer (value : Int64)
  /-- A floating point number. -/
  | float (value : Binary64)
  /-- A text. -/
  | string (text : String)
  /-- A list of values. -/
  | array (items : List Value)
  /-- Values by name, in name order. -/
  | map (entries : List (String × Value))
  /-- A time in milliseconds since the start of 1970. -/
  | dateTime (millis : Int64)
  /-- A member of an enumeration: its place and its name. -/
  | enumeration (ordinal : Int32) (name : String)

namespace Value

instance : Inhabited Value := ⟨null⟩

/-- The map of a list of pairs, a later pair replacing an earlier one of its name. -/
def ofPairs (pairs : List (String × Value)) : Value := map (Entries.ofList pairs)

/-! ## Identity -/

mutual

/-- Whether two values are the same, floats by their bits. -/
def decEq : (a b : Value) → Decidable (a = b)
  | null, b => match b with
    | null => isTrue rfl
    | boolean _ | integer _ | float _ | string _ | array _ | map _ | dateTime _
    | enumeration _ _ => isFalse nofun
  | boolean x, b => match b with
    | boolean y => decidable_of_iff (x = y) (by simp)
    | null | integer _ | float _ | string _ | array _ | map _ | dateTime _
    | enumeration _ _ => isFalse nofun
  | integer x, b => match b with
    | integer y => decidable_of_iff (x = y) (by simp)
    | null | boolean _ | float _ | string _ | array _ | map _ | dateTime _
    | enumeration _ _ => isFalse nofun
  | float x, b => match b with
    | float y => decidable_of_iff (x = y) (by simp)
    | null | boolean _ | integer _ | string _ | array _ | map _ | dateTime _
    | enumeration _ _ => isFalse nofun
  | string x, b => match b with
    | string y => decidable_of_iff (x = y) (by simp)
    | null | boolean _ | integer _ | float _ | array _ | map _ | dateTime _
    | enumeration _ _ => isFalse nofun
  | array xs, b => match b with
    | array ys => @decidable_of_iff _ (xs = ys) (by simp) (decEqItems xs ys)
    | null | boolean _ | integer _ | float _ | string _ | map _ | dateTime _
    | enumeration _ _ => isFalse nofun
  | map xs, b => match b with
    | map ys => @decidable_of_iff _ (xs = ys) (by simp) (decEqEntries xs ys)
    | null | boolean _ | integer _ | float _ | string _ | array _ | dateTime _
    | enumeration _ _ => isFalse nofun
  | dateTime x, b => match b with
    | dateTime y => decidable_of_iff (x = y) (by simp)
    | null | boolean _ | integer _ | float _ | string _ | array _ | map _
    | enumeration _ _ => isFalse nofun
  | enumeration x n, b => match b with
    | enumeration y m => decidable_of_iff (x = y ∧ n = m) (by simp)
    | null | boolean _ | integer _ | float _ | string _ | array _ | map _
    | dateTime _ => isFalse nofun

/-- Whether two lists of values are the same. -/
def decEqItems : (as bs : List Value) → Decidable (as = bs)
  | [], [] => isTrue rfl
  | [], _ :: _ => isFalse nofun
  | _ :: _, [] => isFalse nofun
  | a :: as, b :: bs =>
    match decEq a b with
    | isFalse h => isFalse fun same => h (List.cons.inj same).1
    | isTrue h => @decidable_of_iff _ (as = bs) (by simp [h]) (decEqItems as bs)

/-- Whether two lists of named values are the same. -/
def decEqEntries : (as bs : List (String × Value)) → Decidable (as = bs)
  | [], [] => isTrue rfl
  | [], _ :: _ => isFalse nofun
  | _ :: _, [] => isFalse nofun
  | (k, a) :: as, (l, b) :: bs =>
    match decEq a b with
    | isFalse h => isFalse fun same => h (Prod.mk.inj (List.cons.inj same).1).2
    | isTrue h => @decidable_of_iff _ (k = l ∧ as = bs) (by simp [h])
        (@instDecidableAnd _ _ _ (decEqEntries as bs))

end

instance : DecidableEq Value := decEq

/-! ## Views -/

/-- Whether the value is null. -/
def isNull : Value → Bool
  | null => true
  | _ => false

/-- Whether the value is a text. -/
def isString : Value → Bool
  | string _ => true
  | _ => false

/-- The truth value held. -/
def boolean? : Value → Option Bool
  | boolean value => some value
  | _ => none

/-- The integer held. -/
def integer? : Value → Option Int64
  | integer value => some value
  | _ => none

/-- The number held as a floating point number; an integer is rounded to the nearest one. -/
def float? : Value → Option Binary64
  | float value => some value
  | integer value => some (Binary64.ofInt value.toInt)
  | _ => none

/-- The text held, or the name of an enumeration member. -/
def text? : Value → Option String
  | string text => some text
  | enumeration _ name => some name
  | _ => none

/-- The list held. -/
def items? : Value → Option (List Value)
  | array items => some items
  | _ => none

/-- The name of the value's kind. -/
def kindName : Value → String
  | null => "null"
  | boolean _ => "boolean"
  | integer _ => "integer"
  | float _ => "float"
  | string _ => "string"
  | array _ => "array"
  | map _ => "map"
  | dateTime _ => "datetime"
  | enumeration _ _ => "enum"

mutual

/-- Every text in the value, at any depth; names of map entries are not among them. -/
def strings : Value → List String
  | string text => [text]
  | enumeration _ name => [name]
  | array items => stringsOfItems items
  | map entries => stringsOfEntries entries
  | _ => []

/-- Every text in a list of values. -/
def stringsOfItems : List Value → List String
  | [] => []
  | value :: rest => value.strings ++ stringsOfItems rest

/-- Every text in the values of map entries. -/
def stringsOfEntries : List (String × Value) → List String
  | [] => []
  | (_, value) :: rest => value.strings ++ stringsOfEntries rest

end

end Value

end MetadataGraph
