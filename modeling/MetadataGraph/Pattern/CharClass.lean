/-!
# Character classes

A class is a set of characters, given by ranges of code points in increasing order that do not
touch.
-/

namespace MetadataGraph

/-- A set of characters as ranges of code points, ends included. -/
structure CharClass where
  /-- The ranges. -/
  ranges : List (Nat × Nat)
  deriving DecidableEq, Inhabited

namespace CharClass

/-- The range from `low` to `high` and those after it, sorted by their starts, with ranges that
overlap or touch made one. -/
def mergeFrom (low high : Nat) : List (Nat × Nat) → List (Nat × Nat)
  | [] => [(low, high)]
  | next :: rest =>
    if next.1 ≤ high + 1 then mergeFrom low (max high next.2) rest
    else (low, high) :: mergeFrom next.1 next.2 rest

/-- The class of the characters in some of the ranges. -/
def ofRanges (ranges : List (Nat × Nat)) : CharClass :=
  match ranges.mergeSort fun a b => a.1 < b.1 || (a.1 = b.1 && a.2 ≤ b.2) with
  | [] => ⟨[]⟩
  | (low, high) :: rest => ⟨mergeFrom low high rest⟩

/-- The class of the characters between two, ends included. -/
def between (first last : Char) : CharClass := ⟨[(first.toNat, last.toNat)]⟩

/-- The class of one character. -/
def single (c : Char) : CharClass := between c c

/-- The class of the characters of a text. -/
def ofChars (chars : List Char) : CharClass := ofRanges (chars.map fun c => (c.toNat, c.toNat))

/-- The union of classes. -/
def union (classes : List CharClass) : CharClass := ofRanges (classes.flatMap ranges)

/-- The gaps between ranges, from a code point on. -/
def gapsFrom (start : Nat) : List (Nat × Nat) → List (Nat × Nat)
  | [] => if start ≤ 0x10ffff then [(start, 0x10ffff)] else []
  | (low, high) :: rest =>
    (if start < low then [(start, low - 1)] else []) ++ gapsFrom (high + 1) rest

/-- The class of all other characters. -/
def complement (cls : CharClass) : CharClass := ⟨gapsFrom 0 cls.ranges⟩

/-- The part of a range within `low` to `high`, moved by the distance from there to `target`. -/
def shiftedPart (range : Nat × Nat) (low high target : Nat) : Option (Nat × Nat) :=
  let first := max range.1 low
  let last := min range.2 high
  if first ≤ last then some (first - low + target, last - low + target) else none

/-- The other case of the letters of a range: of its small letters if it has any, else of its
capital letters. -/
def otherCase (range : Nat × Nat) : Option (Nat × Nat) :=
  (shiftedPart range 0x61 0x7a 0x41).or (shiftedPart range 0x41 0x5a 0x61)

/-- The class with the other cases of the letters of its ranges. -/
def foldCase (cls : CharClass) : CharClass :=
  ofRanges (cls.ranges ++ cls.ranges.filterMap otherCase)

/-- Whether a character is in the class. -/
def contains (cls : CharClass) (c : Char) : Bool :=
  cls.ranges.any fun range => range.1 ≤ c.toNat && c.toNat ≤ range.2

/-! ## Named classes -/

/-- The decimal digits. -/
def digit : CharClass := between '0' '9'

/-- The blanks of ASCII. -/
def space : CharClass := ofRanges [(0x09, 0x0d), (0x20, 0x20)]

/-- The letters and digits of ASCII and the underscore. -/
def word : CharClass := ofRanges [(0x30, 0x39), (0x41, 0x5a), (0x5f, 0x5f), (0x61, 0x7a)]

/-- The classes that a name in brackets and colons stands for. -/
def named? : String → Option CharClass
  | "alnum" => some (ofRanges [(0x30, 0x39), (0x41, 0x5a), (0x61, 0x7a)])
  | "alpha" => some (ofRanges [(0x41, 0x5a), (0x61, 0x7a)])
  | "ascii" => some (ofRanges [(0x00, 0x7f)])
  | "blank" => some (ofRanges [(0x09, 0x09), (0x20, 0x20)])
  | "cntrl" => some (ofRanges [(0x00, 0x1f), (0x7f, 0x7f)])
  | "digit" => some digit
  | "graph" => some (ofRanges [(0x21, 0x7e)])
  | "lower" => some (between 'a' 'z')
  | "print" => some (ofRanges [(0x20, 0x7e)])
  | "punct" => some (ofRanges [(0x21, 0x2f), (0x3a, 0x40), (0x5b, 0x60), (0x7b, 0x7e)])
  | "space" => some space
  | "upper" => some (between 'A' 'Z')
  | "word" => some word
  | "xdigit" => some (ofRanges [(0x30, 0x39), (0x41, 0x46), (0x61, 0x66)])
  | _ => none

end CharClass

end MetadataGraph
