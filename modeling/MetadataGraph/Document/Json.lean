import MetadataGraph.Binary64.Decimal

/-!
# JSON trees

The tree of a JSON text, and the text of a tree. Members of an object keep their order and may
repeat a name: what that means is for the reader of the tree to say.
-/

namespace MetadataGraph

/-- A JSON value. -/
inductive Json where
  /-- The literal `null`. -/
  | null
  /-- A truth value. -/
  | boolean (value : Bool)
  /-- A number without fraction and exponent that fits 64 bits, signed or unsigned. -/
  | integer (value : Int)
  /-- Any other number that a double can hold. -/
  | float (value : Binary64)
  /-- A text. -/
  | string (text : String)
  /-- A list of values. -/
  | array (items : List Json)
  /-- Named values. -/
  | object (members : List (String × Json))
  /-- Something well formed that stands for no value: a number too large for a double, or a text
  or name with half of a surrogate pair. -/
  | unreadable

namespace Json

instance : Inhabited Json := ⟨null⟩

/-- The array of the images of a list. -/
def ofList {α : Type} (f : α → Json) (items : List α) : Json := array (items.map f)

/-- The value's image, or `null` without one. -/
def ofOption {α : Type} (f : α → Json) : Option α → Json
  | none => null
  | some value => f value

/-! ## Text -/

/-- Four hexadecimal digits. -/
def hexQuad (n : Nat) : String :=
  let digits := Nat.toDigits 16 n
  String.ofList (List.replicate (4 - digits.length) '0' ++ digits)

/-- One character of a quoted text. -/
def escapedChar (c : Char) : String :=
  if c = '"' then "\\\""
  else if c = '\\' then "\\\\"
  else if c = '\n' then "\\n"
  else if c = '\r' then "\\r"
  else if c = '\t' then "\\t"
  else if c.toNat < 0x20 then "\\u" ++ hexQuad c.toNat
  else c.toString

/-- A quoted text. -/
def quotedText (text : String) : String :=
  "\"" ++ String.join (text.toList.map escapedChar) ++ "\""

mutual

/-- A text with the text of a tree after it, which has no blanks. Numbers that documents have no
form for are `null`. -/
def writeAfter (written : String) : Json → String
  | null => written ++ "null"
  | boolean value => written ++ (if value then "true" else "false")
  | integer value => written ++ toString value
  | float value => written ++ value.documentText?.getD "null"
  | string content => written ++ quotedText content
  | array items => writeItemsAfter (written ++ "[") items ++ "]"
  | object members => writeMembersAfter (written ++ "\x7b") members ++ "\x7d"
  | unreadable => written ++ "null"

/-- A text with the texts of list items after it, with commas between them. -/
def writeItemsAfter (written : String) : List Json → String
  | [] => written
  | [item] => item.writeAfter written
  | item :: rest => writeItemsAfter (item.writeAfter written ++ ",") rest

/-- A text with the texts of object members after it, with commas between them. -/
def writeMembersAfter (written : String) : List (String × Json) → String
  | [] => written
  | [(name, value)] => value.writeAfter (written ++ quotedText name ++ ":")
  | (name, value) :: rest =>
    writeMembersAfter (value.writeAfter (written ++ quotedText name ++ ":") ++ ",") rest

end

/-- The text of a tree. -/
def text (json : Json) : String := json.writeAfter ""

end Json

end MetadataGraph
