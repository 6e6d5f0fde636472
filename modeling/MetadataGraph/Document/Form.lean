import MetadataGraph.Document.Reader
import MetadataGraph.Error
import MetadataGraph.NameMap

/-!
# Document forms

How values of a type stand in a JSON document. A structure is an object of its parts and may also be
read from the list of them; a choice without content is its name; an optional part that is missing
is none. What a document holds beyond the parts of a structure is passed over.

Reading counts the brackets that enclose a value: `room` is one more than the number that may still
be opened inside.
-/

namespace MetadataGraph

/-- A type with a document form. -/
class DocumentForm (α : Type) where
  /-- The form of a value. -/
  write : α → Json
  /-- The value of a form. -/
  read : (room : Nat) → Json → Option α
  /-- What a missing part of this type stands for. -/
  missing : Option α := none

namespace DocumentForm

/-- The room at the start of a document. -/
def fullRoom : Nat := 128

/-- The room inside of a bracket. -/
def enter (room : Nat) : Option Nat := if room ≤ 1 then none else some (room - 1)

/-- Read the text of a whole document. -/
def readText (α : Type) [DocumentForm α] (text : String) : Outcome α :=
  .ofOption .unreadableDocument ((Json.read? text).bind (read fullRoom))

/-! ## Scalars -/

instance : DocumentForm Bool where
  write := .boolean
  read _
    | .boolean value => some value
    | _ => none

instance : DocumentForm String where
  write := .string
  read _
    | .string text => some text
    | _ => none

/-- Read an integer between two bounds. -/
def readInteger (least greatest : Int) : Json → Option Int
  | .integer value => if least ≤ value ∧ value ≤ greatest then some value else none
  | _ => none

instance : DocumentForm Int64 where
  write value := .integer value.toInt
  read _ json := (readInteger Int64.minValue.toInt Int64.maxValue.toInt json).map Int64.ofInt

instance : DocumentForm Int32 where
  write value := .integer value.toInt
  read _ json := (readInteger Int32.minValue.toInt Int32.maxValue.toInt json).map Int32.ofInt

instance : DocumentForm UInt64 where
  write value := .integer value.toNat
  read _ json := (readInteger 0 (UInt64.size - 1) json).map fun value => .ofNat value.toNat

instance : DocumentForm Nat where
  write value := .integer value
  read _ json := (readInteger 0 (UInt64.size - 1) json).map Int.toNat

instance : DocumentForm Binary64 where
  write := .float
  read _
    | .float value => some value
    | .integer value => some (.ofInt value)
    | _ => none

/-! ## Collections -/

section Collections

variable {α β : Type} [DocumentForm α] [DocumentForm β]

instance : DocumentForm (Option α) where
  write := .ofOption write
  read room
    | .null => some none
    | json => (read room json).map some
  missing := some none

instance : DocumentForm (List α) where
  write := .ofList write
  read room
    | .array items => do
      let room ← enter room
      items.mapM (read room)
    | _ => none

instance : DocumentForm (α × β) where
  write pair := .array [write pair.1, write pair.2]
  read room
    | .array [first, second] => do
      let room ← enter room
      return (← read room first, ← read room second)
    | _ => none

instance : DocumentForm (NameMap α) where
  write map := .object (map.entries.map fun (name, value) => (name, write value))
  read room
    | .object members => do
      let room ← enter room
      let entries ← members.mapM fun (name, json) => do return (name, ← read room json)
      return .ofList entries
    | _ => none

end Collections

/-! ## Structures -/

/-- The parts of a structure by name, and the room inside of it. -/
structure Parts where
  /-- The room inside of the structure. -/
  room : Nat
  /-- The parts found. -/
  members : List (String × Json)

namespace Parts

/-- Find the parts of a structure in an object, where no name may be given twice, or in a list of
all of them in order. -/
def ofJson? (names : List String) (room : Nat) : Json → Option Parts
  | .object members => do
    let room ← enter room
    let known := members.filter fun member => names.contains member.1
    if known.Pairwise (·.1 ≠ ·.1) then some ⟨room, known⟩ else none
  | .array items => do
    let room ← enter room
    if items.length = names.length then some ⟨room, names.zip items⟩ else none
  | _ => none

/-- Find the parts of a structure of which any may be missing, and the last ones of a list too. -/
def ofPartialJson? (names : List String) (room : Nat) : Json → Option Parts
  | .array items => do
    let room ← enter room
    if items.length ≤ names.length then some ⟨room, names.zip items⟩ else none
  | json => ofJson? names room json

/-- Read a part. -/
def get {α : Type} [DocumentForm α] (parts : Parts) (name : String) : Option α :=
  match Entries.find? name parts.members with
  | none => missing
  | some json => read parts.room json

/-- Read a part that has a default. -/
def getD {α : Type} [DocumentForm α] (parts : Parts) (name : String) (default : α) : Option α :=
  match Entries.find? name parts.members with
  | none => some default
  | some json => read parts.room json

end Parts

/-! ## Choices -/

/-- Read a choice without content: its name, alone or with `null` in an object. -/
def readChoice {α : Type} (choices : List α) (name : α → String) (room : Nat) : Json → Option α
  | .string text => choices.find? fun choice => name choice = text
  | .object [(text, .null)] => do
    let _ ← enter room
    choices.find? fun choice => name choice = text
  | _ => none

/-- A choice with content, as the object of its name and its content. -/
def writeVariant {α : Type} [DocumentForm α] (name : String) (content : α) : Json :=
  .object [(name, write content)]

end DocumentForm

end MetadataGraph
