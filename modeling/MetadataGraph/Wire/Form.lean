import MetadataGraph.Document.Reader
import MetadataGraph.Error
import MetadataGraph.NameMap

/-!
# Wire forms

How values of a type are exchanged with callers as JSON. The wire form is short: what has its usual
value is left out, an object gives its parts in any order, and times are counts of microseconds.
Decoding can fail in two ways: the JSON has the wrong form, or it asks for something that has no
result.
-/

namespace MetadataGraph

/-- A step of decoding: nothing for JSON of the wrong form, a failure for what has no result. -/
abbrev Decode := ExceptT Failure Option

namespace Wire

/-- A type whose values are sent to callers. -/
class ToWire (α : Type) where
  /-- The form of a value. -/
  encode : α → Json

/-- A type whose values callers send. -/
class FromWire (α : Type) where
  /-- The value of a form; a part that is left out is decoded from `null`. -/
  decode : Json → Decode α

export ToWire (encode)

export FromWire (decode)

/-! ## Decoding -/

/-- The JSON has the wrong form. -/
def malformed {α : Type} : Decode α := ExceptT.mk none

/-- The result of an operation, or its failure. -/
def accept {α : Type} (outcome : Outcome α) : Decode α := ExceptT.mk (some outcome)

/-- A part of an object, if it is given. -/
def part? (json : Json) (name : String) : Option Json :=
  match json with
  | .object members => Entries.find? name members
  | _ => none

/-- A part of an object; `null` if it is left out. -/
def part (json : Json) (name : String) : Json := (part? json name).getD .null

/-- Whether a part of an object is given. -/
def has (json : Json) (name : String) : Bool := (part? json name).isSome

/-- Decode a part of an object. -/
def get {α : Type} [FromWire α] (json : Json) (name : String) : Decode α := decode (part json name)

/-- Decode a part of an object that has a usual value. -/
def getD {α : Type} [FromWire α] (json : Json) (name : String) (usual : α) : Decode α :=
  match part json name with
  | .null => pure usual
  | json => decode json

/-- Decode one of a list of named choices. -/
def choice {α : Type} (choices : List (String × α)) : Json → Decode α
  | .string name => ((Entries.find? name choices).map pure).getD malformed
  | _ => malformed

/-! ## Scalars -/

instance : ToWire Json := ⟨id⟩

instance : FromWire Json := ⟨pure⟩

instance : ToWire String where
  encode := .string

instance : FromWire String where
  decode
    | .string text => pure text
    | _ => malformed

instance : ToWire Bool where
  encode := .boolean

instance : FromWire Bool where
  decode
    | .boolean value => pure value
    | _ => malformed

instance : ToWire Int where
  encode := .integer

instance : FromWire Int where
  decode
    | .integer value => pure value
    | _ => malformed

instance : ToWire Nat where
  encode value := .integer value

instance : FromWire Nat where
  decode
    | .integer value => if 0 ≤ value then pure value.toNat else malformed
    | _ => malformed

instance : ToWire UInt64 where
  encode value := .integer value.toNat

instance : FromWire UInt64 where
  decode json := do
    let value : Nat ← decode json
    return .ofNat value

instance : ToWire Int32 where
  encode value := .integer value.toInt

instance : FromWire Int32 where
  decode json := do
    let value : Int ← decode json
    return .ofInt value

instance : ToWire Int64 where
  encode value := .integer value.toInt

instance : FromWire Int64 where
  decode json := do
    let value : Int ← decode json
    return .ofInt value

/-- The two hexadecimal digits of a byte. -/
def hexPair (byte : UInt8) : List Char :=
  [Nat.digitChar (byte.toNat / 16), Nat.digitChar (byte.toNat % 16)]

/-- Bytes in hexadecimal digits. -/
def hexText (bytes : List UInt8) : String := String.ofList (bytes.flatMap hexPair)

/-- The number that hexadecimal digits stand for. -/
def ofHex (text : String) : Nat :=
  text.toList.foldl (fun n digit => n * 16 + (Json.hexValue? digit).getD 0) 0

/-- A double is given by its bits. -/
instance : ToWire Binary64 where
  encode value :=
    let digits := Nat.toDigits 16 value.bits.toNat
    .object [("float", .string (String.ofList (List.replicate (16 - digits.length) '0' ++ digits)))]

instance : FromWire Binary64 where
  decode
    | .object [("float", .string digits)] => pure ⟨.ofNat (ofHex digits)⟩
    | _ => malformed

/-! ## Collections -/

section Collections

variable {α : Type}

instance [ToWire α] : ToWire (Option α) where
  encode := .ofOption encode

instance [FromWire α] : FromWire (Option α) where
  decode
    | .null => pure none
    | json => some <$> decode json

instance [ToWire α] : ToWire (List α) where
  encode := .ofList encode

/-- A list that is left out is empty. -/
instance [FromWire α] : FromWire (List α) where
  decode
    | .null => pure []
    | .array items => items.mapM decode
    | _ => malformed

end Collections

/-- Named parts of an object, of which one without a value is left out. -/
def given {α : Type} [ToWire α] (name : String) : Option α → List (String × Json)
  | none => []
  | some value => [(name, encode value)]

/-! ## Outcomes -/

instance : ToWire Unit where
  encode _ := .string "done"

/-- The name of a kind of errors. -/
def errorKindName : ErrorKind → String
  | .notKnown => "NotKnown"
  | .proxyOnly => "ProxyOnly"
  | .alreadyDeleted => "AlreadyDeleted"
  | .notDeleted => "NotDeleted"
  | .invalidState => "InvalidState"
  | .typeMismatch => "TypeMismatch"
  | .typeError => "TypeError"
  | .propertyError => "PropertyError"
  | .classification => "Classification"
  | .conflict => "Conflict"
  | .repository => "Repository"
  | .invalidParameter => "InvalidParameter"
  | .serialization => "Serialization"
  | .deserialization => "Deserialization"
  | .inputOutput => "Io"

/-- The kinds of errors by name. -/
def errorKinds : List (String × ErrorKind) :=
  [.notKnown, .proxyOnly, .alreadyDeleted, .notDeleted, .invalidState, .typeMismatch, .typeError,
    .propertyError, .classification, .conflict, .repository, .invalidParameter, .serialization,
    .deserialization, .inputOutput].map fun kind => (errorKindName kind, kind)

instance : ToWire ErrorKind where
  encode kind := .string (errorKindName kind)

instance : FromWire ErrorKind where
  decode := choice errorKinds

/-- An error as its kind and its message; documents that cannot be read or written have none. -/
def encodeError (error : Error) : Json :=
  let message :=
    if error.kind = .serialization ∨ error.kind = .deserialization then []
    else [("message", encode error.message)]
  .object (("error", encode error.kind) :: message)

/-- A refusal as its error. An operation that was cut off has no error of its own. -/
def encodeFailure : Failure → Json
  | .refused error => encodeError error
  | .overflow => .object [("error", encode "panic")]

/-- The result of an operation, or its failure. -/
def encodeOutcome {α : Type} [ToWire α] : Outcome α → Json
  | .ok value => .object [("ok", encode value)]
  | .error failure => encodeFailure failure

end Wire

end MetadataGraph
