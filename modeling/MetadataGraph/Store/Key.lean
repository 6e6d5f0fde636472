/-!
# Storage keys

The byte strings under which revisions and index entries are kept. Their lexicographic order is the
order in which they are scanned: the revisions of one identity stand by time, index entries under
the name or identity they belong to.
-/

namespace MetadataGraph

/-- A byte string. -/
abbrev Bytes := List UInt8

/-! ## Fields -/

/-- The bytes of a number, most significant first; only the lowest `8 * count` bits are kept. -/
def bigEndian : (count : Nat) → Nat → Bytes
  | 0, _ => []
  | count + 1, n => UInt8.ofNat (n >>> (8 * count)) :: bigEndian count n

/-- The number that bytes stand for, most significant first. -/
def ofBigEndian (bytes : Bytes) : Nat := bytes.foldl (fun n byte => n * 256 + byte.toNat) 0

/-- The bytes of a text in UTF-8. -/
def textBytes (text : String) : Bytes := text.toUTF8.data.toList

/-- The text that bytes stand for in UTF-8. -/
def textOfBytes? (bytes : Bytes) : Option String := String.fromUTF8? ⟨bytes.toArray⟩

/-- A time as eight bytes; the sign is flipped, so that earlier times have smaller bytes. -/
def encodeTime (micros : Int64) : Bytes :=
  bigEndian 8 (micros.toUInt64 ^^^ 0x8000000000000000).toNat

/-- A text with the low sixteen bits of its length in front. -/
def encodeText (text : String) : Bytes :=
  let bytes := textBytes text
  bigEndian 2 bytes.length ++ bytes

/-! ## Keys -/

/-- The kinds of keys, told apart by their first byte. -/
inductive KeyTag where
  | revision
  | latest
  | adjacency
  | typeIndex
  | metadata
  deriving DecidableEq

/-- The first byte of the keys of a kind. -/
def KeyTag.byte : KeyTag → UInt8
  | revision => 0x01
  | latest => 0x02
  | adjacency => 0x03
  | typeIndex => 0x04
  | metadata => 0x05

/-- A key of the persistent store. -/
inductive StorageKey where
  /-- A revision of an identity, by its valid time in microseconds. -/
  | revision (guid : String) (micros : Int64)
  /-- The newest revision of an identity. -/
  | latest (guid : String)
  /-- A relationship at an entity. -/
  | adjacency (entity relationship : String)
  /-- An instance of a type. -/
  | typeIndex (typeName guid : String)
  /-- A fact about the store itself. -/
  | metadata (name : String)
  deriving DecidableEq

namespace StorageKey

/-- The bytes of a key. -/
def encode : StorageKey → Bytes
  | revision guid micros => KeyTag.revision.byte :: (encodeText guid ++ encodeTime micros)
  | latest guid => KeyTag.latest.byte :: encodeText guid
  | adjacency entity relationship =>
    KeyTag.adjacency.byte :: (encodeText entity ++ encodeText relationship)
  | typeIndex typeName guid => KeyTag.typeIndex.byte :: (encodeText typeName ++ encodeText guid)
  | metadata name => KeyTag.metadata.byte :: encodeText name

/-- The bytes that all keys of a kind start with whose first field is a given text. -/
def scanStart (tag : KeyTag) (field : String) : Bytes := tag.byte :: encodeText field

end StorageKey

/-! ## Reading keys -/

/-- A byte string that is read from the start, and how far it has been read. -/
structure KeyReader where
  /-- The whole byte string. -/
  data : Bytes
  /-- The number of bytes read. -/
  position : Nat
  deriving DecidableEq

namespace KeyReader

/-- A byte string of which nothing has been read. -/
def new (data : Bytes) : KeyReader := ⟨data, 0⟩

/-- The bytes that have not been read. -/
def remaining (reader : KeyReader) : Bytes := reader.data.drop reader.position

/-- The reader after some more bytes. -/
def advance (reader : KeyReader) (count : Nat) : KeyReader :=
  { reader with position := reader.position + count }

/-- Read a byte. A failing read, here and below, leaves the reader as it was. -/
def readByte (reader : KeyReader) : Option UInt8 × KeyReader :=
  match reader.remaining with
  | [] => (none, reader)
  | byte :: _ => (some byte, reader.advance 1)

/-- Read a time. -/
def readTime (reader : KeyReader) : Option Int64 × KeyReader :=
  let bytes := reader.remaining.take 8
  if bytes.length < 8 then (none, reader)
  else
    (some (UInt64.ofNat (ofBigEndian bytes) ^^^ 0x8000000000000000).toInt64, reader.advance 8)

/-- Read a text with its length in front. -/
def readText (reader : KeyReader) : Option String × KeyReader :=
  let lengthBytes := reader.remaining.take 2
  let length := ofBigEndian lengthBytes
  let bytes := (reader.remaining.drop 2).take length
  if lengthBytes.length < 2 ∨ bytes.length < length then (none, reader)
  else
    match textOfBytes? bytes with
    | none => (none, reader)
    | some text => (some text, reader.advance (2 + length))

/-- Read an identity, which is a text. -/
def readGuid (reader : KeyReader) : Option String × KeyReader := reader.readText

end KeyReader

end MetadataGraph
