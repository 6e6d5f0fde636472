import Mathlib.Tactic.Ring
import MetadataGraph.Store.Key

/-!
# Storage keys

A key is a byte for its kind and the fields of that kind one after the other. The length that stands
in front of a text has sixteen bits, so that a text of 65536 bytes or more is taken for a shorter
one. We prove:

* `ofBigEndian_bigEndian`: a number in so many bytes keeps its lowest bits;
* `KeyReader.reads_iff`: fields are read back in their order if and only if the texts among them
  fit;
* `StorageKey.encode_inj`: keys of one text are told apart, and keys of two texts if the first fits;
* `StorageKey.faithful`: these together, and that a scan finds the keys of one first text.
-/

namespace MetadataGraph

/-! ## Numbers -/

@[simp]
theorem length_bigEndian (count n : Nat) : (bigEndian count n).length = count := by
  induction count with
  | zero => rfl
  | succ count ih => rw [bigEndian, List.length_cons, ih]

/-- The first byte counts for as much as there are numbers in the others. -/
theorem ofBigEndian_cons (byte : UInt8) (bytes : Bytes) :
    ofBigEndian (byte :: bytes) = byte.toNat * 256 ^ bytes.length + ofBigEndian bytes := by
  have hfold (bytes : Bytes) (start : Nat) :
      bytes.foldl (fun n byte => n * 256 + byte.toNat) start =
        start * 256 ^ bytes.length + ofBigEndian bytes := by
    unfold ofBigEndian
    induction bytes generalizing start with
    | nil => simp
    | cons next rest ih =>
      rw [List.foldl_cons, List.foldl_cons, ih, ih (0 * 256 + next.toNat), List.length_cons]
      ring
  rw [ofBigEndian, List.foldl_cons, hfold, Nat.zero_mul, Nat.zero_add]

/-- A number in so many bytes keeps its lowest bits. -/
theorem ofBigEndian_bigEndian (count n : Nat) :
    ofBigEndian (bigEndian count n) = n % 256 ^ count := by
  induction count with
  | zero => simp [bigEndian, ofBigEndian, Nat.mod_one]
  | succ count ih =>
    have hbyte : (UInt8.ofNat (n >>> (8 * count))).toNat = n / 256 ^ count % 256 := by
      rw [UInt8.toNat_ofNat', Nat.shiftRight_eq_div_pow, Nat.pow_mul]
    rw [bigEndian, ofBigEndian_cons, length_bigEndian, ih, hbyte, pow_succ, Nat.mod_mul]
    ring

/-- So many bytes stand for a number below so many powers of 256. -/
theorem ofBigEndian_lt (bytes : Bytes) : ofBigEndian bytes < 256 ^ bytes.length := by
  induction bytes with
  | nil => decide
  | cons byte bytes ih =>
    have hbyte : byte.toNat < 256 := byte.toNat_lt
    calc ofBigEndian (byte :: bytes)
      _ = byte.toNat * 256 ^ bytes.length + ofBigEndian bytes := ofBigEndian_cons byte bytes
      _ < byte.toNat * 256 ^ bytes.length + 256 ^ bytes.length := Nat.add_lt_add_left ih _
      _ = (byte.toNat + 1) * 256 ^ bytes.length := (Nat.succ_mul _ _).symm
      _ ≤ 256 * 256 ^ bytes.length := Nat.mul_le_mul_right _ hbyte
      _ = 256 ^ (byte :: bytes).length := (Nat.pow_succ' ..).symm

theorem length_encodeTime (micros : Int64) : (encodeTime micros).length = 8 := length_bigEndian 8 _

/-- All bits of a time are kept. -/
theorem ofBigEndian_encodeTime (micros : Int64) :
    ofBigEndian (encodeTime micros) = (micros.toUInt64 ^^^ 0x8000000000000000).toNat := by
  rw [encodeTime, ofBigEndian_bigEndian]
  exact Nat.mod_eq_of_lt (UInt64.toNat_lt _)

theorem encodeTime_injective {micros later : Int64} (h : encodeTime micros = encodeTime later) :
    micros = later := by
  have hsame := congrArg ofBigEndian h
  rw [ofBigEndian_encodeTime, ofBigEndian_encodeTime] at hsame
  have hbits : micros.toUInt64 = later.toUInt64 :=
    (UInt64.xor_left_inj _).mp (UInt64.toNat_inj.mp hsame)
  cases micros
  cases later
  exact congrArg Int64.ofUInt64 hbits

/-! ## Texts -/

theorem length_textBytes (text : String) : (textBytes text).length = text.utf8ByteSize := rfl

/-- Bytes are those of the text that they stand for. -/
theorem textOfBytes?_eq_some_iff {bytes : Bytes} {text : String} :
    textOfBytes? bytes = some text ↔ textBytes text = bytes := by
  unfold textOfBytes? String.fromUTF8?
  constructor
  · intro h
    split at h
    · cases h
      rfl
    · cases h
  · rintro rfl
    exact (dif_pos text.isValidUTF8).trans rfl

theorem textBytes_injective {text other : String} (h : textBytes text = textBytes other) :
    text = other := by
  have hread := textOfBytes?_eq_some_iff.mpr h
  rw [textOfBytes?_eq_some_iff.mpr rfl] at hread
  exact (Option.some.inj hread).symm

/-- The length of the text fits in the sixteen bits that stand in front of it. -/
def FitsKey (text : String) : Prop := text.utf8ByteSize < 65536

instance (text : String) : Decidable (FitsKey text) := inferInstanceAs (Decidable (_ < _))

/-- The length of a text that fits can be read from the bytes in front of it. -/
theorem ofBigEndian_length (text : String) :
    ofBigEndian (bigEndian 2 (textBytes text).length) = text.utf8ByteSize % 65536 :=
  ofBigEndian_bigEndian 2 _

/-- The two bytes in front of a text, and what comes after them. -/
theorem take_drop_encodeText (text : String) (rest : Bytes) :
    (encodeText text ++ rest).take 2 = bigEndian 2 (textBytes text).length ∧
      (encodeText text ++ rest).drop 2 = textBytes text ++ rest := by
  rw [encodeText, List.append_assoc]
  exact ⟨List.take_left' (length_bigEndian 2 _), List.drop_left' (length_bigEndian 2 _)⟩

theorem length_encodeText (text : String) :
    (encodeText text).length = 2 + text.utf8ByteSize := by
  rw [encodeText, List.length_append, length_bigEndian, length_textBytes]

theorem encodeText_injective {text other : String} (h : encodeText text = encodeText other) :
    text = other :=
  textBytes_injective (List.append_inj h (by simp)).2

/-- Texts that fit are told apart whatever follows them. -/
theorem encodeText_append_inj {text other : String} {rest others : Bytes} (hfits : FitsKey text)
    (hfits' : FitsKey other) (h : encodeText text ++ rest = encodeText other ++ others) :
    text = other ∧ rest = others := by
  rw [encodeText, encodeText, List.append_assoc, List.append_assoc] at h
  obtain ⟨hlength, hbytes⟩ := List.append_inj h (by simp)
  -- the lengths in front are those of the texts
  have hsame := congrArg ofBigEndian hlength
  rw [ofBigEndian_length, ofBigEndian_length, Nat.mod_eq_of_lt hfits, Nat.mod_eq_of_lt hfits']
    at hsame
  obtain ⟨htext, hrest⟩ := List.append_inj hbytes hsame
  exact ⟨textBytes_injective htext, hrest⟩

/-! ## Reading -/

namespace KeyReader

variable {reader next : KeyReader} {rest : Bytes}

/-- What is left after bytes that are there is what follows them. -/
theorem remaining_advance {front : Bytes} (h : reader.remaining = front ++ rest) {count : Nat}
    (hcount : front.length = count) : (reader.advance count).remaining = rest := by
  change reader.data.drop (reader.position + count) = rest
  rw [← List.drop_drop, ← remaining, h, ← hcount]
  exact List.drop_left

theorem remaining_advance_text {text : String} (h : reader.remaining = encodeText text ++ rest) :
    (reader.advance (2 + text.utf8ByteSize)).remaining = rest :=
  remaining_advance h (length_encodeText text)

theorem readByte_of_remaining {byte : UInt8} (h : reader.remaining = byte :: rest) :
    reader.readByte = (some byte, reader.advance 1) := by
  rw [readByte, h]

/-- A time is read back. -/
theorem readTime_of_remaining {micros : Int64} (h : reader.remaining = encodeTime micros ++ rest) :
    reader.readTime = (some micros, reader.advance 8) := by
  have htake : reader.remaining.take 8 = encodeTime micros := by
    rw [h]
    exact List.take_left' (length_encodeTime micros)
  rw [readTime, htake, length_encodeTime, if_neg (by decide), ofBigEndian_encodeTime,
    UInt64.ofNat_toNat]
  -- the sign is flipped a second time
  rw [UInt64.xor_assoc, UInt64.xor_self, UInt64.xor_zero]
  rfl

/-- The bytes of a text that fits are those that its length in front names. -/
theorem readText_of_remaining {text : String} (h : reader.remaining = encodeText text ++ rest)
    (hfits : FitsKey text) :
    reader.readText = (some text, reader.advance (2 + text.utf8ByteSize)) := by
  obtain ⟨htake, hdrop⟩ := take_drop_encodeText text rest
  have hlength : ofBigEndian (reader.remaining.take 2) = text.utf8ByteSize := by
    rw [h, htake, ofBigEndian_length, Nat.mod_eq_of_lt hfits]
  have hbytes : (reader.remaining.drop 2).take text.utf8ByteSize = textBytes text := by
    rw [h, hdrop]
    exact List.take_left' (length_textBytes text)
  have htwo : (reader.remaining.take 2).length = 2 := by
    rw [h, htake, length_bigEndian]
  simp only [readText, hlength, hbytes, htwo, length_textBytes, Nat.lt_irrefl, or_self, if_false,
    textOfBytes?_eq_some_iff.mpr rfl]

/-- A text is not read from bytes that start with the length of a shorter one. -/
theorem fitsKey_of_readText {text : String} (h : reader.remaining = encodeText text ++ rest)
    (hread : reader.readText = (some text, next)) : FitsKey text := by
  obtain ⟨htake, -⟩ := take_drop_encodeText text rest
  have hlength : ofBigEndian (reader.remaining.take 2) = text.utf8ByteSize % 65536 := by
    rw [h, htake, ofBigEndian_length]
  simp only [readText, hlength] at hread
  split at hread
  · cases hread
  · split at hread
    · cases hread
    next read hbytes =>
      cases hread
      have hsame := congrArg List.length (textOfBytes?_eq_some_iff.mp hbytes)
      rw [length_textBytes, List.length_take] at hsame
      unfold FitsKey
      omega

end KeyReader

/-! ## Fields -/

/-- A field of a key. -/
inductive KeyField where
  | text (read : String)
  | time (micros : Int64)
  deriving DecidableEq

/-- The bytes of a field. -/
def KeyField.encode : KeyField → Bytes
  | text read => encodeText read
  | time micros => encodeTime micros

/-- The field is not a text, or a text that fits. -/
def KeyField.Fits : KeyField → Prop
  | text read => FitsKey read
  | time _ => True

/-- Reading fields of these kinds one after the other gives these. -/
inductive KeyReader.Reads : KeyReader → List KeyField → KeyReader → Prop where
  | done {reader} : Reads reader [] reader
  | text {reader next last text fields} (read : reader.readText = (some text, next))
    (later : Reads next fields last) : Reads reader (.text text :: fields) last
  | time {reader next last micros fields} (read : reader.readTime = (some micros, next))
    (later : Reads next fields last) : Reads reader (.time micros :: fields) last

/-- Fields are read back in their order if and only if the texts among them fit. -/
theorem KeyReader.reads_iff {reader : KeyReader} {fields : List KeyField}
    (h : reader.remaining = fields.flatMap KeyField.encode) :
    (∃ last, reader.Reads fields last ∧ last.remaining = []) ↔ ∀ field ∈ fields, field.Fits := by
  -- the reader moves on with the fields, whose bytes are what is left to it
  induction fields generalizing reader with
  | nil =>
    exact ⟨fun _ _ hmem => absurd hmem List.not_mem_nil, fun _ => ⟨reader, .done, h⟩⟩
  | cons field fields ih =>
    rw [List.flatMap_cons] at h
    rw [List.forall_mem_cons]
    cases field with
    | text text =>
      constructor
      · rintro ⟨last, hreads, hlast⟩
        cases hreads with
        | text hread hlater =>
          have hfits := fitsKey_of_readText h hread
          rw [readText_of_remaining h hfits] at hread
          cases hread
          have hrest := remaining_advance_text h
          exact ⟨hfits, (ih hrest).mp ⟨last, hlater, hlast⟩⟩
      · rintro ⟨hfits, hrest⟩
        obtain ⟨last, hlater, hlast⟩ := (ih (remaining_advance_text h)).mpr hrest
        exact ⟨last, .text (readText_of_remaining h hfits) hlater, hlast⟩
    | time micros =>
      have hread := readTime_of_remaining h
      have hrest := remaining_advance h (length_encodeTime micros)
      constructor
      · rintro ⟨last, hreads, hlast⟩
        cases hreads with
        | time hread' hlater =>
          rw [hread] at hread'
          cases hread'
          exact ⟨trivial, (ih hrest).mp ⟨last, hlater, hlast⟩⟩
      · rintro ⟨-, hfits⟩
        obtain ⟨last, hlater, hlast⟩ := (ih hrest).mpr hfits
        exact ⟨last, .time hread hlater, hlast⟩

/-! ## Keys -/

theorem KeyTag.byte_injective {tag other : KeyTag} (h : tag.byte = other.byte) : tag = other := by
  revert h
  cases tag <;> cases other <;> decide

namespace StorageKey

/-- The kind of a key. -/
def tag : StorageKey → KeyTag
  | revision _ _ => .revision
  | latest _ => .latest
  | adjacency _ _ => .adjacency
  | typeIndex _ _ => .typeIndex
  | metadata _ => .metadata

/-- The text that a key starts with. -/
def leading : StorageKey → String
  | revision guid _ => guid
  | latest guid => guid
  | adjacency entity _ => entity
  | typeIndex typeName _ => typeName
  | metadata name => name

/-- The fields behind the first text. -/
def following : StorageKey → List KeyField
  | revision _ micros => [.time micros]
  | adjacency _ relationship => [.text relationship]
  | typeIndex _ guid => [.text guid]
  | latest _ | metadata _ => []

/-- The fields of a key, in their order. -/
def fields (key : StorageKey) : List KeyField := .text key.leading :: key.following

theorem encode_eq (key : StorageKey) :
    key.encode = key.tag.byte :: key.fields.flatMap KeyField.encode := by
  cases key <;> simp [encode, tag, fields, leading, following, KeyField.encode]

theorem encode_eq_leading (key : StorageKey) :
    key.encode =
      key.tag.byte :: (encodeText key.leading ++ key.following.flatMap KeyField.encode) :=
  key.encode_eq

/-! ### Reading keys -/

/-- Reading a key gives its first byte and its fields, and nothing is left. -/
def ReadsBack (key : StorageKey) : Prop :=
  ∃ first last, (KeyReader.new key.encode).readByte = (some key.tag.byte, first) ∧
    first.Reads key.fields last ∧ last.remaining = []

theorem readsBack_iff {key : StorageKey} : key.ReadsBack ↔ ∀ field ∈ key.fields, field.Fits := by
  have hdata : (KeyReader.new key.encode).remaining =
      [key.tag.byte] ++ key.fields.flatMap KeyField.encode := key.encode_eq
  have hbyte := KeyReader.readByte_of_remaining hdata
  have hreads := KeyReader.reads_iff (KeyReader.remaining_advance hdata rfl)
  constructor
  · rintro ⟨first, last, hfirst, hlast⟩
    rw [hbyte] at hfirst
    cases hfirst
    exact hreads.mp ⟨last, hlast⟩
  · intro hfits
    obtain ⟨last, hlast⟩ := hreads.mpr hfits
    exact ⟨_, last, hbyte, hlast⟩

/-! ### Telling keys apart -/

/-- What follows the first text has the same length in all keys of this kind. -/
def HasOneText (key : StorageKey) : Prop := key.tag ≠ .adjacency ∧ key.tag ≠ .typeIndex

/-- What follows the first text is told apart in keys of one kind. -/
theorem following_inj {key other : StorageKey} (htag : key.tag = other.tag)
    (h : key.following.flatMap KeyField.encode = other.following.flatMap KeyField.encode) :
    key.following = other.following := by
  cases key <;> cases other <;> simp_all [tag, following, KeyField.encode]
  · exact encodeTime_injective h
  · exact encodeText_injective h
  · exact encodeText_injective h

theorem ext_fields {key other : StorageKey} (htag : key.tag = other.tag)
    (hleading : key.leading = other.leading) (hfollowing : key.following = other.following) :
    key = other := by
  cases key <;> cases other <;> simp_all [tag, leading, following]

theorem HasOneText.length_following {key other : StorageKey} (hone : key.HasOneText)
    (htag : key.tag = other.tag) :
    (key.following.flatMap KeyField.encode).length =
      (other.following.flatMap KeyField.encode).length := by
  obtain ⟨hadjacency, htypeIndex⟩ := hone
  cases key <;> cases other <;>
    simp_all [tag, following, KeyField.encode, length_encodeTime]

/-- Keys are told apart if their first texts fit, or no text follows those. -/
theorem encode_inj {key other : StorageKey}
    (hfits : key.HasOneText ∨ FitsKey key.leading ∧ FitsKey other.leading)
    (h : key.encode = other.encode) : key = other := by
  rw [encode_eq_leading, encode_eq_leading] at h
  obtain ⟨hbyte, hfields⟩ := List.cons.inj h
  have htag := KeyTag.byte_injective hbyte
  obtain ⟨hleading, hfollowing⟩ : key.leading = other.leading ∧
      key.following.flatMap KeyField.encode = other.following.flatMap KeyField.encode := by
    obtain hone | ⟨hfits, hfits'⟩ := hfits
    · -- what follows has a fixed length, so that the text is all that stands in front of it
      obtain ⟨hleading, hfollowing⟩ := List.append_inj' hfields (hone.length_following htag)
      exact ⟨encodeText_injective hleading, hfollowing⟩
    · exact encodeText_append_inj hfits hfits' hfields
  exact ext_fields htag hleading (following_inj htag hfollowing)

/-! ### Scans -/

/-- A scan finds the keys of its kind that have its text in front. -/
theorem scanStart_prefix {key : StorageKey} {tag : KeyTag} {text : String} (htag : key.tag = tag)
    (hleading : key.leading = text) : scanStart tag text <+: key.encode := by
  subst htag hleading
  rw [encode_eq_leading, scanStart]
  exact ⟨_, rfl⟩

theorem leading_of_scanStart {key : StorageKey} {tag : KeyTag} {text : String}
    (hfits : FitsKey key.leading) (hfits' : FitsKey text)
    (h : scanStart tag text <+: key.encode) : key.tag = tag ∧ key.leading = text := by
  rw [encode_eq_leading, scanStart, List.cons_prefix_cons] at h
  obtain ⟨hbyte, rest, hrest⟩ := h
  exact ⟨(KeyTag.byte_injective hbyte).symm, (encodeText_append_inj hfits' hfits hrest).1.symm⟩

/-- A key is read back if and only if all its texts fit in the length in front of them. Keys are
told apart if their first texts fit or no text follows those. If the texts fit, a scan finds the
keys of its kind that have its text in front and no others. -/
theorem faithful (key : StorageKey) :
    (key.ReadsBack ↔ ∀ field ∈ key.fields, field.Fits) ∧
      (∀ other : StorageKey, key.HasOneText ∨ FitsKey key.leading ∧ FitsKey other.leading →
        (key.encode = other.encode ↔ key = other)) ∧
      (FitsKey key.leading → ∀ tag text, FitsKey text →
        (scanStart tag text <+: key.encode ↔ key.tag = tag ∧ key.leading = text)) := by
  refine ⟨readsBack_iff, fun other hfits => ⟨encode_inj hfits, congrArg encode⟩, ?_⟩
  intro hfits tag text hfits'
  exact ⟨leading_of_scanStart hfits hfits', fun h => scanStart_prefix h.1 h.2⟩

theorem faithful_revision :
    (revision "a" 7).HasOneText ∧ FitsKey (revision "a" 7).leading ∧ FitsKey "aa" ∧
      ((revision "a" 7).encode = (revision "aa" 7).encode ↔ revision "a" 7 = revision "aa" 7) ∧
      (scanStart .revision "aa" <+: (revision "a" 7).encode ↔
        KeyTag.revision = .revision ∧ "a" = "aa") := by
  have hone : (revision "a" 7).HasOneText := ⟨by decide, by decide⟩
  have hfits : FitsKey "a" := by decide
  have hfits' : FitsKey "aa" := by decide
  obtain ⟨-, hdistinct, hscan⟩ := faithful (revision "a" 7)
  exact ⟨hone, hfits, hfits', hdistinct (revision "aa" 7) (.inl hone),
    hscan hfits .revision "aa" hfits'⟩

/-! ### Texts that do not fit -/

/-- So many times the same letter. -/
def repeated (count : Nat) : String := String.ofList (List.replicate count 'a')

theorem textBytes_repeated (count : Nat) :
    textBytes (repeated count) = List.replicate count 97 := by
  have hletter : String.utf8EncodeChar 'a' = [97] := by decide
  change (repeated count).toByteArray.data.toList = _
  rw [repeated, String.toByteArray_ofList, List.utf8Encode, List.flatMap_replicate, hletter]
  simp

theorem utf8ByteSize_repeated (count : Nat) : (repeated count).utf8ByteSize = count := by
  rw [← length_textBytes, textBytes_repeated, List.length_replicate]

theorem repeated_injective {count other : Nat} (h : repeated count = repeated other) :
    count = other := by
  rw [← utf8ByteSize_repeated count, h, utf8ByteSize_repeated]

theorem encodeText_repeated (count : Nat) :
    encodeText (repeated count) = bigEndian 2 count ++ List.replicate count 97 := by
  rw [encodeText, textBytes_repeated, List.length_replicate]

/-- The key of a long identity is not read back, two relationships at entities stand under one key,
and a scan for one identity finds a revision of another. -/
theorem confused_repeated :
    ¬(revision (repeated 65536) 7).ReadsBack ∧
      (adjacency (repeated 65537) (repeated 24929) ≠ adjacency (repeated 1) (repeated 90465) ∧
        (adjacency (repeated 65537) (repeated 24929)).encode =
          (adjacency (repeated 1) (repeated 90465)).encode) ∧
      repeated 65537 ≠ repeated 1 ∧
      scanStart .revision (repeated 1) <+: (revision (repeated 65537) 7).encode := by
  have hlong : repeated 65537 ≠ repeated 1 := fun h => absurd (repeated_injective h) (by decide)
  -- the long text says of itself that it has one letter
  have hone : bigEndian 2 65537 = bigEndian 2 1 := by decide
  refine ⟨?_, ⟨?_, ?_⟩, hlong, ?_⟩
  · intro hreads
    have hfits : FitsKey (repeated 65536) := readsBack_iff.mp hreads _ List.mem_cons_self
    rw [FitsKey, utf8ByteSize_repeated] at hfits
    exact absurd hfits (by decide)
  · intro h
    exact hlong (StorageKey.adjacency.inj h).1
  · -- both lengths of the relationships are two letters
    have hletters : bigEndian 2 24929 = List.replicate 2 97 := by decide
    have hletters' : bigEndian 2 90465 = List.replicate 2 97 := by decide
    simp only [encode, encodeText_repeated, hone, hletters, hletters', List.append_assoc,
      List.replicate_append_replicate]
  · rw [scanStart, encode, encodeText_repeated, encodeText_repeated, hone, List.append_assoc,
      List.cons_prefix_cons, List.prefix_append_right_inj]
    have hsplit : List.replicate 65537 (97 : UInt8) =
        List.replicate 1 97 ++ List.replicate 65536 97 := by
      rw [List.replicate_append_replicate]
    rw [hsplit, List.append_assoc]
    exact ⟨rfl, List.prefix_append _ _⟩

end StorageKey

end MetadataGraph
