import Mathlib.Data.List.Forall2
import MetadataGraph.Proofs.Store.Key

/-!
# Reading arbitrary bytes

A reader is not only given keys. Whatever bytes it reads, a call either finds the bytes of a field
in front of what has not been read, and moves behind them, or it fails and moves nowhere. We prove:

* `bigEndian_ofBigEndian`: bytes are those of the number that they stand for;
* `KeyReader.read_step`: what a single call does, and that it fails only if no field of its kind is
  in front;
* `KeyReader.readAll_eq`: what a sequence of calls does, of which some may fail;
* `KeyReader.readAll_exact`: both for the bytes that a reader starts with, and which of them are
  read as a byte, a text and a time with nothing left.
-/

namespace MetadataGraph

/-! ## Numbers -/

/-- The first byte is the number without the others. -/
theorem ofBigEndian_cons_div (byte : UInt8) (bytes : Bytes) :
    ofBigEndian (byte :: bytes) / 256 ^ bytes.length = byte.toNat := by
  rw [ofBigEndian_cons, Nat.mul_comm, Nat.mul_add_div (Nat.pow_pos (by decide)),
    Nat.div_eq_of_lt (ofBigEndian_lt bytes), Nat.add_zero]

/-- The other bytes are what is left of the number. -/
theorem ofBigEndian_cons_mod (byte : UInt8) (bytes : Bytes) :
    ofBigEndian (byte :: bytes) % 256 ^ bytes.length = ofBigEndian bytes := by
  rw [ofBigEndian_cons, Nat.mul_comm, Nat.mul_add_mod, Nat.mod_eq_of_lt (ofBigEndian_lt bytes)]

/-- Bytes of one length stand for different numbers. -/
theorem ofBigEndian_inj {bytes others : Bytes} (hlength : bytes.length = others.length)
    (h : ofBigEndian bytes = ofBigEndian others) : bytes = others := by
  induction bytes generalizing others with
  | nil => exact (List.eq_nil_of_length_eq_zero hlength.symm).symm
  | cons byte bytes ih =>
    obtain _ | ⟨other, others⟩ := others
    · cases hlength
    have hlength : bytes.length = others.length := Nat.succ.inj hlength
    have hbyte : byte.toNat = other.toNat := by
      rw [← ofBigEndian_cons_div byte bytes, h, hlength, ofBigEndian_cons_div]
    have hrest : ofBigEndian bytes = ofBigEndian others := by
      rw [← ofBigEndian_cons_mod byte bytes, h, hlength, ofBigEndian_cons_mod]
    rw [UInt8.toNat_inj.mp hbyte, ih hlength hrest]

/-- Bytes are those of the number that they stand for. -/
theorem bigEndian_ofBigEndian (bytes : Bytes) :
    bigEndian bytes.length (ofBigEndian bytes) = bytes := by
  apply ofBigEndian_inj (length_bigEndian _ _)
  rw [ofBigEndian_bigEndian, Nat.mod_eq_of_lt (ofBigEndian_lt bytes)]

/-- Eight bytes are those of the time that they stand for. -/
theorem encodeTime_of_bytes {bytes : Bytes} (h : bytes.length = 8) :
    encodeTime (UInt64.ofNat (ofBigEndian bytes) ^^^ 0x8000000000000000).toInt64 = bytes := by
  have hlt : ofBigEndian bytes < 2 ^ 64 := by
    simpa [h] using ofBigEndian_lt bytes
  -- the sign is flipped a second time
  rw [encodeTime, UInt64.toUInt64_toInt64, UInt64.xor_assoc, UInt64.xor_self, UInt64.xor_zero,
    UInt64.toNat_ofNat', Nat.mod_eq_of_lt hlt, ← h, bigEndian_ofBigEndian]

/-- Two bytes and as many as they count are those of the text that the latter stand for. -/
theorem encodeText_of_bytes {text : String} {count : Bytes} (htwo : count.length = 2)
    (hcount : (textBytes text).length = ofBigEndian count) :
    FitsKey text ∧ encodeText text = count ++ textBytes text := by
  refine ⟨?_, ?_⟩
  · rw [FitsKey, ← length_textBytes, hcount]
    simpa [htwo] using ofBigEndian_lt count
  · rw [encodeText, hcount, ← htwo, bigEndian_ofBigEndian]

/-! ## Calls -/

/-- A call of a reader, by what it is asked for. -/
inductive KeyCall where
  | byte
  | time
  | text
  | guid
  deriving DecidableEq

/-- What a call gives. -/
inductive KeyPart where
  | byte (read : UInt8)
  | time (micros : Int64)
  | text (read : String)
  | guid (read : String)
  deriving DecidableEq

namespace KeyPart

/-- The call that a part is given by. -/
def call : KeyPart → KeyCall
  | byte _ => .byte
  | time _ => .time
  | text _ => .text
  | guid _ => .guid

/-- The bytes of a part, as they stand in a key. -/
def encode : KeyPart → Bytes
  | byte read => [read]
  | time micros => encodeTime micros
  | text read | guid read => encodeText read

/-- The part is not a text, or a text of which the length can stand in front of it. -/
def Fits : KeyPart → Prop
  | byte _ | time _ => True
  | text read | guid read => FitsKey read

/-- The bytes of the parts that some calls gave, of which others failed. -/
def encodeAll (answers : List (Option KeyPart)) : Bytes :=
  answers.flatMap fun answer => answer.elim [] encode

theorem encodeAll_given (part : KeyPart) (answers : List (Option KeyPart)) :
    encodeAll (some part :: answers) = part.encode ++ encodeAll answers := List.flatMap_cons

theorem encodeAll_failed (answers : List (Option KeyPart)) :
    encodeAll (none :: answers) = encodeAll answers := List.flatMap_cons

end KeyPart

namespace KeyReader

variable {reader next : KeyReader} {call : KeyCall} {part : KeyPart}

/-- Make a call. -/
def read (reader : KeyReader) : KeyCall → Option KeyPart × KeyReader
  | .byte => reader.readByte.map (Option.map .byte) id
  | .time => reader.readTime.map (Option.map .time) id
  | .text => reader.readText.map (Option.map .text) id
  | .guid => reader.readGuid.map (Option.map .guid) id

/-- Make some calls one after the other, also after one that failed. -/
def readAll (reader : KeyReader) : List KeyCall → List (Option KeyPart) × KeyReader
  | [] => ([], reader)
  | call :: calls =>
    let (answer, next) := reader.read call
    let (answers, last) := next.readAll calls
    (answer :: answers, last)

/-- What a call must do. -/
inductive Step (reader : KeyReader) (call : KeyCall) : Option KeyPart × KeyReader → Prop where
  /-- Give the part that is in front, and move behind its bytes. -/
  | given {part : KeyPart} (hcall : part.call = call) (hfits : part.Fits)
      (hfront : part.encode <+: reader.remaining) :
      Step reader call (some part, reader.advance part.encode.length)
  /-- Fail where no such part is in front, and move nowhere. -/
  | failed (hnone : ∀ part : KeyPart, part.call = call → part.Fits →
      ¬part.encode <+: reader.remaining) : Step reader call (none, reader)

/-! ### Failing calls -/

theorem readByte_failed (h : reader.readByte = (none, next)) : next = reader := by
  unfold readByte at h
  split at h <;> cases h
  rfl

theorem readTime_failed (h : reader.readTime = (none, next)) : next = reader := by
  unfold readTime at h
  simp only at h
  split at h <;> cases h
  rfl

theorem readText_failed (h : reader.readText = (none, next)) : next = reader := by
  unfold readText at h
  simp only at h
  split at h
  · cases h
    rfl
  · split at h <;> cases h
    rfl

/-- A call fails if what it is made of fails. -/
theorem map_eq_failed_iff {α : Type} {make : α → KeyPart} {answer : Option α × KeyReader} :
    answer.map (Option.map make) id = (none, next) ↔ answer = (none, next) := by
  obtain ⟨_ | value, last⟩ := answer <;> simp

/-- A failing call moves nowhere. -/
theorem read_failed (h : reader.read call = (none, next)) : next = reader := by
  cases call <;> rw [read, map_eq_failed_iff] at h
  case byte => exact readByte_failed h
  case time => exact readTime_failed h
  case text | guid => exact readText_failed h

/-! ### Successful calls -/

/-- A byte that is read is in front. -/
theorem readByte_given {byte : UInt8} (h : reader.readByte = (some byte, next)) :
    [byte] <+: reader.remaining ∧ next = reader.advance 1 := by
  unfold readByte at h
  split at h
  · cases h
  · rename_i hremaining
    cases h
    exact ⟨hremaining ▸ ⟨_, rfl⟩, rfl⟩

/-- The bytes of a time that is read are in front. -/
theorem readTime_given {micros : Int64} (h : reader.readTime = (some micros, next)) :
    encodeTime micros <+: reader.remaining ∧ next = reader.advance 8 := by
  unfold readTime at h
  simp only at h
  split at h
  · cases h
  · rename_i hlength
    cases h
    have htaken : (reader.remaining.take 8).length = 8 := by
      rw [List.length_take] at hlength ⊢
      omega
    rw [encodeTime_of_bytes htaken]
    exact ⟨List.take_prefix 8 _, rfl⟩

/-- The bytes of a text that is read are in front, with its length. -/
theorem readText_given {text : String} (h : reader.readText = (some text, next)) :
    FitsKey text ∧ encodeText text <+: reader.remaining ∧
      next = reader.advance (2 + text.utf8ByteSize) := by
  unfold readText at h
  simp only at h
  split at h
  · cases h
  · rename_i hlength
    split at h
    · cases h
    · rename_i hbytes
      cases h
      obtain ⟨htwo, hall⟩ := not_or.mp hlength
      have htext := textOfBytes?_eq_some_iff.mp hbytes
      have htwo : (reader.remaining.take 2).length = 2 := by
        rw [List.length_take] at htwo ⊢
        omega
      -- the text is not shorter than its count, since as many bytes were there
      have hcount : (textBytes text).length = ofBigEndian (reader.remaining.take 2) := by
        rw [htext]
        rw [List.length_take] at hall ⊢
        omega
      obtain ⟨hfits, hencode⟩ := encodeText_of_bytes htwo hcount
      refine ⟨hfits, ?_, ?_⟩
      · rw [hencode, htext, ← List.take_add]
        exact List.take_prefix _ _
      · rw [← length_textBytes, hcount]

/-- A call gives what it is made of, as a part. -/
theorem map_eq_given_iff {α : Type} {make : α → KeyPart} {answer : Option α × KeyReader} :
    answer.map (Option.map make) id = (some part, next) ↔
      ∃ value, make value = part ∧ answer = (some value, next) := by
  obtain ⟨_ | value, last⟩ := answer <;> simp

/-- The bytes of a part that is given are in front, and the reader moves behind them. -/
theorem read_given (h : reader.read call = (some part, next)) :
    part.call = call ∧ part.Fits ∧ part.encode <+: reader.remaining ∧
      next = reader.advance part.encode.length := by
  cases call <;> rw [read, map_eq_given_iff] at h <;> obtain ⟨value, rfl, h⟩ := h
  case byte => exact ⟨rfl, trivial, readByte_given h⟩
  case time =>
    obtain ⟨hfront, hnext⟩ := readTime_given h
    exact ⟨rfl, trivial, hfront, (length_encodeTime value).symm ▸ hnext⟩
  case text | guid =>
    obtain ⟨hfits, hfront, hnext⟩ := readText_given h
    exact ⟨rfl, hfits, hfront, (length_encodeText value).symm ▸ hnext⟩

/-- A part that is in front is given. -/
theorem read_of_front (hfits : part.Fits) (h : part.encode <+: reader.remaining) :
    reader.read part.call = (some part, reader.advance part.encode.length) := by
  obtain ⟨rest, hrest⟩ := h
  cases part with
  | byte byte => exact map_eq_given_iff.mpr ⟨byte, rfl, readByte_of_remaining hrest.symm⟩
  | time micros =>
    rw [KeyPart.encode, length_encodeTime]
    exact map_eq_given_iff.mpr ⟨micros, rfl, readTime_of_remaining hrest.symm⟩
  | text text | guid text =>
    rw [KeyPart.encode, length_encodeText]
    exact map_eq_given_iff.mpr ⟨text, rfl, readText_of_remaining hrest.symm hfits⟩

/-- Every call does what it must. -/
theorem read_step (reader : KeyReader) (call : KeyCall) : reader.Step call (reader.read call) := by
  match hread : reader.read call with
  | (some part, next) =>
    obtain ⟨hcall, hfits, hfront, rfl⟩ := read_given hread
    exact .given hcall hfits hfront
  | (none, next) =>
    cases read_failed hread
    -- had such a part been in front, the call would have given it
    refine .failed fun part hcall hfits hfront => ?_
    rw [← hcall, read_of_front hfits hfront] at hread
    cases hread

/-- A call leaves a reader within its bytes. -/
theorem position_read_le (h : reader.position ≤ reader.data.length) (call : KeyCall) :
    (reader.read call).2.position ≤ reader.data.length := by
  have hstep := reader.read_step call
  generalize reader.read call = result at hstep ⊢
  cases hstep with
  | given _ _ hfront =>
    have hlength := hfront.length_le
    rw [remaining, List.length_drop] at hlength
    simp only [advance]
    omega
  | failed _ => exact h

/-! ### Sequences of calls -/

theorem advance_advance (reader : KeyReader) (count more : Nat) :
    (reader.advance count).advance more = reader.advance (count + more) :=
  congrArg (KeyReader.mk reader.data) (Nat.add_assoc ..)

/-- A sequence of calls moves the reader behind the bytes of the parts that they gave, which were in
front one after the other. -/
theorem readAll_eq (reader : KeyReader) (calls : List KeyCall) :
    (reader.readAll calls).2 =
        reader.advance (KeyPart.encodeAll (reader.readAll calls).1).length ∧
      reader.remaining =
        KeyPart.encodeAll (reader.readAll calls).1 ++ (reader.readAll calls).2.remaining := by
  induction calls generalizing reader with
  | nil => exact ⟨rfl, rfl⟩
  | cons call calls ih =>
    have hstep := reader.read_step call
    rw [readAll]
    generalize reader.read call = result at hstep ⊢
    cases hstep with
    | @given part _ _ hfront =>
      obtain ⟨rest, hrest⟩ := hfront
      -- what the later calls start with is what is left behind this part
      obtain ⟨hlast, hremaining⟩ := ih (reader.advance part.encode.length)
      rw [remaining_advance hrest.symm rfl] at hremaining
      rw [KeyPart.encodeAll_given, List.length_append, List.append_assoc, ← hremaining, hrest]
      exact ⟨hlast.trans (advance_advance ..), rfl⟩
    | failed _ =>
      rw [KeyPart.encodeAll_failed]
      exact ih reader

/-- Each call of a sequence gives a part of its kind that fits, if it gives any. -/
theorem readAll_forall₂ (reader : KeyReader) (calls : List KeyCall) :
    List.Forall₂ (fun call answer => ∀ part ∈ answer, part.call = call ∧ part.Fits) calls
      (reader.readAll calls).1 := by
  induction calls generalizing reader with
  | nil => exact .nil
  | cons call calls ih =>
    have hstep := reader.read_step call
    rw [readAll]
    generalize reader.read call = result at hstep ⊢
    refine .cons (fun part hpart => ?_) (ih _)
    cases hstep with
    | given hcall hfits _ =>
      cases hpart
      exact ⟨hcall, hfits⟩
    | failed _ => cases hpart

/-- Parts that are in front one after the other are given by the calls for them. -/
theorem readAll_of_front {parts : List KeyPart} {rest : Bytes}
    (hfits : ∀ part ∈ parts, part.Fits)
    (h : reader.remaining = parts.flatMap KeyPart.encode ++ rest) :
    reader.readAll (parts.map KeyPart.call) =
      (parts.map some, reader.advance (parts.flatMap KeyPart.encode).length) := by
  induction parts generalizing reader with
  | nil => rfl
  | cons part parts ih =>
    obtain ⟨hpart, hparts⟩ := List.forall_mem_cons.mp hfits
    rw [List.flatMap_cons, List.append_assoc] at h
    rw [List.map_cons, readAll, read_of_front hpart ⟨_, h.symm⟩]
    simp only [ih hparts (remaining_advance h rfl)]
    rw [advance_advance, List.map_cons, List.flatMap_cons, List.length_append]

/-- Bytes are read as some parts, with nothing left, if and only if they are the bytes of those and
these fit. -/
theorem readAll_given_iff (data : Bytes) (parts : List KeyPart) :
    (∃ last, (new data).readAll (parts.map KeyPart.call) = (parts.map some, last) ∧
        last.remaining = []) ↔
      (∀ part ∈ parts, part.Fits) ∧ data = parts.flatMap KeyPart.encode := by
  have hencode : KeyPart.encodeAll (parts.map some) = parts.flatMap KeyPart.encode :=
    List.flatMap_map ..
  constructor
  · rintro ⟨last, hread, hlast⟩
    obtain ⟨-, hremaining⟩ := readAll_eq (new data) (parts.map KeyPart.call)
    have hfits := readAll_forall₂ (new data) (parts.map KeyPart.call)
    rw [hread] at hremaining hfits
    -- nothing is left, so the parts are all of the bytes
    rw [hlast, List.append_nil, hencode] at hremaining
    refine ⟨fun part hmem => ?_, hremaining⟩
    rw [List.forall₂_map_left_iff, List.forall₂_map_right_iff, List.forall₂_same] at hfits
    exact (hfits part hmem part rfl).2
  · rintro ⟨hfits, rfl⟩
    have hfront : (new (parts.flatMap KeyPart.encode)).remaining =
        parts.flatMap KeyPart.encode ++ [] := (List.append_nil _).symm
    exact ⟨_, readAll_of_front hfits hfront, remaining_advance hfront rfl⟩

/-- Whatever bytes are read and by whatever calls, the reader stays within them. It stands behind
the bytes of the parts that were given, and the bytes behind it are left. The next call gives the
part that is in front and moves behind its bytes, or there is none and the reader stays where it
is. Bytes are read as a byte, a text and a time with nothing left if and only if they are those of
these three and the text fits. -/
theorem readAll_exact (data : Bytes) (calls : List KeyCall) :
    let answers := ((new data).readAll calls).1
    let last := ((new data).readAll calls).2
    (last.data = data ∧ last.position ≤ data.length) ∧
      (last.position = (KeyPart.encodeAll answers).length ∧
        data = KeyPart.encodeAll answers ++ last.remaining) ∧
      (∀ call, last.Step call (last.read call) ∧
        (last.read call).2.position ≤ data.length) ∧
      ∀ kind text micros,
        (∃ final, (new data).readAll [.byte, .text, .time] =
            ([some (.byte kind), some (.text text), some (.time micros)], final) ∧
          final.remaining = []) ↔
        FitsKey text ∧ data = kind :: (encodeText text ++ encodeTime micros) := by
  intro answers last
  obtain ⟨hlast, hdata⟩ := readAll_eq (new data) calls
  have hposition : last.position = (KeyPart.encodeAll answers).length :=
    (congrArg KeyReader.position hlast).trans (Nat.zero_add _)
  have hsame : last.data = data := congrArg KeyReader.data hlast
  have hle : last.position ≤ last.data.length := by
    rw [hposition, hsame]
    exact (List.prefix_append ..).length_le.trans_eq (congrArg List.length hdata.symm)
  refine ⟨⟨hsame, hsame ▸ hle⟩, ⟨hposition, hdata⟩, fun call => ?_, fun kind text micros => ?_⟩
  · exact ⟨last.read_step call, hsame ▸ position_read_le hle call⟩
  · have hiff := readAll_given_iff data [.byte kind, .text text, .time micros]
    simpa [KeyPart.call, KeyPart.Fits, KeyPart.encode] using hiff

end KeyReader

end MetadataGraph
