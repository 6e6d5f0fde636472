import MetadataGraph.Proofs.Store.KeyReading

/-!
# Keys in the order of time

Byte strings are compared from the first byte on. The time at the end of a revision's key is written
so that this is the order of times, before 1970 and after, and so a scan of the revisions of one
identity runs through them by time. We prove:

* `lt_iff_ofBigEndian_lt`: byte strings of one length stand in the order of their numbers;
* `toNat_flipSign`: with its sign flipped, a time is a number that counts from the first time on;
* `encodeTime_lt_iff`: the bytes of times stand in the order of the times;
* `StorageKey.revision_sorted`: so do the keys of revisions, from which the times are read back.
-/

namespace MetadataGraph

/-! ## Numbers -/

/-- Numbers are compared by their quotients first, and by their remainders if these agree. -/
theorem mul_add_lt_mul_add_iff {n quotient other rest rests : Nat} (hrest : rest < n)
    (hrests : rests < n) :
    quotient * n + rest < other * n + rests ↔
      quotient < other ∨ quotient = other ∧ rest < rests := by
  -- a larger quotient is ahead by more than any remainder
  have hahead {less more : Nat} (hlt : less < more) : less * n + n ≤ more * n :=
    Nat.succ_mul less n ▸ Nat.mul_le_mul_right n (Nat.succ_le_of_lt hlt)
  rcases Nat.lt_trichotomy quotient other with hlt | rfl | hlt
  · have hle := hahead hlt
    omega
  · omega
  · have hle := hahead hlt
    omega

/-- Byte strings of one length stand in the order of their numbers. -/
theorem lt_iff_ofBigEndian_lt {bytes others : Bytes} (hlength : bytes.length = others.length) :
    bytes < others ↔ ofBigEndian bytes < ofBigEndian others := by
  induction bytes generalizing others with
  | nil =>
    cases List.eq_nil_of_length_eq_zero hlength.symm
    exact iff_of_false (List.lt_irrefl _) (Nat.lt_irrefl _)
  | cons byte bytes ih =>
    obtain _ | ⟨other, others⟩ := others
    · cases hlength
    have hlength : bytes.length = others.length := Nat.succ.inj hlength
    have hbytes := ofBigEndian_lt bytes
    have hothers := ofBigEndian_lt others
    rw [List.cons_lt_cons_iff, ih hlength, UInt8.lt_iff_toNat_lt, ← UInt8.toNat_inj,
      ofBigEndian_cons, ofBigEndian_cons, ← hlength]
    exact (mul_add_lt_mul_add_iff hbytes (hlength ▸ hothers)).symm

/-- What stands in front of both of two byte strings does not count. -/
theorem append_lt_append_iff (front : Bytes) {rest rests : Bytes} :
    front ++ rest < front ++ rests ↔ rest < rests := by
  induction front with
  | nil => rfl
  | cons byte front ih =>
    rw [List.cons_append, List.cons_append, List.cons_lt_cons_iff, ih]
    simp

/-- With its sign flipped, a time is a number that counts from the first time on. -/
theorem toNat_flipSign (micros : Int64) :
    ((micros.toUInt64 ^^^ 0x8000000000000000).toNat : Int) = micros.toInt + 2 ^ 63 := by
  have hlt := micros.toUInt64.toNat_lt
  have hint : micros.toInt = if 2 * micros.toUInt64.toNat < 2 ^ 64 then
      (micros.toUInt64.toNat : Int) else micros.toUInt64.toNat - 2 ^ 64 :=
    BitVec.toInt_eq_toNat_cond micros.toBitVec
  have hsign : (0x8000000000000000 : UInt64).toNat = 2 ^ 63 := rfl
  rw [UInt64.toNat_xor, hsign, hint]
  generalize micros.toUInt64.toNat = bits at hlt ⊢
  -- the lower bits stay, and the highest one is flipped
  have hlow : (bits ^^^ 2 ^ 63) % 2 ^ 63 = bits % 2 ^ 63 := by
    rw [Nat.xor_mod_two_pow, Nat.mod_self, Nat.xor_zero]
  have hhigh : (bits ^^^ 2 ^ 63) / 2 ^ 63 = bits / 2 ^ 63 ^^^ 1 := by
    rw [Nat.xor_div_two_pow, Nat.div_self (Nat.two_pow_pos 63)]
  obtain hzero | hone : bits / 2 ^ 63 = 0 ∨ bits / 2 ^ 63 = 1 := by omega
  · rw [hzero] at hhigh
    have hflipped : (bits ^^^ 2 ^ 63) / 2 ^ 63 = 1 := hhigh
    omega
  · rw [hone] at hhigh
    have hflipped : (bits ^^^ 2 ^ 63) / 2 ^ 63 = 0 := hhigh
    omega

/-- The bytes of times stand in the order of the times. -/
theorem encodeTime_lt_iff {micros later : Int64} :
    encodeTime micros < encodeTime later ↔ micros < later := by
  rw [lt_iff_ofBigEndian_lt (by rw [length_encodeTime, length_encodeTime]), ofBigEndian_encodeTime,
    ofBigEndian_encodeTime, Int64.lt_iff_toInt_lt]
  have hmicros := toNat_flipSign micros
  have hlater := toNat_flipSign later
  omega

/-! ## Keys -/

/-- Bytes in front can be read one by one. -/
theorem KeyReader.readAll_bytes {reader : KeyReader} {front rest : Bytes}
    (h : reader.remaining = front ++ rest) :
    (reader.readAll (List.replicate front.length .byte)).2 = reader.advance front.length := by
  have hcalls : (front.map KeyPart.byte).map KeyPart.call = List.replicate front.length .byte := by
    rw [List.map_map]
    exact List.map_const' ..
  have hencode : (front.map KeyPart.byte).flatMap KeyPart.encode = front := by
    rw [List.flatMap_map]
    exact List.flatMap_singleton' front
  have hfits : ∀ part ∈ front.map KeyPart.byte, part.Fits := by simp [KeyPart.Fits]
  rw [← hcalls, readAll_of_front hfits (hencode.symm ▸ h), hencode]

namespace StorageKey

/-- The fields of a revision's key fit if its identity does. -/
theorem fits_revision_iff {guid : String} {micros : Int64} :
    (∀ field ∈ (revision guid micros).fields, field.Fits) ↔ FitsKey guid := by
  simp [fields, leading, following, KeyField.Fits]

/-- The keys of revisions of one identity stand in the order of their times. A time is read back
from the end of the key, be the bytes in front of it read one by one, or as a byte and a text if the
identity fits. -/
theorem revision_sorted (guid : String) (micros later : Int64) :
    ((revision guid micros).encode < (revision guid later).encode ↔ micros < later) ∧
      (∃ final,
        (((KeyReader.new (revision guid micros).encode).readAll
          (List.replicate (3 + guid.utf8ByteSize) .byte)).2).readTime = (some micros, final) ∧
        final.remaining = []) ∧
      ((revision guid micros).ReadsBack ↔ FitsKey guid) := by
  refine ⟨?_, ?_, readsBack_iff.trans fits_revision_iff⟩
  · rw [encode, encode, List.cons_lt_cons_iff, append_lt_append_iff, encodeTime_lt_iff]
    simp
  · have hfront : (KeyReader.new (revision guid micros).encode).remaining =
        (KeyTag.revision.byte :: encodeText guid) ++ encodeTime micros := rfl
    have hlength : (KeyTag.revision.byte :: encodeText guid).length = 3 + guid.utf8ByteSize := by
      rw [List.length_cons, length_encodeText]
      omega
    have htime : ((KeyReader.new (revision guid micros).encode).advance
        (3 + guid.utf8ByteSize)).remaining = encodeTime micros ++ [] :=
      (KeyReader.remaining_advance hfront hlength).trans (List.append_nil _).symm
    rw [← hlength, KeyReader.readAll_bytes hfront, hlength]
    exact ⟨_, KeyReader.readTime_of_remaining htime,
      KeyReader.remaining_advance htime (length_encodeTime micros)⟩

end StorageKey

end MetadataGraph
