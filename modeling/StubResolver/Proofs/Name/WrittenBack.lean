/-
# Segments are written back

A segment is read from its wire form and from nothing else.  Reading takes the two top bits off
the first byte of a pointer, and writing sets them again.  A label is read with as many bytes as
its length byte says, so this is the length with which it is written.  So what is read fits into
its wire form (`SegmentAt.fits`), and a segment that fits stands exactly where its wire form
stands (`segmentAt_iff_holds_wire`): for what happens to a message around a segment it is enough
to look at these bytes.

The bytes and the segment say the same, then.  A segment is written back as the bytes at which it
was read, and another message has it at the same offset just if it has these bytes there
(`Segment.written_back`).
-/
import StubResolver.Proofs.Name.Defects
import StubResolver.Proofs.Name.ReadBack

namespace StubResolver

variable {message : Bytes} {offset next : Nat} {segment : Segment}

/-! ## The bytes of a segment -/

/-- A pointer is written as the two bytes that its target was read from. -/
lemma Segment.pointerBytes_eq {high low : UInt8} (hhigh : 192 ≤ high.toNat) :
    pointerBytes (UInt16.ofNat (high.toNat % 64 * 256 + low.toNat)) = [high, low] := by
  -- the two top bits that `% 64` takes off are those that are set again
  have hset : ∀ n < 256, 192 ≤ n → UInt8.ofNat (n % 64) ||| 0xC0 = UInt8.ofNat n := by
    decide +kernel
  have hhigh' := high.toNat_lt
  have hlow := low.toNat_lt
  have htarget : (UInt16.ofNat (high.toNat % 64 * 256 + low.toNat)).toNat =
      high.toNat % 64 * 256 + low.toNat := by
    rw [UInt16.toNat_ofNat', Nat.mod_eq_of_lt (by omega)]
  have hdiv : (high.toNat % 64 * 256 + low.toNat) / 256 = high.toNat % 64 := by omega
  have hmod : UInt8.ofNat (high.toNat % 64 * 256 + low.toNat) = low := by
    rw [← UInt8.toNat_inj, UInt8.toNat_ofNat']
    omega
  rw [pointerBytes, htarget, hdiv, hmod, hset _ hhigh' hhigh, UInt8.ofNat_toNat]

namespace SegmentAt

/-- What is read as a segment fits into its wire form. -/
lemma fits (h : SegmentAt message offset segment next) : segment.Fits := by
  cases h with
  | terminator => trivial
  | @label length _ hpos hle hend =>
    show Name.IsLabel _
    rw [Name.IsLabel, length_take_drop hend]
    exact ⟨hpos, hle⟩
  | @pointer high low =>
    have hlow := low.toNat_lt
    show (UInt16.ofNat (high.toNat % 64 * 256 + low.toNat)).toNat < 2 ^ 14
    rw [UInt16.toNat_ofNat']
    omega

lemma next_eq (h : SegmentAt message offset segment next) : next = offset + size segment := by
  cases h with
  | terminator | pointer => rfl
  | @label length _ _ _ hend =>
    show _ = offset + (1 + List.length _)
    rw [length_take_drop hend, Nat.add_assoc]

/-- Where a segment is read, there its wire form stands. -/
lemma holds_wire (h : SegmentAt message offset segment next) :
    Holds message offset segment.wire := by
  cases h with
  | terminator h0 => exact holds_singleton.2 h0
  | @label length hlength _ _ hend =>
    refine holds_cons.2 ⟨?_, List.take_prefix _ _⟩
    rw [length_take_drop hend, UInt8.ofNat_toNat, hlength]
  | @pointer high low hhigh hge hlow =>
    show Holds message offset (Segment.pointerBytes _)
    rw [Segment.pointerBytes_eq hge]
    exact holds_cons.2 ⟨hhigh, holds_singleton.2 hlow⟩

end SegmentAt

/-- A segment stands at an offset just if it fits into its wire form and this stands there. -/
lemma segmentAt_iff_holds_wire : SegmentAt message offset segment next ↔
    segment.Fits ∧ Holds message offset segment.wire ∧ next = offset + size segment := by
  constructor
  · intro h
    exact ⟨h.fits, h.holds_wire, h.next_eq⟩
  · rintro ⟨hfits, hat, rfl⟩
    exact Segment.segmentAt_of_holds_wire hfits hat

namespace SegmentAt

/-- A segment in a part of a message is one in the message. -/
lemma of_holds {part : Bytes} {start : Nat} (h : SegmentAt part offset segment next)
    (hpart : Holds message start part) :
    SegmentAt message (start + offset) segment (start + next) := by
  obtain ⟨hfits, hat, rfl⟩ := segmentAt_iff_holds_wire.1 h
  exact segmentAt_iff_holds_wire.2 ⟨hfits, hat.of_holds hpart, (Nat.add_assoc ..).symm⟩

lemma append (h : SegmentAt message offset segment next) (rest : Bytes) :
    SegmentAt (message ++ rest) offset segment next := by
  have hfront : Holds (message ++ rest) 0 message := List.prefix_append _ _
  simpa only [Nat.zero_add] using h.of_holds hfront

lemma take {bound : Nat} (h : SegmentAt message offset segment next) (hle : next ≤ bound) :
    SegmentAt (message.take bound) offset segment next := by
  obtain ⟨hfits, hat, rfl⟩ := segmentAt_iff_holds_wire.1 h
  rw [← Segment.length_wire] at hle
  exact segmentAt_iff_holds_wire.2 ⟨hfits, hat.take hle, rfl⟩

end SegmentAt

namespace Segment

/-! ## Reading and writing back -/

lemma run_eq_ok_iff : (Readable.read : Reader Segment).run message offset = .ok (segment, next) ↔
    SegmentAt message offset segment next :=
  read_eq_ok_iff

/-- **A segment is written back as the bytes at which it was read.**  They lie inside of the
message.  The segment is written into every buffer with room for them, as these bytes and with
nothing else changed, and another message has the segment at the same offset just if it has the
same bytes there, whatever stands around them.  No segment is read only where there is a flaw: no
byte, a byte that begins no segment, or a segment within which the message ends. -/
theorem written_back (message : Bytes) (offset : Nat) :
    (∀ segment next, (Readable.read : Reader Segment).run message offset = .ok (segment, next) →
      offset < next ∧ next ≤ message.length ∧
      (∀ buffer : Bytes, next - offset ≤ buffer.length →
        writeInto segment buffer = .ok (next - offset,
          (message.drop offset).take (next - offset) ++ buffer.drop (next - offset))) ∧
      ∀ other : Bytes,
        (Readable.read : Reader Segment).run other offset = .ok (segment, next) ↔
          (other.drop offset).take (next - offset) =
            (message.drop offset).take (next - offset)) ∧
    ∀ error, (Readable.read : Reader Segment).run message offset = .error error ↔
      ∃ flaw, error = .malformedName offset flaw ∧ SegmentFlaw message offset flaw := by
  refine ⟨?_, fun error => read_eq_error_iff⟩
  intro segment next h
  have hseg := run_eq_ok_iff.1 h
  obtain ⟨hlt, hle⟩ := hseg.bounds
  obtain ⟨hfits, hat, hnext⟩ := segmentAt_iff_holds_wire.1 hseg
  have hlength : next - offset = segment.wire.length := by
    rw [hnext, Nat.add_sub_cancel_left, length_wire]
  have hwire : (message.drop offset).take segment.wire.length = segment.wire :=
    holds_iff_take.1 hat
  rw [hlength, hwire]
  refine ⟨hlt, hle, ?_, ?_⟩
  · intro buffer hroom
    rw [length_wire] at hroom ⊢
    exact writeInto_eq_ok_iff.2 ⟨(fits_iff.1 hfits).1, hroom, rfl, rfl⟩
  · intro other
    rw [run_eq_ok_iff, segmentAt_iff_holds_wire, ← holds_iff_take]
    exact ⟨fun hother => hother.2.1, fun hother => ⟨hfits, hother, hnext⟩⟩

/-- The case of a pointer with bits in both bytes, which is read in another message as well, of a
label at the end of the message, and of one of which a byte is missing there. -/
theorem written_back_pointer :
    (Readable.read : Reader Segment).run [7, 0xFF, 0xFE, 1, 97] 1 = .ok (pointer 0x3FFE, 3) ∧
    writeInto (pointer 0x3FFE) [170, 170, 170] = .ok (2, [0xFF, 0xFE, 170]) ∧
    (Readable.read : Reader Segment).run [9, 0xFF, 0xFE] 1 = .ok (pointer 0x3FFE, 3) ∧
    (Readable.read : Reader Segment).run [7, 0xFF, 0xFE, 1, 97] 3 = .ok (label [97], 5) ∧
    writeInto (label [97]) [170, 170] = .ok (2, [1, 97]) ∧
    SegmentFlaw [7, 0xFF, 0xFE, 2, 97] 3 .outOfBounds := by
  have hpointer : (Readable.read : Reader Segment).run [7, 0xFF, 0xFE, 1, 97] 1 =
      .ok (pointer 0x3FFE, 3) := rfl
  have hlabel : (Readable.read : Reader Segment).run [7, 0xFF, 0xFE, 1, 97] 3 =
      .ok (label [97], 5) := rfl
  obtain ⟨-, -, hwrite, hother⟩ := (written_back [7, 0xFF, 0xFE, 1, 97] 1).1 _ _ hpointer
  obtain ⟨-, -, hwrite', -⟩ := (written_back [7, 0xFF, 0xFE, 1, 97] 3).1 _ _ hlabel
  obtain ⟨-, hrefused⟩ := written_back [7, 0xFF, 0xFE, 2, 97] 3
  obtain ⟨flaw, herror, hflaw⟩ := (hrefused (.malformedName 3 .outOfBounds)).1 rfl
  cases herror
  exact ⟨hpointer, hwrite _ (by decide), (hother _).2 rfl, hlabel, hwrite' _ (by decide), hflaw⟩

end Segment

end StubResolver
