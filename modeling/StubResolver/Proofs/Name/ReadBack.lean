/-
# What is read back of a segment

The wire form of a segment has six bits for the length of a label and fourteen for the target of
a pointer.  A label with more bytes than that is refused, but the target of a pointer loses its
two top bits, and an empty label is written as the terminator.  `Segment.kept` is the segment that
is left: it has the same wire form (`Segment.wire_kept`), and wherever this form stands it is the
one that is read (`Segment.read_wire`).

So a segment is read back as itself just if it fits into its wire form (`Segment.Fits`).
-/
import StubResolver.Proofs.InPlace
import StubResolver.Proofs.Name.Compressed

namespace StubResolver.Segment

/-- The segment is a label with too many bytes for its length to be written. -/
def IsLong : Segment → Prop
  | label bytes => maxLabelLength < bytes.length
  | _ => False

/-- There is a place in the wire form for all of the segment: a label has at least one byte and
at most 63, and the target of a pointer has fourteen bits. -/
def Fits : Segment → Prop
  | terminator => True
  | label bytes => Name.IsLabel bytes
  | pointer target => target.toNat < 2 ^ 14

/-- The segment of which the wire form is taken to be. -/
def kept : Segment → Segment
  | label [] => terminator
  | pointer target => pointer (target % 0x4000)
  | segment => segment

variable {segment : Segment}

/-! ## What fits -/

lemma fits_iff : segment.Fits ↔ ¬segment.IsLong ∧ segment.kept = segment := by
  cases segment with
  | terminator => simp [Fits, IsLong, kept]
  | label bytes => cases bytes <;> simp [Fits, IsLong, kept, Name.IsLabel]
  | pointer target => simp [Fits, IsLong, kept, ← UInt16.toNat_inj]

/-- What is kept of a segment has a place in the wire form, if it is no label that is too long. -/
lemma fits_kept (h : ¬segment.IsLong) : segment.kept.Fits := by
  cases segment with
  | terminator => trivial
  | label bytes =>
    cases bytes with
    | nil => trivial
    | cons first others => exact ⟨Nat.succ_pos _, Nat.not_lt.1 h⟩
  | pointer target =>
    show (target % 0x4000).toNat < 2 ^ 14
    rw [UInt16.toNat_mod]
    exact Nat.mod_lt _ (by decide)

/-! ## Wire forms -/

/-- The two top bits of a target are set in the wire form, whatever they were. -/
lemma pointerBytes_mod (target : UInt16) : pointerBytes (target % 0x4000) = pointerBytes target := by
  have hhigh : ∀ n < 256, UInt8.ofNat (n % 64) ||| 0xC0 = UInt8.ofNat n ||| 0xC0 := by
    decide +kernel
  have hlt := target.toNat_lt
  have hmod : (target % 0x4000).toNat = target.toNat % 0x4000 := UInt16.toNat_mod _ _
  have hdiv : target.toNat % 0x4000 / 256 = target.toNat / 256 % 64 := by omega
  have hlow : UInt8.ofNat (target.toNat % 0x4000) = UInt8.ofNat target.toNat := by
    rw [← UInt8.toNat_inj, UInt8.toNat_ofNat', UInt8.toNat_ofNat']
    omega
  rw [pointerBytes, pointerBytes, hmod, hdiv, hhigh _ (by omega), hlow]

lemma wire_kept (segment : Segment) : segment.kept.wire = segment.wire := by
  cases segment with
  | terminator => rfl
  | label bytes => cases bytes <;> rfl
  | pointer target => exact pointerBytes_mod target

lemma write_kept (segment : Segment) : write segment.kept = write segment := by
  cases segment with
  | terminator => rfl
  | label bytes => cases bytes <;> rfl
  | pointer target => exact congrArg Writer.put (pointerBytes_mod target)

lemma writeInto_kept (segment : Segment) (buffer : Bytes) :
    writeInto segment.kept buffer = writeInto segment buffer := by
  rw [writeInto, writeInto, write_kept]

/-- A segment is written unless it is a label that is too long. -/
lemma puts_write (segment : Segment) :
    Writer.Puts (write segment) (¬segment.IsLong) segment.wire := by
  cases segment with
  | terminator => exact (Writer.puts_put _).congr (by simp [IsLong])
  | pointer target => exact (Writer.puts_put _).congr (by simp [IsLong])
  | label bytes =>
    show Writer.Puts (Segment.write (.label bytes)) _ _
    rw [Segment.write]
    split
    · rename_i hlong
      exact Writer.puts_fail.congr (iff_of_false id (not_not_intro hlong))
    · rename_i hshort
      exact (Writer.puts_put _).congr (iff_of_true trivial hshort)

lemma writeInto_eq_ok_iff {buffer after : Bytes} {count : Nat} :
    writeInto segment buffer = .ok (count, after) ↔ ¬segment.IsLong ∧
      size segment ≤ buffer.length ∧ count = size segment ∧
      after = segment.wire ++ buffer.drop (size segment) := by
  have hsize : segment.wire.length = size segment := segment.length_wire
  rw [writeInto, ← hsize]
  constructor
  · intro h
    split at h
    · cases h
    · rename_i out hout
      obtain ⟨hshort, hroom, rfl⟩ := (puts_write segment _ _).1 hout
      obtain ⟨rfl, rfl⟩ := Prod.mk.inj (Except.ok.inj h)
      exact ⟨hshort, hroom, rfl, rfl⟩
  · rintro ⟨hshort, hroom, rfl, rfl⟩
    have hout : write segment buffer.length = .ok segment.wire :=
      (puts_write segment _ _).2 ⟨hshort, hroom, rfl⟩
    rw [hout]

/-! ## Reading -/

/-- Where the wire form of a segment stands that fits into it, there the segment is. -/
lemma segmentAt_of_holds_wire {message : Bytes} {offset : Nat} (hfits : segment.Fits)
    (h : Holds message offset segment.wire) :
    SegmentAt message offset segment (offset + size segment) := by
  cases segment with
  | terminator => exact .terminator (holds_singleton.1 h)
  | pointer target => exact Name.segmentAt_of_holds_pointer hfits h
  | label bytes =>
    have hseg := Name.segmentAt_of_holds hfits h
    rwa [Nat.add_comm bytes.length] at hseg

/-- Where the wire form of a segment stands, what it keeps of the segment is read. -/
lemma run_of_holds_wire {message : Bytes} {offset : Nat} (hshort : ¬segment.IsLong)
    (h : Holds message offset segment.wire) :
    (Readable.read : Reader Segment).run message offset =
      .ok (segment.kept, offset + size segment) := by
  have hsize : size segment.kept = size segment := by
    rw [← length_wire, ← length_wire, wire_kept]
  rw [← hsize]
  exact read_of_segmentAt (segmentAt_of_holds_wire (fits_kept hshort) (by rwa [wire_kept]))

/-- **A segment is read back as what its wire form keeps of it.**  Wherever a segment is
written, the one that is read from the start of the buffer is what is kept of it, up to the last
byte written, and this is the segment itself just if it fits.  A segment that fits is written
wherever there is room.  One that does not fit is refused if it is a label that is too long, but
otherwise it is written as another segment, as which it is read. -/
theorem read_written (segment : Segment) (buffer : Bytes) :
    (∀ count after, writeInto segment buffer = .ok (count, after) →
      (Readable.read : Reader Segment).run after 0 = .ok (segment.kept, count) ∧
      (segment.kept = segment ↔ segment.Fits)) ∧
    (segment.Fits → size segment ≤ buffer.length →
      ∃ after, writeInto segment buffer = .ok (size segment, after)) ∧
    (¬segment.Fits →
      (∃ bytes, segment = .label bytes ∧ 63 < bytes.length ∧
        writeInto segment buffer = .error (.labelTooLong bytes.length)) ∨
      segment.kept.Fits ∧ segment.kept ≠ segment ∧
        writeInto segment.kept buffer = writeInto segment buffer) := by
  refine ⟨?_, ?_, ?_⟩
  · intro count after h
    obtain ⟨hshort, -, rfl, rfl⟩ := writeInto_eq_ok_iff.1 h
    have hat : Holds (segment.wire ++ buffer.drop (size segment)) 0 segment.wire :=
      List.prefix_append _ _
    have hread := run_of_holds_wire hshort hat
    rw [Nat.zero_add] at hread
    exact ⟨hread, fun hkept => fits_iff.2 ⟨hshort, hkept⟩, fun hfits => (fits_iff.1 hfits).2⟩
  · intro hfits hroom
    exact ⟨_, writeInto_eq_ok_iff.2 ⟨(fits_iff.1 hfits).1, hroom, rfl, rfl⟩⟩
  · intro hfits
    by_cases hlong : segment.IsLong
    · left
      cases segment with
      | terminator | pointer => exact hlong.elim
      | label bytes =>
        have hwrite : write (Segment.label bytes) buffer.length =
            .error (.labelTooLong bytes.length) := congrFun (if_pos hlong) _
        exact ⟨bytes, rfl, hlong, by rw [writeInto, hwrite]⟩
    · right
      refine ⟨fits_kept hlong, ?_, writeInto_kept segment buffer⟩
      intro hkept
      exact hfits (fits_iff.2 ⟨hlong, hkept⟩)

/-- The case of a pointer with the greatest target that fits, of one with the target behind it,
which is read back as a pointer to the start of the message, and of the longest label. -/
theorem read_written_pointer :
    (Readable.read : Reader Segment).run [0xFF, 0xFF, 170] 0 = .ok (pointer 0x3FFF, 2) ∧
    (Readable.read : Reader Segment).run [0xC0, 0, 170] 0 = .ok (pointer 0, 2) ∧
    writeInto (pointer 0) [170, 170] = writeInto (pointer 0x4000) [170, 170] ∧
    ∃ after, writeInto (label (List.replicate 63 97)) (List.replicate 64 170) =
      .ok (64, after) := by
  obtain ⟨hfits, -, -⟩ := read_written (pointer 0x3FFF) [170, 170, 170]
  obtain ⟨hother, -, -⟩ := read_written (pointer 0x4000) [170, 170, 170]
  obtain ⟨-, -, hlost⟩ := read_written (pointer 0x4000) [170, 170]
  obtain ⟨-, hlabel, -⟩ := read_written (label (List.replicate 63 97)) (List.replicate 64 170)
  have hroom : size (label (List.replicate 63 97)) ≤ (List.replicate 64 (170 : UInt8)).length := by
    decide
  refine ⟨(hfits 2 _ rfl).1, (hother 2 _ rfl).1, ?_, hlabel ⟨by decide, by decide⟩ hroom⟩
  rcases hlost (by show ¬(0x4000 < 0x4000); decide) with ⟨_, hpointer, -⟩ | ⟨-, -, hwrite⟩
  · cases hpointer
  · exact hwrite

/-- Not every segment that is written is read back: a pointer with a target of fifteen bits is
written as a pointer to the start of the message. -/
theorem not_read_written : ¬∀ (segment : Segment) (buffer : Bytes) (count : Nat) (after : Bytes),
    writeInto segment buffer = .ok (count, after) →
    (Readable.read : Reader Segment).run after 0 = .ok (segment, count) := by
  intro h
  have hread := h (pointer 0x4000) [170, 170] 2 [0xC0, 0] rfl
  have hkept : (Readable.read : Reader Segment).run [0xC0, 0] 0 = .ok (pointer 0, 2) := rfl
  rw [hkept] at hread
  cases hread

end StubResolver.Segment
