/-
# Sections in the midst of a message

A header, a question or a record may be written into a buffer of any size, but what is written is
always its wire form (`writtenAs_iff`).  Where these bytes stand in a message does not matter,
nor does what stands around them: the section is read back from there, and reading goes on just
behind it (`read_enclosed`).  The name comes back without its empty pieces.  The data of a record
ends where the record does, so it is known where it begins.

For a header there is a way back as well.  Any twelve bytes are the wire form of some header, so
the header of a message is written as the bytes that it was read from.
-/
import StubResolver.Proofs.Response.WireForm

namespace StubResolver

/-- A value is written as the given bytes, over the start of some buffer. -/
def WrittenAs {α : Type} [Writable α] (value : α) (bytes : Bytes) : Prop :=
  ∃ buffer after, writeInto value buffer = .ok (bytes.length, after) ∧
    after.take bytes.length = bytes

/-- What is written is the wire form, in a buffer of any size. -/
lemma writtenAs_iff {α : Type} [Writable α] {value : α} {allowed : Prop} {wire bytes : Bytes}
    (h : Writer.Puts (write value) allowed wire) :
    WrittenAs value bytes ↔ allowed ∧ bytes = wire := by
  constructor
  · rintro ⟨buffer, after, hwrite, htake⟩
    rw [writeInto] at hwrite
    split at hwrite
    · cases hwrite
    · rename_i out hout
      obtain ⟨hallowed, -, rfl⟩ := (h _ _).1 hout
      obtain ⟨hlength, rfl⟩ := Prod.mk.inj (Except.ok.inj hwrite)
      rw [← hlength, List.take_left] at htake
      exact ⟨hallowed, htake.symm⟩
  · rintro ⟨hallowed, rfl⟩
    have hout : write value bytes.length = .ok bytes := (h _ _).2 ⟨hallowed, Nat.le_refl _, rfl⟩
    refine ⟨bytes, bytes ++ bytes.drop bytes.length, ?_, List.take_left⟩
    rw [writeInto, hout]

section

variable {before bytes behind : Bytes}

lemma holds_enclosed : Holds (before ++ bytes ++ behind) before.length bytes := by
  rw [Holds, List.append_assoc, List.drop_left]
  exact List.prefix_append _ _

/-- Bytes that end where the last part of a message begins stand right in front of it. -/
lemma drop_eq_append_of_holds {part : Bytes} {offset : Nat}
    (h : Holds (bytes ++ behind) offset part) (hend : offset + part.length = bytes.length) :
    (bytes ++ behind).drop offset = part ++ behind := by
  obtain ⟨rest, hrest⟩ := h
  have hbehind := congrArg (List.drop part.length) hrest
  rw [List.drop_left, List.drop_drop, hend, List.drop_left] at hbehind
  rw [← hrest, hbehind]

namespace Header

variable {header : Header}

lemma run_enclosed (h : WrittenAs header bytes) :
    (Readable.read : Reader Header).run (before ++ bytes ++ behind) before.length =
      .ok (header, before.length + bytes.length) := by
  obtain ⟨-, rfl⟩ := (writtenAs_iff (Writer.puts_header header)).1 h
  exact (Reader.takes_header _ _ _ _).2 ⟨holds_enclosed, rfl⟩

lemma writeInto_eq {buffer : Bytes} (h : 12 ≤ buffer.length) :
    writeInto header buffer = .ok (12, header.wire ++ buffer.drop 12) := by
  have hout : write header buffer.length = .ok header.wire :=
    (Writer.puts_header header _ _).2 ⟨trivial, by rwa [length_wire], rfl⟩
  rw [writeInto, hout]
  simp only [length_wire]

/-- The header of a message is written as the bytes that it was read from. -/
lemma exists_ofMessage {message : Bytes} (h : 12 ≤ message.length) :
    ∃ header, ofMessage message = .ok header ∧ encode header = .ok (message.take 12) ∧
      ∀ buffer : Bytes, 12 ≤ buffer.length →
        writeInto header buffer = .ok (12, message.take 12 ++ buffer.drop 12) := by
  obtain ⟨header, hat⟩ := exists_header h
  have htake := holds_iff_take.1 hat
  rw [List.drop_zero, length_wire] at htake
  rw [htake]
  exact ⟨header, ofMessage_of_holds hat, encode_eq header, fun _ => writeInto_eq⟩

end Header

lemma Question.run_enclosed {question : Question} (h : WrittenAs question bytes) :
    (Readable.read : Reader Question).run (before ++ bytes ++ behind) before.length =
      .ok (question.normal, before.length + bytes.length) := by
  obtain ⟨hlimits, rfl⟩ := (writtenAs_iff question.puts_write).1 h
  exact question_read_iff.2 (questionAt_of_holds hlimits holds_enclosed)

lemma Record.exists_run_enclosed {record : Record} (h : WrittenAs record bytes) :
    ∃ dataOffset, (Readable.read : Reader PlacedRecord).run (before ++ bytes ++ behind)
        before.length = .ok (⟨record.normal, dataOffset⟩, before.length + bytes.length) ∧
      dataOffset + record.data.length = before.length + bytes.length ∧
      (before ++ bytes ++ behind).drop dataOffset = record.data ++ behind := by
  obtain ⟨⟨hlimits, hlt⟩, rfl⟩ := (writtenAs_iff record.puts_write).1 h
  have hrecord : RecordAt (before ++ record.wire ++ behind) _ before.length _ :=
    recordAt_of_holds hlimits hlt holds_enclosed
  have hend : before.length + Name.wireLength record.name.segments + 10 + record.data.length =
      before.length + record.wire.length := by
    rw [length_wire]
    omega
  refine ⟨_, record_read_iff.2 hrecord, hend, drop_eq_append_of_holds hrecord.holds_data ?_⟩
  rw [List.length_append]
  exact hend

end

/-- **Sections are read back from the midst of a message.**  The header, the question or the
record that was written is found behind anything and in front of anything, and the message goes
on where it ends.  Of the name only the empty pieces are lost, and what stands at the offset
of the data of a record is this data, in front of what follows.  Of a message of at least twelve
bytes, the first twelve are what its header is written as, into every buffer with room for it. -/
theorem read_enclosed (before behind : Bytes) :
    (∀ (header : Header) bytes, WrittenAs header bytes →
      (Readable.read : Reader Header).run (before ++ bytes ++ behind) before.length =
        .ok (header, before.length + bytes.length)) ∧
    (∀ (question : Question) bytes, WrittenAs question bytes →
      (Readable.read : Reader Question).run (before ++ bytes ++ behind) before.length =
        .ok (⟨question.name.normal, question.qtype, question.qclass⟩,
          before.length + bytes.length)) ∧
    (∀ (record : Record) bytes, WrittenAs record bytes →
      ∃ dataOffset,
        (Readable.read : Reader PlacedRecord).run (before ++ bytes ++ behind) before.length =
          .ok (⟨⟨record.name.normal, record.rtype, record.rclass, record.ttl, record.data⟩,
            dataOffset⟩, before.length + bytes.length) ∧
        dataOffset + record.data.length = before.length + bytes.length ∧
        (before ++ bytes ++ behind).drop dataOffset = record.data ++ behind) ∧
    (∀ message : Bytes, 12 ≤ message.length →
      ∃ header, Header.ofMessage message = .ok header ∧ encode header = .ok (message.take 12) ∧
        ∀ buffer : Bytes, 12 ≤ buffer.length →
          writeInto header buffer = .ok (12, message.take 12 ++ buffer.drop 12)) := by
  refine ⟨?_, ?_, ?_, ?_⟩
  · intro header bytes h
    exact Header.run_enclosed h
  · intro question bytes h
    exact Question.run_enclosed h
  · intro record bytes h
    exact Record.exists_run_enclosed h
  · intro message h
    exact Header.exists_ofMessage h

/-- The case of the three sections of a response to query 7, each of them behind two bytes and in
front of one, with dots too many in the names, and of a message that begins with the header. -/
theorem read_enclosed_response :
    (Readable.read : Reader Header).run
        ([192, 12] ++ [0, 7, 129, 128, 0, 1, 0, 1, 0, 0, 0, 0] ++ [255]) 2 =
      .ok (⟨7, Flags.ofWord 0x8180, 1, 1, 0, 0⟩, 14) ∧
    (Readable.read : Reader Question).run
        ([192, 12] ++ [1, 97, 1, 98, 0, 0, 15, 0, 1] ++ [255]) 2 =
      .ok (⟨⟨"a.b"⟩, 15, 1⟩, 11) ∧
    (∃ dataOffset,
      (Readable.read : Reader PlacedRecord).run ([192, 12] ++
          [1, 97, 1, 98, 0, 0, 1, 0, 1, 0, 0, 0, 60, 0, 4, 10, 0, 0, 1] ++ [255]) 2 =
        .ok (⟨⟨⟨"a.b"⟩, 1, 1, 60, [10, 0, 0, 1]⟩, dataOffset⟩, 21) ∧ dataOffset = 17) ∧
    ∃ header, Header.ofMessage [0, 7, 129, 128, 0, 1, 0, 1, 0, 0, 0, 0, 1] = .ok header ∧
      encode header = .ok [0, 7, 129, 128, 0, 1, 0, 1, 0, 0, 0, 0] := by
  obtain ⟨hheader, hquestion, hrecord, hmessage⟩ := read_enclosed [192, 12] [255]
  refine ⟨?_, ?_, ?_, ?_⟩
  · exact hheader ⟨7, Flags.ofWord 0x8180, 1, 1, 0, 0⟩ _ ⟨List.replicate 12 170, _, rfl, rfl⟩
  · exact hquestion ⟨⟨".a..b"⟩, 15, 1⟩ _ ⟨List.replicate 11 170, _, rfl, rfl⟩
  · obtain ⟨dataOffset, hread, hend, -⟩ := hrecord ⟨⟨"a..b."⟩, 1, 1, 60, [10, 0, 0, 1]⟩ _
      ⟨List.replicate 21 170, _, rfl, rfl⟩
    exact ⟨dataOffset, hread, Nat.add_right_cancel hend⟩
  · obtain ⟨header, hread, hencode, -⟩ :=
      hmessage [0, 7, 129, 128, 0, 1, 0, 1, 0, 0, 0, 0, 1] (by decide)
    exact ⟨header, hread, hencode⟩

end StubResolver
