/-
# The wire forms of questions and records

Questions and records can be written when their names can, and records when besides the
length of their data fits into its field.  Where such a wire form stands in a message, the
same question or record is found, with the empty pieces of its name left out
(`questionAt_of_holds`, `recordAt_of_holds`).
-/
import StubResolver.Proofs.Name.WireForm
import StubResolver.Proofs.Response.Sections

namespace StubResolver

variable {message : Bytes} {offset : Nat}

/-! ## Questions -/

namespace Question

/-- The wire form of a question. -/
def wire (question : Question) : Bytes :=
  Name.wireForm question.name.segments ++ Bytes.toBigEndian 2 question.qtype.toNat ++
  Bytes.toBigEndian 2 question.qclass.toNat

/-- The question with the empty pieces of its name left out. -/
def normal (question : Question) : Question :=
  { question with name := question.name.normal }

@[simp] lemma length_wire (question : Question) :
    question.wire.length = Name.wireLength question.name.segments + 4 := by
  simp only [wire, List.length_append, Name.length_wireForm, Bytes.length_toBigEndian]

lemma puts_write (question : Question) :
    Writer.Puts (write question) question.name.WithinLimits question.wire := by
  have h := ((Name.puts_write question.name).append (Writer.puts_word question.qtype)).append
    (Writer.puts_word question.qclass)
  exact h.congr (by simp only [and_true])

lemma size_eq (question : Question) : size question = question.wire.length :=
  (length_wire question).symm

lemma encode_eq_ok_iff {question : Question} {bytes : Bytes} :
    encode question = .ok bytes ↔ question.name.WithinLimits ∧ bytes = question.wire :=
  StubResolver.encode_eq_ok_iff question.puts_write question.size_eq

/-- A question begins with its name. -/
lemma holds_name {question : Question} (h : Holds message offset question.wire) :
    Holds message offset (Name.wireForm question.name.segments) := by
  rw [wire, List.append_assoc, holds_append] at h
  exact h.1

end Question

/-- A question that was written is found wherever it stands. -/
lemma questionAt_of_holds {question : Question} (hlimits : question.name.WithinLimits)
    (hat : Holds message offset question.wire) :
    QuestionAt message question.normal offset (offset + question.wire.length) := by
  rw [Question.wire, List.append_assoc, holds_append, Name.length_wireForm] at hat
  have hname := Name.decode_of_holds hlimits hat.1
  have hbounds := Name.decode_bounds hname
  have hend := hat.2.end_le (by simp [← List.length_eq_zero_iff])
  rw [List.length_append, Bytes.length_toBigEndian, Bytes.length_toBigEndian] at hend
  rw [Question.length_wire]
  exact ⟨_, hname, hat.2, by omega, by omega, by omega⟩

/-- Questions that were written follow one another where they stand. -/
lemma consecutive_questions {questions : List Question} {bytes : Bytes}
    (h : encodeAll questions = .ok bytes) (hat : Holds message offset bytes) :
    Consecutive (QuestionAt message) (questions.map Question.normal) offset
      (offset + bytes.length) := by
  obtain ⟨found, hfound, hrow⟩ : ∃ found, found.map id = questions.map Question.normal ∧
      Consecutive (QuestionAt message) found offset (offset + bytes.length) := by
    refine exists_consecutive_of_encodeAll (fun question _ _ hencode hplace => ?_) h hat
    obtain ⟨hlimits, rfl⟩ := Question.encode_eq_ok_iff.1 hencode
    exact ⟨question.normal, rfl, questionAt_of_holds hlimits hplace⟩
  rw [List.map_id] at hfound
  rwa [← hfound]

/-! ## Records -/

namespace Record

/-- The wire form of a record. -/
def wire (record : Record) : Bytes :=
  Name.wireForm record.name.segments ++ record.fields

/-- The record with the empty pieces of its name left out. -/
def normal (record : Record) : Record :=
  { record with name := record.name.normal }

@[simp] lemma length_wire (record : Record) : record.wire.length =
    Name.wireLength record.name.segments + (10 + record.data.length) := by
  rw [wire, List.length_append, Name.length_wireForm, length_fields]

lemma puts_writeData (data : Bytes) : Writer.Puts (writeData data) (data.length < 2 ^ 16)
    (Bytes.toBigEndian 2 data.length ++ data) := by
  have hsize : UInt16.size = 2 ^ 16 := rfl
  rw [writeData, hsize]
  split
  · exact Writer.puts_fail.congr (iff_of_false id (by omega))
  · exact (Writer.puts_put _).congr (iff_of_true trivial (by omega))

lemma puts_write (record : Record) : Writer.Puts (write record)
    (record.name.WithinLimits ∧ record.data.length < 2 ^ 16) record.wire := by
  have h := ((((Name.puts_write record.name).append (Writer.puts_word record.rtype)).append
    (Writer.puts_word record.rclass)).append (Writer.puts_long record.ttl)).append
    (puts_writeData record.data)
  have hwire : Name.wireForm record.name.segments ++ Bytes.toBigEndian 2 record.rtype.toNat ++
      Bytes.toBigEndian 2 record.rclass.toNat ++ Bytes.toBigEndian 4 record.ttl.toNat ++
      (Bytes.toBigEndian 2 record.data.length ++ record.data) = record.wire := by
    simp only [wire, fields, List.append_assoc]
  rw [hwire] at h
  exact h.congr (by simp only [and_true])

lemma size_eq (record : Record) : size record = record.wire.length := by
  have hsize : size record =
      Name.wireLength record.name.segments + 2 + 2 + 4 + (2 + record.data.length) := rfl
  rw [hsize, length_wire]
  omega

lemma encode_eq_ok_iff {record : Record} {bytes : Bytes} : encode record = .ok bytes ↔
    (record.name.WithinLimits ∧ record.data.length < 2 ^ 16) ∧ bytes = record.wire :=
  StubResolver.encode_eq_ok_iff record.puts_write record.size_eq

end Record

/-- A record is found where its name is read and its other fields stand behind the name. -/
lemma recordAt_of_fields {record : Record} {nameEnd : Nat}
    (hname : Name.decode message offset = .ok (record.name, nameEnd))
    (hat : Holds message nameEnd record.fields) (hlt : record.data.length < 2 ^ 16) :
    RecordAt message ⟨record, nameEnd + 10⟩ offset (nameEnd + record.fields.length) := by
  have hbounds := Name.decode_bounds hname
  have hlength := record.length_fields
  have hend := hat.end_le (by
    rw [← List.length_pos_iff]
    omega)
  refine ⟨nameEnd, hname, hat, hlt, rfl, ?_, by omega, hend⟩
  rw [hlength, Nat.add_assoc]

/-- A record that was written is found wherever it stands. -/
lemma recordAt_of_holds {record : Record} (hlimits : record.name.WithinLimits)
    (hlt : record.data.length < 2 ^ 16) (hat : Holds message offset record.wire) :
    RecordAt message ⟨record.normal, offset + Name.wireLength record.name.segments + 10⟩ offset
      (offset + record.wire.length) := by
  rw [Record.wire, holds_append, Name.length_wireForm] at hat
  have hname : Name.decode message offset =
      .ok (record.normal.name, offset + Name.wireLength record.name.segments) :=
    Name.decode_of_holds hlimits hat.1
  rw [Record.wire, List.length_append, Name.length_wireForm, ← Nat.add_assoc]
  exact recordAt_of_fields hname hat.2 hlt

/-- Records that were written follow one another where they stand. -/
lemma exists_consecutive_records {records : List Record} {bytes : Bytes}
    (h : encodeAll records = .ok bytes) (hat : Holds message offset bytes) :
    ∃ placed : List PlacedRecord, placed.map (·.toRecord) = records.map Record.normal ∧
      Consecutive (RecordAt message) placed offset (offset + bytes.length) := by
  refine exists_consecutive_of_encodeAll (fun record _ _ hencode hplace => ?_) h hat
  obtain ⟨⟨hlimits, hlt⟩, rfl⟩ := Record.encode_eq_ok_iff.1 hencode
  exact ⟨_, rfl, recordAt_of_holds hlimits hlt hplace⟩

end StubResolver
