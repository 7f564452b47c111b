/-
# The sections of a response

`QuestionAt` and `RecordAt` say which question and which record take up the bytes between
two offsets of a message, and `AcceptedHeader` which header lets the rest of a response be
read.  The readers of these parts succeed just where they stand (`question_read_iff`,
`record_read_iff`), and so the answer records of a response are read exactly when it begins
with an accepted header, after which the counted questions and then the counted records
follow one another (`records_eq_ok_iff`).
-/
import StubResolver.Answer
import StubResolver.Proofs.Name.Grammar
import StubResolver.Proofs.Reading

namespace StubResolver

/-! ## Entries -/

/-- The bytes from `start` to `finish` are a question: a name, its type and its class. -/
def QuestionAt (message : Bytes) (question : Question) (start finish : Nat) : Prop :=
  ∃ nameEnd, Name.decode message start = .ok (question.name, nameEnd) ∧
    Holds message nameEnd (Bytes.toBigEndian 2 question.qtype.toNat ++
      Bytes.toBigEndian 2 question.qclass.toNat) ∧
    finish = nameEnd + 4 ∧ start < finish ∧ finish ≤ message.length

/-- The fields of a record behind its name: type, class, time to live, the length of the
data, and the data. -/
def Record.fields (record : Record) : Bytes :=
  Bytes.toBigEndian 2 record.rtype.toNat ++ Bytes.toBigEndian 2 record.rclass.toNat ++
  Bytes.toBigEndian 4 record.ttl.toNat ++ Bytes.toBigEndian 2 record.data.length ++ record.data

lemma Record.length_fields (record : Record) :
    record.fields.length = 10 + record.data.length := by
  simp only [Record.fields, List.length_append, Bytes.length_toBigEndian]

lemma Record.holds_fields {message : Bytes} {offset : Nat} {record : Record} :
    Holds message offset record.fields ↔
      Holds message offset (Bytes.toBigEndian 2 record.rtype.toNat) ∧
      Holds message (offset + 2) (Bytes.toBigEndian 2 record.rclass.toNat) ∧
      Holds message (offset + 4) (Bytes.toBigEndian 4 record.ttl.toNat) ∧
      Holds message (offset + 8) (Bytes.toBigEndian 2 record.data.length) ∧
      Holds message (offset + 10) record.data := by
  simp only [Record.fields, holds_append, List.length_append, Bytes.length_toBigEndian,
    Nat.reduceAdd, and_assoc]

/-- The bytes from `start` to `finish` are a record: a name and the fields behind it. -/
def RecordAt (message : Bytes) (record : PlacedRecord) (start finish : Nat) : Prop :=
  ∃ nameEnd, Name.decode message start = .ok (record.name, nameEnd) ∧
    Holds message nameEnd record.toRecord.fields ∧ record.data.length < 2 ^ 16 ∧
    record.dataOffset = nameEnd + 10 ∧ finish = record.dataOffset + record.data.length ∧
    start < finish ∧ finish ≤ message.length

lemma QuestionAt.finish_le {message : Bytes} {question : Question} {start finish : Nat}
    (h : QuestionAt message question start finish) : finish ≤ message.length := by
  obtain ⟨_, -, -, -, -, hle⟩ := h
  exact hle

lemma RecordAt.finish_le {message : Bytes} {record : PlacedRecord} {start finish : Nat}
    (h : RecordAt message record start finish) : finish ≤ message.length := by
  obtain ⟨_, -, -, -, -, -, -, hle⟩ := h
  exact hle

/-- The data of a record stands where the record says. -/
lemma RecordAt.holds_data {message : Bytes} {record : PlacedRecord} {start finish : Nat}
    (h : RecordAt message record start finish) : Holds message record.dataOffset record.data := by
  obtain ⟨nameEnd, -, hfields, -, hoffset, -⟩ := h
  obtain ⟨-, -, -, -, hdata⟩ := Record.holds_fields.1 hfields
  rwa [hoffset]

lemma Name.decode_bounds {message : Bytes} {start finish : Nat} {name : Name}
    (h : decode message start = .ok (name, finish)) : start < finish ∧ finish ≤ message.length := by
  obtain ⟨texts, hops, -, hspells, -, -⟩ := spells_of_decode h
  exact hspells.bounds

lemma Name.read_eq_decode (message : Message) (offset : Nat) :
    Name.read message offset = decode message.toList offset := by
  rw [decode, Reader.run, Array.toArray_toList]

lemma question_read_iff {message : Message} {question : Question} {start finish : Nat} :
    (Readable.read : Reader Question) message start = .ok (question, finish) ↔
      QuestionAt message.toList question start finish := by
  show (do
    let name ← Name.read
    let qtype ← Readable.read
    let qclass ← Readable.read
    pure ⟨name, qtype, qclass⟩ : Reader Question) message start = _ ↔ _
  simp only [Reader.bind_eq_ok_iff, Reader.pure_eq_ok_iff, Reader.takes_word message,
    Name.read_eq_decode, QuestionAt, holds_append, Bytes.length_toBigEndian]
  constructor
  · rintro ⟨name, nameEnd, hname, _, _, ⟨htype, rfl⟩, _, _, ⟨hclass, rfl⟩, rfl, rfl⟩
    have hbounds := Name.decode_bounds hname
    have hend := hclass.end_le (by simp [← List.length_eq_zero_iff])
    rw [Bytes.length_toBigEndian] at hend
    exact ⟨nameEnd, hname, ⟨htype, hclass⟩, rfl, by omega, hend⟩
  · rintro ⟨nameEnd, hname, ⟨htype, hclass⟩, rfl, -, -⟩
    exact ⟨_, nameEnd, hname, _, _, ⟨htype, rfl⟩, _, _, ⟨hclass, rfl⟩, rfl, rfl⟩

lemma record_read_iff {message : Message} {record : PlacedRecord} {start finish : Nat} :
    (Readable.read : Reader PlacedRecord) message start = .ok (record, finish) ↔
      RecordAt message.toList record start finish := by
  show (do
    let name ← Name.read
    let rtype ← Readable.read
    let rclass ← Readable.read
    let ttl ← Readable.read
    let length ← Reader.bigEndian 2
    let dataOffset ← Reader.position
    let data ← Reader.take length
    pure ⟨⟨name, rtype, rclass, ttl, data⟩, dataOffset⟩ : Reader PlacedRecord) message start = _ ↔ _
  simp only [Reader.bind_eq_ok_iff, Reader.pure_eq_ok_iff, Reader.takes_word message,
    Reader.takes_long message, Reader.takes_bigEndian, Reader.take_eq_ok_iff,
    Name.read_eq_decode, RecordAt, Record.holds_fields, Bytes.length_toBigEndian]
  constructor
  · rintro ⟨name, nameEnd, hname, rtype, _, ⟨htype, rfl⟩, rclass, _, ⟨hclass, rfl⟩, ttl, _,
      ⟨httl, rfl⟩, length, _, ⟨hlt, hlength, rfl⟩, dataOffset, _, hposition, data, _,
      ⟨rfl, hdata, rfl⟩, rfl, rfl⟩
    obtain ⟨rfl, rfl⟩ := Prod.mk.inj (Except.ok.inj hposition)
    have hbounds := Name.decode_bounds hname
    have hle := hdata.length_le
    have hend := hlength.end_le (by simp [← List.length_eq_zero_iff])
    rw [Bytes.length_toBigEndian] at hend
    refine ⟨nameEnd, hname, ⟨htype, hclass, httl, hlength, hdata⟩, hlt, rfl, rfl, ?_, ?_⟩
    · omega
    · omega
  · rintro ⟨nameEnd, hname, ⟨htype, hclass, httl, hlength, hdata⟩, hlt, hoffset, rfl, -, -⟩
    obtain ⟨⟨name, rtype, rclass, ttl, data⟩, dataOffset⟩ := record
    obtain rfl : dataOffset = nameEnd + 10 := hoffset
    exact ⟨name, nameEnd, hname, rtype, _, ⟨htype, rfl⟩, rclass, _, ⟨hclass, rfl⟩, ttl, _,
      ⟨httl, rfl⟩, data.length, _, ⟨hlt, hlength, rfl⟩, _, _, rfl, data, _, ⟨rfl, hdata, rfl⟩,
      rfl, rfl⟩

lemma question_read_eq (message : Message) :
    (fun (question : Question) start finish =>
      Readable.read message start = .ok (question, finish)) = QuestionAt message.toList := by
  funext question start finish
  exact propext question_read_iff

lemma record_read_eq (message : Message) :
    (fun (record : PlacedRecord) start finish =>
      Readable.read message start = .ok (record, finish)) = RecordAt message.toList := by
  funext record start finish
  exact propext record_read_iff

/-! ## The header -/

/-- The big-endian integer in the two bytes from an offset on. -/
def wordAt (message : Bytes) (offset : Nat) : Nat :=
  Bytes.ofBigEndian ((message.drop offset).take 2)

/-- The first twelve bytes of a message are those of a complete and successful response in
transaction `id` that counts so many questions and answers. -/
structure AcceptedHeader (message : Bytes) (id : UInt16) (questions answers : Nat) : Prop where
  length_le : 12 ≤ message.length
  id_eq : wordAt message 0 = id.toNat
  responseCode_eq : wordAt message 2 % 16 = 0
  truncated_eq : wordAt message 2 / 512 % 2 = 0
  questions_eq : wordAt message 4 = questions
  answers_eq : wordAt message 6 = answers

variable {message : Bytes} {offset : Nat}

lemma holds_wordAt (h : offset + 2 ≤ message.length) :
    Holds message offset (Bytes.toBigEndian 2 (UInt16.ofNat (wordAt message offset)).toNat) := by
  rw [wordAt, toBigEndian_word (length_take_drop h)]
  exact List.take_prefix _ _

lemma wordAt_of_holds {word : UInt16}
    (h : Holds message offset (Bytes.toBigEndian 2 word.toNat)) :
    wordAt message offset = word.toNat := by
  rw [holds_iff_take, Bytes.length_toBigEndian] at h
  rw [wordAt, h, ofBigEndian_word]

lemma Header.holds_wire {header : Header} : Holds message 0 header.wire ↔
    Holds message 0 (Bytes.toBigEndian 2 header.id.toNat) ∧
    Holds message 2 (Bytes.toBigEndian 2 header.flags.word.toNat) ∧
    Holds message 4 (Bytes.toBigEndian 2 header.questionCount.toNat) ∧
    Holds message 6 (Bytes.toBigEndian 2 header.answerCount.toNat) ∧
    Holds message 8 (Bytes.toBigEndian 2 header.authorityCount.toNat) ∧
    Holds message 10 (Bytes.toBigEndian 2 header.additionalCount.toNat) := by
  simp only [Header.wire, holds_append, List.length_append, Bytes.length_toBigEndian,
    Nat.reduceAdd, Nat.zero_add, and_assoc]

lemma Header.ofMessage_of_holds {header : Header} (hat : Holds message 0 header.wire) :
    Header.ofMessage message = .ok header := by
  have hread : (Readable.read : Reader Header) message.toArray 0 = .ok (header, 12) :=
    (Reader.takes_header _ _ _ _).2 ⟨hat, rfl⟩
  rw [Header.ofMessage, Reader.run, hread]

/-- Twelve bytes are always the wire form of some header. -/
lemma exists_header (h : 12 ≤ message.length) : ∃ header : Header, Holds message 0 header.wire := by
  -- any sixteen bits are those of some flags, so the flags can be read off their word as well
  let word (offset : Nat) : UInt16 := UInt16.ofNat (wordAt message offset)
  refine ⟨⟨word 0, Flags.ofWord (word 2), word 4, word 6, word 8, word 10⟩, ?_⟩
  rw [Header.holds_wire]
  simp only [Flags.word_ofWord]
  exact ⟨holds_wordAt (by omega), holds_wordAt (by omega), holds_wordAt (by omega),
    holds_wordAt (by omega), holds_wordAt (by omega), holds_wordAt (by omega)⟩

lemma Flags.responseCode_eq_zero_iff {flags : Flags} :
    flags.responseCode = 0 ↔ flags.word.toNat % 16 = 0 := by
  rw [← congrArg responseCode (ofWord_word flags)]
  simp [ofWord, Fin.ext_iff]

lemma Flags.truncated_eq_false_iff {flags : Flags} :
    flags.truncated = false ↔ flags.word.toNat / 512 % 2 = 0 := by
  rw [← congrArg truncated (ofWord_word flags)]
  simp [ofWord]

lemma Header.refusal?_eq_none_iff {header : Header} {id : UInt16} :
    header.refusal? id = none ↔
      header.id = id ∧ header.flags.responseCode = 0 ∧ header.flags.truncated = false := by
  by_cases hid : header.id = id
  · by_cases hcode : header.flags.responseCode = 0
    · simp [refusal?, hid, hcode]
    · simp [refusal?, hid, hcode]
  · simp [refusal?, hid]

/-- The header is accepted when it is the wire form of one that gives no reason to refuse. -/
lemma acceptedHeader_iff {id : UInt16} {questions answers : Nat} :
    AcceptedHeader message id questions answers ↔
      ∃ header : Header, Holds message 0 header.wire ∧ header.refusal? id = none ∧
        header.questionCount.toNat = questions ∧ header.answerCount.toNat = answers := by
  constructor
  · intro h
    obtain ⟨header, hat⟩ := exists_header h.length_le
    obtain ⟨hid, hflags, hquestions, hanswers, -, -⟩ := Header.holds_wire.1 hat
    have hcode := h.responseCode_eq
    have htruncated := h.truncated_eq
    rw [wordAt_of_holds hflags] at hcode htruncated
    refine ⟨header, hat, Header.refusal?_eq_none_iff.2 ⟨?_, ?_, ?_⟩, ?_, ?_⟩
    · exact UInt16.toNat_inj.1 ((wordAt_of_holds hid).symm.trans h.id_eq)
    · exact Flags.responseCode_eq_zero_iff.2 hcode
    · exact Flags.truncated_eq_false_iff.2 htruncated
    · exact (wordAt_of_holds hquestions).symm.trans h.questions_eq
    · exact (wordAt_of_holds hanswers).symm.trans h.answers_eq
  · rintro ⟨header, hat, hrefusal, rfl, rfl⟩
    obtain ⟨rfl, hcode, htruncated⟩ := Header.refusal?_eq_none_iff.1 hrefusal
    have hlength := hat.length_le
    rw [Header.length_wire] at hlength
    obtain ⟨hid, hflags, hquestions, hanswers, -, -⟩ := Header.holds_wire.1 hat
    refine ⟨hlength, wordAt_of_holds hid, ?_, ?_, wordAt_of_holds hquestions,
      wordAt_of_holds hanswers⟩
    · rw [wordAt_of_holds hflags]
      exact Flags.responseCode_eq_zero_iff.1 hcode
    · rw [wordAt_of_holds hflags]
      exact Flags.truncated_eq_false_iff.1 htruncated

/-! ## The whole response -/

/-- The answer records of a response are read when its header is accepted and the sections
that it counts are there. -/
lemma records_eq_ok_iff {message : Message} {id : UInt16} {records : List PlacedRecord}
    {finish : Nat} :
    Answer.records id message 0 = .ok (records, finish) ↔
      ∃ questions middle, AcceptedHeader message.toList id questions.length records.length ∧
        Consecutive (QuestionAt message.toList) questions 12 middle ∧ 1 ≤ records.length ∧
        Consecutive (RecordAt message.toList) records middle finish := by
  rw [Answer.records]
  simp only [Reader.bind_eq_ok_iff, Reader.takes_header message]
  -- the counts of the header are the lengths of what is found
  constructor
  · rintro ⟨header, _, ⟨hat, rfl⟩, h⟩
    rcases hrefusal : header.refusal? id with _ | error
    · simp only [hrefusal, Reader.bind_eq_ok_iff, Reader.times_eq_ok_iff, question_read_eq] at h
      obtain ⟨questions, middle, ⟨hquestions, hrow⟩, h⟩ := h
      split at h
      · cases h
      · rename_i hne
        rw [Reader.times_eq_ok_iff, record_read_eq] at h
        refine ⟨questions, middle, acceptedHeader_iff.2 ⟨header, hat, hrefusal, hquestions.symm,
          h.1.symm⟩, ?_, ?_, h.2⟩
        · simpa using hrow
        · rw [h.1, Nat.one_le_iff_ne_zero]
          exact fun h0 => hne (UInt16.toNat_inj.1 h0)
    · simp [hrefusal, Reader.fail] at h
  · rintro ⟨questions, middle, hheader, hquestions, hpos, hrecords⟩
    obtain ⟨header, hat, hrefusal, hcount, hcount'⟩ := acceptedHeader_iff.1 hheader
    refine ⟨header, _, ⟨hat, rfl⟩, ?_⟩
    have hne : header.answerCount ≠ 0 := fun h0 => by simp [h0] at hcount'; omega
    simp only [hrefusal, Reader.bind_eq_ok_iff, Reader.times_eq_ok_iff, question_read_eq,
      if_neg hne, record_read_eq, Header.length_wire, Nat.zero_add]
    exact ⟨questions, middle, ⟨hcount.symm, hquestions⟩, hcount'.symm, hrecords⟩

end StubResolver
