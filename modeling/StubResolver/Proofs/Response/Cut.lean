/-
# Responses that are cut off

A response that arrives without its end is read as far as it goes.  What comes of it is what
comes of the whole response, unless the reader misses bytes and says so; whatever else is wrong
is found in the same place (`foretells_parse`).

Where the answer records that the header counts end is called the end of the answers
(`AnswersEnd`).  A response that is answered cannot be cut off in front of it without being
found short (`parse_take`).
-/
import StubResolver.Proofs.Prefix
import StubResolver.Proofs.Response.WellFormed

namespace StubResolver

/-! ## The data of a record -/

lemma Foretells.map {α β : Type} {part whole : Except WireError α} (h : Foretells part whole)
    (f : α → β) : Foretells (part.map f) (whole.map f) := by
  rcases h with ⟨error, rfl, hshort⟩ | rfl
  · exact .inl ⟨error, rfl, hshort⟩
  · exact .refl _

namespace PlacedRecord

lemma foretells_exchange (record : PlacedRecord) (message rest : Message) :
    Foretells (record.exchange message) (record.exchange (message ++ rest)) := by
  simp only [exchange]
  split
  · exact .refl _
  · rcases Reader.steady_name message rest (record.dataOffset + 2) with
      ⟨error, herror, hshort⟩ | hsame
    · rw [herror]
      exact .inl ⟨error, rfl, hshort⟩
    · rw [hsame]
      exact .refl _

lemma foretells_answer (record : PlacedRecord) (type : QueryType) (message rest : Message) :
    Foretells (record.answer message type) (record.answer (message ++ rest) type) := by
  cases type with
  | a =>
    rw [answer_a, answer_a]
    exact .refl _
  | mx =>
    rw [answer_mx, answer_mx]
    exact (record.foretells_exchange message rest).map _

end PlacedRecord

/-! ## The end of the answers -/

/-- The entries that the header counts are there, the questions behind the header and the
answer records behind the questions, and the last of these ends in front of `finish`. -/
def AnswersEnd (message : Bytes) (finish : Nat) : Prop :=
  ∃ (questions : List Question) (records : List PlacedRecord) (middle : Nat),
    questions.length = wordAt message 4 ∧ records.length = wordAt message 6 ∧
    Consecutive (QuestionAt message) questions 12 middle ∧
    Consecutive (RecordAt message) records middle finish

lemma AcceptedHeader.answersEnd {message : Bytes} {id : UInt16} {questions : List Question}
    {records : List PlacedRecord} {middle finish : Nat}
    (h : AcceptedHeader message id questions.length records.length)
    (hquestions : Consecutive (QuestionAt message) questions 12 middle)
    (hrecords : Consecutive (RecordAt message) records middle finish) :
    AnswersEnd message finish :=
  ⟨questions, records, middle, h.questions_eq.symm, h.answers_eq.symm, hquestions, hrecords⟩

lemma Consecutive.finish_le {α : Type} {Entry : α → Nat → Nat → Prop} {values : List α}
    {start finish bound : Nat} (h : Consecutive Entry values start finish)
    (hentry : ∀ value o p, Entry value o p → p ≤ bound) (hstart : start ≤ bound) :
    finish ≤ bound := by
  induction h with
  | nil => exact hstart
  | cons hfirst _ ih => exact ih (hentry _ _ _ hfirst)

/-- Behind a header all entries end within the message. -/
lemma AnswersEnd.finish_le {message : Bytes} {finish : Nat} (h : AnswersEnd message finish)
    (hlength : 12 ≤ message.length) : finish ≤ message.length := by
  obtain ⟨questions, records, middle, -, -, hquestions, hrecords⟩ := h
  have hmiddle := hquestions.finish_le (fun _ _ _ => QuestionAt.finish_le) hlength
  exact hrecords.finish_le (fun _ _ _ => RecordAt.finish_le) hmiddle

namespace Answer

variable {message : Bytes} {id : UInt16} {records : List PlacedRecord} {finish : Nat}

/-- The records that are read end at the end of the answers. -/
lemma answersEnd_iff (h : Answer.records id message.toArray 0 = .ok (records, finish))
    {offset : Nat} : AnswersEnd message offset ↔ offset = finish := by
  obtain ⟨questions, middle, hheader, hquestions, hpos, hrecords⟩ := records_eq_ok_iff.1 h
  constructor
  · rintro ⟨questions', records', middle', hcount, hcount', hquestions', hrecords'⟩
    have hheader' : AcceptedHeader message id questions'.length records'.length :=
      { hheader with questions_eq := hcount.symm, answers_eq := hcount'.symm }
    have hpos' : 1 ≤ records'.length := by
      rw [hcount', hheader.answers_eq]
      exact hpos
    have h' : Answer.records id message.toArray 0 = .ok (records', offset) :=
      records_eq_ok_iff.2 ⟨_, _, hheader', hquestions', hpos', hrecords'⟩
    rw [h] at h'
    exact (Prod.mk.inj (Except.ok.inj h')).2.symm
  · rintro rfl
    exact hheader.answersEnd hquestions hrecords

lemma records_finish_le (h : Answer.records id message.toArray 0 = .ok (records, finish)) :
    finish ≤ message.length := by
  obtain ⟨questions, middle, hheader, hquestions, -, hrecords⟩ := records_eq_ok_iff.1 h
  exact (hheader.answersEnd hquestions hrecords).finish_le hheader.length_le

lemma exists_records_of_parse {type : RecordType} {answer : Answer}
    (h : parse message id type = .ok answer) :
    ∃ records finish, Answer.records id message.toArray 0 = .ok (records, finish) := by
  rw [parse] at h
  split at h
  · cases h
  · obtain ⟨before, record, after, finish, hrecords, -⟩ := ofMessage_eq_ok_iff.1 h
    exact ⟨_, finish, hrecords⟩

/-- Records that are read from a message are read from a longer one. -/
lemma records_append (h : Answer.records id message.toArray 0 = .ok (records, finish))
    (rest : Bytes) : Answer.records id (message ++ rest).toArray 0 = .ok (records, finish) := by
  rw [← List.append_toArray]
  exact (Reader.steady_records id message.toArray rest.toArray 0).ok h

/-! ## Cutting a response -/

lemma foretells_ofMessage (message rest : Bytes) (id : UInt16) (type : QueryType) :
    Foretells (ofMessage message id type) (ofMessage (message ++ rest) id type) := by
  rw [ofMessage, ofMessage, Reader.run, Reader.run, ← List.append_toArray]
  rcases Reader.steady_records id message.toArray rest.toArray 0 with
    ⟨error, herror, hshort⟩ | hsame
  · rw [herror]
    exact .inl ⟨error, rfl, hshort⟩
  · rw [← hsame]
    split
    · exact .refl _
    · split
      · exact .refl _
      · exact PlacedRecord.foretells_answer _ type _ _

lemma foretells_parse (message rest : Bytes) (id : UInt16) (type : RecordType) :
    Foretells (parse message id type) (parse (message ++ rest) id type) := by
  rw [parse, parse]
  split
  · exact .refl _
  · exact foretells_ofMessage message rest id _

/-- **Cutting a response short does not change what it says**, it only makes bytes be missing:
the result is the same, or it says that bytes are missing.  Bytes are missing from any response
that was answered and is cut off in front of the end of its answers. -/
theorem parse_take (message : Bytes) (id : UInt16) (type : RecordType) (cut : Nat) :
    (parse (message.take cut) id type = parse message id type ∨
      RunsShort (parse (message.take cut) id type)) ∧
    ∀ answer, parse message id type = .ok answer →
      ∃ finish, (∀ offset, AnswersEnd message offset ↔ offset = finish) ∧
        (cut < finish → RunsShort (parse (message.take cut) id type)) := by
  have hforetells : Foretells (parse (message.take cut) id type) (parse message id type) := by
    simpa using foretells_parse (message.take cut) (message.drop cut) id type
  refine ⟨hforetells.symm, ?_⟩
  intro answer hanswer
  obtain ⟨records, finish, hrecords⟩ := exists_records_of_parse hanswer
  refine ⟨finish, fun offset => answersEnd_iff hrecords, ?_⟩
  intro hcut
  rcases hforetells with hshort | hsame
  · exact hshort
  · -- were it answered, its records would end inside of what is left
    exfalso
    obtain ⟨records', finish', hrecords'⟩ := exists_records_of_parse (hsame.trans hanswer)
    have hle := records_finish_le hrecords'
    have hwhole := records_append hrecords' (message.drop cut)
    rw [List.take_append_drop, hrecords] at hwhole
    obtain ⟨-, rfl⟩ := Prod.mk.inj (Except.ok.inj hwhole)
    rw [List.length_take] at hle
    omega

/-- A response of 27 bytes to query 5, with the address of the root. -/
def rootAddress : Bytes :=
  [0, 5, 128, 0, 0, 0, 0, 1, 0, 0, 0, 0] ++ [0, 0, 1, 0, 1, 0, 0, 0, 9, 0, 4, 192, 168, 0, 1]

lemma answersEnd_rootAddress : AnswersEnd rootAddress 27 := by
  have hread : (Answer.records 5 rootAddress.toArray 0).map (·.2) = .ok 27 := by decide +kernel
  obtain ⟨⟨records, finish⟩, hrecords, rfl⟩ := map_eq_ok_iff.1 hread
  exact (answersEnd_iff hrecords).2 rfl

/-- The case of a response without anything behind its answers. -/
theorem parse_take_rootAddress :
    parse rootAddress 5 .a = .ok ⟨Name.root, 9, .address ⟨192, 168, 0, 1⟩⟩ ∧
      ∀ cut < 27, RunsShort (parse (rootAddress.take cut) 5 .a) := by
  have hanswer : parse rootAddress 5 .a = .ok ⟨Name.root, 9, .address ⟨192, 168, 0, 1⟩⟩ := by
    decide +kernel
  refine ⟨hanswer, ?_⟩
  intro cut hcut
  obtain ⟨-, hshort⟩ := parse_take rootAddress 5 .a cut
  obtain ⟨finish, hends, hshort⟩ := hshort _ hanswer
  obtain rfl := (hends 27).1 answersEnd_rootAddress
  exact hshort hcut

end Answer

end StubResolver
