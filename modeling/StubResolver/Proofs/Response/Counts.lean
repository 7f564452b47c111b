/-
# How much a header can count

The header of a message counts entries that need not be there.  Each entry that is read takes up
bytes of its own, at least five if it is a question and eleven and its data if it is a record
(`QuestionAt.add_le`, `RecordAt.add_le`).  This holds even of entries whose names continue
elsewhere in the message, as what stands behind a name begins where its own bytes end.

Entries that follow one another share no byte, so their sizes add up (`Consecutive.add_mul_le`).
Hence a message that is read through to the last entry has room for all that its header counts,
and this is so for each of the results that are only given after that (`Answer.parse_counts`).
-/
import StubResolver.Proofs.Response.Cut
import StubResolver.Proofs.Response.Verdict

namespace StubResolver

variable {message : Bytes} {id : UInt16} {start finish : Nat}

/-! ## Sizes of entries -/

/-- Entries that have at least some width each have it as often as there are entries. -/
lemma Consecutive.add_mul_le {α : Type} {Entry : α → Nat → Nat → Prop} {values : List α}
    (h : Consecutive Entry values start finish) (width : Nat)
    (hentry : ∀ value o p, Entry value o p → o + width ≤ p) :
    start + width * values.length ≤ finish := by
  induction h with
  | nil => simp
  | cons hfirst _ ih =>
    have hle := hentry _ _ _ hfirst
    rw [List.length_cons, Nat.mul_succ]
    omega

/-- A name has a byte at least, and its type and class have two each. -/
lemma QuestionAt.add_le {question : Question} (h : QuestionAt message question start finish) :
    start + 5 ≤ finish := by
  obtain ⟨nameEnd, hname, -, rfl, -, -⟩ := h
  have hlt := (Name.decode_bounds hname).1
  omega

/-- Between a name and its data a record has ten bytes. -/
lemma RecordAt.add_le {record : PlacedRecord} (h : RecordAt message record start finish) :
    start + 11 + record.data.length ≤ finish := by
  obtain ⟨nameEnd, hname, -, -, hoffset, rfl, -, -⟩ := h
  have hlt := (Name.decode_bounds hname).1
  omega

lemma add_le_of_questions {questions : List Question}
    (h : Consecutive (QuestionAt message) questions start finish) :
    start + 5 * questions.length ≤ finish :=
  h.add_mul_le 5 fun _ _ _ => QuestionAt.add_le

lemma add_le_of_records {records : List PlacedRecord}
    (h : Consecutive (RecordAt message) records start finish) :
    start + 11 * records.length ≤ finish := by
  refine h.add_mul_le 11 fun _ _ _ hrecord => ?_
  exact Nat.le_trans (Nat.le_add_right _ _) hrecord.add_le

/-! ## Messages that are read through -/

/-- The results that are only given after all the entries that the header counts are read: an
answer, or that no record is there, or none of the wanted type, or that the data of one is not
what its type calls for. -/
inductive Answer.ReadThrough : Except WireError Answer → Prop
  | answer (answer : Answer) : ReadThrough (.ok answer)
  | noAnswers : ReadThrough (.error .noAnswers)
  | noMatchingRecord : ReadThrough (.error .noMatchingRecord)
  | invalidRecordData (type : UInt16) (length : Nat) :
    ReadThrough (.error (.invalidRecordData type length))

lemma HeaderFlaw.not_readThrough {error : WireError} (h : HeaderFlaw message id error) :
    ¬Answer.ReadThrough (.error error) := by
  cases h <;> exact nofun

lemma EntryFlaw.not_readThrough {widths : Nat → List Nat} {error : WireError}
    (h : EntryFlaw message widths start error) : ¬Answer.ReadThrough (.error error) := by
  obtain ⟨_, _, rfl⟩ | ⟨_, _, rfl⟩ := h.exists_eq
  · exact nofun
  · exact nofun

lemma Verdict.exists_answersEnd {type : RecordType} {result : Except WireError Answer}
    (h : Verdict message id type result) (hresult : Answer.ReadThrough result) :
    12 ≤ message.length ∧ ∃ finish, AnswersEnd message finish := by
  cases h with
  | unsupported => cases hresult
  | refused hrefusal =>
    cases hrefusal with
    | header hflaw => exact absurd hresult hflaw.not_readThrough
    | question _ _ _ hflaw | record _ _ _ _ hflaw => exact absurd hresult hflaw.not_readThrough
    | @noAnswers middle _ haccepted hquestions =>
      have hnone : Consecutive (RecordAt message) [] middle middle := .nil
      exact ⟨haccepted.length_le, _, haccepted.answersEnd hquestions hnone⟩
  | noMatch haccepted _ hquestions hrecords | firstMatch haccepted hquestions hrecords =>
    exact ⟨haccepted.length_le, _, haccepted.answersEnd hquestions hrecords⟩

/-- There is room for the entries in front of the end of the answers. -/
lemma AnswersEnd.exists_ofMessage (h : AnswersEnd message finish) (hlength : 12 ≤ message.length) :
    ∃ header, Header.ofMessage message = .ok header ∧
      12 + 5 * header.questionCount.toNat + 11 * header.answerCount.toNat ≤ message.length := by
  have hend := h.finish_le hlength
  obtain ⟨questions, records, middle, hcount, hcount', hquestions, hrecords⟩ := h
  obtain ⟨header, hat⟩ := exists_header hlength
  obtain ⟨-, -, hquestionCount, hanswerCount, -, -⟩ := Header.holds_wire.1 hat
  rw [wordAt_of_holds hquestionCount] at hcount
  rw [wordAt_of_holds hanswerCount] at hcount'
  have hmiddle := add_le_of_questions hquestions
  have hfinish := add_le_of_records hrecords
  refine ⟨header, Header.ofMessage_of_holds hat, ?_⟩
  omega

/-- **A header cannot count more than its message can hold.**  A question that is read takes up at
least five bytes, and a record eleven bytes and its data, wherever their names continue.  So a
message that is read through has at least twelve bytes, and five for each question and eleven for
each answer that its header counts. -/
theorem Answer.parse_counts (message : Bytes) :
    (∀ start question finish,
      (Readable.read : Reader Question).run message start = .ok (question, finish) →
        start + 5 ≤ finish) ∧
    (∀ start record finish,
      (Readable.read : Reader PlacedRecord).run message start = .ok (record, finish) →
        start + 11 + record.data.length ≤ finish) ∧
    ∀ id type, ReadThrough (parse message id type) →
      ∃ header, Header.ofMessage message = .ok header ∧
        12 + 5 * header.questionCount.toNat + 11 * header.answerCount.toNat ≤ message.length := by
  refine ⟨?_, ?_, ?_⟩
  · intro start question finish hread
    exact QuestionAt.add_le (question_read_iff.1 hread)
  · intro start record finish hread
    exact RecordAt.add_le (record_read_iff.1 hread)
  · intro id type hresult
    obtain ⟨hlength, finish, hends⟩ := (verdict_parse message id type).exists_answersEnd hresult
    exact hends.exists_ofMessage hlength

/-- The case of a response to query 5 without a byte to spare, whose only record has the name of the
root and no data. -/
theorem Answer.parse_counts_root :
    let message : Bytes :=
      [0, 5, 128, 0, 0, 1, 0, 1, 0, 0, 0, 0] ++ [0, 0, 1, 0, 1] ++ [0, 0, 1, 0, 1, 0, 0, 0, 9, 0, 0]
    12 + 5 ≤ 17 ∧ 17 + 11 + 0 ≤ 28 ∧ parse message 5 .a = .error (.invalidRecordData 1 0) ∧
      ∃ header, Header.ofMessage message = .ok header ∧
        12 + 5 * header.questionCount.toNat + 11 * header.answerCount.toNat ≤ 28 := by
  intro message
  obtain ⟨hquestion, hrecord, hcounts⟩ := parse_counts message
  have hresult : parse message 5 .a = .error (.invalidRecordData 1 0) := by decide +kernel
  refine ⟨hquestion 12 ⟨Name.root, 1, 1⟩ 17 (by decide +kernel),
    hrecord 17 ⟨⟨Name.root, 1, 1, 9, []⟩, 28⟩ 28 (by decide +kernel), hresult, ?_⟩
  apply hcounts 5 .a
  rw [hresult]
  exact .invalidRecordData 1 0

end StubResolver
