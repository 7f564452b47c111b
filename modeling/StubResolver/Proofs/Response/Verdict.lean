/-
# The first thing that is wrong with a response

A response is checked in the order in which it is read, and it is refused for the first check
that it fails: the header, the transaction, the server's verdict, the questions one by one, the
number of answers, the records one by one, the type that is wanted, and the data of the first
record of this type.  `Refusal` lists what can be wrong up to the records, `PlacedRecord.Yields`
what comes of the data of a record, and `Verdict` puts them together.  Each case says that all
the checks before it are passed and nothing about what stands behind it.

Every response falls into one of these cases, and what comes of it is determined by the case
(`parse_eq_iff`).  So neither can an error be masked by a later one, nor can a flaw that stands
in front of the first record of the wanted type be made up for by a later record.
-/
import StubResolver.Proofs.Name.Defects
import StubResolver.Proofs.Refusing
import StubResolver.Proofs.Response.WellFormed

namespace StubResolver

/-! ## Entries that cannot be read -/

/-- The entry at an offset, a name and fields of the given widths behind it, cannot be read: its
name is malformed, or some of its fields are missing. -/
inductive EntryFlaw (message : Bytes) (widths : Nat → List Nat) (start : Nat) : WireError → Prop
  | name {place : Nat} {flaw : NameFlaw} :
      Name.decode message start = .error (.malformedName place flaw) →
      EntryFlaw message widths start (.malformedName place flaw)
  | fields {name : Name} {nameEnd : Nat} {error : WireError} :
      Name.decode message start = .ok (name, nameEnd) →
      FieldMissing message nameEnd (widths nameEnd) error → EntryFlaw message widths start error

lemma EntryFlaw.exists_eq {message : Bytes} {widths : Nat → List Nat} {start : Nat}
    {error : WireError} (h : EntryFlaw message widths start error) :
    (∃ place flaw, error = .malformedName place flaw) ∨
      ∃ upTo available, error = .truncated upTo available := by
  cases h with
  | name => exact .inl ⟨_, _, rfl⟩
  | fields _ hmissing => exact .inr hmissing.exists_eq

/-- Behind the name of a question stand its type and its class. -/
def questionWidths (_nameEnd : Nat) : List Nat :=
  [2, 2]

/-- Behind the name of a record stand its type, its class, its time to live, the length of its
data, and as many bytes of data. -/
def recordWidths (message : Bytes) (nameEnd : Nat) : List Nat :=
  [2, 2, 4, 2, wordAt message (nameEnd + 8)]

/-- A reader of an entry refuses its name or what it wants behind the name. -/
lemma entryFlaw_iff {α : Type} {message : Message} {start : Nat} {error : WireError}
    {fields : Name → Reader α} {widths : Nat → List Nat}
    (hfields : ∀ name nameEnd, nameEnd ≤ message.size →
      Reader.Wants (fields name) message nameEnd (widths nameEnd)) :
    (Name.read >>= fields) message start = .error error ↔
      EntryFlaw message.toList widths start error := by
  rw [Reader.bind_eq_error_iff, Name.read_eq_decode]
  constructor
  · rintro (hname | ⟨name, nameEnd, hname, herror⟩)
    · obtain ⟨place, flaw, rfl⟩ := Name.exists_of_decode_eq_error hname
      exact .name hname
    · have hle := (Name.decode_bounds hname).2
      exact .fields hname ((hfields name nameEnd (by simpa using hle) error).1 herror)
  · rintro (hname | ⟨hname, hmissing⟩)
    · exact .inl hname
    · have hle := (Name.decode_bounds hname).2
      exact .inr ⟨_, _, hname, (hfields _ _ (by simpa using hle) error).2 hmissing⟩

lemma question_read_error_iff {message : Message} {start : Nat} {error : WireError} :
    (Readable.read : Reader Question) message start = .error error ↔
      EntryFlaw message.toList questionWidths start error := by
  refine entryFlaw_iff fun name nameEnd hle => ?_
  refine Reader.isField_word.bind hle fun _ h _ => ?_
  exact Reader.isField_word.bind h fun _ _ _ => Reader.wants_pure _

lemma record_read_error_iff {message : Message} {start : Nat} {error : WireError} :
    (Readable.read : Reader PlacedRecord) message start = .error error ↔
      EntryFlaw message.toList (recordWidths message.toList) start error := by
  refine entryFlaw_iff fun name nameEnd hle => ?_
  refine Reader.isField_word.bind hle fun _ h _ => ?_
  refine Reader.isField_word.bind h fun _ h _ => ?_
  refine Reader.isField_long.bind h fun _ h _ => ?_
  refine (Reader.isField_bigEndian 2).bind h fun length h hlength => ?_
  -- the length that was read is the width of the data
  obtain ⟨hlt, hat, -⟩ := (Reader.takes_bigEndian 2 _ _ _ _).1 hlength
  have hwidth : wordAt message.toList (nameEnd + 8) = length := by
    rw [wordAt, ← Bytes.length_toBigEndian 2 length, holds_iff_take.1 hat,
      Bytes.ofBigEndian_toBigEndian]
    exact Nat.mod_eq_of_lt hlt
  rw [hwidth]
  exact (Reader.isField_take length).bind h fun _ _ _ => Reader.wants_pure _

/-! ## Headers that are refused -/

/-- The header of a response is not there, or it is refused in transaction `id`. -/
inductive HeaderFlaw (message : Bytes) (id : UInt16) : WireError → Prop
  | missing : message.length < 12 →
      HeaderFlaw message id (.truncated (2 * (message.length / 2 + 1)) message.length)
  | idMismatch : 12 ≤ message.length → wordAt message 0 ≠ id.toNat →
      HeaderFlaw message id (.idMismatch id (.ofNat (wordAt message 0)))
  | serverFailure : 12 ≤ message.length → wordAt message 0 = id.toNat →
      wordAt message 2 % 16 ≠ 0 →
      HeaderFlaw message id (.serverFailure (.ofNat (wordAt message 2 % 16)))
  | responseTruncated : 12 ≤ message.length → wordAt message 0 = id.toNat →
      wordAt message 2 % 16 = 0 → wordAt message 2 / 512 % 2 = 1 →
      HeaderFlaw message id .responseTruncated

lemma header_read_error_iff {message : Message} {error : WireError} :
    (Readable.read : Reader Header) message 0 = .error error ↔ message.toList.length < 12 ∧
      error = .truncated (2 * (message.toList.length / 2 + 1)) message.toList.length := by
  have hwords : FieldMissing message.toList (2 * 0) (List.replicate 6 2) error ↔ _ :=
    fieldMissing_words_iff (Nat.zero_le _)
  rw [Reader.wants_header]
  refine hwords.trans (and_congr_right fun hlt => ?_)
  rw [Nat.min_eq_left]
  exact Nat.le_trans (show _ ≤ 12 by omega) (by decide)

lemma Flags.val_responseCode (flags : Flags) :
    flags.responseCode.val = flags.word.toNat % 16 := by
  rw [← congrArg responseCode (ofWord_word flags)]
  simp [ofWord]

lemma Flags.truncated_eq_true_iff {flags : Flags} :
    flags.truncated = true ↔ flags.word.toNat / 512 % 2 = 1 := by
  rw [← congrArg truncated (ofWord_word flags)]
  simp [ofWord]

/-- A header that is there is refused for its flaw. -/
lemma headerFlaw_iff_of_holds {message : Bytes} {id : UInt16} {header : Header}
    {error : WireError} (hat : Holds message 0 header.wire) :
    HeaderFlaw message id error ↔ header.refusal? id = some error := by
  have hlength := hat.length_le
  rw [Header.length_wire, Nat.sub_zero] at hlength
  obtain ⟨hid, hflags, -⟩ := Header.holds_wire.1 hat
  replace hid := wordAt_of_holds hid
  have hcode : wordAt message 2 % 16 = header.flags.responseCode.val := by
    rw [wordAt_of_holds hflags, Flags.val_responseCode]
  have htruncated : wordAt message 2 / 512 % 2 = 1 ↔ header.flags.truncated = true := by
    rw [wordAt_of_holds hflags, Flags.truncated_eq_true_iff]
  have hsame : wordAt message 0 = id.toNat ↔ header.id = id := by rw [hid, UInt16.toNat_inj]
  have hfound : UInt16.ofNat (wordAt message 0) = header.id := by rw [hid, UInt16.ofNat_toNat]
  rw [Header.refusal?]
  constructor
  · rintro (hlt | ⟨-, hne⟩ | ⟨-, heq, hne⟩ | ⟨-, heq, hzero, hcut⟩)
    · omega
    · rw [if_pos (mt hsame.2 hne), hfound]
    · rw [hcode] at hne ⊢
      rw [if_neg (not_not.2 (hsame.1 heq)), if_pos hne]
    · rw [hcode] at hzero
      rw [if_neg (not_not.2 (hsame.1 heq)), if_neg (not_not.2 hzero), if_pos (htruncated.1 hcut)]
  · intro hrefusal
    split at hrefusal
    · rename_i hne
      obtain rfl := Option.some.inj hrefusal
      rw [← hfound]
      exact .idMismatch hlength (mt hsame.1 hne)
    · rename_i heq
      replace heq := hsame.2 (not_not.1 heq)
      split at hrefusal
      · rename_i hne
        obtain rfl := Option.some.inj hrefusal
        rw [← hcode] at hne ⊢
        exact .serverFailure hlength heq hne
      · rename_i hzero
        replace hzero := hcode.trans (not_not.1 hzero)
        split at hrefusal
        · rename_i hcut
          obtain rfl := Option.some.inj hrefusal
          exact .responseTruncated hlength heq hzero (htruncated.2 hcut)
        · cases hrefusal

/-- A header that is not there is missed, and nothing else is wrong with it. -/
lemma headerFlaw_iff_of_lt {message : Bytes} {id : UInt16} {error : WireError}
    (h : message.length < 12) : HeaderFlaw message id error ↔
      error = .truncated (2 * (message.length / 2 + 1)) message.length := by
  constructor
  · rintro (_ | ⟨hle, -⟩ | ⟨hle, -⟩ | ⟨hle, -⟩)
    · rfl
    all_goals omega
  · rintro rfl
    exact .missing h

/-! ## Responses that are refused -/

/-- A response is refused in transaction `id` before the type that is wanted matters: for its
header, for a question behind those that are there, for the number of its answers, or for a
record behind those that are there. -/
inductive Refusal (message : Bytes) (id : UInt16) : WireError → Prop
  | header {error : WireError} : HeaderFlaw message id error → Refusal message id error
  | question {counted answers middle : Nat} {questions : List Question} {error : WireError} :
      AcceptedHeader message id counted answers → questions.length < counted →
      Consecutive (QuestionAt message) questions 12 middle →
      EntryFlaw message questionWidths middle error → Refusal message id error
  | noAnswers {middle : Nat} {questions : List Question} :
      AcceptedHeader message id questions.length 0 →
      Consecutive (QuestionAt message) questions 12 middle → Refusal message id .noAnswers
  | record {counted middle place : Nat} {questions : List Question}
      {records : List PlacedRecord} {error : WireError} :
      AcceptedHeader message id questions.length counted →
      Consecutive (QuestionAt message) questions 12 middle → records.length < counted →
      Consecutive (RecordAt message) records middle place →
      EntryFlaw message (recordWidths message) place error → Refusal message id error

/-- The records of a response are not read just when it is refused. -/
lemma records_eq_error_iff {message : Message} {id : UInt16} {error : WireError} :
    Answer.records id message 0 = .error error ↔ Refusal message.toList id error := by
  rw [Answer.records, Reader.bind_eq_error_iff, header_read_error_iff]
  simp only [Reader.takes_header message, Header.length_wire, Nat.zero_add]
  constructor
  · rintro (⟨hlt, rfl⟩ | ⟨header, _, ⟨hat, rfl⟩, h⟩)
    · exact .header (.missing hlt)
    rcases hrefusal : header.refusal? id with _ | refused
    · have haccepted : AcceptedHeader message.toList id header.questionCount.toNat
          header.answerCount.toNat := acceptedHeader_iff.2 ⟨header, hat, hrefusal, rfl, rfl⟩
      simp only [hrefusal, Reader.bind_eq_error_iff, Reader.times_eq_error_iff,
        Reader.times_eq_ok_iff, question_read_eq, question_read_error_iff] at h
      obtain ⟨questions, middle, hlt, hrow, hflaw⟩ | ⟨questions, middle, ⟨hcount, hrow⟩, h⟩ := h
      · exact .question haccepted hlt hrow hflaw
      rw [← hcount] at haccepted
      split at h
      · rename_i hzero
        obtain rfl := Except.error.inj h
        rw [hzero] at haccepted
        exact .noAnswers haccepted hrow
      · simp only [Reader.times_eq_error_iff, record_read_eq, record_read_error_iff] at h
        obtain ⟨records, place, hlt, hrecords, hflaw⟩ := h
        exact .record haccepted hrow hlt hrecords hflaw
    · simp only [hrefusal, Reader.fail, Except.error.injEq] at h
      exact .header ((headerFlaw_iff_of_holds hat).2 (h ▸ hrefusal))
  · intro hrefusal
    cases hrefusal with
    | header hflaw =>
      rcases Nat.lt_or_ge message.toList.length 12 with hlt | hle
      · exact .inl ⟨hlt, (headerFlaw_iff_of_lt hlt).1 hflaw⟩
      · obtain ⟨header, hat⟩ := exists_header hle
        refine .inr ⟨header, 12, ⟨hat, rfl⟩, ?_⟩
        rw [(headerFlaw_iff_of_holds hat).1 hflaw]
        rfl
    | question haccepted hlt hrow hflaw =>
      obtain ⟨header, hat, hrefusal, rfl, -⟩ := acceptedHeader_iff.1 haccepted
      refine .inr ⟨header, 12, ⟨hat, rfl⟩, ?_⟩
      simp only [hrefusal, Reader.bind_eq_error_iff, Reader.times_eq_error_iff, question_read_eq,
        question_read_error_iff]
      exact .inl ⟨_, _, hlt, hrow, hflaw⟩
    | noAnswers haccepted hrow =>
      obtain ⟨header, hat, hrefusal, hcount, hzero⟩ := acceptedHeader_iff.1 haccepted
      refine .inr ⟨header, 12, ⟨hat, rfl⟩, ?_⟩
      simp only [hrefusal, Reader.bind_eq_error_iff, Reader.times_eq_ok_iff, question_read_eq,
        if_pos (show header.answerCount = 0 from UInt16.toNat_inj.1 hzero)]
      exact .inr ⟨_, _, ⟨hcount.symm, hrow⟩, rfl⟩
    | record haccepted hrow hlt hrecords hflaw =>
      obtain ⟨header, hat, hrefusal, hcount, rfl⟩ := acceptedHeader_iff.1 haccepted
      refine .inr ⟨header, 12, ⟨hat, rfl⟩, ?_⟩
      have hne : header.answerCount ≠ 0 := by
        intro hzero
        rw [hzero] at hlt
        exact absurd hlt (Nat.not_lt_zero _)
      simp only [hrefusal, Reader.bind_eq_error_iff, Reader.times_eq_ok_iff, question_read_eq,
        if_neg hne, Reader.times_eq_error_iff, record_read_eq, record_read_error_iff]
      exact .inr ⟨_, _, ⟨hcount.symm, hrow⟩, _, _, hlt, hrecords, hflaw⟩

/-! ## What the data of a record comes to -/

/-- What comes of the data of a record as the data of a record of the given type: an answer, or
the reason for which it gives none. -/
inductive PlacedRecord.Yields (message : Bytes) (record : PlacedRecord) :
    QueryType → Except WireError Answer → Prop
  | answer {type : QueryType} {answer : Answer} :
      answer.name = record.name → answer.ttl = record.ttl →
      record.Gives message type answer.data → Yields message record type (.ok answer)
  | notFour : record.data.length ≠ 4 →
      Yields message record .a (.error (.invalidRecordData 1 record.data.length))
  | tooShort : record.data.length < 3 →
      Yields message record .mx (.error (.invalidRecordData 15 record.data.length))
  | malformed {place : Nat} {flaw : NameFlaw} : 3 ≤ record.data.length →
      Name.decode message (record.dataOffset + 2) = .error (.malformedName place flaw) →
      Yields message record .mx (.error (.malformedName place flaw))
  | beyond {host : Name} {finish : Nat} : 3 ≤ record.data.length →
      Name.decode message (record.dataOffset + 2) = .ok (host, finish) →
      record.dataOffset + record.data.length < finish →
      Yields message record .mx (.error (.invalidRecordData 15 record.data.length))

namespace PlacedRecord

variable {message : Bytes} {record : PlacedRecord}

lemma Yields.answer_eq {type : QueryType} {result : Except WireError Answer}
    (h : record.Yields message type result) : record.answer message.toArray type = result := by
  cases h with
  | answer hname httl hgives => exact answer_eq_ok_iff.2 ⟨hname, httl, hgives⟩
  | notFour hne => exact answer_of_length_ne hne
  | tooShort hlt => exact answer_of_length_lt hlt
  | malformed hle hname => exact answer_of_decode_error hle hname
  | beyond hle hname hlt => exact answer_of_decode_beyond hle hname hlt

/-- Something comes of the data of every record. -/
lemma exists_yields (message : Bytes) (record : PlacedRecord) (type : QueryType) :
    ∃ result, record.Yields message type result := by
  cases type with
  | a =>
    rcases Decidable.em (record.data.length = 4) with hfour | hne
    · obtain ⟨a, b, c, d, hdata⟩ : ∃ a b c d, record.data = [a, b, c, d] := by
        match record.data, hfour with
        | [a, b, c, d], _ => exact ⟨a, b, c, d, rfl⟩
      exact ⟨.ok ⟨record.name, record.ttl, _⟩, .answer rfl rfl (.address hdata)⟩
    · exact ⟨_, .notFour hne⟩
  | mx =>
    rcases Nat.lt_or_ge record.data.length 3 with hlt | hle
    · exact ⟨_, .tooShort hlt⟩
    rcases hname : Name.decode message (record.dataOffset + 2) with error | ⟨host, finish⟩
    · obtain ⟨place, flaw, rfl⟩ := Name.exists_of_decode_eq_error hname
      exact ⟨_, .malformed hle hname⟩
    rcases Nat.lt_or_ge (record.dataOffset + record.data.length) finish with hlt | hend
    · exact ⟨_, .beyond hle hname hlt⟩
    · have htake : (record.data.take 2).length = 2 := by
        rw [List.length_take]
        omega
      exact ⟨.ok ⟨record.name, record.ttl, _⟩,
        .answer rfl rfl (.exchange hle (toBigEndian_word htake).symm hname hend)⟩

lemma answer_eq_iff {type : QueryType} {result : Except WireError Answer} :
    record.answer message.toArray type = result ↔ record.Yields message type result := by
  refine ⟨?_, Yields.answer_eq⟩
  rintro rfl
  obtain ⟨result, hyields⟩ := exists_yields message record type
  rwa [hyields.answer_eq]

end PlacedRecord

/-! ## The verdict -/

/-- What comes of a response in transaction `id`, for each type that may be wanted. -/
inductive Verdict (message : Bytes) (id : UInt16) :
    RecordType → Except WireError Answer → Prop
  | unsupported : Verdict message id .aaaa (.error (.unsupportedType 28))
  | refused {type : QueryType} {error : WireError} :
      Refusal message id error → Verdict message id type.recordType (.error error)
  | noMatch {type : QueryType} {middle finish : Nat} {questions : List Question}
      {records : List PlacedRecord} :
      AcceptedHeader message id questions.length records.length → 1 ≤ records.length →
      Consecutive (QuestionAt message) questions 12 middle →
      Consecutive (RecordAt message) records middle finish →
      (∀ record ∈ records, record.rtype ≠ type.code) →
      Verdict message id type.recordType (.error .noMatchingRecord)
  | firstMatch {type : QueryType} {middle finish : Nat} {questions : List Question}
      {before after : List PlacedRecord} {record : PlacedRecord}
      {result : Except WireError Answer} :
      AcceptedHeader message id questions.length (before ++ record :: after).length →
      Consecutive (QuestionAt message) questions 12 middle →
      Consecutive (RecordAt message) (before ++ record :: after) middle finish →
      (∀ earlier ∈ before, earlier.rtype ≠ type.code) → record.rtype = type.code →
      record.Yields message type result → Verdict message id type.recordType result

namespace Answer

variable {message : Bytes} {id : UInt16}

lemma ofMessage_of_refusal {type : QueryType} {error : WireError}
    (h : Refusal message id error) : ofMessage message id type = .error error := by
  rw [ofMessage, Reader.run, records_eq_error_iff.2 h]

lemma parse_of_verdict {type : RecordType} {result : Except WireError Answer}
    (h : Verdict message id type result) : parse message id type = result := by
  cases h with
  | unsupported => rfl
  | refused hrefusal => rw [parse_recordType, ofMessage_of_refusal hrefusal]
  | noMatch haccepted hpos hquestions hrecords hnone =>
    rw [parse_recordType]
    exact ofMessage_of_none
      (records_eq_ok_iff.2 ⟨_, _, haccepted, hquestions, hpos, hrecords⟩) hnone
  | @firstMatch _ _ _ _ before after record _ haccepted hquestions hrecords hbefore htype
      hyields =>
    have hpos : 1 ≤ (before ++ record :: after).length := by
      rw [List.length_append, List.length_cons]
      omega
    rw [parse_recordType, ofMessage_of_first
      (records_eq_ok_iff.2 ⟨_, _, haccepted, hquestions, hpos, hrecords⟩) hbefore htype]
    exact PlacedRecord.answer_eq_iff.2 hyields

lemma exists_verdict_of_understood (message : Bytes) (id : UInt16) (type : QueryType) :
    ∃ result, Verdict message id type.recordType result := by
  rcases hread : records id message.toArray 0 with error | ⟨all, finish⟩
  · exact ⟨_, .refused (records_eq_error_iff.1 hread)⟩
  obtain ⟨questions, middle, haccepted, hquestions, hpos, hrecords⟩ := records_eq_ok_iff.1 hread
  cases hfind : all.find? (·.rtype = type.code) with
  | none =>
    rw [List.find?_eq_none] at hfind
    exact ⟨_, .noMatch haccepted hpos hquestions hrecords (by simpa using hfind)⟩
  | some record =>
    obtain ⟨htype, before, after, rfl, hbefore⟩ := List.find?_eq_some_iff_append.1 hfind
    exact ⟨_, .firstMatch haccepted hquestions hrecords (by simpa using hbefore)
      (of_decide_eq_true htype) (PlacedRecord.answer_eq_iff.1 rfl)⟩

/-- Some verdict is reached on every response. -/
lemma exists_verdict (message : Bytes) (id : UInt16) (type : RecordType) :
    ∃ result, Verdict message id type result := by
  cases type with
  | a => exact exists_verdict_of_understood message id .a
  | mx => exact exists_verdict_of_understood message id .mx
  | aaaa => exact ⟨_, .unsupported⟩

lemma verdict_parse (message : Bytes) (id : UInt16) (type : RecordType) :
    Verdict message id type (parse message id type) := by
  obtain ⟨result, hverdict⟩ := exists_verdict message id type
  rwa [parse_of_verdict hverdict]

/-- **A response comes to the verdict of the first check that it fails.**  For every message and
every type that is wanted there is just one verdict, and this is the result. -/
theorem parse_eq_iff (message : Bytes) (id : UInt16) (type : RecordType)
    (result : Except WireError Answer) :
    parse message id type = result ↔ Verdict message id type result := by
  refine ⟨?_, parse_of_verdict⟩
  rintro rfl
  exact verdict_parse message id type

end Answer

end StubResolver
