/-
# Queries, and queries that come back

The message of a query is built in a buffer of zeros, whose length is the sizes of the header and
of the question taken together.  The header is written to its start and the question into the
slice behind that, and then the buffer is cut to what was written (`Query.build`).  The sizes are
counted apart from what is written.  They are right, so nothing but the name can be refused, and a
query that is built fills the buffer.

What was built is read as the header and the question that were written.  Among the checks of a
response there is none for a bit that would tell it from a query.  So a query that is sent back
passes all of them but one: it counts no answers, and is refused for that
(`Query.refusal_of_message`).
-/
import StubResolver.Proofs.InPlace
import StubResolver.Proofs.Resolution.Delivery
import StubResolver.Proofs.Response.Verdict

namespace StubResolver

namespace Query

/-- Builds the message of a query in place, in a buffer that is cut to what was written. -/
def build (query : Query) : Except Fault Bytes :=
  ((query.header.inPlace ++ query.question.inPlace)
    (List.replicate (size query.header + size query.question) 0)).map
      fun (count, buffer) => buffer.take count

/-- A message that is built is the one that is put. -/
lemma build_eq (query : Query) : query.build = query.message.mapError .refused := by
  have hcontract := (Contract.header query.header).append (Contract.question query.question)
  rw [build, hcontract.inPlace_eq, Writer.over, List.length_replicate, message]
  rcases (write query.header ++ write query.question) (size query.header + size query.question)
    with error | bytes
  · rfl
  · simp [Except.map, Except.mapError]

variable {query : Query} {bytes : Bytes}

/-- No flag of a query is set but that recursion is desired. -/
lemma word_flags (query : Query) :
    query.header.flags.word = if query.recursionDesired then 256 else 0 := by
  have hword : ∀ desired, (Flags.clear.set (.recursionDesired desired)).word =
      if desired then 256 else 0 := by decide
  exact hword query.recursionDesired

lemma refusal?_header_eq_none (query : Query) : query.header.refusal? query.id = none :=
  Header.refusal?_eq_none_iff.2 ⟨rfl, rfl, rfl⟩

/-- The header of a query and its question stand one behind the other. -/
lemma holds_of_message (h : query.message = .ok bytes) :
    Holds bytes 0 query.header.wire ∧ Holds bytes 12 query.question.wire := by
  obtain ⟨-, rfl⟩ := message_eq_ok_iff.1 h
  have hat : Holds (query.header.wire ++ query.question.wire) 0 _ := List.prefix_refl _
  simpa using holds_append.1 hat

lemma length_message (h : query.message = .ok bytes) :
    bytes.length = 12 + size query.question.name + 4 := by
  obtain ⟨-, rfl⟩ := message_eq_ok_iff.1 h
  rw [List.length_append, Header.length_wire, Question.length_wire]
  rfl

lemma questionAt_message (h : query.message = .ok bytes) :
    QuestionAt bytes query.question.normal 12 bytes.length := by
  obtain ⟨hlimits, hbytes⟩ := message_eq_ok_iff.1 h
  have hquestion := questionAt_of_holds hlimits (holds_of_message h).2
  have hlength := congrArg List.length hbytes
  rw [List.length_append, Header.length_wire] at hlength
  rwa [hlength]

/-- A query that is taken for a response passes every check of its header, and its question is
there, but it counts no answers. -/
lemma refusal_of_message (h : query.message = .ok bytes) : Refusal bytes query.id .noAnswers := by
  have haccepted : AcceptedHeader bytes query.id [query.question.normal].length 0 :=
    acceptedHeader_iff.2
      ⟨query.header, (holds_of_message h).1, query.refusal?_header_eq_none, rfl, rfl⟩
  exact .noAnswers haccepted (.cons (questionAt_message h) .nil)

/-- In another transaction it does not pass the first check. -/
lemma refusal_of_message_of_ne {id : UInt16} (h : query.message = .ok bytes) (hne : id ≠ query.id) :
    Refusal bytes id (.idMismatch id query.id) := by
  have hrefusal : query.header.refusal? id = some (.idMismatch id query.id) := if_pos hne.symm
  exact .header ((headerFlaw_iff_of_holds (holds_of_message h).1).2 hrefusal)

/-- **Queries are well-formed and are not answers.**  Building a query in place comes to putting
its message, which fails just as the name of the host does, and then the name is too long.
Otherwise the message has the length of its parts, its header is that of a single question, with
no flag set but the one for recursion, and its question is the one that was asked, with the
empty pieces of the name left out and up to the end of the message.  A query that comes back is
refused, in its own transaction for having no answers and in any other for the transaction. -/
theorem message_wellFormed (query : Query) :
    query.build = query.message.mapError .refused ∧
    (∀ error, query.message = .error error ↔
      encode (⟨query.hostname⟩ : Name) = .error error) ∧
    (∀ error, query.message = .error error → (⟨query.hostname⟩ : Name).TooLong error) ∧
    ((∃ bytes, query.message = .ok bytes) ↔
      ∃ name, encode (⟨query.hostname⟩ : Name) = .ok name) ∧
    ∀ bytes, query.message = .ok bytes →
      bytes.length = 12 + size (⟨query.hostname⟩ : Name) + 4 ∧
      (∃ header, Header.ofMessage bytes = .ok header ∧ header.id = query.id ∧
        header.flags.word = (if query.recursionDesired then 256 else 0) ∧
        header.questionCount = 1 ∧ header.answerCount = 0 ∧ header.authorityCount = 0 ∧
        header.additionalCount = 0) ∧
      (Readable.read : Reader Question).run bytes 12 =
        .ok (⟨Name.normal ⟨query.hostname⟩, query.type.code, 1⟩, bytes.length) ∧
      (∀ type : QueryType, Answer.parse bytes query.id type.recordType = .error .noAnswers) ∧
      ∀ (type : QueryType) (id : UInt16), id ≠ query.id →
        Answer.parse bytes id type.recordType = .error (.idMismatch id query.id) := by
  refine ⟨query.build_eq, fun _ => message_eq_error_iff, ?_, ?_, ?_⟩
  · intro error herror
    exact Name.encode_eq_error_iff.1 (message_eq_error_iff.1 herror)
  · simp only [message_eq_ok_iff, Name.encode_eq_ok_iff, exists_and_left, exists_eq, and_true]
    rfl
  · intro bytes h
    refine ⟨length_message h, ⟨query.header, Header.ofMessage_of_holds (holds_of_message h).1, rfl,
      query.word_flags, rfl, rfl, rfl, rfl⟩, question_read_iff.2 (questionAt_message h), ?_, ?_⟩
    · intro type
      rw [Answer.parse_recordType]
      exact Answer.ofMessage_of_refusal (refusal_of_message h)
    · intro type id hne
      rw [Answer.parse_recordType]
      exact Answer.ofMessage_of_refusal (refusal_of_message_of_ne h hne)

/-- The case of a query for a mail exchange, with a dot too many in its name. -/
theorem message_wellFormed_mail :
    ∃ bytes, message ⟨"sandiego..edu", .mx, 5, true⟩ = .ok bytes ∧ bytes.length = 30 ∧
      (Readable.read : Reader Question).run bytes 12 = .ok (⟨⟨"sandiego.edu"⟩, 15, 1⟩, 30) ∧
      Answer.parse bytes 5 .mx = .error .noAnswers ∧
      Answer.parse bytes 6 .mx = .error (.idMismatch 6 5) := by
  obtain ⟨-, -, -, -, h⟩ := message_wellFormed ⟨"sandiego..edu", .mx, 5, true⟩
  obtain ⟨bytes, hbytes⟩ : ∃ bytes, message ⟨"sandiego..edu", .mx, 5, true⟩ = .ok bytes :=
    ⟨_, rfl⟩
  obtain ⟨hlength, -, hquestion, hnone, hother⟩ := h bytes hbytes
  rw [hlength] at hquestion
  exact ⟨bytes, hbytes, hlength, hquestion, hnone .mx, hother .mx 6 (by decide)⟩

end Query

end StubResolver
