/-
# Well-formed responses

A response is answered by the first record of the wanted type, wherever it stands among the
counted ones (`ofMessage_of_first`), and by that record only if its data is of the form
that its type asks for (`Gives`).  Together with the sections this makes the responses that
are answered: `parse_eq_ok_iff` describes all of them by what stands in the message.
-/
import StubResolver.Proofs.Response.Sections

namespace StubResolver

/-! ## The data of a record -/

/-- What the data of a record says as the data of a record of the given type.  An address
is four bytes; a mail exchange is a preference and a name that ends inside of the data. -/
inductive PlacedRecord.Gives (message : Bytes) (record : PlacedRecord) :
    QueryType → AnswerData → Prop
  | address {a b c d : UInt8} : record.data = [a, b, c, d] →
      Gives message record .a (.address ⟨a, b, c, d⟩)
  | exchange {preference : UInt16} {host : Name} {finish : Nat} : 3 ≤ record.data.length →
      record.data.take 2 = Bytes.toBigEndian 2 preference.toNat →
      Name.decode message (record.dataOffset + 2) = .ok (host, finish) →
      finish ≤ record.dataOffset + record.data.length →
      Gives message record .mx (.exchange preference host)

variable {message : Bytes} {record : PlacedRecord}

lemma PlacedRecord.address_eq_ok_iff {data : AnswerData} :
    record.address = .ok data ↔ record.Gives message .a data := by
  rw [address]
  constructor
  · intro h
    split at h
    · obtain rfl := Except.ok.inj h
      exact .address ‹_›
    · cases h
  · rintro ⟨hdata⟩
    rw [hdata]

lemma PlacedRecord.exchange_eq_ok_iff {data : AnswerData} :
    record.exchange message.toArray = .ok data ↔ record.Gives message .mx data := by
  have hread : Name.read message.toArray (record.dataOffset + 2) =
      Name.decode message (record.dataOffset + 2) := rfl
  simp only [exchange, hread]
  constructor
  · intro h
    split at h
    · cases h
    · split at h
      · cases h
      · split at h
        · cases h
        · rename_i hlen _ host finish hname hle
          obtain rfl := Except.ok.inj h
          refine .exchange (Nat.not_lt.1 hlen) ?_ hname (Nat.not_lt.1 hle)
          have htake : (record.data.take 2).length = 2 := by
            rw [List.length_take]
            omega
          rw [toBigEndian_word htake]
  · intro h
    cases h with
    | @exchange preference host finish hlen hpreference hname hle =>
      rw [if_neg (Nat.not_lt.2 hlen), hname]
      simp only [if_neg (Nat.not_lt.2 hle)]
      rw [hpreference, ofBigEndian_word, UInt16.ofNat_toNat]

lemma map_eq_ok_iff {α β : Type} {found : Except WireError α} {f : α → β} {value : β} :
    found.map f = .ok value ↔ ∃ a, found = .ok a ∧ value = f a := by
  rcases found with error | a
  · simp [Except.map]
  · simp [Except.map, eq_comm]

lemma PlacedRecord.answer_a {message : Message} :
    record.answer message .a = record.address.map (⟨record.name, record.ttl, ·⟩) := by
  unfold answer
  rcases record.address with _ | _
  · rfl
  · rfl

lemma PlacedRecord.answer_mx {message : Message} :
    record.answer message .mx =
      (record.exchange message).map (⟨record.name, record.ttl, ·⟩) := by
  unfold answer
  rcases record.exchange message with _ | _
  · rfl
  · rfl

/-- A record answers with its own name and time to live, and with what its data says. -/
lemma PlacedRecord.answer_eq_ok_iff {type : QueryType} {answer : Answer} :
    record.answer message.toArray type = .ok answer ↔
      answer.name = record.name ∧ answer.ttl = record.ttl ∧
        record.Gives message type answer.data := by
  have hfields : ∀ data, answer = ⟨record.name, record.ttl, data⟩ ↔
      answer.name = record.name ∧ answer.ttl = record.ttl ∧ answer.data = data := by
    obtain ⟨name, ttl, found⟩ := answer
    simp
  obtain ⟨found, hanswer, hfound⟩ : ∃ found : Except WireError AnswerData,
      record.answer message.toArray type = found.map (⟨record.name, record.ttl, ·⟩) ∧
        ∀ data, found = .ok data ↔ record.Gives message type data := by
    cases type with
    | a => exact ⟨_, answer_a, fun _ => address_eq_ok_iff⟩
    | mx => exact ⟨_, answer_mx, fun _ => exchange_eq_ok_iff⟩
  rw [hanswer, map_eq_ok_iff]
  simp only [hfound, hfields]
  constructor
  · rintro ⟨data, hgives, hname, httl, rfl⟩
    exact ⟨hname, httl, hgives⟩
  · rintro ⟨hname, httl, hgives⟩
    exact ⟨_, hgives, hname, httl, rfl⟩

/-- An address is refused if its data has another length. -/
lemma PlacedRecord.answer_of_length_ne {message : Message} (h : record.data.length ≠ 4) :
    record.answer message .a =
      .error (.invalidRecordData RecordType.a.code record.data.length) := by
  have haddress : record.address =
      .error (.invalidRecordData RecordType.a.code record.data.length) := by
    rw [address]
    split
    · rename_i hdata
      rw [hdata] at h
      exact absurd rfl h
    · rfl
  simp only [answer, haddress]

/-- A mail exchange is refused if its data has no room for a preference and a name. -/
lemma PlacedRecord.answer_of_length_lt {message : Message} (h : record.data.length < 3) :
    record.answer message .mx =
      .error (.invalidRecordData RecordType.mx.code record.data.length) := by
  simp only [answer, exchange, if_pos h]

/-- A mail exchange whose name is refused is refused for that. -/
lemma PlacedRecord.answer_of_decode_error {error : WireError} (hlen : 3 ≤ record.data.length)
    (h : Name.decode message (record.dataOffset + 2) = .error error) :
    record.answer message.toArray .mx = .error error := by
  have hread : Name.read message.toArray (record.dataOffset + 2) = .error error := h
  simp only [answer, exchange, if_neg (Nat.not_lt.2 hlen), hread]

/-- A mail exchange is refused if its name leads out of the data. -/
lemma PlacedRecord.answer_of_decode_beyond {host : Name} {finish : Nat}
    (hlen : 3 ≤ record.data.length)
    (h : Name.decode message (record.dataOffset + 2) = .ok (host, finish))
    (hlt : record.dataOffset + record.data.length < finish) :
    record.answer message.toArray .mx =
      .error (.invalidRecordData RecordType.mx.code record.data.length) := by
  have hread : Name.read message.toArray (record.dataOffset + 2) = .ok (host, finish) := h
  simp only [answer, exchange, if_neg (Nat.not_lt.2 hlen), hread, if_pos hlt]

/-! ## The first record of the wanted type -/

namespace Answer

variable {id : UInt16} {type : QueryType} {finish : Nat}

lemma ofMessage_of_first {before after : List PlacedRecord}
    (h : records id message.toArray 0 = .ok (before ++ record :: after, finish))
    (hbefore : ∀ earlier ∈ before, earlier.rtype ≠ type.code) (htype : record.rtype = type.code) :
    ofMessage message id type = record.answer message.toArray type := by
  have hfind : (before ++ record :: after).find? (·.rtype = type.code) = some record := by
    refine List.find?_eq_some_iff_append.2 ⟨by simpa using htype, before, after, rfl, ?_⟩
    simpa using hbefore
  rw [ofMessage, Reader.run, h]
  simp only [hfind]

lemma ofMessage_of_none {all : List PlacedRecord}
    (h : records id message.toArray 0 = .ok (all, finish))
    (hnone : ∀ record ∈ all, record.rtype ≠ type.code) :
    ofMessage message id type = .error .noMatchingRecord := by
  have hfind : all.find? (·.rtype = type.code) = none := by
    rw [List.find?_eq_none]
    simpa using hnone
  rw [ofMessage, Reader.run, h]
  simp only [hfind]

/-- A response is answered by the first of its records that is of the wanted type. -/
lemma ofMessage_eq_ok_iff {answer : Answer} :
    ofMessage message id type = .ok answer ↔
      ∃ before record after finish,
        records id message.toArray 0 = .ok (before ++ record :: after, finish) ∧
        (∀ earlier ∈ before, earlier.rtype ≠ type.code) ∧ record.rtype = type.code ∧
        record.answer message.toArray type = .ok answer := by
  constructor
  · intro h
    rw [ofMessage, Reader.run] at h
    split at h
    · cases h
    · rename_i all finish hall
      split at h
      · cases h
      · rename_i record hfind
        obtain ⟨htype, before, after, rfl, hbefore⟩ := List.find?_eq_some_iff_append.1 hfind
        refine ⟨before, record, after, finish, hall, ?_, by simpa using htype, h⟩
        simpa using hbefore
  · rintro ⟨before, record, after, finish, hall, hbefore, htype, h⟩
    rw [ofMessage_of_first hall hbefore htype, h]

lemma parse_recordType : parse message id type.recordType = ofMessage message id type := by
  cases type <;> rfl

/-- **A response is answered exactly when it is well-formed**: an accepted header, the
counted questions behind it, then the counted records, of which the first of the wanted type
gives the answer. -/
theorem parse_eq_ok_iff (message : Bytes) (id : UInt16) (type : QueryType) (answer : Answer) :
    parse message id type.recordType = .ok answer ↔
      ∃ questions before record after middle finish,
        AcceptedHeader message id questions.length (before ++ record :: after).length ∧
        Consecutive (QuestionAt message) questions 12 middle ∧
        Consecutive (RecordAt message) (before ++ record :: after) middle finish ∧
        (∀ earlier ∈ before, earlier.rtype ≠ type.code) ∧ record.rtype = type.code ∧
        answer.name = record.name ∧ answer.ttl = record.ttl ∧
        record.Gives message type answer.data := by
  simp only [parse_recordType, ofMessage_eq_ok_iff, records_eq_ok_iff,
    PlacedRecord.answer_eq_ok_iff]
  constructor
  · rintro ⟨before, record, after, finish, ⟨questions, middle, hheader, hquestions, -, hrecords⟩,
      hbefore, htype, hanswer⟩
    exact ⟨questions, before, record, after, middle, finish, hheader, hquestions, hrecords,
      hbefore, htype, hanswer⟩
  · rintro ⟨questions, before, record, after, middle, finish, hheader, hquestions, hrecords,
      hbefore, htype, hanswer⟩
    have hpos : 1 ≤ (before ++ record :: after).length := by
      rw [List.length_append, List.length_cons]
      omega
    exact ⟨before, record, after, finish, ⟨questions, middle, hheader, hquestions, hpos, hrecords⟩,
      hbefore, htype, hanswer⟩

end Answer

end StubResolver
