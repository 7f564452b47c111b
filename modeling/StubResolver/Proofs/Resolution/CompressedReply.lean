/-
# Resolving a name by a compressed reply

Servers make their reply of the query: they set the bit for replies, count the answers, and
put the records behind the question.  Since the name of the question stands right behind the
header, a record of that name has a pointer to there in its place, and the name of a mail
exchange can go on at any label of the question.

What such a reply with one record is answered with is determined by the record
(`exists_ofMessage_reply`).  A session that is given the reply to its own query resolves the
name with that answer (`Session.resolve_reply`).
-/
import StubResolver.Proofs.Name.Compressed
import StubResolver.Proofs.Resolution.Delivery
import StubResolver.Proofs.Response.WellFormed

namespace StubResolver

/-! ## The query and the reply -/

/-- The reply that answers a query with one record: the query with the bit for replies set
and one answer counted, and then the record, with a pointer to the end of the header for its
name. -/
def reply (query : Bytes) (record : Record) : Bytes :=
  ((query.modify 2 (· ||| 0x80)).set 6 0).set 7 1 ++ Segment.pointerBytes 12 ++ record.fields

namespace Query

/-- The header of the reply to a query with one record. -/
def replyHeader (query : Query) : Header :=
  { query.header with flags := query.header.flags.set (.kind .reply), answerCount := 1 }

/-- The bit for replies is the first one of the flags. -/
lemma word_set_reply (recursionDesired : Bool) :
    let flags := Flags.clear.set (.recursionDesired recursionDesired)
    Bytes.toBigEndian 2 (flags.set (.kind .reply)).word.toNat =
      (Bytes.toBigEndian 2 flags.word.toNat).modify 0 (· ||| 0x80) := by
  cases recursionDesired with
  | false => decide
  | true => decide

/-- Changing the bytes of a query that differ in its reply changes the header. -/
lemma wire_replyHeader (query : Query) (rest : Bytes) :
    (((query.header.wire ++ rest).modify 2 (· ||| 0x80)).set 6 0).set 7 1 =
      query.replyHeader.wire ++ rest := by
  have hflags : Bytes.toBigEndian 2 query.replyHeader.flags.word.toNat =
      (Bytes.toBigEndian 2 query.header.flags.word.toNat).modify 0 (· ||| 0x80) :=
    word_set_reply query.recursionDesired
  have hcount : Bytes.toBigEndian 2 query.replyHeader.answerCount.toNat = [0, 1] := by
    show Bytes.toBigEndian 2 (1 : UInt16).toNat = [0, 1]
    decide
  rw [Header.wire, Header.wire, hflags, hcount]
  rfl

lemma reply_eq (query : Query) (record : Record) :
    reply (query.header.wire ++ query.question.wire) record =
      query.replyHeader.wire ++ query.question.wire ++ Segment.pointerBytes 12 ++
        record.fields := by
  rw [reply, wire_replyHeader]

lemma replyHeader_refusal? (query : Query) : query.replyHeader.refusal? query.id = none := by
  refine Header.refusal?_eq_none_iff.2 ⟨rfl, ?_, ?_⟩
  · rfl
  · rfl

/-- What stands where in the reply to a query. -/
lemma holds_reply {query : Query} {record : Record} {message : Bytes}
    (h : message = reply (query.header.wire ++ query.question.wire) record) :
    Holds message 0 query.replyHeader.wire ∧ Holds message 12 query.question.wire ∧
      Holds message (12 + query.question.wire.length) (Segment.pointerBytes 12) ∧
      Holds message (12 + query.question.wire.length + 2) record.fields := by
  have hat : Holds message 0 (query.replyHeader.wire ++ query.question.wire ++
      Segment.pointerBytes 12 ++ record.fields) := by
    rw [h, reply_eq]
    exact List.prefix_rfl
  have hpointer : (Segment.pointerBytes 12).length = 2 := rfl
  simp only [holds_append, List.length_append, Header.length_wire, Nat.zero_add, hpointer] at hat
  obtain ⟨⟨⟨hheader, hquestion⟩, hpointer⟩, hfields⟩ := hat
  exact ⟨hheader, hquestion, hpointer, hfields⟩

end Query

/-! ## The answer -/

/-- In the message, the name stands behind the header, and behind the name the data. -/
structure ReplyAt (message : Bytes) (name : Name) (data : Bytes) (dataOffset : Nat) : Prop where
  holds_name : Holds message 12 (Name.wireForm name.segments)
  holds_data : Holds message dataOffset data
  name_end_le : 12 + Name.wireLength name.segments ≤ dataOffset

section

variable {query : Query} {record : Record} {message : Bytes}

/-- The record of a reply is the one that was put there, with the name of the question. -/
lemma recordAt_reply (hlimits : query.question.name.WithinLimits)
    (hname : record.name = query.question.name) (hlt : record.data.length < 2 ^ 16)
    (h : message = reply (query.header.wire ++ query.question.wire) record) :
    RecordAt message ⟨record.normal, 12 + query.question.wire.length + 2 + 10⟩
      (12 + query.question.wire.length)
      (12 + query.question.wire.length + 2 + record.normal.fields.length) := by
  obtain ⟨-, hquestion, hpointer, hfields⟩ := Query.holds_reply h
  have hlength := query.question.length_wire
  -- the pointer in place of the name leads to the name of the question
  have howner : Name.decode message (12 + query.question.wire.length) =
      .ok (record.normal.name, 12 + query.question.wire.length + 2) := by
    rw [Record.normal, hname]
    refine Name.decode_pointer 12 hlimits (Question.holds_name hquestion) hpointer (by decide) ?_
    rw [show (12 : UInt16).toNat = 12 from rfl]
    omega
  exact recordAt_of_fields howner hfields hlt

/-- A reply is answered by its record. -/
lemma exists_ofMessage_reply (query : Query) (record : Record) (type : QueryType)
    (hlimits : query.question.name.WithinLimits) (hname : record.name = query.question.name)
    (hlt : record.data.length < 2 ^ 16) (htype : record.rtype = type.code)
    (h : message = reply (query.header.wire ++ query.question.wire) record) :
    ∃ dataOffset, ReplyAt message record.name record.data dataOffset ∧
      Answer.ofMessage message query.id type =
        (⟨record.normal, dataOffset⟩ : PlacedRecord).answer message.toArray type := by
  obtain ⟨hheader, hquestion, -, -⟩ := Query.holds_reply h
  have hrecordAt := recordAt_reply hlimits hname hlt h
  have haccepted : AcceptedHeader message query.id 1 1 :=
    acceptedHeader_iff.2 ⟨_, hheader, query.replyHeader_refusal?, rfl, rfl⟩
  let entry : PlacedRecord := ⟨record.normal, 12 + query.question.wire.length + 2 + 10⟩
  have hread : Answer.records query.id message.toArray 0 = .ok ([] ++ entry :: [], _) :=
    records_eq_ok_iff.2 ⟨[query.question.normal], _, haccepted,
      .cons (questionAt_of_holds hlimits hquestion) .nil, Nat.le_refl 1, .cons hrecordAt .nil⟩
  have hlength := query.question.length_wire
  refine ⟨entry.dataOffset, ⟨?_, ?_, ?_⟩, Answer.ofMessage_of_first hread (by simp) htype⟩
  · rw [hname]
    exact Question.holds_name hquestion
  · exact hrecordAt.holds_data
  · show 12 + _ ≤ 12 + query.question.wire.length + 2 + 10
    rw [hname]
    omega

end

/-! ## Mail exchanges that go on in the question -/

/-- The data of a mail exchange whose name is some labels and a pointer into the name of the
question, to where the labels behind the first `count` begin. -/
def compressedExchange (preference : UInt16) (labels : List String) (name : Name) (count : Nat) :
    Bytes :=
  Bytes.toBigEndian 2 preference.toNat ++ ((labels.map Name.textBytes).flatMap Segment.labelBytes ++
    Segment.pointerBytes (.ofNat (12 + Name.boundary name.segments count)))

lemma length_compressedExchange (preference : UInt16) (labels : List String) (name : Name)
    (count : Nat) : (compressedExchange preference labels name count).length =
      ((labels.map Name.textBytes).flatMap Segment.labelBytes).length + 4 := by
  have hpointer (target : UInt16) : (Segment.pointerBytes target).length = 2 := rfl
  simp only [compressedExchange, List.length_append, Bytes.length_toBigEndian, hpointer]
  omega

section

variable {message : Bytes} {name : Name} {dataOffset count : Nat} {preference : UInt16}
  {labels : List String}

/-- What the name of such a mail exchange spells: the labels, and then those of the name of the
question from the pointer's target on. -/
lemma ReplyAt.spells (h : ReplyAt message name
      (compressedExchange preference labels name count) dataOffset)
    (hlimits : name.WithinLimits)
    (hlabels : ∀ label ∈ labels, Name.IsLabel (Name.textBytes label)) :
    Spells message (dataOffset + 2) ((labels ++ name.labels.drop count).map Name.textBytes) 1
      (dataOffset + (compressedExchange preference labels name count).length) := by
  have hdata := h.holds_data
  rw [compressedExchange, holds_append, Bytes.length_toBigEndian] at hdata
  -- every label of the name begins early enough in the message to be pointed to
  have hboundary := Name.boundary_lt name.segments count
  have hmax : Name.wireLength name.segments ≤ 255 := hlimits.2
  have hle := h.name_end_le
  have hfits : 12 + Name.boundary name.segments count < 2 ^ 16 := by omega
  have htarget : (UInt16.ofNat (12 + Name.boundary name.segments count)).toNat =
      12 + Name.boundary name.segments count := UInt16.toNat_ofNat_of_lt' hfits
  have hspells := Name.spells_into hlimits h.holds_name hlabels hdata.2 htarget (by omega)
    (by omega)
  rwa [length_compressedExchange,
    show dataOffset + (((labels.map Name.textBytes).flatMap Segment.labelBytes).length + 4) =
      dataOffset + 2 + ((labels.map Name.textBytes).flatMap Segment.labelBytes).length + 2 by omega]

/-- A record with such data gives the mail exchange if its name is not too long. -/
lemma ReplyAt.exchange_eq_ok (record : PlacedRecord)
    (h : ReplyAt message name record.data record.dataOffset) (hlimits : name.WithinLimits)
    (hlabels : ∀ label ∈ labels, Name.IsLabel (Name.textBytes label))
    (hdata : record.data = compressedExchange preference labels name count)
    (hlength : Name.wireLength ((labels ++ name.labels.drop count).map Name.textBytes) ≤
      maxNameLength) :
    record.answer message.toArray .mx = .ok ⟨record.name, record.ttl,
      .exchange preference (.ofLabels (labels ++ name.labels.drop count))⟩ := by
  rw [hdata] at h
  have hhost := Name.decode_of_spells (h.spells hlimits hlabels) hlength (by decide)
  have hsize := length_compressedExchange preference labels name count
  refine PlacedRecord.answer_eq_ok_iff.2 ⟨rfl, rfl, .exchange ?_ ?_ hhost ?_⟩
  · rw [hdata]
    omega
  · rw [hdata]
    exact List.take_left' (Bytes.length_toBigEndian 2 _)
  · exact Nat.le_of_eq (by rw [hdata])

/-- A record with such data is refused if the name of the mail exchange is too long. -/
lemma ReplyAt.exchange_eq_error (record : PlacedRecord)
    (h : ReplyAt message name record.data record.dataOffset) (hlimits : name.WithinLimits)
    (hlabels : ∀ label ∈ labels, Name.IsLabel (Name.textBytes label))
    (hdata : record.data = compressedExchange preference labels name count)
    (hlength : maxNameLength <
      Name.wireLength ((labels ++ name.labels.drop count).map Name.textBytes)) :
    ∃ place, record.answer message.toArray .mx = .error (.malformedName place .tooLong) := by
  rw [hdata] at h
  obtain ⟨place, hhost⟩ := Name.decode_tooLong (h.spells hlimits hlabels) hlength (by decide)
  have hsize := length_compressedExchange preference labels name count
  refine ⟨place, PlacedRecord.answer_of_decode_error ?_ hhost⟩
  rw [hdata]
  omega

end

/-! ## The session -/

namespace Session

/-- **A name is resolved by a compressed reply to its query.**  The answer has the name that
was asked for.  A mail exchange has the labels in front of the pointer and those of the
question behind its target, or is refused if together they are too long for a name. -/
theorem resolve_reply (hostname : String) (id : UInt16) (config : Config) (type : QueryType)
    (hhost : ∃ wire, encode (⟨hostname⟩ : Name) = .ok wire) :
    ∃ query, Query.message ⟨hostname, type.recordType, id, config.recursionDesired⟩ = .ok query ∧
      ∀ (transport : Transport) (rclass : UInt16) (ttl : UInt32) (data : Bytes),
        data.length ≤ 65535 →
        transport.Delivers config query (reply query ⟨⟨hostname⟩, type.code, rclass, ttl, data⟩) →
        ∃ transcript after, (Session.new id config transport).resolve hostname type =
            (transcript, after) ∧
          transcript.calls =
            [.send query config.server, .receive config.bufferSize config.timeout] ∧
          (type = .a → ∀ a b c d, data = [a, b, c, d] →
            transcript.result = .ok ⟨Name.normal ⟨hostname⟩, ttl, .address ⟨a, b, c, d⟩⟩ ∧
            after.state = .done) ∧
          (type = .mx → ∀ preference labels count,
            (∀ label ∈ labels, 1 ≤ (Name.textBytes label).length ∧
              (Name.textBytes label).length ≤ 63) →
            data = compressedExchange preference labels ⟨hostname⟩ count →
            let host := labels ++ (Name.labels ⟨hostname⟩).drop count
            (Name.wireLength (host.map Name.textBytes) ≤ 255 →
              transcript.result = .ok ⟨Name.normal ⟨hostname⟩, ttl,
                .exchange preference (.ofLabels host)⟩ ∧ after.state = .done) ∧
            (255 < Name.wireLength (host.map Name.textBytes) →
              ∃ place, transcript.result = .error (.wire (.malformedName place .tooLong)) ∧
                after.state = .failed)) := by
  obtain ⟨wire, hhost⟩ := hhost
  obtain ⟨hlimits, -⟩ := Name.encode_eq_ok_iff.1 hhost
  let question : Query := ⟨hostname, type.recordType, id, config.recursionDesired⟩
  have hquery : question.message = .ok (question.header.wire ++ question.question.wire) :=
    Query.message_eq_ok_iff.2 ⟨hlimits, rfl⟩
  refine ⟨_, hquery, ?_⟩
  intro transport rclass ttl data hdata
  let record : Record := ⟨⟨hostname⟩, type.code, rclass, ttl, data⟩
  show transport.Delivers config _ (reply _ record) → _
  generalize hmessage : reply (question.header.wire ++ question.question.wire) record = message
  intro hdelivers
  obtain ⟨transcript, after, hresolve, hcalls, hdone, hfailed⟩ :=
    resolve_of_delivers (Session.new_transport id config transport) hquery hdelivers
  have hlt : record.data.length < 2 ^ 16 := Nat.lt_of_le_of_lt hdata (by decide)
  obtain ⟨dataOffset, hat, hanswer⟩ :=
    exists_ofMessage_reply question record type hlimits rfl hlt rfl hmessage.symm
  refine ⟨transcript, after, hresolve, hcalls, ?_, ?_⟩
  · rintro rfl a b c d hbytes
    exact hdone _ (hanswer.trans
      (PlacedRecord.answer_eq_ok_iff.2 ⟨rfl, rfl, .address hbytes⟩))
  · rintro rfl preference labels count hlabels hexchange
    let entry : PlacedRecord := ⟨record.normal, dataOffset⟩
    constructor
    · intro hlength
      have hok := ReplyAt.exchange_eq_ok entry hat hlimits hlabels hexchange hlength
      exact hdone _ (hanswer.trans hok)
    · intro hlength
      obtain ⟨place, herror⟩ :=
        ReplyAt.exchange_eq_error entry hat hlimits hlabels hexchange hlength
      exact ⟨place, hfailed _ (hanswer.trans herror)⟩

/-- The case of a mail exchange whose name goes on with the second label of the question. -/
theorem resolve_reply_mail :
    ∃ query, Query.message ⟨"www.sandiego.edu.", .mx, 5, false⟩ = .ok query ∧
      let received := reply query ⟨⟨"www.sandiego.edu."⟩, QueryType.mx.code, 1, 300,
        [0, 5, 4, 109, 97, 105, 108, 192, 16]⟩
      let transport : Transport := ⟨fun _ _ => .ok (), fun _ _ => .packet received⟩
      ∃ transcript after, (Session.new 5 (.ofHost (.v4 ⟨192, 0, 2, 53⟩)) transport).resolve
          "www.sandiego.edu." .mx = (transcript, after) ∧
        transcript.result = .ok ⟨⟨"www.sandiego.edu"⟩, 300, .exchange 5 ⟨"mail.sandiego.edu"⟩⟩ ∧
        after.state = .done := by
  obtain ⟨query, hquery, hreply⟩ :=
    resolve_reply "www.sandiego.edu." 5 (.ofHost (.v4 ⟨192, 0, 2, 53⟩)) .mx ⟨_, rfl⟩
  refine ⟨query, hquery, ?_⟩
  intro received transport
  obtain ⟨transcript, after, hresolve, -, -, hmail⟩ :=
    hreply transport 1 300 [0, 5, 4, 109, 97, 105, 108, 192, 16] (by decide) ⟨rfl, rfl⟩
  obtain ⟨hok, -⟩ := hmail rfl 5 ["mail"] 1 (by decide) (by decide)
  exact ⟨transcript, after, hresolve, hok (by decide)⟩

end Session

end StubResolver
