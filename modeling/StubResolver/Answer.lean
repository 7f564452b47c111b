/-
Answers: what a response says about the name that was asked for.

A response is refused for the first thing that is wrong with it, in the order in which it
is read: the header, the transaction, the server's verdict, the questions, the number of
answers, the answer records, the data of the record that counts.  That record is the first
one of the wanted type, but all counted records have to be there.  The sections behind the
answers are not looked at.
-/
import StubResolver.Address
import StubResolver.Header
import StubResolver.Question
import StubResolver.Record

namespace StubResolver

/-- The data of a record that is understood. -/
inductive AnswerData where
  /-- The address of a host. -/
  | address (address : Ipv4)
  /-- A mail exchange; among several, the one with the lowest preference is meant. -/
  | exchange (preference : UInt16) (host : Name)
deriving DecidableEq, Repr

/-- The answer to a query. -/
structure Answer where
  /-- The owner of the record. -/
  name : Name
  ttl : UInt32
  data : AnswerData
deriving DecidableEq, Repr

/-- The address or the mail exchange that is the answer. -/
def Answer.text (answer : Answer) : String :=
  match answer.data with
  | .address address => address.text
  | .exchange _ host => host.text

/-! ## The data of a record -/

namespace PlacedRecord

/-- The data of a record as an address: four bytes. -/
def address (record : PlacedRecord) : Except WireError AnswerData :=
  match record.data with
  | [a, b, c, d] => .ok (.address ⟨a, b, c, d⟩)
  | data => .error (.invalidRecordData RecordType.a.code data.length)

/-- The data of a record as a mail exchange: a preference of two bytes, then a name, which
may lead out of the data but has to end inside of it. -/
def exchange (message : Message) (record : PlacedRecord) : Except WireError AnswerData :=
  let invalid := WireError.invalidRecordData RecordType.mx.code record.data.length
  if record.data.length < 3 then .error invalid
  else
    match Name.read message (record.dataOffset + 2) with
    | .error error => .error error
    | .ok (host, finish) =>
      if record.dataOffset + record.data.length < finish then .error invalid
      else .ok (.exchange (UInt16.ofNat (Bytes.ofBigEndian (record.data.take 2))) host)

/-- The answer that a record of the wanted type holds. -/
def answer (message : Message) (type : QueryType) (record : PlacedRecord) :
    Except WireError Answer :=
  let data :=
    match type with
    | .a => record.address
    | .mx => record.exchange message
  match data with
  | .error error => .error error
  | .ok data => .ok ⟨record.name, record.ttl, data⟩

end PlacedRecord

/-! ## The response -/

namespace Answer

/-- All answer records of the response to transaction `id`, of which there is at least
one. -/
def records (id : UInt16) : Reader (List PlacedRecord) := do
  let header : Header ← Readable.read
  match header.refusal? id with
  | some error => Reader.fail error
  | none =>
    let _questions : List Question ← Readable.read.times header.questionCount.toNat
    if header.answerCount = 0 then Reader.fail .noAnswers
    else Readable.read.times header.answerCount.toNat

/-- The answer of type `type` in the response to transaction `id`. -/
def ofMessage (bytes : Bytes) (id : UInt16) (type : QueryType) : Except WireError Answer :=
  match (records id).run bytes 0 with
  | .error error => .error error
  | .ok (records, _) =>
    match records.find? (·.rtype = type.code) with
    | none => .error .noMatchingRecord
    | some record => record.answer bytes.toArray type

/-- The answer of any record type in the response to transaction `id`; types whose data is
not understood are refused without a look at the message. -/
def parse (bytes : Bytes) (id : UInt16) (type : RecordType) : Except WireError Answer :=
  match type.queryType? with
  | none => .error (.unsupportedType type.code)
  | some type => ofMessage bytes id type

end Answer

end StubResolver
