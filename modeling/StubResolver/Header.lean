/-
The header, the first twelve bytes of a message.

It identifies the transaction, carries the flags and counts the entries of the four
sections that follow: questions, answers, authorities and additional records.
-/
import StubResolver.Flags

namespace StubResolver

/-- The header of a message. -/
structure Header where
  /-- The number by which a response is matched with its query. -/
  id : UInt16
  flags : Flags
  questionCount : UInt16
  answerCount : UInt16
  authorityCount : UInt16
  additionalCount : UInt16
deriving DecidableEq, Repr

namespace Header

/-- The header of a message with a single question and nothing else. -/
def query (id : UInt16) (flags : Flags) : Header where
  id := id
  flags := flags
  questionCount := 1
  answerCount := 0
  authorityCount := 0
  additionalCount := 0

instance : Writable Header where
  size _ := 12
  write header :=
    write header.id ++ write header.flags ++
    write header.questionCount ++ write header.answerCount ++
    write header.authorityCount ++ write header.additionalCount

instance : Readable Header where
  read := do
    let id ← Readable.read
    let flags ← Readable.read
    let questionCount ← Readable.read
    let answerCount ← Readable.read
    let authorityCount ← Readable.read
    let additionalCount ← Readable.read
    pure ⟨id, flags, questionCount, answerCount, authorityCount, additionalCount⟩

/-- The header at the start of a message. -/
def ofMessage (bytes : Bytes) : Except WireError Header :=
  match (Readable.read : Reader Header).run bytes 0 with
  | .error error => .error error
  | .ok (header, _) => .ok header

/-- Why a response with this header is refused as the answer in transaction `id`, if it is:
it belongs to another transaction, reports a failure, or was cut off. -/
def refusal? (header : Header) (id : UInt16) : Option WireError :=
  if header.id ≠ id then some (.idMismatch id header.id)
  else if header.flags.responseCode.val ≠ 0 then
    some (.serverFailure (UInt8.ofNat header.flags.responseCode.val))
  else if header.flags.truncated then some .responseTruncated
  else none

end Header

end StubResolver
