/-
Queries: the message that asks a server for the records of one name.
-/
import StubResolver.Header
import StubResolver.Question

namespace StubResolver

/-- What is asked for, and how. -/
structure Query where
  hostname : String
  type : RecordType
  id : UInt16 := 0
  /-- Whether the server should ask other servers on our behalf. -/
  recursionDesired : Bool := false
deriving DecidableEq, Repr

namespace Query

/-- The header of the message. -/
def header (query : Query) : Header :=
  .query query.id (Flags.clear.set (.recursionDesired query.recursionDesired))

/-- The one question of the message. -/
def question (query : Query) : Question :=
  ⟨⟨query.hostname⟩, query.type.code, classInternet⟩

/-- The message, unless the name cannot be written. -/
def message (query : Query) : Except WireError Bytes :=
  (write query.header ++ write query.question) (size query.header + size query.question)

end Query

end StubResolver
