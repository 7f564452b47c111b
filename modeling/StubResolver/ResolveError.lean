/-
Why a resolution fails, and what kind of failure that is.
-/
import StubResolver.Duration
import StubResolver.WireError

namespace StubResolver

/-- Why a resolution fails. -/
inductive ResolveError where
  /-- The query could not be written, or the response was refused. -/
  | wire (error : WireError)
  /-- No response came within the time to wait. -/
  | timeout (waited : Duration)
  /-- The network failed, in the words of the system. -/
  | transport (text : String)
  /-- The session was used before. -/
  | sessionSpent
deriving DecidableEq, Repr

/-- The kinds of failures. -/
inductive ErrorKind where
  | labelTooLong
  | nameTooLong
  | malformedName
  | truncatedMessage
  | idMismatch
  | serverFailure (code : UInt8)
  | responseTruncated
  | noAnswers
  | noMatchingRecord
  | invalidRecordData
  | timeout
  | transport
  | sessionSpent
  /-- A failure that no resolution runs into. -/
  | other
deriving DecidableEq, Repr

namespace ResolveError

/-- The kind of a failure. -/
def kind : ResolveError → ErrorKind
  | .wire (.labelTooLong _) => .labelTooLong
  | .wire (.nameTooLong _) => .nameTooLong
  | .wire (.malformedName _ _) => .malformedName
  | .wire (.truncated _ _) => .truncatedMessage
  | .wire (.idMismatch _ _) => .idMismatch
  | .wire (.serverFailure code) => .serverFailure code
  | .wire .responseTruncated => .responseTruncated
  | .wire .noAnswers => .noAnswers
  | .wire .noMatchingRecord => .noMatchingRecord
  | .wire (.invalidRecordData _ _) => .invalidRecordData
  | .wire (.notEnoughSpace _ _) => .other
  | .wire (.unsupportedType _) => .other
  | .wire (.recordDataTooLong _) => .other
  | .timeout _ => .timeout
  | .transport _ => .transport
  | .sessionSpent => .sessionSpent

/-- The wording of a failure. -/
def message : ResolveError → String
  | .wire error => error.message
  | .timeout waited => s!"no response within {waited.text}"
  | .transport text => s!"transport error: {text}"
  | .sessionSpent => "session has already been used"

/-- The wordings of what is behind a failure, the nearest first. -/
def causes : ResolveError → List String
  | .wire (.malformedName _ (.invalidUtf8 flaw)) =>
    [(NameFlaw.invalidUtf8 flaw).message, flaw.message]
  | .wire (.malformedName _ flaw) => [flaw.message]
  | .wire _ => []
  | .timeout _ => []
  | .transport text => [text]
  | .sessionSpent => []

end ResolveError

end StubResolver
