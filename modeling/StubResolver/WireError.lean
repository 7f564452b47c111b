/-
What can go wrong between a message and its bytes.

`NameFlaw` says why the bytes of a name could not be read, `WireError` covers writing,
reading and the refusal of a response.  The errors carry the numbers that explain them;
the wording is in the two functions `message`.
-/
import StubResolver.Code
import StubResolver.Utf8

namespace StubResolver

/-- Why the bytes at some offset do not continue a name. -/
inductive NameFlaw where
  /-- The two top bits of the length byte have no meaning. -/
  | reservedLabelType (byte : UInt8)
  /-- A length byte, a label or a pointer is cut off by the end of the message. -/
  | outOfBounds
  /-- A pointer leads to its own offset or past it. -/
  | forwardPointer (target : Nat)
  /-- A pointer follows as many pointers as are allowed. -/
  | tooManyPointers
  /-- With this label the name would need more bytes than a name may have. -/
  | tooLong
  /-- The label is not text. -/
  | invalidUtf8 (flaw : Utf8.Flaw)
deriving DecidableEq, Repr

/-- The wording of a flaw in a name. -/
def NameFlaw.message : NameFlaw → String
  | .reservedLabelType byte => s!"reserved label type in length byte {Bytes.hexText byte}"
  | .outOfBounds => "name runs past the end of the message"
  | .forwardPointer target =>
    s!"compression pointer to offset {target} does not point backwards"
  | .tooManyPointers => "too many compression pointers"
  | .tooLong => "name is longer than 255 bytes"
  | .invalidUtf8 flaw => s!"invalid UTF-8: {flaw.message}"

/-- Why a message could not be written, read or accepted. -/
inductive WireError where
  /-- A field of `needed` bytes does not fit into the `available` bytes that are left. -/
  | notEnoughSpace (needed available : Nat)
  /-- A field reaches up to byte `upTo` of a message of `available` bytes. -/
  | truncated (upTo available : Nat)
  /-- A label has more bytes than a label may have. -/
  | labelTooLong (length : Nat)
  /-- A name takes up more bytes than a name may. -/
  | nameTooLong (length : Nat)
  /-- The bytes at `offset` do not continue a name. -/
  | malformedName (offset : Nat) (flaw : NameFlaw)
  /-- The response belongs to another transaction. -/
  | idMismatch (expected found : UInt16)
  /-- The server reports a failure. -/
  | serverFailure (code : UInt8)
  /-- The server could not fit its response into the message. -/
  | responseTruncated
  /-- The response has no answer records. -/
  | noAnswers
  /-- None of the answer records has the wanted type. -/
  | noMatchingRecord
  /-- The data of a record, `length` bytes, is not what its type calls for. -/
  | invalidRecordData (type : UInt16) (length : Nat)
  /-- Records of this type are not understood. -/
  | unsupportedType (type : UInt16)
  /-- The length of the data of a record does not fit into its length field. -/
  | recordDataTooLong (length : Nat)
deriving DecidableEq, Repr

/-- The wording of an error. -/
def WireError.message : WireError → String
  | .notEnoughSpace needed available =>
    s!"not enough write space: tried to write {needed} bytes, but only {available} were available"
  | .truncated upTo available =>
    s!"truncated message: tried to read up to byte {upTo}, but only {available} were available"
  | .labelTooLong length => s!"label too long: label was {length} bytes long"
  | .nameTooLong length => s!"name too long: name was {length} bytes long"
  | .malformedName offset flaw => s!"malformed name at offset {offset}: {flaw.message}"
  | .idMismatch expected found => s!"transaction mismatch: expected ID {expected}, got {found}"
  | .serverFailure code =>
    match ResponseCode.ofCode code.toNat with
    | .ok response => s!"server error: {response.name} ({code})"
    | .error _ => s!"server error: code {code}"
  | .responseTruncated => "response was truncated by the server"
  | .noAnswers => "response contained no answers"
  | .noMatchingRecord => "no answer of the requested type"
  | .invalidRecordData type length =>
    s!"invalid record data: {length} bytes is not valid for type {type}"
  | .unsupportedType type => s!"unsupported record type: {type}"
  | .recordDataTooLong length =>
    s!"record data too long: {length} bytes does not fit in 16 bits"

end StubResolver
