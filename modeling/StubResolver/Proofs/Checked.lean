/-
# Readers that count within 64 bits

The readers of this library count without bound.  A machine has 64 bits for an offset, and it has
to make sure that what it takes from a message is there.  A `Checked` reader computes as such a
machine does.  It makes sure that there are enough bytes left before it goes on, and only then it
adds up offsets and takes bytes, and this stops it for good if a sum is no offset or if the bytes
are not in the message (`Halt.outOfRange`).

There is a checked reader for everything that is read from a message, up to the response as a
whole.  A name is read in a loop, which adds to what is used up of the limits.
-/
import StubResolver.Answer
import StubResolver.Proofs.Name.Loop

namespace StubResolver

/-! ## Computing with offsets -/

/-- Why a checked computation comes to nothing. -/
inductive Halt where
  /-- The message is refused. -/
  | refused (error : WireError)
  /-- So many bytes are wanted at a position where there are fewer. -/
  | missing (position count : Nat)
  /-- A sum is no offset, or bytes are not where they are taken from. -/
  | outOfRange
deriving DecidableEq, Repr

namespace Halt

/-- The sum of two numbers, which has to be an offset. -/
def sum (a b : Nat) : Except Halt Nat :=
  if a + b ≤ maxOffset then .ok (a + b) else .error .outOfRange

/-- The byte at an index, which has to be in range. -/
def index (bytes : Bytes) (i : Nat) : Except Halt UInt8 :=
  match bytes[i]? with
  | none => .error .outOfRange
  | some byte => .ok byte

/-- The bytes from a position on, which have to be in the message; no bytes are in every one. -/
def slice (message : Message) (position count : Nat) : Except Halt Bytes :=
  if count = 0 ∨ position + count ≤ message.size then .ok (message.slice position count)
  else .error .outOfRange

/-- The result of a computation without offsets. -/
def ofResult {α : Type} (result : Except WireError α) : Except Halt α :=
  result.mapError .refused

end Halt

/-- From a message and a position in it, a value and the position after it. -/
def Checked (α : Type) : Type :=
  Message → Nat → Except Halt (α × Nat)

namespace Checked

variable {α β : Type}

instance : Monad Checked where
  pure a := fun _ position => .ok (a, position)
  bind reader next := fun message position =>
    match reader message position with
    | .error halt => .error halt
    | .ok (a, position) => next a message position

lemma bind_apply (reader : Checked α) (next : α → Checked β) (message : Message)
    (position : Nat) : (reader >>= next) message position =
      match reader message position with
      | .error halt => .error halt
      | .ok (a, position) => next a message position := rfl

/-- Comes to nothing. -/
def halt (halt : Halt) : Checked α :=
  fun _ _ => .error halt

/-- Passes over the next `count` bytes, if there are as many. -/
def skip (count : Nat) : Checked Unit := fun message position =>
  if count ≤ message.size - position then do
    let finish ← Halt.sum position count
    pure ((), finish)
  else .error (.missing position count)

/-- The next `count` bytes, if there are as many. -/
def take (count : Nat) : Checked Bytes := fun message position =>
  if count ≤ message.size - position then do
    let bytes ← Halt.slice message position count
    let finish ← Halt.sum position count
    pure (bytes, finish)
  else .error (.missing position count)

/-- The position itself. -/
def position : Checked Nat :=
  fun _ position => .ok (position, position)

/-- A big-endian integer of `width` bytes, for which there have to be as many. -/
def bigEndian (width : Nat) : Checked Nat := do
  let bytes ← take width
  if bytes.length = width then pure (Bytes.ofBigEndian bytes)
  else halt .outOfRange

/-- A byte. -/
def byte : Checked UInt8 := do
  pure (UInt8.ofNat (← bigEndian 1))

/-- A word of two bytes. -/
def word : Checked UInt16 := do
  pure (UInt16.ofNat (← bigEndian 2))

/-- A word of four bytes. -/
def long : Checked UInt32 := do
  pure (UInt32.ofNat (← bigEndian 4))

/-- The flags of a message. -/
def flags : Checked Flags := do
  pure (Flags.ofWord (← word))

/-- The header of a message. -/
def header : Checked Header := do
  let id ← word
  let flags ← flags
  let questionCount ← word
  let answerCount ← word
  let authorityCount ← word
  let additionalCount ← word
  pure ⟨id, flags, questionCount, answerCount, authorityCount, additionalCount⟩

/-- A segment of a name.  Its first two bytes are looked for where they may be missing. -/
def segment : Checked Segment := fun message offset =>
  match message[offset]? with
  | none => .error (.refused (.malformedName offset .outOfBounds))
  | some first =>
    if first = 0 then do
      let next ← Halt.sum offset 1
      pure (.terminator, next)
    else if first < 0x40 then
      if first.toNat < message.size - offset then do
        let start ← Halt.sum offset 1
        let bytes ← Halt.slice message start first.toNat
        let next ← Halt.sum start first.toNat
        pure (.label bytes, next)
      else .error (.refused (.malformedName offset .outOfBounds))
    else if first < 0xC0 then
      .error (.refused (.malformedName offset (.reservedLabelType first)))
    else
      match message[offset + 1]? with
      | none => .error (.refused (.malformedName offset .outOfBounds))
      | some second => do
        let next ← Halt.sum offset 2
        pure (.pointer (UInt16.ofNat (first.toNat % 64 * 256 + second.toNat)), next)

end Checked

namespace Name

/-- Reads one segment, and counts what it uses up of the limits. -/
def Progress.checkedStep (message : Message) (progress : Progress) :
    Except Halt (Progress ⊕ (Name × Nat)) := do
  match ← Checked.segment message progress.offset with
  | (.terminator, next) =>
    pure (.inr (ofLabels progress.texts.reverse, progress.resume.getD next))
  | (.label bytes, next) =>
    let taken ← Halt.sum bytes.length 1
    let used ← Halt.sum progress.used taken
    let whole ← Halt.sum used 1
    if maxNameLength < whole then
      .error (.refused (.malformedName progress.offset .tooLong))
    else
      match Utf8.decode bytes with
      | .error flaw => .error (.refused (.malformedName progress.offset (.invalidUtf8 flaw)))
      | .ok text =>
        pure (.inl { progress with
          offset := next
          texts := String.ofList text :: progress.texts
          used := used })
  | (.pointer target, next) =>
    if progress.offset ≤ target.toNat then
      .error (.refused (.malformedName progress.offset (.forwardPointer target.toNat)))
    else
      let hops ← Halt.sum progress.hops 1
      if maxPointerHops < hops then
        .error (.refused (.malformedName progress.offset .tooManyPointers))
      else
        pure (.inl { progress with
          offset := target.toNat
          hops := hops
          resume := some (progress.resume.getD next) })

/-- What the loop has come to after a number of segments, if it has come to an end. -/
def checkedLoop (message : Message) : Nat → Progress → Option (Except Halt (Name × Nat))
  | 0, _ => none
  | count + 1, progress =>
    match progress.checkedStep message with
    | .error halt => some (.error halt)
    | .ok (.inl next) => checkedLoop message count next
    | .ok (.inr result) => some (.ok result)

end Name

namespace Checked

variable {α : Type}

/-- A name, of which at most 256 segments are read. -/
def name : Checked Name := fun message offset =>
  (Name.checkedLoop message 256 (.start offset)).getD (.error .outOfRange)

/-- A question. -/
def question : Checked Question := do
  let name ← name
  let qtype ← word
  let qclass ← word
  pure ⟨name, qtype, qclass⟩

/-- A resource record. -/
def record : Checked PlacedRecord := do
  let name ← name
  let rtype ← word
  let rclass ← word
  let ttl ← long
  let length ← bigEndian 2
  let dataOffset ← position
  let data ← take length
  pure ⟨⟨name, rtype, rclass, ttl, data⟩, dataOffset⟩

/-- As many values as told, one after the other. -/
def times (reader : Checked α) : Nat → Checked (List α)
  | 0 => pure []
  | count + 1 => do
    let first ← reader
    let others ← times reader count
    pure (first :: others)

/-! ## Responses -/

/-- All answer records of the response to transaction `id`. -/
def records (id : UInt16) : Checked (List PlacedRecord) := do
  let header ← header
  match header.refusal? id with
  | some error => halt (.refused error)
  | none =>
    let _questions ← question.times header.questionCount.toNat
    if header.answerCount = 0 then halt (.refused .noAnswers)
    else record.times header.answerCount.toNat

/-- The data of a record as a mail exchange. -/
def exchange (message : Message) (record : PlacedRecord) : Except Halt AnswerData :=
  if record.data.length < 3 then
    .error (.refused (.invalidRecordData RecordType.mx.code record.data.length))
  else do
    let high ← Halt.index record.data 0
    let low ← Halt.index record.data 1
    let start ← Halt.sum record.dataOffset 2
    let (host, finish) ← name message start
    let behind ← Halt.sum record.dataOffset record.data.length
    if behind < finish then
      .error (.refused (.invalidRecordData RecordType.mx.code record.data.length))
    else pure (.exchange (UInt16.ofNat (Bytes.ofBigEndian [high, low])) host)

/-- The answer that a record of the wanted type holds. -/
def answer (message : Message) (type : QueryType) (record : PlacedRecord) :
    Except Halt Answer := do
  let data ←
    match type with
    | .a => Halt.ofResult record.address
    | .mx => exchange message record
  pure ⟨record.name, record.ttl, data⟩

/-- The answer of any record type in the response to transaction `id`. -/
def parse (message : Message) (id : UInt16) (type : RecordType) : Except Halt Answer :=
  match type.queryType? with
  | none => .error (.refused (.unsupportedType type.code))
  | some type => do
    let found ← records id message 0
    match found.1.find? (·.rtype = type.code) with
    | none => .error (.refused .noMatchingRecord)
    | some record => answer message type record

end Checked

end StubResolver
