/-
Domain names and their wire form.

A name is a text of labels between dots, and the root is the empty text.  Its labels are
what stands between the dots, empty pieces left out, so that a dot at the end changes
nothing on the wire.  `labels` cuts the text, `segments` cuts its bytes; the wire form is
each segment after its length, and then a zero byte.

In a message a name may go on at an earlier offset, to which a pointer leads.  `labelsFrom`
follows the pointers.  A name has at most `maxNameLength` bytes without pointers, and at
most `maxPointerHops` pointers are followed, which is why reading ends: each step uses up
some of what is left of one of the two.
-/
import StubResolver.Segment

namespace StubResolver

/-- The most bytes that a name may take up on the wire without pointers. -/
def maxNameLength : Nat := 255

/-- The most pointers that are followed within one name. -/
def maxPointerHops : Nat := 128

/-- A domain name, written with dots between its labels. -/
structure Name where
  text : String
deriving DecidableEq, Repr

namespace Name

/-- The root. -/
def root : Name := ⟨""⟩

/-- The bytes of the text of a name. -/
def bytes (name : Name) : Bytes :=
  Utf8.encode name.text.toList

/-- Names are ordered as their bytes are. -/
instance : Ord Name where
  compare a b := compare a.bytes b.bytes

/-- The labels of a name: the pieces of its text between the dots, but for empty ones. -/
def labels (name : Name) : List String :=
  ((name.text.toList.splitOn '.').filter (!·.isEmpty)).map String.ofList

/-- The labels of a name in bytes: the pieces of its bytes between the dots, but for empty
ones. -/
def segments (name : Name) : List Bytes :=
  (name.bytes.splitOn 0x2E).filter (!·.isEmpty)

/-- The name with the given labels. -/
def ofLabels (labels : List String) : Name :=
  ⟨".".intercalate labels⟩

/-! ## Writing -/

/-- The wire form of a list of labels: each one after its length, then the terminator. -/
def wireForm (labels : List Bytes) : Bytes :=
  labels.flatMap Segment.labelBytes ++ [0]

/-- The length of the wire form of a list of labels. -/
def wireLength (labels : List Bytes) : Nat :=
  labels.foldr (fun label rest => label.length + 1 + rest) 1

/-- Puts the wire form of a name, if no label and not the whole name is too long. -/
protected def write (name : Name) : Writer :=
  match name.segments.find? (maxLabelLength < ·.length) with
  | some label => .fail (.labelTooLong label.length)
  | none =>
    if maxNameLength < wireLength name.segments then
      .fail (.nameTooLong (wireLength name.segments))
    else .put (wireForm name.segments)

instance : Writable Name where
  size name := wireLength name.segments
  write := Name.write

/-! ## Reading -/

/-- The labels of the name at `offset`, and the offset after it, when `used` bytes of labels
and `hops` pointers came before.  A pointer ends the name where it stands, wherever it
leads. -/
def labelsFrom (message : Message) (used hops offset : Nat) :
    Except WireError (List String × Nat) :=
  match Segment.read message offset with
  | .error error => .error error
  | .ok (.terminator, next) => .ok ([], next)
  | .ok (.label bytes, next) =>
    if _h : maxNameLength < used + (bytes.length + 1) + 1 then
      .error (.malformedName offset .tooLong)
    else
      match Utf8.decode bytes with
      | .error flaw => .error (.malformedName offset (.invalidUtf8 flaw))
      | .ok text =>
        match labelsFrom message (used + (bytes.length + 1)) hops next with
        | .error error => .error error
        | .ok (labels, finish) => .ok (String.ofList text :: labels, finish)
  | .ok (.pointer target, next) =>
    if offset ≤ target.toNat then
      .error (.malformedName offset (.forwardPointer target.toNat))
    else if _h : maxPointerHops < hops + 1 then
      .error (.malformedName offset .tooManyPointers)
    else
      match labelsFrom message used (hops + 1) target.toNat with
      | .error error => .error error
      | .ok (labels, _) => .ok (labels, next)
termination_by (maxNameLength - used) + (maxPointerHops - hops)
decreasing_by all_goals omega

/-- Takes a name from a message. -/
protected def read : Reader Name := fun message offset =>
  match labelsFrom message 0 0 offset with
  | .error error => .error error
  | .ok (labels, next) => .ok (ofLabels labels, next)

instance : Readable Name where
  read := Name.read

/-- The name at an offset of a message, and the offset after it. -/
def decode (bytes : Bytes) (offset : Nat) : Except WireError (Name × Nat) :=
  Name.read.run bytes offset

end Name

end StubResolver
