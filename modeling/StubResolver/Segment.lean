/-
Segments, the elements of an encoded name.

The two top bits of the first byte tell the segments apart: `00` a label with its length,
or the terminator when the length is zero; `11` a pointer, fourteen bits wide, to an
earlier offset of the message; `01` and `10` have no meaning.
-/
import StubResolver.Reader
import StubResolver.Writer

namespace StubResolver

/-- The longest label that may appear in a name. -/
def maxLabelLength : Nat := 63

/-- One element of an encoded name. -/
inductive Segment where
  /-- The end of the name. -/
  | terminator
  /-- A literal label. -/
  | label (bytes : Bytes)
  /-- The rest of the name stands at an earlier offset. -/
  | pointer (target : UInt16)
deriving DecidableEq, Repr

namespace Segment

/-- The length of the wire form of a segment. -/
protected def size : Segment → Nat
  | terminator => 1
  | label bytes => 1 + bytes.length
  | pointer _ => 2

/-- The wire form of a label: its length, then its bytes. -/
def labelBytes (bytes : Bytes) : Bytes :=
  UInt8.ofNat bytes.length :: bytes

/-- The wire form of a pointer, in which the two top bits are set over those of the target. -/
def pointerBytes (target : UInt16) : Bytes :=
  [UInt8.ofNat (target.toNat / 256) ||| 0xC0, UInt8.ofNat target.toNat]

/-- Puts the wire form of a segment; a label of more than `maxLabelLength` bytes has none. -/
protected def write : Segment → Writer
  | terminator => .put [0]
  | label bytes =>
    if maxLabelLength < bytes.length then .fail (.labelTooLong bytes.length)
    else .put (labelBytes bytes)
  | pointer target => .put (pointerBytes target)

/-- Takes a segment from a message. -/
protected def read : Reader Segment := fun message offset =>
  match message[offset]? with
  | none => .error (.malformedName offset .outOfBounds)
  | some first =>
    if first = 0 then .ok (terminator, offset + 1)
    else if first < 0x40 then
      let finish := offset + 1 + first.toNat
      if finish ≤ message.size then .ok (label (message.slice (offset + 1) first.toNat), finish)
      else .error (.malformedName offset .outOfBounds)
    else if first < 0xC0 then .error (.malformedName offset (.reservedLabelType first))
    else
      match message[offset + 1]? with
      | none => .error (.malformedName offset .outOfBounds)
      | some second =>
        .ok (pointer (UInt16.ofNat (first.toNat % 64 * 256 + second.toNat)), offset + 2)

instance : Writable Segment where
  size := Segment.size
  write := Segment.write

instance : Readable Segment where
  read := Segment.read

end Segment

end StubResolver
