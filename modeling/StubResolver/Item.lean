/-
Items: whatever has a wire form, in one type.

A program that lays out a message by hand puts integers, sections and pieces of names one
after the other; `Item` lets it keep them in one list.
-/
import StubResolver.Header
import StubResolver.Question
import StubResolver.Record

namespace StubResolver

/-- A value of one of the kinds that have a wire form. -/
inductive Item where
  | byte (value : UInt8)
  | word (value : UInt16)
  | long (value : UInt32)
  | flags (value : Flags)
  | header (value : Header)
  | question (value : Question)
  | record (value : Record)
  | name (value : Name)
  | segment (value : Segment)
deriving DecidableEq, Repr

namespace Item

instance : Writable Item where
  size
    | .byte value => size value
    | .word value => size value
    | .long value => size value
    | .flags value => size value
    | .header value => size value
    | .question value => size value
    | .record value => size value
    | .name value => size value
    | .segment value => size value
  write
    | .byte value => write value
    | .word value => write value
    | .long value => write value
    | .flags value => write value
    | .header value => write value
    | .question value => write value
    | .record value => write value
    | .name value => write value
    | .segment value => write value

end Item

end StubResolver
