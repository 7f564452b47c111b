/-
Writers: how a value is put into a buffer of limited room.

A writer is told how many bytes of room there are and returns the bytes that it puts
there, or the reason why it cannot.  Writers are put one after the other with `++`: the
second has the room that the first one leaves, so the numbers in an error are those of
the field that fails.  Writing into a buffer, `writeInto`, then lays the bytes over the
start of the buffer and leaves the rest as it was; a failure leaves the whole of it.
-/
import StubResolver.WireError

namespace StubResolver

/-- From the room that is left, the bytes to put there. -/
def Writer : Type :=
  Nat → Except WireError Bytes

namespace Writer

/-- The writer that refuses the value. -/
def fail (error : WireError) : Writer :=
  fun _ => .error error

/-- Puts the given bytes, if they fit. -/
def put (bytes : Bytes) : Writer := fun room =>
  if room < bytes.length then .error (.notEnoughSpace bytes.length room) else .ok bytes

/-- Puts what `first` puts, and what `second` puts after it. -/
def andThen (first second : Writer) : Writer := fun room =>
  match first room with
  | .error error => .error error
  | .ok bytes =>
    match second (room - bytes.length) with
    | .error error => .error error
    | .ok others => .ok (bytes ++ others)

instance : Append Writer where
  append := andThen

theorem append_apply (first second : Writer) (room : Nat) :
    (first ++ second) room =
      match first room with
      | .error error => .error error
      | .ok bytes =>
        match second (room - bytes.length) with
        | .error error => .error error
        | .ok others => .ok (bytes ++ others) := rfl

end Writer

/-- A type whose values have a wire form. -/
class Writable (α : Type) where
  /-- The length of the wire form. -/
  size : α → Nat
  /-- Puts the wire form into the room that is left. -/
  write : α → Writer

export Writable (size write)

variable {α : Type} [Writable α]

/-- The wire form of a value, on its own. -/
def encode (a : α) : Except WireError Bytes :=
  write a (size a)

/-- Lays the wire form of a value over the start of a buffer, and counts the bytes put. -/
def writeInto (a : α) (buffer : Bytes) : Except WireError (Nat × Bytes) :=
  match write a buffer.length with
  | .error error => .error error
  | .ok bytes => .ok (bytes.length, bytes ++ buffer.drop bytes.length)

instance : Writable UInt8 where
  size _ := 1
  write n := .put (Bytes.toBigEndian 1 n.toNat)

instance : Writable UInt16 where
  size _ := 2
  write n := .put (Bytes.toBigEndian 2 n.toNat)

instance : Writable UInt32 where
  size _ := 4
  write n := .put (Bytes.toBigEndian 4 n.toNat)

/-! ## Buffers -/

/-- A buffer of fixed length that is filled from the front. -/
structure Buffer where
  /-- What is filled, in reverse order. -/
  filled : Bytes
  /-- The contents behind it. -/
  rest : Bytes
  /-- How many bytes can still be filled. -/
  room : Nat := rest.length
  room_eq : room = rest.length := by rfl
deriving DecidableEq, Repr

namespace Buffer

/-- An empty buffer over the given contents. -/
def ofBytes (bytes : Bytes) : Buffer where
  filled := []
  rest := bytes

/-- The contents, what is not yet filled included. -/
def bytes (buffer : Buffer) : Bytes :=
  buffer.filled.reverse ++ buffer.rest

/-- Puts bytes over what stands behind the filled part. -/
def append (buffer : Buffer) (bytes : Bytes) : Buffer where
  filled := bytes.reverse ++ buffer.filled
  rest := buffer.rest.drop bytes.length
  room := buffer.room - bytes.length
  room_eq := by simp [buffer.room_eq]

/-- Puts the wire form of a value behind what is filled, and counts the bytes put. -/
def push (buffer : Buffer) (a : α) : Except WireError (Nat × Buffer) :=
  match write a buffer.room with
  | .error error => .error error
  | .ok bytes => .ok (bytes.length, buffer.append bytes)

end Buffer

end StubResolver
