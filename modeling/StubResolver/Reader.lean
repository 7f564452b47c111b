/-
Readers: how a value is taken from a position in a message.

A reader sees the whole message, since the names inside of it refer to absolute offsets,
and the position to read at.  It returns a value and the position after it.  The position
may lie anywhere, also past the end of the message, where nothing is left to read.

A message that is read is an array, in which every offset is equally near: a response may
count tens of thousands of records, and each of their names may lead back to anywhere.
`Reader.run` takes the message as a string of bytes, and `slice_eq` says in terms of such
strings what a reader is given.
-/
import StubResolver.WireError

namespace StubResolver

/-- The greatest offset that an error can name. -/
def maxOffset : Nat := UInt64.size - 1

/-- A message to read from: bytes that are at hand by their offsets. -/
abbrev Message := Array UInt8

namespace Message

/-- The `count` bytes from a position on, or as many of them as there are. -/
def slice (message : Message) (position count : Nat) : Bytes :=
  (message.extract position (position + count)).toList

theorem slice_eq (message : Message) (position count : Nat) :
    message.slice position count = (message.toList.drop position).take count := by
  simp [slice, List.extract_eq_take_drop]

theorem length_slice {message : Message} {position count : Nat}
    (h : count ≤ message.size - position) : (message.slice position count).length = count := by
  simp [slice_eq, h]

end Message

/-- From a message and a position in it, a value and the position after it. -/
def Reader (α : Type) : Type :=
  Message → Nat → Except WireError (α × Nat)

namespace Reader

variable {α β : Type}

instance : Monad Reader where
  pure a := fun _ position => .ok (a, position)
  bind reader next := fun message position =>
    match reader message position with
    | .error error => .error error
    | .ok (a, position) => next a message position

@[simp] theorem pure_apply (a : α) (message : Message) (position : Nat) :
    (pure a : Reader α) message position = .ok (a, position) := rfl

theorem bind_apply (reader : Reader α) (next : α → Reader β) (message : Message)
    (position : Nat) :
    (reader >>= next) message position =
      match reader message position with
      | .error error => .error error
      | .ok (a, position) => next a message position := rfl

/-- What a reader makes of a string of bytes. -/
def run (reader : Reader α) (bytes : Bytes) (position : Nat) : Except WireError (α × Nat) :=
  reader bytes.toArray position

/-- The reader that refuses the message. -/
def fail (error : WireError) : Reader α :=
  fun _ _ => .error error

/-- The error of wanting `count` bytes at `position`. -/
def shortage (message : Message) (position count : Nat) : WireError :=
  .truncated (min (position + count) maxOffset) message.size

/-- The next `count` bytes. -/
def take (count : Nat) : Reader Bytes := fun message position =>
  if count ≤ message.size - position then .ok (message.slice position count, position + count)
  else .error (shortage message position count)

/-- Passes over the next `count` bytes. -/
def skip (count : Nat) : Reader Unit := fun message position =>
  if count ≤ message.size - position then .ok ((), position + count)
  else .error (shortage message position count)

/-- Goes on at an absolute position. -/
def moveTo (position : Nat) : Reader Unit :=
  fun _ _ => .ok ((), position)

/-- The position itself. -/
def position : Reader Nat :=
  fun _ position => .ok (position, position)

/-- All bytes from the position on; the position stays. -/
def remaining : Reader Bytes := fun message position =>
  .ok (message.slice position (message.size - position), position)

/-- A big-endian integer of `width` bytes. -/
def bigEndian (width : Nat) : Reader Nat := do
  let bytes ← take width
  pure (Bytes.ofBigEndian bytes)

/-! ## Reading several values -/

/-- Reads as many values as told behind those that are `done`, the last of which comes
first. -/
def timesOnto (reader : Reader α) (message : Message) (done : List α) :
    Nat → Nat → Except WireError (List α × Nat)
  | 0, position => .ok (done.reverse, position)
  | count + 1, position =>
    match reader message position with
    | .error error => .error error
    | .ok (a, position) => timesOnto reader message (a :: done) count position

/-- As many values as told, one after the other. -/
def times (reader : Reader α) (count : Nat) : Reader (List α) :=
  fun message position => timesOnto reader message [] count position

/-- What was read before is only put in front of what is read. -/
theorem timesOnto_eq (reader : Reader α) (message : Message) (done : List α)
    (count position : Nat) :
    timesOnto reader message done count position =
      (times reader count message position).map
        fun (values, finish) => (done.reverse ++ values, finish) := by
  rw [times]
  induction count generalizing done position with
  | zero => simp [timesOnto, Except.map]
  | succ count ih =>
    rw [timesOnto, timesOnto]
    split
    · rfl
    · rename_i a next _
      rw [ih (a :: done), ih [a]]
      cases timesOnto reader message [] count next <;> simp [Except.map]

@[simp] theorem times_zero (reader : Reader α) : times reader 0 = pure [] := rfl

/-- The first value is read, and then the others. -/
theorem times_succ (reader : Reader α) (count : Nat) :
    times reader (count + 1) = (do
      let first ← reader
      let others ← times reader count
      pure (first :: others)) := by
  funext message position
  rw [times, timesOnto, bind_apply]
  split
  · rfl
  · rename_i first next _
    rw [timesOnto_eq, bind_apply]
    cases times reader count message next <;> rfl

end Reader

/-- A type whose values can be read from a message. -/
class Readable (α : Type) where
  /-- Takes a value from a position in a message. -/
  read : Reader α

instance : Readable UInt8 where
  read := do pure (UInt8.ofNat (← Reader.bigEndian 1))

instance : Readable UInt16 where
  read := do pure (UInt16.ofNat (← Reader.bigEndian 2))

instance : Readable UInt32 where
  read := do pure (UInt32.ofNat (← Reader.bigEndian 4))

end StubResolver
