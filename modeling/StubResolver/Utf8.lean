/-
UTF-8, the encoding of the labels of a name.

`encode` writes characters as bytes.  `decode` reads bytes as characters and reports the
first place where they are not well formed: the index of the first byte of the bad
sequence, and how many bytes from there on could still have begun a character.  When the
bytes end inside of a sequence that was fine so far, the flaw is that it is incomplete.
-/
import StubResolver.Bytes

namespace StubResolver

namespace Utf8

/-- Why a run of bytes is not UTF-8. -/
inductive Flaw where
  /-- The `length` bytes from `index` on begin no character together with what follows. -/
  | invalid (index length : Nat)
  /-- The bytes end within the character that begins at `index`. -/
  | incomplete (index : Nat)
deriving DecidableEq, Repr

/-- The wording of a flaw. -/
def Flaw.message : Flaw → String
  | .invalid index length => s!"invalid utf-8 sequence of {length} bytes from index {index}"
  | .incomplete index => s!"incomplete utf-8 byte sequence from index {index}"

/-- The bytes of a run of characters. -/
def encode (text : List Char) : Bytes :=
  text.flatMap String.utf8EncodeChar

/-- What the first byte of a character tells: how many bytes the character takes, and, where
more than two, the least and the greatest second byte.  The narrower bounds rule out
characters written longer than needed, surrogates, and values above the last character. -/
inductive Lead where
  | one
  | two
  | three (low high : UInt8)
  | four (low high : UInt8)
deriving DecidableEq, Repr

/-- The lead that a first byte is, if a character may begin with it. -/
def lead? (byte : UInt8) : Option Lead :=
  if byte < 0x80 then some .one
  else if byte < 0xC2 then none
  else if byte < 0xE0 then some .two
  else if byte < 0xF0 then
    some (.three (if byte = 0xE0 then 0xA0 else 0x80) (if byte = 0xED then 0x9F else 0xBF))
  else if byte < 0xF5 then
    some (.four (if byte = 0xF0 then 0x90 else 0x80) (if byte = 0xF4 then 0x8F else 0xBF))
  else none

/-- A byte between `low` and `high`. -/
def within (low high byte : UInt8) : Bool :=
  low ≤ byte && byte ≤ high

/-- A byte that may stand third or fourth in a character, or second after a lead of two. -/
def isTail (byte : UInt8) : Bool :=
  within 0x80 0xBF byte

/-- The character whose number has the given leading part, followed by the low six bits of
each of the tail bytes. -/
def assemble (leading : Nat) (tails : Bytes) : Char :=
  Char.ofNat (tails.foldl (fun value byte => value * 64 + byte.toNat % 64) leading)

/-- The characters of a run of bytes behind those that are `done`, the last of which comes
first.  The first byte has the given index. -/
def decodeOnto (done : List Char) (index : Nat) : Bytes → Except Flaw (List Char)
  | [] => .ok done.reverse
  | a :: rest =>
    match lead? a with
    | none => .error (.invalid index 1)
    | some .one => decodeOnto (assemble a.toNat [] :: done) (index + 1) rest
    | some .two =>
      match rest with
      | [] => .error (.incomplete index)
      | b :: rest =>
        if isTail b then decodeOnto (assemble (a.toNat % 32) [b] :: done) (index + 2) rest
        else .error (.invalid index 1)
    | some (.three low high) =>
      match rest with
      | [] => .error (.incomplete index)
      | [b] => if within low high b then .error (.incomplete index) else .error (.invalid index 1)
      | b :: c :: rest =>
        if !within low high b then .error (.invalid index 1)
        else if !isTail c then .error (.invalid index 2)
        else decodeOnto (assemble (a.toNat % 16) [b, c] :: done) (index + 3) rest
    | some (.four low high) =>
      match rest with
      | [] => .error (.incomplete index)
      | [b] => if within low high b then .error (.incomplete index) else .error (.invalid index 1)
      | [b, c] =>
        if !within low high b then .error (.invalid index 1)
        else if !isTail c then .error (.invalid index 2)
        else .error (.incomplete index)
      | b :: c :: d :: rest =>
        if !within low high b then .error (.invalid index 1)
        else if !isTail c then .error (.invalid index 2)
        else if !isTail d then .error (.invalid index 3)
        else decodeOnto (assemble (a.toNat % 8) [b, c, d] :: done) (index + 4) rest

/-- The characters of a run of bytes, or its first flaw. -/
def decode (bytes : Bytes) : Except Flaw (List Char) :=
  decodeOnto [] 0 bytes

end Utf8

end StubResolver
