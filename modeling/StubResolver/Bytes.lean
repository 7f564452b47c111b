/-
Byte strings and the big-endian integers inside of them.

Every field of a message is either a run of bytes or an unsigned integer of one, two or
four bytes with the most significant byte first.  Both directions are stated for an
arbitrary width: `ofBigEndian` is the value of a run of bytes, `toBigEndian w n` is the
run of `w` bytes whose value is `n` modulo `256 ^ w`, and gives back the bytes that a value
was made of (`toBigEndian_ofBigEndian`).
-/
namespace StubResolver

/-- A string of bytes, such as a whole message or the data of one record. -/
abbrev Bytes := List UInt8

namespace Bytes

/-- The value of a run of bytes, the first of them being the most significant. -/
def ofBigEndian (bytes : Bytes) : Nat :=
  bytes.foldl (fun value byte => value * 256 + byte.toNat) 0

/-- The last `width` bytes of `n`, the most significant of them first. -/
def toBigEndian : Nat → Nat → Bytes
  | 0, _ => []
  | width + 1, n => toBigEndian width (n / 256) ++ [UInt8.ofNat n]

@[simp] theorem length_toBigEndian (width n : Nat) : (toBigEndian width n).length = width := by
  induction width generalizing n with
  | zero => rfl
  | succ width ih => simp [toBigEndian, ih]

@[simp] theorem ofBigEndian_nil : ofBigEndian [] = 0 := rfl

@[simp] theorem ofBigEndian_append_singleton (bytes : Bytes) (byte : UInt8) :
    ofBigEndian (bytes ++ [byte]) = ofBigEndian bytes * 256 + byte.toNat := by
  simp [ofBigEndian]

theorem toBigEndian_ofBigEndian (bytes : Bytes) :
    toBigEndian bytes.length (ofBigEndian bytes) = bytes := by
  obtain ⟨reversed, rfl⟩ : ∃ reversed, bytes = List.reverse reversed :=
    ⟨bytes.reverse, (List.reverse_reverse bytes).symm⟩
  induction reversed with
  | nil => rfl
  | cons byte reversed ih =>
    have hb := byte.toNat_lt
    rw [List.reverse_cons, ofBigEndian_append_singleton, List.length_append,
      List.length_singleton, toBigEndian]
    rw [show (ofBigEndian reversed.reverse * 256 + byte.toNat) / 256 =
      ofBigEndian reversed.reverse by omega, ih]
    congr 2
    apply UInt8.toNat_inj.1
    simp

/-- Two hexadecimal digits after `0x`, in lower case. -/
def hexText (byte : UInt8) : String :=
  let digit (n : Nat) : Char := if n < 10 then Char.ofNat (48 + n) else Char.ofNat (87 + n)
  String.ofList ['0', 'x', digit (byte.toNat / 16), digit (byte.toNat % 16)]

end Bytes

end StubResolver
