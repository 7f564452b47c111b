/-
# Big-endian integers

A run of bytes has a value below `256 ^ length` (`ofBigEndian_lt`), and writing an integer
and taking its value again loses nothing but what does not fit (`ofBigEndian_toBigEndian`).
Runs of two bytes are the words.
-/
import Mathlib.Algebra.Order.Ring.Nat
import Mathlib.Tactic.Lemma
import StubResolver.Bytes

namespace StubResolver

lemma Bytes.ofBigEndian_toBigEndian (width n : Nat) :
    ofBigEndian (toBigEndian width n) = n % 256 ^ width := by
  induction width generalizing n with
  | zero => simp [toBigEndian, Nat.mod_one]
  | succ width ih =>
    rw [toBigEndian, ofBigEndian_append_singleton, ih, Nat.pow_succ, Nat.mul_comm (256 ^ width),
      Nat.mod_mul, UInt8.toNat_ofNat']
    omega

lemma Bytes.ofBigEndian_lt (bytes : Bytes) : ofBigEndian bytes < 256 ^ bytes.length := by
  have h := ofBigEndian_toBigEndian bytes.length (ofBigEndian bytes)
  rw [toBigEndian_ofBigEndian] at h
  rw [h]
  exact Nat.mod_lt _ (Nat.pow_pos (by decide))

lemma ofBigEndian_word (word : UInt16) :
    Bytes.ofBigEndian (Bytes.toBigEndian 2 word.toNat) = word.toNat := by
  have hlt := word.toNat_lt
  rw [Bytes.ofBigEndian_toBigEndian]
  omega

/-- Two bytes are always those of a word. -/
lemma toBigEndian_word {bytes : Bytes} (h : bytes.length = 2) :
    Bytes.toBigEndian 2 (UInt16.ofNat (Bytes.ofBigEndian bytes)).toNat = bytes := by
  have hlt := Bytes.ofBigEndian_lt bytes
  have hback := Bytes.toBigEndian_ofBigEndian bytes
  rw [h] at hlt hback
  have hword : (UInt16.ofNat (Bytes.ofBigEndian bytes)).toNat = Bytes.ofBigEndian bytes := by
    rw [UInt16.toNat_ofNat']
    omega
  rw [hword, hback]

end StubResolver
