/-
The sixteen bits of the flags of a message.

Taking the bits apart and putting them together undo each other: `ofWord_word` and
`word_ofWord`.
-/
import StubResolver.Flags

namespace StubResolver

namespace Flags

/-- The value of the sixteen bits, in which no field runs into its neighbour. -/
theorem toNat_word (flags : Flags) :
    flags.word.toNat =
      (if flags.kind = .reply then 32768 else 0) +
      flags.opcode.val * 2048 +
      flags.authoritative.toNat * 1024 +
      flags.truncated.toNat * 512 +
      flags.recursionDesired.toNat * 256 +
      flags.recursionAvailable.toNat * 128 +
      flags.reserved.val * 16 +
      flags.responseCode.val := by
  have opcode_lt := flags.opcode.isLt
  have reserved_lt := flags.reserved.isLt
  have responseCode_lt := flags.responseCode.isLt
  have authoritative_le := flags.authoritative.toNat_le
  have truncated_le := flags.truncated.toNat_le
  have desired_le := flags.recursionDesired.toNat_le
  have available_le := flags.recursionAvailable.toNat_le
  rw [word, UInt16.toNat_ofNat', Nat.mod_eq_of_lt]
  split <;> omega

theorem toNat_decide_mod_two (n : Nat) : (decide (n % 2 = 1)).toNat = n % 2 := by
  by_cases h : n % 2 = 1
  · simp [h]
  · simp [h]
    omega

theorem decide_mod_two {bit : Bool} {n : Nat} (h : n % 2 = bit.toNat) :
    decide (n % 2 = 1) = bit := by
  cases bit <;> simp_all

/-- Sixteen bits that are taken apart are put together again. -/
theorem word_ofWord (word : UInt16) : (ofWord word).word = word := by
  have word_lt := word.toNat_lt
  apply UInt16.toNat_inj.1
  rw [toNat_word]
  simp only [ofWord, toNat_decide_mod_two, Fin.ofNat]
  by_cases h : word.toNat / 32768 % 2 = 1
  · simp only [h, if_true]
    omega
  · simp only [h, if_false]
    rw [if_neg (by decide)]
    omega

/-- Flags that are put together are taken apart again. -/
theorem ofWord_word (flags : Flags) : ofWord flags.word = flags := by
  have value := toNat_word flags
  obtain ⟨kind, opcode, authoritative, truncated, desired, available, reserved, code⟩ := flags
  simp only at value
  have authoritative_le := authoritative.toNat_le
  have truncated_le := truncated.toNat_le
  have desired_le := desired.toNat_le
  have available_le := available.toNat_le
  have kind_le : (if kind = MessageKind.reply then 32768 else 0) % 32768 = 0 := by
    split <;> rfl
  simp only [ofWord, value, mk.injEq]
  refine ⟨?_, Fin.ext ?_, decide_mod_two ?_, decide_mod_two ?_, decide_mod_two ?_,
    decide_mod_two ?_, Fin.ext ?_, Fin.ext ?_⟩
  · cases kind <;> simp <;> omega
  · rw [Fin.val_ofNat]; omega
  · omega
  · omega
  · omega
  · omega
  · rw [Fin.val_ofNat]; omega
  · rw [Fin.val_ofNat]; omega

end Flags

end StubResolver
