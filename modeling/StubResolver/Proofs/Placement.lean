/-
# Bytes at an offset

A message is read at absolute offsets, and what a reader finds there is best said by what
stands there: `Holds message offset part` says that the bytes `part` stand in the message
from `offset` on.  Runs of bytes can be cut and joined (`holds_append`), and bytes that stand
somewhere lie inside of the message (`Holds.end_le`).
-/
import Mathlib.Algebra.Order.Ring.Nat
import Mathlib.Data.List.Infix
import Mathlib.Tactic.Lemma
import StubResolver.Bytes

namespace StubResolver

/-- The bytes `part` stand in the message from `offset` on. -/
def Holds (message : Bytes) (offset : Nat) (part : Bytes) : Prop :=
  part <+: message.drop offset

variable {message part first second rest : Bytes} {offset : Nat}

lemma holds_iff_take : Holds message offset part ↔
    (message.drop offset).take part.length = part := by
  rw [Holds, List.prefix_iff_eq_take]
  exact eq_comm

lemma holds_append : Holds message offset (first ++ second) ↔
    Holds message offset first ∧ Holds message (offset + first.length) second := by
  constructor
  · rintro ⟨rest, h⟩
    refine ⟨⟨second ++ rest, by rw [← List.append_assoc, h]⟩, rest, ?_⟩
    rw [← List.drop_drop, ← h, List.append_assoc, List.drop_left]
  · rintro ⟨⟨behind, h⟩, rest, h'⟩
    refine ⟨rest, ?_⟩
    rw [← List.drop_drop, ← h, List.drop_left] at h'
    rw [List.append_assoc, h', h]

lemma holds_singleton {byte : UInt8} :
    Holds message offset [byte] ↔ message[offset]? = some byte := by
  rw [← List.head?_drop, Holds]
  cases message.drop offset with
  | nil => simp
  | cons head tail => simp [List.cons_prefix_cons, eq_comm]

lemma holds_cons {byte : UInt8} : Holds message offset (byte :: rest) ↔
    message[offset]? = some byte ∧ Holds message (offset + 1) rest := by
  rw [← List.singleton_append, holds_append, holds_singleton, List.length_singleton]

/-- From inside of a message as many bytes can be taken as are wanted. -/
lemma length_take_drop {count : Nat} (h : offset + count ≤ message.length) :
    ((message.drop offset).take count).length = count := by
  rw [List.length_take, List.length_drop]
  omega

lemma Holds.length_le (h : Holds message offset part) :
    part.length ≤ message.length - offset := by
  simpa using List.IsPrefix.length_le h

/-- Bytes that stand somewhere end inside of the message. -/
lemma Holds.end_le (h : Holds message offset part) (hne : part ≠ []) :
    offset + part.length ≤ message.length := by
  have hle := h.length_le
  have hpos := List.length_pos_iff.2 hne
  omega

/-- What stands in a part of a message stands in the message. -/
lemma Holds.of_holds {start : Nat} (h : Holds part offset first) (hpart : Holds message start part) :
    Holds message (start + offset) first := by
  rw [Holds, ← List.drop_drop]
  exact List.IsPrefix.trans h (List.IsPrefix.drop hpart offset)

/-- A byte of what stands at an offset stands in the message. -/
lemma Holds.getElem?_eq_some {index : Nat} {byte : UInt8} (h : Holds message offset part)
    (hbyte : part[index]? = some byte) : message[offset + index]? = some byte :=
  holds_singleton.1 ((holds_singleton.2 hbyte).of_holds h)

/-- What ends in front of a bound stands in the message up to there. -/
lemma Holds.take {bound : Nat} (h : Holds message offset part)
    (hle : offset + part.length ≤ bound) : Holds (message.take bound) offset part := by
  rw [Holds, List.drop_take]
  exact List.prefix_take_iff.2 ⟨h, by omega⟩

end StubResolver
