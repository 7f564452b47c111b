/-
# Cutting a name by the positions of its dots

The pieces of a name can be found by scanning its bytes for dots and taking, for each dot and for
the end of the bytes, the slice that reaches there from behind the dot before.  The positions of
the dots are those that a search gives (`Name.scanBy?`), and `Name.scan?` is the scan by all of
them in order.  Each of its slices has to lie inside of the bytes.  It always does, and the slices
that are not empty are the segments of the name (`Name.scan?_eq`).
-/
import Mathlib.Data.List.Basic
import StubResolver.Proofs.Name.WireForm

namespace StubResolver

/-- The bytes from `start` up to `finish`, which have to be offsets of the string in this
order. -/
def slice? (bytes : Bytes) (start finish : Nat) : Option Bytes :=
  if start ≤ finish ∧ finish ≤ bytes.length then some ((bytes.take finish).drop start) else none

/-- The pieces of a string that end at the given offsets.  The first begins at `start`, and each
next one behind the byte at which the one before it ends. -/
def cut? (bytes : Bytes) (start : Nat) : List Nat → Option (List Bytes)
  | [] => some []
  | finish :: ends =>
    match slice? bytes start finish with
    | none => none
    | some piece => (cut? bytes (finish + 1) ends).map (piece :: ·)

/-- The pieces of a name that are not empty, cut from its bytes where a search finds the dots. -/
def Name.scanBy? (find : UInt8 → Bytes → List Nat) (name : Name) : Option (List Bytes) :=
  (cut? name.bytes 0 (find 0x2E name.bytes ++ [name.bytes.length])).map (·.filter (!·.isEmpty))

/-- The segments of a name, cut by the positions of its dots. -/
def Name.scan? (name : Name) : Option (List Bytes) :=
  name.scanBy? fun byte bytes => bytes.idxsOf byte

lemma slice?_append (before piece behind : Bytes) :
    slice? (before ++ piece ++ behind) before.length (before.length + piece.length) =
      some piece := by
  rw [slice?, if_pos (by simp), ← List.length_append, List.take_left, List.drop_left]

/-- While `rest` is scanned, `before` is cut already, and `current` is what is there of the next
piece. -/
lemma cut?_idxsOf (before current rest : Bytes) :
    cut? (before ++ current ++ rest) before.length
        (rest.idxsOf 0x2E (before.length + current.length) ++
          [(before ++ current ++ rest).length]) =
      some ((rest.splitOn 0x2E).modifyHead (current ++ ·)) := by
  induction rest generalizing before current with
  | nil =>
    have hslice := slice?_append before current []
    rw [List.append_nil] at hslice ⊢
    simp [cut?, hslice]
  | cons byte rest ih =>
    have hmove : before ++ current ++ byte :: rest = before ++ (current ++ [byte]) ++ rest := by
      simp
    rw [List.idxsOf_cons, List.splitOn_cons_eq_if_modifyHead]
    split
    · -- at a dot the current piece is complete, and the next one begins behind the dot
      have hnext := ih (before ++ (current ++ [byte])) []
      have hend : before.length + current.length + 1 =
          (before ++ (current ++ [byte])).length := by
        rw [List.length_append, List.length_append, List.length_singleton, Nat.add_assoc]
      rw [List.append_nil, List.length_nil, Nat.add_zero, ← hend] at hnext
      rw [List.cons_append, cut?, slice?_append, hmove]
      simp only [hnext, List.modifyHead_cons, List.append_nil, Option.map_some]
      congr 2
      exact congrFun List.modifyHead_id _
    · have hnext := ih before (current ++ [byte])
      rw [List.length_append, List.length_singleton, ← Nat.add_assoc] at hnext
      rw [hmove, hnext, List.modifyHead_modifyHead]
      congr 2
      funext piece
      simp

/-- Every slice that is taken of a name lies inside of it, and they are its segments. -/
lemma Name.scan?_eq (name : Name) : name.scan? = some name.segments := by
  have hcut := cut?_idxsOf [] [] name.bytes
  simp only [List.nil_append, List.length_nil, Nat.add_zero] at hcut
  rw [scan?, scanBy?, hcut, Option.map_some, segments]
  congr 2
  exact congrFun List.modifyHead_id _

end StubResolver
