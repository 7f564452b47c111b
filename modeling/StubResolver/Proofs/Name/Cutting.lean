/-
# Cutting a name by its bytes and by its characters

The labels of a name are cut from its characters.  Its segments can be cut without looking at
these, at the positions that a search for the byte of the dot gives (`Name.segmentsBy?`).  How
the search goes about it does not matter, as it can give only one list if it gives every
position, and these in order (`FindsAll.eq`).  So the segments are the bytes of the labels.

Cutting loses a byte with each dot, and for each label a byte is written in front of it and one
behind them all.  Every empty piece makes this one byte less (`Name.size_add_count`), so a name
is written in two bytes more than its text has, unless there are empty pieces.
-/
import Mathlib.Data.List.Count
import Mathlib.Data.List.Sort
import StubResolver.Proofs.Name.Dots
import StubResolver.Proofs.Name.RoundTrip
import StubResolver.Proofs.Name.Scan

namespace StubResolver

/-! ## Searches -/

/-- A search gives every position of a byte, in increasing order. -/
structure FindsAll (find : UInt8 → Bytes → List Nat) : Prop where
  mem_iff (byte : UInt8) (bytes : Bytes) (i : Nat) :
    i ∈ find byte bytes ↔ bytes[i]? = some byte
  pairwise_lt (byte : UInt8) (bytes : Bytes) : (find byte bytes).Pairwise (· < ·)

lemma findsAll_idxsOf : FindsAll fun byte bytes => bytes.idxsOf byte where
  mem_iff byte bytes i := by
    rw [List.mem_idxsOf_iff_exists_getElem_pos, List.getElem?_eq_some_iff]
    simp only [beq_iff_eq]
  pairwise_lt _ _ := List.pairwise_idxsOf

/-- Searches that give every position do not differ. -/
lemma FindsAll.eq {find find' : UInt8 → Bytes → List Nat} (h : FindsAll find)
    (h' : FindsAll find') (byte : UInt8) (bytes : Bytes) : find byte bytes = find' byte bytes := by
  apply List.Pairwise.eq_of_mem_iff (h.pairwise_lt byte bytes) (h'.pairwise_lt byte bytes)
  intro i
  rw [h.mem_iff, h'.mem_iff]

/-! ## Cutting by a search -/

namespace Name

/-- The segments of a name, cut from its bytes where a search finds the dots, and the
terminator. -/
def segmentsBy? (find : UInt8 → Bytes → List Nat) (name : Name) : Option (List Segment) :=
  (name.scanBy? find).map fun labels => labels.map .label ++ [.terminator]

/-- The sizes of the segments, added up to at most the greatest offset. -/
def sizeBy? (find : UInt8 → Bytes → List Nat) (name : Name) : Option Nat :=
  (name.segmentsBy? find).map
    (·.foldl (fun total segment => min (total + size segment) maxOffset) 0)

variable {find : UInt8 → Bytes → List Nat}

/-- Whatever search finds the dots, they are those by which a name is scanned. -/
lemma scanBy?_eq_scan? (hfind : FindsAll find) (name : Name) : name.scanBy? find = name.scan? := by
  rw [scan?, scanBy?, scanBy?, hfind.eq findsAll_idxsOf]

lemma segmentsBy?_eq_segments (hfind : FindsAll find) (name : Name) :
    name.segmentsBy? find = some (name.segments.map .label ++ [.terminator]) := by
  rw [segmentsBy?, scanBy?_eq_scan? hfind, scan?_eq, Option.map_some]

/-- Below its bound a bounded sum is the sum. -/
lemma foldl_min_eq {α : Type} (f : α → Nat) {bound start : Nat} (h : start ≤ bound)
    (values : List α) : values.foldl (fun total value => min (total + f value) bound) start =
      min (start + (values.map f).sum) bound := by
  induction values generalizing start with
  | nil => simpa using h
  | cons value values ih =>
    rw [List.foldl_cons, ih (Nat.min_le_right _ _), List.map_cons, List.sum_cons]
    omega

lemma sum_size_segments (labels : List Bytes) :
    ((labels.map Segment.label ++ [Segment.terminator]).map size).sum = wireLength labels := by
  have hsize : size ∘ Segment.label = fun label => label.length + 1 := by
    funext label
    exact Nat.add_comm _ _
  rw [List.map_append, List.sum_append, List.map_map, hsize, wireLength_eq_sum]
  rfl

lemma sizeBy?_eq (hfind : FindsAll find) (name : Name) :
    name.sizeBy? find = some (min (size name) maxOffset) := by
  rw [sizeBy?, segmentsBy?_eq_segments hfind, Option.map_some, foldl_min_eq size (Nat.zero_le _),
    sum_size_segments, Nat.zero_add]
  rfl

/-! ## The size of a name -/

/-- Each empty piece makes a name one byte shorter. -/
lemma size_add_count (name : Name) :
    size name + (name.text.toList.splitOn '.').count [] = name.bytes.length + 2 := by
  have hcount : (name.bytes.splitOn 0x2E).count [] = (name.text.toList.splitOn '.').count [] := by
    rw [bytes, splitOn_encode]
    exact List.count_map_of_injective _ _ (fun _ _ => Utf8.encode_injective) []
  have hsize : size name = ((pieces name.bytes).map (·.length + 1)).sum + 1 :=
    wireLength_eq_sum name.segments
  have hsum := sum_pieces_add_count name.bytes
  omega

/-- **Cutting the bytes of a name is cutting its characters.**  If a search finds all dots, the
segments that are cut there are the bytes of the labels, one after the other, and then the
terminator.  Each label has bytes, none of which is a dot, and is text on its own.  The size of a
name, which is also what the sizes of its segments add up to unless there are more bytes than
offsets, is one byte for each label besides its own, and one more.  That is two more than the
bytes of the name if it is not empty and has no empty pieces, and less otherwise. -/
theorem segmentsBy_eq_labels (hfind : FindsAll find) (name : Name) :
    name.segmentsBy? find =
      some (name.labels.map (fun label => .label (textBytes label)) ++ [.terminator]) ∧
    (∀ label ∈ name.labels, textBytes label ≠ [] ∧ 0x2E ∉ textBytes label ∧
      Utf8.decode (textBytes label) = .ok label.toList) ∧
    name.sizeBy? find = some (min (size name) maxOffset) ∧
    size name = 1 + (name.labels.map fun label => (textBytes label).length + 1).sum ∧
    size name ≤ name.bytes.length + 2 ∧
    (size name = name.bytes.length + 2 ↔
      name.text ≠ "" ∧ [] ∉ name.text.toList.splitOn '.') := by
  refine ⟨?_, ?_, sizeBy?_eq hfind name, ?_, ?_, ?_⟩
  · rw [segmentsBy?_eq_segments hfind, segments_eq, List.map_map]
    rfl
  · intro label hlabel
    have hsegment : textBytes label ∈ name.segments := by
      rw [segments_eq]
      exact List.mem_map_of_mem hlabel
    obtain ⟨hsplit, hne⟩ := List.mem_filter.1 hsegment
    exact ⟨by simpa using hne, not_mem_of_mem_splitOn hsplit, Utf8.decode_encode _⟩
  · show wireLength name.segments = _
    rw [wireLength_eq_sum, segments_eq, List.map_map, Nat.add_comm]
    rfl
  · have hcount := name.size_add_count
    omega
  · have hcount := name.size_add_count
    rw [← List.count_eq_zero]
    constructor
    · intro hsize
      have hnone : (name.text.toList.splitOn '.').count [] = 0 := by omega
      refine ⟨?_, hnone⟩
      -- the empty text is one empty piece
      intro hempty
      rw [hempty] at hnone
      exact absurd hnone (by decide)
    · rintro ⟨-, hnone⟩
      omega

/-- The case of a name with a character of two bytes and with dots at its start and its end. -/
theorem segmentsBy_eq_labels_dots :
    let find : UInt8 → Bytes → List Nat := fun byte bytes => bytes.idxsOf byte
    let name : Name := ⟨".é..ab."⟩
    FindsAll find ∧ find 0x2E name.bytes = [0, 3, 4, 7] ∧
      name.segmentsBy? find = some [.label [0xC3, 0xA9], .label [0x61, 0x62], .terminator] ∧
      name.sizeBy? find = some 7 ∧ size name ≠ name.bytes.length + 2 := by
  intro find name
  obtain ⟨hsegments, -, hsize, -, -, hiff⟩ := segmentsBy_eq_labels findsAll_idxsOf name
  have hlabels : name.labels = ["é", "ab"] := by decide
  have hseven : min (size name) maxOffset = 7 := by decide
  rw [hlabels] at hsegments
  rw [hseven] at hsize
  refine ⟨findsAll_idxsOf, by decide, hsegments, hsize, ?_⟩
  rw [Ne, hiff]
  decide

end Name

end StubResolver
