/-
# Names written without pointers

A name that was read can be written, and then it stands there without pointers.  Its labels,
put one after the other in their wire form, would be read as the same name
(`decode_wireForm`), but these are not always the bytes that are written: a label with dots is
written as the pieces between them.  So what is written is the wire form of the pieces, which is
never longer, and it is the wire form of the labels exactly if none of them has a dot
(`encode_of_decode`).
-/
import StubResolver.Proofs.Name.Dots

namespace StubResolver

/-- A name spells one sequence of labels. -/
lemma Spells.spellsLabels_iff {message : Bytes} {offset hops finish : Nat}
    {labels other : List Bytes} (h : Spells message offset labels hops finish) :
    SpellsLabels message offset other ↔ other = labels := by
  constructor
  · rintro ⟨hops', finish', h'⟩
    exact h'.unique h
  · rintro rfl
    exact ⟨hops, finish, h⟩

namespace Name

/-- Labels are told from their wire form. -/
lemma wireForm_injective {labels others : List Bytes} (hlabels : ∀ label ∈ labels, IsLabel label)
    (hothers : ∀ label ∈ others, IsLabel label) (h : wireForm labels = wireForm others) :
    labels = others := by
  have hspells : Spells (wireForm labels) 0 labels 0 (0 + wireLength labels) :=
    spells_of_holds hlabels List.prefix_rfl
  have hspells' : Spells (wireForm others) 0 others 0 (0 + wireLength others) :=
    spells_of_holds hothers List.prefix_rfl
  rw [h] at hspells
  exact hspells.unique hspells'

/-- The labels of a name that was read are those of the same name without its pointers. -/
lemma decode_wireForm {message : Bytes} {start finish hops finish' : Nat} {name : Name}
    {labels : List Bytes} (h : decode message start = .ok (name, finish))
    (hspells : Spells message start labels hops finish') :
    decode (wireForm labels) 0 = .ok (name, (wireForm labels).length) := by
  obtain ⟨texts, count, rfl, hread, hlength, -⟩ := spells_of_decode h
  obtain rfl := hread.unique hspells
  have hflat : Spells (wireForm (texts.map textBytes)) 0 (texts.map textBytes) 0
      (0 + wireLength (texts.map textBytes)) :=
    spells_of_holds hspells.isLabel List.prefix_rfl
  rw [Nat.zero_add] at hflat
  rw [length_wireForm]
  exact decode_of_spells hflat hlength (Nat.zero_le _)

/-- **A name that was read is written as the pieces of its labels**, the labels being cut at
their dots, and so in no more bytes than the labels themselves would take.  These are read as the
same name, and they are what is written exactly if they have no dots. -/
theorem encode_of_decode (message : Bytes) (start : Nat) (name : Name) (finish : Nat)
    (h : decode message start = .ok (name, finish)) :
    ∃ labels, (∀ other, SpellsLabels message start other ↔ other = labels) ∧
      encode name = .ok (wireForm (labels.flatMap pieces)) ∧
      (wireForm (labels.flatMap pieces)).length ≤ (wireForm labels).length ∧
      (encode name = .ok (wireForm labels) ↔ ∀ label ∈ labels, 0x2E ∉ label) ∧
      decode (wireForm labels) 0 = .ok (name, (wireForm labels).length) := by
  obtain ⟨labels, hops, hspells, -, hsegments⟩ := segments_of_decode h
  have hlimits := withinLimits_of_decode h
  have hwritten : encode name = .ok (wireForm (labels.flatMap pieces)) :=
    encode_eq_ok_iff.2 ⟨hlimits, by rw [hsegments]⟩
  have hpieces : ∀ piece ∈ labels.flatMap pieces, IsLabel piece := by
    rw [← hsegments]
    exact hlimits.isLabel
  have hne : ∀ label ∈ labels, label ≠ [] :=
    fun label hlabel => (hspells.isLabel label hlabel).ne_nil
  refine ⟨labels, fun _ => hspells.spellsLabels_iff, hwritten, ?_, ?_, decode_wireForm h hspells⟩
  · rw [length_wireForm, length_wireForm]
    exact wireLength_flatMap_pieces_le labels
  · rw [← flatMap_pieces_eq_self_iff hne, hwritten, Except.ok.injEq]
    exact ⟨wireForm_injective hpieces hspells.isLabel, congrArg wireForm⟩

/-- The case of a label with dots at both ends, in front of a pointer. -/
theorem encode_of_decode_dots :
    decode [1, 98, 0, 3, 46, 97, 46, 192, 0] 3 = .ok (⟨".a..b"⟩, 9) ∧
      encode (⟨".a..b"⟩ : Name) = .ok [1, 97, 1, 98, 0] ∧
      decode [3, 46, 97, 46, 1, 98, 0] 0 = .ok (⟨".a..b"⟩, 7) := by
  have hread : decode [1, 98, 0, 3, 46, 97, 46, 192, 0] 3 = .ok (⟨".a..b"⟩, 9) := by
    decide +kernel
  obtain ⟨labels, hlabels, hwritten, -, -, hflat⟩ := encode_of_decode _ 3 ⟨".a..b"⟩ 9 hread
  have htarget : Spells [1, 98, 0, 3, 46, 97, 46, 192, 0] (0 : UInt16).toNat [[98]] 0 3 :=
    spells_of_holds (by simp [IsLabel, maxLabelLength]) (List.prefix_append _ _)
  have hpointer : Holds [1, 98, 0, 3, 46, 97, 46, 192, 0] 3
      ([[46, 97, 46]].flatMap Segment.labelBytes ++ Segment.pointerBytes 0) := List.prefix_rfl
  have hspells : SpellsLabels [1, 98, 0, 3, 46, 97, 46, 192, 0] 3 [[46, 97, 46], [98]] :=
    ⟨_, _, spells_compressed (by simp [IsLabel, maxLabelLength]) hpointer (by decide) (by decide)
      htarget⟩
  obtain rfl := (hlabels _).1 hspells
  exact ⟨hread, hwritten, hflat⟩

end Name

end StubResolver
