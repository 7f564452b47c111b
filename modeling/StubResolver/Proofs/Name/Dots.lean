/-
# Dots within labels

A label in a message may be any text, and so it may have dots, but in the text of a name a dot
always stands between two labels.  Reading a name therefore cuts its labels at their dots: the
labels of the name are the pieces of those in the message (`segments_of_decode`).  No others are
lost or changed, so names whose labels have no dots keep them (`labels_decode`), and one label
that has a dot becomes two (`labels_decode_dot`).

Cutting makes a name no longer.  Whatever was read can be written, with its own labels in place
of those that were read (`withinLimits_of_decode`).
-/
import Mathlib.Algebra.Order.BigOperators.Group.List
import StubResolver.Proofs.Name.Compressed
import StubResolver.Proofs.Name.Reach

namespace StubResolver

/-! ## What is spelled -/

lemma SegmentAt.isLabel {message label : Bytes} {offset next : Nat}
    (h : SegmentAt message offset (.label label) next) : Name.IsLabel label :=
  h.fits

namespace Spells

variable {message : Bytes} {offset hops finish : Nat} {labels : List Bytes}

/-- A name spells its labels and nothing else. -/
lemma unique {hops' finish' : Nat} {labels' : List Bytes}
    (h : Spells message offset labels hops finish)
    (h' : Spells message offset labels' hops' finish') : labels = labels' := by
  induction h generalizing labels' hops' finish' with
  | terminator hseg =>
    cases h' with
    | terminator => rfl
    | label hseg' | pointer hseg' => exact absurd (hseg.unique hseg').1 nofun
  | label hseg _ ih =>
    cases h' with
    | label hseg' hrest' =>
      obtain ⟨hlabel, rfl⟩ := hseg.unique hseg'
      obtain rfl := Segment.label.inj hlabel
      rw [ih hrest']
    | terminator hseg' | pointer hseg' => exact absurd (hseg.unique hseg').1 nofun
  | pointer hseg _ _ ih =>
    cases h' with
    | pointer hseg' _ hrest' =>
      obtain ⟨htarget, -⟩ := hseg.unique hseg'
      obtain rfl := Segment.pointer.inj htarget
      exact ih hrest'
    | terminator hseg' | label hseg' => exact absurd (hseg.unique hseg').1 nofun

/-- The labels of a message have from 1 to 63 bytes. -/
lemma isLabel (h : Spells message offset labels hops finish) :
    ∀ label ∈ labels, Name.IsLabel label := by
  induction h with
  | terminator => simp
  | label hseg _ ih => exact List.forall_mem_cons.2 ⟨hseg.isLabel, ih⟩
  | pointer _ _ _ ih => exact ih

end Spells

/-- The labels are those that the name at an offset spells. -/
def SpellsLabels (message : Bytes) (offset : Nat) (labels : List Bytes) : Prop :=
  ∃ hops finish, Spells message offset labels hops finish

namespace Name

/-! ## The pieces of a label -/

/-- The pieces of a label between its dots, but for empty ones. -/
def pieces (label : Bytes) : List Bytes :=
  (label.splitOn 0x2E).filter (!·.isEmpty)

lemma splitOn_intercalate_eq_flatMap {α : Type} [BEq α] [LawfulBEq α] (separator : α)
    {parts : List (List α)} (hne : parts ≠ []) :
    ([separator].intercalate parts).splitOn separator = parts.flatMap (·.splitOn separator) := by
  induction parts with
  | nil => exact absurd rfl hne
  | cons part parts ih =>
    cases parts with
    | nil => simp
    | cons next parts =>
      rw [List.intercalate_cons_cons, List.append_assoc, List.singleton_append,
        List.splitOn_append_cons_self, ih (by simp)]
      simp only [List.flatMap_cons]

/-- Joining labels makes the dots between them like those within them. -/
lemma pieces_intercalate (labels : List Bytes) :
    pieces ([0x2E].intercalate labels) = labels.flatMap pieces := by
  by_cases hnil : labels = []
  · rw [hnil]
    rfl
  · rw [pieces, splitOn_intercalate_eq_flatMap _ hnil, List.filter_flatMap]
    rfl

lemma pieces_eq_singleton {label : Bytes} (hne : label ≠ []) (hdot : 0x2E ∉ label) :
    pieces label = [label] := by
  rw [pieces, List.splitOn_eq_singleton hdot]
  simpa using hne

lemma dot_not_mem_of_mem_pieces {label piece : Bytes} (h : piece ∈ pieces label) :
    0x2E ∉ piece :=
  not_mem_of_mem_splitOn (List.mem_filter.1 h).1

/-- Labels are their own pieces if none of them has a dot. -/
lemma flatMap_pieces_eq_self_iff {labels : List Bytes} (hne : ∀ label ∈ labels, label ≠ []) :
    labels.flatMap pieces = labels ↔ ∀ label ∈ labels, 0x2E ∉ label := by
  constructor
  · intro h label hlabel
    rw [← h] at hlabel
    obtain ⟨whole, -, hpiece⟩ := List.mem_flatMap.1 hlabel
    exact dot_not_mem_of_mem_pieces hpiece
  · intro hdots
    induction labels with
    | nil => rfl
    | cons label labels ih =>
      rw [List.forall_mem_cons] at hne hdots
      rw [List.flatMap_cons, pieces_eq_singleton hne.1 hdots.1, ih hne.2 hdots.2]
      rfl

/-! ## Names that were read -/

/-- A name that is read has the pieces of the labels in the message for its own. -/
lemma segments_of_decode {message : Bytes} {start finish : Nat} {name : Name}
    (h : decode message start = .ok (name, finish)) :
    ∃ labels hops, Spells message start labels hops finish ∧
      wireLength labels ≤ maxNameLength ∧ name.segments = labels.flatMap pieces := by
  obtain ⟨texts, hops, rfl, hspells, hlength, -⟩ := spells_of_decode h
  refine ⟨_, hops, hspells, hlength, ?_⟩
  rw [← pieces_intercalate, ← bytes_ofLabels]
  rfl

/-- **A name keeps the labels that have no dots.**  The name that is read at an offset spells one
sequence of labels there, and has the pieces of these labels between their dots for its own, so
they are the same exactly if there are no dots in them.  Names that spell different labels without
dots are different, wherever they are read. -/
theorem labels_decode (message : Bytes) (start : Nat) (name : Name) (finish : Nat)
    (h : decode message start = .ok (name, finish)) :
    ∃ labels, (∀ other, SpellsLabels message start other ↔ other = labels) ∧
      name.labels.map textBytes = labels.flatMap pieces ∧
      (name.labels.map textBytes = labels ↔ ∀ label ∈ labels, 0x2E ∉ label) ∧
      ((∀ label ∈ labels, 0x2E ∉ label) →
        ∀ message' start' finish' labels', decode message' start' = .ok (name, finish') →
          SpellsLabels message' start' labels' → (∀ label ∈ labels', 0x2E ∉ label) →
          labels' = labels) := by
  obtain ⟨labels, hops, hspells, -, hsegments⟩ := segments_of_decode h
  have hne {message : Bytes} {start hops finish : Nat} {labels : List Bytes}
      (hspells : Spells message start labels hops finish) : ∀ label ∈ labels, label ≠ [] :=
    fun label hlabel => List.length_pos_iff.1 (hspells.isLabel label hlabel).1
  refine ⟨labels, ?_, ?_, ?_, ?_⟩
  · intro other
    constructor
    · rintro ⟨hops', finish', hspells'⟩
      exact hspells'.unique hspells
    · rintro rfl
      exact ⟨hops, finish, hspells⟩
  · rw [← segments_eq, hsegments]
  · rw [← segments_eq, hsegments]
    exact flatMap_pieces_eq_self_iff (hne hspells)
  · rintro hdots message' start' finish' labels' h' ⟨hops', end', hspells'⟩ hdots'
    -- both are the labels of the name
    obtain ⟨again, hops'', hagain, -, hsegments'⟩ := segments_of_decode h'
    obtain rfl := hagain.unique hspells'
    rw [hsegments, (flatMap_pieces_eq_self_iff (hne hspells)).2 hdots,
      (flatMap_pieces_eq_self_iff (hne hspells')).2 hdots'] at hsegments'
    exact hsegments'.symm

/-- The case of a name that ends in a pointer to another one. -/
theorem labels_decode_pointer :
    decode [3, 99, 111, 109, 0, 1, 97, 192, 0] 5 = .ok (⟨"a.com"⟩, 9) ∧
      SpellsLabels [3, 99, 111, 109, 0, 1, 97, 192, 0] 5 [[97], [99, 111, 109]] ∧
      (⟨"a.com"⟩ : Name).labels.map textBytes = [[97], [99, 111, 109]] := by
  have hread : decode [3, 99, 111, 109, 0, 1, 97, 192, 0] 5 = .ok (⟨"a.com"⟩, 9) := by
    decide +kernel
  obtain ⟨labels, hlabels, -, hkept, -⟩ := labels_decode _ 5 ⟨"a.com"⟩ 9 hread
  have htarget : Spells [3, 99, 111, 109, 0, 1, 97, 192, 0] (0 : UInt16).toNat [[99, 111, 109]]
      0 5 :=
    spells_of_holds (by simp [IsLabel, maxLabelLength]) (List.prefix_append _ _)
  have hpointer : Holds [3, 99, 111, 109, 0, 1, 97, 192, 0] 5
      ([[97]].flatMap Segment.labelBytes ++ Segment.pointerBytes 0) := List.prefix_rfl
  have hspells : SpellsLabels [3, 99, 111, 109, 0, 1, 97, 192, 0] 5 [[97], [99, 111, 109]] :=
    ⟨_, _, spells_compressed (by simp [IsLabel, maxLabelLength]) hpointer (by decide) (by decide)
      htarget⟩
  obtain rfl := (hlabels _).1 hspells
  exact ⟨hread, hspells, hkept.2 (by decide)⟩

/-- A label with a dot is not kept, and cannot be told from two labels. -/
theorem labels_decode_dot :
    (¬∀ (message : Bytes) (start : Nat) (name : Name) (finish : Nat) (labels : List Bytes),
      decode message start = .ok (name, finish) → SpellsLabels message start labels →
      name.labels.map textBytes = labels) ∧
    ¬∀ (message message' : Bytes) (start start' finish finish' : Nat) (name : Name)
      (labels labels' : List Bytes), decode message start = .ok (name, finish) →
      decode message' start' = .ok (name, finish') → SpellsLabels message start labels →
      SpellsLabels message' start' labels' → labels = labels' := by
  have hread : decode [3, 97, 46, 98, 0] 0 = .ok (⟨"a.b"⟩, 5) := by decide +kernel
  have hread' : decode [1, 97, 1, 98, 0] 0 = .ok (⟨"a.b"⟩, 5) := by decide +kernel
  have hspells : SpellsLabels [3, 97, 46, 98, 0] 0 [[97, 46, 98]] :=
    ⟨_, _, spells_of_holds (by simp [IsLabel, maxLabelLength]) List.prefix_rfl⟩
  have hspells' : SpellsLabels [1, 97, 1, 98, 0] 0 [[97], [98]] :=
    ⟨_, _, spells_of_holds (by simp [IsLabel, maxLabelLength]) List.prefix_rfl⟩
  refine ⟨fun hall => ?_, fun hall => ?_⟩
  · exact absurd (hall _ _ _ _ _ hread hspells) (by decide)
  · exact absurd (hall _ _ _ _ _ _ _ _ _ hread hread' hspells hspells') (by decide)

/-! ## Names that can be written -/

/-- Cutting a label leaves all of its bytes but the dots. -/
lemma sum_splitOn {α : Type} [BEq α] [LawfulBEq α] (separator : α) (label : List α) :
    ((label.splitOn separator).map (·.length + 1)).sum = label.length + 1 := by
  induction label with
  | nil => simp
  | cons head tail ih =>
    rw [List.splitOn_cons_eq_if_modifyHead]
    split
    · simp [ih, Nat.add_comm]
    · obtain ⟨first, others, hsplit⟩ :=
        List.exists_cons_of_ne_nil (List.splitOn_ne_nil separator tail)
      rw [hsplit, List.map_cons, List.sum_cons] at ih
      rw [hsplit, List.modifyHead_cons, List.map_cons, List.sum_cons, List.length_cons,
        List.length_cons]
      omega

/-- Each empty piece that is left out takes one from the sum. -/
lemma sum_filter_add_count (parts : List Bytes) :
    ((parts.filter (!·.isEmpty)).map (·.length + 1)).sum + parts.count [] =
      (parts.map (·.length + 1)).sum := by
  induction parts with
  | nil => rfl
  | cons part parts ih =>
    cases part with
    | nil => simpa [← Nat.add_assoc, Nat.add_comm 1] using ih
    | cons byte part =>
      simp only [List.filter_cons, List.isEmpty_cons, Bool.not_false, if_true, List.map_cons,
        List.sum_cons, List.count_cons, beq_iff_eq, reduceCtorEq, if_false]
      omega

lemma sum_pieces_add_count (label : Bytes) :
    ((pieces label).map (·.length + 1)).sum + (label.splitOn 0x2E).count [] = label.length + 1 := by
  rw [pieces, sum_filter_add_count, sum_splitOn]

lemma sum_pieces_le (label : Bytes) :
    ((pieces label).map (·.length + 1)).sum ≤ label.length + 1 :=
  Nat.le.intro (sum_pieces_add_count label)

lemma length_le_of_mem_pieces {label piece : Bytes} (h : piece ∈ pieces label) :
    piece.length ≤ label.length := by
  have hle : piece.length + 1 ≤ ((pieces label).map (·.length + 1)).sum :=
    List.single_le_sum (by simp) _ (List.mem_map_of_mem h)
  have hsum := sum_pieces_le label
  omega

lemma wireLength_flatMap_pieces_le (labels : List Bytes) :
    wireLength (labels.flatMap pieces) ≤ wireLength labels := by
  rw [wireLength_eq_sum, wireLength_eq_sum]
  induction labels with
  | nil => simp
  | cons label labels ih =>
    have hlabel := sum_pieces_le label
    rw [List.flatMap_cons, List.map_append, List.sum_append, List.map_cons, List.sum_cons]
    omega

/-- A name that was read can be written. -/
lemma withinLimits_of_decode {message : Bytes} {start finish : Nat} {name : Name}
    (h : decode message start = .ok (name, finish)) : name.WithinLimits := by
  obtain ⟨labels, hops, hspells, hlength, hsegments⟩ := segments_of_decode h
  rw [WithinLimits, hsegments]
  refine ⟨?_, Nat.le_trans (wireLength_flatMap_pieces_le labels) hlength⟩
  intro piece hpiece
  obtain ⟨label, hlabel, hmem⟩ := List.mem_flatMap.1 hpiece
  exact Nat.le_trans (length_le_of_mem_pieces hmem) (hspells.isLabel label hlabel).2

end Name

end StubResolver
