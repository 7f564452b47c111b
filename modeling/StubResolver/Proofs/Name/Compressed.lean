/-
# Compressed names

A compressed name ends in a pointer to where its other labels already stand.  The pointer
may lead into the middle of a name, as long as it leads to the beginning of a label or to the
terminator: from there on the rest of the name is spelled (`spells_suffix`), and labels in
front of the pointer are spelled before it (`spells_compressed`).  For a name that was
written both together are `spells_into`.

The limits are on what the name spells and not on the bytes it takes up.  A name that is
spelled but goes over one of them is refused for that (`decode_overLimits`).
-/
import StubResolver.Proofs.Name.WireForm

namespace StubResolver.Name

variable {message : Bytes} {offset : Nat}

/-! ## Pointers -/

/-- The offset, within the wire form of labels, at which those behind the first `count`
begin. -/
def boundary (labels : List Bytes) (count : Nat) : Nat :=
  ((labels.take count).flatMap Segment.labelBytes).length

lemma boundary_lt (labels : List Bytes) (count : Nat) :
    boundary labels count < wireLength labels := by
  have hsplit : labels.take count ++ labels.drop count = labels := List.take_append_drop _ _
  have hlength := length_flatMap_labelBytes labels
  rw [← hsplit, List.flatMap_append, List.length_append, hsplit] at hlength
  rw [boundary]
  omega

/-- The wire form of a pointer is read as one where its target has fourteen bits. -/
lemma segmentAt_of_holds_pointer {target : UInt16} (htarget : target.toNat < 2 ^ 14)
    (hat : Holds message offset (Segment.pointerBytes target)) :
    SegmentAt message offset (.pointer target) (offset + 2) := by
  obtain ⟨hhigh, hlow⟩ := holds_cons.1 hat
  rw [holds_singleton] at hlow
  have hbyte : target.toNat / 256 < 64 := by omega
  -- the two top bits stand over those of the target
  have hor : (UInt8.ofNat (target.toNat / 256) ||| 0xC0).toNat = target.toNat / 256 + 192 := by
    rw [UInt8.toNat_or, Utf8.toNat_byteOfNat (by omega), show (0xC0 : UInt8).toNat = 192 from rfl]
    generalize target.toNat / 256 = n at hbyte
    decide +revert
  have hseg := SegmentAt.pointer hhigh (by omega) hlow
  have htarget' : UInt16.ofNat ((UInt8.ofNat (target.toNat / 256) ||| 0xC0).toNat % 64 * 256 +
      (UInt8.ofNat target.toNat).toNat) = target := by
    apply UInt16.toNat_inj.1
    rw [hor, UInt8.toNat_ofNat', UInt16.toNat_ofNat']
    omega
  rwa [htarget'] at hseg

/-- From the beginning of any of its labels on, a name spells its labels from there. -/
lemma spells_suffix {labels : List Bytes} (count : Nat)
    (hlabels : ∀ label ∈ labels, IsLabel label)
    (hat : Holds message offset (wireForm labels)) :
    ∃ finish, Spells message (offset + boundary labels count) (labels.drop count) 0 finish := by
  have hsplit : wireForm labels =
      (labels.take count).flatMap Segment.labelBytes ++ wireForm (labels.drop count) := by
    rw [wireForm, wireForm, ← List.append_assoc, ← List.flatMap_append, List.take_append_drop]
  rw [hsplit, holds_append] at hat
  have hrest : ∀ label ∈ labels.drop count, IsLabel label :=
    fun label hlabel => hlabels label (List.mem_of_mem_drop hlabel)
  exact ⟨_, spells_of_holds hrest hat.2⟩

/-- Labels and a pointer spell the labels and what is spelled where the pointer leads. -/
lemma spells_compressed {labels others : List Bytes} {target : UInt16} {hops finish : Nat}
    (hlabels : ∀ label ∈ labels, IsLabel label)
    (hat : Holds message offset (labels.flatMap Segment.labelBytes ++ Segment.pointerBytes target))
    (htarget : target.toNat < 2 ^ 14) (hback : target.toNat < offset)
    (h : Spells message target.toNat others hops finish) :
    Spells message offset (labels ++ others) (hops + 1)
      (offset + (labels.flatMap Segment.labelBytes).length + 2) := by
  obtain ⟨hlabelsAt, hpointerAt⟩ := holds_append.1 hat
  exact spells_append hlabels hlabelsAt
    (.pointer (segmentAt_of_holds_pointer htarget hpointerAt) (by omega) h)

/-- Labels and a pointer into a name that was written spell the labels and those of the name
from there on. -/
lemma spells_into {name : Name} {texts : List String} {target : UInt16} {start count : Nat}
    (hlimits : name.WithinLimits) (hname : Holds message start (wireForm name.segments))
    (htexts : ∀ text ∈ texts, IsLabel (textBytes text))
    (hat : Holds message offset
      ((texts.map textBytes).flatMap Segment.labelBytes ++ Segment.pointerBytes target))
    (htarget : target.toNat = start + boundary name.segments count)
    (hbits : target.toNat < 2 ^ 14) (hback : target.toNat < offset) :
    Spells message offset ((texts ++ name.labels.drop count).map textBytes) 1
      (offset + ((texts.map textBytes).flatMap Segment.labelBytes).length + 2) := by
  obtain ⟨finish, hsuffix⟩ := spells_suffix count hlimits.isLabel hname
  rw [← htarget] at hsuffix
  have hlabels : ∀ label ∈ texts.map textBytes, IsLabel label := by
    intro label hlabel
    obtain ⟨text, htext, rfl⟩ := List.mem_map.1 hlabel
    exact htexts text htext
  have hspells := spells_compressed hlabels hat hbits hback hsuffix
  rwa [segments_eq, ← List.map_drop, ← List.map_append] at hspells

/-- A pointer to a name that was written stands for that name. -/
lemma decode_pointer {name : Name} (target : UInt16) (hlimits : name.WithinLimits)
    (hname : Holds message target.toNat (wireForm name.segments))
    (hat : Holds message offset (Segment.pointerBytes target))
    (hbits : target.toNat < 2 ^ 14) (hback : target.toNat < offset) :
    decode message offset = .ok (name.normal, offset + 2) := by
  have hspells : Spells message offset (([] ++ name.labels.drop 0).map textBytes) 1 (offset + 2) :=
    spells_into hlimits hname (by simp) hat rfl hbits hback
  rw [List.nil_append, List.drop_zero] at hspells
  have hlength := hlimits.2
  rw [segments_eq] at hlength
  exact decode_of_spells hspells hlength (by decide)

/-! ## Names beyond the limits -/

/-- What is spelled but goes over a limit is refused for a limit that it goes over. -/
lemma labelsFrom_overLimits {message : Message} {used hops count finish : Nat}
    {texts : List String} (h : Spells message.toList offset (texts.map textBytes) count finish)
    (hused : used < maxNameLength) (hhops : hops ≤ maxPointerHops)
    (hover : maxNameLength < used + wireLength (texts.map textBytes) ∨
      maxPointerHops < hops + count) :
    ∃ place flaw, labelsFrom message used hops offset = .error (.malformedName place flaw) ∧
      (flaw = .tooLong ∧ maxNameLength < used + wireLength (texts.map textBytes) ∨
        flaw = .tooManyPointers ∧ maxPointerHops < hops + count) := by
  generalize hlabels : texts.map textBytes = labels at h hover ⊢
  -- the first segment that is beyond a limit is refused; the induction passes those before it
  induction h generalizing used hops texts with
  | terminator =>
    -- what is used up leaves room for the terminator
    rw [wireLength_nil] at hover
    omega
  | @label start next count finish _ _ hseg _ ih =>
    obtain ⟨text, others, rfl, rfl, rfl⟩ := List.map_eq_cons_iff.1 hlabels
    rw [wireLength_cons, ← Nat.add_assoc] at hover ⊢
    by_cases hroom : used + ((textBytes text).length + 1) + 1 ≤ maxNameLength
    · obtain ⟨place, flaw, hplace, hflaw⟩ := ih (by omega) hhops rfl hover
      refine ⟨place, flaw, ?_, hflaw⟩
      rw [labelsFrom_label hseg hroom, hplace]
      rfl
    · have hpos := one_le_wireLength (others.map textBytes)
      refine ⟨start, .tooLong, ?_, .inl ⟨rfl, by omega⟩⟩
      rw [labelsFrom, Segment.read_of_segmentAt hseg]
      simp only [dif_pos (Nat.not_le.1 hroom)]
  | @pointer start _ count finish target _ hseg hback _ ih =>
    by_cases hroom : hops + 1 ≤ maxPointerHops
    · rw [← Nat.add_assoc, Nat.add_right_comm] at hover ⊢
      obtain ⟨place, flaw, hplace, hflaw⟩ := ih hused hroom hlabels hover
      refine ⟨place, flaw, ?_, hflaw⟩
      rw [labelsFrom_pointer hseg hback hroom, hplace]
      rfl
    · refine ⟨start, .tooManyPointers, ?_, .inr ⟨rfl, by omega⟩⟩
      rw [labelsFrom, Segment.read_of_segmentAt hseg]
      simp only [if_neg (Nat.not_le.2 hback), dif_pos (Nat.not_le.1 hroom)]

lemma decode_overLimits {texts : List String} {hops finish : Nat}
    (h : Spells message offset (texts.map textBytes) hops finish)
    (hover : maxNameLength < wireLength (texts.map textBytes) ∨ maxPointerHops < hops) :
    ∃ place flaw, decode message offset = .error (.malformedName place flaw) ∧
      (flaw = .tooLong ∧ maxNameLength < wireLength (texts.map textBytes) ∨
        flaw = .tooManyPointers ∧ maxPointerHops < hops) := by
  have hover' : maxNameLength < 0 + wireLength (texts.map textBytes) ∨
      maxPointerHops < 0 + hops := by rwa [Nat.zero_add, Nat.zero_add]
  obtain ⟨place, flaw, hplace, hflaw⟩ : ∃ place flaw,
      labelsFrom message.toArray 0 0 offset = .error (.malformedName place flaw) ∧ _ :=
    labelsFrom_overLimits h (by decide) (by decide) hover'
  rw [Nat.zero_add, Nat.zero_add] at hflaw
  refine ⟨place, flaw, ?_, hflaw⟩
  rw [decode, Reader.run, Name.read, hplace]

/-- A name that is spelled is refused if it is too long. -/
lemma decode_tooLong {texts : List String} {hops finish : Nat}
    (h : Spells message offset (texts.map textBytes) hops finish)
    (hlength : maxNameLength < wireLength (texts.map textBytes)) (hhops : hops ≤ maxPointerHops) :
    ∃ place, decode message offset = .error (.malformedName place .tooLong) := by
  obtain ⟨place, flaw, hplace, ⟨rfl, -⟩ | ⟨-, hover⟩⟩ := decode_overLimits h (.inl hlength)
  · exact ⟨place, hplace⟩
  · omega

end StubResolver.Name
