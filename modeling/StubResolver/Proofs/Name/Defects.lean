/-
# The first thing that is wrong with a name

A name is read along a walk from segment to segment.  `ComesTo message start labels hops place`
says that such a walk leads over the given labels and so many pointers, each of which points
back, from `start` to `place`; where it goes on from there is left open.  `Defect` lists what can
be wrong at a place, given how much of the limits was used up on the way there: no segment stands
there (`SegmentFlaw`), or one that a name may not go on with.

A name is refused exactly if a walk within the limits, over labels that are text, comes to a
defect, and then for this defect and at its place (`decode_eq_error_iff`).  Since a name is
refused in one way at most, each walk to a defect names the same one, and what stands behind it
does not matter.
-/
import StubResolver.Proofs.Name.Grammar

namespace StubResolver

variable {message : Bytes} {offset : Nat}

/-! ## Labels that are not text -/

/-- Bytes have a flaw just if they are not those of a text. -/
lemma Utf8.exists_flaw_iff {bytes : Bytes} :
    (∃ flaw, Utf8.decode bytes = .error flaw) ↔ ¬Utf8.Valid bytes := by
  simp only [Valid, ← decode_eq_ok_iff]
  rcases decode bytes with flaw | text
  · exact iff_of_true ⟨flaw, rfl⟩ (by simp)
  · exact iff_of_false (by simp) (not_not_intro ⟨text, rfl⟩)

/-! ## Segments that are not there -/

/-- No segment stands at an offset: the message has no byte there, or one that begins no segment,
or it ends within the label or the pointer that begins there. -/
inductive SegmentFlaw (message : Bytes) (offset : Nat) : NameFlaw → Prop
  | missing : message.length ≤ offset → SegmentFlaw message offset .outOfBounds
  | label {length : UInt8} : message[offset]? = some length →
      1 ≤ length.toNat → length.toNat ≤ 63 → message.length < offset + 1 + length.toNat →
      SegmentFlaw message offset .outOfBounds
  | reserved {byte : UInt8} : message[offset]? = some byte →
      64 ≤ byte.toNat → byte.toNat < 192 → SegmentFlaw message offset (.reservedLabelType byte)
  | pointer {high : UInt8} : message[offset]? = some high → 192 ≤ high.toNat →
      message.length < offset + 2 → SegmentFlaw message offset .outOfBounds

/-- Reading a segment is refused for the flaw that there is. -/
lemma Segment.read_eq_error_iff {message : Message} {error : WireError} :
    Segment.read message offset = .error error ↔
      ∃ flaw, error = .malformedName offset flaw ∧ SegmentFlaw message.toList offset flaw := by
  simp only [Segment.read, ← Array.getElem?_toList, UInt8.lt_iff_toNat_lt, UInt8.reduceToNat]
  constructor
  · intro h
    split at h
    · cases h
      exact ⟨_, rfl, .missing (List.getElem?_eq_none_iff.1 ‹_›)⟩
    · rename_i first hfirst
      split at h
      · cases h
      · have hpos : first.toNat ≠ 0 := fun h0 => ‹¬first = 0› (UInt8.toNat_inj.1 h0)
        split at h
        · split at h
          · cases h
          · rename_i hend
            cases h
            exact ⟨_, rfl, .label hfirst (by omega) (by omega) (by simpa using hend)⟩
        · split at h
          · cases h
            exact ⟨_, rfl, .reserved hfirst (by omega) ‹_›⟩
          · split at h
            · rename_i hnone
              cases h
              have hle := List.getElem?_eq_none_iff.1 hnone
              exact ⟨_, rfl, .pointer hfirst (by omega) (by omega)⟩
            · cases h
  · rintro ⟨flaw, rfl, hflaw⟩
    cases hflaw with
    | missing hle =>
      rw [List.getElem?_eq_none_iff.2 hle]
    | @label length hlength hpos hle hend =>
      have hne : length ≠ 0 := fun h0 => by simp [h0] at hpos
      rw [Array.length_toList] at hend
      simp only [hlength]
      rw [if_neg hne, if_pos (by omega), if_neg (by omega)]
    | @reserved byte hbyte hge hlt =>
      have hne : byte ≠ 0 := fun h0 => by simp [h0] at hge
      simp only [hbyte]
      rw [if_neg hne, if_neg (by omega), if_pos hlt]
    | @pointer high hhigh hge hend =>
      have hne : high ≠ 0 := fun h0 => by simp [h0] at hge
      have hnone : message.toList[offset + 1]? = none :=
        List.getElem?_eq_none_iff.2 (by omega)
      simp only [hhigh, hnone]
      rw [if_neg hne, if_neg (by omega), if_neg (by omega)]

/-! ## Walks and defects -/

/-- The name at an offset begins with the given labels and passes the given number of pointers,
each of which points back, and this leads to `place`. -/
inductive ComesTo (message : Bytes) : Nat → List Bytes → Nat → Nat → Prop
  | here {offset : Nat} : ComesTo message offset [] 0 offset
  | label {offset next hops place : Nat} {label : Bytes} {labels : List Bytes} :
      SegmentAt message offset (.label label) next →
      ComesTo message next labels hops place →
      ComesTo message offset (label :: labels) hops place
  | pointer {offset next hops place : Nat} {target : UInt16} {labels : List Bytes} :
      SegmentAt message offset (.pointer target) next → target.toNat < offset →
      ComesTo message target.toNat labels hops place →
      ComesTo message offset labels (hops + 1) place

/-- What is wrong at a place, when the labels on the way there took up `used` bytes and `hops`
pointers were followed.  A label has to fit into 255 bytes together with those before it and with
a terminator, and is looked at as text only then; a pointer has to point back, and is counted only
then. -/
inductive Defect (message : Bytes) (place used hops : Nat) : NameFlaw → Prop
  | segment {flaw : NameFlaw} : SegmentFlaw message place flaw → Defect message place used hops flaw
  | tooLong {label : Bytes} {next : Nat} : SegmentAt message place (.label label) next →
      255 < used + label.length + 2 → Defect message place used hops .tooLong
  | invalidUtf8 {label : Bytes} {next : Nat} {flaw : Utf8.Flaw} :
      SegmentAt message place (.label label) next → used + label.length + 2 ≤ 255 →
      ¬Utf8.Valid label → Utf8.decode label = .error flaw →
      Defect message place used hops (.invalidUtf8 flaw)
  | forwardPointer {target : UInt16} {next : Nat} :
      SegmentAt message place (.pointer target) next → place ≤ target.toNat →
      Defect message place used hops (.forwardPointer target.toNat)
  | tooManyPointers {target : UInt16} {next : Nat} :
      SegmentAt message place (.pointer target) next → target.toNat < place → hops = 128 →
      Defect message place used hops .tooManyPointers

/-- A walk over labels that are text leads from an offset to a defect, and keeps to what is left
of the limits when `used` bytes of labels and `hops` pointers came before. -/
def ComesToDefect (message : Bytes) (offset used hops : Nat) (error : WireError) : Prop :=
  ∃ labels count place flaw, error = .malformedName place flaw ∧
    ComesTo message offset labels count place ∧ (∀ label ∈ labels, Utf8.Valid label) ∧
    used + (labels.map (·.length + 1)).sum + 1 ≤ 255 ∧ hops + count ≤ 128 ∧
    Defect message place (used + (labels.map (·.length + 1)).sum) (hops + count) flaw

namespace ComesToDefect

variable {used hops next : Nat} {error : WireError}

lemma here {flaw : NameFlaw} (hused : used + 1 ≤ 255) (hhops : hops ≤ 128)
    (h : Defect message offset used hops flaw) :
    ComesToDefect message offset used hops (.malformedName offset flaw) :=
  ⟨[], 0, offset, flaw, rfl, .here, by simp, hused, hhops, h⟩

lemma label {label : Bytes} (hseg : SegmentAt message offset (.label label) next)
    (hvalid : Utf8.Valid label)
    (h : ComesToDefect message next (used + (label.length + 1)) hops error) :
    ComesToDefect message offset used hops error := by
  obtain ⟨labels, count, place, flaw, rfl, hto, hlabels, hlength, hcount, hdefect⟩ := h
  refine ⟨label :: labels, count, place, flaw, rfl, .label hseg hto,
    List.forall_mem_cons.2 ⟨hvalid, hlabels⟩, ?_⟩
  rw [List.map_cons, List.sum_cons, ← Nat.add_assoc]
  exact ⟨hlength, hcount, hdefect⟩

lemma pointer {target : UInt16} (hseg : SegmentAt message offset (.pointer target) next)
    (hback : target.toNat < offset)
    (h : ComesToDefect message target.toNat used (hops + 1) error) :
    ComesToDefect message offset used hops error := by
  obtain ⟨labels, count, place, flaw, rfl, hto, hlabels, hlength, hcount, hdefect⟩ := h
  refine ⟨labels, count + 1, place, flaw, rfl, .pointer hseg hback hto, hlabels, hlength, ?_⟩
  rw [← Nat.add_assoc, Nat.add_right_comm]
  exact ⟨hcount, hdefect⟩

end ComesToDefect

namespace Name

variable {message : Message} {used hops : Nat}

/-! ## From the walk to the error -/

/-- Where there is a defect, reading goes no further. -/
lemma labelsFrom_of_defect {flaw : NameFlaw} (h : Defect message.toList offset used hops flaw) :
    labelsFrom message used hops offset = .error (.malformedName offset flaw) := by
  cases h with
  | segment hflaw =>
    have hread := Segment.read_eq_error_iff.2 ⟨_, rfl, hflaw⟩
    rw [labelsFrom, hread]
  | @tooLong label _ hseg hlong =>
    have hover : maxNameLength < used + (label.length + 1) + 1 := hlong
    rw [labelsFrom, Segment.read_of_segmentAt hseg]
    simp only [dif_pos hover]
  | @invalidUtf8 label _ _ hseg hroom _ hflaw =>
    have hfits : ¬maxNameLength < used + (label.length + 1) + 1 := Nat.not_lt.2 hroom
    rw [labelsFrom, Segment.read_of_segmentAt hseg]
    simp only [dif_neg hfits, hflaw]
  | forwardPointer hseg hforward =>
    rw [labelsFrom, Segment.read_of_segmentAt hseg]
    simp only [if_pos hforward]
  | tooManyPointers hseg hback hhops =>
    rw [labelsFrom, Segment.read_of_segmentAt hseg]
    have hover : maxPointerHops < hops + 1 := by rw [hhops, maxPointerHops]; decide
    simp only [if_neg (Nat.not_le.2 hback), dif_pos hover]

/-- What is refused where a walk leads is refused where it begins. -/
lemma labelsFrom_of_comesTo {labels : List Bytes} {count place : Nat} {error : WireError}
    (h : ComesTo message.toList offset labels count place)
    (hvalid : ∀ label ∈ labels, Utf8.Valid label)
    (hlength : used + (labels.map (·.length + 1)).sum + 1 ≤ 255) (hcount : hops + count ≤ 128)
    (herror : labelsFrom message (used + (labels.map (·.length + 1)).sum) (hops + count) place =
      .error error) :
    labelsFrom message used hops offset = .error error := by
  induction h generalizing used hops with
  | here => exact herror
  | @label start next count place label labels hseg _ ih =>
    obtain ⟨⟨text, rfl⟩, hothers⟩ := List.forall_mem_cons.1 hvalid
    rw [List.map_cons, List.sum_cons, ← Nat.add_assoc] at hlength herror
    rw [← textBytes_ofList] at hseg hlength herror
    rw [labelsFrom_label hseg (by rw [maxNameLength]; omega), ih hothers hlength hcount herror]
    rfl
  | @pointer start next count place target labels hseg hback _ ih =>
    rw [← Nat.add_assoc, Nat.add_right_comm] at hcount herror
    rw [labelsFrom_pointer hseg hback (by rw [maxPointerHops]; omega),
      ih hvalid hlength hcount herror]
    rfl

/-! ## From the error to the walk -/

/-- Where reading is refused, a walk leads to a defect. -/
lemma comesToDefect_of_labelsFrom {error : WireError} (hused : used + 1 ≤ 255) (hhops : hops ≤ 128)
    (h : labelsFrom message used hops offset = .error error) :
    ComesToDefect message.toList offset used hops error := by
  -- of the reader's cases the seven that fail: five at the segment, two behind it
  fun_induction labelsFrom message used hops offset generalizing error with
  | case1 used hops offset refused hread =>
    cases h
    obtain ⟨flaw, rfl, hflaw⟩ := Segment.read_eq_error_iff.1 hread
    exact .here hused hhops (.segment hflaw)
  | case3 used hops offset bytes next hread hlong =>
    cases h
    exact .here hused hhops (.tooLong (Segment.segmentAt_of_read hread) hlong)
  | case4 used hops offset bytes next hread hroom flaw hflaw =>
    cases h
    exact .here hused hhops (.invalidUtf8 (Segment.segmentAt_of_read hread) (Nat.not_lt.1 hroom)
      (Utf8.exists_flaw_iff.1 ⟨flaw, hflaw⟩) hflaw)
  | case5 used hops offset bytes next hread hroom text htext refused hrest ih =>
    cases h
    exact .label (Segment.segmentAt_of_read hread) ⟨text, Utf8.decode_eq_ok_iff.1 htext⟩
      (ih (Nat.not_lt.1 hroom) hhops hrest)
  | case7 used hops offset target next hread hforward =>
    cases h
    exact .here hused hhops (.forwardPointer (Segment.segmentAt_of_read hread) hforward)
  | case8 used hops offset target next hread hback hmany =>
    cases h
    have hall : hops = 128 := Nat.le_antisymm hhops (Nat.le_of_lt_succ hmany)
    exact .here hused hhops (.tooManyPointers (Segment.segmentAt_of_read hread)
      (Nat.not_le.1 hback) hall)
  | case9 used hops offset target next hread hback hroom refused hrest ih =>
    cases h
    exact .pointer (Segment.segmentAt_of_read hread) (Nat.not_le.1 hback)
      (ih hused (Nat.not_lt.1 hroom) hrest)
  | _ => cases h

lemma decode_eq_error {start : Nat} {bytes : Bytes} {error : WireError} :
    decode bytes start = .error error ↔ labelsFrom bytes.toArray 0 0 start = .error error := by
  rw [decode, Reader.run, Name.read]
  rcases labelsFrom bytes.toArray 0 0 start with refused | ⟨texts, finish⟩
  · simp
  · simp

/-- A name that is refused is malformed. -/
lemma exists_of_decode_eq_error {start : Nat} {bytes : Bytes} {error : WireError}
    (h : decode bytes start = .error error) : ∃ place flaw, error = .malformedName place flaw := by
  obtain ⟨-, -, place, flaw, herror, -⟩ :=
    comesToDefect_of_labelsFrom (by decide) (by decide) (decode_eq_error.1 h)
  exact ⟨place, flaw, herror⟩

/-- **A name is refused for the first thing that is wrong with it**: for the defect to which a walk
leads over labels that are text, within 255 bytes and 128 pointers, and at the place of the
defect. -/
theorem decode_eq_error_iff (message : Bytes) (start : Nat) (error : WireError) :
    decode message start = .error error ↔
      ∃ labels hops place flaw, error = .malformedName place flaw ∧
        ComesTo message start labels hops place ∧ (∀ label ∈ labels, Utf8.Valid label) ∧
        (labels.map (·.length + 1)).sum + 1 ≤ 255 ∧ hops ≤ 128 ∧
        Defect message place (labels.map (·.length + 1)).sum hops flaw := by
  rw [decode_eq_error]
  constructor
  · intro h
    have hdefect := comesToDefect_of_labelsFrom (by decide) (by decide) h
    simpa only [ComesToDefect, Nat.zero_add] using hdefect
  · rintro ⟨labels, hops, place, flaw, rfl, hto, hvalid, hlength, hhops, hdefect⟩
    refine labelsFrom_of_comesTo hto hvalid (by omega) (by omega) ?_
    rw [Nat.zero_add, Nat.zero_add]
    exact labelsFrom_of_defect hdefect

/-- The place is that of the segment to which the pointer leads. -/
example : decode [64, 192, 0] 1 = .error (.malformedName 0 (.reservedLabelType 64)) := by
  decide +kernel

end Name

end StubResolver
