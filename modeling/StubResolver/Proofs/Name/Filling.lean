/-
# Filling a buffer with a name

A name is written into a buffer segment by segment, each into the slice behind those before it.
If one of them failed on the way then those before it would be left in the buffer
(`fillSegments`).  So all that can fail is looked at first: the labels, the length of the whole,
and the room for it (`Name.fill`).  What is written after that are segments for which there is
room and none of which is too long, and these do not fail (`fillSegments_eq`).

Hence writing a name is all or nothing.  What comes of it is one of three things (`Name.Fills`):
the name is too long, or it has too little room, and the buffer is left as it was, or all of the
name is written over the front of the buffer and the rest is left as it was
(`Name.fill_iff_fills`).
-/
import StubResolver.Proofs.InPlace

namespace StubResolver

/-- Writes segments into a buffer from `offset` on, and says at which offset they end.  The buffer
is given as it is left: when a segment fails, the segments before it stand there. -/
def fillSegments (offset : Nat) : List Segment → Bytes → Except Fault Nat × Bytes
  | [], buffer => (.ok offset, buffer)
  | segment :: segments, buffer =>
    if offset ≤ buffer.length then
      match segment.inPlace (buffer.drop offset) with
      | .error fault => (.error fault, buffer)
      | .ok (count, rest) =>
        fillSegments (offset + count) segments (buffer.take offset ++ rest)
    else (.error .outOfRange, buffer)

/-- The segments in front of one that fails are left in the buffer. -/
example : fillSegments 0 [.label [97], .label [98], .terminator] [255, 255, 255] =
    (.error (.refused (.notEnoughSpace 2 1)), [1, 97, 255]) := by decide

/-- Segments for which there is room are written, if none of them is too long. -/
lemma fillSegments_eq {segments : List Segment} (front : Bytes) {rest : Bytes}
    (hsegments : ∀ segment ∈ segments, ∀ error, ¬Item.TooLong (.segment segment) error)
    (hroom : (segments.flatMap Segment.wire).length ≤ rest.length) :
    fillSegments front.length segments (front ++ rest) =
      (.ok (front.length + (segments.flatMap Segment.wire).length),
        front ++ segments.flatMap Segment.wire ++
          rest.drop (segments.flatMap Segment.wire).length) := by
  induction segments generalizing front rest with
  | nil => simp [fillSegments]
  | cons segment segments ih =>
    rw [List.forall_mem_cons] at hsegments
    rw [List.flatMap_cons, List.length_append] at hroom ⊢
    have hwritten : segment.inPlace rest =
        .ok (segment.wire.length, segment.wire ++ rest.drop segment.wire.length) :=
      ((Contract.segment segment).imp hsegments.1).inPlace_eq_ok (by omega)
    -- what was in front grows by the segment
    have hnext := ih (front ++ segment.wire) hsegments.2
      (show _ ≤ (rest.drop segment.wire.length).length by rw [List.length_drop]; omega)
    rw [List.length_append, List.append_assoc, List.drop_drop] at hnext
    rw [fillSegments, if_pos (by simp), List.drop_left, List.take_left, hwritten]
    simp only [hnext, List.append_assoc, Nat.add_assoc]

namespace Name

/-- Writes a name into a buffer, and gives the buffer as it is left.  The labels are looked at
first, then the length of the whole, and then the room for it. -/
def fill (name : Name) (buffer : Bytes) : Except Fault Nat × Bytes :=
  match name.scan? with
  | none => (.error .outOfRange, buffer)
  | some labels =>
    match labels.find? (maxLabelLength < ·.length) with
    | some label => (.error (.refused (.labelTooLong label.length)), buffer)
    | none =>
      if maxNameLength < wireLength labels then
        (.error (.refused (.nameTooLong (wireLength labels))), buffer)
      else if buffer.length < wireLength labels then
        (.error (.refused (.notEnoughSpace (wireLength labels) buffer.length)), buffer)
      else fillSegments 0 (labels.map .label ++ [.terminator]) buffer

/-- What comes of writing a name into a buffer, and what becomes of the buffer. -/
inductive Fills (name : Name) (buffer : Bytes) : Except WireError Nat → Bytes → Prop
  | tooLong {error : WireError} : name.TooLong error → Fills name buffer (.error error) buffer
  | noRoom : name.WithinLimits → buffer.length < size name →
      Fills name buffer (.error (.notEnoughSpace (size name) buffer.length)) buffer
  | written : name.WithinLimits → size name ≤ buffer.length →
      Fills name buffer (.ok (size name)) (wireForm name.segments ++ buffer.drop (size name))

/-- The outcome of writing into a buffer, with the buffer as it is left: written over on success,
untouched on failure. -/
def orUntouched (buffer : Bytes) : Except WireError (Nat × Bytes) → Except Fault Nat × Bytes
  | .error error => (.error (.refused error), buffer)
  | .ok (count, after) => (.ok count, after)

variable {name : Name} {buffer after : Bytes} {result : Except WireError Nat}

/-- Filling a buffer with a name is writing the name into it, and leaves it untouched on
failure. -/
lemma fill_eq (name : Name) (buffer : Bytes) :
    name.fill buffer = orUntouched buffer (writeInto name buffer) := by
  have hwrite : write name = Name.write name := rfl
  rw [fill, scan?_eq, writeInto, hwrite]
  rcases name.withinLimits_or_tooLong with hlimits | ⟨error, hlong⟩
  · rw [write_of_withinLimits hlimits, Writer.put, length_wireForm]
    simp only [find?_eq_none_iff.2 hlimits.1, if_neg (Nat.not_lt.2 hlimits.2)]
    split
    · rfl
    · rename_i hroom
      have hlength : ((name.segments.map Segment.label ++ [Segment.terminator]).flatMap
          Segment.wire).length ≤ buffer.length := by
        rw [Segment.flatMap_wire, length_wireForm]
        exact Nat.not_lt.1 hroom
      have hfilled := fillSegments_eq [] (Segment.not_tooLong_of_mem hlimits.1) hlength
      rw [Segment.flatMap_wire, length_wireForm] at hfilled
      simpa [orUntouched] using hfilled
  · rw [hlong.write_eq]
    cases hlong with
    | label hsegments hbefore hlabel =>
      simp only [find?_eq_some_iff.2 ⟨hlabel, _, _, hsegments, hbefore⟩, Writer.fail, orUntouched]
    | whole hshort hlength =>
      simp only [find?_eq_none_iff.2 hshort, if_pos hlength, Writer.fail, orUntouched]

lemma exists_fills (name : Name) (buffer : Bytes) :
    ∃ result after, name.Fills buffer result after := by
  rcases name.withinLimits_or_tooLong with hlimits | ⟨error, hlong⟩
  · rcases Nat.lt_or_ge buffer.length (size name) with hshort | hroom
    · exact ⟨_, _, .noRoom hlimits hshort⟩
    · exact ⟨_, _, .written hlimits hroom⟩
  · exact ⟨_, _, .tooLong hlong⟩

lemma Fills.fill_eq (h : name.Fills buffer result after) :
    name.fill buffer = (result.mapError .refused, after) := by
  have hwrite : write name = Name.write name := rfl
  have hsize : size name = (wireForm name.segments).length := (length_wireForm _).symm
  rw [Name.fill_eq, writeInto, hwrite]
  cases h with
  | tooLong hlong =>
    rw [hlong.write_eq]
    rfl
  | noRoom hlimits hshort =>
    rw [hsize] at hshort ⊢
    rw [write_of_withinLimits hlimits, Writer.put, if_pos hshort]
    rfl
  | written hlimits hroom =>
    rw [hsize] at hroom ⊢
    rw [write_of_withinLimits hlimits, Writer.put, if_neg (Nat.not_lt.2 hroom)]
    rfl

/-- There is one way only in which a buffer is filled. -/
lemma fills_iff : name.Fills buffer result after ↔
    name.fill buffer = (result.mapError .refused, after) := by
  refine ⟨Fills.fill_eq, fun h => ?_⟩
  obtain ⟨result', after', hfills⟩ := exists_fills name buffer
  obtain ⟨hresult, rfl⟩ := Prod.mk.inj (h.symm.trans hfills.fill_eq)
  rcases result with error | count <;> rcases result' with error' | count'
  · obtain rfl := Fault.refused.inj (Except.error.inj hresult)
    exact hfills
  · cases hresult
  · cases hresult
  · obtain rfl := Except.ok.inj hresult
    exact hfills

/-- A name is encoded by filling a buffer of its size, which is then cut to what was written. -/
lemma encode_eq_fill {fresh : Bytes} (hfresh : fresh.length = size name) :
    (encode name).mapError .refused = (name.fill fresh).1.map ((name.fill fresh).2.take ·) := by
  rcases name.withinLimits_or_tooLong with hlimits | ⟨error, hlong⟩
  · have hsize : size name = (wireForm name.segments).length := (length_wireForm _).symm
    rw [(Fills.written hlimits hfresh.ge).fill_eq, encode_eq_ok_iff.2 ⟨hlimits, rfl⟩, hsize]
    simp [Except.mapError, Except.map]
  · rw [(Fills.tooLong hlong).fill_eq, encode_eq_error_iff.2 hlong]
    rfl

/-- **Writing a name is all or nothing.**  Every name fills every buffer in just one of the three
ways, and the buffer is touched only if all of the name is written.  Filling it is what writing
into it comes to, and encoding a name is filling a buffer of just its size, so it is refused for
its length or not at all. -/
theorem fill_iff_fills (name : Name) (buffer : Bytes) :
    (∃ result after, name.Fills buffer result after) ∧
    (∀ result after, name.Fills buffer result after ↔
      name.fill buffer = (result.mapError .refused, after)) ∧
    name.fill buffer = orUntouched buffer (writeInto name buffer) ∧
    size name = 1 + (name.segments.map (·.length + 1)).sum ∧
    (wireForm name.segments).length = size name ∧
    (∀ bytes, encode name = .ok bytes ↔
      name.WithinLimits ∧ bytes = wireForm name.segments) ∧
    (∀ error, encode name = .error error ↔ name.TooLong error) ∧
    (encode name).mapError .refused =
      (name.fill (List.replicate (size name) 0)).1.map
        ((name.fill (List.replicate (size name) 0)).2.take ·) := by
  refine ⟨exists_fills name buffer, fun _ _ => fills_iff, fill_eq name buffer, ?_,
    length_wireForm _, fun _ => encode_eq_ok_iff, fun _ => encode_eq_error_iff,
    encode_eq_fill List.length_replicate⟩
  rw [Nat.add_comm]
  exact wireLength_eq_sum name.segments

end Name

end StubResolver
