/-
# Reading the beginning of a message

A message may be cut off anywhere.  A reader that is given its beginning only either goes on as
it would in the whole message or comes to miss bytes, and then it says so (`RunsShort`).  No
other error comes of a missing end, and no value does.

That one result `Foretells` another this way passes through every step of a reader, so readers
that are put together of such readers are such readers (`Steady.bind`).  The names need an
induction of their own, since what they jump to may be cut off as well (`steady_name`).
-/
import StubResolver.Answer
import StubResolver.Proofs.Name.WrittenBack

namespace StubResolver

/-! ## Results -/

/-- The errors of wanting bytes behind the end of a message. -/
inductive WireError.IsShortage : WireError → Prop
  | truncated {upTo available : Nat} : IsShortage (.truncated upTo available)
  | outOfBounds {offset : Nat} : IsShortage (.malformedName offset .outOfBounds)

/-- The result is an error of wanting bytes that are not there. -/
def RunsShort {α : Type} (result : Except WireError α) : Prop :=
  ∃ error, result = .error error ∧ error.IsShortage

/-- What comes of the beginning of a message also comes of the whole, unless bytes are
missing. -/
def Foretells {α : Type} (part whole : Except WireError α) : Prop :=
  RunsShort part ∨ part = whole

lemma not_runsShort_ok {α : Type} {value : α} :
    ¬RunsShort (.ok value : Except WireError α) := by
  rintro ⟨_, h, -⟩
  cases h

namespace Foretells

variable {α β : Type} {part whole : Except WireError α}

lemma refl (result : Except WireError α) : Foretells result result :=
  .inr rfl

lemma ok {value : α} (h : Foretells part whole) (hpart : part = .ok value) :
    whole = .ok value := by
  rcases h with hshort | rfl
  · rw [hpart] at hshort
    exact absurd hshort not_runsShort_ok
  · exact hpart

/-- What is made of two results foretells, if it passes errors on. -/
lemma bind {step step' : α → Except WireError β} (h : Foretells part whole)
    (hstep : ∀ value, Foretells (step value) (step' value)) :
    Foretells (part.bind step) (whole.bind step') := by
  rcases h with ⟨error, rfl, hshort⟩ | rfl
  · exact .inl ⟨error, rfl, hshort⟩
  · rcases part with error | value
    · exact refl _
    · exact hstep value

end Foretells

/-! ## Readers -/

namespace Reader

/-- What the reader takes from a message is what it takes from a longer one, unless bytes are
missing. -/
def Steady {α : Type} (reader : Reader α) : Prop :=
  ∀ (message rest : Message) (position : Nat),
    Foretells (reader message position) (reader (message ++ rest) position)

variable {α β : Type}

lemma steady_pure (value : α) : Steady (pure value : Reader α) :=
  fun _ _ _ => .refl _

lemma steady_fail (error : WireError) : Steady (fail error : Reader α) :=
  fun _ _ _ => .refl _

lemma steady_position : Steady position :=
  fun _ _ _ => .refl _

lemma bind_apply_eq (reader : Reader α) (next : α → Reader β) (message : Message)
    (position : Nat) : (reader >>= next) message position =
      (reader message position).bind fun (value, after) => next value message after := by
  rw [bind_apply]
  rcases reader message position with _ | _
  · rfl
  · rfl

lemma Steady.bind {reader : Reader α} {next : α → Reader β} (h : Steady reader)
    (hnext : ∀ value, Steady (next value)) : Steady (reader >>= next) := by
  intro message rest position
  rw [bind_apply_eq, bind_apply_eq]
  exact (h message rest position).bind fun (value, after) => hnext value message rest after

lemma slice_append {message rest : Message} {position count : Nat}
    (h : count ≤ message.size - position) :
    (message ++ rest).slice position count = message.slice position count := by
  rw [Message.slice_eq, Message.slice_eq, Array.toList_append, List.drop_append,
    List.take_append_of_le_length (by simpa using h)]

lemma steady_take (count : Nat) : Steady (take count) := by
  intro message rest position
  rw [take, take]
  split
  · rename_i hle
    right
    rw [if_pos (by rw [Array.size_append]; omega), slice_append hle]
  · exact .inl ⟨_, rfl, .truncated⟩

lemma steady_bigEndian (width : Nat) : Steady (bigEndian width) :=
  (steady_take width).bind fun _ => steady_pure _

lemma steady_word : Steady (Readable.read : Reader UInt16) :=
  (steady_bigEndian 2).bind fun _ => steady_pure _

lemma steady_long : Steady (Readable.read : Reader UInt32) :=
  (steady_bigEndian 4).bind fun _ => steady_pure _

lemma steady_times {reader : Reader α} (h : Steady reader) (count : Nat) :
    Steady (times reader count) := by
  induction count with
  | zero => exact steady_pure _
  | succ count ih =>
    rw [times_succ]
    exact h.bind fun _ => ih.bind fun _ => steady_pure _

/-! ## Names -/

lemma steady_segment : Steady Segment.read := by
  intro message rest offset
  rcases hread : Segment.read message offset with error | ⟨segment, next⟩
  · obtain ⟨flaw, rfl, hflaw⟩ := Segment.read_eq_error_iff.1 hread
    cases hflaw with
    | missing | label | pointer => exact .inl ⟨_, rfl, .outOfBounds⟩
    | @reserved byte hbyte hge hlt =>
      -- the byte that begins no segment is also in the longer message
      have hlt' := (List.getElem?_eq_some_iff.1 hbyte).1
      have hmore : (message ++ rest).toList[offset]? = some byte := by
        rw [Array.toList_append, List.getElem?_append_left hlt', hbyte]
      exact .inr (Segment.read_eq_error_iff.2 ⟨_, rfl, .reserved hmore hge hlt⟩).symm
  · have hseg := (Segment.segmentAt_of_read hread).append rest.toList
    rw [← Array.toList_append] at hseg
    exact .inr (Segment.read_of_segmentAt hseg).symm

/-- The labels at an offset, as one step: the segment there decides how the name goes on. -/
lemma labelsFrom_eq_bind (message : Message) (used hops offset : Nat) :
    Name.labelsFrom message used hops offset =
      (Segment.read message offset).bind fun (segment, next) =>
        match segment with
        | .terminator => .ok ([], next)
        | .label bytes =>
          if maxNameLength < used + (bytes.length + 1) + 1 then
            .error (.malformedName offset .tooLong)
          else
            match Utf8.decode bytes with
            | .error flaw => .error (.malformedName offset (.invalidUtf8 flaw))
            | .ok text =>
              (Name.labelsFrom message (used + (bytes.length + 1)) hops next).bind
                fun (labels, finish) => .ok (String.ofList text :: labels, finish)
        | .pointer target =>
          if offset ≤ target.toNat then
            .error (.malformedName offset (.forwardPointer target.toNat))
          else if maxPointerHops < hops + 1 then
            .error (.malformedName offset .tooManyPointers)
          else
            (Name.labelsFrom message used (hops + 1) target.toNat).bind
              fun (labels, _) => .ok (labels, next) := by
  rw [Name.labelsFrom]
  rcases Segment.read message offset with error | ⟨segment, next⟩
  · rfl
  · cases segment with
    | terminator => rfl
    | label bytes =>
      simp only [Except.bind, dite_eq_ite]
      rcases Name.labelsFrom message (used + (bytes.length + 1)) hops next with _ | _
      · rfl
      · rfl
    | pointer target =>
      simp only [Except.bind, dite_eq_ite]
      rcases Name.labelsFrom message used (hops + 1) target.toNat with _ | _
      · rfl
      · rfl

lemma foretells_labelsFrom (message rest : Message) (used hops offset : Nat) :
    Foretells (Name.labelsFrom message used hops offset)
      (Name.labelsFrom (message ++ rest) used hops offset) := by
  -- the segment is the same in both messages, and what follows it has less of the limits left
  induction hleft : (maxNameLength - used) + (maxPointerHops - hops) using Nat.strong_induction_on
    generalizing used hops offset with
  | _ left ih =>
    subst hleft
    rw [labelsFrom_eq_bind, labelsFrom_eq_bind (message ++ rest)]
    refine (steady_segment message rest offset).bind fun (segment, next) => ?_
    cases segment with
    | terminator => exact .refl _
    | label bytes =>
      simp only
      split
      · exact .refl _
      · split
        · exact .refl _
        · exact (ih _ (by omega) _ _ _ rfl).bind fun _ => .refl _
    | pointer target =>
      simp only
      split
      · exact .refl _
      · split
        · exact .refl _
        · exact (ih _ (by omega) _ _ _ rfl).bind fun _ => .refl _

lemma steady_name : Steady Name.read := by
  intro message rest offset
  have hbind (message : Message) : Name.read message offset =
      (Name.labelsFrom message 0 0 offset).bind
        fun (labels, next) => .ok (Name.ofLabels labels, next) := by
    rw [Name.read]
    rcases Name.labelsFrom message 0 0 offset with _ | _
    · rfl
    · rfl
  rw [hbind, hbind]
  exact (foretells_labelsFrom message rest 0 0 offset).bind fun _ => .refl _

/-! ## The parts of a response -/

lemma steady_header : Steady (Readable.read : Reader Header) := by
  have hflags : Steady (Readable.read : Reader Flags) := steady_word.bind fun _ => steady_pure _
  exact steady_word.bind fun _ => hflags.bind fun _ => steady_word.bind fun _ =>
    steady_word.bind fun _ => steady_word.bind fun _ => steady_word.bind fun _ => steady_pure _

lemma steady_question : Steady (Readable.read : Reader Question) :=
  steady_name.bind fun _ => steady_word.bind fun _ => steady_word.bind fun _ => steady_pure _

lemma steady_record : Steady (Readable.read : Reader PlacedRecord) :=
  steady_name.bind fun _ => steady_word.bind fun _ => steady_word.bind fun _ =>
    steady_long.bind fun _ => (steady_bigEndian 2).bind fun length => steady_position.bind fun _ =>
      (steady_take length).bind fun _ => steady_pure _

lemma steady_records (id : UInt16) : Steady (Answer.records id) := by
  refine steady_header.bind fun header => ?_
  rcases header.refusal? id with _ | error
  · refine (steady_times steady_question _).bind fun _ => ?_
    split
    · exact steady_fail _
    · exact steady_times steady_record _
  · exact steady_fail error

end Reader

end StubResolver
