/-
# What readers refuse

A reader of a field of fixed width refuses the message only if the field does not fit into it
(`Reader.IsField`), and of fields that follow one another the first that does not fit is refused
(`FieldMissing`).  Reading a counted number of values fails at the first that cannot be read
(`Reader.times_eq_error_iff`).
-/
import StubResolver.Proofs.Reading

namespace StubResolver

/-- Of the fields of the given widths that follow one another from an offset on, some do not fit
into the message, and the error is that of the first of them. -/
inductive FieldMissing (message : Bytes) : Nat → List Nat → WireError → Prop
  | here {offset width : Nat} {widths : List Nat} : message.length < offset + width →
      FieldMissing message offset (width :: widths)
        (.truncated (min (offset + width) maxOffset) message.length)
  | behind {offset width : Nat} {widths : List Nat} {error : WireError} :
      offset + width ≤ message.length → FieldMissing message (offset + width) widths error →
      FieldMissing message offset (width :: widths) error

lemma FieldMissing.exists_eq {message : Bytes} {offset : Nat} {widths : List Nat}
    {error : WireError} (h : FieldMissing message offset widths error) :
    ∃ upTo available, error = .truncated upTo available := by
  induction h with
  | here => exact ⟨_, _, rfl⟩
  | behind _ _ ih => exact ih

/-- The first of several words that does not fit into the message is the one at whose beginning
fewer than two bytes are left. -/
lemma fieldMissing_words_iff {message : Bytes} {start count : Nat} {error : WireError}
    (hle : 2 * start ≤ message.length) :
    FieldMissing message (2 * start) (List.replicate count 2) error ↔
      message.length < 2 * (start + count) ∧
        error = .truncated (min (2 * (message.length / 2 + 1)) maxOffset) message.length := by
  induction count generalizing start with
  | zero => exact iff_of_false nofun (by omega)
  | succ count ih =>
    rw [List.replicate_succ]
    constructor
    · rintro (hlt | ⟨hfits, hmissing⟩)
      · rw [show message.length / 2 = start by omega]
        exact ⟨by omega, rfl⟩
      · obtain ⟨hlt, herror⟩ := (ih (show 2 * (start + 1) ≤ message.length by omega)).1 hmissing
        exact ⟨by omega, herror⟩
    · rintro ⟨hlt, rfl⟩
      rcases Nat.lt_or_ge message.length (2 * start + 2) with hshort | hfits
      · rw [show message.length / 2 = start by omega]
        exact .here hshort
      · exact .behind hfits
          ((ih (show 2 * (start + 1) ≤ message.length by omega)).2 ⟨by omega, rfl⟩)

namespace Reader

variable {α β : Type} {message : Message} {position : Nat} {error : WireError}

lemma bind_eq_error_iff {reader : Reader α} {continuation : α → Reader β} :
    (reader >>= continuation) message position = .error error ↔
      reader message position = .error error ∨
        ∃ first middle, reader message position = .ok (first, middle) ∧
          continuation first message middle = .error error := by
  rw [bind_apply]
  rcases reader message position with refused | ⟨first, middle⟩
  · simp
  · simp

/-! ## Fields of fixed width -/

/-- The reader takes a field of so many bytes if it fits into the message, and otherwise misses
them. -/
structure IsField (reader : Reader α) (width : Nat) : Prop where
  ok : ∀ message position, position + width ≤ message.size →
    ∃ value, reader message position = .ok (value, position + width)
  error : ∀ message position, position ≤ message.size → message.size < position + width →
    reader message position = .error (shortage message position width)

lemma isField_take (count : Nat) : IsField (take count) count where
  ok message position hle := ⟨_, by rw [take, if_pos (by omega)]⟩
  error message position _ hlt := by rw [take, if_neg (by omega)]

/-- What is made of a field is read where the field is. -/
lemma IsField.map {reader : Reader α} {width : Nat} (h : IsField reader width) (f : α → β) :
    IsField (do pure (f (← reader))) width where
  ok message position hle := by
    obtain ⟨value, hvalue⟩ := h.ok message position hle
    refine ⟨f value, ?_⟩
    rw [bind_apply, hvalue]
    rfl
  error message position hle hlt := by rw [bind_apply, h.error message position hle hlt]

lemma isField_bigEndian (width : Nat) : IsField (bigEndian width) width :=
  (isField_take width).map _

lemma isField_word : IsField (Readable.read : Reader UInt16) 2 :=
  (isField_bigEndian 2).map _

lemma isField_long : IsField (Readable.read : Reader UInt32) 4 :=
  (isField_bigEndian 4).map _

lemma isField_flags : IsField (Readable.read : Reader Flags) 2 :=
  isField_word.map _

/-- At the position, the reader misses the first of the given fields that does not fit, and
refuses nothing else. -/
def Wants (reader : Reader α) (message : Message) (position : Nat) (widths : List Nat) : Prop :=
  ∀ error, reader message position = .error error ↔
    FieldMissing message.toList position widths error

lemma wants_pure (value : α) : Wants (pure value : Reader α) message position [] := by
  intro error
  rw [pure_apply]
  exact iff_of_false nofun nofun

/-- A field is wanted first, and then, if it is there, what stands behind it. -/
lemma IsField.bind {reader : Reader α} {continuation : α → Reader β} {width : Nat}
    {widths : List Nat} (h : IsField reader width) (hle : position ≤ message.size)
    (hnext : ∀ value, position + width ≤ message.size →
      reader message position = .ok (value, position + width) →
      Wants (continuation value) message (position + width) widths) :
    Wants (reader >>= continuation) message position (width :: widths) := by
  intro error
  rw [bind_apply]
  rcases Nat.lt_or_ge message.size (position + width) with hlt | hfits
  · rw [h.error message position hle hlt]
    constructor
    · intro heq
      obtain rfl := Except.error.inj heq
      exact .here (by simpa using hlt)
    · rintro (_ | ⟨hfits, -⟩)
      · rw [shortage, Array.length_toList]
      · rw [Array.length_toList] at hfits
        omega
  · obtain ⟨value, hvalue⟩ := h.ok message position hfits
    rw [hvalue]
    refine (hnext value hfits hvalue error).trans ⟨.behind (by simpa using hfits), ?_⟩
    rintro (hlt | ⟨-, hmissing⟩)
    · rw [Array.length_toList] at hlt
      omega
    · exact hmissing

/-- Only the twelve bytes of a header can be missing from it. -/
lemma wants_header (message : Message) :
    Wants (Readable.read : Reader Header) message 0 [2, 2, 2, 2, 2, 2] := by
  refine isField_word.bind (Nat.zero_le _) fun _ h _ => ?_
  refine isField_flags.bind h fun _ h _ => ?_
  refine isField_word.bind h fun _ h _ => ?_
  refine isField_word.bind h fun _ h _ => ?_
  refine isField_word.bind h fun _ h _ => ?_
  exact isField_word.bind h fun _ _ _ => wants_pure _

/-! ## Several values -/

/-- Reading a number of values is refused for the first that cannot be read, behind those that
can. -/
lemma times_eq_error_iff {reader : Reader α} {count start : Nat} :
    times reader count message start = .error error ↔
      ∃ values middle, values.length < count ∧
        Consecutive (fun value o p => reader message o = .ok (value, p)) values start middle ∧
        reader message middle = .error error := by
  induction count generalizing start with
  | zero =>
    rw [times_zero, pure_apply]
    exact iff_of_false nofun fun ⟨_, _, hlt, _⟩ => absurd hlt (Nat.not_lt_zero _)
  | succ count ih =>
    simp only [times_succ, bind_eq_error_iff, pure_apply, reduceCtorEq, and_false, exists_false,
      or_false, ih]
    constructor
    · rintro (hfirst | ⟨first, middle, hfirst, values, finish, hlt, hrow, herror⟩)
      · exact ⟨[], start, Nat.succ_pos count, .nil, hfirst⟩
      · exact ⟨first :: values, finish, Nat.succ_lt_succ hlt, .cons hfirst hrow, herror⟩
    · rintro ⟨values, finish, hlt, hrow, herror⟩
      cases hrow with
      | nil => exact .inl herror
      | @cons first values _ middle _ hfirst hrow =>
        exact .inr ⟨first, middle, hfirst, values, finish, Nat.lt_of_succ_lt_succ hlt, hrow,
          herror⟩

end Reader

end StubResolver
