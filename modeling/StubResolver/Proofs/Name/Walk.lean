/-
# Names that come back to themselves

A label leads to the offset behind it, and a pointer to its target (`Leads`).  Though a pointer
has to lead back, the labels at its target may lead forward again and up to the pointer, and so a
walk from offset to offset may go round in circles with every single step of it allowed
(`Revisits`).

There is then something to go on to from every offset that the walk comes to
(`Revisits.exists_leads`), so a name that is read along it ends neither well nor for want of a
segment (`revisits_step`).  What ends it is a limit, or a label that is not text
(`decode_of_revisits`).
-/
import Mathlib.Logic.Relation
import StubResolver.Proofs.Name.Loop

namespace StubResolver

/-! ## The walk -/

/-- The walk through a name leads from one offset to the next: over a label, or from a pointer
to where it points back. -/
inductive Leads (message : Bytes) : Nat → Nat → Prop
  | label {offset next : Nat} {label : Bytes} :
      SegmentAt message offset (.label label) next → Leads message offset next
  | pointer {offset next : Nat} {target : UInt16} :
      SegmentAt message offset (.pointer target) next → target.toNat < offset →
      Leads message offset target.toNat

/-- The walk from the offset comes to some offset twice. -/
def Revisits (message : Bytes) (offset : Nat) : Prop :=
  ∃ place, Relation.ReflTransGen (Leads message) offset place ∧
    Relation.TransGen (Leads message) place place

/-- A walk that comes to some offset twice goes on, and is such a walk from the next offset
too. -/
lemma Revisits.exists_leads {message : Bytes} {offset : Nat} (h : Revisits message offset) :
    ∃ next, Leads message offset next ∧ Revisits message next := by
  obtain ⟨place, hto, hround⟩ := h
  rcases hto.cases_head with rfl | ⟨next, hnext, hrest⟩
  · -- the walk is on its round already
    obtain ⟨next, hnext, hback⟩ := Relation.TransGen.head'_iff.1 hround
    exact ⟨next, hnext, offset, hback, hround⟩
  · exact ⟨next, hnext, place, hrest, hround⟩

namespace Name

/-- The flaws for which a name is refused though it could go on. -/
inductive EndsWalk : NameFlaw → Prop
  | tooLong : EndsWalk .tooLong
  | tooManyPointers : EndsWalk .tooManyPointers
  | invalidUtf8 {flaw : Utf8.Flaw} : EndsWalk (.invalidUtf8 flaw)

/-! ## Reading along the walk -/

variable {message : Message} {progress : Progress}

/-- One step along such a walk leads on along it, or is refused though the walk goes on. -/
lemma revisits_step (h : Revisits message.toList progress.offset) :
    (∃ next, progress.step message = .ok (.inl next) ∧ Revisits message.toList next.offset) ∨
      ∃ flaw, progress.step message = .error (.malformedName progress.offset flaw) ∧
        EndsWalk flaw := by
  obtain ⟨offset, hleads, hnext⟩ := h.exists_leads
  rw [Progress.step]
  cases hleads with
  | @label _ label hseg =>
    rw [Segment.read_of_segmentAt hseg]
    simp only
    split
    · exact .inr ⟨_, rfl, .tooLong⟩
    · rcases Utf8.decode label with flaw | text
      · exact .inr ⟨_, rfl, .invalidUtf8⟩
      · exact .inl ⟨_, rfl, hnext⟩
  | pointer hseg hback =>
    rw [Segment.read_of_segmentAt hseg]
    simp only [if_neg (Nat.not_le.2 hback)]
    split
    · exact .inr ⟨_, rfl, .tooManyPointers⟩
    · exact .inl ⟨_, rfl, hnext⟩

/-- Wherever the loop ends along such a walk, it is refused though the walk goes on. -/
lemma revisits_loop {count : Nat} {result : Except WireError (Name × Nat)}
    (h : Revisits message.toList progress.offset)
    (hloop : loop message count progress = some result) :
    ∃ place flaw, result = .error (.malformedName place flaw) ∧ EndsWalk flaw := by
  induction count generalizing progress with
  | zero => cases hloop
  | succ count ih =>
    rw [loop] at hloop
    rcases revisits_step h with ⟨next, hstep, hnext⟩ | ⟨flaw, hstep, hflaw⟩
    · rw [hstep] at hloop
      exact ih hnext hloop
    · rw [hstep] at hloop
      obtain rfl := Option.some.inj hloop
      exact ⟨_, flaw, rfl, hflaw⟩

/-- **A name that comes back to itself is refused** for a limit or a label that is not text.
Reading it ends like that of any other name: within 256 segments, however long the message is. -/
theorem decode_of_revisits (message : Bytes) (start : Nat) :
    (Revisits message start → ∃ place flaw,
      decode message start = .error (.malformedName place flaw) ∧ EndsWalk flaw) ∧
    loop message.toArray 256 (.start start) = some (decode message start) := by
  have hloop := loop_eq_decode message start
  exact ⟨fun h => revisits_loop h hloop, hloop⟩

/-- The case of a label in front of a pointer to this label. -/
theorem decode_of_revisits_label :
    Revisits [1, 97, 192, 0] 0 ∧
      decode [1, 97, 192, 0] 0 = .error (.malformedName 0 .tooLong) ∧
      (∃ place flaw, decode [1, 97, 192, 0] 0 = .error (.malformedName place flaw) ∧
        EndsWalk flaw) ∧
      loop #[1, 97, 192, 0] 256 (.start 0) = some (.error (.malformedName 0 .tooLong)) := by
  have hlabel : Holds [1, 97, 192, 0] 0 (Segment.labelBytes [97]) := List.prefix_append _ _
  have hpointer : SegmentAt [1, 97, 192, 0] 2 (.pointer 0) 4 :=
    segmentAt_of_holds_pointer (by decide) List.prefix_rfl
  have hround : Relation.TransGen (Leads [1, 97, 192, 0]) 0 0 :=
    .tail (.single (.label (segmentAt_of_holds (by decide) hlabel)))
      (.pointer hpointer (by decide))
  have hrevisits : Revisits [1, 97, 192, 0] 0 := ⟨0, .refl, hround⟩
  have hread : decode [1, 97, 192, 0] 0 = .error (.malformedName 0 .tooLong) := by
    decide +kernel
  obtain ⟨hrefused, hloop⟩ := decode_of_revisits [1, 97, 192, 0] 0
  refine ⟨hrevisits, hread, hrefused hrevisits, ?_⟩
  rw [← hread, ← hloop]

/-- With one segment fewer the loop may still be on its way. -/
example : loop #[1, 97, 192, 0, 192, 0] 255 (.start 4) = none := by decide +kernel

end Name

end StubResolver
