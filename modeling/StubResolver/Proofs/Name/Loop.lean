/-
# Reading a name segment by segment

What is read of a name is said by recursion over its segments.  The same can be done in a loop,
which carries from one segment to the next what there is to know of those before it: their
labels, how much of the two limits they use up, and the offset behind the first pointer
(`Progress`).  A step of the loop changes neither the labels that are read in the end nor the
offset at which the name ends (`outcome_eq`).

Every step uses up some of a limit.  A label takes at least two of the 254 bytes in front of the
terminator, and a pointer is one of 128, so a name gets past at most 127 labels and 128 pointers,
and the loop has come to an end when it has read one segment more (`loop_eq_decode`).
-/
import StubResolver.Proofs.Name.Dots
import StubResolver.Proofs.Prefix

namespace StubResolver.Name

/-! ## The loop -/

/-- How far the reading of a name has come. -/
structure Progress where
  /-- Where the next segment stands. -/
  offset : Nat
  /-- The labels that were read, the last of which comes first. -/
  texts : List String
  /-- How many bytes these labels take up. -/
  used : Nat
  /-- How many pointers were followed. -/
  hops : Nat
  /-- The offset behind the first pointer. -/
  resume : Option Nat

namespace Progress

/-- Nothing is read yet. -/
def start (offset : Nat) : Progress where
  offset := offset
  texts := []
  used := 0
  hops := 0
  resume := none

/-- Reads one segment.  The name goes on, or here it is, with the offset after it. -/
def step (message : Message) (progress : Progress) :
    Except WireError (Progress ⊕ (Name × Nat)) :=
  match Segment.read message progress.offset with
  | .error error => .error error
  | .ok (.terminator, next) =>
    .ok (.inr (ofLabels progress.texts.reverse, progress.resume.getD next))
  | .ok (.label bytes, next) =>
    if maxNameLength < progress.used + (bytes.length + 1) + 1 then
      .error (.malformedName progress.offset .tooLong)
    else
      match Utf8.decode bytes with
      | .error flaw => .error (.malformedName progress.offset (.invalidUtf8 flaw))
      | .ok text =>
        .ok (.inl { progress with
          offset := next
          texts := String.ofList text :: progress.texts
          used := progress.used + (bytes.length + 1) })
  | .ok (.pointer target, next) =>
    if progress.offset ≤ target.toNat then
      .error (.malformedName progress.offset (.forwardPointer target.toNat))
    else if maxPointerHops < progress.hops + 1 then
      .error (.malformedName progress.offset .tooManyPointers)
    else
      .ok (.inl { progress with
        offset := target.toNat
        hops := progress.hops + 1
        resume := some (progress.resume.getD next) })

end Progress

/-- What the loop has come to after a number of segments, if it has come to an end. -/
def loop (message : Message) : Nat → Progress → Option (Except WireError (Name × Nat))
  | 0, _ => none
  | count + 1, progress =>
    match progress.step message with
    | .error error => some (.error error)
    | .ok (.inl next) => loop message count next
    | .ok (.inr result) => some (.ok result)

namespace Progress

variable {message : Message} {progress next : Progress}

/-! ## The loop and the recursion -/

/-- What comes of the name when the rest of it is read by recursion. -/
def outcome (message : Message) (progress : Progress) : Except WireError (Name × Nat) :=
  (labelsFrom message progress.used progress.hops progress.offset).map
    fun (texts, finish) =>
      (ofLabels (progress.texts.reverse ++ texts), progress.resume.getD finish)

/-- A step of the loop does not change what comes of the name. -/
lemma outcome_eq (message : Message) (progress : Progress) :
    progress.outcome message = (progress.step message).bind fun
      | .inl next => next.outcome message
      | .inr result => .ok result := by
  rw [outcome, step, Reader.labelsFrom_eq_bind]
  rcases Segment.read message progress.offset with error | ⟨segment, next⟩
  · rfl
  · cases segment with
    | terminator => simp [Except.bind, Except.map]
    | label bytes =>
      simp only [Except.bind]
      split
      · rfl
      · rcases Utf8.decode bytes with flaw | text
        · rfl
        · simp only [outcome, List.reverse_cons, List.append_assoc, List.singleton_append]
          rcases labelsFrom message _ _ next with _ | _
          · rfl
          · rfl
    | pointer target =>
      simp only [Except.bind]
      split
      · rfl
      · split
        · rfl
        · simp only [outcome]
          rcases labelsFrom message _ _ target.toNat with _ | _
          · rfl
          · rfl

lemma outcome_start (message : Bytes) (offset : Nat) :
    (start offset).outcome message.toArray = decode message offset := by
  rw [outcome, decode, Reader.run, Name.read, start]
  rcases labelsFrom message.toArray 0 0 offset with _ | _
  · rfl
  · rfl

/-! ## How long the loop runs -/

/-- What is used up keeps to the limits. -/
structure WithinLimits (progress : Progress) : Prop where
  used_lt : progress.used < maxNameLength
  hops_le : progress.hops ≤ maxPointerHops

/-- How many labels and pointers the name can still get past. -/
def left (progress : Progress) : Nat :=
  (maxNameLength - 1 - progress.used) / 2 + (maxPointerHops - progress.hops)

lemma withinLimits_start (offset : Nat) : (start offset).WithinLimits :=
  ⟨show 0 < maxNameLength by decide, Nat.zero_le _⟩

/-- At most 127 labels and 128 pointers are passed. -/
lemma left_start (offset : Nat) : (start offset).left = 127 + 128 := by
  simp only [left, start, maxNameLength, maxPointerHops]

/-- A step keeps to the limits and uses up some of what is left of them. -/
lemma WithinLimits.step (h : progress.WithinLimits)
    (hstep : progress.step message = .ok (.inl next)) :
    next.WithinLimits ∧ next.left < progress.left := by
  obtain ⟨hused, hhops⟩ := h
  rw [Progress.step] at hstep
  split at hstep
  · cases hstep
  · cases hstep
  · rename_i bytes behind hread
    have hpos : 1 ≤ bytes.length := (Segment.segmentAt_of_read hread).isLabel.1
    split at hstep
    · cases hstep
    · split at hstep
      · cases hstep
      · cases hstep
        refine ⟨⟨?_, hhops⟩, ?_⟩
        · show progress.used + (bytes.length + 1) < maxNameLength
          omega
        · show (maxNameLength - 1 - (progress.used + (bytes.length + 1))) / 2 +
            (maxPointerHops - progress.hops) < progress.left
          rw [left]
          omega
  · split at hstep
    · cases hstep
    · split at hstep
      · cases hstep
      · cases hstep
        refine ⟨⟨hused, ?_⟩, ?_⟩
        · show progress.hops + 1 ≤ maxPointerHops
          omega
        · show (maxNameLength - 1 - progress.used) / 2 +
            (maxPointerHops - (progress.hops + 1)) < progress.left
          rw [left]
          omega

/-- The loop ends as soon as it has read one segment more than it can get past. -/
lemma WithinLimits.loop_eq {count : Nat} (h : progress.WithinLimits)
    (hcount : progress.left < count) :
    loop message count progress = some (progress.outcome message) := by
  induction count generalizing progress with
  | zero => exact absurd hcount (Nat.not_lt_zero _)
  | succ count ih =>
    rw [loop, outcome_eq]
    split
    · rename_i hstep
      rw [hstep]
      rfl
    · rename_i hstep
      obtain ⟨hnext, hleft⟩ := h.step hstep
      rw [hstep, ih hnext (by omega)]
      rfl
    · rename_i hstep
      rw [hstep]
      rfl

end Progress

/-- A name is read within 256 segments, however long the message is. -/
lemma loop_eq_decode (message : Bytes) (start : Nat) :
    loop message.toArray 256 (.start start) = some (decode message start) := by
  have hleft := Progress.left_start start
  rw [(Progress.withinLimits_start start).loop_eq (by omega), Progress.outcome_start]

end StubResolver.Name
