/-
# Reading with offsets of 64 bits

A reader that counts within 64 bits might be stopped where the readers of this library go on.
None ever is, wherever in a message it begins: what comes of a checked reader is what comes of the
reader that counts without bound (`Counts`).  This passes through every step of a reader
(`Counts.bind`), and through every segment of a name (`Name.Progress.agrees_step`), where
pointers lead to offsets of their own.

Since a step goes on only with bytes that are there, each sum is that of an offset and of a number
of bytes behind it in the message.  Only what is reported of missing bytes may go beyond, and there
the greatest offset is named instead.
-/
import StubResolver.Proofs.Checked
import StubResolver.Proofs.Response.Verdict

namespace StubResolver

/-- A header is not refused for missing bytes. -/
lemma Header.ne_truncated_of_refusal? {header : Header} {id : UInt16} {error : WireError}
    (h : header.refusal? id = some error) (upTo available : Nat) :
    error ≠ .truncated upTo available := by
  rintro rfl
  rw [Header.refusal?] at h
  split at h
  · cases h
  · split at h
    · cases h
    · split at h <;> cases h

/-! ## Agreement -/

/-- What comes of a checked computation is what comes of one that counts without bound.  Bytes
are missing at a position only if so many do not fit into the message, and nothing else is refused
for missing bytes. -/
inductive Agrees (message : Message) {α : Type} : Except Halt α → Except WireError α → Prop
  | ok (value : α) : Agrees message (.ok value) (.ok value)
  | refused {error : WireError} : (∀ upTo available, error ≠ .truncated upTo available) →
      Agrees message (.error (.refused error)) (.error error)
  | missing {position count : Nat} : message.size < min (position + count) maxOffset →
      Agrees message (.error (.missing position count))
        (.error (.truncated (min (position + count) maxOffset) message.size))

/-- From every offset on, a checked reader agrees with the reader, and goes on at an offset. -/
structure Counts {α : Type} (message : Message) (checked : Checked α) (reader : Reader α) :
    Prop where
  agrees : ∀ position ≤ maxOffset,
    Agrees message (checked message position) (reader message position)
  next_le : ∀ position ≤ maxOffset, ∀ value next,
    reader message position = .ok (value, next) → next ≤ maxOffset

lemma Halt.sum_eq {a b : Nat} (h : a + b ≤ maxOffset) : sum a b = .ok (a + b) :=
  if_pos h

lemma Halt.slice_eq {message : Message} {position count : Nat}
    (h : count ≤ message.size - position) :
    slice message position count = .ok (message.slice position count) :=
  if_pos (by omega)

namespace Agrees

variable {α β : Type} {message : Message} {checked : Except Halt α}

/-- Either both come to nothing, and then they agree as results of any type, or both come to the
same value. -/
lemma error_or_ok {result : Except WireError α} (h : Agrees message checked result) :
    (∃ halt error, checked = .error halt ∧ result = .error error ∧
      ∀ β : Type, Agrees message (.error halt : Except Halt β) (.error error)) ∨
    ∃ value, checked = .ok value ∧ result = .ok value := by
  cases h with
  | ok value => exact .inr ⟨value, rfl, rfl⟩
  | refused hne => exact .inl ⟨_, _, rfl, rfl, fun _ => .refused hne⟩
  | missing hlt => exact .inl ⟨_, _, rfl, rfl, fun _ => .missing hlt⟩

lemma bind {result : Except WireError α} {next : α → Except Halt β}
    {next' : α → Except WireError β} (h : Agrees message checked result)
    (hnext : ∀ value, result = .ok value → Agrees message (next value) (next' value)) :
    Agrees message (checked.bind next) (result.bind next') := by
  obtain ⟨halt, error, rfl, rfl, herror⟩ | ⟨value, rfl, rfl⟩ := h.error_or_ok
  · exact herror β
  · exact hnext value rfl

end Agrees

namespace Counts

variable {α β : Type} {message : Message}

protected lemma pure (value : α) : Counts message (pure value) (pure value) where
  agrees _ _ := .ok _
  next_le position hposition _ _ h := by
    cases h
    exact hposition

lemma position : Counts message Checked.position Reader.position where
  agrees _ _ := .ok _
  next_le _ hposition _ _ h := by
    cases h
    exact hposition

lemma fail {error : WireError} (hne : ∀ upTo available, error ≠ .truncated upTo available) :
    Counts message (Checked.halt (.refused error) : Checked α) (Reader.fail error) where
  agrees _ _ := .refused hne
  next_le _ _ _ _ h := by cases h

protected lemma bind {checked : Checked α} {reader : Reader α} {next : α → Checked β}
    {next' : α → Reader β} (h : Counts message checked reader)
    (hnext : ∀ value position behind, reader message position = .ok (value, behind) →
      Counts message (next value) (next' value)) :
    Counts message (checked >>= next) (reader >>= next') where
  agrees position hposition := by
    rw [Checked.bind_apply, Reader.bind_apply]
    obtain ⟨halt, error, hchecked, hread, herror⟩ | ⟨⟨value, behind⟩, hchecked, hread⟩ :=
      (h.agrees position hposition).error_or_ok
    · rw [hchecked, hread]
      exact herror (β × Nat)
    · rw [hchecked, hread]
      exact (hnext value position behind hread).agrees behind
        (h.next_le position hposition value behind hread)
  next_le position hposition value behind hread := by
    obtain ⟨first, middle, hfirst, hsecond⟩ := Reader.bind_eq_ok_iff.1 hread
    exact (hnext first position middle hfirst).next_le middle
      (h.next_le position hposition first middle hfirst) value behind hsecond

/-- What is made of a value that is read. -/
lemma map {checked : Checked α} {reader : Reader α} (h : Counts message checked reader)
    (f : α → β) : Counts message (do pure (f (← checked))) (do pure (f (← reader))) :=
  h.bind fun value _ _ _ => .pure (f value)

lemma times {checked : Checked α} {reader : Reader α} (h : Counts message checked reader)
    (count : Nat) : Counts message (checked.times count) (reader.times count) := by
  induction count with
  | zero => exact .pure []
  | succ count ih =>
    rw [Reader.times_succ]
    exact h.bind fun first _ _ _ => ih.map (first :: ·)

/-! ### Fields -/

section

variable (hsize : message.size < maxOffset)
include hsize

lemma skip (count : Nat) : Counts message (Checked.skip count) (Reader.skip count) where
  agrees position hposition := by
    rw [Checked.skip, Reader.skip]
    by_cases hroom : count ≤ message.size - position
    · rw [if_pos hroom, if_pos hroom, Halt.sum_eq (by omega)]
      exact .ok _
    · rw [if_neg hroom, if_neg hroom]
      exact .missing (by omega)
  next_le position hposition value next h := by
    rw [Reader.skip] at h
    split at h
    · cases h
      omega
    · cases h

lemma take (count : Nat) : Counts message (Checked.take count) (Reader.take count) where
  agrees position hposition := by
    rw [Checked.take, Reader.take]
    by_cases hroom : count ≤ message.size - position
    · rw [if_pos hroom, if_pos hroom, Halt.slice_eq hroom, Halt.sum_eq (by omega)]
      exact .ok _
    · rw [if_neg hroom, if_neg hroom]
      exact .missing (by omega)
  next_le position hposition value next h := by
    rw [Reader.take] at h
    split at h
    · cases h
      omega
    · cases h

lemma bigEndian (width : Nat) :
    Counts message (Checked.bigEndian width) (Reader.bigEndian width) := by
  refine (take hsize width).bind fun bytes position behind hread => ?_
  obtain ⟨hlength, -, -⟩ := Reader.take_eq_ok_iff.1 hread
  rw [if_pos hlength]
  exact .pure _

lemma byte : Counts message Checked.byte Readable.read :=
  (bigEndian hsize 1).map UInt8.ofNat

lemma word : Counts message Checked.word Readable.read :=
  (bigEndian hsize 2).map UInt16.ofNat

lemma long : Counts message Checked.long Readable.read :=
  (bigEndian hsize 4).map UInt32.ofNat

lemma flags : Counts message Checked.flags Readable.read :=
  (word hsize).map Flags.ofWord

lemma header : Counts message Checked.header Readable.read := by
  refine (word hsize).bind fun id _ _ _ => ?_
  refine (flags hsize).bind fun flags _ _ _ => ?_
  refine (word hsize).bind fun questionCount _ _ _ => ?_
  refine (word hsize).bind fun answerCount _ _ _ => ?_
  refine (word hsize).bind fun authorityCount _ _ _ => ?_
  exact (word hsize).map fun additionalCount =>
    (⟨id, flags, questionCount, answerCount, authorityCount, additionalCount⟩ : Header)

/-! ### Segments -/

lemma segment : Counts message Checked.segment Segment.read where
  agrees offset hoffset := by
    rw [Checked.segment, Segment.read]
    rcases hbyte : message[offset]? with _ | first
    · exact .refused (by simp)
    -- there is a byte at the offset, so the message goes on up to there
    have hlt := (Array.getElem?_eq_some_iff.1 hbyte).1
    dsimp only
    split
    · rw [Halt.sum_eq (by omega)]
      exact .ok _
    · split
      · by_cases hroom : first.toNat < message.size - offset
        · have hstart := Halt.sum_eq (a := offset) (b := 1) (by omega)
          have hnext := Halt.sum_eq (a := offset + 1) (b := first.toNat) (by omega)
          have hslice : Halt.slice message (offset + 1) first.toNat =
              .ok (message.slice (offset + 1) first.toNat) := Halt.slice_eq (by omega)
          rw [if_pos hroom, if_pos (by omega)]
          simp only [Bind.bind, Except.bind, hstart, hslice, hnext]
          exact .ok _
        · rw [if_neg hroom, if_neg (by omega)]
          exact .refused (by simp)
      · split
        · exact .refused (by simp)
        · rcases hsecond : message[offset + 1]? with _ | second
          · exact .refused (by simp)
          · have hlt' := (Array.getElem?_eq_some_iff.1 hsecond).1
            dsimp only
            rw [Halt.sum_eq (by omega)]
            exact .ok _
  next_le offset hoffset segment next hread := by
    have hnext := (Segment.segmentAt_of_read hread).bounds.2
    rw [Array.length_toList] at hnext
    omega

end

end Counts

/-! ## Names -/

namespace Name.Progress

variable {message : Message} {progress next : Progress}

/-- A step of the loop agrees with one that counts, as long as the limits are kept to. -/
lemma agrees_step (hsize : message.size < maxOffset) (h : progress.WithinLimits)
    (hoffset : progress.offset ≤ maxOffset) :
    Agrees message (progress.checkedStep message) (progress.step message) := by
  obtain ⟨hused, hhops⟩ := h
  have hmax : maxOffset = 2 ^ 64 - 1 := rfl
  rw [maxNameLength] at hused
  rw [maxPointerHops] at hhops
  rw [checkedStep, step]
  obtain ⟨halt, error, hchecked, hread, herror⟩ | ⟨⟨segment, behind⟩, hchecked, hread⟩ :=
    ((Counts.segment hsize).agrees progress.offset hoffset).error_or_ok
  · rw [hchecked, hread]
    exact herror (Progress ⊕ (Name × Nat))
  · rw [hchecked, hread]
    cases segment with
    | terminator => exact .ok _
    | label bytes =>
      have hlength := (Segment.segmentAt_of_read hread).isLabel.2
      rw [maxLabelLength] at hlength
      have htaken := Halt.sum_eq (a := bytes.length) (b := 1) (by omega)
      have hused' := Halt.sum_eq (a := progress.used) (b := bytes.length + 1) (by omega)
      have hwhole := Halt.sum_eq (a := progress.used + (bytes.length + 1)) (b := 1) (by omega)
      simp only [Bind.bind, Except.bind, htaken, hused', hwhole]
      split
      · exact .refused (by simp)
      · rcases Utf8.decode bytes with flaw | text
        · exact .refused (by simp)
        · exact .ok _
    | pointer target =>
      have hhops' := Halt.sum_eq (a := progress.hops) (b := 1) (by omega)
      simp only [Bind.bind, Except.bind, hhops']
      split
      · exact .refused (by simp)
      · split
        · exact .refused (by simp)
        · exact .ok _

/-- The loop goes on at an offset, behind a label or where a pointer leads. -/
lemma offset_le_of_step (hsize : message.size < maxOffset)
    (hstep : progress.step message = .ok (.inl next)) : next.offset ≤ maxOffset := by
  rw [step] at hstep
  split at hstep
  · cases hstep
  · cases hstep
  · rename_i bytes behind hread
    have hbehind := (Segment.segmentAt_of_read hread).bounds.2
    rw [Array.length_toList] at hbehind
    split at hstep
    · cases hstep
    · split at hstep
      · cases hstep
      · cases hstep
        show behind ≤ maxOffset
        omega
  · split at hstep
    · cases hstep
    · split at hstep
      · cases hstep
      · rename_i target _ _ _ _
        cases hstep
        exact Nat.le_trans (Nat.le_of_lt target.toNat_lt) (by decide)

lemma rel_loop (hsize : message.size < maxOffset) (count : Nat) (h : progress.WithinLimits)
    (hoffset : progress.offset ≤ maxOffset) :
    Option.Rel (Agrees message) (checkedLoop message count progress)
      (loop message count progress) := by
  -- a step keeps to the limits and goes on at an offset, which is what the next one needs
  induction count generalizing progress with
  | zero => exact .none
  | succ count ih =>
    rw [checkedLoop, loop]
    obtain ⟨halt, error, hchecked, hstep, herror⟩ | ⟨next | result, hchecked, hstep⟩ :=
      (agrees_step hsize h hoffset).error_or_ok
    · rw [hchecked, hstep]
      exact .some (herror (Name × Nat))
    · rw [hchecked, hstep]
      exact ih (h.step hstep).1 (offset_le_of_step hsize hstep)
    · rw [hchecked, hstep]
      exact .some (.ok _)

end Name.Progress

namespace Counts

variable {message : Message} (hsize : message.size < maxOffset)
include hsize

lemma name : Counts message Checked.name Name.read where
  agrees offset hoffset := by
    have hrel := Name.Progress.rel_loop hsize 256 (Name.Progress.withinLimits_start offset) hoffset
    rw [show Name.loop message 256 (.start offset) = some (Name.read message offset) from
      Name.loop_eq_decode message.toList offset] at hrel
    rw [Checked.name]
    generalize Name.checkedLoop message 256 (.start offset) = checked at hrel ⊢
    cases hrel with
    | some h => exact h
  next_le offset _ name next hread := by
    rw [Name.read_eq_decode] at hread
    have hnext := (Name.decode_bounds hread).2
    rw [Array.length_toList] at hnext
    omega

lemma question : Counts message Checked.question Readable.read := by
  refine (name hsize).bind fun name _ _ _ => ?_
  refine (word hsize).bind fun qtype _ _ _ => ?_
  exact (word hsize).map fun qclass => (⟨name, qtype, qclass⟩ : Question)

lemma record : Counts message Checked.record Readable.read := by
  refine (name hsize).bind fun name _ _ _ => ?_
  refine (word hsize).bind fun rtype _ _ _ => ?_
  refine (word hsize).bind fun rclass _ _ _ => ?_
  refine (long hsize).bind fun ttl _ _ _ => ?_
  refine (bigEndian hsize 2).bind fun length _ _ _ => ?_
  refine position.bind fun dataOffset _ _ _ => ?_
  exact (take hsize length).map fun data =>
    (⟨⟨name, rtype, rclass, ttl, data⟩, dataOffset⟩ : PlacedRecord)

/-! ### Responses -/

lemma records (id : UInt16) : Counts message (Checked.records id) (Answer.records id) := by
  refine (header hsize).bind fun header _ _ _ => ?_
  rcases hrefusal : header.refusal? id with _ | error
  · refine ((question hsize).times _).bind fun _ _ _ _ => ?_
    split
    · exact fail (by simp)
    · exact (record hsize).times _
  · exact fail (Header.ne_truncated_of_refusal? hrefusal)

end Counts

namespace Agrees

variable {message : Message} {record : PlacedRecord}

/-- The data of a record in the message is interpreted within the message. -/
lemma exchange (hsize : message.size < maxOffset)
    (hend : record.dataOffset + record.data.length ≤ message.size) :
    Agrees message (Checked.exchange message record) (record.exchange message) := by
  rw [Checked.exchange, PlacedRecord.exchange]
  split
  · exact .refused (by simp)
  · rename_i hlong
    obtain ⟨high, low, others, hdata⟩ : ∃ high low others, record.data = high :: low :: others := by
      rcases hdata : record.data with _ | ⟨high, _ | ⟨low, others⟩⟩
      · simp [hdata] at hlong
      · simp [hdata] at hlong
      · exact ⟨high, low, others, rfl⟩
    have hhigh : Halt.index record.data 0 = .ok high := by rw [hdata]; rfl
    have hlow : Halt.index record.data 1 = .ok low := by rw [hdata]; rfl
    have hpreference : record.data.take 2 = [high, low] := by rw [hdata]; rfl
    have hstart := Halt.sum_eq (a := record.dataOffset) (b := 2) (by omega)
    have hbehind := Halt.sum_eq (a := record.dataOffset) (b := record.data.length) (by omega)
    simp only [Bind.bind, Except.bind, hhigh, hlow, hstart]
    obtain ⟨halt, error, hchecked, hread, herror⟩ | ⟨⟨host, finish⟩, hchecked, hread⟩ :=
      ((Counts.name hsize).agrees (record.dataOffset + 2) (by omega)).error_or_ok
    · rw [hchecked, hread]
      exact herror AnswerData
    · simp only [hchecked, hread, hbehind, hpreference]
      split
      · exact .refused (by simp)
      · exact .ok _

lemma address (message : Message) (record : PlacedRecord) :
    Agrees message (Halt.ofResult record.address) record.address := by
  rw [PlacedRecord.address]
  split
  · exact .ok _
  · exact .refused (by simp)

lemma answer (hsize : message.size < maxOffset) (type : QueryType)
    (hend : record.dataOffset + record.data.length ≤ message.size) :
    Agrees message (Checked.answer message type record) (record.answer message type) := by
  cases type with
  | a =>
    rw [PlacedRecord.answer_a]
    exact (address message record).bind fun _ _ => .ok _
  | mx =>
    rw [PlacedRecord.answer_mx]
    exact (exchange hsize hend).bind fun _ _ => .ok _

/-- A response is parsed within itself. -/
lemma parse (hsize : message.size < maxOffset) (id : UInt16) (type : RecordType) :
    Agrees message (Checked.parse message id type) (Answer.parse message.toList id type) := by
  rw [Checked.parse, Answer.parse]
  rcases type.queryType? with _ | type
  · exact .refused (by simp)
  dsimp only
  rw [Answer.ofMessage, Reader.run, Array.toArray_toList]
  obtain ⟨halt, error, hchecked, hread, herror⟩ | ⟨⟨records, finish⟩, hchecked, hread⟩ :=
    ((Counts.records hsize id).agrees 0 (Nat.zero_le _)).error_or_ok
  · rw [hchecked, hread]
    exact herror Answer
  · rw [hchecked, hread]
    simp only [Bind.bind, Except.bind]
    cases hfind : records.find? (·.rtype = type.code) with
    | none => exact .refused (by simp)
    | some record =>
      -- the record was read from the message, so its data is in there
      obtain ⟨_, _, -, -, -, hall⟩ := records_eq_ok_iff.1 hread
      obtain ⟨_, _, hat⟩ := hall.of_mem (List.mem_of_find?_eq_some hfind)
      obtain ⟨_, -, -, -, -, rfl, -, hend⟩ := hat
      rw [Array.length_toList] at hend
      exact answer hsize type hend

end Agrees

/-- What the reader takes of a message begins inside of it and is not empty. -/
def Reader.Advances {α : Type} (message : Message) (reader : Reader α) : Prop :=
  ∀ start value finish, reader message start = .ok (value, finish) →
    start < finish ∧ finish ≤ message.size

/-- **Reading never computes an offset that is out of range.**  From every offset of 64 bits on,
the readers of a message come to what they come to when they count without bound: no sum goes over
the greatest offset, no bytes are taken that are not in the message, and bytes are missed only
where so many of them do not fit.  The same holds of the response as a whole.  A name, a question
or a record that is read takes up some bytes of the message. -/
theorem counts_readers (message : Message) (hsize : message.size < 2 ^ 63) :
    (∀ count, Counts message (Checked.skip count) (Reader.skip count)) ∧
    (∀ count, Counts message (Checked.take count) (Reader.take count)) ∧
    Counts message Checked.byte (Readable.read : Reader UInt8) ∧
    Counts message Checked.word (Readable.read : Reader UInt16) ∧
    Counts message Checked.long (Readable.read : Reader UInt32) ∧
    Counts message Checked.flags (Readable.read : Reader Flags) ∧
    Counts message Checked.header (Readable.read : Reader Header) ∧
    Counts message Checked.segment (Readable.read : Reader Segment) ∧
    Counts message Checked.name (Readable.read : Reader Name) ∧
    Counts message Checked.question (Readable.read : Reader Question) ∧
    Counts message Checked.record (Readable.read : Reader PlacedRecord) ∧
    (∀ id type, Agrees message (Checked.parse message id type)
      (Answer.parse message.toList id type)) ∧
    Reader.Advances message (Readable.read : Reader Name) ∧
    Reader.Advances message (Readable.read : Reader Question) ∧
    Reader.Advances message (Readable.read : Reader PlacedRecord) := by
  have hlt : message.size < maxOffset := Nat.lt_trans hsize (by decide)
  refine ⟨.skip hlt, .take hlt, .byte hlt, .word hlt, .long hlt, .flags hlt, .header hlt,
    .segment hlt, .name hlt, .question hlt, .record hlt, .parse hlt, ?_, ?_, ?_⟩
  · intro start name finish hread
    have hname : Name.read message start = .ok (name, finish) := hread
    rw [Name.read_eq_decode] at hname
    simpa using Name.decode_bounds hname
  · intro start question finish hread
    obtain ⟨_, -, -, -, hbounds⟩ := question_read_iff.1 hread
    simpa using hbounds
  · intro start record finish hread
    obtain ⟨_, -, -, -, -, -, hbounds⟩ := record_read_iff.1 hread
    simpa using hbounds

/-- The case of a name at offset 3 that goes on in front of it, and of reading at the greatest
offsets: there a word is missed, and nothing can be taken. -/
theorem counts_readers_pointer :
    Agrees #[1, 97, 0, 192, 0] (Checked.name #[1, 97, 0, 192, 0] 3) (.ok (⟨"a"⟩, 5)) ∧
    Agrees #[1, 97, 0, 192, 0] (.error (.missing (2 ^ 64 - 2) 2) : Except Halt (UInt16 × Nat))
      (.error (.truncated (2 ^ 64 - 1) 5)) ∧
    Agrees #[1, 97, 0, 192, 0] (.ok ([], 2 ^ 64 - 1)) (.ok (([] : Bytes), 2 ^ 64 - 1)) := by
  obtain ⟨-, htake, -, hword, -, -, -, -, hname, -⟩ :=
    counts_readers #[1, 97, 0, 192, 0] (by decide)
  refine ⟨?_, ?_, ?_⟩
  · have hread : Name.read #[1, 97, 0, 192, 0] 3 = .ok (⟨"a"⟩, 5) := by decide +kernel
    have hagrees := hname.agrees 3 (by decide)
    rwa [show (Readable.read : Reader Name) = Name.read from rfl, hread] at hagrees
  · exact hword.agrees (2 ^ 64 - 2) (by decide)
  · exact (htake 0).agrees (2 ^ 64 - 1) (by decide)

end StubResolver
