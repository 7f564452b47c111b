/-
# Writing in place

The writers of this library say which bytes to put, and only then are these laid over the start
of a buffer.  One can also work on the buffer itself: make sure that there is room for a field,
copy the pieces of the field, and hand the slice behind it to the next field.  Then every copy
and every slice has to lie inside of the buffer, and `InPlace` tells apart whether a value was
refused or the buffer was left (`Fault`).

Both ways of writing come to the same (`Contract.inPlace_eq`), so the buffer is never left.  This
is one of the parts of the contract that every writer keeps to.  The others are that it puts one
wire form, of which the bytes are determined by the value, that it does so only if there is room,
and that with room for it nothing but a part that is too long is a reason not to.  Writers that
follow one another keep to the contract if each of them does (`Contract.append`), and so does
every item (`Item.writeInto_contract`).
-/
import StubResolver.Item
import StubResolver.Proofs.Name.Scan
import StubResolver.Proofs.Response.WireForm

namespace StubResolver

/-- Why writing in place comes to nothing. -/
inductive Fault where
  /-- The value is refused. -/
  | refused (error : WireError)
  /-- A slice does not lie inside of what it is taken of. -/
  | outOfRange
deriving DecidableEq, Repr

/-- From a buffer, how many bytes of it are written, and the buffer after that. -/
def InPlace : Type :=
  Bytes → Except Fault (Nat × Bytes)

namespace InPlace

/-- Refuses the value. -/
def fail (error : WireError) : InPlace :=
  fun _ => .error (.refused error)

/-- Copies pieces into a buffer, one behind the other, the first of them to `start`. -/
def copy (start : Nat) : List Bytes → Bytes → Except Fault Bytes
  | [], buffer => .ok buffer
  | piece :: pieces, buffer =>
    if start + piece.length ≤ buffer.length then
      copy (start + piece.length) pieces
        (buffer.take start ++ piece ++ buffer.drop (start + piece.length))
    else .error .outOfRange

/-- Makes sure that there is room for all of the pieces, and copies them. -/
def put (pieces : List Bytes) : InPlace := fun buffer =>
  if buffer.length < pieces.flatten.length then
    .error (.refused (.notEnoughSpace pieces.flatten.length buffer.length))
  else (copy 0 pieces buffer).map fun after => (pieces.flatten.length, after)

/-- Writes what `first` writes, and what `second` writes into the slice behind it. -/
def andThen (first second : InPlace) : InPlace := fun buffer =>
  match first buffer with
  | .error fault => .error fault
  | .ok (index, buffer) =>
    if index ≤ buffer.length then
      match second (buffer.drop index) with
      | .error fault => .error fault
      | .ok (count, rest) => .ok (index + count, buffer.take index ++ rest)
    else .error .outOfRange

instance : Append InPlace where
  append := andThen

end InPlace

/-! ## Items in place -/

/-- A word as a single piece. -/
def InPlace.word (word : UInt16) : InPlace :=
  .put [Bytes.toBigEndian 2 word.toNat]

namespace Segment

/-- The wire form of a segment. -/
def wire : Segment → Bytes
  | terminator => [0]
  | label bytes => labelBytes bytes
  | pointer target => pointerBytes target

/-- Writes a segment in place, a label behind its length. -/
def inPlace : Segment → InPlace
  | terminator => .put [[0]]
  | label bytes =>
    if maxLabelLength < bytes.length then .fail (.labelTooLong bytes.length)
    else .put [[UInt8.ofNat bytes.length], bytes]
  | pointer target => .put [pointerBytes target]

end Segment

/-- Writes segments in place, one after the other. -/
def InPlace.segments (segments : List Segment) : InPlace :=
  segments.foldl (fun written segment => written ++ segment.inPlace) (.put [])

/-- Writes a name in place, segment by segment, if it is not too long and there is room for
all of it. -/
def Name.inPlace (name : Name) : InPlace := fun buffer =>
  match name.scan? with
  | none => .error .outOfRange
  | some labels =>
    match labels.find? (maxLabelLength < ·.length) with
    | some label => .error (.refused (.labelTooLong label.length))
    | none =>
      if maxNameLength < wireLength labels then
        .error (.refused (.nameTooLong (wireLength labels)))
      else if buffer.length < wireLength labels then
        .error (.refused (.notEnoughSpace (wireLength labels) buffer.length))
      else InPlace.segments (labels.map .label ++ [.terminator]) buffer

/-- Writes a header in place. -/
def Header.inPlace (header : Header) : InPlace :=
  .word header.id ++ .word header.flags.word ++
  .word header.questionCount ++ .word header.answerCount ++
  .word header.authorityCount ++ .word header.additionalCount

/-- Writes a question in place. -/
def Question.inPlace (question : Question) : InPlace :=
  question.name.inPlace ++ .word question.qtype ++ .word question.qclass

namespace Record

/-- Writes the data of a record in place, behind its length. -/
def dataInPlace (data : Bytes) : InPlace :=
  if UInt16.size ≤ data.length then .fail (.recordDataTooLong data.length)
  else .put [Bytes.toBigEndian 2 data.length, data]

/-- Writes a record in place. -/
def inPlace (record : Record) : InPlace :=
  record.name.inPlace ++ .word record.rtype ++ .word record.rclass ++
  .put [Bytes.toBigEndian 4 record.ttl.toNat] ++ dataInPlace record.data

end Record

namespace Item

/-- The wire form of an item. -/
def wire : Item → Bytes
  | byte value => Bytes.toBigEndian 1 value.toNat
  | word value => Bytes.toBigEndian 2 value.toNat
  | long value => Bytes.toBigEndian 4 value.toNat
  | flags value => Bytes.toBigEndian 2 value.word.toNat
  | header value => value.wire
  | question value => value.wire
  | record value => value.wire
  | name value => Name.wireForm value.segments
  | segment value => value.wire

/-- Writes an item in place. -/
def inPlace : Item → InPlace
  | byte value => .put [Bytes.toBigEndian 1 value.toNat]
  | word value => .word value
  | long value => .put [Bytes.toBigEndian 4 value.toNat]
  | flags value => .word value.word
  | header value => value.inPlace
  | question value => value.inPlace
  | record value => value.inPlace
  | name value => value.inPlace
  | segment value => value.inPlace

/-- The item is refused for a part that is too long: a label of more than 63 bytes, a name of
more than 255, or data of more than 65535. -/
inductive TooLong : Item → WireError → Prop
  | label {bytes : Bytes} : 63 < bytes.length →
      TooLong (.segment (.label bytes)) (.labelTooLong bytes.length)
  | name {name : Name} {error : WireError} : name.TooLong error → TooLong (.name name) error
  | question {question : Question} {error : WireError} : question.name.TooLong error →
      TooLong (.question question) error
  | record {record : Record} {error : WireError} : record.name.TooLong error →
      TooLong (.record record) error
  | data {record : Record} : 65535 < record.data.length →
      TooLong (.record record) (.recordDataTooLong record.data.length)

end Item

/-- The labels of a name and its terminator are its wire form. -/
lemma Segment.flatMap_wire (labels : List Bytes) :
    (labels.map label ++ [terminator]).flatMap wire = Name.wireForm labels := by
  rw [List.flatMap_append, List.flatMap_map]
  rfl

/-- Of labels none of which is too long and a terminator no segment is refused. -/
lemma Segment.not_tooLong_of_mem {labels : List Bytes}
    (hlabels : ∀ label ∈ labels, label.length ≤ maxLabelLength) :
    ∀ segment ∈ labels.map label ++ [terminator],
      ∀ error, ¬Item.TooLong (.segment segment) error := by
  intro segment hmem error hlong
  cases hlong with
  | @label bytes hbytes =>
    have hle := hlabels bytes (by simpa using hmem)
    rw [maxLabelLength] at hle
    omega

/-! ## The contract of writers -/

/-- What a writer puts, laid over the start of a buffer. -/
def Writer.over (writer : Writer) (buffer : Bytes) : Except Fault (Nat × Bytes) :=
  match writer buffer.length with
  | .error error => .error (.refused error)
  | .ok bytes => .ok (bytes.length, bytes ++ buffer.drop bytes.length)

/-- The contract of a writer with one wire form: writing in place is laying over the buffer what
the writer puts, it puts the wire form if anything, and only if there is room, and if there is
room it fails for the given reasons only. -/
structure Contract (writer : Writer) (inPlace : InPlace) (wire : Bytes)
    (Reason : WireError → Prop) : Prop where
  inPlace_eq : ∀ buffer, inPlace buffer = writer.over buffer
  ok : ∀ room bytes, writer room = .ok bytes → bytes = wire ∧ wire.length ≤ room
  error : ∀ room error, wire.length ≤ room → writer room = .error error → Reason error

namespace Contract

variable {first second writer : Writer} {firstInPlace secondInPlace inPlace : InPlace}
  {bytes others wire : Bytes} {FirstReason SecondReason Reason Reason' : WireError → Prop}

lemma imp (h : Contract writer inPlace wire Reason)
    (hreason : ∀ error, Reason error → Reason' error) :
    Contract writer inPlace wire Reason' where
  inPlace_eq := h.inPlace_eq
  ok := h.ok
  error room error hroom herror := hreason error (h.error room error hroom herror)

/-- A writer without reasons to fail keeps to the contract with any. -/
lemma of_false (h : Contract writer inPlace wire (fun _ => False)) :
    Contract writer inPlace wire Reason :=
  h.imp fun _ => False.elim

lemma fail {error : WireError} (hreason : Reason error) :
    Contract (.fail error) (.fail error) wire Reason where
  inPlace_eq _ := rfl
  ok _ _ h := by cases h
  error _ _ _ h := by
    cases h
    exact hreason

lemma copy_append (front : Bytes) (pieces : List Bytes) {rest : Bytes}
    (hroom : pieces.flatten.length ≤ rest.length) :
    InPlace.copy front.length pieces (front ++ rest) =
      .ok (front ++ pieces.flatten ++ rest.drop pieces.flatten.length) := by
  induction pieces generalizing front rest with
  | nil => simp [InPlace.copy]
  | cons piece pieces ih =>
    rw [List.flatten_cons, List.length_append] at hroom ⊢
    have hnext := ih (front ++ piece) (show _ ≤ (rest.drop piece.length).length by
      rw [List.length_drop]
      omega)
    rw [List.length_append] at hnext
    rw [InPlace.copy, if_pos (by rw [List.length_append]; omega), List.take_left,
      List.drop_append, List.drop_of_length_le (by omega), Nat.add_sub_cancel_left,
      List.nil_append, hnext, List.drop_drop, List.append_assoc front]

/-- Pieces for which there is room are copied without leaving the buffer. -/
lemma put (pieces : List Bytes) :
    Contract (.put pieces.flatten) (.put pieces) pieces.flatten (fun _ => False) where
  inPlace_eq buffer := by
    rw [InPlace.put, Writer.over, Writer.put]
    split
    · rfl
    · rename_i hroom
      have hcopy := copy_append [] pieces (Nat.not_lt.1 hroom)
      rw [List.nil_append, List.length_nil, List.nil_append] at hcopy
      rw [hcopy]
      rfl
  ok room bytes h := by
    obtain ⟨-, hroom, rfl⟩ := (Writer.puts_put pieces.flatten room bytes).1 h
    exact ⟨rfl, hroom⟩
  error room error hroom h := by
    rw [Writer.put, if_neg (Nat.not_lt.2 hroom)] at h
    cases h

lemma field (bytes : Bytes) : Contract (.put bytes) (.put [bytes]) bytes (fun _ => False) := by
  simpa using put [bytes]

/-- The second field is written into the slice behind the first one. -/
lemma append (h : Contract first firstInPlace bytes FirstReason)
    (h' : Contract second secondInPlace others SecondReason) :
    Contract (first ++ second) (firstInPlace ++ secondInPlace) (bytes ++ others)
      (fun error => FirstReason error ∨ SecondReason error) where
  inPlace_eq buffer := by
    show InPlace.andThen firstInPlace secondInPlace buffer = _
    rw [InPlace.andThen, h.inPlace_eq, Writer.over, Writer.over, Writer.append_apply]
    rcases first buffer.length with error | out
    · rfl
    · simp only [List.drop_left, List.take_left]
      rw [if_pos (by simp), h'.inPlace_eq, Writer.over, List.length_drop]
      rcases second (buffer.length - out.length) with error | rest
      · rfl
      · simp
  ok room out hout := by
    rw [Writer.append_apply] at hout
    split at hout
    · cases hout
    · rename_i hfirst
      obtain ⟨rfl, hroom⟩ := h.ok _ _ hfirst
      split at hout
      · cases hout
      · rename_i hsecond
        obtain ⟨rfl, hroom'⟩ := h'.ok _ _ hsecond
        obtain rfl := Except.ok.inj hout
        rw [List.length_append]
        exact ⟨rfl, by omega⟩
  error room error hroom herror := by
    rw [List.length_append] at hroom
    rw [Writer.append_apply] at herror
    split at herror
    · rename_i hfirst
      cases herror
      exact .inl (h.error _ _ (by omega) hfirst)
    · rename_i hfirst
      obtain ⟨rfl, -⟩ := h.ok _ _ hfirst
      split at herror
      · rename_i hsecond
        cases herror
        exact .inr (h'.error _ _ (by omega) hsecond)
      · cases herror

/-- With room for its wire form, a writer without reasons to fail puts it. -/
lemma inPlace_eq_ok (h : Contract writer inPlace wire (fun _ => False)) {buffer : Bytes}
    (hroom : wire.length ≤ buffer.length) :
    inPlace buffer = .ok (wire.length, wire ++ buffer.drop wire.length) := by
  rw [h.inPlace_eq, Writer.over]
  rcases hout : writer buffer.length with error | bytes
  · exact (h.error _ _ hroom hout).elim
  · obtain ⟨rfl, -⟩ := h.ok _ _ hout
    rfl

/-! ### Segments and names -/

lemma segment (segment : Segment) : Contract (write segment) segment.inPlace segment.wire
    (Item.TooLong (.segment segment)) := by
  cases segment with
  | terminator => exact (field [0]).of_false
  | pointer target => exact (field (Segment.pointerBytes target)).of_false
  | label bytes =>
    show Contract (Segment.write (.label bytes)) _ _ _
    rw [Segment.write, Segment.inPlace]
    split
    · rename_i hlong
      exact fail (.label hlong)
    · have hput := put [[UInt8.ofNat bytes.length], bytes]
      rw [List.flatten_cons, List.flatten_cons, List.flatten_nil, List.append_nil,
        List.singleton_append] at hput
      exact hput.of_false

lemma foldl_segments {segments : List Segment}
    (hsegments : ∀ segment ∈ segments, ∀ error, ¬Item.TooLong (.segment segment) error)
    (h : Contract writer inPlace wire (fun _ => False)) :
    ∃ all, Contract all
      (segments.foldl (fun written segment => written ++ segment.inPlace) inPlace)
      (wire ++ segments.flatMap Segment.wire) (fun _ => False) := by
  -- what is written so far grows by one segment after the other
  induction segments generalizing writer inPlace wire with
  | nil => exact ⟨writer, by simpa using h⟩
  | cons next segments ih =>
    rw [List.forall_mem_cons] at hsegments
    have hnext := (h.append (segment next)).imp
      fun error herror => herror.elim id (hsegments.1 error)
    obtain ⟨all, hall⟩ := ih hsegments.2 hnext
    exact ⟨all, by simpa using hall⟩

/-- Labels none of which is too long, and the terminator behind them, are the wire form of a
name. -/
lemma segments {labels : List Bytes} (hlabels : ∀ label ∈ labels, label.length ≤ maxLabelLength) :
    ∃ all, Contract all (.segments (labels.map .label ++ [Segment.terminator]))
      (Name.wireForm labels)
      (fun _ => False) := by
  obtain ⟨all, hall⟩ := foldl_segments (Segment.not_tooLong_of_mem hlabels) (put [])
  rw [Segment.flatMap_wire, List.flatten_nil, List.nil_append] at hall
  exact ⟨all, hall⟩

lemma name_of_withinLimits {name : Name} (h : name.WithinLimits) :
    Contract (write name) name.inPlace (Name.wireForm name.segments) (fun _ => False) := by
  have hput := field (Name.wireForm name.segments)
  show Contract (Name.write name) _ _ _
  rw [Name.write_of_withinLimits h]
  refine ⟨fun buffer => ?_, hput.ok, hput.error⟩
  rw [Name.inPlace, Name.scan?_eq]
  simp only [Name.find?_eq_none_iff.2 h.1, if_neg (Nat.not_lt.2 h.2)]
  rw [Writer.over, Writer.put, Name.length_wireForm]
  split
  · rfl
  · rename_i hroom
    obtain ⟨all, hall⟩ := segments h.1
    rw [hall.inPlace_eq_ok (by rw [Name.length_wireForm]; omega)]

lemma inPlace_of_tooLong {name : Name} {error : WireError} (h : name.TooLong error) :
    name.inPlace = .fail error := by
  funext buffer
  rw [Name.inPlace, Name.scan?_eq]
  cases h with
  | label hsegments hbefore hlong =>
    simp only [Name.find?_eq_some_iff.2 ⟨hlong, _, _, hsegments, hbefore⟩, InPlace.fail]
  | whole hshort hlong =>
    simp only [Name.find?_eq_none_iff.2 hshort, if_pos hlong, InPlace.fail]

/-- A name is refused before any of it is written. -/
lemma name (name : Name) :
    Contract (write name) name.inPlace (Name.wireForm name.segments) name.TooLong := by
  rcases name.withinLimits_or_tooLong with hlimits | ⟨error, hlong⟩
  · exact (name_of_withinLimits hlimits).of_false
  · have hwrite : write name = .fail error := hlong.write_eq
    rw [hwrite, inPlace_of_tooLong hlong]
    exact fail hlong

/-! ### Sections and items -/

lemma word (word : UInt16) : Contract (write word) (.word word)
    (Bytes.toBigEndian 2 word.toNat) (fun _ => False) :=
  field _

lemma header (header : Header) :
    Contract (write header) header.inPlace header.wire (fun _ => False) := by
  have h := (((((word header.id).append (word header.flags.word)).append
    (word header.questionCount)).append (word header.answerCount)).append
    (word header.authorityCount)).append (word header.additionalCount)
  exact h.imp (by simp)

lemma question (question : Question) :
    Contract (write question) question.inPlace question.wire question.name.TooLong := by
  have h := ((name question.name).append (word question.qtype)).append (word question.qclass)
  exact h.imp (by simp)

lemma data (data : Bytes) : Contract (Record.writeData data) (Record.dataInPlace data)
    (Bytes.toBigEndian 2 data.length ++ data)
    (fun error => 65535 < data.length ∧ error = .recordDataTooLong data.length) := by
  rw [Record.writeData, Record.dataInPlace]
  split
  · rename_i hlong
    exact fail ⟨Nat.lt_of_succ_le hlong, rfl⟩
  · have hput := put [Bytes.toBigEndian 2 data.length, data]
    rw [List.flatten_cons, List.flatten_cons, List.flatten_nil, List.append_nil] at hput
    exact hput.of_false

lemma record (record : Record) : Contract (write record) record.inPlace record.wire
    (Item.TooLong (.record record)) := by
  have h := ((((name record.name).append (word record.rtype)).append
    (word record.rclass)).append (field (Bytes.toBigEndian 4 record.ttl.toNat))).append
    (data record.data)
  have hwire : Name.wireForm record.name.segments ++ Bytes.toBigEndian 2 record.rtype.toNat ++
      Bytes.toBigEndian 2 record.rclass.toNat ++ Bytes.toBigEndian 4 record.ttl.toNat ++
      (Bytes.toBigEndian 2 record.data.length ++ record.data) = record.wire := by
    simp only [Record.wire, Record.fields, List.append_assoc]
  rw [hwire] at h
  refine h.imp fun error herror => ?_
  rcases herror with (((hname | h) | h) | h) | ⟨hdata, rfl⟩
  · exact .record hname
  · exact h.elim
  · exact h.elim
  · exact h.elim
  · exact .data hdata

lemma item (item : Item) :
    Contract (write item) item.inPlace item.wire item.TooLong := by
  cases item with
  | byte value => exact (field (Bytes.toBigEndian 1 value.toNat)).of_false
  | word value => exact (word value).of_false
  | long value => exact (field (Bytes.toBigEndian 4 value.toNat)).of_false
  | flags value => exact (word value.word).of_false
  | header value => exact (header value).of_false
  | question value => exact (question value).imp fun _ => .question
  | record value => exact record value
  | name value => exact (name value).imp fun _ => .name
  | segment value => exact segment value

end Contract

lemma Segment.length_wire (segment : Segment) : segment.wire.length = size segment := by
  cases segment with
  | terminator => rfl
  | label bytes => exact Nat.add_comm _ _
  | pointer target => rfl

/-- The size of an item is the length of its wire form. -/
lemma Item.length_wire (item : Item) : item.wire.length = size item := by
  cases item with
  | byte value => exact Bytes.length_toBigEndian 1 _
  | word value => exact Bytes.length_toBigEndian 2 _
  | long value => exact Bytes.length_toBigEndian 4 _
  | flags value => exact Bytes.length_toBigEndian 2 _
  | header value => exact value.length_wire
  | question value => exact value.size_eq.symm
  | record value => exact value.size_eq.symm
  | name value => exact Name.length_wireForm _
  | segment value => exact value.length_wire

/-- **Every item is written by the same contract.**  If it is written then in as many bytes as
its size says, for which there is room; these bytes are determined by the item, and all others
stay.  Without this room it is not written, and with it only parts that are too long are refused.
Nothing is refused for another reason when it is written in place, so no slice leaves the
buffer. -/
theorem Item.writeInto_contract (item : Item) (buffer : Bytes) :
    (∀ count after, writeInto item buffer = .ok (count, after) →
      count = size item ∧ size item ≤ buffer.length ∧ after.length = buffer.length ∧
        after.take count = item.wire ∧ after.drop count = buffer.drop count) ∧
    (buffer.length < size item → ∃ error, writeInto item buffer = .error error) ∧
    (size item ≤ buffer.length → ∀ error, writeInto item buffer = .error error →
      item.TooLong error) ∧
    item.inPlace buffer = (writeInto item buffer).mapError .refused := by
  have h := Contract.item item
  rw [← item.length_wire, h.inPlace_eq, Writer.over, writeInto]
  rcases hwrite : write item buffer.length with error | bytes
  · refine ⟨?_, fun _ => ⟨error, rfl⟩, ?_, rfl⟩
    · intro count after hafter
      cases hafter
    · intro hroom error' herror
      cases herror
      exact h.error _ _ hroom hwrite
  · obtain ⟨rfl, hroom⟩ := h.ok _ _ hwrite
    refine ⟨?_, fun hshort => absurd hroom (Nat.not_le.2 hshort), ?_, rfl⟩
    · intro count after hafter
      obtain ⟨rfl, rfl⟩ := Prod.mk.inj (Except.ok.inj hafter)
      refine ⟨rfl, hroom, ?_, List.take_left, List.drop_left⟩
      rw [List.length_append, List.length_drop]
      omega
    · intro _ error herror
      cases herror

/-- The case of a record with two bytes more than it takes, and with one byte less, and of a
label that is too long. -/
theorem Item.writeInto_contract_record :
    (∃ after, writeInto (record ⟨⟨"a..b."⟩, 1, 1, 60, [10, 0, 0, 1]⟩)
        (List.replicate 21 170) = .ok (19, after) ∧
      after.take 19 = [1, 97, 1, 98, 0, 0, 1, 0, 1, 0, 0, 0, 60, 0, 4, 10, 0, 0, 1] ∧
      after.drop 19 = [170, 170]) ∧
    (∃ error, writeInto (record ⟨⟨"a..b."⟩, 1, 1, 60, [10, 0, 0, 1]⟩)
      (List.replicate 18 170) = .error error) ∧
    Item.TooLong (segment (.label (List.replicate 64 97))) (.labelTooLong 64) := by
  obtain ⟨hwritten, -, -, -⟩ := writeInto_contract (record ⟨⟨"a..b."⟩, 1, 1, 60, [10, 0, 0, 1]⟩)
    (List.replicate 21 170)
  obtain ⟨-, hshort, -, -⟩ := writeInto_contract (record ⟨⟨"a..b."⟩, 1, 1, 60, [10, 0, 0, 1]⟩)
    (List.replicate 18 170)
  obtain ⟨-, -, hlong, -⟩ := writeInto_contract (segment (.label (List.replicate 64 97)))
    (List.replicate 65 0)
  refine ⟨?_, hshort (by decide), hlong (by decide) _ (by decide)⟩
  obtain ⟨after, hafter⟩ : ∃ after, writeInto (record ⟨⟨"a..b."⟩, 1, 1, 60, [10, 0, 0, 1]⟩)
    (List.replicate 21 170) = .ok (19, after) := ⟨_, rfl⟩
  obtain ⟨-, -, -, htake, hdrop⟩ := hwritten 19 after hafter
  exact ⟨after, hafter, htake, hdrop⟩

end StubResolver
