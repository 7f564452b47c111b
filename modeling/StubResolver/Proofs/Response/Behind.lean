/-
# What stands behind the answers

The authorities and the additional records of a response, which stand behind its answers, are
not parsed.  But a name of an answer may lead to a label that reaches into them, and then what
is read there is a part of the answer: two responses that agree up to the end of their answers
may name two different mail exchanges (`not_determined_by_answers`).

This takes a pointer whose two bytes stand in a text, so it does not happen in responses whose
answers end at offset 642 or before, such as all those that fit into the smallest buffer.  In
general what stands behind the answers matters exactly if the response is not answered without
it (`parse_take_append`).
-/
import StubResolver.Proofs.Name.Compressed
import StubResolver.Proofs.Name.Reach
import StubResolver.Proofs.Response.Cut

namespace StubResolver

variable {message : Bytes} {offset bound : Nat}

/-! ## Entries in front of a bound -/

lemma QuestionAt.take {question : Question} {start finish : Nat}
    (h : QuestionAt message question start finish) (hle : finish ≤ bound) (hbound : bound ≤ 642) :
    QuestionAt (message.take bound) question start finish := by
  obtain ⟨nameEnd, hname, hfields, rfl, hlt, hend⟩ := h
  refine ⟨nameEnd, Name.decode_take hname (by omega) hbound, hfields.take ?_, rfl, hlt, ?_⟩
  · rw [List.length_append, Bytes.length_toBigEndian, Bytes.length_toBigEndian]
    omega
  · rw [List.length_take]
    omega

lemma RecordAt.take {record : PlacedRecord} {start finish : Nat}
    (h : RecordAt message record start finish) (hle : finish ≤ bound) (hbound : bound ≤ 642) :
    RecordAt (message.take bound) record start finish := by
  obtain ⟨nameEnd, hname, hfields, hlong, hoffset, rfl, hlt, hend⟩ := h
  refine ⟨nameEnd, Name.decode_take hname (by omega) hbound, hfields.take ?_, hlong, hoffset, rfl,
    hlt, ?_⟩
  · rw [Record.length_fields]
    omega
  · rw [List.length_take]
    omega

lemma AcceptedHeader.take {id : UInt16} {questions answers : Nat}
    (h : AcceptedHeader message id questions answers) (hle : 12 ≤ bound) :
    AcceptedHeader (message.take bound) id questions answers := by
  obtain ⟨header, hat, hrest⟩ := acceptedHeader_iff.1 h
  refine acceptedHeader_iff.2 ⟨header, hat.take ?_, hrest⟩
  rw [Header.length_wire]
  exact hle

lemma Consecutive.le {α : Type} {Entry : α → Nat → Nat → Prop} {values : List α}
    {start finish : Nat} (h : Consecutive Entry values start finish)
    (hentry : ∀ value o p, Entry value o p → o ≤ p) : start ≤ finish := by
  induction h with
  | nil => exact Nat.le_refl _
  | cons hfirst _ ih => exact Nat.le_trans (hentry _ _ _ hfirst) ih

/-- Entries that follow one another can be replaced one by one, each being in front of the end
of the last. -/
lemma Consecutive.imp {α : Type} {Entry Entry' : α → Nat → Nat → Prop} {values : List α}
    {start finish : Nat} (h : Consecutive Entry values start finish)
    (hentry : ∀ value o p, Entry value o p → o ≤ p)
    (himp : ∀ value o p, Entry value o p → p ≤ finish → Entry' value o p) :
    Consecutive Entry' values start finish := by
  induction h with
  | nil => exact .nil
  | cons hfirst hothers ih =>
    exact .cons (himp _ _ _ hfirst (hothers.le hentry)) (ih himp)

lemma QuestionAt.le {question : Question} {start finish : Nat}
    (h : QuestionAt message question start finish) : start ≤ finish := by
  obtain ⟨_, -, -, -, hlt, -⟩ := h
  exact Nat.le_of_lt hlt

lemma RecordAt.le {record : PlacedRecord} {start finish : Nat}
    (h : RecordAt message record start finish) : start ≤ finish := by
  obtain ⟨_, -, -, -, -, -, hlt, -⟩ := h
  exact Nat.le_of_lt hlt

lemma PlacedRecord.Gives.take {record : PlacedRecord} {type : QueryType} {data : AnswerData}
    (h : record.Gives message type data) (hle : record.dataOffset + record.data.length ≤ bound)
    (hbound : bound ≤ 642) : record.Gives (message.take bound) type data := by
  cases h with
  | address hdata => exact .address hdata
  | exchange hlength hpreference hname hend =>
    exact .exchange hlength hpreference (Name.decode_take hname (by omega) hbound) hend

/-! ## Responses without what stands behind their answers -/

namespace Answer

variable {id : UInt16} {records : List PlacedRecord} {finish : Nat} {answer : Answer}

lemma records_take (h : Answer.records id message.toArray 0 = .ok (records, finish))
    (hfinish : finish ≤ 642) :
    Answer.records id (message.take finish).toArray 0 = .ok (records, finish) ∧
      ∀ record ∈ records, record.dataOffset + record.data.length ≤ finish := by
  obtain ⟨questions, middle, hheader, hquestions, hpos, hrecords⟩ := records_eq_ok_iff.1 h
  have hstart := hquestions.le fun _ _ _ => QuestionAt.le
  have hmiddle := hrecords.le fun _ _ _ => RecordAt.le
  have hquestions' : Consecutive (QuestionAt (message.take finish)) questions 12 middle :=
    hquestions.imp (fun _ _ _ => QuestionAt.le) fun _ _ _ hquestion hle =>
      hquestion.take (by omega) hfinish
  have hrecords' : Consecutive (RecordAt (message.take finish)) records middle finish :=
    hrecords.imp (fun _ _ _ => RecordAt.le) fun _ _ _ hrecord hle => hrecord.take hle hfinish
  refine ⟨records_eq_ok_iff.2 ⟨questions, middle, hheader.take (by omega), hquestions', hpos,
    hrecords'⟩, ?_⟩
  intro record hrecord
  obtain ⟨o, p, _, -, -, -, -, rfl, -, hend⟩ := hrecords'.of_mem hrecord
  rw [List.length_take] at hend
  omega

lemma ofMessage_take {type : QueryType} (h : ofMessage message id type = .ok answer)
    (hrecords : Answer.records id message.toArray 0 = .ok (records, finish))
    (hfinish : finish ≤ 642) : ofMessage (message.take finish) id type = .ok answer := by
  obtain ⟨before, record, after, finish', hrecords', hbefore, htype, hanswer⟩ :=
    ofMessage_eq_ok_iff.1 h
  rw [hrecords] at hrecords'
  obtain ⟨rfl, rfl⟩ := Prod.mk.inj (Except.ok.inj hrecords')
  obtain ⟨hread, hends⟩ := records_take hrecords hfinish
  obtain ⟨hname, httl, hgives⟩ := PlacedRecord.answer_eq_ok_iff.1 hanswer
  have hend := hends record (List.mem_append_right before List.mem_cons_self)
  exact ofMessage_eq_ok_iff.2 ⟨before, record, after, finish, hread, hbefore, htype,
    PlacedRecord.answer_eq_ok_iff.2 ⟨hname, httl, hgives.take hend hfinish⟩⟩

lemma parse_take_of_le {type : RecordType} (h : parse message id type = .ok answer)
    (hrecords : Answer.records id message.toArray 0 = .ok (records, finish))
    (hfinish : finish ≤ 642) : parse (message.take finish) id type = .ok answer := by
  rw [parse] at h ⊢
  split at h
  · cases h
  · exact ofMessage_take h hrecords hfinish

/-- **What stands behind the answers does not matter to a response that is answered without
it**, and to no other.  A response is answered without it if its answers end at offset 642 or
before. -/
theorem parse_take_append (message : Bytes) (id : UInt16) (type : RecordType) (answer : Answer)
    (h : parse message id type = .ok answer) :
    ∃ finish, (∀ offset, AnswersEnd message offset ↔ offset = finish) ∧
      ((∀ tail, parse (message.take finish ++ tail) id type = .ok answer) ↔
        parse (message.take finish) id type = .ok answer) ∧
      (finish ≤ 642 → ∀ tail, parse (message.take finish ++ tail) id type = .ok answer) := by
  obtain ⟨records, finish, hrecords⟩ := exists_records_of_parse h
  have hextend (hpart : parse (message.take finish) id type = .ok answer) (tail : Bytes) :
      parse (message.take finish ++ tail) id type = .ok answer :=
    (foretells_parse _ tail id type).ok hpart
  refine ⟨finish, fun offset => answersEnd_iff hrecords, ⟨?_, hextend⟩, ?_⟩
  · intro hall
    simpa using hall []
  · intro hfinish
    exact hextend (parse_take_of_le h hrecords hfinish)

/-- The case of a response of 27 bytes. -/
theorem parse_take_append_rootAddress :
    parse rootAddress 5 .a = .ok ⟨Name.root, 9, .address ⟨192, 168, 0, 1⟩⟩ ∧
      ∀ tail, parse (rootAddress ++ tail) 5 .a =
        .ok ⟨Name.root, 9, .address ⟨192, 168, 0, 1⟩⟩ := by
  have hanswer : parse rootAddress 5 .a = .ok ⟨Name.root, 9, .address ⟨192, 168, 0, 1⟩⟩ := by
    decide +kernel
  obtain ⟨finish, hends, -, hall⟩ := parse_take_append rootAddress 5 .a _ hanswer
  obtain rfl := (hends 27).1 answersEnd_rootAddress
  exact ⟨hanswer, hall (by decide)⟩

end Answer

/-! ## A response that reaches behind its answers -/

/-- The beginning of a response to query 7: the header, the question for the mail exchange of
the root, a record of another type with 600 bytes of data, and a mail exchange up to the upper
half of its preference. -/
def overreachFront : Bytes :=
  [0, 7, 129, 128, 0, 1, 0, 2, 0, 1, 0, 0] ++ [0, 0, 15, 0, 1] ++
  [0, 0, 16, 0, 1, 0, 0, 0, 0, 2, 88] ++ List.replicate 600 0 ++
  [0, 0, 15, 0, 1, 0, 0, 1, 44, 0, 4, 0]

lemma length_overreachFront : overreachFront.length = 640 := by
  simp only [overreachFront, List.length_append, List.length_cons, List.length_nil,
    List.length_replicate]

/-- The response up to the end of its answers.  The name of the mail exchange is a pointer to
the byte in front of it, the lower half of the preference, which is the length of a label of 63
bytes as well. -/
def overreach : Bytes :=
  overreachFront ++ (63 :: Segment.pointerBytes 640)

lemma length_overreach : overreach.length = 643 := by
  rw [overreach, List.length_append, length_overreachFront]
  rfl

/-- The mail exchange of the response. -/
def overreachRecord : PlacedRecord :=
  ⟨⟨Name.root, QueryType.mx.code, 1, 300, [0, 63, 194, 128]⟩, 639⟩

/-- It is the first record of its type, and the answers end behind it. -/
lemma exists_records_overreach : ∃ records,
    Answer.records 7 overreach.toArray 0 = .ok (records, 643) ∧
      records.find? (·.rtype = QueryType.mx.code) = some overreachRecord := by
  have hread : (Answer.records 7 overreach.toArray 0).map
      (fun (records, finish) => (records.find? (·.rtype = QueryType.mx.code), finish)) =
        .ok (some overreachRecord, 643) := by
    decide +kernel
  obtain ⟨⟨records, finish⟩, hrecords, hfound⟩ := map_eq_ok_iff.1 hread
  obtain ⟨hfind, rfl⟩ := Prod.mk.inj hfound
  exact ⟨records, hrecords, hfind.symm⟩

/-- The pointer is the first character of the label that it leads to. -/
lemma spells_overreach {text : String} (hlength : (Name.textBytes text).length = 61) :
    Spells (overreach ++ (Name.textBytes text ++ [0])) 641
      [Segment.pointerBytes 640 ++ Name.textBytes text] 1 643 := by
  generalize hlabel : Segment.pointerBytes 640 ++ Name.textBytes text = label
  have hlong : label.length = 63 := by
    rw [← hlabel, List.length_append, hlength]
    rfl
  have hat : Holds (overreach ++ (Name.textBytes text ++ [0])) 640
      (Segment.labelBytes label ++ [0]) := by
    rw [Segment.labelBytes, hlong, ← hlabel, overreach, Holds, List.append_assoc,
      ← length_overreachFront, List.drop_left]
    simp
  obtain ⟨hlabelAt, hend⟩ := holds_append.1 hat
  have hseg := Name.segmentAt_of_holds ⟨by omega, by rw [hlong]; decide⟩ hlabelAt
  rw [Segment.labelBytes, List.length_cons, hlong, holds_singleton] at hend
  rw [Segment.labelBytes, ← hlabel, holds_cons, holds_append] at hlabelAt
  rw [hlong] at hseg
  exact .pointer (Name.segmentAt_of_holds_pointer (by decide) hlabelAt.2.1) (by decide)
    (.label hseg (.terminator (.terminator hend)))

namespace Answer

/-- Whatever text of 61 bytes stands behind the answers, it names the mail exchange. -/
lemma parse_overreach {text : String} (hlength : (Name.textBytes text).length = 61) :
    parse (overreach ++ (Name.textBytes text ++ [0])) 7 QueryType.mx.recordType =
      .ok ⟨Name.root, 300, .exchange 63 (Name.ofLabels ["\u0080" ++ text])⟩ := by
  have hbytes : Name.textBytes ("\u0080" ++ text) =
      Segment.pointerBytes 640 ++ Name.textBytes text := by
    rw [Name.textBytes, String.toList_append, Utf8.encode_append]
    rfl
  have hwire : Name.wireLength (["\u0080" ++ text].map Name.textBytes) = 65 := by
    rw [List.map_singleton, hbytes, Name.wireLength_cons, List.length_append, hlength]
    rfl
  have hspells := spells_overreach hlength
  rw [← hbytes] at hspells
  have hhost : Name.decode (overreach ++ (Name.textBytes text ++ [0])) 641 =
      .ok (Name.ofLabels ["\u0080" ++ text], 643) :=
    Name.decode_of_spells hspells (by rw [hwire]; decide) (by decide)
  have hgives : overreachRecord.Gives (overreach ++ (Name.textBytes text ++ [0])) .mx
      (.exchange 63 (Name.ofLabels ["\u0080" ++ text])) :=
    .exchange (by decide) rfl hhost (by decide)
  obtain ⟨records, hrecords, hfind⟩ := exists_records_overreach
  obtain ⟨-, before, after, rfl, hbefore⟩ := List.find?_eq_some_iff_append.1 hfind
  rw [parse_recordType, ofMessage_of_first (records_append hrecords _) (by simpa using hbefore) rfl]
  exact PlacedRecord.answer_eq_ok_iff.2 ⟨rfl, rfl, hgives⟩

/-- An authority of the root, without the end of its name, as a text: a record of type 2 that
names a server by a label of 49 times the same letter. -/
def authorityText (letter : Char) : String :=
  String.ofList ([0, 0, 2, 0, 1, 0, 0, 1, 44, 0, 51, 49].map Char.ofNat ++
    List.replicate 49 letter)

/-- The answers do not determine the answer: with another authority behind them, the response
names another mail exchange. -/
theorem not_determined_by_answers :
    ¬∀ (message : Bytes) (id : UInt16) (type : RecordType) (answer : Answer) (finish : Nat)
      (tail : Bytes), parse message id type = .ok answer → AnswersEnd message finish →
      parse (message.take finish ++ tail) id type = .ok answer := by
  intro hall
  have ha : (Name.textBytes (authorityText 'a')).length = 61 := by decide
  have hb : (Name.textBytes (authorityText 'b')).length = 61 := by decide
  obtain ⟨records, hrecords, -⟩ := exists_records_overreach
  have hother := hall _ 7 QueryType.mx.recordType _ 643 (Name.textBytes (authorityText 'b') ++ [0])
    (parse_overreach ha) ((answersEnd_iff (records_append hrecords _)).2 rfl)
  rw [List.take_left' length_overreach, parse_overreach hb] at hother
  -- the two mail exchanges would have the same name
  simp only [Except.ok.injEq, Answer.mk.injEq, AnswerData.exchange.injEq, true_and] at hother
  have hbytes := congrArg Name.bytes hother
  rw [Name.bytes_ofLabels, Name.bytes_ofLabels] at hbytes
  exact absurd hbytes (by decide)

end Answer

end StubResolver
