/-
# Responses without compression

Names in a response may go on where other names stand.  To expand a response is to write its
questions and its answer records anew, each name with all of its labels, and the name within the
data of the record that is the answer as well (`Answer.Expands`).  All that was read can be
written, however long the response becomes, and then it is answered in the same way
(`Answer.parse_expanded`).

Only the names of the answer have to be tidy: the empty pieces of a name are not written, so a
name that has any is found again without them.
-/
import StubResolver.Proofs.Name.Dots
import StubResolver.Proofs.Name.RoundTrip
import StubResolver.Proofs.Response.RoundTrip

namespace StubResolver

/-! ## Tidy names -/

/-- No piece of the text of a name is empty: no dot stands at one of its ends or next to another
one.  The text of the root is no piece. -/
def Name.Tidy (name : Name) : Prop :=
  name = root ∨ [] ∉ name.text.toList.splitOn '.'

lemma Name.Tidy.normal_eq {name : Name} (h : name.Tidy) : name.normal = name := by
  rcases h with rfl | hpieces
  · rfl
  · exact normal_eq_self hpieces

/-! ## What was read can be written -/

lemma exists_encodeAll_questions {message : Bytes} {questions : List Question}
    {start finish : Nat} (h : Consecutive (QuestionAt message) questions start finish) :
    ∃ bytes, encodeAll questions = .ok bytes := by
  refine exists_encodeAll fun question hquestion => ?_
  obtain ⟨_, _, nameEnd, hname, -⟩ := h.of_mem hquestion
  exact ⟨_, Question.encode_eq_ok_iff.2 ⟨Name.withinLimits_of_decode hname, rfl⟩⟩

/-- The records that were read can be written, also if one of them gets other data. -/
lemma exists_encodeAll_records {message data : Bytes} {before after : List PlacedRecord}
    {record : PlacedRecord} {start finish : Nat}
    (h : Consecutive (RecordAt message) (before ++ record :: after) start finish)
    (hlt : data.length < 2 ^ 16) :
    ∃ bytes, encodeAll (before.map (·.toRecord) ++ { record.toRecord with data := data } ::
      after.map (·.toRecord)) = .ok bytes := by
  have hread : ∀ entry ∈ before ++ record :: after,
      entry.name.WithinLimits ∧ entry.data.length < 2 ^ 16 := by
    intro entry hentry
    obtain ⟨_, _, nameEnd, hname, -, hdata, -⟩ := h.of_mem hentry
    exact ⟨Name.withinLimits_of_decode hname, hdata⟩
  simp only [List.forall_mem_append, List.forall_mem_cons] at hread
  obtain ⟨hbefore, hrecord, hafter⟩ := hread
  refine exists_encodeAll fun written hwritten => ?_
  simp only [List.mem_append, List.mem_cons, List.mem_map] at hwritten
  refine ⟨_, Record.encode_eq_ok_iff.2 ⟨?_, rfl⟩⟩
  obtain ⟨entry, hentry, rfl⟩ | rfl | ⟨entry, hentry, rfl⟩ := hwritten
  · exact hbefore entry hentry
  · exact ⟨hrecord.1, hlt⟩
  · exact hafter entry hentry

/-! ## Expanding the answer -/

/-- The data of the record that is the answer, before and after its name is written out: an
address stays as it is, a mail exchange becomes its preference and its whole name. -/
inductive AnswerData.Expands : AnswerData → Bytes → Bytes → Prop
  | address {address : Ipv4} {data : Bytes} : Expands (.address address) data data
  | exchange {preference : UInt16} {host : Name} {data name : Bytes} : encode host = .ok name →
      Expands (.exchange preference host) data (Bytes.toBigEndian 2 preference.toNat ++ name)

/-- The records of a response before and after the data of the first one of the given type, which
is the answer, is expanded.  All others stay as they are. -/
inductive Answer.Expands (answer : Answer) (type : QueryType) : List Record → List Record → Prop
  | first {before after : List Record} {record : Record} {data : Bytes} :
      (∀ earlier ∈ before, earlier.rtype ≠ type.code) → record.rtype = type.code →
      answer.data.Expands record.data data →
      Expands answer type (before ++ record :: after)
        (before ++ { record with data := data } :: after)

/-- The data of a record can be expanded, and is understood in the same way wherever it stands
then. -/
lemma PlacedRecord.Gives.exists_expands {message : Bytes} {record : PlacedRecord}
    {type : QueryType} {found : AnswerData} (h : record.Gives message type found)
    (hlt : record.data.length < 2 ^ 16)
    (htidy : ∀ preference host, found = .exchange preference host → host.Tidy) :
    ∃ data, found.Expands record.data data ∧ data.length < 2 ^ 16 ∧
      ∀ (message' : Bytes) (placed : PlacedRecord), placed.data = data →
        Holds message' placed.dataOffset data → placed.Gives message' type found := by
  cases h with
  | address hdata =>
    refine ⟨record.data, .address, hlt, fun _ placed hplaced _ => ?_⟩
    exact .address (hplaced.trans hdata)
  | @exchange preference host _ _ _ hname _ =>
    have hlimits := Name.withinLimits_of_decode hname
    refine ⟨_, .exchange (Name.encode_eq_ok_iff.2 ⟨hlimits, rfl⟩), ?_, ?_⟩
    · have hlength : Name.wireLength host.segments ≤ 255 := hlimits.2
      rw [List.length_append, Bytes.length_toBigEndian, Name.length_wireForm]
      omega
    · intro message' placed hplaced hat
      have hdata : placed.data = Bytes.toBigEndian 2 preference.toNat ++
          Name.wireForm host.segments ++ [] := by
        rw [List.append_nil, hplaced]
      rw [← hplaced] at hat
      have hgives := PlacedRecord.gives_exchange hlimits hdata hat
      rwa [(htidy preference host rfl).normal_eq] at hgives

/-! ## The expanded response -/

/-- The records are found behind a header that is accepted and counts them. -/
lemma exists_recovers_of_header {header : Header} {id : UInt16} {questions : List Question}
    {records : List Record} {asked answered : Bytes} (hrefusal : header.refusal? id = none)
    (hquestions : header.questionCount.toNat = questions.length)
    (hrecords : header.answerCount.toNat = records.length) (hne : records ≠ [])
    (hasked : encodeAll questions = .ok asked) (hanswered : encodeAll records = .ok answered)
    (trailing : Bytes) :
    ∃ placed, Recovers (header.wire ++ asked ++ answered ++ trailing) id records placed := by
  obtain ⟨rfl, hcode, htruncated⟩ := Header.refusal?_eq_none_iff.1 hrefusal
  have hheader : Header.ofSections header.id header.flags questions records
      header.authorityCount header.additionalCount = header := by
    rw [Header.ofSections, ← hquestions, ← hrecords, UInt16.ofNat_toNat, UInt16.ofNat_toNat]
  have hlt := header.questionCount.toNat_lt
  have hlt' := header.answerCount.toNat_lt
  rw [← congrArg Header.wire hheader]
  exact exists_recovers hcode htruncated (by omega) (by omega) hne hasked hanswered _ trailing

/-- The first record of the wanted type answers, if its data is understood wherever it stands. -/
lemma Recovers.ofMessage_eq_ok {message : Bytes} {id : UInt16} {type : QueryType}
    {before after : List Record} {record : Record} {placed : List PlacedRecord} {answer : Answer}
    (h : Recovers message id (before ++ record :: after) placed)
    (hbefore : ∀ earlier ∈ before, earlier.rtype ≠ type.code) (htype : record.rtype = type.code)
    (hname : answer.name = record.name.normal) (httl : answer.ttl = record.ttl)
    (hgives : ∀ entry : PlacedRecord, entry.data = record.data →
      Holds message entry.dataOffset record.data → entry.Gives message type answer.data) :
    Answer.ofMessage message id type = .ok answer := by
  have hfind : (before ++ record :: after).find? (·.rtype = type.code) = some record :=
    List.find?_eq_some_iff_append.2
      ⟨decide_eq_true htype, before, after, rfl, by simpa using hbefore⟩
  obtain ⟨dataOffset, hat, hanswer⟩ := h.exists_ofMessage_eq type hfind
  rw [hanswer, PlacedRecord.answer_eq_ok_iff]
  exact ⟨hname, httl, hgives _ rfl hat⟩

/-- **Compression does not change the answer.**  A response that is answered can be expanded, and
its expansion is answered in the same way, whatever stands behind it. -/
theorem Answer.parse_expanded (message : Bytes) (id : UInt16) (type : QueryType) (answer : Answer)
    (h : parse message id type.recordType = .ok answer) (hname : answer.name.Tidy)
    (hhost : ∀ preference host, answer.data = .exchange preference host → host.Tidy) :
    ∃ header questions middle records finish,
      Header.ofMessage message = .ok header ∧
      (Readable.read.times header.questionCount.toNat : Reader (List Question)).run message 12 =
        .ok (questions, middle) ∧
      (Readable.read.times header.answerCount.toNat : Reader (List PlacedRecord)).run message
        middle = .ok (records, finish) ∧
      ∃ expanded head asked answered,
        answer.Expands type (records.map (·.toRecord)) expanded ∧
        encode header = .ok head ∧ encodeAll questions = .ok asked ∧
        encodeAll expanded = .ok answered ∧
        ∀ trailing, parse (head ++ asked ++ answered ++ trailing) id type.recordType =
          .ok answer := by
  rw [parse_recordType, ofMessage_eq_ok_iff] at h
  obtain ⟨before, record, after, finish, hread, hbefore, htype, hanswer⟩ := h
  obtain ⟨questions, middle, haccepted, hquestions, -, hrecords⟩ := records_eq_ok_iff.1 hread
  obtain ⟨header, hat, hrefusal, hcount, hcount'⟩ := acceptedHeader_iff.1 haccepted
  obtain ⟨howner, httl, hgives⟩ := PlacedRecord.answer_eq_ok_iff.1 hanswer
  obtain ⟨_, _, _, -, -, hlength, -⟩ :=
    hrecords.of_mem (List.mem_append_right _ List.mem_cons_self)
  obtain ⟨data, hdata, hlt, hgives'⟩ := hgives.exists_expands hlength hhost
  obtain ⟨asked, hasked⟩ := exists_encodeAll_questions hquestions
  obtain ⟨answered, hanswered⟩ := exists_encodeAll_records hrecords hlt
  refine ⟨header, questions, middle, before ++ record :: after, finish,
    Header.ofMessage_of_holds hat, ?_, ?_, _, header.wire, asked, answered, ?_,
    Header.encode_eq header, hasked, hanswered, ?_⟩
  · exact Reader.times_eq_ok_iff.2 ⟨hcount.symm, by rwa [question_read_eq]⟩
  · exact Reader.times_eq_ok_iff.2 ⟨hcount'.symm, by rwa [record_read_eq]⟩
  · rw [List.map_append, List.map_cons]
    exact .first (by simpa using hbefore) htype hdata
  · intro trailing
    have hcount'' : header.answerCount.toNat = (before.map (·.toRecord) ++
        { record.toRecord with data := data } :: after.map (·.toRecord)).length := by
      simpa using hcount'
    obtain ⟨placed, hrecovers⟩ := exists_recovers_of_header hrefusal hcount hcount'' (by simp)
      hasked hanswered trailing
    have hnormal : answer.name = record.name.normal := by
      rw [← howner, hname.normal_eq]
    rw [parse_recordType]
    exact hrecovers.ofMessage_eq_ok (by simpa using hbefore) htype hnormal httl (hgives' _)

/-- The case of a mail exchange behind a text record, both of which begin with a pointer to the
question, to which the name of the exchange leads as well. -/
theorem Answer.parse_expanded_mail :
    ∃ expanded asked answered,
      (⟨⟨"a"⟩, 5, .exchange 10 ⟨"mx.a"⟩⟩ : Answer).Expands .mx
        [⟨⟨"a"⟩, 16, 1, 0, [0]⟩, ⟨⟨"a"⟩, 15, 1, 5, [0, 10, 2, 109, 120, 192, 12]⟩] expanded ∧
      encodeAll [(⟨⟨"a"⟩, 15, 1⟩ : Question)] = .ok asked ∧ encodeAll expanded = .ok answered ∧
      parse ([0, 7, 129, 128, 0, 1, 0, 2, 0, 0, 0, 0] ++ asked ++ answered ++ [255]) 7 .mx =
        .ok ⟨⟨"a"⟩, 5, .exchange 10 ⟨"mx.a"⟩⟩ := by
  obtain ⟨header, questions, middle, records, finish, hheader, hquestions, hrecords, expanded,
      head, asked, answered, hexpands, hhead, hasked, hanswered, hparse⟩ :=
    parse_expanded
      [0, 7, 129, 128, 0, 1, 0, 2, 0, 0, 0, 0, 1, 97, 0, 0, 15, 0, 1,
        192, 12, 0, 16, 0, 1, 0, 0, 0, 0, 0, 1, 0,
        192, 12, 0, 15, 0, 1, 0, 0, 0, 5, 0, 7, 0, 10, 2, 109, 120, 192, 12] 7 .mx
      ⟨⟨"a"⟩, 5, .exchange 10 ⟨"mx.a"⟩⟩ (by decide +kernel) (.inr (by decide))
      (by
        intro preference host hdata
        obtain ⟨-, rfl⟩ := AnswerData.exchange.inj hdata
        exact .inr (by decide))
  obtain rfl : header = ⟨7, Flags.ofWord 0x8180, 1, 2, 0, 0⟩ :=
    Except.ok.inj (hheader.symm.trans (by decide +kernel))
  have hasks : (questions, middle) = ([⟨⟨"a"⟩, 15, 1⟩], 19) :=
    Except.ok.inj (hquestions.symm.trans (by decide +kernel))
  obtain ⟨rfl, rfl⟩ := Prod.mk.inj hasks
  have hanswers : (records, finish) = ([⟨⟨⟨"a"⟩, 16, 1, 0, [0]⟩, 31⟩,
      ⟨⟨⟨"a"⟩, 15, 1, 5, [0, 10, 2, 109, 120, 192, 12]⟩, 44⟩], 51) :=
    Except.ok.inj (hrecords.symm.trans (by decide +kernel))
  obtain ⟨rfl, -⟩ := Prod.mk.inj hanswers
  obtain rfl : [0, 7, 129, 128, 0, 1, 0, 2, 0, 0, 0, 0] = head :=
    Except.ok.inj ((show encode _ = .ok _ from rfl).symm.trans hhead)
  exact ⟨expanded, asked, answered, hexpands, hasked, hanswered, hparse [255]⟩

end StubResolver
