/-
# Reading a response that was written

A response is written as its header, its questions and its records, one after the other,
and anything may stand behind them.  The records are found again, in order, each with the
place of its data (`exists_recovers`).  So the response is answered by the first record of
the wanted type in the list that was written, and the name inside of a mail exchange, which
is read at an absolute offset, is the one that was put there (`parse_written`).
-/
import StubResolver.Proofs.Response.WellFormed
import StubResolver.Proofs.Response.WireForm

namespace StubResolver

/-- The header of a response with the given sections. -/
def Header.ofSections (id : UInt16) (flags : Flags) (questions : List Question)
    (records : List Record) (authorities additionals : UInt16) : Header :=
  ⟨id, flags, .ofNat questions.length, .ofNat records.length, authorities, additionals⟩

/-! ## The records that are found -/

/-- The records that are read from a message are the given ones, with the empty pieces of
their names left out, and the data of each one stands where the record says. -/
structure Recovers (message : Bytes) (id : UInt16) (records : List Record)
    (placed : List PlacedRecord) : Prop where
  read : ∃ finish, Answer.records id message.toArray 0 = .ok (placed, finish)
  map_eq : placed.map (·.toRecord) = records.map Record.normal
  data : ∀ record ∈ placed, Holds message record.dataOffset record.data

lemma exists_recovers {flags : Flags} {questions : List Question} {records : List Record}
    {authorities additionals : UInt16} {asked answered : Bytes}
    (hcode : flags.responseCode = 0) (htruncated : flags.truncated = false)
    (hquestions : questions.length < 2 ^ 16) (hrecords : records.length < 2 ^ 16)
    (hne : records ≠ []) (hasked : encodeAll questions = .ok asked)
    (hanswered : encodeAll records = .ok answered) (id : UInt16) (trailing : Bytes) :
    ∃ placed, Recovers
      ((Header.ofSections id flags questions records authorities additionals).wire ++ asked ++
        answered ++ trailing) id records placed := by
  generalize hheader : Header.ofSections id flags questions records authorities additionals = header
  generalize hmessage : header.wire ++ asked ++ answered ++ trailing = message
  have hat : Holds message 0 (header.wire ++ asked ++ answered) := by
    rw [← hmessage]
    exact List.prefix_append _ _
  simp only [holds_append, List.length_append, Header.length_wire, Nat.zero_add] at hat
  obtain ⟨⟨hheaderAt, haskedAt⟩, hansweredAt⟩ := hat
  -- the questions end where the records begin
  have haskedRow := consecutive_questions hasked haskedAt
  obtain ⟨placed, hmap, hrow⟩ := exists_consecutive_records hanswered hansweredAt
  have hlength : placed.length = records.length := by
    rw [← List.length_map (·.toRecord), hmap, List.length_map]
  have hpos := List.length_pos_iff.2 hne
  have haccepted : AcceptedHeader message id (questions.map Question.normal).length
      placed.length := by
    rw [List.length_map, hlength]
    refine acceptedHeader_iff.2 ⟨header, hheaderAt, ?_, ?_, ?_⟩
    · rw [← hheader]
      exact Header.refusal?_eq_none_iff.2 ⟨rfl, hcode, htruncated⟩
    · rw [← hheader]
      exact UInt16.toNat_ofNat_of_lt' hquestions
    · rw [← hheader]
      exact UInt16.toNat_ofNat_of_lt' hrecords
  refine ⟨placed, ⟨_, records_eq_ok_iff.2 ⟨_, _, haccepted, haskedRow, ?_, hrow⟩⟩, hmap, ?_⟩
  · omega
  · intro record hrecord
    obtain ⟨start, finish, hplaced⟩ := hrow.of_mem hrecord
    exact hplaced.holds_data

/-- Records that were read as the given ones are of their types. -/
lemma rtype_ne_of_map_eq {placed : List PlacedRecord} {records : List Record} {code : UInt16}
    (hmap : placed.map (·.toRecord) = records.map Record.normal)
    (hne : ∀ record ∈ records, record.rtype ≠ code) : ∀ entry ∈ placed, entry.rtype ≠ code := by
  intro entry hentry
  have hmem : entry.toRecord ∈ placed.map (·.toRecord) := List.mem_map_of_mem hentry
  rw [hmap] at hmem
  obtain ⟨record, hrecord, hnormal⟩ := List.mem_map.1 hmem
  rw [← hnormal]
  exact hne record hrecord

namespace Recovers

variable {message : Bytes} {id : UInt16} {records : List Record} {placed : List PlacedRecord}

lemma ofMessage_of_none {type : QueryType} (h : Recovers message id records placed)
    (hnone : ∀ record ∈ records, record.rtype ≠ type.code) :
    Answer.ofMessage message id type = .error .noMatchingRecord := by
  obtain ⟨finish, hread⟩ := h.read
  exact Answer.ofMessage_of_none hread (rtype_ne_of_map_eq h.map_eq hnone)

/-- The first record of the wanted type is found, and answers. -/
lemma exists_ofMessage_eq (type : QueryType) {record : Record}
    (h : Recovers message id records placed)
    (hfind : records.find? (·.rtype = type.code) = some record) :
    ∃ dataOffset, Holds message dataOffset record.data ∧
      Answer.ofMessage message id type =
        (⟨record.normal, dataOffset⟩ : PlacedRecord).answer message.toArray type := by
  obtain ⟨finish, hread⟩ := h.read
  obtain ⟨htype, before, after, rfl, hbefore⟩ := List.find?_eq_some_iff_append.1 hfind
  have hmap := h.map_eq
  rw [List.map_append, List.map_cons] at hmap
  -- the list that was found is cut where the list that was written is
  obtain ⟨earlier, others, rfl, hearlier, hothers⟩ := List.map_eq_append_iff.1 hmap
  obtain ⟨⟨found, dataOffset⟩, later, rfl, hfound, -⟩ := List.map_eq_cons_iff.1 hothers
  obtain rfl : found = record.normal := hfound
  refine ⟨dataOffset, ?_, Answer.ofMessage_of_first hread ?_ ?_⟩
  · exact h.data ⟨record.normal, dataOffset⟩ (List.mem_append_right _ List.mem_cons_self)
  · exact rtype_ne_of_map_eq hearlier (by simpa using hbefore)
  · exact of_decide_eq_true htype

end Recovers

/-! ## What the records say -/

/-- A mail exchange is read from its preference and its name, wherever they stand. -/
lemma PlacedRecord.gives_exchange {message further : Bytes} {record : PlacedRecord}
    {preference : UInt16} {host : Name} (hlimits : host.WithinLimits)
    (hdata : record.data =
      Bytes.toBigEndian 2 preference.toNat ++ Name.wireForm host.segments ++ further)
    (hat : Holds message record.dataOffset record.data) :
    record.Gives message .mx (.exchange preference host.normal) := by
  have hlength : record.data.length = 2 + Name.wireLength host.segments + further.length := by
    rw [hdata, List.length_append, List.length_append, Bytes.length_toBigEndian,
      Name.length_wireForm]
  have hpos := Name.one_le_wireLength host.segments
  rw [hdata, holds_append, holds_append, Bytes.length_toBigEndian] at hat
  have hhost := Name.decode_of_holds hlimits hat.1.2
  refine .exchange (by omega) ?_ hhost (by omega)
  rw [hdata, List.append_assoc]
  exact List.take_left' (Bytes.length_toBigEndian 2 _)

/-! ## The round trip -/

/-- **A response that was written is answered from its records**: by none if none is of the
wanted type, and otherwise by the first one that is, whatever the other records are and
whatever stands behind them. -/
theorem Answer.parse_written (id : UInt16) (flags : Flags) (questions : List Question)
    (records : List Record) (authorities additionals : UInt16) (trailing : Bytes)
    (hcode : flags.responseCode = 0) (htruncated : flags.truncated = false)
    (hquestions : questions.length ≤ 65535) (hrecords : records.length ≤ 65535)
    (hne : records ≠ []) (hasked : ∀ question ∈ questions, ∃ bytes, encode question = .ok bytes)
    (hanswered : ∀ record ∈ records, ∃ bytes, encode record = .ok bytes) :
    ∃ head asked answered,
      encode (Header.ofSections id flags questions records authorities additionals) = .ok head ∧
      encodeAll questions = .ok asked ∧ encodeAll records = .ok answered ∧
      let message := head ++ asked ++ answered ++ trailing
      (∀ type : QueryType, (∀ record ∈ records, record.rtype ≠ type.code) →
        parse message id type.recordType = .error .noMatchingRecord) ∧
      (∀ record, records.find? (·.rtype = RecordType.a.code) = some record →
        (∀ a b c d, record.data = [a, b, c, d] →
          parse message id .a = .ok ⟨record.name.normal, record.ttl, .address ⟨a, b, c, d⟩⟩) ∧
        (record.data.length ≠ 4 → parse message id .a =
          .error (.invalidRecordData RecordType.a.code record.data.length))) ∧
      (∀ record (preference : UInt16) (host : Name) name further,
        records.find? (·.rtype = RecordType.mx.code) = some record → encode host = .ok name →
        record.data = Bytes.toBigEndian 2 preference.toNat ++ name ++ further →
        parse message id .mx =
          .ok ⟨record.name.normal, record.ttl, .exchange preference host.normal⟩) := by
  obtain ⟨asked, hasked⟩ := exists_encodeAll hasked
  obtain ⟨answered, hanswered⟩ := exists_encodeAll hanswered
  obtain ⟨placed, hplaced⟩ := exists_recovers hcode htruncated (by omega) (by omega) hne
    hasked hanswered id trailing
  refine ⟨_, asked, answered, Header.encode_eq _, hasked, hanswered, ?_, ?_, ?_⟩
  · intro type hnone
    rw [parse_recordType]
    exact hplaced.ofMessage_of_none hnone
  · intro record hfind
    obtain ⟨dataOffset, -, hanswer⟩ := hplaced.exists_ofMessage_eq .a hfind
    constructor
    · intro a b c d hbytes
      exact hanswer.trans (PlacedRecord.answer_eq_ok_iff.2 ⟨rfl, rfl, .address hbytes⟩)
    · intro hlength
      exact hanswer.trans (PlacedRecord.answer_of_length_ne hlength)
  · intro record preference host name further hfind hhost hbytes
    obtain ⟨dataOffset, hat, hanswer⟩ := hplaced.exists_ofMessage_eq .mx hfind
    obtain ⟨hlimits, rfl⟩ := Name.encode_eq_ok_iff.1 hhost
    exact hanswer.trans (PlacedRecord.answer_eq_ok_iff.2
      ⟨rfl, rfl, PlacedRecord.gives_exchange hlimits hbytes hat⟩)

/-- The case of a mail exchange behind a text record, with a dot too many in both names. -/
theorem Answer.parse_written_mail :
    ∃ head asked answered,
      encode (Header.ofSections 7 Flags.clear [⟨⟨"sandiego.edu"⟩, 15, 1⟩]
        [⟨⟨"sandiego.edu"⟩, 16, 1, 5, [2, 104, 105]⟩,
          ⟨⟨"sandiego..edu"⟩, 15, 1, 300, [0, 10, 2, 109, 120, 0, 9]⟩] 0 1) = .ok head ∧
      encodeAll [(⟨⟨"sandiego.edu"⟩, 15, 1⟩ : Question)] = .ok asked ∧
      encodeAll [(⟨⟨"sandiego.edu"⟩, 16, 1, 5, [2, 104, 105]⟩ : Record),
        ⟨⟨"sandiego..edu"⟩, 15, 1, 300, [0, 10, 2, 109, 120, 0, 9]⟩] = .ok answered ∧
      parse (head ++ asked ++ answered ++ [255]) 7 .mx =
        .ok ⟨⟨"sandiego.edu"⟩, 300, .exchange 10 ⟨"mx"⟩⟩ ∧
      parse (head ++ asked ++ answered ++ [255]) 7 .a = .error .noMatchingRecord := by
  obtain ⟨head, asked, answered, hhead, hasked, hanswered, hnone, -, hmail⟩ :=
    parse_written 7 Flags.clear [⟨⟨"sandiego.edu"⟩, 15, 1⟩]
      [⟨⟨"sandiego.edu"⟩, 16, 1, 5, [2, 104, 105]⟩,
        ⟨⟨"sandiego..edu"⟩, 15, 1, 300, [0, 10, 2, 109, 120, 0, 9]⟩] 0 1 [255]
      (by decide) (by decide) (by decide) (by decide) (by decide)
      (by
        intro question hquestion
        rw [List.mem_singleton.1 hquestion]
        exact ⟨_, rfl⟩)
      (by
        intro record hrecord
        rcases List.mem_cons.1 hrecord with rfl | hrecord
        · exact ⟨_, rfl⟩
        · rw [List.mem_singleton.1 hrecord]
          exact ⟨_, rfl⟩)
  refine ⟨head, asked, answered, hhead, hasked, hanswered, ?_, hnone .a (by decide)⟩
  exact hmail _ 10 ⟨"mx."⟩ [2, 109, 120, 0] [9] rfl rfl rfl

end StubResolver
