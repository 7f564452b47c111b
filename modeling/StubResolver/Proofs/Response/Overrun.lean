/-
# Exchanges that run out of their record

The name of a mail exchange is read from the message, where it may lead out of the data of its
record, and only then is its end compared with that of the data.  So when the data runs out
within the name, before a terminator or a complete pointer (`RunsOut`), the name goes on in what
follows the record.

If a name is read there then it ends behind the data (`RunsOut.lt_of_spells`), and the record is
refused for its data.  But nothing says that one is read: the message may end with the record, or
what follows it may be no part of a name.  Then it is the name that is refused, as malformed.
-/
import StubResolver.Proofs.Name.Reach
import StubResolver.Proofs.Response.Cut
import StubResolver.Proofs.Response.Verdict

namespace StubResolver

variable {message part : Bytes} {start offset next place : Nat} {labels : List Bytes}

/-! ## Parts of a message -/

/-- Labels in a part of a message are passed in the message as well. -/
lemma ComesTo.of_holds (hto : ComesTo part offset labels 0 place) (h : Holds message start part) :
    ComesTo message (start + offset) labels 0 (start + place) := by
  generalize hhops : 0 = hops at hto ⊢
  induction hto with
  | here => exact .here
  | label hseg _ ih => exact .label (hseg.of_holds h) (ih hhops)
  | pointer => cases hhops

/-- A name goes on behind labels that it begins with. -/
lemma Spells.behind {all : List Bytes} {hops finish : Nat}
    (h : Spells message offset all hops finish) (hto : ComesTo message offset labels 0 place) :
    ∃ others, Spells message place others hops finish := by
  generalize hzero : 0 = count at hto
  induction hto generalizing all with
  | here => exact ⟨all, h⟩
  | label hseg _ ih =>
    cases h with
    | label hseg' hrest =>
      obtain ⟨-, rfl⟩ := hseg.unique hseg'
      exact ih hrest hzero
    | terminator hseg' | pointer hseg' => cases (hseg.unique hseg').1
  | pointer => cases hzero

/-! ## Running out of data -/

/-- Reading a name in the data leads over the given labels and runs out of data at `place`: the
data ends there, or within the label or the pointer that begins there. -/
structure RunsOut (data : Bytes) (offset : Nat) (labels : List Bytes) (place : Nat) : Prop where
  comesTo : ComesTo data offset labels 0 place
  flaw : SegmentFlaw data place .outOfBounds

namespace RunsOut

/-- The segment in which data runs out ends behind the data. -/
lemma lt_of_segmentAt {data : Bytes} {segment : Segment} (h : RunsOut data offset labels place)
    (hdata : Holds message start data) (hseg : SegmentAt message (start + place) segment next) :
    start + data.length < next := by
  have hbounds := hseg.bounds
  cases h.flaw with
  | missing hle => omega
  | @label length hlength hpos hlong hend =>
    have hat := hdata.getElem?_eq_some hlength
    cases hseg with
    | terminator h0 =>
      obtain rfl := Option.some.inj (hat.symm.trans h0)
      cases hpos
    | label hlength' =>
      obtain rfl := Option.some.inj (hat.symm.trans hlength')
      omega
    | pointer hhigh hge =>
      obtain rfl := Option.some.inj (hat.symm.trans hhigh)
      omega
  | @pointer high hhigh hge hend =>
    have hat := hdata.getElem?_eq_some hhigh
    cases hseg with
    | terminator h0 =>
      obtain rfl := Option.some.inj (hat.symm.trans h0)
      cases hge
    | label hlength' _ hlong =>
      obtain rfl := Option.some.inj (hat.symm.trans hlength')
      omega
    | pointer => omega

/-- A name of which the data runs out ends behind the data. -/
lemma lt_of_spells {data : Bytes} {all : List Bytes} {hops finish : Nat}
    (h : RunsOut data offset labels place) (hdata : Holds message start data)
    (hspells : Spells message (start + offset) all hops finish) :
    start + data.length < finish := by
  obtain ⟨others, hrest⟩ := hspells.behind (h.comesTo.of_holds hdata)
  cases hrest with
  | terminator hseg => exact h.lt_of_segmentAt hdata hseg
  | label hseg hlater => exact Nat.lt_trans (h.lt_of_segmentAt hdata hseg) hlater.bounds.1
  | pointer hseg => exact h.lt_of_segmentAt hdata hseg

/-- If the message ends with the data then it runs out where the data does. -/
lemma decode_eq_error {data : Bytes} (h : RunsOut data offset labels place)
    (hdata : Holds message start data) (hend : message.length = start + data.length)
    (hvalid : ∀ label ∈ labels, Utf8.Valid label)
    (hlength : (labels.map (·.length + 1)).sum + 1 ≤ 255) :
    Name.decode message (start + offset) = .error (.malformedName (start + place) .outOfBounds) := by
  have hflaw : SegmentFlaw message (start + place) .outOfBounds := by
    cases h.flaw with
    | missing hle => exact .missing (by omega)
    | label hbyte hpos hlong hover =>
      exact .label (hdata.getElem?_eq_some hbyte) hpos hlong (by omega)
    | pointer hbyte hge hover => exact .pointer (hdata.getElem?_eq_some hbyte) hge (by omega)
  exact (Name.decode_eq_error_iff _ _ _).2 ⟨labels, 0, _, _, rfl, h.comesTo.of_holds hdata, hvalid,
    hlength, Nat.zero_le _, .segment hflaw⟩

end RunsOut

namespace Answer

variable {id : UInt16} {all : List PlacedRecord} {record : PlacedRecord} {finish : Nat}

/-- The first mail exchange of a response whose records are all read is interpreted. -/
lemma parse_of_first (hrecords : (records id).run message 0 = .ok (all, finish))
    (hfirst : all.find? (·.rtype = RecordType.mx.code) = some record) :
    parse message id .mx = record.answer message.toArray .mx := by
  obtain ⟨htype, before, after, rfl, hbefore⟩ := List.find?_eq_some_iff_append.1 hfirst
  have hothers : ∀ earlier ∈ before, earlier.rtype ≠ RecordType.mx.code := by simpa using hbefore
  exact ofMessage_of_first hrecords hothers (of_decide_eq_true htype)

lemma holds_data_of_first (hrecords : (records id).run message 0 = .ok (all, finish))
    (hfirst : all.find? (·.rtype = RecordType.mx.code) = some record) :
    Holds message record.dataOffset record.data := by
  obtain ⟨_, _, -, -, -, hall⟩ := records_eq_ok_iff.1 hrecords
  obtain ⟨_, _, hrecord⟩ := hall.of_mem (List.mem_of_find?_eq_some hfirst)
  exact hrecord.holds_data

/-- **A mail exchange that runs out of its record gives no answer, but it is refused for its data
only if what follows the record completes the name.**  Whatever name is read then, it ends behind
the data.  If no name is read then this is what the response is refused for, and so it is if the
message ends with the record.  Less than three bytes of data are refused whatever follows. -/
theorem parse_of_runsOut (message : Bytes) (id : UInt16) (all : List PlacedRecord)
    (record : PlacedRecord) (finish : Nat)
    (hrecords : (records id).run message 0 = .ok (all, finish))
    (hfirst : all.find? (·.rtype = RecordType.mx.code) = some record) :
    (record.data.length < 3 →
      parse message id .mx = .error (.invalidRecordData 15 record.data.length)) ∧
    ∀ labels place, RunsOut record.data 2 labels place → 3 ≤ record.data.length →
      (parse message id .mx = .error (.invalidRecordData 15 record.data.length) ↔
        ∃ host behind, Name.decode message (record.dataOffset + 2) = .ok (host, behind)) ∧
      (∀ error, Name.decode message (record.dataOffset + 2) = .error error →
        parse message id .mx = .error error) ∧
      (message.length = record.dataOffset + record.data.length →
        (∀ label ∈ labels, Utf8.Valid label) → (labels.map (·.length + 1)).sum + 1 ≤ 255 →
        parse message id .mx =
          .error (.malformedName (record.dataOffset + place) .outOfBounds)) := by
  have hdata := holds_data_of_first hrecords hfirst
  rw [parse_of_first hrecords hfirst]
  refine ⟨PlacedRecord.answer_of_length_lt, ?_⟩
  intro labels place hout hlen
  have hrefused : ∀ error, Name.decode message (record.dataOffset + 2) = .error error →
      record.answer message.toArray .mx = .error error :=
    fun error => PlacedRecord.answer_of_decode_error hlen
  refine ⟨⟨?_, ?_⟩, hrefused, ?_⟩
  · intro hinvalid
    rcases hname : Name.decode message (record.dataOffset + 2) with error | ⟨host, behind⟩
    · -- the error of a name is never one of data
      obtain ⟨_, _, rfl⟩ := Name.exists_of_decode_eq_error hname
      rw [hrefused _ hname] at hinvalid
      cases hinvalid
    · exact ⟨host, behind, rfl⟩
  · rintro ⟨host, behind, hname⟩
    obtain ⟨_, _, -, hspells, -⟩ := Name.spells_of_decode hname
    exact PlacedRecord.answer_of_decode_beyond hlen hname (hout.lt_of_spells hdata hspells)
  · intro hend hvalid hlength
    exact hrefused _ (hout.decode_eq_error hdata hend hvalid hlength)

/-! ### An exchange without an end -/

/-- The beginning of a response to query 7: the header without a question, and the mail exchange
of the root, whose data is a preference and the label `a`. -/
def openExchange : Bytes :=
  [0, 7, 129, 128, 0, 0, 0, 1, 0, 0, 0, 0] ++ [0, 0, 15, 0, 1, 0, 0, 0, 0, 0, 4, 0, 10, 1, 97]

/-- The mail exchange of the response. -/
def openRecord : PlacedRecord :=
  ⟨⟨Name.root, RecordType.mx.code, 1, 0, [0, 10, 1, 97]⟩, 23⟩

lemma records_openExchange (behind : Bytes) :
    (records 7).run (openExchange ++ behind) 0 = .ok ([openRecord], 27) := by
  have hrecords : records 7 openExchange.toArray 0 = .ok ([openRecord], 27) := by decide +kernel
  rw [Reader.run]
  exact records_append hrecords behind

lemma runsOut_openRecord : RunsOut openRecord.data 2 [[97]] 4 where
  comesTo := .label (Name.segmentAt_of_holds (by decide) List.prefix_rfl) .here
  flaw := .missing (Nat.le_refl 4)

lemma valid_openLabels : ∀ label ∈ [[(97 : UInt8)]], Utf8.Valid label := by
  intro label hlabel
  obtain rfl := List.mem_singleton.1 hlabel
  exact ⟨['a'], by decide⟩

/-- The case of a terminator behind the record, which completes the name, of a byte that begins no
segment, and of nothing at all. -/
theorem parse_of_runsOut_openExchange :
    parse (openExchange ++ [0]) 7 .mx = .error (.invalidRecordData 15 4) ∧
    parse (openExchange ++ [64]) 7 .mx = .error (.malformedName 27 (.reservedLabelType 64)) ∧
    parse (openExchange ++ []) 7 .mx = .error (.malformedName 27 .outOfBounds) := by
  obtain ⟨-, hzero⟩ := parse_of_runsOut _ 7 _ openRecord _ (records_openExchange [0]) rfl
  obtain ⟨-, hreserved⟩ := parse_of_runsOut _ 7 _ openRecord _ (records_openExchange [64]) rfl
  obtain ⟨-, hnothing⟩ := parse_of_runsOut _ 7 _ openRecord _ (records_openExchange []) rfl
  refine ⟨?_, ?_, ?_⟩
  · exact (hzero _ _ runsOut_openRecord (by decide)).1.2 ⟨⟨"a"⟩, 28, by decide +kernel⟩
  · exact (hreserved _ _ runsOut_openRecord (by decide)).2.1 _ (by decide +kernel)
  · exact (hnothing _ _ runsOut_openRecord (by decide)).2.2 rfl valid_openLabels (by decide)

/-- It is not for its data that every mail exchange is refused of which the data runs out: if the
message ends with the record then it is for the name. -/
theorem not_invalid_of_runsOut :
    ¬∀ (message : Bytes) (id : UInt16) (all : List PlacedRecord) (record : PlacedRecord)
      (finish place : Nat) (labels : List Bytes), (records id).run message 0 = .ok (all, finish) →
      all.find? (·.rtype = RecordType.mx.code) = some record →
      RunsOut record.data 2 labels place → (∀ label ∈ labels, Utf8.Valid label) →
      (labels.map (·.length + 1)).sum + 1 ≤ 255 →
      parse message id .mx = .error (.invalidRecordData 15 record.data.length) := by
  intro hall
  have hinvalid := hall _ 7 _ openRecord _ 4 [[97]] (records_openExchange []) rfl
    runsOut_openRecord valid_openLabels (by decide)
  have hmalformed : parse (openExchange ++ []) 7 .mx =
      .error (.malformedName 27 .outOfBounds) := by decide +kernel
  rw [hmalformed] at hinvalid
  cases hinvalid

end Answer

end StubResolver
