/-
# The grammar of encoded names

A name in a message is a sequence of segments: labels, and then a terminator or a pointer,
after which the name goes on at an earlier offset.  `SegmentAt` says which segment stands at
an offset, and `Spells message offset labels hops finish` that the name at `offset` has the
given labels, passes the given number of pointers and ends in front of `finish`.  A
derivation is finite, so a chain of pointers that comes back to itself spells nothing.

Reading a name succeeds exactly where one is spelled that keeps to the limits and whose
labels are text (`decode_eq_ok_iff_spells`).  The reader carries what it has used up of the
two limits; the invariant is that what is used up and what is still spelled stay within
them together (`labelsFrom_eq_ok_iff`).
-/
import StubResolver.Name
import StubResolver.Proofs.Placement
import StubResolver.Utf8.Lemmas

namespace StubResolver

/-- The bytes are those of some text. -/
def Utf8.Valid (bytes : Bytes) : Prop :=
  ∃ text, bytes = encode text

/-! ## Segments -/

/-- The segment that stands at an offset of a message, and the offset behind it. -/
inductive SegmentAt (message : Bytes) (offset : Nat) : Segment → Nat → Prop
  | terminator : message[offset]? = some 0 → SegmentAt message offset .terminator (offset + 1)
  | label {length : UInt8} : message[offset]? = some length →
      1 ≤ length.toNat → length.toNat ≤ 63 → offset + 1 + length.toNat ≤ message.length →
      SegmentAt message offset (.label ((message.drop (offset + 1)).take length.toNat))
        (offset + 1 + length.toNat)
  | pointer {high low : UInt8} : message[offset]? = some high → 192 ≤ high.toNat →
      message[offset + 1]? = some low →
      SegmentAt message offset (.pointer (UInt16.ofNat (high.toNat % 64 * 256 + low.toNat)))
        (offset + 2)

namespace Segment

lemma segmentAt_of_read {message : Message} {offset next : Nat} {segment : Segment}
    (h : Segment.read message offset = .ok (segment, next)) :
    SegmentAt message.toList offset segment next := by
  simp only [Segment.read, ← Array.getElem?_toList, UInt8.lt_iff_toNat_lt, UInt8.reduceToNat,
    Message.slice_eq] at h
  split at h
  · cases h
  · rename_i first hfirst
    split at h
    · obtain ⟨rfl, rfl⟩ := Prod.mk.inj (Except.ok.inj h)
      exact .terminator (by simpa [‹first = 0›] using hfirst)
    · have hpos : first.toNat ≠ 0 := fun h0 => ‹¬first = 0› (UInt8.toNat_inj.1 h0)
      split at h
      · split at h
        · obtain ⟨rfl, rfl⟩ := Prod.mk.inj (Except.ok.inj h)
          exact .label hfirst (by omega) (by omega) (by simpa using ‹_ ≤ message.size›)
        · cases h
      · split at h
        · cases h
        · split at h
          · cases h
          · obtain ⟨rfl, rfl⟩ := Prod.mk.inj (Except.ok.inj h)
            exact .pointer hfirst (by omega) ‹_›

lemma read_of_segmentAt {message : Message} {offset next : Nat} {segment : Segment}
    (h : SegmentAt message.toList offset segment next) :
    Segment.read message offset = .ok (segment, next) := by
  simp only [Segment.read, ← Array.getElem?_toList, UInt8.lt_iff_toNat_lt, UInt8.reduceToNat,
    Message.slice_eq]
  cases h with
  | terminator h0 => simp [h0]
  | @label length hlength hpos hle hend =>
    have hne : length ≠ 0 := fun h0 => by simp [h0] at hpos
    rw [Array.length_toList] at hend
    simp only [hlength]
    rw [if_neg hne, if_pos (by omega), if_pos hend]
  | @pointer high low hhigh hge hlow =>
    have hne : high ≠ 0 := fun h0 => by simp [h0] at hge
    simp only [hhigh, hlow]
    rw [if_neg hne, if_neg (by omega), if_neg (by omega)]

/-- Reading a segment finds the one that stands there. -/
lemma read_eq_ok_iff {message : Message} {offset next : Nat} {segment : Segment} :
    Segment.read message offset = .ok (segment, next) ↔
      SegmentAt message.toList offset segment next :=
  ⟨segmentAt_of_read, read_of_segmentAt⟩

end Segment

/-- A segment lies inside of its message. -/
lemma SegmentAt.bounds {message : Bytes} {offset next : Nat} {segment : Segment}
    (h : SegmentAt message offset segment next) : offset < next ∧ next ≤ message.length := by
  cases h with
  | terminator h0 =>
    obtain ⟨hlt, -⟩ := List.getElem?_eq_some_iff.1 h0
    exact ⟨by omega, hlt⟩
  | label _ _ _ hend => exact ⟨by omega, hend⟩
  | pointer _ _ hlow =>
    obtain ⟨hlt, -⟩ := List.getElem?_eq_some_iff.1 hlow
    exact ⟨by omega, hlt⟩

/-! ## Names -/

/-- The labels that the name at an offset spells, the number of pointers on the way, and the
offset behind the name, which is where its first pointer ends if it has one. -/
inductive Spells (message : Bytes) : Nat → List Bytes → Nat → Nat → Prop
  | terminator {offset next : Nat} : SegmentAt message offset .terminator next →
      Spells message offset [] 0 next
  | label {offset next hops finish : Nat} {label : Bytes} {labels : List Bytes} :
      SegmentAt message offset (.label label) next →
      Spells message next labels hops finish →
      Spells message offset (label :: labels) hops finish
  | pointer {offset next hops finish : Nat} {target : UInt16} {labels : List Bytes} :
      SegmentAt message offset (.pointer target) next → target.toNat < offset →
      Spells message target.toNat labels hops finish →
      Spells message offset labels (hops + 1) next

lemma Spells.bounds {message : Bytes} {offset hops finish : Nat} {labels : List Bytes}
    (h : Spells message offset labels hops finish) :
    offset < finish ∧ finish ≤ message.length := by
  induction h with
  | terminator hseg => exact hseg.bounds
  | label hseg _ ih => exact ⟨Nat.lt_trans hseg.bounds.1 ih.1, ih.2⟩
  | pointer hseg _ _ _ => exact hseg.bounds

namespace Name

@[simp] lemma wireLength_nil : wireLength [] = 1 := rfl

@[simp] lemma wireLength_cons (label : Bytes) (labels : List Bytes) :
    wireLength (label :: labels) = label.length + 1 + wireLength labels := rfl

lemma one_le_wireLength (labels : List Bytes) : 1 ≤ wireLength labels := by
  induction labels with
  | nil => exact Nat.le_refl 1
  | cons label labels ih => exact Nat.le_add_left_of_le ih

lemma wireLength_eq_sum (labels : List Bytes) :
    wireLength labels = (labels.map (·.length + 1)).sum + 1 := by
  induction labels with
  | nil => rfl
  | cons label labels ih =>
    rw [wireLength_cons, ih, List.map_cons, List.sum_cons]
    omega

/-- The bytes of a text. -/
def textBytes (text : String) : Bytes :=
  Utf8.encode text.toList

lemma textBytes_ofList (text : List Char) : textBytes (String.ofList text) = Utf8.encode text := by
  rw [textBytes, String.toList_ofList]

lemma exists_texts {labels : List Bytes} (h : ∀ label ∈ labels, Utf8.Valid label) :
    ∃ texts : List String, labels = texts.map textBytes := by
  induction labels with
  | nil => exact ⟨[], rfl⟩
  | cons label labels ih =>
    obtain ⟨text, htext⟩ := h label List.mem_cons_self
    obtain ⟨texts, htexts⟩ := ih fun other hother => h other (List.mem_cons_of_mem label hother)
    refine ⟨String.ofList text :: texts, ?_⟩
    rw [List.map_cons, textBytes_ofList, ← htext, ← htexts]

/-! ## The reader, by the segment it meets -/

variable {message : Message} {used hops offset next : Nat}

lemma labelsFrom_terminator (h : SegmentAt message.toList offset .terminator next) :
    labelsFrom message used hops offset = .ok ([], next) := by
  rw [labelsFrom, Segment.read_of_segmentAt h]

lemma labelsFrom_label {text : String}
    (h : SegmentAt message.toList offset (.label (textBytes text)) next)
    (hroom : used + ((textBytes text).length + 1) + 1 ≤ maxNameLength) :
    labelsFrom message used hops offset =
      (labelsFrom message (used + ((textBytes text).length + 1)) hops next).map
        fun (texts, finish) => (text :: texts, finish) := by
  have htext : Utf8.decode (textBytes text) = .ok text.toList := Utf8.decode_encode _
  rw [labelsFrom, Segment.read_of_segmentAt h]
  simp only [dif_neg (Nat.not_lt.2 hroom), htext, String.ofList_toList]
  rcases labelsFrom message (used + ((textBytes text).length + 1)) hops next with _ | _
  · rfl
  · rfl

lemma labelsFrom_pointer {target : UInt16}
    (h : SegmentAt message.toList offset (.pointer target) next)
    (hback : target.toNat < offset) (hroom : hops + 1 ≤ maxPointerHops) :
    labelsFrom message used hops offset =
      (labelsFrom message used (hops + 1) target.toNat).map
        fun (texts, _) => (texts, next) := by
  rw [labelsFrom, Segment.read_of_segmentAt h]
  simp only [if_neg (Nat.not_le.2 hback), dif_neg (Nat.not_lt.2 hroom)]
  rcases labelsFrom message used (hops + 1) target.toNat with _ | _
  · rfl
  · rfl

/-- What is read is spelled, within what is left of the limits. -/
lemma spells_of_labelsFrom {texts : List String} {finish : Nat} (hused : used < maxNameLength)
    (hhops : hops ≤ maxPointerHops)
    (h : labelsFrom message used hops offset = .ok (texts, finish)) :
    ∃ count, Spells message.toList offset (texts.map textBytes) count finish ∧
      used + wireLength (texts.map textBytes) ≤ maxNameLength ∧
      hops + count ≤ maxPointerHops := by
  -- of the reader's cases only the three that succeed are left: terminator, label, pointer
  fun_induction labelsFrom message used hops offset generalizing texts finish with
  | case2 used hops offset next hread =>
    obtain ⟨rfl, rfl⟩ := Prod.mk.inj (Except.ok.inj h)
    exact ⟨0, .terminator (Segment.segmentAt_of_read hread), hused, hhops⟩
  | case6 used hops offset bytes next hread hroom text htext labels finish' hrest ih =>
    obtain ⟨rfl, rfl⟩ := Prod.mk.inj (Except.ok.inj h)
    obtain ⟨count, hspells, hlength, hcount⟩ := ih (by omega) hhops hrest
    have hbytes : bytes = textBytes (String.ofList text) := by
      rw [textBytes_ofList]
      exact Utf8.decode_eq_ok_iff.1 htext
    refine ⟨count, ?_, ?_, hcount⟩
    · rw [List.map_cons, ← hbytes]
      exact .label (Segment.segmentAt_of_read hread) hspells
    · rw [List.map_cons, wireLength_cons, ← hbytes]
      omega
  | case10 used hops offset target next hread hback hroom labels _ hrest ih =>
    obtain ⟨rfl, rfl⟩ := Prod.mk.inj (Except.ok.inj h)
    obtain ⟨count, hspells, hlength, hcount⟩ := ih hused (by omega) hrest
    exact ⟨count + 1, .pointer (Segment.segmentAt_of_read hread) (by omega) hspells, hlength,
      by omega⟩
  | _ => cases h

/-- What is spelled within the limits is read. -/
lemma labelsFrom_of_spells {texts : List String} {count finish : Nat}
    (h : Spells message.toList offset (texts.map textBytes) count finish)
    (hlength : used + wireLength (texts.map textBytes) ≤ maxNameLength)
    (hcount : hops + count ≤ maxPointerHops) :
    labelsFrom message used hops offset = .ok (texts, finish) := by
  generalize hlabels : texts.map textBytes = labels at h hlength
  -- what is used up grows while what is spelled shrinks, so the bounds are kept along the way
  induction h generalizing used hops texts with
  | terminator hseg =>
    obtain rfl := List.map_eq_nil_iff.1 hlabels
    exact labelsFrom_terminator hseg
  | @label _ next count finish _ _ hseg _ ih =>
    obtain ⟨text, others, rfl, rfl, rfl⟩ := List.map_eq_cons_iff.1 hlabels
    rw [wireLength_cons] at hlength
    have hpos := one_le_wireLength (others.map textBytes)
    have hrest : labelsFrom message (used + ((textBytes text).length + 1)) hops next =
        .ok (others, finish) := ih hcount rfl (by omega)
    rw [labelsFrom_label hseg (by omega), hrest]
    rfl
  | @pointer _ next count finish target _ hseg hback _ ih =>
    have hrest : labelsFrom message used (hops + 1) target.toNat = .ok (texts, finish) :=
      ih (by omega) hlabels hlength
    rw [labelsFrom_pointer hseg hback (by omega), hrest]
    rfl

/-- The invariant of the reader. -/
lemma labelsFrom_eq_ok_iff {texts : List String} {finish : Nat} (hused : used < maxNameLength)
    (hhops : hops ≤ maxPointerHops) :
    labelsFrom message used hops offset = .ok (texts, finish) ↔
      ∃ count, Spells message.toList offset (texts.map textBytes) count finish ∧
        used + wireLength (texts.map textBytes) ≤ maxNameLength ∧
        hops + count ≤ maxPointerHops :=
  ⟨spells_of_labelsFrom hused hhops,
    fun ⟨_, hspells, hlength, hcount⟩ => labelsFrom_of_spells hspells hlength hcount⟩

/-! ## Names as texts -/

lemma encode_intercalate (separator : List Char) (texts : List (List Char)) :
    Utf8.encode (separator.intercalate texts) =
      (Utf8.encode separator).intercalate (texts.map Utf8.encode) := by
  induction texts with
  | nil => simp
  | cons text texts ih =>
    cases texts with
    | nil => simp
    | cons next texts =>
      simp only [List.map_cons] at ih ⊢
      rw [List.intercalate_cons_cons, List.intercalate_cons_cons, Utf8.encode_append,
        Utf8.encode_append, ih]

lemma bytes_ofLabels (texts : List String) :
    (ofLabels texts).bytes = [0x2E].intercalate (texts.map textBytes) := by
  have hdot : Utf8.encode ".".toList = [0x2E] := by decide
  rw [bytes, ofLabels, String.toList_intercalate, encode_intercalate, hdot, List.map_map]
  rfl

/-- A name is determined by its bytes. -/
lemma bytes_injective {first second : Name} (h : first.bytes = second.bytes) :
    first = second := by
  obtain ⟨first⟩ := first
  obtain ⟨second⟩ := second
  congr 1
  exact String.toList_inj.1 (Utf8.encode_injective h)

lemma decode_eq_ok {message : Bytes} {start finish : Nat} {name : Name} :
    decode message start = .ok (name, finish) ↔
      ∃ texts, labelsFrom message.toArray 0 0 start = .ok (texts, finish) ∧
        name = ofLabels texts := by
  rw [decode, Reader.run, Name.read]
  rcases labelsFrom message.toArray 0 0 start with error | ⟨texts, next⟩
  · simp
  · constructor
    · intro h
      obtain ⟨rfl, rfl⟩ := Prod.mk.inj (Except.ok.inj h)
      exact ⟨texts, rfl, rfl⟩
    · rintro ⟨texts', h, rfl⟩
      obtain ⟨rfl, rfl⟩ := Prod.mk.inj (Except.ok.inj h)
      rfl

/-- What is read as a name is spelled there, and keeps to the limits. -/
lemma spells_of_decode {message : Bytes} {start finish : Nat} {name : Name}
    (h : decode message start = .ok (name, finish)) :
    ∃ texts hops, name = ofLabels texts ∧
      Spells message start (texts.map textBytes) hops finish ∧
      wireLength (texts.map textBytes) ≤ maxNameLength ∧ hops ≤ maxPointerHops := by
  obtain ⟨texts, htexts, hname⟩ := decode_eq_ok.1 h
  obtain ⟨hops, hspells, hlength, hhops⟩ := spells_of_labelsFrom (by decide) (by decide) htexts
  rw [Nat.zero_add] at hlength hhops
  exact ⟨texts, hops, hname, hspells, hlength, hhops⟩

/-- **A name is decoded exactly where one is spelled** that takes up at most 255 bytes
without pointers and follows at most 128 of them, with labels that are text. -/
theorem decode_eq_ok_iff_spells (message : Bytes) (start : Nat) (name : Name) (finish : Nat) :
    decode message start = .ok (name, finish) ↔
      ∃ labels hops, Spells message start labels hops finish ∧
        (∀ label ∈ labels, Utf8.Valid label) ∧
        (labels.map (·.length + 1)).sum + 1 ≤ 255 ∧ hops ≤ 128 ∧
        name.bytes = [0x2E].intercalate labels := by
  rw [decode_eq_ok]
  constructor
  · rintro ⟨texts, h, rfl⟩
    obtain ⟨hops, hspells, hlength, hhops⟩ :=
      (labelsFrom_eq_ok_iff (by decide) (by decide)).1 h
    rw [Nat.zero_add] at hlength hhops
    rw [wireLength_eq_sum] at hlength
    refine ⟨texts.map textBytes, hops, hspells, ?_, hlength, hhops, bytes_ofLabels texts⟩
    intro label hlabel
    obtain ⟨text, -, rfl⟩ := List.mem_map.1 hlabel
    exact ⟨text.toList, rfl⟩
  · rintro ⟨labels, hops, hspells, hvalid, hlength, hhops, hname⟩
    obtain ⟨texts, rfl⟩ := exists_texts hvalid
    refine ⟨texts, (labelsFrom_eq_ok_iff (by decide) (by decide)).2 ⟨hops, hspells, ?_, ?_⟩, ?_⟩
    · rw [Nat.zero_add, wireLength_eq_sum]
      exact hlength
    · rw [Nat.zero_add]
      exact hhops
    · exact bytes_injective (hname.trans (bytes_ofLabels texts).symm)

end Name

end StubResolver
