/-
# The wire form of a name

A name is written as its segments, cut from its bytes, and is shown by its labels, cut from
its characters.  Both cuts agree (`segments_eq`), since the byte of the dot occurs in no
other character.  A name can be written exactly when it keeps to the limits
(`encode_eq_ok_iff`), and wherever its wire form stands in a message, the same name is read
back but for the empty pieces of its text (`decode_of_holds`).
-/
import StubResolver.Proofs.Name.Grammar
import StubResolver.Proofs.Writing

namespace StubResolver

/-! ## Cutting at dots -/

lemma not_mem_of_mem_splitOn {α : Type} [BEq α] [LawfulBEq α] {separator : α}
    {pieces piece : List α} (h : piece ∈ pieces.splitOn separator) : separator ∉ piece := by
  induction pieces generalizing piece with
  | nil =>
    rw [List.splitOn_nil, List.mem_singleton] at h
    simp [h]
  | cons head tail ih =>
    rw [List.splitOn_cons_eq_if_modifyHead] at h
    split at h
    · rcases List.mem_cons.1 h with rfl | h
      · simp
      · exact ih h
    · rename_i hne
      obtain ⟨first, others, hsplit⟩ :=
        List.exists_cons_of_ne_nil (List.splitOn_ne_nil separator tail)
      -- the head joins the first piece of the tail
      rw [hsplit] at h ih
      rcases List.mem_cons.1 h with rfl | h
      · intro hmem
        rcases List.mem_cons.1 hmem with rfl | hmem
        · simp at hne
        · exact ih List.mem_cons_self hmem
      · exact ih (List.mem_cons_of_mem first h)

/-- A character that takes more than one byte has none of the bytes of the others. -/
lemma le_of_mem_utf8EncodeChar {c : Char} (hc : 128 ≤ c.val.toNat) :
    ∀ byte ∈ String.utf8EncodeChar c, 128 ≤ byte.toNat := by
  have hv : c.val.toNat < 0xD800 ∨ 0xDFFF < c.val.toNat ∧ c.val.toNat < 0x110000 := c.valid
  simp only [String.utf8EncodeChar]
  -- two, three or four bytes: the first is at least 192, and the others are between 128 and 191
  generalize c.val.toNat = n at *
  repeat' split
  all_goals
    simp only [List.mem_cons, List.not_mem_nil, or_false, forall_eq_or_imp, forall_eq,
      UInt8.toNat_ofNat']
    omega

lemma eq_dot_of_mem_utf8EncodeChar {c : Char} (h : 0x2E ∈ String.utf8EncodeChar c) :
    c = '.' := by
  by_cases hc : 128 ≤ c.val.toNat
  · have hle := le_of_mem_utf8EncodeChar hc _ h
    simp at hle
  · rw [String.utf8EncodeChar, if_pos (by omega), List.mem_singleton] at h
    have hnat := congrArg UInt8.toNat h
    rw [Utf8.toNat_byteOfNat (by omega)] at hnat
    exact Char.ext (UInt32.toNat_inj.1 hnat.symm)

/-- The byte of the dot occurs in the bytes of a text only where the dot does. -/
lemma dot_mem_of_mem_encode {text : List Char} (h : 0x2E ∈ Utf8.encode text) : '.' ∈ text := by
  obtain ⟨c, hc, hdot⟩ := List.mem_flatMap.1 h
  rwa [← eq_dot_of_mem_utf8EncodeChar hdot]

lemma splitOn_encode (text : List Char) :
    (Utf8.encode text).splitOn 0x2E = (text.splitOn '.').map Utf8.encode := by
  have hdot : Utf8.encode ['.'] = [0x2E] := by decide
  have hjoin : Utf8.encode text = [0x2E].intercalate ((text.splitOn '.').map Utf8.encode) := by
    have htext : ['.'].intercalate (text.splitOn '.') = text := List.intercalate_splitOn '.'
    rw [← hdot, ← Name.encode_intercalate, htext]
  -- joining and cutting undo each other as soon as no piece has a dot of its own
  rw [hjoin]
  refine List.splitOn_intercalate 0x2E ?_ ?_
  · intro bytes hbytes hmem
    obtain ⟨piece, hpiece, rfl⟩ := List.mem_map.1 hbytes
    exact not_mem_of_mem_splitOn hpiece (dot_mem_of_mem_encode hmem)
  · simp [List.splitOn_ne_nil]

lemma isEmpty_encode (text : List Char) : (Utf8.encode text).isEmpty = text.isEmpty := by
  cases text with
  | nil => rfl
  | cons c text => simp [Utf8.encode_cons, String.utf8EncodeChar_ne_nil]

namespace Name

/-- Both ways of cutting a name at its dots agree. -/
lemma segments_eq (name : Name) : name.segments = name.labels.map textBytes := by
  have hempty : ((!·.isEmpty) ∘ Utf8.encode : List Char → Bool) = (!·.isEmpty) := by
    funext text
    rw [Function.comp_apply, isEmpty_encode]
  have htext : textBytes ∘ String.ofList = Utf8.encode := by
    funext text
    rw [Function.comp_apply, textBytes_ofList]
  rw [segments, bytes, splitOn_encode, List.filter_map, hempty, labels, List.map_map, htext]

/-- The name without the empty pieces of its text. -/
def normal (name : Name) : Name :=
  ofLabels name.labels

/-! ## Writing -/

/-- Neither a label of the name nor the whole name is too long to be written. -/
def WithinLimits (name : Name) : Prop :=
  (∀ label ∈ name.segments, label.length ≤ maxLabelLength) ∧
    wireLength name.segments ≤ maxNameLength

/-- The name is refused in writing, for its first label that is too long or else as a whole. -/
inductive TooLong (name : Name) : WireError → Prop
  | label {before after : List Bytes} {label : Bytes} :
      name.segments = before ++ label :: after →
      (∀ earlier ∈ before, earlier.length ≤ maxLabelLength) → maxLabelLength < label.length →
      TooLong name (.labelTooLong label.length)
  | whole : (∀ label ∈ name.segments, label.length ≤ maxLabelLength) →
      maxNameLength < wireLength name.segments →
      TooLong name (.nameTooLong (wireLength name.segments))

/-- A label that can be written: there is something to it, and not too much. -/
def IsLabel (label : Bytes) : Prop :=
  1 ≤ label.length ∧ label.length ≤ maxLabelLength

instance (label : Bytes) : Decidable (IsLabel label) :=
  inferInstanceAs (Decidable (_ ∧ _))

lemma IsLabel.ne_nil {label : Bytes} (h : IsLabel label) : label ≠ [] :=
  List.length_pos_iff.1 h.1

lemma WithinLimits.isLabel {name : Name} (h : name.WithinLimits) :
    ∀ label ∈ name.segments, IsLabel label := by
  intro label hlabel
  have hne := (List.mem_filter.1 hlabel).2
  rw [Bool.not_eq_true', List.isEmpty_eq_false_iff] at hne
  exact ⟨List.length_pos_iff.2 hne, h.1 label hlabel⟩

@[simp] lemma length_flatMap_labelBytes (labels : List Bytes) :
    (labels.flatMap Segment.labelBytes).length + 1 = wireLength labels := by
  rw [wireLength_eq_sum, List.length_flatMap]
  rfl

@[simp] lemma length_wireForm (labels : List Bytes) :
    (wireForm labels).length = wireLength labels := by
  rw [wireForm, List.length_append, List.length_singleton, length_flatMap_labelBytes]

/-- The first label that is too long, with those in front of it. -/
lemma find?_eq_some_iff {name : Name} {label : Bytes} :
    name.segments.find? (maxLabelLength < ·.length) = some label ↔
      maxLabelLength < label.length ∧ ∃ before after, name.segments = before ++ label :: after ∧
        ∀ earlier ∈ before, earlier.length ≤ maxLabelLength := by
  rw [List.find?_eq_some_iff_append]
  simp

lemma find?_eq_none_iff {name : Name} :
    name.segments.find? (maxLabelLength < ·.length) = none ↔
      ∀ label ∈ name.segments, label.length ≤ maxLabelLength := by
  simp

lemma write_of_withinLimits {name : Name} (h : name.WithinLimits) :
    Name.write name = .put (wireForm name.segments) := by
  rw [Name.write, find?_eq_none_iff.2 h.1]
  exact if_neg (Nat.not_lt.2 h.2)

/-- A name that is too long is refused for that. -/
lemma TooLong.write_eq {name : Name} {error : WireError} (h : name.TooLong error) :
    Name.write name = .fail error := by
  rw [Name.write]
  cases h with
  | label hsegments hbefore hlong =>
    rw [find?_eq_some_iff.2 ⟨hlong, _, _, hsegments, hbefore⟩]
  | whole hshort hlong =>
    rw [find?_eq_none_iff.2 hshort]
    exact if_pos hlong

lemma TooLong.not_withinLimits {name : Name} {error : WireError} (h : name.TooLong error) :
    ¬name.WithinLimits := by
  rintro ⟨hshort, hlength⟩
  cases h with
  | label hsegments _ hlong =>
    rw [hsegments] at hshort
    exact Nat.not_le.2 hlong (hshort _ (by simp))
  | whole _ hlong => exact Nat.not_le.2 hlong hlength

/-- A name keeps to the limits or is too long. -/
lemma withinLimits_or_tooLong (name : Name) :
    name.WithinLimits ∨ ∃ error, name.TooLong error := by
  rcases hfind : name.segments.find? (maxLabelLength < ·.length) with _ | label
  · have hshort := find?_eq_none_iff.1 hfind
    rcases Nat.lt_or_ge maxNameLength (wireLength name.segments) with hlong | hlength
    · exact .inr ⟨_, .whole hshort hlong⟩
    · exact .inl ⟨hshort, hlength⟩
  · obtain ⟨hlong, before, after, hsegments, hbefore⟩ := find?_eq_some_iff.1 hfind
    exact .inr ⟨_, .label hsegments hbefore hlong⟩

lemma puts_write (name : Name) :
    Writer.Puts (write name) name.WithinLimits (wireForm name.segments) := by
  show Writer.Puts (Name.write name) _ _
  rcases name.withinLimits_or_tooLong with h | ⟨error, h⟩
  · rw [write_of_withinLimits h]
    exact (Writer.puts_put _).congr (iff_of_true trivial h)
  · rw [h.write_eq]
    exact Writer.puts_fail.congr (iff_of_false id h.not_withinLimits)

lemma encode_eq_ok_iff {name : Name} {bytes : Bytes} :
    encode name = .ok bytes ↔ name.WithinLimits ∧ bytes = wireForm name.segments :=
  StubResolver.encode_eq_ok_iff (puts_write name) (length_wireForm _).symm

/-- A name that cannot be written is too long. -/
lemma encode_eq_error_iff {name : Name} {error : WireError} :
    encode name = .error error ↔ name.TooLong error := by
  constructor
  · intro h
    rcases name.withinLimits_or_tooLong with hlimits | ⟨found, hlong⟩
    · rw [encode_eq_ok_iff.2 ⟨hlimits, rfl⟩] at h
      cases h
    · have hencode : encode name = .error found := congrFun hlong.write_eq (size name)
      obtain rfl := Except.error.inj (hencode.symm.trans h)
      exact hlong
  · intro h
    exact congrFun h.write_eq (size name)

/-! ## Reading what was written -/

lemma segmentAt_of_holds {message label : Bytes} {offset : Nat}
    (hlabel : IsLabel label) (h : Holds message offset (Segment.labelBytes label)) :
    SegmentAt message offset (.label label) (offset + (label.length + 1)) := by
  obtain ⟨hpos, hle⟩ := hlabel
  obtain ⟨hlength, hbytes⟩ := holds_cons.1 h
  have hend := hbytes.end_le (List.length_pos_iff.1 hpos)
  have hnat : (UInt8.ofNat label.length).toNat = label.length :=
    Utf8.toNat_byteOfNat (Nat.lt_of_le_of_lt hle (by decide))
  have hseg := SegmentAt.label hlength (by omega) (by rw [hnat]; exact hle) (by omega)
  rw [hnat, holds_iff_take.1 hbytes] at hseg
  rwa [Nat.add_comm label.length 1, ← Nat.add_assoc]

/-- Labels that stand in front of a name are spelled before what it spells. -/
lemma spells_append {message : Bytes} {labels others : List Bytes} {offset hops finish : Nat}
    (hlabels : ∀ label ∈ labels, IsLabel label)
    (hat : Holds message offset (labels.flatMap Segment.labelBytes))
    (h : Spells message (offset + (labels.flatMap Segment.labelBytes).length) others hops finish) :
    Spells message offset (labels ++ others) hops finish := by
  induction labels generalizing offset with
  | nil => exact h
  | cons label labels ih =>
    rw [List.flatMap_cons, List.length_append, ← Nat.add_assoc] at h
    rw [List.flatMap_cons, holds_append] at hat
    exact .label (segmentAt_of_holds (hlabels label List.mem_cons_self) hat.1)
      (ih (fun other hother => hlabels other (List.mem_cons_of_mem label hother)) hat.2 h)

/-- Labels in their wire form are spelled without pointers. -/
lemma spells_of_holds {message : Bytes} {labels : List Bytes} {offset : Nat}
    (hlabels : ∀ label ∈ labels, IsLabel label)
    (hat : Holds message offset (wireForm labels)) :
    Spells message offset labels 0 (offset + wireLength labels) := by
  rw [wireForm, holds_append, holds_singleton] at hat
  rw [← length_flatMap_labelBytes, ← Nat.add_assoc]
  simpa using spells_append hlabels hat.1 (.terminator (.terminator hat.2))

lemma decode_of_spells {message : Bytes} {texts : List String} {offset hops finish : Nat}
    (h : Spells message offset (texts.map textBytes) hops finish)
    (hlength : wireLength (texts.map textBytes) ≤ maxNameLength) (hhops : hops ≤ maxPointerHops) :
    decode message offset = .ok (ofLabels texts, finish) :=
  decode_eq_ok.2 ⟨texts, labelsFrom_of_spells h (by omega) (by omega), rfl⟩

/-- **A name that was written is read back** wherever it stands, without the empty pieces of
its text. -/
theorem decode_of_holds {message : Bytes} {name : Name} {offset : Nat}
    (hlimits : name.WithinLimits) (hat : Holds message offset (wireForm name.segments)) :
    decode message offset = .ok (name.normal, offset + wireLength name.segments) := by
  have hspells := spells_of_holds hlimits.isLabel hat
  have hlength := hlimits.2
  rw [segments_eq] at hspells hlength ⊢
  exact decode_of_spells hspells hlength (Nat.zero_le _)

end Name

end StubResolver
