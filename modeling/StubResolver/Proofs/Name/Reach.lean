/-
# How far a name reaches

A name ends where it stands, but with a pointer it goes on at an earlier offset, and from there
forward again, maybe past the pointer that led there.  It gets past a pointer only within a
label, and so only if the two bytes of the pointer stand in a text.  A byte of 192 or more
begins a character there, and is at least 194 and followed by a byte of 128 or more
(`Utf8.continued_of_encode`).  As a pointer these two bytes lead to offset 640 or further.

A name that ends at offset 642 or before has its pointers at 640 or before, and these lead to
earlier offsets yet.  So it stays in front of its own end and is not changed by anything behind
it (`Spells.take`, `decode_take`).
-/
import StubResolver.Proofs.Name.WrittenBack

namespace StubResolver

/-! ## Texts -/

namespace Utf8

/-- A character is a single byte, or a first byte and more of those that begin no character. -/
lemma utf8EncodeChar_cases (c : Char) :
    (∃ byte, String.utf8EncodeChar c = [byte] ∧ byte.toNat < 128) ∨
      ∃ first second others, String.utf8EncodeChar c = first :: second :: others ∧
        194 ≤ first.toNat ∧ ∀ byte ∈ second :: others, 128 ≤ byte.toNat ∧ byte.toNat < 192 := by
  have hv : c.val.toNat < 0xD800 ∨ 0xDFFF < c.val.toNat ∧ c.val.toNat < 0x110000 := c.valid
  simp only [String.utf8EncodeChar]
  generalize c.val.toNat = n at *
  split
  · exact .inl ⟨_, rfl, by rw [toNat_byteOfNat (by omega)]; omega⟩
  · right
    -- two, three or four bytes
    repeat' split
    all_goals
      refine ⟨_, _, _, rfl, ?_, ?_⟩
      · rw [toNat_byteOfNat (by omega)]
        omega
      · simp only [List.mem_cons, List.not_mem_nil, or_false, forall_eq_or_imp, forall_eq,
          UInt8.toNat_ofNat']
        omega

lemma continued_of_char {c : Char} {i : Nat} {byte : UInt8}
    (h : (String.utf8EncodeChar c)[i]? = some byte) (hlead : 192 ≤ byte.toNat) :
    194 ≤ byte.toNat ∧
      ∃ next, (String.utf8EncodeChar c)[i + 1]? = some next ∧ 128 ≤ next.toNat := by
  rcases utf8EncodeChar_cases c with
    ⟨single, hc, hsingle⟩ | ⟨first, second, others, hc, hfirst, hrest⟩
  · rw [hc] at h
    obtain rfl := List.mem_singleton.1 (List.mem_of_getElem? h)
    omega
  · rw [hc] at h ⊢
    cases i with
    | zero =>
      obtain rfl := Option.some.inj h
      exact ⟨hfirst, second, rfl, (hrest second List.mem_cons_self).1⟩
    | succ i =>
      -- a byte behind the first one is below 192
      rw [List.getElem?_cons_succ] at h
      have hbyte := hrest byte (List.mem_of_getElem? h)
      omega

/-- In a text a byte of 192 or more begins a character of several bytes. -/
lemma continued_of_encode {text : List Char} {i : Nat} {byte : UInt8}
    (h : (encode text)[i]? = some byte) (hlead : 192 ≤ byte.toNat) :
    194 ≤ byte.toNat ∧ ∃ next, (encode text)[i + 1]? = some next ∧ 128 ≤ next.toNat := by
  induction text generalizing i with
  | nil => simp at h
  | cons c text ih =>
    rw [encode_cons] at h ⊢
    rcases Nat.lt_or_ge i (String.utf8EncodeChar c).length with hlt | hge
    · rw [List.getElem?_append_left hlt] at h
      obtain ⟨hbyte, next, hnext, hle⟩ := continued_of_char h hlead
      refine ⟨hbyte, next, ?_, hle⟩
      rw [List.getElem?_append_left (List.getElem?_eq_some_iff.1 hnext).1, hnext]
    · rw [List.getElem?_append_right hge] at h
      obtain ⟨hbyte, next, hnext, hle⟩ := ih h
      refine ⟨hbyte, next, ?_, hle⟩
      rw [List.getElem?_append_right (by omega), ← hnext]
      congr 1
      omega

end Utf8

/-! ## Pointers and labels -/

variable {message : Bytes} {offset next : Nat}

lemma SegmentAt.unique {segment segment' : Segment} {next' : Nat}
    (h : SegmentAt message offset segment next) (h' : SegmentAt message offset segment' next') :
    segment = segment' ∧ next = next' := by
  have hread : Segment.read message.toArray offset = .ok (segment, next) :=
    Segment.read_of_segmentAt h
  rw [Segment.read_of_segmentAt h'] at hread
  obtain ⟨rfl, rfl⟩ := Prod.mk.inj (Except.ok.inj hread)
  exact ⟨rfl, rfl⟩

lemma SegmentAt.next_of_pointer {target : UInt16}
    (h : SegmentAt message offset (.pointer target) next) : next = offset + 2 := by
  cases h
  rfl

/-- A label that is text ends in front of a pointer to an offset below 640. -/
lemma SegmentAt.label_end_le {label : Bytes} {target : UInt16} {place behind : Nat}
    (h : SegmentAt message offset (.label label) next) (hvalid : Utf8.Valid label)
    (hpointer : SegmentAt message place (.pointer target) behind) (htarget : target.toNat < 640)
    (hlt : offset < place) : next ≤ place := by
  by_contra hover
  obtain ⟨text, htext⟩ := hvalid
  cases hpointer with
  | @pointer high low hhigh hge hlow =>
  cases h with
  | @label length hlength hpos hle hend =>
  -- the pointer stands in the label, and so in the text
  have hinside {index : Nat} (hindex : index < length.toNat) :
      (Utf8.encode text)[index]? = message[offset + 1 + index]? := by
    rw [← htext, List.getElem?_take_of_lt hindex, List.getElem?_drop]
  obtain ⟨index, rfl⟩ : ∃ index, place = offset + 1 + index := ⟨place - (offset + 1), by omega⟩
  rw [← hinside (by omega)] at hhigh
  obtain ⟨hlead, second, hsecond, htail⟩ := Utf8.continued_of_encode hhigh hge
  have hindex : index + 1 < length.toNat := by
    obtain ⟨hlt', -⟩ := List.getElem?_eq_some_iff.1 hsecond
    rw [← htext, List.length_take] at hlt'
    omega
  rw [hinside hindex, ← Nat.add_assoc, hlow] at hsecond
  obtain rfl := Option.some.inj hsecond
  have hhigh' := high.toNat_lt
  have hlow' := low.toNat_lt
  rw [UInt16.toNat_ofNat'] at htarget
  omega

/-! ## Names -/

/-- What is spelled in front of a pointer to an offset below 640 does not get past it. -/
lemma Spells.finish_le {labels : List Bytes} {hops finish place behind : Nat} {target : UInt16}
    (h : Spells message offset labels hops finish) (hvalid : ∀ label ∈ labels, Utf8.Valid label)
    (hpointer : SegmentAt message place (.pointer target) behind) (htarget : target.toNat < 640)
    (hle : offset ≤ place) : finish ≤ behind := by
  have hbehind := hpointer.next_of_pointer
  induction h with
  | terminator hseg =>
    cases hseg
    omega
  | @label offset next hops finish label labels hseg _ ih =>
    have hne : offset ≠ place := by
      rintro rfl
      exact absurd (hseg.unique hpointer).1 (by simp)
    exact ih (fun other hother => hvalid other (List.mem_cons_of_mem label hother))
      (hseg.label_end_le (hvalid label List.mem_cons_self) hpointer htarget (by omega))
  | pointer hseg =>
    have hnext := hseg.next_of_pointer
    omega

/-- A name that ends at offset 642 or before is spelled without what stands behind its end. -/
lemma Spells.take {labels : List Bytes} {hops finish bound : Nat}
    (h : Spells message offset labels hops finish) (hvalid : ∀ label ∈ labels, Utf8.Valid label)
    (hle : finish ≤ bound) (hbound : bound ≤ 642) :
    Spells (message.take bound) offset labels hops finish := by
  induction h with
  | terminator hseg => exact .terminator (hseg.take hle)
  | label hseg hrest ih =>
    have hnext := hrest.bounds.1
    exact .label (hseg.take (by omega))
      (ih (fun other hother => hvalid other (List.mem_cons_of_mem _ hother)) hle)
  | @pointer offset next hops finish target labels hseg hback hrest ih =>
    have hnext := hseg.next_of_pointer
    -- the pointer stands at 640 or before, so what it leads to does not get past it
    have hend := hrest.finish_le hvalid hseg (by omega) (by omega)
    exact .pointer (hseg.take hle) hback (ih hvalid (by omega))

namespace Name

lemma valid_textBytes (texts : List String) :
    ∀ label ∈ texts.map textBytes, Utf8.Valid label := by
  intro label hlabel
  obtain ⟨text, -, rfl⟩ := List.mem_map.1 hlabel
  exact ⟨text.toList, rfl⟩

/-- A name that ends at offset 642 or before is read without what stands behind its end. -/
lemma decode_take {start finish bound : Nat} {name : Name}
    (h : decode message start = .ok (name, finish)) (hle : finish ≤ bound) (hbound : bound ≤ 642) :
    decode (message.take bound) start = .ok (name, finish) := by
  obtain ⟨texts, hops, rfl, hspells, hlength, hhops⟩ := spells_of_decode h
  exact decode_of_spells (hspells.take (valid_textBytes texts) hle hbound) hlength hhops

end Name

end StubResolver
