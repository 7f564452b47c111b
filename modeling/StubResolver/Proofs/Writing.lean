/-
# What writers put

A writer of a value with one wire form `Puts` exactly this form: it succeeds when the value
is allowed and there is room for the form, and writers that follow one another put their
forms one after the other (`Puts.append`).  On its own a value is given the room that its
form needs, so there it is written as soon as it is allowed (`encode_eq_ok_iff`).

Several values are encoded one after the other.  Wherever the result stands in a message,
entries for the values follow one another, if each value alone has an entry where its wire
form stands (`exists_consecutive_of_encodeAll`).
-/
import StubResolver.Proofs.Reading

namespace StubResolver

namespace Writer

/-- The writer puts the given bytes whenever there is room for them, and nothing if they
are not allowed. -/
def Puts (writer : Writer) (allowed : Prop) (bytes : Bytes) : Prop :=
  ∀ room out, writer room = .ok out ↔ allowed ∧ bytes.length ≤ room ∧ out = bytes

lemma puts_put (bytes : Bytes) : Puts (put bytes) True bytes := by
  intro room out
  rw [put, true_and]
  constructor
  · intro h
    split at h
    · cases h
    · exact ⟨by omega, (Except.ok.inj h).symm⟩
  · rintro ⟨hroom, rfl⟩
    rw [if_neg (by omega)]

lemma puts_fail {error : WireError} {bytes : Bytes} : Puts (fail error) False bytes := by
  intro room out
  simp [fail]

lemma Puts.congr {writer : Writer} {allowed allowed' : Prop} {bytes : Bytes}
    (h : Puts writer allowed bytes) (hiff : allowed ↔ allowed') : Puts writer allowed' bytes := by
  intro room out
  rw [← hiff]
  exact h room out

lemma Puts.append {first second : Writer} {allowed allowed' : Prop} {bytes bytes' : Bytes}
    (h : Puts first allowed bytes) (h' : Puts second allowed' bytes') :
    Puts (first ++ second) (allowed ∧ allowed') (bytes ++ bytes') := by
  intro room out
  rw [append_apply, List.length_append]
  constructor
  · intro hout
    split at hout
    · cases hout
    · rename_i hfirst
      obtain ⟨hallowed, hroom, rfl⟩ := (h _ _).1 hfirst
      split at hout
      · cases hout
      · rename_i hsecond
        obtain ⟨hallowed', hroom', rfl⟩ := (h' _ _).1 hsecond
        exact ⟨⟨hallowed, hallowed'⟩, by omega, (Except.ok.inj hout).symm⟩
  · rintro ⟨⟨hallowed, hallowed'⟩, hroom, rfl⟩
    have hfirst : first room = .ok bytes := (h _ _).2 ⟨hallowed, by omega, rfl⟩
    have hsecond : second (room - bytes.length) = .ok bytes' :=
      (h' _ _).2 ⟨hallowed', by omega, rfl⟩
    rw [hfirst]
    simp only [hsecond]

lemma puts_word (word : UInt16) : Puts (write word) True (Bytes.toBigEndian 2 word.toNat) :=
  puts_put _

lemma puts_long (long : UInt32) : Puts (write long) True (Bytes.toBigEndian 4 long.toNat) :=
  puts_put _

lemma puts_header (header : Header) : Puts (write header) True header.wire := by
  have h := (((((puts_word header.id).append (puts_word header.flags.word)).append
    (puts_word header.questionCount)).append (puts_word header.answerCount)).append
    (puts_word header.authorityCount)).append (puts_word header.additionalCount)
  exact h.congr (by simp only [and_true])

end Writer

/-- A value is encoded whenever it is allowed, since it asks for just the room it needs. -/
lemma encode_eq_ok_iff {α : Type} [Writable α] {value : α} {allowed : Prop} {bytes out : Bytes}
    (h : Writer.Puts (write value) allowed bytes) (hsize : size value = bytes.length) :
    encode value = .ok out ↔ allowed ∧ out = bytes := by
  rw [encode, h, hsize]
  simp only [Nat.le_refl, true_and]

lemma Header.encode_eq (header : Header) : encode header = .ok header.wire :=
  (encode_eq_ok_iff (Writer.puts_header header) (Header.length_wire header).symm).2
    ⟨trivial, rfl⟩

/-! ## Several values -/

/-- Several values in their wire form, one after the other. -/
def encodeAll {α : Type} [Writable α] : List α → Except WireError Bytes
  | [] => .ok []
  | value :: values =>
    match encode value with
    | .error error => .error error
    | .ok bytes =>
      match encodeAll values with
      | .error error => .error error
      | .ok others => .ok (bytes ++ others)

section

variable {α : Type} [Writable α]

lemma encodeAll_cons_eq_ok_iff {value : α} {values : List α} {out : Bytes} :
    encodeAll (value :: values) = .ok out ↔ ∃ bytes others, encode value = .ok bytes ∧
      encodeAll values = .ok others ∧ out = bytes ++ others := by
  rw [encodeAll]
  constructor
  · intro h
    split at h
    · cases h
    · split at h
      · cases h
      · exact ⟨_, _, ‹_›, ‹_›, (Except.ok.inj h).symm⟩
  · rintro ⟨bytes, others, hvalue, hvalues, rfl⟩
    simp only [hvalue, hvalues]

lemma exists_encodeAll {values : List α}
    (h : ∀ value ∈ values, ∃ bytes, encode value = .ok bytes) :
    ∃ bytes, encodeAll values = .ok bytes := by
  induction values with
  | nil => exact ⟨[], rfl⟩
  | cons value values ih =>
    obtain ⟨bytes, hbytes⟩ := h value List.mem_cons_self
    obtain ⟨others, hothers⟩ := ih fun other hother => h other (List.mem_cons_of_mem value hother)
    exact ⟨bytes ++ others, encodeAll_cons_eq_ok_iff.2 ⟨bytes, others, hbytes, hothers, rfl⟩⟩

/-- Entries that show as much as the encoded values follow one another wherever the encoding
stands. -/
lemma exists_consecutive_of_encodeAll {β γ : Type} {Entry : β → Nat → Nat → Prop}
    {message : Bytes} {view : β → γ} {expected : α → γ}
    (hentry : ∀ value bytes offset, encode value = .ok bytes → Holds message offset bytes →
      ∃ entry, view entry = expected value ∧ Entry entry offset (offset + bytes.length))
    {values : List α} {bytes : Bytes} {offset : Nat} (h : encodeAll values = .ok bytes)
    (hat : Holds message offset bytes) :
    ∃ entries, entries.map view = values.map expected ∧
      Consecutive Entry entries offset (offset + bytes.length) := by
  induction values generalizing bytes offset with
  | nil =>
    obtain rfl := Except.ok.inj h
    exact ⟨[], rfl, .nil⟩
  | cons value values ih =>
    obtain ⟨bytes, others, hvalue, hvalues, rfl⟩ := encodeAll_cons_eq_ok_iff.1 h
    obtain ⟨hfirst, hothers⟩ := holds_append.1 hat
    obtain ⟨entry, hview, hplaced⟩ := hentry value bytes offset hvalue hfirst
    -- the entries of the other values begin where the first one ends
    obtain ⟨entries, hviews, hrow⟩ := ih hvalues hothers
    refine ⟨entry :: entries, ?_, ?_⟩
    · rw [List.map_cons, List.map_cons, hview, hviews]
    · rw [List.length_append, ← Nat.add_assoc]
      exact .cons hplaced hrow

end

end StubResolver
