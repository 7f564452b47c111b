/-
# What readers take

A reader of fields of a known form `Takes` exactly this form: it succeeds where the bytes of
a value stand in the message, with that value, and goes on behind them.  Integers, flags and
headers are read this way.  The offsets of names and records are not fixed by their values,
so for them only the sequence is described: `Consecutive` values each begin where the one
before ends, and reading a counted number of values is the same as finding as many
consecutive ones (`times_eq_ok_iff`).
-/
import StubResolver.Flags.Lemmas
import StubResolver.Header
import StubResolver.Proofs.BigEndian
import StubResolver.Proofs.Placement

namespace StubResolver

namespace Reader

variable {α β : Type} {message : Message} {position next : Nat}

lemma bind_eq_ok_iff {reader : Reader α} {continuation : α → Reader β} {value : β} :
    (reader >>= continuation) message position = .ok (value, next) ↔
      ∃ first middle, reader message position = .ok (first, middle) ∧
        continuation first message middle = .ok (value, next) := by
  rw [bind_apply]
  constructor
  · intro h
    split at h
    · cases h
    · exact ⟨_, _, ‹_›, h⟩
  · rintro ⟨first, middle, hfirst, h⟩
    rw [hfirst]
    exact h

lemma pure_eq_ok_iff {first value : α} :
    (pure first : Reader α) message position = .ok (value, next) ↔
      value = first ∧ next = position := by
  rw [pure_apply]
  simp [eq_comm]

/-! ## Fields of a known form -/

lemma take_eq_ok_iff {count : Nat} {bytes : Bytes} :
    take count message position = .ok (bytes, next) ↔
      bytes.length = count ∧ Holds message.toList position bytes ∧ next = position + count := by
  rw [take]
  constructor
  · intro h
    split at h
    · rename_i hle
      obtain ⟨rfl, rfl⟩ := Prod.mk.inj (Except.ok.inj h)
      refine ⟨Message.length_slice hle, ?_, rfl⟩
      rw [Message.slice_eq]
      exact List.take_prefix _ _
    · cases h
  · rintro ⟨rfl, hat, rfl⟩
    have hle : bytes.length ≤ message.size - position := by simpa using hat.length_le
    rw [if_pos hle, Message.slice_eq, holds_iff_take.1 hat]

/-- The reader finds just the values whose bytes, as given by `wire`, stand at the position,
and goes on behind these bytes. -/
def Takes (reader : Reader α) (wire : α → Bytes) : Prop :=
  ∀ message position value next, reader message position = .ok (value, next) ↔
    Holds message.toList position (wire value) ∧ next = position + (wire value).length

lemma takes_bigEndian (width : Nat) (message : Message) (position n next : Nat) :
    bigEndian width message position = .ok (n, next) ↔
      n < 256 ^ width ∧ Holds message.toList position (Bytes.toBigEndian width n) ∧
        next = position + width := by
  simp only [bigEndian, bind_eq_ok_iff, pure_eq_ok_iff, take_eq_ok_iff]
  constructor
  · rintro ⟨bytes, _, ⟨rfl, hat, rfl⟩, rfl, rfl⟩
    rw [Bytes.toBigEndian_ofBigEndian]
    exact ⟨Bytes.ofBigEndian_lt bytes, hat, rfl⟩
  · rintro ⟨hlt, hat, rfl⟩
    refine ⟨Bytes.toBigEndian width n, _, ⟨Bytes.length_toBigEndian width n, hat, rfl⟩, ?_, rfl⟩
    rw [Bytes.ofBigEndian_toBigEndian, Nat.mod_eq_of_lt hlt]

/-- A reader of big-endian integers, with the integers seen as values of another type. -/
lemma takes_of_bigEndian {width : Nat} {ofNat : Nat → α} {toNat : α → Nat}
    (hlt : ∀ a, toNat a < 256 ^ width) (hof : ∀ a, ofNat (toNat a) = a)
    (hto : ∀ n < 256 ^ width, toNat (ofNat n) = n) :
    Takes (do pure (ofNat (← bigEndian width))) (fun a => Bytes.toBigEndian width (toNat a)) := by
  intro message position value next
  simp only [bind_eq_ok_iff, pure_eq_ok_iff, takes_bigEndian, Bytes.length_toBigEndian]
  constructor
  · rintro ⟨n, _, ⟨hn, hat, rfl⟩, rfl, rfl⟩
    rw [hto n hn]
    exact ⟨hat, rfl⟩
  · rintro ⟨hat, rfl⟩
    exact ⟨toNat value, _, ⟨hlt value, hat, rfl⟩, (hof value).symm, rfl⟩

lemma takes_word :
    Takes (Readable.read : Reader UInt16) (fun word => Bytes.toBigEndian 2 word.toNat) := by
  refine takes_of_bigEndian (fun a => a.toNat_lt) (fun a => UInt16.ofNat_toNat) fun n hn => ?_
  rw [UInt16.toNat_ofNat']
  omega

lemma takes_long :
    Takes (Readable.read : Reader UInt32) (fun long => Bytes.toBigEndian 4 long.toNat) := by
  refine takes_of_bigEndian (fun a => a.toNat_lt) (fun a => UInt32.ofNat_toNat) fun n hn => ?_
  rw [UInt32.toNat_ofNat']
  omega

lemma takes_flags : Takes (Readable.read : Reader Flags)
    (fun flags => Bytes.toBigEndian 2 flags.word.toNat) := by
  intro message position flags next
  show (do pure (Flags.ofWord (← Readable.read)) : Reader Flags) message position = _ ↔ _
  simp only [bind_eq_ok_iff, pure_eq_ok_iff, takes_word message]
  constructor
  · rintro ⟨word, _, ⟨hat, rfl⟩, rfl, rfl⟩
    rw [Flags.word_ofWord]
    exact ⟨hat, rfl⟩
  · rintro ⟨hat, rfl⟩
    exact ⟨flags.word, _, ⟨hat, rfl⟩, (Flags.ofWord_word flags).symm, rfl⟩

end Reader

/-- The wire form of a header. -/
def Header.wire (header : Header) : Bytes :=
  Bytes.toBigEndian 2 header.id.toNat ++ Bytes.toBigEndian 2 header.flags.word.toNat ++
  Bytes.toBigEndian 2 header.questionCount.toNat ++
  Bytes.toBigEndian 2 header.answerCount.toNat ++
  Bytes.toBigEndian 2 header.authorityCount.toNat ++
  Bytes.toBigEndian 2 header.additionalCount.toNat

@[simp] lemma Header.length_wire (header : Header) : header.wire.length = 12 := by
  simp [Header.wire]

lemma Reader.takes_header : Takes (Readable.read : Reader Header) Header.wire := by
  intro message position header next
  show (do
    let id ← Readable.read
    let flags ← Readable.read
    let questionCount ← Readable.read
    let answerCount ← Readable.read
    let authorityCount ← Readable.read
    let additionalCount ← Readable.read
    pure ⟨id, flags, questionCount, answerCount, authorityCount, additionalCount⟩ :
      Reader Header) message position = _ ↔ _
  simp only [bind_eq_ok_iff, pure_eq_ok_iff, takes_word message, takes_flags message,
    Header.wire, holds_append, List.length_append, Bytes.length_toBigEndian]
  constructor
  · rintro ⟨_, _, ⟨h₁, rfl⟩, _, _, ⟨h₂, rfl⟩, _, _, ⟨h₃, rfl⟩, _, _, ⟨h₄, rfl⟩, _, _, ⟨h₅, rfl⟩,
      _, _, ⟨h₆, rfl⟩, rfl, rfl⟩
    exact ⟨⟨⟨⟨⟨⟨h₁, h₂⟩, h₃⟩, h₄⟩, h₅⟩, h₆⟩, rfl⟩
  · rintro ⟨⟨⟨⟨⟨⟨h₁, h₂⟩, h₃⟩, h₄⟩, h₅⟩, h₆⟩, rfl⟩
    exact ⟨_, _, ⟨h₁, rfl⟩, _, _, ⟨h₂, rfl⟩, _, _, ⟨h₃, rfl⟩, _, _, ⟨h₄, rfl⟩, _, _, ⟨h₅, rfl⟩,
      _, _, ⟨h₆, rfl⟩, rfl, rfl⟩

/-! ## Several values -/

/-- The values follow one another: the first begins at `start`, each next one where the one
before it ends, and the last ends at the final position. -/
inductive Consecutive {α : Type} (Entry : α → Nat → Nat → Prop) : List α → Nat → Nat → Prop
  | nil {start : Nat} : Consecutive Entry [] start start
  | cons {value : α} {values : List α} {start middle finish : Nat} :
      Entry value start middle → Consecutive Entry values middle finish →
      Consecutive Entry (value :: values) start finish

lemma Consecutive.of_mem {α : Type} {Entry : α → Nat → Nat → Prop} {values : List α} {value : α}
    {start finish : Nat} (h : Consecutive Entry values start finish) (hmem : value ∈ values) :
    ∃ o p, Entry value o p := by
  induction h with
  | nil => cases hmem
  | cons hentry _ ih =>
    rcases List.mem_cons.1 hmem with rfl | hmem
    · exact ⟨_, _, hentry⟩
    · exact ih hmem

/-- Reading a number of values is finding as many values that follow one another. -/
lemma Reader.times_eq_ok_iff {α : Type} {reader : Reader α} {message : Message} {count : Nat}
    {values : List α} {start finish : Nat} :
    times reader count message start = .ok (values, finish) ↔
      values.length = count ∧
        Consecutive (fun value o p => reader message o = .ok (value, p)) values start finish := by
  induction count generalizing values start finish with
  | zero =>
    rw [times_zero, pure_eq_ok_iff]
    constructor
    · rintro ⟨rfl, rfl⟩
      exact ⟨rfl, .nil⟩
    · rintro ⟨hlen, hrow⟩
      obtain rfl := List.eq_nil_of_length_eq_zero hlen
      cases hrow
      exact ⟨rfl, rfl⟩
  | succ count ih =>
    simp only [times_succ, bind_eq_ok_iff, pure_eq_ok_iff, ih]
    constructor
    · rintro ⟨first, _, hfirst, others, _, ⟨hlen, hrow⟩, rfl, rfl⟩
      exact ⟨by rw [List.length_cons, hlen], .cons hfirst hrow⟩
    · rintro ⟨hlen, hrow⟩
      cases hrow with
      | nil => simp at hlen
      | @cons first others _ middle _ hfirst hrow =>
        exact ⟨first, middle, hfirst, others, finish, ⟨Nat.succ.inj hlen, hrow⟩, rfl, rfl⟩

end StubResolver
