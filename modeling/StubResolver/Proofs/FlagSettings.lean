/-
# Setting flags

The flags of a message share one word of sixteen bits.  A program that keeps just this word sets a
flag by turning the bits under a mask on or off, and a response code by clearing the four lowest
bits and then putting the code there (`Flags.Setting.onWord`).  It gets a flag back by masking and
shifting (`Flags.Getter.ofWord`).

`Flags.Layout` says which bits of a word are which field.  Setting a field and setting the bits keep
to it (`Flags.Layout.set`), since no mask reaches into another field, and a word lays out just one
choice of flags (`Flags.Layout.unique`).  Hence both ways of setting flags come to the same, and
with fields it is clear that each of them is told by its last setting alone
(`Flags.foldl_set_ofWord`).
-/
import Mathlib.Data.Nat.Bitwise
import StubResolver.Proofs.LastSetting
import StubResolver.Proofs.Writing

namespace StubResolver.Flags

/-! ## Bits under a mask -/

/-- The word with the bits under a mask turned on or off. -/
def setBits (word mask : UInt16) (on : Bool) : UInt16 :=
  if on then word ||| mask else word &&& ~~~mask

/-- The word with the bits of one field set anew. -/
def Setting.onWord (word : UInt16) : Setting → UInt16
  | .kind value => setBits word 0x8000 (value = .reply)
  | .authoritative on => setBits word 0x0400 on
  | .truncated on => setBits word 0x0200 on
  | .recursionDesired on => setBits word 0x0100 on
  | .recursionAvailable on => setBits word 0x0080 on
  | .responseCode code => setBits word 0x000F false ||| (UInt16.ofNat code.code &&& 0x000F)

section

variable (word mask : UInt16) (on : Bool)

lemma testBit_setBits (i : Nat) : (setBits word mask on).toNat.testBit i =
    if mask.toNat.testBit i then on else word.toNat.testBit i := by
  simp only [setBits, ← UInt16.toNat_toBitVec, BitVec.testBit_toNat]
  cases on with
  | true => cases h : mask.toBitVec.getLsbD i <;> simp [h]
  | false =>
    cases h : mask.toBitVec.getLsbD i with
    | true => simp [h]
    | false => simpa [h] using BitVec.lt_of_getLsbD

lemma testBit_onWord_responseCode (code : ResponseCode) (i : Nat) :
    (Setting.onWord word (.responseCode code)).toNat.testBit i =
      if i < 4 then code.code.testBit i else word.toNat.testBit i := by
  have hcode : (UInt16.ofNat code.code &&& 0x000F).toNat = code.code := by cases code <;> rfl
  have hmask : (0x000F : UInt16).toNat.testBit i = decide (i < 4) :=
    Nat.testBit_two_pow_sub_one 4 i
  rw [Setting.onWord, UInt16.toNat_or, hcode, Nat.testBit_or, testBit_setBits, hmask]
  by_cases hi : i < 4
  · simp [hi]
  · have hpow : 2 ^ 4 ≤ 2 ^ i := Nat.pow_le_pow_right Nat.two_pos (Nat.not_lt.1 hi)
    have hhigh : code.code.testBit i = false :=
      Nat.testBit_lt_two_pow (Nat.lt_of_lt_of_le code.code_lt hpow)
    simp [hi, hhigh]

lemma and_mask_ne_zero_iff {i : Nat} (hmask : mask.toNat = 2 ^ i) :
    word &&& mask ≠ 0 ↔ word.toNat.testBit i := by
  rw [Ne, ← UInt16.toNat_inj, UInt16.toNat_and, hmask, Nat.and_two_pow]
  cases word.toNat.testBit i <;> simp

end

/-! ## The layout of the word -/

/-- Each field stands in the bits that are its own. -/
structure Layout (flags : Flags) (word : UInt16) : Prop where
  kind : decide (flags.kind = .reply) = word.toNat.testBit 15
  opcode : ∀ i < 4, flags.opcode.val.testBit i = word.toNat.testBit (11 + i)
  authoritative : flags.authoritative = word.toNat.testBit 10
  truncated : flags.truncated = word.toNat.testBit 9
  recursionDesired : flags.recursionDesired = word.toNat.testBit 8
  recursionAvailable : flags.recursionAvailable = word.toNat.testBit 7
  reserved : ∀ i < 3, flags.reserved.val.testBit i = word.toNat.testBit (4 + i)
  responseCode : ∀ i < 4, flags.responseCode.val.testBit i = word.toNat.testBit i

lemma testBit_div_mod (n shift width : Nat) {i : Nat} (h : i < width) :
    (n / 2 ^ shift % 2 ^ width).testBit i = n.testBit (shift + i) := by
  rw [Nat.testBit_mod_two_pow, Nat.testBit_div_two_pow, Nat.add_comm]
  simp [h]

lemma layout_ofWord (word : UInt16) : (ofWord word).Layout word where
  kind := by
    rw [ofWord, Nat.testBit_eq_decide_div_mod_eq]
    split <;> simp_all
  opcode _ hi := testBit_div_mod word.toNat 11 4 hi
  authoritative := (Nat.testBit_eq_decide_div_mod_eq (i := 10)).symm
  truncated := (Nat.testBit_eq_decide_div_mod_eq (i := 9)).symm
  recursionDesired := (Nat.testBit_eq_decide_div_mod_eq (i := 8)).symm
  recursionAvailable := (Nat.testBit_eq_decide_div_mod_eq (i := 7)).symm
  reserved _ hi := testBit_div_mod word.toNat 4 3 hi
  responseCode i hi := by
    have hbit := testBit_div_mod word.toNat 0 4 hi
    rwa [Nat.pow_zero, Nat.div_one, Nat.zero_add] at hbit

/-- Numbers below a power of two are told by their bits below it. -/
lemma eq_of_testBit_eq (width : Nat) {m n : Fin (2 ^ width)}
    (h : ∀ i < width, m.val.testBit i = n.val.testBit i) : m = n := by
  apply Fin.ext
  apply Nat.eq_of_testBit_eq
  intro i
  by_cases hi : i < width
  · exact h i hi
  · have hpow : 2 ^ width ≤ 2 ^ i := Nat.pow_le_pow_right Nat.two_pos (Nat.not_lt.1 hi)
    rw [Nat.testBit_lt_two_pow (Nat.lt_of_lt_of_le m.isLt hpow),
      Nat.testBit_lt_two_pow (Nat.lt_of_lt_of_le n.isLt hpow)]

namespace Layout

variable {flags other : Flags} {word : UInt16}

/-- There is just one way to read a word. -/
lemma unique (h : flags.Layout word) (h' : other.Layout word) : flags = other := by
  have hkind : flags.kind = other.kind := by
    have hreply := h.kind.trans h'.kind.symm
    cases hflags : flags.kind <;> cases hother : other.kind <;> simp_all
  have hopcode : flags.opcode = other.opcode :=
    eq_of_testBit_eq 4 fun i hi => (h.opcode i hi).trans (h'.opcode i hi).symm
  have hreserved : flags.reserved = other.reserved :=
    eq_of_testBit_eq 3 fun i hi => (h.reserved i hi).trans (h'.reserved i hi).symm
  have hcode : flags.responseCode = other.responseCode :=
    eq_of_testBit_eq 4 fun i hi =>
      (h.responseCode i hi).trans (h'.responseCode i hi).symm
  have hauthoritative := h.authoritative.trans h'.authoritative.symm
  have htruncated := h.truncated.trans h'.truncated.symm
  have hdesired := h.recursionDesired.trans h'.recursionDesired.symm
  have havailable := h.recursionAvailable.trans h'.recursionAvailable.symm
  cases flags
  cases other
  simp_all

/-- A mask that covers none of the numbers only sets the flags under it. -/
lemma setBits (h : flags.Layout word) (mask : UInt16) (hmask : mask &&& 0x787F = 0) (on : Bool) :
    Layout { flags with
      kind := if mask.toNat.testBit 15 then (if on then .reply else .query) else flags.kind
      authoritative := if mask.toNat.testBit 10 then on else flags.authoritative
      truncated := if mask.toNat.testBit 9 then on else flags.truncated
      recursionDesired := if mask.toNat.testBit 8 then on else flags.recursionDesired
      recursionAvailable := if mask.toNat.testBit 7 then on else flags.recursionAvailable }
      (setBits word mask on) := by
  have hnumbers : ∀ i, (0x787F : UInt16).toNat.testBit i → ¬mask.toNat.testBit i := by
    intro i hi hbit
    have hboth : (mask &&& 0x787F).toNat.testBit i = true := by
      rw [UInt16.toNat_and, Nat.testBit_and, hi, hbit]
      rfl
    simp [hmask] at hboth
  have hopcode : ∀ i < 4, (0x787F : UInt16).toNat.testBit (11 + i) := by decide
  have hreserved : ∀ i < 3, (0x787F : UInt16).toNat.testBit (4 + i) := by decide
  have hcode : ∀ i < 4, (0x787F : UInt16).toNat.testBit i := by decide
  constructor
  all_goals simp only [testBit_setBits]
  · cases mask.toNat.testBit 15 with
    | true => cases on <;> rfl
    | false => exact h.kind
  · intro i hi
    rw [if_neg (hnumbers _ (hopcode i hi)), h.opcode i hi]
  · rw [h.authoritative]
  · rw [h.truncated]
  · rw [h.recursionDesired]
  · rw [h.recursionAvailable]
  · intro i hi
    rw [if_neg (hnumbers _ (hreserved i hi)), h.reserved i hi]
  · intro i hi
    rw [if_neg (hnumbers _ (hcode i hi)), h.responseCode i hi]

/-- The four lowest bits are the response code and nothing else. -/
lemma setCode (h : flags.Layout word) (code : ResponseCode) :
    Layout (flags.set (.responseCode code)) (Setting.onWord word (.responseCode code)) where
  kind := by rw [testBit_onWord_responseCode]; exact h.kind
  opcode i hi := by
    rw [testBit_onWord_responseCode, if_neg (by omega)]
    exact h.opcode i hi
  authoritative := by rw [testBit_onWord_responseCode]; exact h.authoritative
  truncated := by rw [testBit_onWord_responseCode]; exact h.truncated
  recursionDesired := by rw [testBit_onWord_responseCode]; exact h.recursionDesired
  recursionAvailable := by rw [testBit_onWord_responseCode]; exact h.recursionAvailable
  reserved i hi := by
    rw [testBit_onWord_responseCode, if_neg (by omega)]
    exact h.reserved i hi
  responseCode i hi := by
    rw [testBit_onWord_responseCode, if_pos hi]
    rfl

/-- Setting a field is setting its bits. -/
lemma set (h : flags.Layout word) (setting : Setting) :
    (flags.set setting).Layout (setting.onWord word) := by
  cases setting with
  | kind value =>
    have hset := h.setBits 0x8000 (by decide) (value = .reply)
    cases value <;> exact hset
  | authoritative on => exact h.setBits 0x0400 (by decide) on
  | truncated on => exact h.setBits 0x0200 (by decide) on
  | recursionDesired on => exact h.setBits 0x0100 (by decide) on
  | recursionAvailable on => exact h.setBits 0x0080 (by decide) on
  | responseCode code => exact h.setCode code

/-- However many fields are set, the word is laid out as before. -/
lemma foldl (h : flags.Layout word) (settings : List Setting) :
    (settings.foldl Flags.set flags).Layout (settings.foldl Setting.onWord word) := by
  induction settings generalizing flags word with
  | nil => exact h
  | cons setting settings ih => exact ih (h.set setting)

end Layout

/-! ## Getters -/

/-- What can be told of flags. -/
inductive Getter where
  | kind
  | opcode
  | authoritative
  | truncated
  | recursionDesired
  | recursionAvailable
  | responseCodeNumber
  | responseCode
deriving DecidableEq, Repr

namespace Getter

/-- The values that a getter may give. -/
def Value : Getter → Type
  | kind => MessageKind
  | opcode => Except InvalidCode Opcode
  | authoritative | truncated | recursionDesired | recursionAvailable => Bool
  | responseCodeNumber => Nat
  | responseCode => Except InvalidCode ResponseCode

/-- What a getter gives of fields. -/
def get (flags : Flags) : (getter : Getter) → getter.Value
  | kind => flags.kind
  | opcode => flags.opcode?
  | authoritative => flags.authoritative
  | truncated => flags.truncated
  | recursionDesired => flags.recursionDesired
  | recursionAvailable => flags.recursionAvailable
  | responseCodeNumber => flags.responseCode.val
  | responseCode => flags.responseCode?

/-- What a getter gives of a word. -/
def ofWord (word : UInt16) : (getter : Getter) → getter.Value
  | kind => if word &&& 0x8000 ≠ 0 then .reply else .query
  | opcode => Opcode.ofCode (word >>> 11 &&& 0x000F).toNat
  | authoritative => decide (word &&& 0x0400 ≠ 0)
  | truncated => decide (word &&& 0x0200 ≠ 0)
  | recursionDesired => decide (word &&& 0x0100 ≠ 0)
  | recursionAvailable => decide (word &&& 0x0080 ≠ 0)
  | responseCodeNumber => (word &&& 0x000F).toNat
  | responseCode => ResponseCode.ofCode (word &&& 0x000F).toNat

/-- What a getter gives after a setting, if the setting has to do with it. -/
def written? : (getter : Getter) → Setting → Option getter.Value
  | kind, .kind value => some value
  | authoritative, .authoritative on => some on
  | truncated, .truncated on => some on
  | recursionDesired, .recursionDesired on => some on
  | recursionAvailable, .recursionAvailable on => some on
  | responseCodeNumber, .responseCode code => some code.code
  | responseCode, .responseCode code => some (.ok code)
  | _, _ => none

lemma overwrites (getter : Getter) : Overwrites set (get · getter) getter.written? := by
  intro flags setting
  cases getter with
  | responseCode =>
    cases setting with
    | responseCode code => exact ResponseCode.ofCode_code code
    | _ => rfl
  | _ => cases setting <;> rfl

/-- Getters give the same of the fields and of the word. -/
lemma ofWord_eq_get (getter : Getter) (word : UInt16) :
    getter.ofWord word = getter.get (Flags.ofWord word) := by
  have hlayout := layout_ofWord word
  have hflag (mask : UInt16) (i : Nat) (hmask : mask.toNat = 2 ^ i) :
      decide (word &&& mask ≠ 0) = word.toNat.testBit i := by
    simp only [and_mask_ne_zero_iff word mask hmask, Bool.decide_eq_true]
  have hcode : (word &&& 0x000F).toNat = (Flags.ofWord word).responseCode.val :=
    Nat.and_two_pow_sub_one_eq_mod word.toNat 4
  have hopcode : (word >>> 11 &&& 0x000F).toNat = (Flags.ofWord word).opcode.val := by
    rw [UInt16.toNat_and, UInt16.toNat_shiftRight, Nat.shiftRight_eq_div_pow]
    exact Nat.and_two_pow_sub_one_eq_mod (word.toNat / 2 ^ 11) 4
  cases getter with
  | kind =>
    have hkind := (hflag 0x8000 15 rfl).trans hlayout.kind.symm
    rw [decide_eq_decide] at hkind
    show (if word &&& 0x8000 ≠ 0 then .reply else .query) = (Flags.ofWord word).kind
    simp only [hkind]
    cases (Flags.ofWord word).kind <;> rfl
  | opcode => exact congrArg Opcode.ofCode hopcode
  | authoritative => exact (hflag 0x0400 10 rfl).trans hlayout.authoritative.symm
  | truncated => exact (hflag 0x0200 9 rfl).trans hlayout.truncated.symm
  | recursionDesired => exact (hflag 0x0100 8 rfl).trans hlayout.recursionDesired.symm
  | recursionAvailable => exact (hflag 0x0080 7 rfl).trans hlayout.recursionAvailable.symm
  | responseCodeNumber => exact hcode
  | responseCode => exact congrArg ResponseCode.ofCode hcode

end Getter

/-- Flags are told by their getters and by what is never set. -/
lemma eq_of_get {flags other : Flags}
    (hget : ∀ getter : Getter, getter.get flags = getter.get other)
    (hopcode : flags.opcode = other.opcode) (hreserved : flags.reserved = other.reserved) :
    flags = other := by
  have hkind : flags.kind = other.kind := hget .kind
  have hauthoritative : flags.authoritative = other.authoritative := hget .authoritative
  have htruncated : flags.truncated = other.truncated := hget .truncated
  have hdesired : flags.recursionDesired = other.recursionDesired := hget .recursionDesired
  have havailable : flags.recursionAvailable = other.recursionAvailable :=
    hget .recursionAvailable
  have hcode : flags.responseCode.val = other.responseCode.val := hget .responseCodeNumber
  cases flags
  cases other
  simp_all [Fin.ext_iff]

lemma opcode_set (flags : Flags) (setting : Setting) :
    (flags.set setting).opcode = flags.opcode := by
  cases setting <;> rfl

lemma reserved_set (flags : Flags) (setting : Setting) :
    (flags.set setting).reserved = flags.reserved := by
  cases setting <;> rfl

/-- The order of settings counts only among those that have to do with the same getter. -/
lemma foldl_set_eq_of_written? (flags : Flags) {settings others : List Setting}
    (h : ∀ getter : Getter,
      others.filterMap getter.written? = settings.filterMap getter.written?) :
    others.foldl set flags = settings.foldl set flags := by
  apply eq_of_get
  · intro getter
    rw [getter.overwrites.foldl, getter.overwrites.foldl, h]
  · rw [view_foldl_eq opcode opcode_set, view_foldl_eq opcode opcode_set]
  · rw [view_foldl_eq reserved reserved_set, view_foldl_eq reserved reserved_set]

/-! ## Any number of settings -/

/-- Flags are written into any buffer with room for a word, and read back wherever it stands. -/
lemma exists_writeInto (flags : Flags) {buffer : Bytes} (h : 2 ≤ buffer.length) :
    ∃ after, writeInto flags buffer = .ok (2, after) ∧ ∀ before : Bytes,
      (Readable.read : Reader Flags).run (before ++ after) before.length =
        .ok (flags, before.length + 2) := by
  have hwrite : write flags buffer.length = .ok (Bytes.toBigEndian 2 flags.word.toNat) :=
    (Writer.puts_word flags.word _ _).2 ⟨trivial, h, rfl⟩
  refine ⟨Bytes.toBigEndian 2 flags.word.toNat ++ buffer.drop 2, ?_, ?_⟩
  · rw [writeInto, hwrite]
    rfl
  · intro before
    have hat : Holds (before ++ (Bytes.toBigEndian 2 flags.word.toNat ++ buffer.drop 2))
        before.length (Bytes.toBigEndian 2 flags.word.toNat) := by
      rw [Holds, List.drop_left]
      exact List.prefix_append _ _
    exact (Reader.takes_flags _ _ _ _).2 ⟨hat, rfl⟩

/-- **Each setting counts for its own field, and the last one wins.**  Setting fields one after the
other is setting the bits of the word under their masks.  After that each getter, be it of the
fields or of the word, gives what was set last of it, or what it gave at first if nothing was, and
the operation and the reserved bits are as they were.  The same settings in another order come to
the same, as long as each getter is given the same values in the same order.  The flags are
read back from where they are written. -/
theorem foldl_set_ofWord (word : UInt16) (settings : List Setting) :
    let flags := settings.foldl set (ofWord word)
    flags.word = settings.foldl Setting.onWord word ∧
    (∀ getter : Getter, getter.ofWord flags.word = getter.get flags ∧
      getter.get flags = (settings.filterMap getter.written?).getLastD (getter.ofWord word)) ∧
    flags.opcode = (ofWord word).opcode ∧ flags.reserved = (ofWord word).reserved ∧
    (∀ others : List Setting, (∀ getter : Getter,
        others.filterMap getter.written? = settings.filterMap getter.written?) →
      others.foldl set (ofWord word) = flags) ∧
    ∀ buffer : Bytes, 2 ≤ buffer.length →
      ∃ after, writeInto flags buffer = .ok (2, after) ∧ ∀ before : Bytes,
        (Readable.read : Reader Flags).run (before ++ after) before.length =
          .ok (flags, before.length + 2) := by
  intro flags
  have hlayout : flags.Layout (settings.foldl Setting.onWord word) :=
    (layout_ofWord word).foldl settings
  refine ⟨?_, ?_, view_foldl_eq opcode opcode_set _ _, view_foldl_eq reserved reserved_set _ _,
    ?_, ?_⟩
  · rw [hlayout.unique (layout_ofWord _), word_ofWord]
  · intro getter
    rw [getter.ofWord_eq_get, getter.ofWord_eq_get, ofWord_word]
    exact ⟨rfl, getter.overwrites.foldl (ofWord word) settings⟩
  · intro others h
    exact foldl_set_eq_of_written? _ h
  · intro buffer h
    exact exists_writeInto flags h

/-- The case of a word with every bit set, where a flag and the response code are set twice, in two
orders. -/
theorem foldl_set_ofWord_twice :
    let settings : List Setting := [.truncated true, .responseCode .refused, .truncated false,
      .kind .query, .responseCode .nameError]
    let others : List Setting := [.responseCode .refused, .kind .query, .responseCode .nameError,
      .truncated true, .truncated false]
    let flags := settings.foldl set (ofWord 0xFFFF)
    flags.word = 0x7DF3 ∧ flags.responseCode? = .ok .nameError ∧ flags.truncated = false ∧
      flags.opcode = 15 ∧ others.foldl set (ofWord 0xFFFF) = flags ∧
      ∃ after, writeInto flags [170, 170, 170] = .ok (2, after) ∧
        (Readable.read : Reader Flags).run ([192] ++ after) 1 = .ok (flags, 3) := by
  intro settings others flags
  obtain ⟨hword, hget, hopcode, -, horder, hwritten⟩ := foldl_set_ofWord 0xFFFF settings
  obtain ⟨after, hafter, hread⟩ := hwritten [170, 170, 170] (by decide)
  refine ⟨hword, (hget .responseCode).2, (hget .truncated).2, hopcode, ?_, after, hafter,
    hread [192]⟩
  apply horder
  intro getter
  cases getter <;> rfl

end StubResolver.Flags
