/-
Encoding characters and decoding bytes undo each other.

Bytes that are written for a text are read as that text (`decode_encode`), and bytes that
are read as a text are those written for it (`eq_encode_of_decode`).  Together,
`decode_eq_ok_iff`: the texts and the runs of bytes without a flaw correspond one to one.

Both directions go by the length of a character in bytes.  Its first byte determines this
length, and the bounds on its second byte are just those that keep its number within what
this length is for.
-/
import StubResolver.Utf8

namespace StubResolver

namespace Utf8

/-! ### Single bytes -/

theorem within_eq_true {low high byte : UInt8} :
    within low high byte = true ↔ low.toNat ≤ byte.toNat ∧ byte.toNat ≤ high.toNat := by
  simp [within, UInt8.le_iff_toNat_le]

theorem isTail_eq_true {byte : UInt8} :
    isTail byte = true ↔ 128 ≤ byte.toNat ∧ byte.toNat ≤ 191 := by
  simp [isTail, within_eq_true]

theorem toNat_byteOfNat {n : Nat} (h : n < 256) : (UInt8.ofNat n).toNat = n := by
  rw [UInt8.toNat_ofNat', Nat.mod_eq_of_lt h]

theorem byteOfNat_eq {n : Nat} {byte : UInt8} (h : n = byte.toNat) : UInt8.ofNat n = byte := by
  rw [h, UInt8.ofNat_toNat]

/-! ### First bytes -/

theorem lead?_one {byte : UInt8} (h : byte.toNat < 128) : lead? byte = some .one := by
  simp [lead?, UInt8.lt_iff_toNat_lt, h]

theorem lead?_two {byte : UInt8} (h₁ : 194 ≤ byte.toNat) (h₂ : byte.toNat < 224) :
    lead? byte = some .two := by
  simp only [lead?, UInt8.lt_iff_toNat_lt, UInt8.reduceToNat]
  rw [if_neg (by omega), if_neg (by omega), if_pos (by omega)]

theorem lead?_three {byte : UInt8} (h₁ : 224 ≤ byte.toNat) (h₂ : byte.toNat < 240) :
    lead? byte = some (.three (if byte.toNat = 224 then 0xA0 else 0x80)
      (if byte.toNat = 237 then 0x9F else 0xBF)) := by
  simp only [lead?, UInt8.lt_iff_toNat_lt, UInt8.reduceToNat, ← UInt8.toNat_inj]
  rw [if_neg (by omega), if_neg (by omega), if_neg (by omega), if_pos (by omega)]

theorem lead?_four {byte : UInt8} (h₁ : 240 ≤ byte.toNat) (h₂ : byte.toNat < 245) :
    lead? byte = some (.four (if byte.toNat = 240 then 0x90 else 0x80)
      (if byte.toNat = 244 then 0x8F else 0xBF)) := by
  simp only [lead?, UInt8.lt_iff_toNat_lt, UInt8.reduceToNat, ← UInt8.toNat_inj]
  rw [if_neg (by omega), if_neg (by omega), if_neg (by omega), if_neg (by omega),
    if_pos (by omega)]

theorem lt_of_lead?_one {byte : UInt8} (h : lead? byte = some .one) : byte.toNat < 128 := by
  simp only [lead?, UInt8.lt_iff_toNat_lt, UInt8.reduceToNat] at h
  repeat' split at h
  all_goals simp_all

theorem bounds_of_lead?_two {byte : UInt8} (h : lead? byte = some .two) :
    194 ≤ byte.toNat ∧ byte.toNat < 224 := by
  simp only [lead?, UInt8.lt_iff_toNat_lt, UInt8.reduceToNat] at h
  repeat' split at h
  all_goals simp_all

/-- The first two bytes of a character of three. -/
theorem bounds_of_lead?_three {a b low high : UInt8} (h : lead? a = some (.three low high))
    (hb : within low high b = true) :
    224 ≤ a.toNat ∧ a.toNat < 240 ∧ 128 ≤ b.toNat ∧ b.toNat ≤ 191 ∧
      (a.toNat = 224 → 160 ≤ b.toNat) ∧ (a.toNat = 237 → b.toNat ≤ 159) := by
  rw [within_eq_true] at hb
  simp only [lead?, UInt8.lt_iff_toNat_lt, UInt8.reduceToNat, ← UInt8.toNat_inj] at h
  repeat' split at h
  all_goals simp at h
  all_goals
    obtain ⟨rfl, rfl⟩ := h
    simp at hb
    omega

/-- The first two bytes of a character of four. -/
theorem bounds_of_lead?_four {a b low high : UInt8} (h : lead? a = some (.four low high))
    (hb : within low high b = true) :
    240 ≤ a.toNat ∧ a.toNat < 245 ∧ 128 ≤ b.toNat ∧ b.toNat ≤ 191 ∧
      (a.toNat = 240 → 144 ≤ b.toNat) ∧ (a.toNat = 244 → b.toNat ≤ 143) := by
  rw [within_eq_true] at hb
  simp only [lead?, UInt8.lt_iff_toNat_lt, UInt8.reduceToNat, ← UInt8.toNat_inj] at h
  repeat' split at h
  all_goals simp at h
  all_goals
    obtain ⟨rfl, rfl⟩ := h
    simp at hb
    omega

/-! ### From a character to its bytes and back -/

/-- A character in front of more bytes is read back. -/
theorem decodeOnto_append (done : List Char) (index : Nat) (c : Char) (rest : Bytes) :
    decodeOnto done index (String.utf8EncodeChar c ++ rest) =
      decodeOnto (c :: done) (index + (String.utf8EncodeChar c).length) rest := by
  have hc : ∀ m, m = c.val.toNat → Char.ofNat m = c := by
    rintro _ rfl
    exact c.ofNat_toNat
  have hv : c.val.toNat < 0xD800 ∨ 0xDFFF < c.val.toNat ∧ c.val.toNat < 0x110000 := c.valid
  simp only [String.utf8EncodeChar]
  generalize c.val.toNat = n at *
  split
  · have h₁ : (UInt8.ofNat n).toNat = n := toNat_byteOfNat (by omega)
    have hl : lead? (UInt8.ofNat n) = some .one := lead?_one (by omega)
    rw [List.cons_append, List.nil_append, decodeOnto.eq_def]
    simp only [hl, assemble, List.foldl_nil, h₁, List.length_cons, List.length_nil]
    rw [hc n rfl]
  · split
    · have h₁ : (UInt8.ofNat (n / 64 % 32 + 192)).toNat = n / 64 % 32 + 192 :=
        toNat_byteOfNat (by omega)
      have h₂ : (UInt8.ofNat (n % 64 + 128)).toNat = n % 64 + 128 :=
        toNat_byteOfNat (by omega)
      simp only [List.cons_append, List.nil_append, List.length_cons, List.length_nil]
      rw [decodeOnto, lead?_two (by omega) (by omega)]
      simp only [isTail_eq_true, assemble, List.foldl_cons, List.foldl_nil, h₁, h₂]
      rw [if_pos (by omega), hc _ (by omega)]
    · split
      · have h₁ : (UInt8.ofNat (n / 4096 % 16 + 224)).toNat = n / 4096 % 16 + 224 :=
          toNat_byteOfNat (by omega)
        have h₂ : (UInt8.ofNat (n / 64 % 64 + 128)).toNat = n / 64 % 64 + 128 :=
          toNat_byteOfNat (by omega)
        have h₃ : (UInt8.ofNat (n % 64 + 128)).toNat = n % 64 + 128 :=
          toNat_byteOfNat (by omega)
        simp only [List.cons_append, List.nil_append, List.length_cons, List.length_nil]
        rw [decodeOnto, lead?_three (by omega) (by omega)]
        simp only [Bool.not_eq_true', ← Bool.not_eq_true, isTail_eq_true, within_eq_true,
          assemble, List.foldl_cons, List.foldl_nil, h₁, h₂, h₃]
        rw [if_neg (by split <;> split <;> simp <;> omega), if_neg (by omega),
          hc _ (by omega)]
      · have h₁ : (UInt8.ofNat (n / 262144 % 8 + 240)).toNat = n / 262144 % 8 + 240 :=
          toNat_byteOfNat (by omega)
        have h₂ : (UInt8.ofNat (n / 4096 % 64 + 128)).toNat = n / 4096 % 64 + 128 :=
          toNat_byteOfNat (by omega)
        have h₃ : (UInt8.ofNat (n / 64 % 64 + 128)).toNat = n / 64 % 64 + 128 :=
          toNat_byteOfNat (by omega)
        have h₄ : (UInt8.ofNat (n % 64 + 128)).toNat = n % 64 + 128 :=
          toNat_byteOfNat (by omega)
        simp only [List.cons_append, List.nil_append, List.length_cons, List.length_nil]
        rw [decodeOnto, lead?_four (by omega) (by omega)]
        simp only [Bool.not_eq_true', ← Bool.not_eq_true, isTail_eq_true, within_eq_true,
          assemble, List.foldl_cons, List.foldl_nil, h₁, h₂, h₃, h₄]
        rw [if_neg (by split <;> split <;> simp <;> omega), if_neg (by omega),
          if_neg (by omega), hc _ (by omega)]

@[simp] theorem encode_nil : encode [] = [] := rfl

theorem encode_cons (c : Char) (text : List Char) :
    encode (c :: text) = String.utf8EncodeChar c ++ encode text := rfl

theorem encode_append (first second : List Char) :
    encode (first ++ second) = encode first ++ encode second :=
  List.flatMap_append

theorem decodeOnto_encode (done : List Char) (index : Nat) (text : List Char) :
    decodeOnto done index (encode text) = .ok (done.reverse ++ text) := by
  induction text generalizing done index with
  | nil => simp [decodeOnto]
  | cons c text ih =>
    rw [encode_cons, decodeOnto_append, ih, List.reverse_cons, List.append_assoc]
    rfl

/-- Bytes that are written for a text are read as that text. -/
theorem decode_encode (text : List Char) : decode (encode text) = .ok text :=
  decodeOnto_encode [] 0 text

/-! ### From bytes to characters and back -/

theorem toNat_charOfNat {n : Nat} (h : n < 0xD800 ∨ 0xDFFF < n ∧ n < 0x110000) :
    (Char.ofNat n).val.toNat = n := by
  have valid : n.isValidChar := h
  rw [Char.ofNat, dif_pos valid]
  rfl

theorem encodeChar_assemble_one {a : UInt8} (h : lead? a = some .one) :
    String.utf8EncodeChar (assemble a.toNat []) = [a] := by
  have ha := lt_of_lead?_one h
  rw [String.utf8EncodeChar, assemble, List.foldl_nil, toNat_charOfNat (by omega),
    if_pos (by omega), UInt8.ofNat_toNat]

theorem encodeChar_assemble_two {a b : UInt8} (h : lead? a = some .two)
    (hb : isTail b = true) :
    String.utf8EncodeChar (assemble (a.toNat % 32) [b]) = [a, b] := by
  have ha := bounds_of_lead?_two h
  rw [isTail_eq_true] at hb
  rw [String.utf8EncodeChar, assemble, List.foldl_cons, List.foldl_nil,
    toNat_charOfNat (by omega), if_neg (by omega), if_pos (by omega)]
  simp only [List.cons.injEq, and_true]
  exact ⟨byteOfNat_eq (by omega), byteOfNat_eq (by omega)⟩

theorem encodeChar_assemble_three {a b c low high : UInt8}
    (h : lead? a = some (.three low high)) (hb : within low high b = true)
    (hc : isTail c = true) :
    String.utf8EncodeChar (assemble (a.toNat % 16) [b, c]) = [a, b, c] := by
  have ha := bounds_of_lead?_three h hb
  rw [isTail_eq_true] at hc
  rw [String.utf8EncodeChar, assemble, List.foldl_cons, List.foldl_cons, List.foldl_nil,
    toNat_charOfNat (by omega), if_neg (by omega), if_neg (by omega), if_pos (by omega)]
  simp only [List.cons.injEq, and_true]
  exact ⟨byteOfNat_eq (by omega), byteOfNat_eq (by omega), byteOfNat_eq (by omega)⟩

theorem encodeChar_assemble_four {a b c d low high : UInt8}
    (h : lead? a = some (.four low high)) (hb : within low high b = true)
    (hc : isTail c = true) (hd : isTail d = true) :
    String.utf8EncodeChar (assemble (a.toNat % 8) [b, c, d]) = [a, b, c, d] := by
  have ha := bounds_of_lead?_four h hb
  rw [isTail_eq_true] at hc hd
  rw [String.utf8EncodeChar, assemble, List.foldl_cons, List.foldl_cons, List.foldl_cons,
    List.foldl_nil, toNat_charOfNat (by omega), if_neg (by omega), if_neg (by omega),
    if_neg (by omega)]
  simp only [List.cons.injEq, and_true]
  exact ⟨byteOfNat_eq (by omega), byteOfNat_eq (by omega), byteOfNat_eq (by omega),
    byteOfNat_eq (by omega)⟩

theorem encode_done_append {done text : List Char} {c : Char} {first rest : Bytes}
    (hc : String.utf8EncodeChar c = first) (h : encode (c :: done).reverse ++ rest = encode text) :
    encode done.reverse ++ (first ++ rest) = encode text := by
  rw [← h, List.reverse_cons, encode_append, encode_cons, hc, encode_nil, List.append_nil,
    List.append_assoc]

theorem eq_encode_of_decodeOnto {done : List Char} {index : Nat} {bytes : Bytes}
    {text : List Char} (h : decodeOnto done index bytes = .ok text) :
    encode done.reverse ++ bytes = encode text := by
  fun_induction decodeOnto done index bytes with
  | case1 =>
    cases h
    rw [List.append_nil]
  | case3 done index a rest ha ih =>
    exact encode_done_append (encodeChar_assemble_one ha) (ih h)
  | case5 done index a ha b rest hb ih =>
    exact encode_done_append (encodeChar_assemble_two ha hb) (ih h)
  | case12 done index a low high ha b c rest hb hc ih =>
    exact encode_done_append
      (encodeChar_assemble_three ha (by simpa using hb) (by simpa using hc)) (ih h)
  | case22 done index a low high ha b c d rest hb hc hd ih =>
    exact encode_done_append
      (encodeChar_assemble_four ha (by simpa using hb) (by simpa using hc) (by simpa using hd))
      (ih h)
  | _ => cases h

/-- Bytes that are read as a text are those written for it. -/
theorem eq_encode_of_decode {bytes : Bytes} {text : List Char}
    (h : decode bytes = .ok text) : bytes = encode text :=
  eq_encode_of_decodeOnto h

theorem decode_eq_ok_iff {bytes : Bytes} {text : List Char} :
    decode bytes = .ok text ↔ bytes = encode text :=
  ⟨eq_encode_of_decode, fun h => h ▸ decode_encode text⟩

/-- Different texts are written differently. -/
theorem encode_injective {first second : List Char} (h : encode first = encode second) :
    first = second := by
  have hsecond : decode (encode first) = .ok second := decode_eq_ok_iff.2 h
  rw [decode_encode] at hsecond
  exact Except.ok.inj hsecond

end Utf8

end StubResolver
