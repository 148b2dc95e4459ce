import Fleet.Text.Utf8

/-!
# Bytes of texts

The bytes of a text are read back as that text, and nothing in them is ill-formed, so it
makes no difference whether ill-formed pieces are refused or written as U+FFFD.

A character has one to four bytes. The first says how many follow, and bounds the second
one where an overlong form, a surrogate or a code point beyond U+10FFFF could begin; the
code point of a character is none of these, and so its bytes keep to the bounds.

## Theorems

* `Utf8.decodeFrom_encodeChar`: The bytes of one character are read as that character.
* `decodeLossy_encode`: The bytes of a text are read back as the text.
-/

namespace Fleet.Text

namespace Utf8

variable {broken : Option Char} {done : List Char} {rest : List UInt8} {b : Nat}

theorem toNat_ofNat_byte (h : b < 256) : (UInt8.ofNat b).toNat = b := by
  rw [UInt8.toNat_ofNat']
  exact Nat.mod_eq_of_lt h

theorem decodeFrom_whole (h : b < 0x80) :
    decodeFrom broken done none (UInt8.ofNat b :: rest) =
      decodeFrom broken (Char.ofNat b :: done) none rest := by
  have hstart : start (UInt8.ofNat b) = .whole b := by
    simp only [start, toNat_ofNat_byte (by omega : b < 256), if_pos h]
  rw [decodeFrom, hstart]

theorem decodeFrom_more {p : Partial} (h : start (UInt8.ofNat b) = .more p) :
    decodeFrom broken done none (UInt8.ofNat b :: rest) =
      decodeFrom broken done (some p) rest := by
  rw [decodeFrom, h]

/-- A byte within the bounds goes on with a character. -/
theorem decodeFrom_next {p : Partial} {owed : Nat} (howed : p.owed = owed + 1) (hbyte : b < 256)
    (h : p.low ≤ b ∧ b ≤ p.high) :
    decodeFrom broken done (some p) (UInt8.ofNat b :: rest) =
      decodeFrom broken done (some ⟨owed, 0x80, 0xBF, p.bits * 64 + (b - 0x80)⟩) rest := by
  have hnext : next p (UInt8.ofNat b) = .more ⟨owed, 0x80, 0xBF, p.bits * 64 + (b - 0x80)⟩ := by
    have hwithin : ¬(b < p.low ∨ p.high < b) := by omega
    simp only [next, toNat_ofNat_byte hbyte, howed, Bool.or_eq_true,
      decide_eq_true_eq, if_neg hwithin]
  rw [decodeFrom, hnext]

/-- The last byte within the bounds ends a character. -/
theorem decodeFrom_last {p : Partial} (howed : p.owed = 0) (hbyte : b < 256)
    (h : p.low ≤ b ∧ b ≤ p.high) :
    decodeFrom broken done (some p) (UInt8.ofNat b :: rest) =
      decodeFrom broken (Char.ofNat (p.bits * 64 + (b - 0x80)) :: done) none rest := by
  have hnext : next p (UInt8.ofNat b) = .whole (p.bits * 64 + (b - 0x80)) := by
    have hwithin : ¬(b < p.low ∨ p.high < b) := by omega
    simp only [next, toNat_ofNat_byte hbyte, howed, Bool.or_eq_true,
      decide_eq_true_eq, if_neg hwithin]
  rw [decodeFrom, hnext]

theorem start_two (h : 0xC2 ≤ b ∧ b < 0xE0) :
    start (UInt8.ofNat b) = .more ⟨0, 0x80, 0xBF, b - 0xC0⟩ := by
  simp only [start, toNat_ofNat_byte (by omega : b < 256)]
  rw [if_neg (by omega), if_neg (by omega), if_pos h.2]

theorem start_three (h : 0xE0 ≤ b ∧ b < 0xF0) : start (UInt8.ofNat b) =
    .more ⟨1, if b == 0xE0 then 0xA0 else 0x80, if b == 0xED then 0x9F else 0xBF, b - 0xE0⟩ := by
  simp only [start, toNat_ofNat_byte (by omega : b < 256)]
  rw [if_neg (by omega), if_neg (by omega), if_neg (by omega), if_pos h.2]

theorem start_four (h : 0xF0 ≤ b ∧ b < 0xF5) : start (UInt8.ofNat b) =
    .more ⟨2, if b == 0xF0 then 0x90 else 0x80, if b == 0xF4 then 0x8F else 0xBF, b - 0xF0⟩ := by
  simp only [start, toNat_ofNat_byte (by omega : b < 256)]
  rw [if_neg (by omega), if_neg (by omega), if_neg (by omega), if_neg (by omega), if_pos h.2]

/-- The bytes of one character are read as that character. -/
theorem decodeFrom_encodeChar (broken : Option Char) (done : List Char) (c : Char)
    (rest : List UInt8) : decodeFrom broken done none (String.utf8EncodeChar c ++ rest) =
      decodeFrom broken (c :: done) none rest := by
  have hvalid : c.toNat < 0xD800 ∨ 0xDFFF < c.toNat ∧ c.toNat < 0x110000 := c.valid
  have hchar : ∀ {n : Nat}, n = c.toNat → Char.ofNat n = c := by
    rintro n rfl
    exact Char.ofNat_toNat c
  have hcode : c.val.toNat = c.toNat := rfl
  unfold String.utf8EncodeChar
  simp only [hcode]
  by_cases h1 : c.toNat ≤ 0x7F
  · rw [if_pos h1, List.singleton_append, decodeFrom_whole (by omega), hchar rfl]
  rw [if_neg h1]
  by_cases h2 : c.toNat ≤ 0x7FF
  · rw [if_pos h2, List.cons_append, List.singleton_append,
      decodeFrom_more (start_two (by omega)), decodeFrom_last rfl (by omega) (by dsimp only; omega),
      hchar (by dsimp only; omega)]
  rw [if_neg h2]
  by_cases h3 : c.toNat ≤ 0xFFFF
  · rw [if_pos h3, List.cons_append, List.cons_append, List.singleton_append,
      decodeFrom_more (start_three (by omega)), decodeFrom_next rfl (by omega)
        (by simp only [beq_iff_eq]; split <;> split <;> omega),
      decodeFrom_last rfl (by omega) (by dsimp only; omega), hchar (by dsimp only; omega)]
  · rw [if_neg h3, List.cons_append, List.cons_append, List.cons_append, List.singleton_append,
      decodeFrom_more (start_four (by omega)), decodeFrom_next rfl (by omega)
        (by simp only [beq_iff_eq]; split <;> split <;> omega),
      decodeFrom_next rfl (by omega) (by dsimp only; omega),
      decodeFrom_last rfl (by omega) (by dsimp only; omega), hchar (by dsimp only; omega)]

theorem decodeFrom_encodeChars (broken : Option Char) (done cs : List Char) :
    decodeFrom broken done none (cs.flatMap String.utf8EncodeChar) =
      some (done.reverse ++ cs) := by
  induction cs generalizing done with
  | nil =>
      rw [List.flatMap_nil, decodeFrom, List.append_nil]
  | cons c cs ih =>
      rw [List.flatMap_cons, decodeFrom_encodeChar, ih, List.reverse_cons, List.append_assoc,
        List.singleton_append]

end Utf8

/-- The bytes of an array are listed from a place on. -/
theorem toList_loop (bytes : ByteArray) (place : Nat) (listed : List UInt8) :
    ByteArray.toList.loop bytes place listed =
      listed.reverse ++ bytes.data.toList.drop place := by
  induction hleft : bytes.size - place generalizing place listed with
  | zero =>
      have hend : bytes.data.toList.length ≤ place := by
        rw [Array.length_toList]
        exact Nat.le_of_sub_eq_zero hleft
      rw [ByteArray.toList.loop, if_neg (by omega), List.drop_eq_nil_of_le hend, List.append_nil]
  | succ left ih =>
      have hplace : place < bytes.data.toList.length := by
        rw [Array.length_toList]
        exact Nat.lt_of_sub_eq_succ hleft
      have hget : bytes.get! place = bytes.data.toList[place] := by
        rw [ByteArray.get!, getElem!_pos bytes.data place hplace, Array.getElem_toList]
      rw [ByteArray.toList.loop, if_pos (by omega), ih _ _ (by omega), hget,
        List.drop_eq_getElem_cons hplace, List.reverse_cons, List.append_assoc,
        List.singleton_append]

theorem encode_eq (s : String) : encode s = s.toList.flatMap String.utf8EncodeChar := by
  have hbytes : s.toByteArray = s.toList.utf8Encode := by
    rw [← String.toByteArray_ofList, String.ofList_toList]
  rw [encode, ByteArray.toList, toList_loop, String.toUTF8_eq_toByteArray, hbytes, List.utf8Encode,
    List.toList_data_toByteArray]
  rfl

/-- The bytes of a text are read back as the text. -/
theorem decodeLossy_encode (s : String) : decodeLossy (encode s) = s := by
  rw [decodeLossy, encode_eq, Utf8.decodeFrom_encodeChars]
  exact String.ofList_toList

end Fleet.Text
