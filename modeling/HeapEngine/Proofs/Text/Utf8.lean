import HeapEngine.Proofs.Bytes
import HeapEngine.Text.Utf8

/-!
A text reads back from its bytes, and it has no other bytes.

The first byte of a character announces how many follow. The ranges leave out no character, and they leave
out every longer form of one.
-/

namespace HeapEngine.Text

/-- A byte has the value it is made of. -/
theorem toNat_ofNat_byte {value : Nat} (fits : value < 256) : (UInt8.ofNat value).toNat = value := by
  rw [UInt8.toNat_ofNat']
  omega

/-- A byte inside a character carries its six bits. -/
theorem inner_eq {bits : Nat} (fits : bits < 64) :
    isInner (UInt8.ofNat (0x80 + bits)) = true ∧ innerBits (UInt8.ofNat (0x80 + bits)) = bits := by
  have value : (UInt8.ofNat (0x80 + bits)).toNat = 0x80 + bits := toNat_ofNat_byte (by omega)
  refine ⟨?_, (congrArg (· - 0x80) value).trans (Nat.add_sub_cancel_left _ _)⟩
  rw [isInner, value, Bool.and_eq_true, decide_eq_true_eq, decide_eq_true_eq]
  exact ⟨by omega, by omega⟩

/-- The code of a character is no surrogate and not beyond the last one. -/
theorem code_bounds (c : Char) : c.toNat < 0xD800 ∨ 0xDFFF < c.toNat ∧ c.toNat < 0x110000 := by
  have valid := c.valid
  simp only [UInt32.isValidChar, Nat.isValidChar] at valid
  exact valid

variable {before : Nat} {read : List Char} {a b c d : UInt8} {rest : Bytes}

/-- A character of one byte. -/
theorem decodeFrom_one (small : a.toNat < 0x80) :
    decodeFrom before read (a :: rest) = decodeFrom (before + 1) (Char.ofNat a.toNat :: read) rest := by
  rw [decodeFrom, if_pos small]

/-- A character of two bytes. -/
theorem decodeFrom_two {low high : Nat} (large : ¬ a.toNat < 0x80)
    (width : announced a.toNat = some (.two, low, high)) (within : low ≤ b.toNat ∧ b.toNat ≤ high) :
    decodeFrom before read (a :: b :: rest)
      = decodeFrom (before + 2) (Char.ofNat ((a.toNat - 0xC0) * 64 + innerBits b) :: read) rest := by
  rw [decodeFrom, if_neg large, width]
  simp only [within, and_self, not_true_eq_false, ↓reduceIte]

/-- A character of three bytes. -/
theorem decodeFrom_three {low high : Nat} (large : ¬ a.toNat < 0x80)
    (width : announced a.toNat = some (.three, low, high)) (within : low ≤ b.toNat ∧ b.toNat ≤ high)
    (third : isInner c = true) :
    decodeFrom before read (a :: b :: c :: rest)
      = decodeFrom (before + 3)
        (Char.ofNat ((a.toNat - 0xE0) * 4096 + innerBits b * 64 + innerBits c) :: read) rest := by
  rw [decodeFrom, if_neg large, width]
  simp only [within, third, and_self, not_true_eq_false, ↓reduceIte]

/-- A character of four bytes. -/
theorem decodeFrom_four {low high : Nat} (large : ¬ a.toNat < 0x80)
    (width : announced a.toNat = some (.four, low, high)) (within : low ≤ b.toNat ∧ b.toNat ≤ high)
    (third : isInner c = true) (fourth : isInner d = true) :
    decodeFrom before read (a :: b :: c :: d :: rest)
      = decodeFrom (before + 4) (Char.ofNat ((a.toNat - 0xF0) * 262144 + innerBits b * 4096
          + innerBits c * 64 + innerBits d) :: read) rest := by
  rw [decodeFrom, if_neg large, width]
  simp only [within, third, fourth, and_self, not_true_eq_false, ↓reduceIte]

/-- The first of three bytes announces a range that the second one is in. -/
theorem announced_three {code : Nat} (large : ¬ code < 0x800) (small : code < 0x10000)
    (valid : code < 0xD800 ∨ 0xDFFF < code) :
    ∃ low high, announced (0xE0 + code / 4096) = some (.three, low, high)
      ∧ low ≤ 0x80 + code / 64 % 64 ∧ 0x80 + code / 64 % 64 ≤ high := by
  unfold announced
  rw [if_neg (by omega), if_neg (by omega)]
  -- The lowest first byte excludes what fits two bytes.
  by_cases first : 0xE0 + code / 4096 = 0xE0
  · rw [if_pos first]
    exact ⟨_, _, rfl, by omega, by omega⟩
  rw [if_neg first]
  by_cases surrogates : 0xE0 + code / 4096 = 0xED
  · -- The upper half of this range would be the surrogates.
    rw [if_pos surrogates]
    exact ⟨_, _, rfl, by omega, by omega⟩
  rw [if_neg surrogates, if_pos (by omega)]
  exact ⟨_, _, rfl, by omega, by omega⟩

/-- The first of four bytes announces a range that the second one is in. -/
theorem announced_four {code : Nat} (large : ¬ code < 0x10000) (small : code < 0x110000) :
    ∃ low high, announced (0xF0 + code / 262144) = some (.four, low, high)
      ∧ low ≤ 0x80 + code / 4096 % 64 ∧ 0x80 + code / 4096 % 64 ≤ high := by
  unfold announced
  rw [if_neg (by omega), if_neg (by omega), if_neg (by omega), if_neg (by omega), if_neg (by omega)]
  -- The lowest first byte excludes what fits three bytes.
  by_cases first : 0xF0 + code / 262144 = 0xF0
  · rw [if_pos first]
    exact ⟨_, _, rfl, by omega, by omega⟩
  rw [if_neg first]
  -- The highest one excludes what lies past the last character.
  by_cases middle : 0xF0 + code / 262144 < 0xF4
  · rw [if_pos middle]
    exact ⟨_, _, rfl, by omega, by omega⟩
  rw [if_neg middle, if_pos (by omega)]
  exact ⟨_, _, rfl, by omega, by omega⟩

/-- The bytes of one character are read as that character. -/
theorem decodeFrom_encodeChar (char : Char) (before : Nat) (read : List Char) (rest : Bytes) :
    ∃ after, decodeFrom before read (encodeChar char ++ rest) = decodeFrom after (char :: read) rest := by
  have valid := code_bounds char
  -- The character is its code, so the widths are told apart by the code alone.
  have back := Char.ofNat_toNat char
  unfold encodeChar
  generalize char.toNat = code at valid back ⊢
  subst back
  simp only
  by_cases one : code < 0x80
  · have first : (UInt8.ofNat code).toNat = code := toNat_ofNat_byte (by omega)
    rw [if_pos one, List.cons_append, decodeFrom_one (by omega), first]
    exact ⟨_, rfl⟩
  rw [if_neg one]
  by_cases two : code < 0x800
  · have first : (UInt8.ofNat (0xC0 + code / 64)).toNat = 0xC0 + code / 64 :=
      toNat_ofNat_byte (by omega)
    have second : (UInt8.ofNat (0x80 + code % 64)).toNat = 0x80 + code % 64 :=
      toNat_ofNat_byte (by omega)
    -- The announced width and the six bits of each further byte make up the code again.
    have bits := (inner_eq (show code % 64 < 64 by omega)).2
    have width : announced (0xC0 + code / 64) = some (.two, 0x80, 0xBF) := by
      unfold announced
      rw [if_neg (by omega), if_pos (by omega)]
    have whole : (0xC0 + code / 64 - 0xC0) * 64 + code % 64 = code := by omega
    rw [if_pos two]
    simp only [List.cons_append, List.nil_append]
    rw [decodeFrom_two (by omega) (first ▸ width) (by omega), first, bits, whole]
    exact ⟨_, rfl⟩
  rw [if_neg two]
  by_cases three : code < 0x10000
  · have first : (UInt8.ofNat (0xE0 + code / 4096)).toNat = 0xE0 + code / 4096 :=
      toNat_ofNat_byte (by omega)
    have second : (UInt8.ofNat (0x80 + code / 64 % 64)).toNat = 0x80 + code / 64 % 64 :=
      toNat_ofNat_byte (by omega)
    have bits := (inner_eq (show code / 64 % 64 < 64 by omega)).2
    have third := inner_eq (show code % 64 < 64 by omega)
    obtain ⟨low, high, width, within⟩ := announced_three two three (by omega)
    have whole : (0xE0 + code / 4096 - 0xE0) * 4096 + code / 64 % 64 * 64 + code % 64 = code := by omega
    rw [if_pos three]
    simp only [List.cons_append, List.nil_append]
    rw [decodeFrom_three (by omega) (first ▸ width) (by omega) third.1, first, bits, third.2, whole]
    exact ⟨_, rfl⟩
  · have first : (UInt8.ofNat (0xF0 + code / 262144)).toNat = 0xF0 + code / 262144 :=
      toNat_ofNat_byte (by omega)
    have second : (UInt8.ofNat (0x80 + code / 4096 % 64)).toNat = 0x80 + code / 4096 % 64 :=
      toNat_ofNat_byte (by omega)
    have bits := (inner_eq (show code / 4096 % 64 < 64 by omega)).2
    have third := inner_eq (show code / 64 % 64 < 64 by omega)
    have fourth := inner_eq (show code % 64 < 64 by omega)
    obtain ⟨low, high, width, within⟩ := announced_four three (by omega)
    have whole : (0xF0 + code / 262144 - 0xF0) * 262144 + code / 4096 % 64 * 4096
        + code / 64 % 64 * 64 + code % 64 = code := by omega
    rw [if_neg three]
    simp only [List.cons_append, List.nil_append]
    rw [decodeFrom_four (by omega) (first ▸ width) (by omega) third.1 fourth.1, first, bits, third.2,
      fourth.2, whole]
    exact ⟨_, rfl⟩

/-- The bytes of characters are read as these characters, in order. -/
theorem decodeFrom_flatMap (chars : List Char) (before : Nat) (read : List Char) :
    decodeFrom before read (chars.flatMap encodeChar) = .ok (read.reverse ++ chars) := by
  -- Each character is read off the front, and the others begin further on.
  induction chars generalizing before read with
  | nil => simp [decodeFrom]
  | cons char rest ih =>
    obtain ⟨after, same⟩ := decodeFrom_encodeChar char before read (rest.flatMap encodeChar)
    rw [List.flatMap_cons, same, ih]
    simp

/-- A text reads back from its bytes. -/
theorem decode_encode (text : String) : decode (encode text) = .ok text := by
  rw [decode, encode, decodeFrom_flatMap]
  simp [Except.map]

/-- Texts with the same bytes are the same. -/
theorem encode_injective {a b : String} (same : encode a = encode b) : a = b := by
  have read := decode_encode a
  rw [same, decode_encode b] at read
  exact (Except.ok.inj read).symm

/-- What is neither a surrogate nor beyond the last character is the code of a character. -/
theorem toNat_ofNat_char {code : Nat} (valid : code < 0xD800 ∨ 0xDFFF < code ∧ code < 0x110000) :
    (Char.ofNat code).toNat = code := by
  have isValid : code.isValidChar := valid
  unfold Char.ofNat
  rw [dif_pos isValid]
  rfl

/-- A byte is known by its value. -/
theorem ofNat_eq_of_toNat {byte : UInt8} {value : Nat} (same : byte.toNat = value) : UInt8.ofNat value = byte := by
  rw [← same, UInt8.ofNat_toNat]

/-- The range that the first of three bytes announces. -/
theorem bounds_of_announced_three {first low high : Nat} (width : announced first = some (.three, low, high)) :
    0xE0 ≤ first ∧ first < 0xF0 ∧ 0x80 ≤ low ∧ high ≤ 0xBF
      ∧ (first = 0xE0 → low = 0xA0) ∧ (first = 0xED → high = 0x9F) := by
  unfold announced at width
  repeat' split at width
  all_goals cases width
  all_goals omega

/-- The range that the first of four bytes announces. -/
theorem bounds_of_announced_four {first low high : Nat} (width : announced first = some (.four, low, high)) :
    0xF0 ≤ first ∧ first < 0xF5 ∧ 0x80 ≤ low ∧ high ≤ 0xBF
      ∧ (first = 0xF0 → low = 0x90) ∧ (first = 0xF4 → high = 0x8F) := by
  unfold announced at width
  repeat' split at width
  all_goals cases width
  all_goals omega

/-- A character of one byte is written as that byte. -/
theorem encodeChar_one (small : a.toNat < 0x80) : encodeChar (Char.ofNat a.toNat) = [a] := by
  simp only [encodeChar, toNat_ofNat_char (show a.toNat < 0xD800 ∨ _ by omega), if_pos small, UInt8.ofNat_toNat]

/-- A character of two bytes is written as the bytes it was read from. -/
theorem encodeChar_two {low high : Nat} (width : announced a.toNat = some (.two, low, high))
    (within : low ≤ b.toNat ∧ b.toNat ≤ high) :
    encodeChar (Char.ofNat ((a.toNat - 0xC0) * 64 + innerBits b)) = [a, b] := by
  have bounds : 0xC2 ≤ a.toNat ∧ a.toNat < 0xE0 ∧ low = 0x80 ∧ high = 0xBF := by
    unfold announced at width
    repeat' split at width
    all_goals cases width
    omega
  -- The bytes are the digits of the code in base 64, each on its own offset.
  obtain ⟨code, same⟩ : ∃ code, code = (a.toNat - 0xC0) * 64 + innerBits b := ⟨_, rfl⟩
  rw [← same]
  unfold innerBits at same
  have digits : a.toNat = 0xC0 + code / 64 ∧ b.toNat = 0x80 + code % 64 := by omega
  have range : ¬ code < 0x80 ∧ code < 0x800 := by omega
  simp only [encodeChar, toNat_ofNat_char (show code < 0xD800 ∨ _ by omega), if_neg range.1, if_pos range.2,
    ofNat_eq_of_toNat digits.1, ofNat_eq_of_toNat digits.2]

/-- A character of three bytes is written as the bytes it was read from. -/
theorem encodeChar_three {low high : Nat} (width : announced a.toNat = some (.three, low, high))
    (within : low ≤ b.toNat ∧ b.toNat ≤ high) (third : isInner c = true) :
    encodeChar (Char.ofNat ((a.toNat - 0xE0) * 4096 + innerBits b * 64 + innerBits c)) = [a, b, c] := by
  have bounds := bounds_of_announced_three width
  rw [isInner, Bool.and_eq_true, decide_eq_true_eq, decide_eq_true_eq] at third
  obtain ⟨code, same⟩ : ∃ code, code = (a.toNat - 0xE0) * 4096 + innerBits b * 64 + innerBits c := ⟨_, rfl⟩
  rw [← same]
  unfold innerBits at same
  have digits : a.toNat = 0xE0 + code / 4096 ∧ b.toNat = 0x80 + code / 64 % 64 ∧ c.toNat = 0x80 + code % 64 := by
    omega
  have range : ¬ code < 0x80 ∧ ¬ code < 0x800 ∧ code < 0x10000 ∧ (code < 0xD800 ∨ 0xDFFF < code) := by omega
  simp only [encodeChar, toNat_ofNat_char (show code < 0xD800 ∨ 0xDFFF < code ∧ code < 0x110000 by omega),
    if_neg range.1, if_neg range.2.1, if_pos range.2.2.1, ofNat_eq_of_toNat digits.1, ofNat_eq_of_toNat digits.2.1,
    ofNat_eq_of_toNat digits.2.2]

/-- A character of four bytes is written as the bytes it was read from. -/
theorem encodeChar_four {low high : Nat} (width : announced a.toNat = some (.four, low, high))
    (within : low ≤ b.toNat ∧ b.toNat ≤ high) (third : isInner c = true) (fourth : isInner d = true) :
    encodeChar (Char.ofNat ((a.toNat - 0xF0) * 262144 + innerBits b * 4096 + innerBits c * 64 + innerBits d))
      = [a, b, c, d] := by
  have bounds := bounds_of_announced_four width
  rw [isInner, Bool.and_eq_true, decide_eq_true_eq, decide_eq_true_eq] at third fourth
  obtain ⟨code, same⟩ : ∃ code, code
      = (a.toNat - 0xF0) * 262144 + innerBits b * 4096 + innerBits c * 64 + innerBits d := ⟨_, rfl⟩
  rw [← same]
  unfold innerBits at same
  have digits : a.toNat = 0xF0 + code / 262144 ∧ b.toNat = 0x80 + code / 4096 % 64
      ∧ c.toNat = 0x80 + code / 64 % 64 ∧ d.toNat = 0x80 + code % 64 := by omega
  have range : ¬ code < 0x80 ∧ ¬ code < 0x800 ∧ ¬ code < 0x10000 ∧ code < 0x110000 := by omega
  simp only [encodeChar, toNat_ofNat_char (show code < 0xD800 ∨ 0xDFFF < code ∧ code < 0x110000 by omega),
    if_neg range.1, if_neg range.2.1, if_neg range.2.2.1, ofNat_eq_of_toNat digits.1, ofNat_eq_of_toNat digits.2.1,
    ofNat_eq_of_toNat digits.2.2.1, ofNat_eq_of_toNat digits.2.2.2]

/-- Characters that were read are written as the bytes they were read from. -/
theorem flatMap_of_decodeFrom {input : Bytes} {chars : List Char} (decoded : decodeFrom before read input = .ok chars) :
    chars.flatMap encodeChar = read.reverse.flatMap encodeChar ++ input := by
  -- One character after the other moves from the input to what was read.
  fun_induction decodeFrom before read input with
  | case1 before read =>
    cases decoded
    rw [List.append_nil]
  | case2 before read a rest small ih => simp [ih decoded, encodeChar_one small]
  | case6 before read a large low high b rest within width ih =>
    simp [ih decoded, encodeChar_two width (Decidable.not_not.1 within)]
  | case9 before read a large low high b within c rest third width ih =>
    simp [ih decoded, encodeChar_three width (Decidable.not_not.1 within) (Decidable.not_not.1 third)]
  | case14 before read a large low high b within c third d rest fourth width ih =>
    simp [ih decoded, encodeChar_four width (Decidable.not_not.1 within) (Decidable.not_not.1 third)
      (Decidable.not_not.1 fourth)]
  -- In all other cases the bytes are no text.
  | _ => cases decoded

/-- A text that was read is written as the bytes it was read from. -/
theorem encode_of_decode {input : Bytes} {text : String} (decoded : decode input = .ok text) : encode text = input := by
  unfold decode at decoded
  cases answer : decodeFrom 0 [] input with
  | error place =>
    rw [answer] at decoded
    cases decoded
  | ok chars =>
    rw [answer] at decoded
    cases decoded
    simpa [encode] using flatMap_of_decodeFrom answer

end HeapEngine.Text
