import HeapEngine.Checksum

/-!
What a cyclic redundancy check tells apart.

A bit through the register is a linear step that can be undone. So registers that differ stay different,
and bytes that fit the register, of which there are four, can be told from what they leave in it.
-/

namespace HeapEngine.Checksum

/-! ### One bit and eight -/

/-- One bit shifts the register, and subtracts the polynomial or nothing. -/
theorem bitStep_eq (register : UInt32) :
    bitStep register = (register >>> 1) ^^^ (if register &&& 1 = 1 then polynomial else 0) := by
  unfold bitStep
  split <;> simp

/-- A one falls out if the lowest bit is one. -/
theorem odd_iff (register : UInt32) : register &&& 1 = 1 ↔ register.toBitVec.getLsbD 0 = true := by
  rw [← UInt32.toBitVec_inj, UInt32.toBitVec_and]
  show register.toBitVec &&& 1#32 = 1#32 ↔ _
  rw [BitVec.and_one_eq_setWidth_ofBool_getLsbD]
  cases register.toBitVec.getLsbD 0 <;> decide

/-- One bit is linear. -/
theorem bitStep_xor (a b : UInt32) : bitStep (a ^^^ b) = bitStep a ^^^ bitStep b := by
  have odd := odd_iff (a ^^^ b)
  rw [UInt32.toBitVec_xor, BitVec.getLsbD_xor] at odd
  simp only [bitStep_eq, odd, odd_iff a, odd_iff b, UInt32.shiftRight_xor]
  -- Where a one falls out of both, the polynomial is subtracted twice, which leaves nothing.
  cases a.toBitVec.getLsbD 0 <;> cases b.toBitVec.getLsbD 0 <;>
    simp [UInt32.xor_assoc, UInt32.xor_comm polynomial]

/-- Eight bits are linear. -/
theorem eightBits_xor (a b : UInt32) : eightBits (a ^^^ b) = eightBits a ^^^ eightBits b := by
  simp only [eightBits, bitStep_xor]

/-- The polynomial has its top bit set, so a step that leaves this bit clear only shifted. -/
theorem toNat_bitStep {register : UInt32} (clear : (bitStep register).toNat < 2 ^ 31) :
    register.toNat = 2 * (bitStep register).toNat := by
  have half : (register >>> 1).toNat = register.toNat / 2 := by
    rw [UInt32.toNat_shiftRight]
    simp [Nat.shiftRight_eq_div_pow]
  have parity : (register &&& 1).toNat = register.toNat % 2 := by
    rw [UInt32.toNat_and]
    exact Nat.and_one_is_mod _
  have bound := register.toNat_lt
  by_cases odd : register &&& 1 = 1
  · -- What was shifted has a clear top bit too, so the polynomial would have one.
    have low : (register >>> 1).toNat < 2 ^ 31 := by omega
    have least := Nat.xor_lt_two_pow low clear
    rw [bitStep, if_pos odd, UInt32.toNat_xor, ← Nat.xor_assoc, Nat.xor_self, Nat.zero_xor] at least
    exact absurd least (by decide)
  · have even : register.toNat % 2 ≠ 1 := fun one => odd (UInt32.toNat_inj.1 (parity.trans one))
    rw [bitStep, if_neg odd, half]
    omega

/-- Eight steps that leave the top byte clear only shifted by a byte. -/
theorem toNat_eightBits {register : UInt32} (clear : (eightBits register).toNat < 256 ^ 3) :
    register.toNat = 256 * (eightBits register).toNat := by
  unfold eightBits at clear ⊢
  -- Before each step there is one bit more, and the register is not yet full.
  have eighth := toNat_bitStep (Nat.lt_trans clear (by decide))
  have seventh := toNat_bitStep (Nat.lt_of_le_of_lt (Nat.le_of_eq eighth) (by omega))
  have sixth := toNat_bitStep (Nat.lt_of_le_of_lt (Nat.le_of_eq seventh) (by omega))
  have fifth := toNat_bitStep (Nat.lt_of_le_of_lt (Nat.le_of_eq sixth) (by omega))
  have fourth := toNat_bitStep (Nat.lt_of_le_of_lt (Nat.le_of_eq fifth) (by omega))
  have third := toNat_bitStep (Nat.lt_of_le_of_lt (Nat.le_of_eq fourth) (by omega))
  have second := toNat_bitStep (Nat.lt_of_le_of_lt (Nat.le_of_eq third) (by omega))
  have first := toNat_bitStep (Nat.lt_of_le_of_lt (Nat.le_of_eq second) (by omega))
  omega

/-- Different registers are different after eight steps. -/
theorem eightBits_injective {a b : UInt32} (same : eightBits a = eightBits b) : a = b := by
  -- By linearity it is enough that nothing but zero goes to zero.
  have zero : eightBits (a ^^^ b) = 0 := by rw [eightBits_xor, same, UInt32.xor_self]
  have nothing : (a ^^^ b).toNat = 256 * (eightBits (a ^^^ b)).toNat :=
    toNat_eightBits (by rw [zero]; decide)
  rw [zero] at nothing
  exact UInt32.xor_eq_zero_iff.1 (UInt32.toNat_inj.1 nothing)

/-! ### Strings of bytes -/

/-- What differs in two registers and in two bytes comes together. -/
theorem byteStep_xor (a b : UInt32) (byte other : UInt8) :
    byteStep a byte ^^^ byteStep b other
      = eightBits ((a ^^^ b) ^^^ (byte ^^^ other).toUInt32) := by
  rw [byteStep, byteStep, ← eightBits_xor, UInt8.toUInt32_xor]
  congr 1
  ac_rfl

/-- A difference that leaves the top byte clear was shifted by a byte, its own byte included. -/
theorem toNat_before {a b : UInt32} {byte other : UInt8}
    (clear : (byteStep a byte ^^^ byteStep b other).toNat < 256 ^ 3) :
    ((a ^^^ b) ^^^ (byte ^^^ other).toUInt32).toNat
      = 256 * (byteStep a byte ^^^ byteStep b other).toNat := by
  rw [byteStep_xor] at clear ⊢
  exact toNat_eightBits clear

/-- Different registers are different after the same byte. -/
theorem byteStep_injective {a b : UInt32} {byte : UInt8} (same : byteStep a byte = byteStep b byte) :
    a = b :=
  (UInt32.xor_left_inj _).1 (eightBits_injective same)

/-- Registers that differ still differ after the same bytes. -/
theorem foldl_injective {a b : UInt32} (bytes : Bytes)
    (same : bytes.foldl byteStep a = bytes.foldl byteStep b) : a = b := by
  induction bytes generalizing a b with
  | nil => exact same
  | cons byte rest ih => exact byteStep_injective (ih same)

theorem toNat_toUInt32_lt (byte : UInt8) : byte.toUInt32.toNat < 256 := by
  simpa using byte.toNat_lt

/-- Registers that a few bytes bring together differ in as many bytes at most. -/
theorem toNat_xor_lt {a b : UInt32} {bytes others : Bytes} (length : bytes.length = others.length)
    (few : bytes.length ≤ 4) (same : bytes.foldl byteStep a = others.foldl byteStep b) :
    (a ^^^ b).toNat < 256 ^ bytes.length := by
  induction bytes generalizing a b others with
  | nil =>
    cases others with
    | nil =>
      obtain rfl : a = b := same
      simp
    | cons _ _ => cases length
  | cons byte rest ih =>
    cases others with
    | nil => cases length
    | cons other otherRest =>
      simp only [List.length_cons, Nat.add_right_cancel_iff] at length few ⊢
      have after := ih length (by omega) same
      -- The difference after one byte has a clear top byte, so before it was shifted by a byte.
      have clear : 256 ^ rest.length ≤ 256 ^ 3 := Nat.pow_le_pow_right (by decide) (by omega)
      have shifted := toNat_before (Nat.lt_of_lt_of_le after clear)
      have grown : 256 ^ (rest.length + 1) = 2 ^ (8 * (rest.length + 1)) := by
        rw [Nat.pow_mul]
      have within : ((a ^^^ b) ^^^ (byte ^^^ other).toUInt32).toNat < 2 ^ (8 * (rest.length + 1)) := by
        rw [← grown, shifted, Nat.pow_succ]
        omega
      have last : (byte ^^^ other).toUInt32.toNat < 2 ^ (8 * (rest.length + 1)) :=
        Nat.lt_of_lt_of_le (toNat_toUInt32_lt _) (grown ▸ Nat.le_self_pow (by omega) 256)
      have both := Nat.xor_lt_two_pow within last
      rwa [UInt32.toNat_xor, Nat.xor_assoc, Nat.xor_self, Nat.xor_zero, ← grown] at both

/-- Up to four bytes are told apart by what they leave in one register. -/
theorem eq_of_foldl_eq {register : UInt32} {bytes others : Bytes}
    (length : bytes.length = others.length) (few : bytes.length ≤ 4)
    (same : bytes.foldl byteStep register = others.foldl byteStep register) : bytes = others := by
  induction bytes generalizing register others with
  | nil =>
    cases others with
    | nil => rfl
    | cons _ _ => cases length
  | cons byte rest ih =>
    cases others with
    | nil => cases length
    | cons other otherRest =>
      simp only [List.length_cons, Nat.add_right_cancel_iff] at length few
      have after := toNat_xor_lt length (by omega) same
      have clear : 256 ^ rest.length ≤ 256 ^ 3 := Nat.pow_le_pow_right (by decide) (by omega)
      have shifted := toNat_before (Nat.lt_of_lt_of_le after clear)
      rw [UInt32.xor_self, UInt32.zero_xor] at shifted
      -- A difference of one byte that was shifted by a byte is none.
      have small := toNat_toUInt32_lt (byte ^^^ other)
      have none : (byte ^^^ other).toNat = 0 := by
        have : (byte ^^^ other).toUInt32.toNat = (byte ^^^ other).toNat := by simp
        omega
      obtain rfl : byte = other := UInt8.xor_eq_zero_iff.1 (UInt8.toNat_inj.1 none)
      rw [ih length (by omega) same]

/-- A string in which up to four bytes in a row were changed has another checksum. -/
theorem eq_of_crc32_eq {before part other after : Bytes} (length : part.length = other.length)
    (few : part.length ≤ 4)
    (same : crc32 (before ++ (part ++ after)) = crc32 (before ++ (other ++ after))) : part = other := by
  simp only [crc32, UInt32.xor_left_inj, List.foldl_append] at same
  exact eq_of_foldl_eq length few (foldl_injective after same)

end HeapEngine.Checksum
