import HeapEngine.Bytes

/-! Laws of byte strings: numbers read back as written, and windows see what was put under them. -/

namespace HeapEngine.Bytes

@[simp] theorem length_zeros (count : Nat) : (zeros count).length = count := List.length_replicate

/-- A number takes exactly the width it is written in. -/
@[simp] theorem length_ofNumber (width value : Nat) : (ofNumber width value).length = width := by
  -- The value shrinks with every byte, so it stays general.
  induction width generalizing value with
  | zero => rfl
  | succ width ih => simp [ofNumber, ih]

/-- A number written in a width it fits reads back as itself. -/
theorem toNumber_ofNumber {width value : Nat} (fits : value < 256 ^ width) :
    toNumber (ofNumber width value) = value := by
  induction width generalizing value with
  | zero =>
    -- No bytes at all spell only zero.
    simp only [Nat.pow_zero] at fits
    simp only [ofNumber, toNumber]
    omega
  | succ width ih =>
    rw [Nat.pow_succ] at fits
    -- The first byte is the remainder, and the others spell the quotient.
    have rest : value / 256 < 256 ^ width := Nat.div_lt_of_lt_mul (by omega)
    simp only [ofNumber, toNumber, ih rest, UInt8.toNat_ofNat']
    omega

/-- A byte string spells a number below the power of 256 of its length. -/
theorem toNumber_lt (bytes : Bytes) : toNumber bytes < 256 ^ bytes.length := by
  induction bytes with
  | nil => simp [toNumber]
  | cons byte rest ih =>
    -- The first byte is below 256, and the others count in units of 256.
    have low := byte.toNat_lt
    rw [List.length_cons, Nat.pow_succ]
    simp only [toNumber]
    omega

/-- The number that bytes spell is written as these bytes in their own width. -/
theorem ofNumber_toNumber (bytes : Bytes) : ofNumber bytes.length (toNumber bytes) = bytes := by
  induction bytes with
  | nil => rfl
  | cons byte rest ih =>
    -- The remainder is the first byte, and the quotient is what the others spell.
    have low := byte.toNat_lt
    have quotient : (byte.toNat + 256 * toNumber rest) / 256 = toNumber rest := by omega
    have first : UInt8.ofNat (byte.toNat + 256 * toNumber rest) = byte := by
      apply UInt8.toNat_inj.1
      rw [UInt8.toNat_ofNat']
      omega
    rw [List.length_cons, toNumber, ofNumber, first, quotient, ih]

/-- A window that lies within the buffer has the length asked for. -/
theorem length_window {start length : Nat} {buffer : Bytes}
    (within : start + length ≤ buffer.length) : (window start length buffer).length = length := by
  simp only [window, List.length_take, List.length_drop]
  omega

/-- A window past the front sees only what follows the front. -/
theorem window_append_right {front back : Bytes} {start : Nat} (length : Nat)
    (past : front.length ≤ start) :
    window start length (front ++ back) = window (start - front.length) length back := by
  -- All of the front is dropped.
  simp only [window, List.drop_append, List.drop_eq_nil_of_le past, List.nil_append]

/-- A window on exactly the part between a front and a back sees that part. -/
theorem window_middle (front part back : Bytes) :
    window front.length part.length (front ++ (part ++ back)) = part := by
  rw [window_append_right _ (Nat.le_refl _)]
  simp [window]

/-- A window depends only on the bytes from any place before it. -/
theorem window_drop {start from_ : Nat} (length : Nat) (buffer : Bytes) (after : from_ ≤ start) :
    window start length buffer = window (start - from_) length (buffer.drop from_) := by
  simp only [window, List.drop_drop]
  congr 2
  omega

/-- Writing a part within the buffer keeps the length of the buffer. -/
theorem length_overwrite {buffer part : Bytes} {start : Nat}
    (within : start + part.length ≤ buffer.length) :
    (overwrite buffer start part).length = buffer.length := by
  simp only [overwrite, List.length_append, List.length_take, List.length_drop]
  omega

/-- What lies after the part just written is what lay there before. -/
theorem drop_overwrite {buffer part : Bytes} {start place : Nat}
    (within : start ≤ buffer.length) (after : start + part.length ≤ place) :
    (overwrite buffer start part).drop place = buffer.drop place := by
  -- Up to the end of the part the new buffer is what was in front, and the part.
  have front : (buffer.take start ++ part).length = start + part.length := by
    simp only [List.length_append, List.length_take]
    omega
  rw [overwrite, List.drop_append, front, List.drop_eq_nil_of_le (by omega), List.nil_append,
    List.drop_drop]
  congr 1
  omega

/-- From the part just written on, the buffer holds the part and what followed its place. -/
theorem drop_overwrite_self {buffer part : Bytes} {start : Nat} (within : start ≤ buffer.length) :
    (overwrite buffer start part).drop start = part ++ buffer.drop (start + part.length) := by
  have front : (buffer.take start).length = start := by
    simp only [List.length_take]
    omega
  rw [overwrite, List.append_assoc, List.drop_append, front, Nat.sub_self, List.drop_zero,
    List.drop_eq_nil_of_le (by omega), List.nil_append]

/-- Byte order is the order of words over the ordered bytes. -/
theorem order_eq_compare (a b : Bytes) : order a b = compare a b := by
  induction a generalizing b with
  | nil => cases b <;> rfl
  | cons x xs ih =>
    cases b with
    | nil => rfl
    | cons y ys =>
      rw [List.compare_cons_cons, order, ih]
      -- Equal first bytes leave it to the rest.
      rcases first : compare x y with _ | _ | _
      · rw [if_pos (Std.compare_eq_lt.1 first)]
        rfl
      · rw [Std.compare_eq_iff_eq.1 first, if_neg (UInt8.lt_irrefl _), if_neg (UInt8.lt_irrefl _)]
        rfl
      · have after := Std.compare_eq_gt.1 first
        rw [if_neg (UInt8.lt_asymm after), if_pos after]
        rfl

end HeapEngine.Bytes
