import HeapEngine.Proofs.Bytes
import HeapEngine.Record.Varint

/-! What a number is written as reads back as that number, whatever follows it. -/

namespace HeapEngine.Varint

variable {count width value : Nat}

/-- Bytes that are there are read, and those after them are left. -/
theorem readBytes_append {part : Bytes} (long : part.length = count) (rest : Bytes) :
    readBytes count (part ++ rest) = .ok (part, rest) := by
  subst long
  simp [readBytes]

/-- A number of fixed width reads back. -/
theorem readFixed_ofNumber (fits : value < 256 ^ width) (rest : Bytes) :
    readFixed width (Bytes.ofNumber width value ++ rest) = .ok (value, rest) := by
  rw [readFixed, readBytes_append (Bytes.length_ofNumber width value)]
  simp only [Bytes.toNumber_ofNumber fits]

/-- A number reads back if the kind expected is wide enough for it. -/
theorem read_write (expected : IntegerKind) (fits : value < 2 ^ 64)
    (narrow : expected = .u32 → value < 2 ^ 32) (rest : Bytes) :
    read expected (write value ++ rest) = .ok (value, rest) := by
  unfold write
  by_cases one : value < 251
  · -- A small number is its own marker.
    have byte : (UInt8.ofNat value).toNat = value := by
      rw [UInt8.toNat_ofNat']
      omega
    simp only [if_pos one, List.cons_append, List.nil_append, read, byte]
  by_cases two : value < 2 ^ 16
  · simp only [if_neg one, if_pos two, List.cons_append, read]
    exact readFixed_ofNumber (show value < 256 ^ 2 by omega) rest
  by_cases four : value < 2 ^ 32
  · simp only [if_neg one, if_neg two, if_pos four, List.cons_append, read]
    exact readFixed_ofNumber (show value < 256 ^ 4 by omega) rest
  · -- The widest form is refused only where a narrow number is expected.
    have wide : expected ≠ .u32 := fun same => four (narrow same)
    simp only [if_neg one, if_neg two, if_neg four, List.cons_append, read, wide]
    exact readFixed_ofNumber (show value < 256 ^ 8 by omega) rest

/-- Unfolding takes folding back. -/
theorem unzigzag_zigzag (value : Int) : unzigzag (zigzag value) = value := by
  unfold unzigzag zigzag
  split
  · -- Numbers from zero on become even, and negative ones odd.
    rw [if_pos (by omega)]
    omega
  · rw [if_neg (by omega)]
    omega

/-- A signed word of 64 bits folds onto a word. -/
theorem zigzag_lt (number : Int64) : zigzag number.toInt < 2 ^ 64 := by
  have least := number.le_toInt
  have most := number.toInt_lt
  unfold zigzag
  split <;> omega

end HeapEngine.Varint
