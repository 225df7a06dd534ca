import HeapEngine.Proofs.Record.Varint
import HeapEngine.Proofs.Text.Utf8
import HeapEngine.Record.Codec

/-!
A record reads back from its bytes.

Numbers of values and of bytes are written as words of 64 bits, which count whatever memory can hold.
-/

namespace HeapEngine

namespace Value

/-- The number of a kind is small. -/
theorem tag_lt (value : Value) : value.tag < 5 := by
  cases value <;> simp [tag]

/-- The bytes of the value can be counted by a word, as those of all values in memory can. -/
def Countable : Value → Prop
  | text content => (Text.encode content).length < 2 ^ 64
  | blob content => content.length < 2 ^ 64
  | _ => True

/-- The content of a value reads back under the value's tag, whatever follows it. -/
theorem readContent_content (value : Value) (countable : value.Countable) (rest : Bytes) :
    readContent value.tag (value.content ++ rest) = .ok (value, rest) := by
  cases value with
  | null => rfl
  | integer number =>
    have read := Varint.read_write .i64 (Varint.zigzag_lt number) (by simp) rest
    simp only [content, tag, readContent, read, Varint.unzigzag_zigzag, Int64.ofInt_toInt]
  -- A real number is written as its bits, in eight bytes.
  | real number =>
    have fits : number.bits.toNat < 256 ^ 8 := number.bits.toNat_lt
    simp only [content, tag, readContent, Varint.readFixed_ofNumber fits, UInt64.ofNat_toNat]
  -- The length in bytes comes first, and then exactly these bytes.
  | text characters =>
    have fits : (Text.encode characters).length < 2 ^ 64 := countable
    have read := Varint.read_write .u64 fits (by simp) (Text.encode characters ++ rest)
    simp only [content, tag, readContent, readText, List.append_assoc, read, Varint.readBytes_append rfl,
      Text.decode_encode]
  | blob bytes =>
    have fits : bytes.length < 2 ^ 64 := countable
    have read := Varint.read_write .usize fits (by simp) (bytes ++ rest)
    simp only [content, tag, readContent, readBlob, List.append_assoc, read, Varint.readBytes_append rfl]

/-- A value reads back, whatever follows it. -/
theorem read_encode (value : Value) (countable : value.Countable) (rest : Bytes) :
    read (value.encode ++ rest) = .ok (value, rest) := by
  have small := value.tag_lt
  -- The tag is small, so it reads back as the narrow number that is expected.
  have announced := Varint.read_write .u32 (show value.tag < 2 ^ 64 by omega) (fun _ => by omega)
    (value.content ++ rest)
  rw [read, encode, List.append_assoc, announced]
  exact value.readContent_content countable rest

/-- Values read back in order, whatever follows them. -/
theorem readMany_flatMap (values before : List Value) (countable : ∀ value ∈ values, value.Countable)
    (rest : Bytes) :
    readMany values.length before (values.flatMap encode ++ rest) = .ok (before.reverse ++ values, rest) := by
  -- The values read so far are kept in reverse, so they stay general.
  induction values generalizing before with
  | nil => simp [readMany]
  | cons value others ih =>
    have first := value.read_encode (countable value List.mem_cons_self) (others.flatMap encode ++ rest)
    have later := ih (value :: before) fun other member => countable other (List.mem_cons_of_mem _ member)
    simp only [List.length_cons, readMany, List.flatMap_cons, List.append_assoc, first, later,
      List.reverse_cons, List.nil_append, List.cons_append]

end Value

namespace Record

/-- Every number takes at least one byte. -/
theorem write_ne_nil (value : Nat) : Varint.write value ≠ [] := by
  unfold Varint.write
  split
  · simp
  split
  · simp
  split <;> simp

/-- Every record takes at least one byte, since its number of values comes first. -/
theorem encode_ne_nil (record : Record) : record.encode ≠ [] := by
  unfold encode
  intro nothing
  exact write_ne_nil _ (List.append_eq_nil_iff.1 nothing).1

/-- There are no more values than bytes, as each has a tag. -/
theorem length_values_le (values : List Value) : values.length ≤ (values.flatMap Value.encode).length := by
  induction values with
  | nil => exact Nat.le_refl _
  | cons value others ih =>
    have tagged : 0 < (Varint.write value.tag).length := List.length_pos_iff.2 (write_ne_nil _)
    simp only [List.flatMap_cons, List.length_append, List.length_cons, Value.encode]
    omega

/-- The number of values and each of them can be counted by words, as those of all records in memory can. -/
structure Countable (record : Record) : Prop where
  values : record.values.length < 2 ^ 64
  each : ∀ value ∈ record.values, value.Countable

/-- A value is no longer than its bytes. -/
theorem countable_of_length (value : Value) (short : value.encode.length < 2 ^ 64) : value.Countable := by
  cases value with
  | text content =>
    simp only [Value.encode, Value.content, List.length_append] at short
    show (Text.encode content).length < 2 ^ 64
    omega
  | blob content =>
    simp only [Value.encode, Value.content, List.length_append] at short
    show content.length < 2 ^ 64
    omega
  | _ => trivial

/-- What can be counted together can be counted one by one. -/
theorem Countable.of_length {record : Record} (short : record.encode.length < 2 ^ 64) : record.Countable := by
  have few := length_values_le record.values
  simp only [encode, List.length_append] at short
  refine ⟨by omega, fun value member => countable_of_length value ?_⟩
  have within := (List.sublist_flatten_of_mem (List.mem_map_of_mem (f := Value.encode) member)).length_le
  rw [← List.flatMap_def] at within
  omega

/-- A record reads back with its values, and without a place. -/
theorem decode_encode (record : Record) (countable : record.Countable) :
    decode record.encode = .ok (ofValues record.values) := by
  have counted := Varint.read_write .usize countable.values (by simp)
    (record.values.flatMap Value.encode)
  -- No byte is left over after the last value.
  have all := Value.readMany_flatMap record.values [] countable.each []
  rw [List.append_nil] at all
  rw [decode, if_neg record.encode_ne_nil, encode, counted]
  simp only [all, ↓reduceIte, List.reverse_nil, List.nil_append]

/--
Every record reads back from its bytes.

The bytes of a record, of which there is at least one, are read as a record of the same values in the same
order, whatever the integers, the bits of the reals, the texts and the blobs are. The place where a record is
stored is not among its bytes.
-/
theorem encode_reads_back {record : Record} (countable : record.Countable) :
    record.encode ≠ [] ∧ decode record.encode = .ok ⟨none, record.values⟩ :=
  ⟨record.encode_ne_nil, record.decode_encode countable⟩

/-- The extreme integers, those about the first change of width, what is no number, a text and a blob. -/
def extremes : Record :=
  ⟨some ⟨⟨1, 2⟩, 3⟩, [.integer Int64.minValue, .integer Int64.maxValue, .integer 125, .integer (-126),
    .real ⟨0x7FF8000000000001⟩, .real ⟨0x8000000000000000⟩, .text "aé€😀", .blob [0, 255], .null]⟩

/-- Values at the ends of their ranges read back, and the place does not. -/
theorem encode_reads_back_extremes : extremes.Countable
    ∧ extremes.encode ≠ [] ∧ decode extremes.encode = .ok ⟨none, extremes.values⟩ := by
  have countable : extremes.Countable := .of_length (by decide +kernel)
  exact ⟨countable, encode_reads_back countable⟩

end Record

end HeapEngine
