import HeapEngine.Proofs.Record.Varint

/-!
Readers that take exactly the bytes of what they read.

Such a reader needs all of these bytes and looks at none after them, so what it accepts is no beginning of
anything else that it accepts. Readers in turn keep this, and so they keep that what is written again is
not longer than what was read.
-/

namespace HeapEngine

/-- Reads one thing, and then what follows it, which may depend on the first. -/
def Reading.next {α β : Type} (first : Bytes → Reading α) (later : α → Bytes → Reading β) (input : Bytes) : Reading β :=
  match first input with
  | .error cause => .error cause
  | .ok (value, rest) => later value rest

/-- A reader takes these bytes for a value, whatever follows them, and cannot do with a part of them. -/
structure Reads {α : Type} (reader : Bytes → Reading α) (bytes : Bytes) (value : α) : Prop where
  whole : ∀ rest, reader (bytes ++ rest) = .ok (value, rest)
  /-- Where only a beginning of the bytes is there, the end of the input is told. -/
  cut : ∀ {front back : Bytes}, bytes = front ++ back → back ≠ [] →
    ∃ missing, reader front = .error (.unexpectedEnd missing)

/-- The same bytes, or fewer. -/
def Abridges (short long : Bytes) : Prop := short = long ∨ short.length < long.length

/-- A reader took a value from the front of its input, exactly, and the bytes written for it abridge those read. -/
def Consumes {α : Type} (reader : Bytes → Reading α) (written : Bytes) (value : α) (input rest : Bytes) : Prop :=
  ∃ bytes, input = bytes ++ rest ∧ Reads reader bytes value ∧ Abridges written bytes

variable {α β : Type} {first : Bytes → Reading α} {later : α → Bytes → Reading β} {x : α} {y : β}
  {input middle rest written more : Bytes}

namespace Abridges

/-- Bytes that abridge others are no longer than these, and as long only if they are the same. -/
theorem length_le {short long : Bytes} (abridges : Abridges short long) :
    short.length ≤ long.length ∧ (short.length = long.length → short = long) := by
  rcases abridges with same | fewer
  · exact ⟨Nat.le_of_eq (congrArg List.length same), fun _ => same⟩
  · exact ⟨Nat.le_of_lt fewer, fun equal => absurd equal (Nat.ne_of_lt fewer)⟩

/-- Parts that are abridged abridge the whole. -/
theorem append {short long other further : Bytes} (front : Abridges short long) (back : Abridges other further) :
    Abridges (short ++ other) (long ++ further) := by
  have ends := back.length_le.1
  rcases front with rfl | fewer
  · rcases back with rfl | less
    · exact .inl rfl
    · exact .inr (by simpa using less)
  · -- The part that became shorter makes up for the other one, which did not grow.
    exact .inr (by simp only [List.length_append]; omega)

end Abridges

/-- What two readers in turn gave was given by the one and then by the other. -/
theorem Reading.exists_of_next (read : Reading.next first later input = .ok (y, rest)) :
    ∃ x middle, first input = .ok (x, middle) ∧ later x middle = .ok (y, rest) := by
  unfold Reading.next at read
  cases answer : first input with
  | error cause => simp [answer] at read
  | ok result =>
    rw [answer] at read
    exact ⟨result.1, result.2, rfl, read⟩

namespace Reads

/-- Two readers in turn take what the one takes, and then what the other takes. -/
theorem next {front back : Bytes} (one : Reads first front x) (other : Reads (later x) back y) :
    Reads (Reading.next first later) (front ++ back) y where
  whole rest := by
    simp only [Reading.next, List.append_assoc, one.whole, other.whole]
  cut := by
    intro start missing split lacking
    -- The input ends within what the first reader needs, or after it.
    rcases List.append_eq_append_iff.1 split with ⟨inner, rfl, same⟩ | ⟨inner, rfl, rfl⟩
    · obtain ⟨count, told⟩ := other.cut same lacking
      exact ⟨count, by simp only [Reading.next, one.whole, told]⟩
    · cases inner with
      | nil =>
        obtain ⟨count, told⟩ := other.cut (List.nil_append _).symm lacking
        have all := one.whole []
        simp only [List.append_nil] at all
        exact ⟨count, by simp only [Reading.next, all, told]⟩
      | cons byte others =>
        obtain ⟨count, told⟩ := one.cut rfl (List.cons_ne_nil byte others)
        exact ⟨count, by simp only [Reading.next, told]⟩

/-- A value that needs no bytes is there without any. -/
theorem nothing {reader : Bytes → Reading α} (told : ∀ rest, reader rest = .ok (x, rest)) : Reads reader [] x where
  whole := told
  cut := by
    intro front back split lacking
    exact absurd (List.append_eq_nil_iff.1 split.symm).2 lacking

end Reads

/-- A value may be made of what was read without reading on. -/
theorem Reads.made {bytes : Bytes} (one : Reads first bytes x) (told : ∀ rest, later x rest = .ok (y, rest)) :
    Reads (Reading.next first later) bytes y := by
  have whole := one.next (.nothing told)
  rwa [List.append_nil] at whole

namespace Consumes

/-- Two readers in turn consume what the one and then the other consumes. -/
theorem next (one : Consumes first written x input middle) (later : α → Bytes → Reading β)
    (other : Consumes (later x) more y middle rest) :
    Consumes (Reading.next first later) (written ++ more) y input rest := by
  obtain ⟨front, rfl, reads, abridges⟩ := one
  obtain ⟨back, rfl, readsMore, abridgesMore⟩ := other
  exact ⟨front ++ back, (List.append_assoc _ _ _).symm, reads.next readsMore, abridges.append abridgesMore⟩

theorem made (one : Consumes first written x input rest) (told : ∀ rest, later x rest = .ok (y, rest)) :
    Consumes (Reading.next first later) written y input rest := by
  obtain ⟨bytes, split, reads, abridges⟩ := one
  exact ⟨bytes, split, reads.made told, abridges⟩

end Consumes

namespace Varint

variable {count width value : Nat} {expected : IntegerKind}

/-- Bytes that are read are so many, and they are the front of the input. -/
theorem reads_of_readBytes {part : Bytes} (read : readBytes count input = .ok (part, rest)) :
    part.length = count ∧ input = part ++ rest ∧ Reads (readBytes count) part part := by
  unfold readBytes at read
  simp only at read
  split at read
  · cases read
  rename_i enough
  cases read
  have length : (input.take count).length = count := by
    have most := List.length_take_le count input
    omega
  refine ⟨length, (List.take_append_drop count input).symm, readBytes_append length,
    fun {front back} split lacking => ?_⟩
  -- A beginning of these bytes is too short.
  have parts := congrArg List.length split
  have longer := List.length_pos_iff.2 lacking
  rw [List.length_append, length] at parts
  have short : (front.take count).length < count := by
    rw [List.length_take]
    omega
  exact ⟨count - (front.take count).length, by simp only [readBytes, if_pos short]⟩

theorem readFixed_eq (width : Nat) :
    readFixed width = Reading.next (readBytes width) fun part rest => .ok (Bytes.toNumber part, rest) := by
  funext input
  unfold readFixed Reading.next
  cases readBytes width input <;> rfl

/-- A number of fixed width is written in the bytes it was read from. -/
theorem reads_of_readFixed (read : readFixed width input = .ok (value, rest)) :
    value < 256 ^ width ∧ input = Bytes.ofNumber width value ++ rest
      ∧ Reads (readFixed width) (Bytes.ofNumber width value) value := by
  rw [readFixed_eq] at read
  obtain ⟨part, middle, taken, made⟩ := Reading.exists_of_next read
  cases made
  obtain ⟨rfl, split, reads⟩ := reads_of_readBytes taken
  rw [readFixed_eq, Bytes.ofNumber_toNumber]
  exact ⟨Bytes.toNumber_lt part, split, reads.made fun _ => rfl⟩

/-- A number is written in no more bytes than a marker and the number after it take. -/
theorem abridges_write :
    (value < 2 ^ 16 → Abridges (write value) (251 :: Bytes.ofNumber 2 value))
      ∧ (value < 2 ^ 32 → Abridges (write value) (252 :: Bytes.ofNumber 4 value))
      ∧ (value < 2 ^ 64 → Abridges (write value) (253 :: Bytes.ofNumber 8 value)) := by
  unfold write
  -- The widths grow, so a number goes into the first one that is wide enough.
  by_cases one : value < 251
  · simp [if_pos one, Abridges]
  by_cases two : value < 2 ^ 16
  · simp [if_neg one, if_pos two, Abridges]
  by_cases four : value < 2 ^ 32
  · exact ⟨fun fits => absurd fits two, by simp [if_neg one, if_neg two, if_pos four, Abridges]⟩
  · exact ⟨fun fits => absurd fits two, fun fits => absurd fits four,
      by simp [if_neg one, if_neg two, if_neg four, Abridges]⟩

/-- A marker is read with the number that follows it. -/
theorem consumes_marked {marker : UInt8} (marked : ∀ rest, read expected (marker :: rest) = readFixed width rest)
    (taken : readFixed width input = .ok (value, rest))
    (short : Abridges (write value) (marker :: Bytes.ofNumber width value)) :
    Consumes (read expected) (write value) value (marker :: input) rest := by
  obtain ⟨_, rfl, reads⟩ := reads_of_readFixed taken
  refine ⟨marker :: Bytes.ofNumber width value, rfl, ⟨fun rest => ?_, fun {front back} split lacking => ?_⟩, short⟩
  · rw [List.cons_append, marked, reads.whole]
  · -- Either the marker is missing already, or a part of the number is.
    cases front with
    | nil => exact ⟨1, rfl⟩
    | cons first others =>
      rw [List.cons_append, List.cons.injEq] at split
      obtain ⟨rfl, split⟩ := split
      rw [marked]
      exact reads.cut split lacking

/-- A byte below the markers is the number it spells. -/
theorem consumes_small {first : UInt8} (small : first.toNat < 251) (rest : Bytes) :
    Consumes (read expected) (write first.toNat) first.toNat (first :: rest) rest := by
  have told : ∀ rest, read expected (first :: rest) = .ok (first.toNat, rest) := fun rest => by
    rw [read, if_pos small]
  have same : write first.toNat = [first] := by rw [write, if_pos small, UInt8.ofNat_toNat]
  refine ⟨[first], rfl, ⟨told, fun {front back} split lacking => ?_⟩, .inl same⟩
  cases front with
  | nil => exact ⟨1, rfl⟩
  | cons byte more =>
    have tail := (List.cons.inj split).2
    exact absurd (List.append_eq_nil_iff.1 tail.symm).2 lacking

/-- A number that is read is a word, and writing it takes no more bytes than were read. -/
theorem consumes_read (taken : read expected input = .ok (value, rest)) :
    value < 2 ^ 64 ∧ Consumes (read expected) (write value) value input rest := by
  cases input with
  | nil => cases taken
  | cons first others =>
    -- The first byte is the number, or it tells how wide the number after it is.
    rw [read] at taken
    split at taken
    · rename_i small
      cases taken
      exact ⟨by omega, consumes_small small rest⟩
    split at taken
    · rename_i marker
      obtain rfl : first = 251 := UInt8.toNat_inj.1 marker
      have fits := (reads_of_readFixed taken).1
      exact ⟨by omega, consumes_marked (fun _ => rfl) taken (abridges_write.1 (by omega))⟩
    split at taken
    · rename_i marker
      obtain rfl : first = 252 := UInt8.toNat_inj.1 marker
      have fits := (reads_of_readFixed taken).1
      exact ⟨by omega, consumes_marked (fun _ => rfl) taken (abridges_write.2.1 (by omega))⟩
    split at taken
    · rename_i marker
      obtain rfl : first = 253 := UInt8.toNat_inj.1 marker
      split at taken
      · cases taken
      rename_i wide
      have told : ∀ rest, read expected (253 :: rest) = readFixed 8 rest := fun rest => by
        simp [read, wide]
      have fits := (reads_of_readFixed taken).1
      exact ⟨by omega, consumes_marked told taken (abridges_write.2.2 (by omega))⟩
    · -- The other markers are refused.
      split at taken <;> cases taken

end Varint

end HeapEngine
