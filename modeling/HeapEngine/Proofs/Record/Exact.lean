import HeapEngine.Proofs.Record.Codec
import HeapEngine.Proofs.Record.Reading

/-!
The bytes of a record are no part of the bytes of another one.

A record ends where its last value ends, and how many values there are and how long they are is told before
them. So what is read as a record is not one any more when bytes are missing or when bytes follow, whichever
of their forms the numbers in it have.
-/

namespace HeapEngine

/-- A folded word unfolds into a number of 64 bits, and that folds onto the word again. -/
theorem Varint.zigzag_unzigzag {folded : Nat} (fits : folded < 2 ^ 64) :
    zigzag (Int64.ofInt (unzigzag folded)).toInt = folded := by
  have same : (Int64.ofInt (unzigzag folded)).toInt = unzigzag folded := by
    apply Int64.toInt_ofInt_of_le <;> unfold unzigzag <;> split <;> omega
  rw [same]
  unfold zigzag unzigzag
  -- Even words are the numbers from zero on, and odd ones the others.
  by_cases even : folded % 2 = 0
  · rw [if_pos even, if_pos (by omega)]
    omega
  · rw [if_neg even, if_neg (by omega)]
    omega

namespace Value

variable {tag : Nat} {value : Value} {input rest : Bytes}

/-- What is made of the bytes of a text. -/
def spell (bytes rest : Bytes) : Reading Value :=
  match Text.decode bytes with
  | .error place => .error (.malformedText place.validUpTo place.length)
  | .ok content => .ok (text content, rest)

theorem readText_eq :
    readText = Reading.next (Varint.read .u64) fun length => Reading.next (Varint.readBytes length) spell := by
  funext input
  unfold readText Reading.next
  rcases Varint.read .u64 input with cause | ⟨length, rest⟩
  · rfl
  · dsimp only
    rcases Varint.readBytes length rest with cause | ⟨bytes, rest⟩ <;> rfl

/-- A text is read from its length and its bytes. -/
theorem consumes_readText (taken : readText input = .ok (value, rest)) :
    value.tag = 3 ∧ Consumes readText value.content value input rest := by
  rw [readText_eq] at taken ⊢
  obtain ⟨length, middle, counted, taken⟩ := Reading.exists_of_next taken
  obtain ⟨bytes, after, filled, spelled⟩ := Reading.exists_of_next taken
  obtain ⟨rfl, split, reads⟩ := Varint.reads_of_readBytes filled
  unfold spell at spelled
  cases decoded : Text.decode bytes with
  | error place =>
    rw [decoded] at spelled
    cases spelled
  | ok characters =>
    rw [decoded] at spelled
    cases spelled
    -- A text has no bytes but those it was read from.
    have same := Text.encode_of_decode decoded
    have spelling : Reads (Reading.next (Varint.readBytes bytes.length) spell) bytes (text characters) :=
      reads.made fun rest => by rw [spell, decoded]
    have whole := (Varint.consumes_read counted).2.next (fun length => Reading.next (Varint.readBytes length) spell)
      ⟨bytes, split, spelling, .inl rfl⟩
    refine ⟨rfl, ?_⟩
    simpa only [content, same] using whole

/-- The bytes of a blob, where the first one that is missing ends the reading. -/
def fill (length : Nat) (input : Bytes) : Reading Value :=
  match Varint.readBytes length input with
  | .error _ => .error (.unexpectedEnd 1)
  | .ok (bytes, rest) => .ok (blob bytes, rest)

theorem readBlob_eq : readBlob = Reading.next (Varint.read .usize) fill := by
  funext input
  unfold readBlob Reading.next
  rcases Varint.read .usize input with cause | ⟨length, rest⟩ <;> rfl

/-- A blob is read from its length and its bytes. -/
theorem consumes_readBlob (taken : readBlob input = .ok (value, rest)) :
    value.tag = 4 ∧ Consumes readBlob value.content value input rest := by
  rw [readBlob_eq] at taken ⊢
  obtain ⟨length, middle, counted, taken⟩ := Reading.exists_of_next taken
  unfold fill at taken
  cases filled : Varint.readBytes length middle with
  | error cause =>
    rw [filled] at taken
    cases taken
  | ok result =>
    obtain ⟨bytes, after⟩ := result
    rw [filled] at taken
    cases taken
    obtain ⟨rfl, split, reads⟩ := Varint.reads_of_readBytes filled
    have filling : Reads (fill bytes.length) bytes (blob bytes) := by
      refine ⟨fun rest => by rw [fill, reads.whole], fun parts lacking => ?_⟩
      obtain ⟨_, told⟩ := reads.cut parts lacking
      exact ⟨1, by rw [fill, told]⟩
    exact ⟨rfl, (Varint.consumes_read counted).2.next fill ⟨bytes, split, filling, .inl rfl⟩⟩

/-- An integer of 64 bits, from the word it was folded onto. -/
def ofFolded (folded : Nat) (rest : Bytes) : Reading Value := .ok (integer (Int64.ofInt (Varint.unzigzag folded)), rest)

/-- A double, from its bits. -/
def ofBits (bits : Nat) (rest : Bytes) : Reading Value := .ok (real ⟨UInt64.ofNat bits⟩, rest)

/-- The content of a value is read exactly, under the tag that announced it. -/
theorem consumes_readContent (taken : readContent tag input = .ok (value, rest)) :
    value.tag = tag ∧ Consumes (readContent tag) value.content value input rest := by
  match tag with
  | 0 =>
    cases taken
    exact ⟨rfl, [], rfl, .nothing fun _ => rfl, .inl rfl⟩
  | 1 =>
    have split : readContent 1 = Reading.next (Varint.read .i64) ofFolded := by
      funext input
      unfold readContent Reading.next
      rcases Varint.read .i64 input with cause | ⟨folded, rest⟩ <;> rfl
    rw [split] at taken ⊢
    obtain ⟨folded, middle, read, made⟩ := Reading.exists_of_next taken
    cases made
    obtain ⟨fits, consumes⟩ := Varint.consumes_read read
    refine ⟨rfl, ?_⟩
    simp only [content, Varint.zigzag_unzigzag fits]
    exact consumes.made fun _ => rfl
  | 2 =>
    have split : readContent 2 = Reading.next (Varint.readFixed 8) ofBits := by
      funext input
      unfold readContent Reading.next
      rcases Varint.readFixed 8 input with cause | ⟨folded, rest⟩ <;> rfl
    rw [split] at taken ⊢
    obtain ⟨bits, middle, read, made⟩ := Reading.exists_of_next taken
    cases made
    obtain ⟨fits, whole, reads⟩ := Varint.reads_of_readFixed read
    have same : (UInt64.ofNat bits).toNat = bits := UInt64.toNat_ofNat_of_lt' fits
    refine ⟨rfl, ?_⟩
    simp only [content, same]
    exact ⟨_, whole, reads.made fun _ => rfl, .inl rfl⟩
  | 3 => exact consumes_readText taken
  | 4 => exact consumes_readBlob taken
  | _ + 5 => cases taken

theorem read_eq : read = Reading.next (Varint.read .u32) readContent := by
  funext input
  unfold read Reading.next
  rcases Varint.read .u32 input with cause | ⟨tag, rest⟩ <;> rfl

/-- A value is read exactly, and it is written in no more bytes than it was read from. -/
theorem consumes_read (taken : read input = .ok (value, rest)) : Consumes read value.encode value input rest := by
  rw [read_eq] at taken ⊢
  obtain ⟨tag, middle, announced, taken⟩ := Reading.exists_of_next taken
  obtain ⟨rfl, consumes⟩ := consumes_readContent taken
  exact (Varint.consumes_read announced).2.next readContent consumes

theorem readMany_succ (count : Nat) (before : List Value) : readMany (count + 1) before
    = Reading.next read fun value => readMany count (value :: before) := by
  funext input
  rw [readMany, Reading.next]
  rcases read input with cause | ⟨value, rest⟩ <;> rfl

/-- So many values are read exactly, one after the other. -/
theorem consumes_readMany {count : Nat} {before values : List Value}
    (taken : readMany count before input = .ok (values, rest)) :
    ∃ others, values = before.reverse ++ others ∧ others.length = count
      ∧ Consumes (readMany count before) (others.flatMap encode) values input rest := by
  induction count generalizing before input with
  | zero =>
    cases taken
    exact ⟨[], (List.append_nil _).symm, rfl, [], rfl, .nothing fun _ => rfl, .inl rfl⟩
  | succ count ih =>
    rw [readMany_succ] at taken ⊢
    obtain ⟨first, middle, one, taken⟩ := Reading.exists_of_next taken
    obtain ⟨others, rfl, length, consumes⟩ := ih taken
    refine ⟨first :: others, by simp, by simp [length], ?_⟩
    rw [List.flatMap_cons]
    exact (consumes_read one).next (fun value => readMany count (value :: before)) consumes

end Value

namespace Record

variable {bytes : Bytes} {record : Record}

/-- Reads the number of values, and so many values. -/
def readValues : Bytes → Reading (List Value) :=
  Reading.next (Varint.read .usize) fun count => Value.readMany count []

/-- Bytes are a record if values are read from them and none are left. -/
theorem decode_eq (nonempty : bytes ≠ []) : decode bytes = match readValues bytes with
    | .error cause => .error (.unreadable cause)
    | .ok (values, rest) =>
      if rest = [] then .ok (ofValues values) else .error (.trailing (bytes.length - rest.length) bytes.length) := by
  rw [decode, if_neg nonempty, readValues, Reading.next]
  rcases Varint.read .usize bytes with cause | ⟨count, rest⟩ <;> rfl

/-- The bytes of a record are read exactly, and it is written in no more bytes than it was read from. -/
theorem reads_of_decode (decoded : decode bytes = .ok record) :
    bytes ≠ [] ∧ Reads readValues bytes record.values ∧ Abridges record.encode bytes := by
  have nonempty : bytes ≠ [] := by
    rintro rfl
    cases decoded
  rw [decode_eq nonempty] at decoded
  cases answer : readValues bytes with
  | error cause =>
    rw [answer] at decoded
    cases decoded
  | ok result =>
    obtain ⟨values, rest⟩ := result
    rw [answer] at decoded
    simp only at decoded
    split at decoded
    · rename_i nothing
      subst nothing
      cases decoded
      obtain ⟨count, middle, counted, taken⟩ := Reading.exists_of_next answer
      obtain ⟨others, rfl, rfl, consumes⟩ := Value.consumes_readMany taken
      obtain ⟨all, split, reads, abridges⟩ := (Varint.consumes_read counted).2.next
        (fun count => Value.readMany count []) consumes
      rw [List.append_nil] at split
      subst split
      exact ⟨nonempty, reads, abridges⟩
    · cases decoded

/--
Bytes that are a record are one to the last byte.

No beginning of them is a record, since the reading comes to the end of the input too early. With more bytes
behind them they are none either, and it is told how many of the bytes the record took.
-/
theorem decode_exact (decoded : decode bytes = .ok record) :
    (∀ front, front <+: bytes → front ≠ bytes → decode front = .error .empty
        ∨ ∃ missing, decode front = .error (.unreadable (.unexpectedEnd missing)))
      ∧ ∀ more, more ≠ [] → ∃ cause, decode (bytes ++ more) = .error cause
        ∧ cause.message = s!"Trailing bytes after tuple: consumed {bytes.length} of {bytes.length + more.length}" := by
  obtain ⟨nonempty, reads, _⟩ := reads_of_decode decoded
  refine ⟨fun front starts proper => ?_, fun more following => ?_⟩
  · obtain ⟨back, rfl⟩ := starts
    by_cases nothing : front = []
    · exact .inl (by rw [nothing]; rfl)
    · have lacking : back ≠ [] := by
        rintro rfl
        exact proper (List.append_nil front).symm
      obtain ⟨missing, told⟩ := reads.cut rfl lacking
      exact .inr ⟨missing, by rw [decode_eq nothing, told]⟩
  · refine ⟨.trailing bytes.length (bytes.length + more.length), ?_, rfl⟩
    have longer : bytes ++ more ≠ [] := fun none => nonempty (List.append_eq_nil_iff.1 none).1
    -- The values are read as before, and what follows is left.
    rw [decode_eq longer, reads.whole]
    simp only [if_neg following, List.length_append, Nat.add_sub_cancel]

/-- Two values, where the number of them and the integer are written wider than they need be. -/
def wide : Bytes := [251, 2, 0, 0, 1, 252, 5, 0, 0, 0]

theorem decode_exact_wide : decode wide = .ok ⟨none, [.null, .integer (-3)]⟩
    ∧ (∀ front, front <+: wide → front ≠ wide → decode front = .error .empty
        ∨ ∃ missing, decode front = .error (.unreadable (.unexpectedEnd missing)))
    ∧ ∀ more, more ≠ [] → ∃ cause, decode (wide ++ more) = .error cause
      ∧ cause.message = s!"Trailing bytes after tuple: consumed {wide.length} of {wide.length + more.length}" := by
  have decoded : decode wide = .ok ⟨none, [.null, .integer (-3)]⟩ := by rfl
  exact ⟨decoded, decode_exact decoded⟩

end Record

end HeapEngine
