import HeapEngine.Text.Utf8
import HeapEngine.Record
import HeapEngine.Record.Varint

/-!
Records as bytes: the number of values, then for each its kind and its content.

The place of a record is where its bytes are, so it is not among them.
-/

namespace HeapEngine

namespace Value

/-- The number that announces a value's kind. -/
def tag : Value → Nat
  | null => 0
  | integer _ => 1
  | real _ => 2
  | text _ => 3
  | blob _ => 4

/-- The bytes of a value after its kind. -/
def content : Value → Bytes
  | null => []
  | integer number => Varint.write (Varint.zigzag number.toInt)
  | real number => Bytes.ofNumber 8 number.bits.toNat
  | text content =>
    let bytes := Text.encode content
    Varint.write bytes.length ++ bytes
  | blob content => Varint.write content.length ++ content

/-- The bytes of a value. -/
def encode (value : Value) : Bytes := Varint.write value.tag ++ value.content

/-- Reads the length and the bytes of a text, then the text they spell. -/
def readText (input : Bytes) : Reading Value :=
  match Varint.read .u64 input with
  | .error cause => .error cause
  | .ok (length, rest) =>
    match Varint.readBytes length rest with
    | .error cause => .error cause
    | .ok (bytes, rest) =>
      match Text.decode bytes with
      | .error place => .error (.malformedText place.validUpTo place.length)
      | .ok content => .ok (text content, rest)

/-- Reads the length and the bytes of a blob; its bytes are asked for one at a time. -/
def readBlob (input : Bytes) : Reading Value :=
  match Varint.read .usize input with
  | .error cause => .error cause
  | .ok (length, rest) =>
    match Varint.readBytes length rest with
    -- The first byte that is missing ends the reading.
    | .error _ => .error (.unexpectedEnd 1)
    | .ok (bytes, rest) => .ok (blob bytes, rest)

/-- Reads the content of a value of the kind that a tag announces. -/
def readContent (tag : Nat) (input : Bytes) : Reading Value :=
  match tag with
  | 0 => .ok (null, input)
  | 1 =>
    match Varint.read .i64 input with
    | .error cause => .error cause
    | .ok (folded, rest) => .ok (integer (Int64.ofInt (Varint.unzigzag folded)), rest)
  | 2 =>
    match Varint.readFixed 8 input with
    | .error cause => .error cause
    | .ok (bits, rest) => .ok (real ⟨UInt64.ofNat bits⟩, rest)
  | 3 => readText input
  | 4 => readBlob input
  | _ => .error (.unknownKind tag 5)

/-- Reads one value. -/
def read (input : Bytes) : Reading Value :=
  match Varint.read .u32 input with
  | .error cause => .error cause
  | .ok (tag, rest) => readContent tag rest

/-- Reads so many values, after the ones in `before`, last first. -/
def readMany : (count : Nat) → (before : List Value) → Bytes → Reading (List Value)
  | 0, before, input => .ok (before.reverse, input)
  | count + 1, before, input =>
    match read input with
    | .error cause => .error cause
    | .ok (value, rest) => readMany count (value :: before) rest

end Value

/-- Why bytes are no record. -/
inductive RecordError where
  /-- There were no bytes at all. -/
  | empty
  /-- The values could not be read. -/
  | unreadable (cause : DecodeError)
  /-- Bytes were left after the last value. -/
  | trailing (consumed total : Nat)
deriving DecidableEq

/-- The words for why bytes are no record. -/
def RecordError.message : RecordError → String
  | empty => "Empty bytes"
  | unreadable cause => cause.message
  | trailing consumed total => s!"Trailing bytes after tuple: consumed {consumed} of {total}"

namespace Record

/-- The bytes of a record's values. -/
def encode (record : Record) : Bytes :=
  -- The number of values comes first, so even a record without values has a byte.
  Varint.write record.values.length ++ record.values.flatMap Value.encode

/-- The record whose values the bytes hold, all of the bytes. -/
def decode (bytes : Bytes) : Except RecordError Record :=
  if bytes = [] then .error .empty
  else
    match Varint.read .usize bytes with
    | .error cause => .error (.unreadable cause)
    | .ok (count, rest) =>
      match Value.readMany count [] rest with
      | .error cause => .error (.unreadable cause)
      | .ok (values, rest) =>
        -- Nothing may follow, so no bytes are read as two different records.
        if rest = [] then .ok (ofValues values)
        else .error (.trailing (bytes.length - rest.length) bytes.length)

end Record

end HeapEngine
