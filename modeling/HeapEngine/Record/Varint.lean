import HeapEngine.Bytes

/-!
Whole numbers in as few bytes as their size needs.

A number below 251 is one byte. A larger one is a marker followed by two, four or eight bytes, least
significant first. Writing takes the shortest form, reading takes any that is not wider than asked.
-/

namespace HeapEngine

/-- The kinds of whole numbers a reader may expect or a marker may announce. -/
inductive IntegerKind where
  | u32
  | u64
  | u128
  | usize
  | i64
  | i128
  | reserved
deriving DecidableEq

namespace IntegerKind

/-- The word for a kind. -/
def name : IntegerKind → String
  | u32 => "U32"
  | u64 => "U64"
  | u128 => "U128"
  | usize => "Usize"
  | i64 => "I64"
  | i128 => "I128"
  | reserved => "Reserved"

/-- What the marker of sixteen bytes means to a reader. -/
def sixteenBytes : IntegerKind → IntegerKind
  | i64 => i128
  | _ => u128

end IntegerKind

/-- Why bytes could not be read as values. -/
inductive DecodeError where
  /-- The input ended before the read at hand was done. -/
  | unexpectedEnd (missing : Nat)
  /-- A number was wider than the kind expected, or its marker has no meaning. -/
  | wrongInteger (expected found : IntegerKind)
  /-- A text was not UTF-8. -/
  | malformedText (validUpTo : Nat) (length : Option Nat)
  /-- A value announced a kind that does not exist. -/
  | unknownKind (tag kinds : Nat)
deriving DecidableEq

/-- The words for what is wrong with the bytes. -/
def DecodeError.message : DecodeError → String
  | unexpectedEnd missing => s!"UnexpectedEnd \x7b additional: {missing} \x7d"
  | wrongInteger expected found =>
    s!"InvalidIntegerType \x7b expected: {expected.name}, found: {found.name} \x7d"
  | malformedText validUpTo length =>
    let lengthText := match length with
      | some count => s!"Some({count})"
      | none => "None"
    s!"Utf8 \x7b inner: Utf8Error \x7b valid_up_to: {validUpTo}, error_len: " ++ lengthText
      ++ " \x7d \x7d"
  | unknownKind tag kinds =>
    s!"OtherString(\"invalid value: integer \x60{tag}\x60, "
      ++ s!"expected variant index 0 <= i < {kinds}\")"

/-- What a reader makes of a byte string: what it read and the bytes after it, or why it failed. -/
abbrev Reading (α : Type) := Except DecodeError (α × Bytes)

namespace Varint

/-- The shortest form of a number below `2 ^ 64`. -/
def write (value : Nat) : Bytes :=
  if value < 251 then [UInt8.ofNat value]
  else if value < 2 ^ 16 then 251 :: Bytes.ofNumber 2 value
  else if value < 2 ^ 32 then 252 :: Bytes.ofNumber 4 value
  else 253 :: Bytes.ofNumber 8 value

/-- Reads exactly so many bytes. -/
def readBytes (count : Nat) (input : Bytes) : Reading Bytes :=
  -- What is missing is told, not what is there.
  let part := input.take count
  if part.length < count then .error (.unexpectedEnd (count - part.length))
  else .ok (part, input.drop count)

/-- Reads a number of fixed width. -/
def readFixed (width : Nat) (input : Bytes) : Reading Nat :=
  match readBytes width input with
  | .ok (part, rest) => .ok (Bytes.toNumber part, rest)
  | .error cause => .error cause

/-- Reads a number of the expected kind. -/
def read (expected : IntegerKind) : Bytes → Reading Nat
  | [] => .error (.unexpectedEnd 1)
  | first :: rest =>
    let marker := first.toNat
    if marker < 251 then .ok (marker, rest)
    else if marker = 251 then readFixed 2 rest
    else if marker = 252 then readFixed 4 rest
    else if marker = 253 then
      -- Eight bytes may hold more than the narrowest kind; the other kinds are eight bytes wide.
      if expected = .u32 then .error (.wrongInteger expected .u64) else readFixed 8 rest
    -- No number has sixteen bytes, and the last marker has no meaning.
    else if marker = 254 then .error (.wrongInteger expected expected.sixteenBytes)
    else .error (.wrongInteger expected .reserved)

/-- Folds the integers onto the natural numbers: 0, -1, 1, -2, 2 and so on. -/
def zigzag (value : Int) : Nat :=
  -- Numbers near zero stay small whatever their sign.
  if 0 ≤ value then 2 * value.toNat else 2 * (-value).toNat - 1

/-- Unfolds a natural number into the integer it stands for. -/
def unzigzag (folded : Nat) : Int :=
  if folded % 2 = 0 then (folded / 2 : Nat) else -((folded / 2 + 1 : Nat) : Int)

end Varint

end HeapEngine
