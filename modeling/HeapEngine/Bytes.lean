import HeapEngine.Numbers

/-! Byte strings: little-endian numbers, windows of a buffer, hexadecimal text and byte order. -/

namespace HeapEngine

/-- A byte string. -/
abbrev Bytes := List UInt8

namespace Bytes

/-- As many zero bytes as asked for. -/
def zeros (count : Nat) : Bytes := List.replicate count 0

/-- The low `width` bytes of a number, least significant first. -/
def ofNumber : (width value : Nat) → Bytes
  | 0, _ => []
  -- The lowest byte leads, and what is left of the number fills the bytes after it.
  | width + 1, value => UInt8.ofNat value :: ofNumber width (value / 256)

/-- The number a byte string spells, least significant byte first. -/
def toNumber : Bytes → Nat
  | [] => 0
  | byte :: rest => byte.toNat + 256 * toNumber rest

/-- The `length` bytes from `start` on, or fewer where the buffer ends earlier. -/
def window (start length : Nat) (buffer : Bytes) : Bytes := (buffer.drop start).take length

/-- The buffer with `part` written over it from `start` on. -/
def overwrite (buffer : Bytes) (start : Nat) (part : Bytes) : Bytes :=
  -- A part that reaches past the end makes the buffer longer.
  buffer.take start ++ part ++ buffer.drop (start + part.length)

/-- Byte order: the first differing byte decides, and a proper beginning comes first. -/
def order : Bytes → Bytes → Ordering
  | [], [] => .eq
  | [], _ :: _ => .lt
  | _ :: _, [] => .gt
  | a :: as, b :: bs => if a < b then .lt else if b < a then .gt else order as bs

/-- The lower-case hexadecimal digit of a number below sixteen. -/
def hexDigit (value : Nat) : Char :=
  if value < 10 then Char.ofNat (48 + value) else Char.ofNat (87 + value)

/-- Two hexadecimal digits for every byte. -/
def hex (bytes : Bytes) : String :=
  String.ofList
    (bytes.flatMap fun byte => [hexDigit (byte.toNat / 16), hexDigit (byte.toNat % 16)])

/-- The value of a hexadecimal digit. -/
def hexValue (c : Char) : Nat :=
  -- Digits come first, then upper-case letters, then lower-case ones.
  if c.toNat < 58 then c.toNat - 48 else if c.toNat < 71 then c.toNat - 55 else c.toNat - 87

/-- The bytes that pairs of hexadecimal digits spell, after the ones in `before`, last first. -/
def ofHexFrom (before : Bytes) : List Char → Bytes
  | high :: low :: rest =>
    ofHexFrom (UInt8.ofNat (hexValue high * 16 + hexValue low) :: before) rest
  -- A digit without a partner spells nothing.
  | _ => before.reverse

/-- The bytes that pairs of hexadecimal digits spell. -/
def ofHex (text : String) : Bytes := ofHexFrom [] text.toList

end Bytes

end HeapEngine
