import HeapEngine.Bytes

/-! UTF-8: texts as bytes, and bytes read back as text up to the first place that is none. -/

namespace HeapEngine.Text

/-- The bytes of one character. -/
def encodeChar (c : Char) : Bytes :=
  -- The first byte tells how many follow, each of which carries six bits.
  let code := c.toNat
  if code < 0x80 then [UInt8.ofNat code]
  else if code < 0x800 then [UInt8.ofNat (0xC0 + code / 64), UInt8.ofNat (0x80 + code % 64)]
  else if code < 0x10000 then
    [UInt8.ofNat (0xE0 + code / 4096), UInt8.ofNat (0x80 + code / 64 % 64),
      UInt8.ofNat (0x80 + code % 64)]
  else
    [UInt8.ofNat (0xF0 + code / 262144), UInt8.ofNat (0x80 + code / 4096 % 64),
      UInt8.ofNat (0x80 + code / 64 % 64), UInt8.ofNat (0x80 + code % 64)]

/-- The bytes of a text. -/
def encode (text : String) : Bytes := text.toList.flatMap encodeChar

/--
Where bytes stop being text.

The first `validUpTo` bytes are whole characters. What follows them either opens with `length`
bytes that begin no character, or ends within a character.
-/
structure Malformed where
  validUpTo : Nat
  length : Option Nat
deriving DecidableEq

/-- How many bytes the first byte of a longer character asks for after itself. -/
inductive Width where
  | two
  | three
  | four
deriving DecidableEq

/-- The width a first byte from 0x80 on announces, with the range of the byte after it. -/
def announced (first : Nat) : Option (Width × Nat × Nat) :=
  -- The ranges leave out longer forms than needed, surrogates, and codes above 0x10FFFF.
  if first < 0xC2 then none
  else if first < 0xE0 then some (.two, 0x80, 0xBF)
  else if first = 0xE0 then some (.three, 0xA0, 0xBF)
  else if first = 0xED then some (.three, 0x80, 0x9F)
  else if first < 0xF0 then some (.three, 0x80, 0xBF)
  else if first = 0xF0 then some (.four, 0x90, 0xBF)
  else if first < 0xF4 then some (.four, 0x80, 0xBF)
  else if first = 0xF4 then some (.four, 0x80, 0x8F)
  else none

/-- A byte that may stand inside a character. -/
def isInner (byte : UInt8) : Bool := 0x80 ≤ byte.toNat && byte.toNat ≤ 0xBF

/-- The six bits a byte inside a character carries. -/
def innerBits (byte : UInt8) : Nat := byte.toNat - 0x80

/-- Reads to the end, after `before` bytes that gave the characters `read`, last first. -/
def decodeFrom (before : Nat) (read : List Char) : Bytes → Except Malformed (List Char)
  | [] => .ok read.reverse
  | a :: rest =>
    if a.toNat < 0x80 then decodeFrom (before + 1) (Char.ofNat a.toNat :: read) rest
    else
      match announced a.toNat with
      | none => .error ⟨before, some 1⟩
      | some (width, low, high) =>
        match rest with
        | [] => .error ⟨before, none⟩
        | b :: rest =>
          if ¬ (low ≤ b.toNat ∧ b.toNat ≤ high) then .error ⟨before, some 1⟩
          else
            match width with
            | .two =>
              decodeFrom (before + 2)
                (Char.ofNat ((a.toNat - 0xC0) * 64 + innerBits b) :: read) rest
            | .three =>
              match rest with
              | [] => .error ⟨before, none⟩
              | c :: rest =>
                if ¬ isInner c then .error ⟨before, some 2⟩
                else
                  decodeFrom (before + 3)
                    (Char.ofNat ((a.toNat - 0xE0) * 4096 + innerBits b * 64 + innerBits c) :: read)
                    rest
            | .four =>
              match rest with
              | [] => .error ⟨before, none⟩
              | c :: rest =>
                if ¬ isInner c then .error ⟨before, some 2⟩
                else
                  match rest with
                  | [] => .error ⟨before, none⟩
                  | d :: rest =>
                    if ¬ isInner d then .error ⟨before, some 3⟩
                    else
                      decodeFrom (before + 4)
                        (Char.ofNat ((a.toNat - 0xF0) * 262144 + innerBits b * 4096
                          + innerBits c * 64 + innerBits d) :: read)
                        rest

/-- The text that bytes spell, or the place where they stop being text. -/
def decode (input : Bytes) : Except Malformed String :=
  (decodeFrom 0 [] input).map String.ofList

end HeapEngine.Text
