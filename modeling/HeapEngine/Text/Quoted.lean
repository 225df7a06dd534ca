import HeapEngine.Text.Unprintable

/-! Text in double quotes, with what cannot be shown spelled out. -/

namespace HeapEngine.Text

/-- A character's code in lower-case hexadecimal, between braces. -/
def spelledCode (c : Char) : List Char := ['\\', 'u', '\x7b'] ++ Nat.toDigits 16 c.toNat ++ ['\x7d']

/-- A character as it stands within double quotes. -/
def quotedChar (c : Char) : List Char :=
  if c = '\x00' then ['\\', '0']
  else if c = '\t' then ['\\', 't']
  else if c = '\r' then ['\\', 'r']
  else if c = '\n' then ['\\', 'n']
  else if c = '"' then ['\\', '"']
  else if c = '\\' then ['\\', '\\']
  -- Single quotes and all that can be shown stand as they are.
  else if isUnprintable c then spelledCode c
  else [c]

/-- The text within double quotes. -/
def quoted (text : String) : String :=
  String.ofList ('"' :: text.toList.flatMap quotedChar ++ ['"'])

end HeapEngine.Text
