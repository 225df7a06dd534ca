import HeapEngine.Binary64.Scaling
import HeapEngine.Json

/-! Reading JSON text. -/

namespace HeapEngine.Json

/-- The text from its first character on that is not white space. -/
def skipBlanks (chars : List Char) : List Char :=
  chars.dropWhile fun c => c = ' ' || c = '\t' || c = '\n' || c = '\r'

/-- The number four hexadecimal digits spell. -/
def codeUnit (a b c d : Char) : Nat :=
  ((Bytes.hexValue a * 16 + Bytes.hexValue b) * 16 + Bytes.hexValue c) * 16 + Bytes.hexValue d

/-- The character that a letter after a backslash stands for. -/
def escaped (c : Char) : Char :=
  match c with
  | 'n' => '\n'
  | 't' => '\t'
  | 'r' => '\r'
  | 'b' => Char.ofNat 8
  | 'f' => Char.ofNat 12
  | other => other

/-- Reads a string up to its closing quote, after the characters in `before`, last first. -/
def readString (before : List Char) : List Char → Option (String × List Char)
  | [] => none
  | '"' :: rest => some (String.ofList before.reverse, rest)
  | '\\' :: 'u' :: a :: b :: c :: d :: '\\' :: 'u' :: e :: f :: g :: h :: rest =>
    let high := codeUnit a b c d
    let low := codeUnit e f g h
    -- Two halves make one character; otherwise the second escape is read by itself.
    if 0xD800 ≤ high ∧ high < 0xDC00 then
      let code := 0x10000 + (high - 0xD800) * 0x400 + (low - 0xDC00)
      readString (Char.ofNat code :: before) rest
    else readString (Char.ofNat high :: before) ('\\' :: 'u' :: e :: f :: g :: h :: rest)
  | '\\' :: 'u' :: a :: b :: c :: d :: rest =>
    readString (Char.ofNat (codeUnit a b c d) :: before) rest
  | '\\' :: c :: rest => readString (escaped c :: before) rest
  | c :: rest => readString (c :: before) rest
termination_by chars => chars.length

/-- The digits at the front, and what follows them. -/
def splitDigits (chars : List Char) : List Char × List Char := chars.span Char.isDigit

/-- The number that decimal digits spell. -/
def digitsValue (digits : List Char) : Nat :=
  digits.foldl (fun value c => value * 10 + (c.toNat - 48)) 0

/-- Adds digits to a number as long as it stays a word of 64 bits, and tells how many. -/
def gather (value taken : Nat) : List Char → Nat × Nat
  | [] => (value, taken)
  | c :: rest =>
    let next := value * 10 + (c.toNat - 48)
    if next < 2 ^ 64 then gather next (taken + 1) rest else (value, taken)

/--
The number that digits before and after a point spell, scaled by a power of ten.

Of the digits on each side only as many count as fit a word of 64 bits. Those left out before the
point still count for its place.
-/
def realOf (negative : Bool) (whole fraction : List Char) (exponent : Int) : Binary64 :=
  let (value, kept) := gather 0 0 whole
  let (value, places) := gather value 0 fraction
  .ofScaled negative value (exponent + (whole.length - kept : Nat) - places)

/-- Reads an exponent if there is one. -/
def readExponent : List Char → Option Int × List Char
  | 'e' :: rest => signed rest
  | 'E' :: rest => signed rest
  | chars => (none, chars)
where
  /-- Reads digits with a sign or without one. -/
  signed : List Char → Option Int × List Char
    | '-' :: rest =>
      let (digits, rest) := splitDigits rest
      (some (-(digitsValue digits : Int)), rest)
    | '+' :: rest =>
      let (digits, rest) := splitDigits rest
      (some (digitsValue digits), rest)
    | rest =>
      let (digits, rest) := splitDigits rest
      (some (digitsValue digits), rest)

/-- Reads the digits after a point if there is one. -/
def readFraction : List Char → Option (List Char) × List Char
  | '.' :: rest =>
    let (digits, rest) := splitDigits rest
    (some digits, rest)
  | chars => (none, chars)

/--
Reads a number.

It is whole if it has neither point nor exponent and fits 64 bits, with a sign or without. Minus
zero is no whole number.
-/
def readNumber (chars : List Char) : Json × List Char :=
  let negative := chars.head? = some '-'
  let (wholeDigits, rest) := splitDigits (if negative then chars.drop 1 else chars)
  let (fraction, rest) := readFraction rest
  let (exponent, rest) := readExponent rest
  let digits := digitsValue wholeDigits
  let value : Int := if negative then -(digits : Int) else digits
  -- The sign of a zero would be lost in a whole number.
  let isWhole := fraction.isNone && exponent.isNone && !(negative && digits = 0)
    && -(2 ^ 63) ≤ value && value < 2 ^ 64
  if isWhole then (whole value, rest)
  else (real (realOf negative wholeDigits (fraction.getD []) (exponent.getD 0)), rest)

mutual

/-- Reads a document in so many steps at most. -/
def readValue : (steps : Nat) → List Char → Option (Json × List Char)
  | 0, _ => none
  | steps + 1, chars =>
    match skipBlanks chars with
    | '\x7b' :: rest =>
      match skipBlanks rest with
      | '\x7d' :: rest => some (object [], rest)
      | rest => readMembers steps [] rest
    | '[' :: rest =>
      match skipBlanks rest with
      | ']' :: rest => some (array [], rest)
      | rest => readItems steps [] rest
    | '"' :: rest =>
      match readString [] rest with
      | some (content, rest) => some (string content, rest)
      | none => none
    | 't' :: 'r' :: 'u' :: 'e' :: rest => some (bool true, rest)
    | 'f' :: 'a' :: 'l' :: 's' :: 'e' :: rest => some (bool false, rest)
    | 'n' :: 'u' :: 'l' :: 'l' :: rest => some (null, rest)
    | [] => none
    | c :: rest => if c = '-' || c.isDigit then some (readNumber (c :: rest)) else none

/-- Reads the items of an array that has one at least, after the ones in `before`, last first. -/
def readItems : (steps : Nat) → List Json → List Char → Option (Json × List Char)
  | 0, _, _ => none
  | steps + 1, before, chars =>
    match readValue steps chars with
    | none => none
    | some (item, rest) =>
      match skipBlanks rest with
      | ',' :: rest => readItems steps (item :: before) rest
      | ']' :: rest => some (array (item :: before).reverse, rest)
      | _ => none

/-- Reads the members of an object that has one at least, after the ones in `before`, last first. -/
def readMembers : (steps : Nat) → List (String × Json) → List Char → Option (Json × List Char)
  | 0, _, _ => none
  | steps + 1, before, chars =>
    match skipBlanks chars with
    | '"' :: rest =>
      match readString [] rest with
      | none => none
      | some (name, rest) =>
        match skipBlanks rest with
        | ':' :: rest =>
          match readValue steps rest with
          | none => none
          | some (value, rest) =>
            match skipBlanks rest with
            | ',' :: rest => readMembers steps ((name, value) :: before) rest
            | '\x7d' :: rest => some (object ((name, value) :: before).reverse, rest)
            | _ => none
        | _ => none
    | _ => none

end

/-- The document at the front of a text. -/
def read? (text : String) : Option Json :=
  let chars := text.toList
  -- Every step but the last takes a character off, or turns to a part of the document.
  (readValue (2 * chars.length + 2) chars).map Prod.fst

end HeapEngine.Json
