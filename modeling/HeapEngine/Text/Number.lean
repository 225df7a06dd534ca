import HeapEngine.Numbers

/-! Whole numbers written in a text that may have white space around them. -/

namespace HeapEngine.Text

/-- White space: tabs, line ends, and the spaces of all scripts. -/
def isBlank (c : Char) : Bool :=
  let code := c.toNat
  (9 ≤ code && code ≤ 13) || code = 0x20 || code = 0x85 || code = 0xA0 || code = 0x1680
    || (0x2000 ≤ code && code ≤ 0x200A) || code = 0x2028 || code = 0x2029 || code = 0x202F
    || code = 0x205F || code = 0x3000

/-- The characters without the white space before and after them. -/
def trim (chars : List Char) : List Char :=
  ((chars.dropWhile isBlank).reverse.dropWhile isBlank).reverse

/-- The value of a decimal digit. -/
def digit? (c : Char) : Option Nat :=
  if 48 ≤ c.toNat ∧ c.toNat ≤ 57 then some (c.toNat - 48) else none

/-- The number that decimal digits spell after the ones that gave `value`. -/
def digitsFrom (value : Nat) : List Char → Option Nat
  | [] => some value
  | c :: rest =>
    match digit? c with
    | some digit => digitsFrom (value * 10 + digit) rest
    | none => none

/-- The number that one or more decimal digits spell, after a plus sign or without one. -/
def unsigned? : List Char → Option Nat
  -- A sign alone is no number.
  | [] => none
  | '+' :: [] => none
  | '+' :: digits => digitsFrom 0 digits
  | digits => digitsFrom 0 digits

/-- The number below `2 ^ 64` that a text spells between white space. -/
def word64? (text : String) : Option Nat :=
  match unsigned? (trim text.toList) with
  | some value => if value < 2 ^ 64 then some value else none
  | none => none

end HeapEngine.Text
