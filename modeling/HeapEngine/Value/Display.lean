import HeapEngine.Binary64.Decimal
import HeapEngine.Value

/-! Values as text. -/

namespace HeapEngine

/-- A decimal number written out by its digits alone, without an exponent. -/
def Decimal.positional (value : Decimal) : String :=
  let digits := Nat.toDigits 10 value.digits
  if 0 ≤ value.exponent then
    String.ofList (digits ++ List.replicate value.exponent.toNat '0')
  else
    let places := (-value.exponent).toNat
    if places < digits.length then
      let whole := digits.length - places
      String.ofList (digits.take whole ++ '.' :: digits.drop whole)
    else String.ofList ('0' :: '.' :: List.replicate (places - digits.length) '0' ++ digits)

/--
A double in positional notation with the fewest digits that read back.

A half goes up, whole numbers have no point, and the sign of zero is shown.
-/
def Binary64.text (x : Binary64) : String :=
  if x.isNaN then "NaN"
  else
    let sign := if x.isNegative then "-" else ""
    if x.isInfinite then sign ++ "inf"
    else if x.magnitude = 0 then sign ++ "0"
    else sign ++ (x.shortest .up).positional

/-- A value as a literal: texts in single quotes as they are, blobs in hexadecimal. -/
def Value.display : Value → String
  | .null => "NULL"
  | .integer number => toString number.toInt
  | .real number => number.text
  | .text content => "'" ++ content ++ "'"
  | .blob content => "x'" ++ Bytes.hex content ++ "'"

end HeapEngine
