import HeapEngine.Numbers

/-! Double-precision numbers as their 64 bits: classes, order, and rounding of whole numbers. -/

namespace HeapEngine

/-- A double-precision number, known by its bits: a sign, eleven of exponent, 52 of fraction. -/
structure Binary64 where
  bits : UInt64
deriving DecidableEq, Inhabited

namespace Binary64

/-- Whether the sign bit is set. -/
def isNegative (x : Binary64) : Bool := 2 ^ 63 ≤ x.bits.toNat

/-- The bits but the sign, as a number: it grows with the absolute value. -/
def magnitude (x : Binary64) : Nat := x.bits.toNat % 2 ^ 63

/-- The magnitude of the infinities; everything above is not a number. -/
def infiniteMagnitude : Nat := 2047 * 2 ^ 52

/-- Whether the bits stand for no number. -/
def isNaN (x : Binary64) : Bool := infiniteMagnitude < x.magnitude

/-- Whether the bits stand for one of the infinities. -/
def isInfinite (x : Binary64) : Bool := x.magnitude = infiniteMagnitude

/-- The number with a sign and a magnitude below `2 ^ 63`. -/
def ofMagnitude (negative : Bool) (magnitude : Nat) : Binary64 :=
  ⟨UInt64.ofNat (if negative then 2 ^ 63 + magnitude else magnitude)⟩

/-- A position on the line of numbers; both zeros stand at the same place. -/
def rank (x : Binary64) : Int :=
  -- Magnitudes are ordered as the numbers are.
  if x.isNegative then -(x.magnitude : Int) else x.magnitude

/-- Which of two whole numbers comes first. -/
def orderOfInts (a b : Int) : Ordering := if a < b then .lt else if b < a then .gt else .eq

/-- Which of two numbers comes first; what is not a number has no place. -/
def order? (a b : Binary64) : Option Ordering :=
  if a.isNaN || b.isNaN then none else some (orderOfInts a.rank b.rank)

/-- Numerical equality: the zeros are equal, and what is not a number equals nothing. -/
def equal (a b : Binary64) : Bool := a.order? b = some .eq

/--
The magnitude of a whole number, rounded to 53 significant bits.

A number half way between two neighbours goes to the one whose last bit is zero. Adding the
significant bits to the exponent's field lets a carry out of them raise the exponent.
-/
def magnitudeOfNat (value : Nat) : Nat :=
  if value = 0 then 0
  else
    let top := value.log2
    -- The leading bit is not stored, so it adds the last one of the exponent.
    if top ≤ 52 then (top + 1022) * 2 ^ 52 + value * 2 ^ (52 - top)
    else
      -- Only 53 bits are kept, counted from the top.
      let unit := 2 ^ (top - 52)
      let kept := value / unit
      let dropped := value % unit
      let up := unit < 2 * dropped ∨ (unit = 2 * dropped ∧ kept % 2 = 1)
      (top + 1022) * 2 ^ 52 + kept + (if up then 1 else 0)

/-- The double nearest to a whole number. -/
def ofInt (value : Int) : Binary64 := ofMagnitude (value < 0) (magnitudeOfNat value.natAbs)

/-- The factors of a finite number: it is the first times two to the second, sign apart. -/
def parts (x : Binary64) : Nat × Int :=
  let exponent : Nat := x.magnitude / 2 ^ 52
  let fraction : Nat := x.magnitude % 2 ^ 52
  -- The smallest numbers have no leading bit.
  if exponent = 0 then (fraction, -1074) else (2 ^ 52 + fraction, (exponent : Int) - 1075)

end Binary64

end HeapEngine
