import HeapEngine.Binary64.Decimal

/-! Products and quotients of doubles, and doubles scaled by powers of ten. -/

namespace HeapEngine.Binary64

/-- The product of two finite numbers, rounded to the nearest double. -/
def times (a b : Binary64) : Binary64 :=
  let (twos, half) := scaled 2 (a.parts.2 + b.parts.2)
  ofMagnitude (a.isNegative != b.isNegative)
    (magnitudeOfQuotient (a.parts.1 * b.parts.1 * twos) half)

/-- The quotient of a finite number and one other than zero, rounded to the nearest double. -/
def dividedBy (a b : Binary64) : Binary64 :=
  let (twos, half) := scaled 2 (a.parts.2 - b.parts.2)
  ofMagnitude (a.isNegative != b.isNegative)
    (magnitudeOfQuotient (a.parts.1 * twos) (b.parts.1 * half))

/-- The exponent of the largest power of ten that is a double. -/
def lastPower : Int := 308

/-- The double nearest to a power of ten. -/
def powerOfTen (exponent : Int) : Binary64 := ofDecimal false ⟨1, exponent⟩

/--
A whole number scaled by a power of ten, step by step in doubles.

Each step is rounded by itself, so the result may lie beside the double nearest to the true value.
-/
def ofScaled (negative : Bool) (value : Nat) (exponent : Int) : Binary64 :=
  let x := ofMagnitude negative (magnitudeOfNat value)
  if value = 0 then x
  else if lastPower < exponent then ofMagnitude negative infiniteMagnitude
  else if 0 ≤ exponent then x.times (powerOfTen exponent)
  else if -lastPower ≤ exponent then x.dividedBy (powerOfTen (-exponent))
  -- Two divisions by the largest power leave nothing of a word of 64 bits.
  else if exponent < -2 * lastPower then ofMagnitude negative 0
  else (x.dividedBy (powerOfTen lastPower)).dividedBy (powerOfTen (-exponent - lastPower))

end HeapEngine.Binary64
