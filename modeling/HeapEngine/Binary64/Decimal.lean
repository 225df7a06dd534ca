import HeapEngine.Binary64

/-! Doubles and decimals: the fewest digits that read back, and the double nearest to digits. -/

namespace HeapEngine

/-- The number `digits * 10 ^ exponent`. -/
structure Decimal where
  digits : Nat
  exponent : Int
deriving DecidableEq

/-- Where a number goes that lies half way between two candidates. -/
inductive Tie where
  /-- To the larger one. -/
  | up
  /-- To the one whose last digit is even. -/
  | toEven
deriving DecidableEq

namespace Decimal

/-- How many decimal digits a number has. -/
def places (value : Nat) : Nat := (Nat.toDigits 10 value).length

/-- Takes zeros off the end of the digits, at most `limit` of them. -/
def trim : (limit : Nat) → Decimal → Decimal
  | 0, value => value
  | limit + 1, value =>
    if value.digits % 10 = 0 ∧ value.digits ≠ 0 then
      trim limit ⟨value.digits / 10, value.exponent + 1⟩
    else value

end Decimal

namespace Binary64

/-- A power, below and above the line of a fraction. -/
def scaled (base : Nat) (exponent : Int) : Nat × Nat :=
  if 0 ≤ exponent then (base ^ exponent.toNat, 1) else (1, base ^ (-exponent).toNat)

/--
The reals that round to a finite number, in quarters of its last place.

The answer is the number itself, the two ends, and whether the ends belong to it. Below a power of
two the next number is only half as far away.
-/
def interval (x : Binary64) : Nat × Nat × Nat × Bool :=
  -- Half the distance to the next number is two quarters, or one just below a power of two.
  let mantissa := x.parts.1
  let below := if mantissa = 2 ^ 52 ∧ 2 * 2 ^ 52 ≤ x.magnitude then 1 else 2
  (4 * mantissa, 4 * mantissa - below, 4 * mantissa + 2, mantissa % 2 = 0)

/-- Whether a decimal lies in the interval of the reals that round to a number. -/
def roundsTo (x : Binary64) (candidate : Decimal) : Bool :=
  let (_, low, high, closed) := x.interval
  let (twos, half) := scaled 2 (x.parts.2 - 2)
  let (tens, tenth) := scaled 10 candidate.exponent
  let point := candidate.digits * tens * half
  let least := low * twos * tenth
  let most := high * twos * tenth
  if closed then least ≤ point && point ≤ most else least < point && point < most

/-- The nearest decimal of a grid, and its neighbour on the other side, nearest first. -/
def neighbours (x : Binary64) (tie : Tie) (exponent : Int) : Decimal × Decimal :=
  let (twos, half) := scaled 2 x.parts.2
  let (tens, tenth) := scaled 10 exponent
  let numerator := x.parts.1 * twos * tenth
  let denominator := half * tens
  let lower := numerator / denominator
  let rest := numerator % denominator
  -- The nearer of the two comes first.
  let up :=
    denominator < 2 * rest
      || (denominator = 2 * rest && (tie = .up || lower % 2 = 1))
  if up then (⟨lower + 1, exponent⟩, ⟨lower, exponent⟩)
  else (⟨lower, exponent⟩, ⟨lower + 1, exponent⟩)

/-- The number of digits before the point, or minus the number of zeros after it. -/
def pointPlace (x : Binary64) : Int :=
  -- Shifting by 400 places makes the smallest number a whole one with digits to count.
  let (twos, half) := scaled 2 x.parts.2
  (Decimal.places (x.parts.1 * twos * 10 ^ 400 / half) : Int) - 400

/-- Tries grids of `have` digits and more, `left` of them before giving the nearest of the last. -/
def shortestFrom (x : Binary64) (tie : Tie) (place : Int) : (digits left : Nat) → Decimal
  | digits, 0 => (x.neighbours tie (place - digits)).1
  | digits, left + 1 =>
    let (near, far) := x.neighbours tie (place - digits)
    if x.roundsTo near then near
    else if x.roundsTo far then far
    else shortestFrom x tie place (digits + 1) left

/--
The decimal with the fewest digits that rounds to a finite number other than zero.

Of several it is the one nearest to the number. Seventeen digits always suffice.
-/
def shortest (x : Binary64) (tie : Tie) : Decimal :=
  (shortestFrom x tie x.pointPlace 1 16).trim 17

/-- A quotient rounded to a whole number, a half going to the even neighbour. -/
def roundedQuotient (numerator denominator : Nat) : Nat :=
  let lower := numerator / denominator
  let rest := numerator % denominator
  if denominator < 2 * rest ∨ (denominator = 2 * rest ∧ lower % 2 = 1) then lower + 1 else lower

/--
The magnitude nearest to a quotient.

The unit of the last place is chosen first: 53 bits below the top of the quotient, but no lower
than that of the smallest numbers.
-/
def magnitudeOfQuotient (numerator denominator : Nat) : Nat :=
  if numerator = 0 then 0
  else
    let estimate : Int := (numerator.log2 : Int) - denominator.log2
    let (twos, half) := scaled 2 estimate
    let top := if numerator * half < denominator * twos then estimate - 1 else estimate
    let unit := if top - 52 < -1074 then -1074 else top - 52
    let (units, parts) := scaled 2 unit
    let magnitude :=
      (unit + 1074).toNat * 2 ^ 52 + roundedQuotient (numerator * parts) (denominator * units)
    if infiniteMagnitude < magnitude then infiniteMagnitude else magnitude

/-- The double nearest to a decimal number. -/
def ofDecimal (negative : Bool) (value : Decimal) : Binary64 :=
  -- Far below the smallest number and far above the largest, no power has to be computed.
  if value.digits = 0 ∨ value.exponent + Decimal.places value.digits < -400 then
    ofMagnitude negative 0
  else if 400 < value.exponent then ofMagnitude negative infiniteMagnitude
  else
    let (tens, tenth) := scaled 10 value.exponent
    ofMagnitude negative (magnitudeOfQuotient (value.digits * tens) tenth)

end Binary64

end HeapEngine
