import HeapEngine.Numbers

/-! Spans of time, to the nanosecond, and their text. -/

namespace HeapEngine

/-- A span of time, of any length. -/
structure Duration where
  nanoseconds : Nat
deriving DecidableEq, Inhabited

namespace Duration

/-- No time at all. -/
def zero : Duration := ⟨0⟩

/-- So many milliseconds. -/
def ofMilliseconds (count : Nat) : Duration := ⟨count * 1000000⟩

/-- Seconds and nanoseconds, if the whole seconds of both are a word of 64 bits. -/
def ofParts? (seconds nanoseconds : Nat) : Option Duration :=
  if seconds + nanoseconds / 1000000000 < 2 ^ 64 then
    some ⟨seconds * 1000000000 + nanoseconds⟩
  else none

/-- The whole seconds. -/
def seconds (span : Duration) : Nat := span.nanoseconds / 1000000000

/-- What is left after the whole seconds. -/
def subsecond (span : Duration) : Nat := span.nanoseconds % 1000000000

/-- The digits of a fraction below `10 ^ places`, without zeros at the end. -/
def fractionDigits (places fraction : Nat) : String :=
  -- A one in front keeps the zeros at the beginning.
  let digits := (Nat.toDigits 10 (10 ^ places + fraction)).drop 1
  String.ofList ((digits.reverse.dropWhile (· = '0')).reverse)

/-- A number of units and a fraction of `10 ^ places` parts, which is shown only if there is one. -/
def decimal (units places fraction : Nat) : String :=
  if fraction = 0 then s!"{units}" else s!"{units}." ++ fractionDigits places fraction

/--
The span in the largest of the units s, ms, µs and ns of which it holds at least one.

All its digits are shown, none is rounded away.
-/
def text (span : Duration) : String :=
  let nanoseconds := span.nanoseconds
  if 1000000000 ≤ nanoseconds then
    decimal (nanoseconds / 1000000000) 9 (nanoseconds % 1000000000) ++ "s"
  else if 1000000 ≤ nanoseconds then
    decimal (nanoseconds / 1000000) 6 (nanoseconds % 1000000) ++ "ms"
  else if 1000 ≤ nanoseconds then
    decimal (nanoseconds / 1000) 3 (nanoseconds % 1000) ++ "µs"
  else s!"{nanoseconds}ns"

end Duration

end HeapEngine
