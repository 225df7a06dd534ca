import HeapEngine.Binary64
import HeapEngine.Text.Utf8

/-! The values a record is made of, their equality and their order. -/

namespace HeapEngine

/-- What kind a value is of. -/
inductive ValueKind where
  | null
  | integer
  | real
  | text
  | blob
deriving DecidableEq

/-- One field of a record. -/
inductive Value where
  | null
  | integer (number : Int64)
  | real (number : Binary64)
  | text (content : String)
  | blob (content : Bytes)
deriving DecidableEq, Inhabited

namespace Value

/-- The kind of a value. -/
def kind : Value → ValueKind
  | null => .null
  | integer _ => .integer
  | real _ => .real
  | text _ => .text
  | blob _ => .blob

/-- Whether the value is missing. -/
def isNull : Value → Bool
  | null => true
  | _ => false

/-- The number of an integer. -/
def integer? : Value → Option Int64
  | integer number => some number
  | _ => none

/-- The content of a text. -/
def text? : Value → Option String
  | text content => some content
  | _ => none

/--
Equality of values of one kind.

Reals are equal as numbers, so what is not a number differs from itself and both zeros agree.
Values of two kinds are never equal.
-/
def equal : Value → Value → Bool
  | null, null => true
  | integer a, integer b => a = b
  | real a, real b => a.equal b
  | text a, text b => a = b
  | blob a, blob b => a = b
  | _, _ => false

/-- The double that stands for an integer when it meets a real. -/
def realOfInteger (number : Int64) : Binary64 := .ofInt number.toInt

/--
Which of two values comes first, if they can be compared.

Null comes before all else. Integers and reals are compared as numbers, texts and blobs byte by
byte, and no other two kinds have an order.
-/
def order? : Value → Value → Option Ordering
  | null, null => some .eq
  | null, _ => some .lt
  | _, null => some .gt
  | integer a, integer b => some (Binary64.orderOfInts a.toInt b.toInt)
  -- A large integer meets a real as the double nearest to it.
  | integer a, real b => (realOfInteger a).order? b
  | real a, integer b => a.order? (realOfInteger b)
  | real a, real b => a.order? b
  | text a, text b => some (Bytes.order (Text.encode a) (Text.encode b))
  | blob a, blob b => some (Bytes.order a b)
  | _, _ => none

/-- Whether a value comes before another. -/
def less (a b : Value) : Bool := a.order? b = some .lt

/-- Whether a value comes before another or at the same place. -/
def lessOrEqual (a b : Value) : Bool := a.order? b = some .lt || a.order? b = some .eq

/-- Whether a value comes after another. -/
def greater (a b : Value) : Bool := a.order? b = some .gt

/-- Whether a value comes after another or at the same place. -/
def greaterOrEqual (a b : Value) : Bool := a.order? b = some .gt || a.order? b = some .eq

end Value

end HeapEngine
