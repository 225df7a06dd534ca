import HeapEngine.Binary64.Decimal
import HeapEngine.Bytes

/-! JSON documents, with whole numbers apart from all others, and their compact text. -/

namespace HeapEngine

/-- A JSON document. -/
inductive Json where
  | null
  | bool (value : Bool)
  /-- A number written without point and exponent. -/
  | whole (value : Int)
  | real (value : Binary64)
  | string (content : String)
  | array (items : List Json)
  | object (members : List (String × Json))

namespace Json

/-- The value of a member of an object, the last of that name. -/
def member? (name : String) (members : List (String × Json)) : Option Json :=
  -- A later member of a name replaces an earlier one.
  (members.reverse.find? fun entry => entry.1 = name).map Prod.snd

/-- A character as it stands within the quotes of a string. -/
def stringChar (c : Char) : List Char :=
  -- The usual controls have letters, the others are spelled by their code.
  if c = '"' then ['\\', '"']
  else if c = '\\' then ['\\', '\\']
  else if c = '\n' then ['\\', 'n']
  else if c = '\r' then ['\\', 'r']
  else if c = '\t' then ['\\', 't']
  else if c.toNat = 8 then ['\\', 'b']
  else if c.toNat = 12 then ['\\', 'f']
  else if c.toNat < 32 then
    ['\\', 'u', '0', '0', Bytes.hexDigit (c.toNat / 16), Bytes.hexDigit (c.toNat % 16)]
  else [c]

/-- A string in quotes. -/
def renderString (content : String) : String :=
  String.ofList ('"' :: content.toList.flatMap stringChar ++ ['"'])

/-- How far to the right of its first digit the point of a number may be shown. -/
def lastPlace : Int := 16

/-- How far to the left of its first digit the point may be shown. -/
def firstPlace : Int := -5

/--
A decimal with a point, or with an exponent if the point would stand too far away.

A number with a point has a digit on both sides of it, and an exponent has its sign.
-/
def renderDecimal (value : Decimal) : String :=
  let digits := Nat.toDigits 10 value.digits
  let count : Int := digits.length
  let place := count + value.exponent
  -- A whole number ends in a zero after its point, so that it reads back as a real.
  if 0 ≤ value.exponent ∧ place ≤ lastPlace then
    String.ofList (digits ++ List.replicate value.exponent.toNat '0' ++ ['.', '0'])
  else if 0 < place ∧ place ≤ lastPlace then
    String.ofList (digits.take place.toNat ++ '.' :: digits.drop place.toNat)
  else if firstPlace < place ∧ place ≤ 0 then
    String.ofList ('0' :: '.' :: List.replicate (-place).toNat '0' ++ digits)
  else
    let fraction := if digits.length = 1 then [] else '.' :: digits.drop 1
    let sign := if 0 < place then "+" else ""
    String.ofList (digits.take 1 ++ fraction) ++ "e" ++ sign ++ s!"{place - 1}"

/-- A double with the fewest digits that read back, a half going to the even digit. -/
def renderReal (value : Binary64) : String :=
  -- What is no finite number has no form of its own.
  if value.isNaN || value.isInfinite then "null"
  else
    let sign := if value.isNegative then "-" else ""
    if value.magnitude = 0 then sign ++ "0.0"
    else sign ++ renderDecimal (value.shortest .toEven)

mutual

/-- The document without any white space. -/
def render : Json → String
  | null => "null"
  | bool value => if value then "true" else "false"
  | whole value => toString value
  | real value => renderReal value
  | string content => renderString content
  | array items => "[" ++ ",".intercalate (renderItems items) ++ "]"
  | object members => "\x7b" ++ ",".intercalate (renderMembers members) ++ "\x7d"

/-- The items of an array, each without white space. -/
def renderItems : List Json → List String
  | [] => []
  | item :: rest => render item :: renderItems rest

/-- The members of an object, each without white space. -/
def renderMembers : List (String × Json) → List String
  | [] => []
  | (name, value) :: rest => (renderString name ++ ":" ++ render value) :: renderMembers rest

end

end Json

end HeapEngine
