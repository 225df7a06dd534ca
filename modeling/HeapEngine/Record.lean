import HeapEngine.Identifier
import HeapEngine.Value

/-! Records: a list of values, with the place where they are stored once they are. -/

namespace HeapEngine

/-- A record as the storage format sees it. -/
structure Record where
  /-- Where the record is stored, if it is. -/
  place : Option RecordId
  values : List Value
deriving DecidableEq, Inhabited

namespace Record

/-- A record that is stored nowhere yet. -/
def ofValues (values : List Value) : Record := ⟨none, values⟩

/-- The value of a column, if there are so many. -/
def value? (record : Record) (column : Nat) : Option Value := record.values[column]?

/-- Whether two records hold equal values in the same order, wherever they are stored. -/
def sameValues (a b : Record) : Bool :=
  a.values.length = b.values.length && (a.values.zip b.values).all fun pair => pair.1.equal pair.2

end Record

end HeapEngine
