import HeapEngine.Table

/-!
The registered tables, by number and by name.

Numbers are given out in turn and say nothing about names or files, so no two tables share one.
-/

namespace HeapEngine

/-- The registered tables, the number each name stands for, and the number to give out next. -/
structure Catalog where
  pageSize : Nat
  tables : SortedMap Nat Table
  numbers : SortedMap String Nat
  nextNumber : Nat

namespace Catalog

/-- Table numbers are words of 32 bits, after the last of which the first comes again. -/
def numberLimit : Nat := 2 ^ 32

/-- No table is registered. -/
def empty (pageSize : Nat) : Catalog := ⟨pageSize, .empty, .empty, 1⟩

/-- Lets a name stand for a table, in place of the one it stood for. -/
def bind (catalog : Catalog) (name : String) (number : Nat) (table : Table) : Catalog :=
  let others :=
    match catalog.numbers.find? name with
    -- A table without a name cannot be found any more, not even by its number.
    | some old => catalog.tables.erase old
    | none => catalog.tables
  { catalog with
    tables := others.insert number table
    numbers := catalog.numbers.insert name number }

/-- Registers the table that is made for the next number. -/
def register (catalog : Catalog) (name : String) (build : Nat → Table) : Nat × Catalog :=
  let number := catalog.nextNumber
  let next := { catalog with nextNumber := (number + 1) % numberLimit }
  (number, next.bind name number (build number))

/-- Registers a heap over a store whose pages have the size of the catalog's. -/
def registerHeap (catalog : Catalog) (name : String) (store : StoreId) (storePageSize : Nat) :
    Except Failure (Heap × Catalog) :=
  if storePageSize ≠ catalog.pageSize then
    .error (.badSettings (.tablePageSize name storePageSize catalog.pageSize))
  else
    let (number, next) := catalog.register name fun number => .heap ⟨number, store⟩
    .ok (⟨number, store⟩, next)

/-- The table of a number. -/
def find (catalog : Catalog) (number : Nat) : Except Failure Table :=
  match catalog.tables.find? number with
  | some table => .ok table
  | none => .error (.noTable number)

/-- The number a name stands for. -/
def number? (catalog : Catalog) (name : String) : Option Nat := catalog.numbers.find? name

/-- All names, ascending. -/
def names (catalog : Catalog) : List String := catalog.numbers.keys

end Catalog

end HeapEngine
