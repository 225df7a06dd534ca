import HeapEngine.Database.Heap
import HeapEngine.Database.Script

/-!
Inserting and deleting records, whatever kind of table they are in.

A table says which pages it changed. Marking them as changed by the transaction is done here.
-/

namespace HeapEngine.Database

/-- Stores a record in a table: the pages that changed, and the record with the place it has now. -/
def insertInTable (number : Nat) (table : Table) (transaction : TransactionId) (record : Record) :
    Op Database (Except Failure (List CopyId) × Record) :=
  match table with
  | .heap heap => do
    match ← attempt (insertInHeap heap transaction record) with
    | .ok (copy, place) => return (.ok [copy], { record with place := some place })
    | .error failure => return (.error failure, record)
  | .custom format => do
    let before ← note number (.insert transaction record)
    let (result, place) ← runScript record.place (format.insert before transaction record)
    return (result, { record with place })

/-- Deletes a record from a table, and gives the page that changed. -/
def deleteFromTable (number : Nat) (table : Table) (transaction : TransactionId)
    (record : Record) : Op Database CopyId :=
  match table with
  | .heap heap => deleteFromHeap heap transaction record
  | .custom format => do
    let before ← note number (.delete transaction record)
    let (result, _) ← runScript record.place (format.delete before transaction record)
    ofResult result

/--
Stores a record in a table for a transaction.

The record comes back with its place, which it keeps also if marking the changed pages fails.
-/
def insert (transaction : TransactionId) (number : Nat) (record : Record) :
    Op Database (Except Failure Unit × Record) := do
  match (← get).catalog.find number with
  | .error failure => return (.error failure, record)
  | .ok table =>
    let (result, stored) ← insertInTable number table transaction record
    match result with
    | .error failure => return (.error failure, stored)
    | .ok changed => return (← attempt (adoptAll transaction changed), stored)

/-- Deletes a record from the table it is stored in for a transaction. -/
def delete (transaction : TransactionId) (record : Record) : Op Database Unit :=
  match record.place with
  | none => fail (.misuse .unplaced)
  | some place => do
    let table ← tableAt place.page.table
    let changed ← deleteFromTable place.page.table table transaction record
    adoptAll transaction [changed]

end HeapEngine.Database
