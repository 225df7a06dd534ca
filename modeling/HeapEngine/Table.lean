import HeapEngine.Script
import HeapEngine.Storage

/-! Tables: heaps over a page store, and tables of the caller's own. -/

namespace HeapEngine

/-- A request that a table of the caller's own has received. -/
inductive TableCall where
  | read (page : PageId)
  | write (page : Page)
  | sync
  | insert (transaction : TransactionId) (record : Record)
  | delete (transaction : TransactionId) (record : Record)
deriving DecidableEq

/--
A table of the caller's own.

What it does may depend on the requests that it received before, given the last first.
-/
structure TableFormat where
  pageSize : Nat
  pageCount : List TableCall → Except Failure Nat
  read : List TableCall → PageId → Except Failure Page
  /-- What is read is the page that was asked for. -/
  id_read : ∀ {before id page}, read before id = .ok page → page.id = id
  write : List TableCall → Page → Except Failure Unit
  sync : List TableCall → Except Failure Unit
  /-- Stores a record and gives the pages it changed. -/
  insert : List TableCall → TransactionId → Record → Script (List CopyId)
  /-- Deletes a record and gives the page it changed. -/
  delete : List TableCall → TransactionId → Record → Script CopyId

/-- A heap: records in no particular order on the pages of one store. -/
structure Heap where
  /-- The number of the table. -/
  table : Nat
  store : StoreId
deriving DecidableEq, Inhabited

/-- A page of the heap. -/
def Heap.page (heap : Heap) (number : Nat) : PageId := ⟨heap.table, number⟩

/-- A registered table. -/
inductive Table where
  | heap (heap : Heap)
  | custom (format : TableFormat)

end HeapEngine
