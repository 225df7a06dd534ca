import HeapEngine.Database.Cache

/-!
Records in heaps: the first page with room takes a new record.

A page that was only looked at for room is released again unless it was held before.
-/

namespace HeapEngine.Database

/-- Stores a record on a page, locked for writing. -/
def insertAt (transaction : TransactionId) (id : PageId) (record : Record) :
    Op Database (CopyId × RecordId) := do
  let copy ← acquire transaction id .writing
  let place ← changeCopy copy fun page => page.insertRecord record
  return (copy, place)

/-- Stores a record on the first page with room among `left` pages from `number` on. -/
def insertFrom (heap : Heap) (transaction : TransactionId) (record : Record) (size : Nat) :
    (left number : Nat) → Op Database (Option (CopyId × RecordId))
  | 0, _ => return none
  | left + 1, number => do
    let id := heap.page number
    let heldBefore := (← get).locks.holds id transaction
    -- Looking needs a shared lock only, so a full page does not keep others waiting.
    let copy ← acquire transaction id .reading
    let page ← lookAt copy
    if ← page.fits size then return some (← insertAt transaction id record)
    else
      if !heldBefore then releaseEarly transaction id
      insertFrom heap transaction record size left (number + 1)

/-- Stores a record in a heap, on a new page if no page has room. -/
def insertInHeap (heap : Heap) (transaction : TransactionId) (record : Record) :
    Op Database (CopyId × RecordId) := do
  let size := record.encode.length
  let largest ← Page.largestCell ((← get).storage.pageSize heap.store)
  -- What fits no empty page must not make a new one.
  if largest < size then fail (.recordTooLarge size largest)
  else
    let count ← heapPageCount heap
    match ← insertFrom heap transaction record size count 0 with
    | some stored => return stored
    | none =>
      let number ← onStorage (Storage.append heap.store)
      insertAt transaction (heap.page number) record

/-- Deletes a record from the heap it is stored in, and gives the page it was on. -/
def deleteFromHeap (heap : Heap) (transaction : TransactionId) (record : Record) :
    Op Database CopyId :=
  match record.place with
  | none => fail (.misuse .unplaced)
  | some place =>
    if place.page.table ≠ heap.table then fail (.misuse (.inOtherTable place heap.table))
    else do
      let copy ← acquire transaction place.page .writing
      changeCopy copy fun page => return (← page.eraseRecord record, ())
      return copy

end HeapEngine.Database
