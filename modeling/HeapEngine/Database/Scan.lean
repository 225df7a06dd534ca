import HeapEngine.Database.Cache

/-! Going through the records of a heap in the order of their places, one page at a time. -/

namespace HeapEngine

/-- How far a transaction has gone through a heap. -/
structure Scan where
  heap : Heap
  transaction : TransactionId
  /-- The page to read when there is nothing `pending`. -/
  page : Nat
  /-- The records of the page at hand that are still to be given. -/
  pending : List Record
  ended : Bool
deriving DecidableEq

namespace Scan

/-- Stands before the first record. -/
def start (heap : Heap) (transaction : TransactionId) : Scan := ⟨heap, transaction, 0, [], false⟩

/-- Goes back to before the first record. -/
def restart (scan : Scan) : Scan := start scan.heap scan.transaction

/-- What a scan gives: a record, the failure that ends it, or nothing any more. -/
inductive Item where
  | record (record : Record)
  | failure (failure : Failure)
  | done

/-- Reads the records of the page that comes next, under a shared lock. -/
def nextRecords (scan : Scan) : Op Database (List Record) := do
  let copy ← Database.acquire scan.transaction (scan.heap.page scan.page) .reading
  let page ← Database.lookAt copy
  page.records

/-- Goes on to the next record, over no more than `limit` pages. -/
def advance : (limit : Nat) → Scan → Op Database (Item × Scan)
  | limit, scan =>
    if scan.ended then return (.done, scan)
    else
      match scan.pending with
      | record :: rest => return (.record record, { scan with pending := rest })
      | [] =>
        match limit with
        | 0 => return (.done, { scan with ended := true })
        | limit + 1 => do
          match ← Database.attempt scan.nextRecords with
          -- A page may have no records at all, so the search goes on.
          | .ok records =>
            advance limit { scan with page := scan.page + 1, pending := records }
          | .error failure =>
            return (.failure failure, { scan with page := scan.page + 1, ended := true })

/-- Goes on to the next record. -/
def next (scan : Scan) : Op Database (Item × Scan) := do
  -- Pages that were appended since the last step are gone through as well.
  let count ← Database.heapPageCount scan.heap
  advance (count - scan.page) scan

/-- Goes on over so many items at most, or to the end, which is given too. -/
def take : (count : Nat) → Scan → Op Database (List Item × Scan)
  | 0, scan => return ([], scan)
  | count + 1, scan => do
    match ← scan.next with
    | (.done, scan) => return ([.done], scan)
    | (item, scan) =>
      let (items, scan) ← take count scan
      return (item :: items, scan)

end Scan

end HeapEngine
