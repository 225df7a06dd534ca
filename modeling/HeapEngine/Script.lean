import HeapEngine.Pool

/-!
What a table of the caller's own does, step by step.

A script asks for pages and locks and changes copies of pages. It may mark a page as changed, but
marking it as written is up to the database.
-/

namespace HeapEngine

/-- What a page is wanted for. -/
inductive Access where
  | reading
  | writing
deriving DecidableEq

/-- Reading takes a shared lock and writing an exclusive one. -/
def Access.lockMode : Access → LockMode
  | reading => .shared
  | writing => .exclusive

/--
A change of what a page holds.

The page stays the one that it is, and whoever changed it before is still known to have done so.
-/
structure ContentChange where
  apply : Page → Page
  id_apply : ∀ page, (apply page).id = page.id
  changedBy_apply : ∀ page, (apply page).changedBy = page.changedBy

/-- Steps towards a result, each depending on the replies to those before. -/
inductive Script (α : Type) where
  /-- Ends with a result. -/
  | finish (result : α)
  /-- Ends without one. -/
  | stop (fault : Fault)
  /-- Asks for a page, locked as its use demands. -/
  | acquire (transaction : TransactionId) (page : PageId) (access : Access)
      (next : Except Failure CopyId → Script α)
  /-- Asks for a lock. -/
  | lock (transaction : TransactionId) (page : PageId) (mode : LockMode)
      (next : Except Refusal Unit → Script α)
  /-- Releases what a transaction holds on a page. -/
  | unlock (transaction : TransactionId) (page : PageId) (next : Bool → Script α)
  /-- Releases all that a transaction holds. -/
  | unlockAll (transaction : TransactionId) (next : List PageId → Script α)
  /-- Makes a copy of a page that is not resident. -/
  | newCopy (page : Page) (next : CopyId → Script α)
  /-- Looks into a copy. -/
  | look (copy : CopyId) (next : Option Page → Script α)
  /-- Changes the slots and the cells of a copy. -/
  | edit (copy : CopyId) (change : ContentChange) (next : Script α)
  /-- Marks a copy as changed by a transaction. -/
  | mark (copy : CopyId) (transaction : TransactionId) (next : Script α)
  /-- Tells the caller where its record is stored. -/
  | place (place : Option RecordId) (next : Script α)

end HeapEngine
