import HeapEngine.Database.Cache

/-!
Writing changed pages, taking changes back, and ending transactions.

Committing writes what a transaction changed, aborting reads it again. Both release its locks.
-/

namespace HeapEngine.Database

/-- Writes a page if it is in memory with changes, and says whether it did. -/
def writeBack (id : PageId) : Op Database Bool := do
  let db ← get
  match db.pool.page? id with
  | none => return false
  | some page =>
    if !page.isDirty then return false
    else
      let table ← tableAt id.table
      writeStored id.table table page
      -- The mark goes only after the page is written.
      onPool fun pool => ((), pool.editResident id Page.markWritten)
      return true

/-- Writes pages in turn, up to the first that fails. -/
def writeBackEach : List PageId → Op Database Unit
  | [] => pure ()
  | id :: rest => do
    let _ ← writeBack id
    writeBackEach rest

/-- Writes the pages that a transaction changed. -/
def writeBackOf (transaction : TransactionId) : Op Database Unit := do
  writeBackEach ((← get).pool.changedBy transaction)

/-- Writes pages in turn, and adds the tables of those that had changes to the ones `written`. -/
def writeBackNoting (written : List Nat) : List PageId → Op Database (List Nat)
  | [] => return written
  | id :: rest => do
    let wrote ← writeBack id
    -- Each table is listed once, where its first page was written.
    if wrote && !written.contains id.table then writeBackNoting (written ++ [id.table]) rest
    else writeBackNoting written rest

/-- Makes tables durable in turn. -/
def syncEach : List Nat → Op Database Unit
  | [] => pure ()
  | number :: rest => do
    let table ← tableAt number
    syncTable number table
    syncEach rest

/--
Writes all changed pages and makes their tables durable.

Changes of transactions that are not at their end are written too, and cannot be taken back then.
-/
def checkpoint : Op Database Unit := do
  let written ← writeBackNoting [] (← get).pool.frames.keys
  syncEach written

/-- Reads a page anew in the place of its resident copy; if that fails the copy is dropped. -/
def reload (id : PageId) : Op Database (Option Failure) := do
  match ← attempt (do readStored (← tableAt id.table) id) with
  | .ok page =>
    onPool fun pool => ((), pool.editResident id fun _ => page)
    return none
  | .error failure =>
    -- No page is better than one with changes that were taken back.
    onPool fun pool => ((), pool.drop id)
    return some failure

/-- Reads pages anew in turn, all of them, and gives the first failure. -/
def reloadEach : List PageId → Op Database (Option Failure)
  | [] => return none
  | id :: rest => do
    let first ← reload id
    let later ← reloadEach rest
    return first <|> later

/-- Takes back what a transaction changed. -/
def rollBack (transaction : TransactionId) : Op Database (Option Failure) := do
  reloadEach ((← get).pool.changedBy transaction)

/-- Releases all locks of a transaction. -/
def releaseLocks (transaction : TransactionId) : Op Database (List PageId) := fun db =>
  let (pages, locks) := db.locks.releaseAll transaction
  .ok pages { db with locks }

/-- How a transaction ends. -/
inductive Ending where
  | commit
  | abort
deriving DecidableEq

/-- Ends a transaction in one of the two ways. -/
def finish (transaction : TransactionId) : Ending → Op Database Unit
  | .commit => do
    -- If a page cannot be written the locks stay, so that the transaction can still be aborted.
    writeBackOf transaction
    let _ ← releaseLocks transaction
  | .abort => do
    -- Whatever cannot be read, the rest is taken back and the locks are released.
    let failure ← rollBack transaction
    let _ ← releaseLocks transaction
    match failure with
    | none => return ()
    | some failure => fail failure

/-- Commits a transaction, and aborts it if that fails. -/
def commit (transaction : TransactionId) : Op Database Unit := do
  match ← attempt (finish transaction .commit) with
  | .ok () => return ()
  | .error failure =>
    -- What the caller is told is why the commit failed, however the abort ends.
    let _ ← attempt (finish transaction .abort)
    fail failure

/-- Aborts a transaction. -/
def abort (transaction : TransactionId) : Op Database Unit := finish transaction .abort

end HeapEngine.Database
