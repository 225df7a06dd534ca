import HeapEngine.Database.Cache

/-! Running the scripts of tables of the caller's own. -/

namespace HeapEngine.Database

/-- Asks for a lock, with a refusal as an answer. -/
def tryLock (transaction : TransactionId) (id : PageId) (mode : LockMode) :
    Op Database (Except Refusal Unit) := fun db =>
  match db.locks.request id transaction mode db.settings.patience with
  | .ok locks => .ok (.ok ()) { db with locks }
  | .error refusal => .ok (.error refusal) db

/--
Runs a script to its end.

With its result comes the place of the record, as it was before or as the script last told it.
-/
def runScript {α : Type} (place : Option RecordId) :
    Script α → Op Database (Except Failure α × Option RecordId)
  | .finish result => return (.ok result, place)
  -- The record keeps its place even if the script fails afterwards.
  | .stop (.failed failure) => return (.error failure, place)
  | .stop (.trapped cause) => trap cause
  | .acquire transaction page access next => do
    runScript place (next (← attempt (acquire transaction page access)))
  | .lock transaction page mode next => do
    runScript place (next (← tryLock transaction page mode))
  | .unlock transaction page next => fun db =>
    let (held, locks) := db.locks.release page transaction
    runScript place (next held) { db with locks }
  | .unlockAll transaction next => fun db =>
    let (pages, locks) := db.locks.releaseAll transaction
    runScript place (next pages) { db with locks }
  | .newCopy page next => do
    runScript place (next (← onPool (Pool.addStray · page)))
  | .look copy next => do
    runScript place (next ((← get).copy? copy))
  | .edit copy change next => do
    onPool fun pool => ((), pool.edit copy change.apply)
    runScript place next
  | .mark copy transaction next => do
    onPool fun pool => ((), pool.edit copy fun page => page.markChanged transaction)
    runScript place next
  | .place told next => runScript told next

end HeapEngine.Database
