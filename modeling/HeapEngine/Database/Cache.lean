import HeapEngine.Database

/-!
Getting pages: bringing them into memory, dropping others for them, and locking them.

Only pages without changes are dropped to make room, so what a transaction changed stays in memory
until it ends.
-/

namespace HeapEngine.Database

/-- Drops the unchanged page that was used longest ago. -/
def dropStalest : Op Database Unit := fun db =>
  match db.pool.stalestClean with
  | none => .error (.failed (.poolFull db.settings.capacity)) db
  | some id => .ok () { db with pool := db.pool.drop id }

/-- Makes room for one more page if there is none. -/
def makeRoom : Op Database Unit := fun db =>
  if db.settings.capacity ≤ db.pool.residentCount then dropStalest db else .ok () db

/-- Gives the resident copy of a page, which is read if there is none. -/
def bring (id : PageId) : Op Database CopyId := do
  match ← onPool (Pool.touch · id) with
  | some copy => return copy
  | none =>
    let table ← tableAt id.table
    -- A page that cannot be read takes no other page's place.
    let page ← readStored table id
    makeRoom
    onPool (Pool.load · id page)

/--
Locks a page, waiting no longer than the settings say.

Nothing is released while one operation runs, so a lock that cannot be granted at once is refused.
-/
def lockPage (transaction : TransactionId) (id : PageId) (mode : LockMode) :
    Op Database Unit := fun db =>
  match db.locks.request id transaction mode db.settings.patience with
  | .ok locks => .ok () { db with locks }
  | .error refusal => .error (.failed (.lockRefused refusal)) db

/--
Gives a page to a transaction, locked as its use demands.

The request is one that has a deadline, which is so for all settings whose patience is less than ages.
-/
def acquire (transaction : TransactionId) (id : PageId) (access : Access) :
    Op Database CopyId := do
  -- A page that is not there is not locked.
  let _ ← bring id
  lockPage transaction id access.lockMode
  -- While the lock was waited for, the page may have been dropped or replaced.
  bring id

/-- Gives a page to a transaction that asks for it now. -/
def acquireAt (now : Duration) (transaction : TransactionId) (id : PageId) (access : Access) :
    Op Database CopyId := do
  -- The deadline is told first, though it counts only for the lock.
  let _ ← (← get).settings.deadline now
  acquire transaction id access

/-- Releases a page before its transaction ends. -/
def releaseEarly (transaction : TransactionId) (id : PageId) : Op Database Unit := fun db =>
  match db.locks.release id transaction with
  | (true, locks) => .ok () { db with locks }
  | (false, locks) =>
    .error (.failed (.misuse (.releasedUnheld transaction id))) { db with locks }

/-- Changes a copy by something that may fail, in which case the copy stays as it is. -/
def changeCopy {α : Type} (copy : CopyId) (change : Page → Outcome (Page × α)) :
    Op Database α := fun db =>
  match db.copy? copy with
  | none => .error (.trapped .outOfRange) db
  | some page =>
    match change page with
    | .error fault => .error fault db
    | .ok (changed, result) =>
      .ok result { db with pool := db.pool.edit copy fun _ => changed }

/-- What a copy of a page holds. -/
def lookAt (copy : CopyId) : Op Database Page := fun db =>
  match db.copy? copy with
  | none => .error (.trapped .outOfRange) db
  | some page => .ok page db

/--
Marks a changed copy, and makes it the resident one of its page.

A copy is one of the page that it holds, so the name of that page is the one that counts.
-/
def adopt (transaction : TransactionId) (copy : CopyId) : Op Database Unit := do
  let db ← get
  -- Nobody else may see or change the page until the transaction ends.
  if !db.locks.isWriter copy.page transaction then
    fail (.misuse (.changedUnlocked transaction copy.page))
  else
    changeCopy copy fun page => .ok (page.markChanged transaction, ())
    let page ← lookAt copy
    if db.pool.isCurrent copy then
      let _ ← onPool (Pool.touch · copy.page)
    else
      -- Another copy of the page would give its place to this one.
      if !db.pool.isResident copy.page then makeRoom
      onPool fun pool => ((), pool.seat copy page)

/-- Adopts changed copies in turn. -/
def adoptAll (transaction : TransactionId) : List CopyId → Op Database Unit
  | [] => pure ()
  | copy :: rest => do
    adopt transaction copy
    adoptAll transaction rest

/-- Drops a page from memory without writing it, and says whether it was there. -/
def discard (id : PageId) : Op Database Bool := fun db =>
  .ok (db.pool.isResident id) { db with pool := db.pool.drop id }

end HeapEngine.Database
