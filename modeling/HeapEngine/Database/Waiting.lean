import HeapEngine.Database.Cache

/-!
Requests that wait for a lock while others go on.

A waiting request asks again whenever something was released. Asking for a lock never takes one
away, so there is no need to ask at other times.
-/

namespace HeapEngine

/-- A request for a lock, on behalf of a transaction. -/
structure LockRequest where
  transaction : TransactionId
  page : PageId
  mode : LockMode
deriving DecidableEq

/-- Grants a request if that is possible now. -/
def LockRequest.ask (request : LockRequest) (locks : Locks) : Option Locks :=
  locks.grant? request.page request.transaction request.mode

/--
Lets requests ask in turn, those that were not granted before.

With each request stands whether it is granted.
-/
def LockRequest.askAll : List (LockRequest × Bool) → Locks → List (LockRequest × Bool) × Locks
  | [], locks => ([], locks)
  | (request, granted) :: rest, locks =>
    let (now, locks) :=
      if granted then (true, locks)
      else
        match request.ask locks with
        | some next => (true, next)
        | none => (false, locks)
    -- Those who come later find what was granted before them.
    let (rest, locks) := askAll rest locks
    ((request, now) :: rest, locks)

/-- A request for a page, on behalf of a transaction. -/
structure PageRequest where
  transaction : TransactionId
  page : PageId
  access : Access
deriving DecidableEq

namespace PageRequest

/-- The lock that the request needs. -/
def lockRequest (request : PageRequest) : LockRequest :=
  ⟨request.transaction, request.page, request.access.lockMode⟩

/-- Goes on with a request whose page was there once: ends it if its lock can be granted now. -/
def ask (request : PageRequest) : Op Database (Option (Except Failure CopyId)) := do
  let db ← get
  match request.lockRequest.ask db.locks with
  | none => return none
  | some locks =>
    set { db with locks }
    -- The page may have been dropped or replaced in the meantime.
    return some (← Database.attempt (Database.bring request.page))

/-- Begins a request, which ends at once if its page is not there or its lock can be granted. -/
def start (request : PageRequest) : Op Database (Option (Except Failure CopyId)) := do
  match ← Database.attempt (Database.bring request.page) with
  | .error failure => return some (.error failure)
  | .ok _ => request.ask

/-- Begins requests in turn. With each stands its answer, once it has one. -/
def startAll : List PageRequest → Op Database (List (PageRequest × Option (Except Failure CopyId)))
  | [] => return []
  | request :: rest => do
    let answer ← request.start
    return (request, answer) :: (← startAll rest)

/-- Lets requests go on in turn, those that have no answer yet. -/
def askAll : List (PageRequest × Option (Except Failure CopyId)) →
    Op Database (List (PageRequest × Option (Except Failure CopyId)))
  | [] => return []
  | (request, answer) :: rest => do
    let now ← if answer.isSome then pure answer else request.ask
    return (request, now) :: (← askAll rest)

end PageRequest

end HeapEngine
