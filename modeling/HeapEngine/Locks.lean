import HeapEngine.Duration
import HeapEngine.Identifier

/-!
Page locks: many readers, or one writer.

A lock is granted at once or not at all, and nobody loses a lock but by releasing it.
-/

namespace HeapEngine

/-- How a page is locked. -/
inductive LockMode where
  /-- The holder reads the page, as others may. -/
  | shared
  /-- The holder changes the page and is alone. -/
  | exclusive
deriving DecidableEq

/-- The word for a mode. -/
def LockMode.name : LockMode → String
  | shared => "Shared"
  | exclusive => "Exclusive"

/-- A request for a lock that was given up. -/
structure Refusal where
  transaction : TransactionId
  page : PageId
  mode : LockMode
  waited : Duration
deriving DecidableEq

/-- What a refusal says of itself. -/
def Refusal.message (refusal : Refusal) : String :=
  s!"{refusal.transaction.text} gave up on a {refusal.mode.name} lock for page "
    ++ s!"{refusal.page.text} after {refusal.waited.text}"

/-- Who holds which page, and how. -/
structure Locks where
  /-- The shared holders of each page that has any. -/
  readers : SortedMap PageId (SortedSet TransactionId)
  /-- The exclusive holder of each page that has one. -/
  writers : SortedMap PageId TransactionId
deriving DecidableEq, Inhabited

namespace Locks

/-- No page is locked. -/
def empty : Locks := ⟨.empty, .empty⟩

/-- The shared holders of a page. -/
def readersOf (locks : Locks) (page : PageId) : SortedSet TransactionId :=
  -- A page that is not listed has no reader.
  (locks.readers.find? page).getD .empty

/-- The exclusive holder of a page. -/
def writerOf? (locks : Locks) (page : PageId) : Option TransactionId := locks.writers.find? page

/-- Whether a transaction has a shared lock on a page. -/
def isReader (locks : Locks) (page : PageId) (holder : TransactionId) : Bool :=
  (locks.readersOf page).contains holder

/-- Whether a transaction has the exclusive lock of a page. -/
def isWriter (locks : Locks) (page : PageId) (holder : TransactionId) : Bool :=
  locks.writerOf? page = some holder

/-- Whether a transaction has any lock on a page. -/
def holds (locks : Locks) (page : PageId) (holder : TransactionId) : Bool :=
  locks.isReader page holder || locks.isWriter page holder

/-- Whether a transaction is the only reader of a page, so that it can become its writer. -/
def isSoleReader (locks : Locks) (page : PageId) (holder : TransactionId) : Bool :=
  (locks.readersOf page).size = 1 && locks.isReader page holder

/-- Adds a reader, unless somebody else is the writer. -/
def grantShared? (locks : Locks) (page : PageId) (asker : TransactionId) : Option Locks :=
  let granted :=
    { locks with readers := locks.readers.insert page ((locks.readersOf page).insert asker ()) }
  match locks.writerOf? page with
  -- The writer itself may read as well, and keeps its exclusive lock.
  | some writer => if writer = asker then some granted else none
  | none => some granted

/-- Makes a transaction the writer of a page that it holds alone or that nobody holds. -/
def grantExclusive? (locks : Locks) (page : PageId) (asker : TransactionId) : Option Locks :=
  -- Asking again for what one has changes nothing.
  if locks.isWriter page asker then some locks
  -- A sole reader gives up its shared lock for the exclusive one.
  else if locks.isSoleReader page asker then
    some ⟨locks.readers.erase page, locks.writers.insert page asker⟩
  -- Anybody else needs a page without any holder.
  else if !locks.readers.contains page && !locks.writers.contains page then
    some { locks with writers := locks.writers.insert page asker }
  else none

/-- The locks with one more of a mode, if it can be granted now. -/
def grant? (locks : Locks) (page : PageId) (asker : TransactionId) : LockMode → Option Locks
  | .shared => locks.grantShared? page asker
  | .exclusive => locks.grantExclusive? page asker

/-- Asks for a lock for as long as `patience`, with nobody releasing anything meanwhile. -/
def request (locks : Locks) (page : PageId) (asker : TransactionId) (mode : LockMode)
    (patience : Duration) : Except Refusal Locks :=
  match locks.grant? page asker mode with
  | some granted => .ok granted
  -- What cannot be granted now stays so until a release, so the whole time passes.
  | none => .error ⟨asker, page, mode, patience⟩

/-- Takes a reader off a page. -/
def removeReader (locks : Locks) (page : PageId) (holder : TransactionId) : Locks :=
  match locks.readers.find? page with
  | none => locks
  | some readers =>
    let left := readers.erase holder
    -- A page without readers is not listed at all.
    if left.size = 0 then { locks with readers := locks.readers.erase page }
    else { locks with readers := locks.readers.insert page left }

/-- Takes the exclusive lock of a page from a transaction if it has it. -/
def removeWriter (locks : Locks) (page : PageId) (holder : TransactionId) : Locks :=
  if locks.isWriter page holder then { locks with writers := locks.writers.erase page }
  else locks

/-- Takes whatever a transaction holds on a page, and says whether it held anything. -/
def release (locks : Locks) (page : PageId) (holder : TransactionId) : Bool × Locks :=
  (locks.holds page holder, (locks.removeWriter page holder).removeReader page holder)

/-- The pages on which a transaction holds any lock, ascending and each once. -/
def pagesOf (locks : Locks) (holder : TransactionId) : List PageId :=
  let read := locks.readers.filter fun _ readers => readers.contains holder
  let written := locks.writers.filter fun _ writer => writer = holder
  -- A page may be both read and written by its holder.
  (SortedSet.ofList (read.keys ++ written.keys)).keys

/-- Takes everything a transaction holds, and names the pages it held. -/
def releaseAll (locks : Locks) (holder : TransactionId) : List PageId × Locks :=
  let pages := locks.pagesOf holder
  (pages, pages.foldl (fun locks page => (locks.release page holder).2) locks)

end Locks

end HeapEngine
