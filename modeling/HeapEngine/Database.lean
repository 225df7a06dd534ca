import HeapEngine.Catalog
import HeapEngine.Settings

/-!
A database: settings, tables, storage, locks and the pages in memory.

An operation that fails keeps what it did before it failed.
-/

namespace HeapEngine

/-- All that a database consists of. -/
structure Database where
  settings : Settings
  catalog : Catalog
  storage : Storage
  locks : Locks
  pool : Pool
  /-- The requests that tables of the caller's own received, the last first. -/
  calls : SortedMap Nat (List TableCall)

namespace Database

/--
A database over a catalog, if the settings are sound and the page sizes agree.

Its files are in the directory of the given path.
-/
def openOver (directory : String) (settings : Settings) (catalog : Catalog) :
    Except Failure Database :=
  match settings.check with
  | .error failure => .error failure
  | .ok () =>
    if catalog.pageSize ≠ settings.pageSize then
      .error (.badSettings (.catalogPageSize catalog.pageSize settings.pageSize))
    else .ok ⟨settings, catalog, .empty directory, .empty, .empty, .empty⟩

/-- A database without tables. -/
def openEmpty (directory : String) (settings : Settings) : Except Failure Database :=
  openOver directory settings (.empty settings.pageSize)

/-- A failure as an answer; a trap ends everything still. -/
def attempt {σ α : Type} (action : Op σ α) : Op σ (Except Failure α) := fun state =>
  match action state with
  | .ok result state => .ok (.ok result) state
  | .error (.failed failure) state => .ok (.error failure) state
  | .error (.trapped cause) state => .error (.trapped cause) state

/-- An answer that may be a failure, as an operation. -/
def ofResult {σ α : Type} : Except Failure α → Op σ α
  | .ok result => fun state => .ok result state
  | .error failure => fun state => .error (.failed failure) state

/-- Does something to the storage. -/
def onStorage {α : Type} (action : Op Storage α) : Op Database α := fun db =>
  match action db.storage with
  | .ok result storage => .ok result { db with storage }
  | .error fault storage => .error fault { db with storage }

/-- Changes the pages in memory. -/
def onPool {α : Type} (change : Pool → α × Pool) : Op Database α := fun db =>
  let (result, pool) := change db.pool
  .ok result { db with pool }

/-- What a copy of a page holds. -/
def copy? (db : Database) (copy : CopyId) : Option Page := db.pool.copy? copy

/-! Tables. -/

/-- The registered table of a number. -/
def tableAt (number : Nat) : Op Database Table := do
  ofResult ((← get).catalog.find number)

/-- Registers a heap over a store. -/
def addHeap (name : String) (store : StoreId) : Op Database Heap := do
  let db ← get
  let (heap, catalog) ←
    ofResult (db.catalog.registerHeap name store (db.storage.pageSize store))
  set { db with catalog }
  return heap

/-- Registers a heap over a new store in memory. -/
def addMemoryHeap (name : String) (pageSize : Nat) : Op Database Heap := do
  addHeap name (← onStorage (Storage.addArray pageSize))

/-- Registers a heap over a file, which is made if it is not there. -/
def addFileHeap (name path : String) : Op Database Heap := do
  addHeap name (← onStorage (Storage.openFile path (← get).catalog.pageSize))

/-- The file of a table that is given none. -/
def defaultFile (name : String) : String := name ++ ".dat"

/-- Registers a table of the caller's own. -/
def addCustom (name : String) (build : Nat → TableFormat) : Op Database Nat := fun db =>
  let (number, catalog) := db.catalog.register name fun number => .custom (build number)
  .ok number { db with catalog }

/-- The requests that a table received, the last first. -/
def callsTo (db : Database) (table : Nat) : List TableCall := (db.calls.find? table).getD []

/-- Notes a request to a table of the caller's own, and gives the ones before it. -/
def note (table : Nat) (call : TableCall) : Op Database (List TableCall) := fun db =>
  let before := db.callsTo table
  .ok before { db with calls := db.calls.insert table (call :: before) }

/-! What is stored, past the pages in memory. -/

/-- How many pages a heap has. -/
def heapPageCount (heap : Heap) : Op Database Nat := do
  (← get).storage.pageCount heap.store

/-- How many pages a table has. -/
def pageCount (number : Nat) : Table → Op Database Nat
  | .heap heap => heapPageCount heap
  | .custom format => do ofResult (format.pageCount ((← get).callsTo number))

/-- The size of a table's pages. -/
def pageSizeOf (db : Database) : Table → Nat
  | .heap heap => db.storage.pageSize heap.store
  | .custom format => format.pageSize

/-- Reads a page from its table. -/
def readStored (table : Table) (id : PageId) : Op Database Page :=
  match table with
  | .heap heap => onStorage (Storage.read heap.store id)
  | .custom format => do
    let before ← note id.table (.read id)
    ofResult (format.read before id)

/-- Writes a page to a table. -/
def writeStored (number : Nat) (table : Table) (page : Page) : Op Database Unit :=
  match table with
  | .heap heap => onStorage (Storage.write heap.store page)
  | .custom format => do
    let before ← note number (.write page)
    ofResult (format.write before page)

/-- Makes everything written to a table durable. -/
def syncTable (number : Nat) : Table → Op Database Unit
  | .heap heap => onStorage (Storage.sync heap.store)
  | .custom format => do
    let before ← note number .sync
    ofResult (format.sync before)

end Database

end HeapEngine
