import HeapEngine.Storage.FileName
import HeapEngine.Storage.PageFile

/-! All the storage there is: stores in memory by number, and files by name. -/

namespace HeapEngine

/-- One page store. Two of them may lie over the same file. -/
inductive StoreId where
  | memory (number : Nat)
  | file (name : String) (pageSize : Nat)
deriving DecidableEq, Inhabited

/-- The stores in memory and the contents of the files. -/
structure Storage where
  /-- The path of the directory that the names of files are told from. -/
  directory : String
  arrays : SortedMap Nat PageArray
  files : SortedMap String Bytes
deriving DecidableEq, Inhabited

namespace Storage

/-- Nothing is stored, and files will be in a directory of the given path. -/
def empty (directory : String) : Storage := ⟨directory, .empty, .empty⟩

/-- A store in memory. -/
def array (storage : Storage) (number : Nat) : PageArray :=
  -- A number that was never given out stands for a store without pages.
  (storage.arrays.find? number).getD (.empty 0)

/-- The content of a file; a file that is not there has none. -/
def file (storage : Storage) (name : String) : Bytes := (storage.files.find? name).getD []

/-- Does something to one store in memory. -/
def onArray {α : Type} (number : Nat) (action : Op PageArray α) : Op Storage α := fun storage =>
  match action (storage.array number) with
  | .ok result store => .ok result { storage with arrays := storage.arrays.insert number store }
  | .error fault store => .error fault { storage with arrays := storage.arrays.insert number store }

/-- Does something to one file. -/
def onFile {α : Type} (name : String) (action : Op Bytes α) : Op Storage α := fun storage =>
  match action (storage.file name) with
  | .ok result content => .ok result { storage with files := storage.files.insert name content }
  | .error fault content =>
    .error fault { storage with files := storage.files.insert name content }

/-- Adds an empty store in memory. -/
def addArray (pageSize : Nat) : Op Storage StoreId := fun storage =>
  -- Stores are never taken away, so their number is one that is not given out yet.
  let number := storage.arrays.size
  .ok (.memory number)
    { storage with arrays := storage.arrays.insert number (.empty pageSize) }

/-- The file that a name stands for. -/
def resolve (name : String) : Op Storage String := fun storage =>
  match FileName.resolve storage.directory storage.files.contains name with
  | .error cause => .error (.failed (.storage cause)) storage
  | .ok found => .ok found storage

/-- Gives the file of a name its content, whether it was there before or not. -/
def putFile (name : String) (content : Bytes) : Op Storage Unit := do
  onFile (← resolve name) (set content)

/-- Opens a file as a page store, and makes an empty one if there is none of that name. -/
def openFile (name : String) (pageSize : Nat) : Op Storage StoreId := do
  let found ← resolve name
  -- Doing nothing to a file makes it.
  onFile found (pure ())
  return .file found pageSize

/-- The size of a store's pages. -/
def pageSize (storage : Storage) : StoreId → Nat
  | .memory number => (storage.array number).pageSize
  | .file _ pageSize => pageSize

/-- How many pages a store has, fewer than `2 ^ 32` as is taken for granted. -/
def pageCount (storage : Storage) : StoreId → Outcome Nat
  | .memory number => .ok (storage.array number).pageCount
  | .file name pageSize => PageFile.pageCount pageSize (storage.file name)

/-- Reads a page of a store. -/
def read (store : StoreId) (id : PageId) : Op Storage Page :=
  match store with
  | .memory number => onArray number (PageArray.read id)
  | .file name pageSize => onFile name (PageFile.read pageSize id)

/-- Writes a page to a store. -/
def write (store : StoreId) (page : Page) : Op Storage Unit :=
  match store with
  | .memory number => onArray number (PageArray.write page)
  | .file name pageSize => onFile name (PageFile.write pageSize page)

/-- Appends an empty page to a store that has room for its number in 32 bits, and tells its position. -/
def append (store : StoreId) : Op Storage Nat :=
  match store with
  | .memory number => onArray number PageArray.append
  | .file name pageSize => onFile name (PageFile.append pageSize)

/-- Makes everything written to a store so far durable. -/
def sync (store : StoreId) : Op Storage Unit :=
  match store with
  | .memory number => onArray number PageArray.sync
  -- What is written to a file is in its content at once.
  | .file _ _ => pure ()

end Storage

end HeapEngine
