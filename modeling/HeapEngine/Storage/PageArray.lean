import HeapEngine.Page.Image

/-! Page stores in memory, which count what is asked of them and can be told to fail. -/

namespace HeapEngine

/-- Page images in order, the failures asked for, and how often each thing was done. -/
structure PageArray where
  pageSize : Nat
  images : List Bytes
  readsFail : Bool
  writesFail : Bool
  readCount : Nat
  writeCount : Nat
  syncCount : Nat
deriving DecidableEq, Inhabited

/-- Refuses a page that has not the size of the store's pages. -/
def Page.requireSize (page : Page) (expected : Nat) : Outcome Unit :=
  if page.size ≠ expected then fail (.wrongPageSize expected page.size) else .ok ()

namespace PageArray

/-- A store without pages. -/
def empty (pageSize : Nat) : PageArray := ⟨pageSize, [], false, false, 0, 0, 0⟩

/-- The store with its failures asked for or not. -/
def setFailing (reads writes : Bool) (store : PageArray) : PageArray :=
  { store with readsFail := reads, writesFail := writes }

/--
How many pages the store has.

A page number is a word of 32 bits, and a store is taken to have fewer than `2 ^ 32` pages. Numbers are not cut off.
-/
def pageCount (store : PageArray) : Nat := store.images.length

/-- Reads what is stored at a page's position, as that page. -/
def read (id : PageId) : Op PageArray Page := do
  let store ← get
  if store.readsFail then fail (.storage .injectedRead)
  else
    match store.images[id.number]? with
    | none => fail (.noPage id store.pageCount)
    | some image =>
      -- Reading counts even if the image turns out to be no page.
      set { store with readCount := store.readCount + 1 }
      Page.ofImage id image

/-- Writes a page at its position, which may be one past the end. -/
def write (page : Page) : Op PageArray Unit := do
  let store ← get
  page.requireSize store.pageSize
  if store.writesFail then fail (.storage .injectedWrite)
  else if store.pageCount < page.id.number then fail (.noPage page.id store.pageCount)
  else
    let image ← page.image
    let images :=
      if page.id.number < store.pageCount then store.images.set page.id.number image
      else store.images ++ [image]
    set { store with images, writeCount := store.writeCount + 1 }

/--
Appends an empty page and tells its position.

The position is a number below `2 ^ 32` as long as there are fewer pages than that.
-/
def append : Op PageArray Nat := do
  let store ← get
  let image ← (Page.empty ⟨0, store.pageCount⟩ store.pageSize).image
  set { store with images := store.images ++ [image] }
  return store.pageCount

/-- Counts a request to make everything durable. -/
def sync : Op PageArray Unit := modify fun store =>
  { store with syncCount := store.syncCount + 1 }

end PageArray

end HeapEngine
