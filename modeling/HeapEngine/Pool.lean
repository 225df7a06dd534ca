import HeapEngine.Page

/-!
Pages in memory, with the order of their last use.

A page may have several copies in memory over time: one is dropped and another loaded. Whoever got a
copy may go on using it after it was dropped, so copies have numbers of their own.
-/

namespace HeapEngine

/-- One copy of a page in memory. -/
structure CopyId where
  page : PageId
  serial : Nat
deriving DecidableEq, Inhabited

/-- A resident copy and when it was last asked for. -/
structure Frame where
  page : Page
  serial : Nat
  lastUse : Nat
deriving DecidableEq, Inhabited

/-- The resident pages, and the copies that are in memory without being resident. -/
structure Pool where
  frames : SortedMap PageId Frame
  strays : SortedMap Nat Page
  /-- Grows with every use, so that no two frames were last used at the same time. -/
  clock : Nat
  nextSerial : Nat
deriving DecidableEq, Inhabited

namespace Pool

/-- Nothing is in memory. -/
def empty : Pool := ⟨.empty, .empty, 0, 0⟩

/-- How many pages are resident. -/
def residentCount (pool : Pool) : Nat := pool.frames.size

/-- Whether a page is resident. -/
def isResident (pool : Pool) (id : PageId) : Bool := pool.frames.contains id

/-- The resident copy of a page. -/
def page? (pool : Pool) (id : PageId) : Option Page := (pool.frames.find? id).map Frame.page

/-- Whether a copy is the resident one of its page. -/
def isCurrent (pool : Pool) (copy : CopyId) : Bool :=
  (pool.frames.find? copy.page).any fun frame => frame.serial = copy.serial

/-- What a copy holds that is in memory without being resident. -/
def stray? (pool : Pool) (copy : CopyId) : Option Page :=
  -- The page itself tells which page a copy is of.
  (pool.strays.find? copy.serial).filter fun page => page.id = copy.page

/-- What a copy holds. -/
def copy? (pool : Pool) (copy : CopyId) : Option Page :=
  if pool.isCurrent copy then pool.page? copy.page else pool.stray? copy

/-- Changes what the resident copy of a page holds. -/
def editResident (pool : Pool) (id : PageId) (change : Page → Page) : Pool :=
  match pool.frames.find? id with
  | some frame =>
    { pool with frames := pool.frames.insert id { frame with page := change frame.page } }
  | none => pool

/-- Changes what a copy holds, resident or not. -/
def edit (pool : Pool) (copy : CopyId) (change : Page → Page) : Pool :=
  if pool.isCurrent copy then pool.editResident copy.page change
  else
    match pool.stray? copy with
    | some page => { pool with strays := pool.strays.insert copy.serial (change page) }
    | none => pool

/-- Notes that a page was asked for, and gives its resident copy. -/
def touch (pool : Pool) (id : PageId) : Option CopyId × Pool :=
  -- The clock goes on even if the page is not there.
  let clock := pool.clock + 1
  match pool.frames.find? id with
  | some frame =>
    (some ⟨id, frame.serial⟩,
      { pool with clock, frames := pool.frames.insert id { frame with lastUse := clock } })
  | none => (none, { pool with clock })

/-- Drops the resident copy of a page. -/
def drop (pool : Pool) (id : PageId) : Pool :=
  match pool.frames.find? id with
  | some frame =>
    -- Somebody may still have the copy.
    { pool with
      frames := pool.frames.erase id
      strays := pool.strays.insert frame.serial frame.page }
  | none => pool

/-- Makes a copy that is not resident. -/
def addStray (pool : Pool) (page : Page) : CopyId × Pool :=
  (⟨page.id, pool.nextSerial⟩,
    { pool with
      strays := pool.strays.insert pool.nextSerial page
      nextSerial := pool.nextSerial + 1 })

/-- Makes a copy the resident one of its page, in place of another if there is one. -/
def seat (pool : Pool) (copy : CopyId) (page : Page) : Pool :=
  let pool := pool.drop copy.page
  let clock := pool.clock + 1
  { pool with
    clock
    frames := pool.frames.insert copy.page ⟨page, copy.serial, clock⟩
    strays := pool.strays.erase copy.serial }

/-- Makes a page just read resident. -/
def load (pool : Pool) (id : PageId) (page : Page) : CopyId × Pool :=
  let copy : CopyId := ⟨id, pool.nextSerial⟩
  (copy, { pool with nextSerial := pool.nextSerial + 1 }.seat copy page)

/-- The frame that was used longest ago. -/
def stalest : List (PageId × Frame) → Option (PageId × Frame)
  | [] => none
  | entry :: rest =>
    match stalest rest with
    | some other => if other.2.lastUse < entry.2.lastUse then some other else some entry
    | none => some entry

/-- The page to drop for another one. -/
def stalestClean (pool : Pool) : Option PageId :=
  -- A changed page must stay until its change is written or taken back.
  (stalest (pool.frames.entries.filter fun entry => !entry.2.page.isDirty)).map Prod.fst

/-- The pages that a transaction has changed, ascending. -/
def changedBy (pool : Pool) (transaction : TransactionId) : List PageId :=
  (pool.frames.filter fun _ frame => frame.page.changedBy = some transaction).keys

/-- Forgets the copies that are neither resident nor among those still referred to. -/
def forget (pool : Pool) (inUse : List CopyId) : Pool :=
  { pool with strays := pool.strays.filter fun serial _ => inUse.any (·.serial = serial) }

end Pool

end HeapEngine
