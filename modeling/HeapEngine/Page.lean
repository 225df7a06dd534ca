import HeapEngine.Failure

/-!
Slotted pages: cells of any length under slot numbers that stay with them.

A page is a header, a directory of slots growing upward, and cells growing downward from the end.
The space between them is free. A slot of length zero is free and may be used again.
-/

namespace HeapEngine

/-- One entry of a page's directory: where its cell lies. -/
structure Slot where
  offset : Nat
  length : Nat
deriving DecidableEq, Inhabited

namespace Slot

/-- The entry of a cell that was erased. -/
def free : Slot := ⟨0, 0⟩

/-- Whether the slot has no cell; an empty cell cannot be stored. -/
def isFree (slot : Slot) : Bool := slot.length = 0

end Slot

/-- A page in memory. -/
structure Page where
  id : PageId
  /-- The directory, in the order of the slot numbers. -/
  slots : List Slot
  /-- Where the lowest cell begins. -/
  cellStart : Nat
  /-- The cells at their places. What stands before `cellStart` has no meaning. -/
  buffer : Bytes
  /-- Who changed the page since it was last written. -/
  changedBy : Option TransactionId
deriving DecidableEq, Inhabited

namespace Page

/-- The bytes of a page before its directory. -/
def headerSize : Nat := 16

/-- The bytes of a directory entry. -/
def entrySize : Nat := 4

/-- Offsets and lengths are words of sixteen bits, so a page has fewer bytes than this. -/
def wordLimit : Nat := 2 ^ 16

/-- A size in memory is a word of 64 bits. -/
def sizeLimit : Nat := 2 ^ 64

/-- A page without cells. -/
def empty (id : PageId) (size : Nat) : Page :=
  -- The offset of the cells is kept in a word, whatever size is asked for.
  ⟨id, [], size % wordLimit, Bytes.zeros size, none⟩

/-- How many bytes the page has. -/
def size (page : Page) : Nat := page.buffer.length

/-- Where the directory ends. -/
def directoryEnd (page : Page) : Nat := headerSize + page.slots.length * entrySize

/-- The largest cell that an empty page of a size can hold. -/
def largestCell (size : Nat) : Outcome Nat :=
  -- The cell needs one directory entry.
  if size < headerSize + entrySize then trap .overflow else .ok (size - headerSize - entrySize)

/-- The bytes between the directory and the cells. -/
def room (page : Page) : Outcome Nat :=
  if page.cellStart < page.directoryEnd then trap .overflow
  else .ok (page.cellStart - page.directoryEnd)

/-- The lowest free slot. -/
def freeSlot? (page : Page) : Option Nat := page.slots.findIdx? Slot.isFree

/-- The directory bytes that one more cell costs. -/
def entryCost (page : Page) : Nat :=
  -- A free slot is used again and costs nothing.
  if page.freeSlot?.isSome then 0 else entrySize

/-- Whether a cell of a length can be inserted. -/
def fits (page : Page) (length : Nat) : Outcome Bool := do
  let room ← page.room
  if sizeLimit ≤ length + page.entryCost then trap .overflow
  else .ok (length + page.entryCost ≤ room)

/-- The directory with an entry in its lowest free slot, or else in a new last one. -/
def assign (page : Page) (entry : Slot) : List Slot × Nat :=
  match page.freeSlot? with
  | some index => (page.slots.set index entry, index)
  | none => (page.slots ++ [entry], page.slots.length)

/-- Stores a cell below the others, and tells its slot. -/
def insert (page : Page) (cell : Bytes) : Outcome (Page × Nat) := do
  -- A slot of length zero would count as free.
  if cell = [] then fail (.encoding .emptyCell)
  else if !(← page.fits cell.length) then fail (.noRoom page.id)
  else if page.size < page.cellStart then trap .outOfRange
  else
    let offset := page.cellStart - cell.length
    let (slots, index) := page.assign ⟨offset, cell.length⟩
    let buffer := page.buffer.overwrite offset cell
    .ok ({ page with slots, buffer, cellStart := offset }, index % wordLimit)

/-- Stores cells in turn. -/
def insertAll (page : Page) : List Bytes → Outcome Page
  | [] => .ok page
  | cell :: rest => do
    let (page, _) ← page.insert cell
    insertAll page rest

/-- The bytes that a directory entry points at. -/
def cellAt (page : Page) (slot : Slot) : Outcome Bytes :=
  if page.size < slot.offset + slot.length then trap .outOfRange
  else .ok (page.buffer.window slot.offset slot.length)

/-- The cell of a slot, if the slot is there and not free. -/
def cell? (page : Page) (index : Nat) : Outcome (Option Bytes) :=
  match page.slots[index]? with
  | some slot => if slot.isFree then .ok none else some <$> page.cellAt slot
  | none => .ok none

/-- The directory without the free slots at its end. -/
def trimFree (slots : List Slot) : List Slot := (slots.reverse.dropWhile Slot.isFree).reverse

/-- The slots in use with their numbers, highest offset first. -/
def inUse (slots : List Slot) : List (Slot × Nat) :=
  -- Cells at one offset stay in the order of their slots.
  (slots.zipIdx.filter fun entry => !entry.1.isFree).mergeSort
    fun a b => b.1.offset ≤ a.1.offset

/-- Cells moved to the end of a page: where they begin, their bytes, and the directory with them. -/
structure Packing where
  start : Nat
  cells : Bytes
  slots : List Slot

/-- Moves one more cell below those already packed. -/
def packCell (page : Page) (packing : Packing) (entry : Slot × Nat) : Outcome Packing := do
  let (slot, index) := entry
  -- Cells that overlap may be longer together than the page.
  if packing.start < slot.length then trap .overflow
  else
    let cell ← page.cellAt slot
    let start := packing.start - slot.length
    let moved : Slot := ⟨start % wordLimit, slot.length⟩
    .ok ⟨start, cell ++ packing.cells, packing.slots.set index moved⟩

/-- Moves all cells to the end of the page, in the order in which they lie. -/
def pack (page : Page) : Outcome Page := do
  -- The highest cell moves first, so no cell is passed by another.
  let packing ← (inUse page.slots).foldlM page.packCell ⟨page.size, [], page.slots⟩
  .ok { page with
    slots := packing.slots
    cellStart := packing.start % wordLimit
    buffer := Bytes.zeros packing.start ++ packing.cells }

/--
Frees a slot and closes the gap its cell leaves.

The numbers of the other cells stay. Free slots at the end of the directory go, those between others
must stay to keep the numbering.
-/
def erase (page : Page) (index : Nat) : Outcome Page :=
  match page.slots[index]? with
  | none => fail (.noSlot index page.slots.length)
  | some slot =>
    if slot.isFree then fail (.noRecord page.id (index % wordLimit))
    else pack { page with slots := trimFree (page.slots.set index .free) }

/-- Stores a record and tells where. -/
def insertRecord (page : Page) (record : Record) : Outcome (Page × RecordId) := do
  let (page, slot) ← page.insert record.encode
  .ok (page, ⟨page.id, slot⟩)

/-- Erases a record that is stored on this page. -/
def eraseRecord (page : Page) (record : Record) : Outcome Page :=
  match record.place with
  | none => fail (.misuse .unplacedOnPage)
  | some place =>
    if place.page ≠ page.id then fail (.misuse (.onOtherPage place page.id))
    -- The slot of a record may be gone, where a slot that is asked for by number must exist.
    else if page.slots.length ≤ place.slot then fail (.noRecord page.id place.slot)
    else page.erase place.slot

/-- The record in a slot, if there is one. -/
def record? (page : Page) (slot : Nat) : Outcome (Option Record) := do
  match ← page.cell? slot with
  | none => .ok none
  | some cell =>
    match Record.decode cell with
    | .error cause => fail (.encoding (.record cause))
    | .ok record => .ok (some { record with place := some ⟨page.id, slot⟩ })

/-- All records of the page in slot order, each with its place. -/
def records (page : Page) : Outcome (List Record) := do
  let found ← (List.range page.slots.length).mapM fun index => page.record? (index % wordLimit)
  -- Free slots have no record.
  .ok (found.filterMap fun record => record)

/-- How many slots are in use. -/
def recordCount (page : Page) : Nat := page.slots.countP fun slot => !slot.isFree

/-- Whether the page has changes that are not written. -/
def isDirty (page : Page) : Bool := page.changedBy.isSome

/-- The page as changed by a transaction. -/
def markChanged (page : Page) (transaction : TransactionId) : Page :=
  { page with changedBy := some transaction }

/-- The page as it is once written. -/
def markWritten (page : Page) : Page := { page with changedBy := none }

end Page

end HeapEngine
