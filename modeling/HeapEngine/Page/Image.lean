import HeapEngine.Checksum
import HeapEngine.Page

/-!
Pages as they are stored.

An image is the checksum of all that follows it, the number of slots, the offset of the lowest cell,
eight reserved bytes, the directory, unused space and the cells. Numbers are little endian. An image
of zeros alone is an empty page that was never written.
-/

namespace HeapEngine.Page

/-- The size of a page where nobody asks for another. -/
def defaultSize : Nat := 4096

/-- The bytes of the checksum at the very front. -/
def checksumSize : Nat := 4

/-- The four bytes of the checksum of an image. -/
def checksumBytes (image : Bytes) : Bytes :=
  -- The checksum does not cover itself.
  Bytes.ofNumber checksumSize (Checksum.crc32 (image.drop checksumSize)).toNat

/-- Whether an image begins with its checksum. -/
def isSealed (image : Bytes) : Bool :=
  checksumSize ≤ image.length && image.take checksumSize = checksumBytes image

/-- The checksum of an image that is long enough to hold one. -/
def checksum (image : Bytes) : Outcome UInt32 :=
  if image.length < checksumSize then trap .outOfRange
  else .ok (Checksum.crc32 (image.drop checksumSize))

/-- The bytes of a directory entry. -/
def entryBytes (slot : Slot) : Bytes := Bytes.ofNumber 2 slot.offset ++ Bytes.ofNumber 2 slot.length

/-- The header, with nothing in the place of the checksum, and the directory. -/
def front (page : Page) : Bytes :=
  Bytes.zeros checksumSize ++ Bytes.ofNumber 2 page.slots.length
    ++ Bytes.ofNumber 2 page.cellStart ++ Bytes.zeros 8 ++ page.slots.flatMap entryBytes

/-- Header, directory and cells, with nothing in the place of the checksum. -/
def unsealed (page : Page) : Bytes :=
  -- The space between the directory and the cells is zero, and so are the bytes of former cells.
  ((page.front ++ Bytes.zeros page.size).take page.size).take page.cellStart
    ++ page.buffer.drop page.cellStart

/-- The image of the page. -/
def image (page : Page) : Outcome Bytes :=
  -- The numbers after the checksum, the directory and the cells must lie within the page.
  if page.size < checksumSize + 4 then trap .outOfRange
  else if page.slots ≠ [] ∧ page.size < page.directoryEnd then trap .outOfRange
  else if page.size < page.cellStart then trap .outOfRange
  else .ok (checksumBytes page.unsealed ++ page.unsealed.drop checksumSize)

/-- Reads so many directory entries, and refuses one whose cell is not among the cells. -/
def readEntries (id : PageId) (cellStart size : Nat) : (count : Nat) → Bytes → Outcome (List Slot)
  | 0, _ => .ok []
  | count + 1, directory => do
    let offset := Bytes.toNumber (directory.window 0 2)
    let length := Bytes.toNumber (directory.window 2 2)
    -- The offset of a free slot means nothing.
    if length ≠ 0 ∧ (offset < cellStart ∨ size < offset + length) then
      fail (.corruptPage id (.cellOutside offset length))
    else
      let rest ← readEntries id cellStart size count (directory.drop entrySize)
      .ok (⟨offset, length⟩ :: rest)

/-- The page that an image holds. -/
def ofImage (id : PageId) (image : Bytes) : Outcome Page := do
  let size := image.length
  if size < headerSize + entrySize ∨ wordLimit ≤ size then
    fail (.wrongPageSize defaultSize size)
  -- A page that was appended to a file but never written has no checksum.
  else if image.all (· = 0) then .ok (empty id size)
  else if !isSealed image then fail (.corruptPage id .checksum)
  else
    let count := Bytes.toNumber (image.window 4 2)
    let cellStart := Bytes.toNumber (image.window 6 2)
    let directoryEnd := headerSize + count * entrySize
    if size < directoryEnd then fail (.corruptPage id .directoryTooLong)
    else if cellStart < directoryEnd ∨ size < cellStart then
      fail (.corruptPage id (.cellStart cellStart))
    else
      let slots ← readEntries id cellStart size count (image.drop headerSize)
      .ok ⟨id, slots, cellStart, image, none⟩

end HeapEngine.Page
