import HeapEngine.Storage.PageArray

/-!
Page stores over the bytes of a file: page `n` lies at `n` times the page size.

Bytes after the last whole page belong to no page. Appending a page overwrites them.
-/

namespace HeapEngine.PageFile

/--
How many whole pages the bytes hold.

A page number is a word of 32 bits, and a file is taken to hold fewer than `2 ^ 32` pages. Numbers are not cut off.
-/
def pageCount (pageSize : Nat) (content : Bytes) : Outcome Nat :=
  if pageSize = 0 then trap .divisionByZero else .ok (content.length / pageSize)

/-- Reads what is stored at a page's position, as that page. -/
def read (pageSize : Nat) (id : PageId) : Op Bytes Page := do
  let content ← get
  let count ← pageCount pageSize content
  if count ≤ id.number then fail (.noPage id count)
  else Page.ofImage id (content.window (id.number * pageSize) pageSize)

/-- Writes a page at its position, which may be one past the end. -/
def write (pageSize : Nat) (page : Page) : Op Bytes Unit := do
  page.requireSize pageSize
  let content ← get
  let count ← pageCount pageSize content
  if count < page.id.number then fail (.noPage page.id count)
  else
    let image ← page.image
    set (content.overwrite (page.id.number * pageSize) image)

/--
Appends an empty page and tells its position.

The position is a number below `2 ^ 32` as long as there are fewer pages than that.
-/
def append (pageSize : Nat) : Op Bytes Nat := do
  let content ← get
  let count ← pageCount pageSize content
  let image ← (Page.empty ⟨0, count⟩ pageSize).image
  set (content.overwrite (count * pageSize) image)
  return count

end HeapEngine.PageFile
