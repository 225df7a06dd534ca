import HeapEngine.Proofs.Page.Usable

/-!
Every image that is accepted can be read and stored again.

What the decoder checks is what looking at a page and storing it need. Bytes that no reader looks at are
not kept, and all others are.
-/

namespace HeapEngine.Page

/-- The slots in use are those that hold a cell. -/
theorem recordCount_eq (page : Page) : page.recordCount = page.cells.countP Option.isSome := by
  rw [recordCount, cells, List.countP_map]
  refine List.countP_congr fun slot _ => ?_
  have held := Slot.isNone_content page.buffer slot
  simp only [Function.comp_apply, ← Option.not_isNone, held]

/--
A page that was read keeps its directory before its cells and both within the image. Every slot of it can
be looked at, its free space measured and its image made. That image reads back, under any name, as a page
with the same directory, the same lowest cell and the same cells.
-/
theorem ofImage_faithful {id : PageId} {image : Bytes} {page : Page} (read : ofImage id image = .ok page) :
    16 + 4 * page.slots.length ≤ page.cellStart ∧ page.cellStart ≤ image.length
      ∧ (∀ index : Nat, page.cell? index = .ok page.cells[index]?.join)
      ∧ page.recordCount = page.cells.countP Option.isSome
      ∧ page.room = .ok (page.cellStart - (16 + 4 * page.slots.length))
      ∧ ∃ written, page.image = .ok written ∧ written.length = image.length
        ∧ ∀ name : PageId, ∃ again, ofImage name written = .ok again ∧ again.id = name
          ∧ again.slots = page.slots ∧ again.cellStart = page.cellStart ∧ again.cells = page.cells
          ∧ ∀ index, again.cell? index = page.cell? index := by
  have readable := ofImage_readable read
  obtain ⟨_, size, _⟩ := ofImage_eq_ok read
  have ends : page.directoryEnd = 16 + 4 * page.slots.length := by
    simp only [directoryEnd, headerSize, entrySize]
    omega
  obtain ⟨written, stored, length⟩ := readable.exists_image
  refine ⟨ends ▸ readable.directory, size ▸ readable.within, readable.contained.cell?_eq,
    recordCount_eq page, ends ▸ readable.room_eq, written, stored, length.trans size, fun name => ?_⟩
  obtain ⟨again, decoded, agrees, named, _⟩ := readable.ofImage_image stored name
  -- What was read back was read from an image too, so it can be looked at as well.
  have same : again.cells = page.cells := (agrees.symm.cells_of_readable readable).symm
  refine ⟨again, decoded, named, agrees.slots, agrees.cellStart, same, fun index => ?_⟩
  rw [readable.contained.cell?_eq, (ofImage_readable decoded).contained.cell?_eq, same]

/-- Slots of a page with two overlapping cells and, after each, a free slot with an offset. -/
def oddSlots : List Slot := [⟨34, 6⟩, ⟨7, 0⟩, ⟨36, 6⟩, ⟨9, 0⟩]

/-- The image of such a page that has bytes where none are expected: reserved, unused and after the cells. -/
def oddImage : Bytes :=
  [229, 39, 4, 210] ++ [4, 0, 34, 0] ++ [1, 2, 3, 4, 5, 6, 7, 8] ++ oddSlots.flatMap entryBytes
    ++ [99, 98] ++ [10, 11, 12, 13, 14, 15, 16, 17, 18, 19]

/-- What that image holds. -/
def odd : Page := ⟨⟨1, 0⟩, oddSlots, 34, oddImage, none⟩

/-- Reserved and unused bytes are gone from what is stored again, and no cell has lost any. -/
theorem ofImage_faithful_odd :
    ofImage ⟨1, 0⟩ oddImage = .ok odd
      ∧ odd.cell? 2 = .ok (some [12, 13, 14, 15, 16, 17])
      ∧ odd.image
        = .ok ([202, 250, 255, 95] ++ [4, 0, 34, 0] ++ Bytes.zeros 8 ++ oddSlots.flatMap entryBytes
          ++ [0, 0] ++ [10, 11, 12, 13, 14, 15, 16, 17, 18, 19])
      ∧ ∃ again, ofImage ⟨2, 3⟩ ([202, 250, 255, 95] ++ [4, 0, 34, 0] ++ Bytes.zeros 8
          ++ oddSlots.flatMap entryBytes ++ [0, 0] ++ [10, 11, 12, 13, 14, 15, 16, 17, 18, 19]) = .ok again
        ∧ again.slots = oddSlots ∧ again.cell? 2 = .ok (some [12, 13, 14, 15, 16, 17]) := by
  have read : ofImage ⟨1, 0⟩ oddImage = .ok odd :=
    eq_ok_of_toOption (by decide +kernel)
  obtain ⟨_, _, _, _, _, written, stored, _, reads⟩ := ofImage_faithful read
  obtain ⟨again, decoded, _, slots, _, _, cells⟩ := reads ⟨2, 3⟩
  have image : odd.image
      = .ok ([202, 250, 255, 95] ++ [4, 0, 34, 0] ++ Bytes.zeros 8 ++ oddSlots.flatMap entryBytes
        ++ [0, 0] ++ [10, 11, 12, 13, 14, 15, 16, 17, 18, 19]) := eq_ok_of_toOption (by decide +kernel)
  rw [image, Except.ok.injEq] at stored
  exact ⟨read, rfl, image, again, stored ▸ decoded, slots, (cells 2).trans rfl⟩

end HeapEngine.Page
