import HeapEngine.Proofs.Page.Image

/-!
Pages that have an image, whatever their cells are.

Nothing is asked of the cells here, which may overlap. All that an image needs is that the directory and
the lowest cell lie within the page, and that is kept by every change that does not trap.
-/

namespace HeapEngine.Page

/-- The directory and the lowest cell lie within the page. -/
structure Encodable (page : Page) : Prop where
  large : headerSize + entrySize ≤ page.size
  directory : page.directoryEnd ≤ page.size
  cells : page.cellStart ≤ page.size

/-- The same page after a change: of the same size, with the same mark, and with an image still. -/
structure Reworks (before after : Page) : Prop where
  id : after.id = before.id
  size : after.size = before.size
  changedBy : after.changedBy = before.changedBy
  encodable : after.Encodable

variable {page changed : Page}

theorem Sound.encodable (sound : page.Sound) : page.Encodable where
  large := sound.large
  directory := Nat.le_trans sound.directory sound.cellStart_le
  cells := sound.cellStart_le

/-- A page that is read from an image has one. -/
theorem ofImage_encodable {id : PageId} {image : Bytes} (read : ofImage id image = .ok page) :
    page.Encodable := by
  obtain ⟨⟨large, small⟩, rfl | ⟨slots, cellStart, rfl, entries, start, within⟩⟩ := ofImage_cases read
  · exact (empty_sound id large (Nat.le_of_lt_succ small)).1.encodable
  · have directory : directoryEnd ⟨id, slots, cellStart, image, none⟩ ≤ cellStart := by
      rwa [directoryEnd, (readEntries_eq_ok entries).1]
    exact ⟨large, Nat.le_trans directory within, within⟩

/-- Cells that are packed in turn fill what the page has after them, under as many slots as before. -/
theorem foldlM_packCell_eq_ok {entries : List (Slot × Nat)} {packing last : Packing}
    (packed : entries.foldlM page.packCell packing = .ok last) :
    last.start + last.cells.length = packing.start + packing.cells.length
      ∧ last.slots.length = packing.slots.length := by
  induction entries generalizing packing with
  | nil =>
    cases packed
    exact ⟨rfl, rfl⟩
  | cons entry rest ih =>
    rw [List.foldlM_cons] at packed
    obtain ⟨next, moved, later⟩ := Outcome.exists_of_bind packed
    obtain ⟨length, slots⟩ := ih later
    unfold packCell at moved
    simp only at moved
    split at moved
    · cases moved
    rename_i room
    obtain ⟨cell, found, placed⟩ := Outcome.exists_of_bind moved
    cases placed
    -- The cell that moves has the length that its slot says.
    unfold cellAt at found
    split at found
    · cases found
    rename_i within
    cases found
    have cell : (page.buffer.window entry.1.offset entry.1.length).length = entry.1.length :=
      Bytes.length_window (by unfold Page.size at within; omega)
    simp only [List.length_append, cell, List.length_set] at length slots
    refine ⟨?_, slots⟩
    omega

namespace Encodable

/-- The bytes before the checksum is set are as many as the page has. -/
theorem length_unsealed (encodable : page.Encodable) : page.unsealed.length = page.size := by
  have cells := encodable.cells
  unfold unsealed
  simp only [List.length_append, List.length_take, List.length_drop, Bytes.length_zeros]
  unfold Page.size at cells ⊢
  omega

theorem exists_image (encodable : page.Encodable) :
    ∃ image, page.image = .ok image ∧ image.length = page.size := by
  have large := encodable.large
  have length := encodable.length_unsealed
  simp only [headerSize, entrySize] at large
  have long : ¬ page.size < checksumSize + 4 := by
    unfold checksumSize
    omega
  have fits : ¬ (page.slots ≠ [] ∧ page.size < page.directoryEnd) := by
    intro beyond
    have directory := encodable.directory
    omega
  refine ⟨checksumBytes page.unsealed ++ page.unsealed.drop checksumSize, ?_, ?_⟩
  · rw [image, if_neg long, if_neg fits, if_neg (Nat.not_lt.2 encodable.cells)]
  · rw [List.length_append, length_checksumBytes, List.length_drop, length]
    unfold checksumSize
    omega

/-- A cell that goes in grows the directory and the cells towards each other, and no further. -/
theorem insert (encodable : page.Encodable) {cell : Bytes} {slot : Nat}
    (inserted : page.insert cell = .ok (changed, slot)) : page.Reworks changed := by
  have large := encodable.large
  -- The cell and its entry fit between the directory and the other cells.
  obtain ⟨_, rfl, room, within⟩ := eq_withCell_of_insert inserted
  have size : (page.withCell cell).size = page.size :=
    Bytes.length_overwrite (by unfold Page.size at within; omega)
  have entries := page.length_assign ⟨page.cellStart - cell.length, cell.length⟩
  have start : (page.withCell cell).cellStart = page.cellStart - cell.length := rfl
  have directory : (page.withCell cell).directoryEnd = page.directoryEnd + page.entryCost := by
    simp only [directoryEnd, withCell, entries]
    omega
  refine ⟨rfl, size, rfl, ?_, ?_, ?_⟩
  · rwa [size]
  · omega
  · omega

theorem insertRecord (encodable : page.Encodable) {record : Record} {place : RecordId}
    (inserted : page.insertRecord record = .ok (changed, place)) : page.Reworks changed := by
  obtain ⟨_, stored, told⟩ := Outcome.exists_of_bind inserted
  cases told
  exact encodable.insert stored

/-- Packing moves cells within the page, and the directory stays as long as it is. -/
theorem pack (encodable : page.Encodable) (packed : page.pack = .ok changed) :
    page.Reworks changed := by
  obtain ⟨packing, moved, told⟩ := Outcome.exists_of_bind packed
  cases told
  obtain ⟨length, slots⟩ := foldlM_packCell_eq_ok moved
  simp only [List.length_nil, Nat.add_zero] at length
  have size : (Bytes.zeros packing.start ++ packing.cells).length = page.size := by
    rw [List.length_append, Bytes.length_zeros, length]
  refine ⟨rfl, size, rfl, ?_, ?_, ?_⟩
  · show headerSize + entrySize ≤ (Bytes.zeros packing.start ++ packing.cells).length
    rw [size]
    exact encodable.large
  · have directory := encodable.directory
    show headerSize + packing.slots.length * entrySize ≤ (Bytes.zeros packing.start ++ packing.cells).length
    rw [size, slots]
    exact directory
  · show packing.start % wordLimit ≤ (Bytes.zeros packing.start ++ packing.cells).length
    have word := Nat.mod_le packing.start wordLimit
    omega

/-- A cell that is erased leaves a directory that is no longer. -/
theorem erase (encodable : page.Encodable) {slot : Nat} (erased : page.erase slot = .ok changed) :
    page.Reworks changed := by
  obtain ⟨_, _, _, packed⟩ := erase_eq_ok erased
  have vacated : (page.vacate slot).Encodable := by
    refine ⟨encodable.large, ?_, encodable.cells⟩
    have directory := encodable.directory
    have shorter := page.length_vacate_le slot
    show headerSize + (page.vacate slot).slots.length * entrySize ≤ page.size
    simp only [directoryEnd, entrySize] at directory ⊢
    omega
  have reworks := vacated.pack packed
  exact ⟨reworks.id, reworks.size, reworks.changedBy, reworks.encodable⟩

theorem eraseRecord (encodable : page.Encodable) {record : Record}
    (erased : page.eraseRecord record = .ok changed) : page.Reworks changed := by
  obtain ⟨_, _, _, _, cellErased⟩ := eraseRecord_eq_ok erased
  exact encodable.erase cellErased

end Encodable

end HeapEngine.Page
