import HeapEngine.Proofs.Operation
import HeapEngine.Proofs.Page.Cells

/-! Inserting a cell changes nothing but the slot that the cell goes to. -/

namespace HeapEngine

namespace Slot

/-- A new last slot adds the length of its cell. -/
theorem total_append (slots : List Slot) (entry : Slot) :
    total (slots ++ [entry]) = total slots + entry.length := by simp [total]

/-- A slot that is set gives its old length away for the new one. -/
theorem total_set {slots : List Slot} {index : Nat} {old : Slot} (entry : Slot)
    (found : slots[index]? = some old) :
    total (slots.set index entry) + old.length = total slots + entry.length := by
  -- Setting walks down to the slot, so the slots before it count the same on both sides.
  induction slots generalizing index with
  | nil => simp at found
  | cons head rest ih =>
    cases index with
    | zero =>
      simp only [List.getElem?_cons_zero, Option.some.injEq] at found
      subst found
      simp only [total, List.set_cons_zero, List.map_cons, List.sum_cons]
      omega
    | succ index =>
      have inner := ih (by simpa using found)
      simp only [total, List.set_cons_succ, List.map_cons, List.sum_cons] at inner ⊢
      omega

end Slot

namespace Page

/-- A later form of a page: the same page of the same size with the same mark, and sound. -/
structure Evolves (before after : Page) : Prop where
  id : after.id = before.id
  size : after.size = before.size
  changedBy : after.changedBy = before.changedBy
  sound : after.Sound
  packed : before.Packed → after.Packed

variable {page : Page}

/-- The lowest free slot is a slot of the directory that is free. -/
theorem freeSlot?_some {index : Nat} (found : page.freeSlot? = some index) :
    ∃ old, page.slots[index]? = some old ∧ old.isFree = true := by
  obtain ⟨within, free, _⟩ := List.findIdx?_eq_some_iff_getElem.1 found
  exact ⟨page.slots[index], List.getElem?_eq_getElem within, free⟩

/-- The cell goes under the slot that the list of cells would give it. -/
theorem assign_snd (entry : Slot) (cell : Bytes) :
    (page.assign entry).2 = (page.cells.put cell).2 := by
  simp only [assign, SlotList.put, freeSlot?_cells, length_cells]
  cases page.freeSlot? <;> rfl

/-- A cell is put into the lowest free slot, or else into a new last one. -/
theorem put_snd (page : Page) (cell : Bytes) : (page.cells.put cell).2 = page.freeSlot?.getD page.slots.length := by
  simp only [SlotList.put, freeSlot?_cells, length_cells]
  cases page.freeSlot? <;> rfl

/-- A buffer that shows the old cells and the new one shows the list with the cell put in. -/
theorem map_assign {buffer cell : Bytes} {entry : Slot}
    (new : Slot.content buffer entry = some cell)
    (old : ∀ slot ∈ page.slots, Slot.content buffer slot = Slot.content page.buffer slot) :
    (page.assign entry).1.map (Slot.content buffer) = (page.cells.put cell).1 := by
  have same : page.slots.map (Slot.content buffer) = page.cells := List.map_congr_left old
  simp only [assign, SlotList.put, freeSlot?_cells]
  -- The directory and the list of cells choose the same slot.
  cases page.freeSlot? with
  | some index => simp [List.map_set, same, new]
  | none => simp [same, new]

/-- Assigning a slot brings in no entry but its own. -/
theorem mem_assign {entry slot : Slot} (member : slot ∈ (page.assign entry).1) :
    slot = entry ∨ slot ∈ page.slots := by
  unfold assign at member
  cases free : page.freeSlot? with
  | some index =>
    rw [free] at member
    exact (List.mem_or_eq_of_mem_set member).symm
  | none =>
    rw [free] at member
    simpa [or_comm] using member

/-- The cells take as much more room as the new one is long. -/
theorem total_assign (entry : Slot) :
    Slot.total (page.assign entry).1 = Slot.total page.slots + entry.length := by
  unfold assign
  cases free : page.freeSlot? with
  | some index =>
    -- The entry that gives way is free, so its length is zero.
    obtain ⟨old, found, isFree⟩ := freeSlot?_some free
    have lengths := Slot.total_set entry found
    rw [Slot.isFree_iff.1 isFree] at lengths
    simpa using lengths
  | none => exact Slot.total_append _ _

/-- The directory grows by the cost of one more entry. -/
theorem length_assign (entry : Slot) :
    (page.assign entry).1.length * entrySize = page.slots.length * entrySize + page.entryCost := by
  unfold assign entryCost
  -- A free slot costs nothing, and a new one costs an entry.
  cases page.freeSlot? with
  | some index => simp
  | none => simp [Nat.add_mul]

/-- The page with a cell stored right below the others. -/
def withCell (page : Page) (cell : Bytes) : Page :=
  let offset := page.cellStart - cell.length
  { page with
    slots := (page.assign ⟨offset, cell.length⟩).1
    buffer := page.buffer.overwrite offset cell
    cellStart := offset }

section Room

variable {changed : Page} {cell : Bytes} {slot : Nat}

/-- A length that fits lies with its entry between the directory and the cells. -/
theorem le_of_fits {length : Nat} (fits : page.fits length = .ok true) :
    page.directoryEnd + length + page.entryCost ≤ page.cellStart := by
  obtain ⟨room, counted, fitting⟩ := Outcome.exists_of_bind fits
  unfold Page.room at counted
  split at counted
  · cases counted
  cases counted
  split at fitting
  · cases fitting
  · simp only [Except.ok.injEq, decide_eq_true_eq] at fitting
    omega

/-- A cell that went in is not empty and lies right below the others, and it fits there with its entry. -/
theorem eq_withCell_of_insert (inserted : page.insert cell = .ok (changed, slot)) :
    cell ≠ [] ∧ changed = page.withCell cell
      ∧ page.directoryEnd + cell.length + page.entryCost ≤ page.cellStart ∧ page.cellStart ≤ page.size := by
  unfold insert at inserted
  split at inserted
  · cases inserted
  rename_i nonempty
  obtain ⟨fitting, counted, placed⟩ := Outcome.exists_of_bind inserted
  split at placed
  · cases placed
  rename_i fits
  split at placed
  · cases placed
  rename_i within
  cases placed
  have room := le_of_fits (counted.trans (congrArg Except.ok (by simpa using fits)))
  exact ⟨nonempty, rfl, room, Nat.not_lt.1 within⟩

/-- A cell goes in where there is room for it and for its entry. -/
theorem insert_eq_ok (nonempty : cell ≠ [])
    (room : page.directoryEnd + cell.length + page.entryCost ≤ page.cellStart)
    (within : page.cellStart ≤ page.size) (addressable : page.cellStart < sizeLimit) :
    page.insert cell
      = .ok (page.withCell cell, (page.assign ⟨page.cellStart - cell.length, cell.length⟩).2 % wordLimit) := by
  have header : ¬ page.cellStart < page.directoryEnd := by omega
  have countable : ¬ sizeLimit ≤ cell.length + page.entryCost := by omega
  have fits : cell.length + page.entryCost ≤ page.cellStart - page.directoryEnd := by omega
  simp [insert, nonempty, Page.fits, Page.room, header, countable, fits, Nat.not_lt.2 within, withCell,
    Bind.bind, Except.bind]

end Room

namespace Sound

variable {cell : Bytes}

/-- A slot number is a word. -/
theorem index_lt (sound : page.Sound) {index : Nat} (within : index < page.slots.length) :
    index < wordLimit := by
  have few := sound.slots_lt
  omega

/-- The slot that is assigned is a word, as the directory with one more entry fits the page. -/
theorem assign_snd_lt (sound : page.Sound) (entry : Slot) : (page.assign entry).2 < wordLimit := by
  have few := sound.slots_lt
  unfold assign
  cases free : page.freeSlot? with
  | some index =>
    obtain ⟨old, found, _⟩ := freeSlot?_some free
    exact sound.index_lt (List.getElem?_eq_some_iff.1 found).1
  | none =>
    simp only
    omega

/-- A cell goes in exactly if it fits between the directory and the other cells. -/
theorem insert_eq (sound : page.Sound) (nonempty : cell ≠ [])
    (addressable : cell.length + entrySize < sizeLimit) :
    page.insert cell =
      if cell.length + page.entryCost ≤ page.cellStart - page.directoryEnd then
        .ok (page.withCell cell, (page.cells.put cell).2)
      else fail (.noRoom page.id) := by
  have within := sound.cellStart_le
  simp only [insert, nonempty, sound.fits_eq addressable, Bind.bind, Except.bind, ↓reduceIte]
  by_cases fits : cell.length + page.entryCost ≤ page.cellStart - page.directoryEnd
  · -- The slot is a word already, since the directory has fewer slots than a word can number.
    have number := sound.assign_snd_lt ⟨page.cellStart - cell.length, cell.length⟩
    rw [assign_snd _ cell] at number
    simp [fits, Nat.not_lt.2 within, withCell, assign_snd _ cell, Nat.mod_eq_of_lt number]
  · simp [fits]

/-- The page with a cell that fits is sound, and it holds the cells with that one put in. -/
theorem withCell_evolves (sound : page.Sound) (nonempty : cell ≠ [])
    (fits : cell.length + page.entryCost ≤ page.cellStart - page.directoryEnd) :
    page.Evolves (page.withCell cell) ∧ (page.withCell cell).cells = (page.cells.put cell).1 := by
  have within := sound.cellStart_le
  have directory := sound.directory
  have below : cell.length ≤ page.cellStart := by omega
  have size : (page.withCell cell).size = page.size :=
    Bytes.length_overwrite (by unfold size at within; omega)
  -- Nothing at or above the old cells moves.
  have kept : (page.withCell cell).buffer.drop page.cellStart = page.buffer.drop page.cellStart :=
    Bytes.drop_overwrite (by unfold Page.size at within; omega) (by omega)
  refine ⟨⟨rfl, size, rfl, ?_, ?_⟩, ?_⟩
  · -- The directory grows into the free space from below, and the cells from above.
    have small := sound.small
    have entries : (page.withCell cell).directoryEnd = page.directoryEnd + page.entryCost := by
      simp only [directoryEnd, withCell, length_assign]
      omega
    have start : (page.withCell cell).cellStart = page.cellStart - cell.length := rfl
    refine ⟨by rw [size]; exact sound.large, by rw [size]; exact small, by omega, ?_, ?_, ?_⟩
    · intro slot member used
      rw [size, start]
      -- The new cell begins the cells, and the old ones lie after it as before.
      rcases mem_assign member with rfl | old
      · exact ⟨Nat.le_refl _, by simp only; omega⟩
      · have inside := sound.inside slot old used
        omega
    · have apart := sound.apart
      rw [size, start]
      simp only [withCell, total_assign]
      omega
    · intro slot member
      rcases mem_assign member with rfl | old
      · simp only
        omega
      · exact sound.words slot old
  · -- The room that the cell takes is the room that the cells lose.
    intro packed
    unfold Packed at packed ⊢
    rw [size]
    simp only [withCell, total_assign]
    omega
  · refine map_assign ?_ fun slot member => ?_
    · -- The new slot shows the bytes that were just written.
      have used : Slot.isFree ⟨page.cellStart - cell.length, cell.length⟩ = false := by
        simpa [Slot.isFree] using nonempty
      have seen : (page.buffer.overwrite (page.cellStart - cell.length) cell).drop
          (page.cellStart - cell.length) = cell ++ page.buffer.drop (page.cellStart - cell.length + cell.length) :=
        Bytes.drop_overwrite_self (by unfold Page.size at within; omega)
      simp [Slot.content, used, withCell, Bytes.window, seen]
    · exact Slot.content_congr kept fun used => (sound.inside slot member used).1

/-- A cell goes where the list of cells puts it, or it is refused. -/
theorem insert_ends (sound : page.Sound) (addressable : cell.length + entrySize < sizeLimit) :
    (∃ after, page.insert cell = .ok (after, (page.cells.put cell).2) ∧ page.Evolves after
        ∧ after.cells = (page.cells.put cell).1)
      ∨ ∃ failure, page.insert cell = fail failure := by
  by_cases nonempty : cell = []
  · subst nonempty
    exact .inr ⟨.encoding .emptyCell, rfl⟩
  rw [sound.insert_eq nonempty addressable]
  split
  · rename_i fits
    obtain ⟨evolves, cells⟩ := sound.withCell_evolves nonempty fits
    exact .inl ⟨page.withCell cell, rfl, evolves, cells⟩
  · exact .inr ⟨.noRoom page.id, rfl⟩

end Sound

end Page

end HeapEngine
