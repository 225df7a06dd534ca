import HeapEngine.Page
import HeapEngine.Proofs.Bytes

/-!
Pages seen as lists of cells.

A sound page keeps its directory, its free space and its cells apart. What it holds is then a list of
optional cells under the slot numbers, and inserting puts a cell into that list.
-/

namespace HeapEngine

-- The empty sum is the core library's zero.
attribute [local instance (high)] Zero.ofOfNat0

/-- What a page holds under each slot number, with nothing under a free one. -/
abbrev SlotList := List (Option Bytes)

namespace SlotList

/-- The lowest slot that holds nothing. -/
def freeSlot? (list : SlotList) : Option Nat := list.findIdx? Option.isNone

/-- The list with a cell in its lowest free slot, or else in a new last one, and that slot. -/
def put (list : SlotList) (cell : Bytes) : SlotList × Nat :=
  match list.freeSlot? with
  | some index => (list.set index (some cell), index)
  | none => (list ++ [some cell], list.length)

/-- The list without the free slots at its end. -/
def trim (list : SlotList) : SlotList := (list.reverse.dropWhile Option.isNone).reverse

/-- The list with nothing in a slot, and without the free slots that are then at its end. -/
def remove (list : SlotList) (index : Nat) : SlotList := trim (list.set index none)

/-- The bytes of all cells together. -/
def total (list : SlotList) : Nat := (list.map fun cell => (cell.getD []).length).sum

/-- What is trimmed off the end of a list is all of the kind that is trimmed. -/
theorem dropWhile_reverse_append {α : Type} (trimmed : α → Bool) (list : List α) :
    ∃ tail, list = (list.reverse.dropWhile trimmed).reverse ++ tail
      ∧ ∀ entry ∈ tail, trimmed entry = true := by
  -- The tail is what the reversed list began with.
  refine ⟨(list.reverse.takeWhile trimmed).reverse, ?_, fun entry member => ?_⟩
  · rw [← List.reverse_append, List.takeWhile_append_dropWhile, List.reverse_reverse]
  · rw [List.mem_reverse] at member
    exact List.all_eq_true.1 List.all_takeWhile entry member

variable (list : SlotList) (cell : Bytes) (index slot : Nat)

/-- A slot off the end holds nothing, so trimming takes no cell. -/
theorem join_trim : (trim list)[slot]?.join = list[slot]?.join := by
  obtain ⟨tail, split, free⟩ := dropWhile_reverse_append Option.isNone list
  have whole : list[slot]? = (trim list ++ tail)[slot]? := congrArg (·[slot]?) split
  rcases Nat.lt_or_ge slot (trim list).length with within | past
  · rw [whole, List.getElem?_append_left within]
  · -- The slot is gone, and was free before.
    rw [whole, List.getElem?_eq_none past, List.getElem?_append_right past]
    cases found : tail[slot - (trim list).length]? with
    | none => rfl
    | some entry =>
      have nothing := free entry (List.mem_of_getElem? found)
      rw [Option.isNone_iff_eq_none.1 nothing]
      rfl

/-- A cell that is put into a list stands in its slot, and the other slots are as before. -/
theorem join_put : (list.put cell).1[slot]?.join
    = if slot = (list.put cell).2 then some cell else list[slot]?.join := by
  unfold put
  cases free : list.freeSlot? with
  | some found =>
    -- A free slot of the list is set, and the list is as long as before.
    obtain ⟨within, _⟩ := List.findIdx?_eq_some_iff_getElem.1 free
    simp only [List.getElem?_set]
    by_cases here : found = slot
    · subst here
      simp [within]
    · simp [here, Ne.symm here]
  | none =>
    simp only
    -- The new slot follows the old ones, and past it there is still nothing.
    rcases Nat.lt_trichotomy slot list.length with before | rfl | past
    · rw [List.getElem?_append_left before, if_neg (by omega)]
    · simp
    · rw [if_neg (by omega), List.getElem?_eq_none (by simp; omega), List.getElem?_eq_none (by omega)]

/-- A slot that is removed holds nothing, and the other slots are as before. -/
theorem join_remove : (list.remove index)[slot]?.join
    = if slot = index then none else list[slot]?.join := by
  rw [remove, join_trim, List.getElem?_set]
  by_cases here : index = slot
  · -- A slot that was not there holds nothing either.
    subst here
    by_cases within : index < list.length <;> simp [within]
  · simp [here, Ne.symm here]

end SlotList

namespace Slot

/-- The cell of a slot in a buffer, or nothing for a free slot. -/
def content (buffer : Bytes) (slot : Slot) : Option Bytes :=
  if slot.isFree then none else some (buffer.window slot.offset slot.length)

/-- The lengths of all cells together; a free slot has length zero. -/
def total (slots : List Slot) : Nat := (slots.map Slot.length).sum

@[simp] theorem isFree_free : free.isFree = true := rfl

theorem isFree_iff {slot : Slot} : slot.isFree = true ↔ slot.length = 0 := by simp [isFree]

theorem isFree_eq_false_iff {slot : Slot} : slot.isFree = false ↔ slot.length ≠ 0 := by
  simp [isFree]

/-- A slot holds nothing exactly if it is free. -/
@[simp] theorem isNone_content (buffer : Bytes) (slot : Slot) :
    (content buffer slot).isNone = slot.isFree := by
  unfold content
  cases slot.isFree <;> simp

/-- A slot shows the same cell in buffers that agree from some place before it on. -/
theorem content_congr {a b : Bytes} {slot : Slot} {place : Nat}
    (agree : a.drop place = b.drop place) (after : slot.isFree = false → place ≤ slot.offset) :
    content a slot = content b slot := by
  unfold content
  cases free : slot.isFree with
  | true => rfl
  | false =>
    have before := after free
    simp only [Bool.false_eq_true, ↓reduceIte, Option.some.injEq]
    rw [Bytes.window_drop _ a before, Bytes.window_drop _ b before, agree]

end Slot

namespace Page

/-- What the page holds under each slot number. -/
def cells (page : Page) : SlotList := page.slots.map (Slot.content page.buffer)

@[simp] theorem length_cells (page : Page) : page.cells.length = page.slots.length := by
  simp [cells]

theorem getElem?_cells (page : Page) (index : Nat) :
    page.cells[index]? = page.slots[index]?.map (Slot.content page.buffer) := by
  simp [cells]

/-- The lowest free slot of the directory is that of the list of cells. -/
theorem freeSlot?_cells (page : Page) : page.cells.freeSlot? = page.freeSlot? := by
  simp only [SlotList.freeSlot?, cells, freeSlot?, List.findIdx?_map]
  congr 1
  funext slot
  simp

/--
A page whose directory and cells keep apart.

Every cell lies among the cells, and there the cells have room side by side.
-/
structure Sound (page : Page) : Prop where
  large : headerSize + entrySize ≤ page.size
  /-- Offsets of cells fit words. -/
  small : page.size < wordLimit
  directory : page.directoryEnd ≤ page.cellStart
  inside : ∀ slot ∈ page.slots, slot.isFree = false →
    page.cellStart ≤ slot.offset ∧ slot.offset + slot.length ≤ page.size
  /-- Cells that overlap might need more room side by side than there is. -/
  apart : page.cellStart + Slot.total page.slots ≤ page.size
  words : ∀ slot ∈ page.slots, slot.offset < wordLimit ∧ slot.length < wordLimit

/-- A page whose directory and cells lie within it, wherever else they lie. -/
structure Contained (page : Page) : Prop where
  small : page.size < wordLimit
  directory : page.directoryEnd ≤ page.size
  start : page.cellStart ≤ page.size
  cells : ∀ slot ∈ page.slots, slot.isFree = false → slot.offset + slot.length ≤ page.size

/--
A page whose directory ends before its cells, each of which lies among the cells.

Some cells may overlap.
-/
structure Readable (page : Page) : Prop where
  large : headerSize + entrySize ≤ page.size
  small : page.size < wordLimit
  directory : page.directoryEnd ≤ page.cellStart
  within : page.cellStart ≤ page.size
  inside : ∀ slot ∈ page.slots, slot.isFree = false →
    page.cellStart ≤ slot.offset ∧ slot.offset + slot.length ≤ page.size
  words : ∀ slot ∈ page.slots, slot.offset < wordLimit ∧ slot.length < wordLimit

/-- A page whose cells fill all the space after the lowest one. -/
def Packed (page : Page) : Prop := page.cellStart + Slot.total page.slots = page.size

namespace Contained

variable {page : Page}

/-- The directory leaves room for fewer slots than a word can number. -/
theorem slots_lt (contained : page.Contained) : 4 * page.slots.length + 16 < wordLimit := by
  have directory := contained.directory
  have small := contained.small
  simp only [directoryEnd, headerSize, entrySize] at directory
  omega

/-- The cell of a used slot lies within the buffer. -/
theorem cellAt_eq (contained : page.Contained) {slot : Slot} (member : slot ∈ page.slots)
    (used : slot.isFree = false) :
    page.cellAt slot = .ok (page.buffer.window slot.offset slot.length) := by
  have within := contained.cells slot member used
  simp [cellAt, Nat.not_lt.2 within]

/-- Looking into a slot gives what the list of cells has there. -/
theorem cell?_eq (contained : page.Contained) (index : Nat) :
    page.cell? index = .ok page.cells[index]?.join := by
  rw [getElem?_cells]
  unfold cell?
  cases found : page.slots[index]? with
  | none => rfl
  | some slot =>
    simp only [Option.map_some, Option.join_some, Slot.content]
    cases used : slot.isFree with
    | true => rfl
    | false =>
      -- The cell of a used slot lies in the buffer, so looking at it does not trap.
      rw [contained.cellAt_eq (List.mem_of_getElem? found) used]
      rfl

end Contained

namespace Readable

variable {page : Page}

theorem contained (readable : page.Readable) : page.Contained where
  small := readable.small
  directory := Nat.le_trans readable.directory readable.within
  start := readable.within
  cells slot member used := (readable.inside slot member used).2

/-- The header alone keeps the cells away from the first bytes. -/
theorem headerSize_le (readable : page.Readable) : headerSize ≤ page.cellStart := by
  have := readable.directory
  unfold directoryEnd at this
  omega

theorem room_eq (readable : page.Readable) : page.room = .ok (page.cellStart - page.directoryEnd) := by
  simp [room, Nat.not_lt.2 readable.directory]

end Readable

namespace Sound

variable {page : Page}

theorem cellStart_le (sound : page.Sound) : page.cellStart ≤ page.size := by
  have := sound.apart
  omega

/-- Where cells have room side by side, they are still among the cells. -/
theorem readable (sound : page.Sound) : page.Readable :=
  ⟨sound.large, sound.small, sound.directory, sound.cellStart_le, sound.inside, sound.words⟩

theorem contained (sound : page.Sound) : page.Contained := sound.readable.contained

theorem headerSize_le (sound : page.Sound) : headerSize ≤ page.cellStart := sound.readable.headerSize_le

theorem slots_lt (sound : page.Sound) : 4 * page.slots.length + 16 < wordLimit := sound.contained.slots_lt

theorem room_eq (sound : page.Sound) : page.room = .ok (page.cellStart - page.directoryEnd) :=
  sound.readable.room_eq

/-- Asking for room has an answer for every length that a cell in memory can have. -/
theorem fits_eq (sound : page.Sound) {length : Nat} (addressable : length + entrySize < sizeLimit) :
    page.fits length
      = .ok (decide (length + page.entryCost ≤ page.cellStart - page.directoryEnd)) := by
  have cost : page.entryCost ≤ entrySize := by
    unfold entryCost
    split <;> simp [entrySize]
  simp only [fits, sound.room_eq, Bind.bind, Except.bind]
  -- The sum of the cell and its entry does not overflow.
  rw [if_neg (by omega)]

theorem cellAt_eq (sound : page.Sound) {slot : Slot} (member : slot ∈ page.slots)
    (used : slot.isFree = false) :
    page.cellAt slot = .ok (page.buffer.window slot.offset slot.length) :=
  sound.contained.cellAt_eq member used

theorem cell?_eq (sound : page.Sound) (index : Nat) :
    page.cell? index = .ok page.cells[index]?.join :=
  sound.contained.cell?_eq index

/-- The cells are as long together as the directory says. -/
theorem total_cells (sound : page.Sound) : page.cells.total = Slot.total page.slots := by
  simp only [SlotList.total, Slot.total, cells, List.map_map]
  congr 1
  refine List.map_congr_left fun slot member => ?_
  simp only [Function.comp_apply, Slot.content]
  cases used : slot.isFree with
  | true => simp [Slot.isFree_iff.1 used]
  | false => simp [Bytes.length_window (sound.inside slot member used).2]

end Sound

end Page

end HeapEngine
