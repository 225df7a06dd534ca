import HeapEngine.Proofs.Page.Layout

/-!
Pages computed in exact numbers.

Sizes and offsets are differences, and what a page stores of them are words of sixteen bits. The operations
are repeated here in numbers that do not give way: a difference below zero traps, and so does a number that
loses bits where it becomes a word. On a page that is laid out none of these traps is met.
-/

namespace HeapEngine

/-- A difference that must not lie below zero. -/
def minus (a b : Nat) : Outcome Nat := if a < b then trap .overflow else .ok (a - b)

/-- A number that must keep all of its bits as a word. -/
def word (number : Nat) : Outcome Nat := if number < Page.wordLimit then .ok number else trap .overflow

theorem minus_eq {a b : Nat} (below : b ≤ a) : minus a b = .ok (a - b) := by
  rw [minus, if_neg (Nat.not_lt.2 below)]

theorem word_eq {number : Nat} (small : number < Page.wordLimit) : word number = .ok number := by
  rw [word, if_pos small]

namespace Page

/-- An empty page, if its size is a word. -/
def emptyExactly (id : PageId) (size : Nat) : Outcome Page := do
  .ok ⟨id, [], ← word size, Bytes.zeros size, none⟩

/-- The room, where the header and the directory are subtracted in turn. -/
def roomExactly (page : Page) : Outcome Nat := do
  minus (← minus page.cellStart headerSize) (page.slots.length * entrySize)

/-- Whether a cell of a length can be inserted. -/
def fitsExactly (page : Page) (length : Nat) : Outcome Bool := do
  let room ← page.roomExactly
  if sizeLimit ≤ length + page.entryCost then trap .overflow
  else .ok (length + page.entryCost ≤ room)

/-- Stores a cell, where its length and its slot become words and the lowest cell moves down. -/
def insertExactly (page : Page) (cell : Bytes) : Outcome (Page × Nat) := do
  if cell = [] then fail (.encoding .emptyCell)
  else if !(← page.fitsExactly cell.length) then fail (.noRoom page.id)
  else
    let length ← word cell.length
    let offset ← minus page.cellStart length
    if page.size < page.cellStart then trap .outOfRange
    else
      let (slots, index) := page.assign ⟨offset, length⟩
      let buffer := page.buffer.overwrite offset cell
      .ok ({ page with slots, buffer, cellStart := offset }, ← word index)

/-- Moves one more cell, where its new place becomes a word. -/
def packCellExactly (page : Page) (packing : Packing) (entry : Slot × Nat) : Outcome Packing := do
  let (slot, index) := entry
  let start ← minus packing.start slot.length
  let cell ← page.cellAt slot
  let offset ← word start
  .ok ⟨start, cell ++ packing.cells, packing.slots.set index ⟨offset, slot.length⟩⟩

/-- Moves all cells to the end of the page, where the place of the lowest one becomes a word. -/
def packExactly (page : Page) : Outcome Page := do
  let packing ← (inUse page.slots).foldlM page.packCellExactly ⟨page.size, [], page.slots⟩
  let cellStart ← word packing.start
  .ok { page with
    slots := packing.slots
    cellStart
    buffer := Bytes.zeros packing.start ++ packing.cells }

/-- Erases a cell. A slot that is found free is told as a word. -/
def eraseExactly (page : Page) (index : Nat) : Outcome Page :=
  match page.slots[index]? with
  | none => fail (.noSlot index page.slots.length)
  | some slot =>
    if slot.isFree then do fail (.noRecord page.id (← word index))
    else packExactly { page with slots := trimFree (page.slots.set index .free) }

/-- Stores a record. -/
def insertRecordExactly (page : Page) (record : Record) : Outcome (Page × RecordId) := do
  let (page, slot) ← page.insertExactly record.encode
  .ok (page, ⟨page.id, slot⟩)

/-- Erases a record. -/
def eraseRecordExactly (page : Page) (record : Record) : Outcome Page :=
  match record.place with
  | none => fail (.misuse .unplacedOnPage)
  | some place =>
    if place.page ≠ page.id then fail (.misuse (.onOtherPage place page.id))
    else if page.slots.length ≤ place.slot then fail (.noRecord page.id place.slot)
    else page.eraseExactly place.slot

/-- The image of the page, where the number of slots becomes a word. -/
def imageExactly (page : Page) : Outcome Bytes := do
  let _ ← word page.slots.length
  page.image

/-- All records, where every slot is looked into under its number as a word. -/
def recordsExactly (page : Page) : Outcome (List Record) := do
  let found ← (List.range page.slots.length).mapM fun index => do page.record? (← word index)
  .ok (found.filterMap fun record => record)

/-- Changes a page in exact numbers. -/
def changeExactly (page : Page) : PageChange → Outcome Page
  | .insert cell => do return (← page.insertExactly cell).1
  | .erase slot => page.eraseExactly slot
  | .insertRecord record => do return (← page.insertRecordExactly record).1
  | .eraseRecord record => page.eraseRecordExactly record
  | .reload id => do ofImage id (← page.imageExactly)

variable {page after : Page}

/-- Cells that were packed are packed in exact numbers as well, if the lowest of them is a word. -/
theorem packCellExactly_eq {packing next : Packing} {entry : Slot × Nat} (small : packing.start < wordLimit)
    (moved : page.packCell packing entry = .ok next) : page.packCellExactly packing entry = .ok next := by
  have room := (packCell_eq_ok moved).1
  have within : packing.start - entry.1.length < wordLimit := Nat.lt_of_le_of_lt (Nat.sub_le _ _) small
  -- Neither the subtraction nor the word gives way, so both ways go on alike.
  unfold packCell at moved
  simp only [if_neg (Nat.not_lt.2 room), Nat.mod_eq_of_lt within] at moved
  obtain ⟨cell, found, placed⟩ := Outcome.exists_of_bind moved
  simp only [packCellExactly, minus_eq room, found, word_eq within, Bind.bind, Except.bind]
  exact placed

theorem foldlM_packCellExactly_eq {entries : List (Slot × Nat)} {packing last : Packing}
    (small : packing.start < wordLimit) (packed : entries.foldlM page.packCell packing = .ok last) :
    entries.foldlM page.packCellExactly packing = .ok last ∧ last.start ≤ packing.start := by
  -- Cells only move down, so every place is a word if the first one is.
  induction entries generalizing packing with
  | nil =>
    cases packed
    exact ⟨rfl, Nat.le_refl _⟩
  | cons entry rest ih =>
    rw [List.foldlM_cons] at packed
    obtain ⟨next, moved, later⟩ := Outcome.exists_of_bind packed
    obtain ⟨_, start, _⟩ := packCell_eq_ok moved
    obtain ⟨exactly, lower⟩ := ih (by omega) later
    refine ⟨?_, by omega⟩
    rw [List.foldlM_cons, packCellExactly_eq small moved]
    exact exactly

/-- A page that can be packed is packed in exact numbers, if its size is a word. -/
theorem packExactly_eq (small : page.size < wordLimit) (packed : page.pack = .ok after) :
    page.packExactly = .ok after := by
  obtain ⟨packing, folded, told⟩ := Outcome.exists_of_bind packed
  obtain ⟨exactly, lower⟩ := foldlM_packCellExactly_eq small folded
  have within : packing.start < wordLimit := Nat.lt_of_le_of_lt lower small
  rw [Nat.mod_eq_of_lt within] at told
  simp only [packExactly, exactly, word_eq within, Bind.bind, Except.bind]
  exact told

namespace Sound

theorem roomExactly_eq (sound : page.Sound) : page.roomExactly = page.room := by
  have header := sound.headerSize_le
  have directory := sound.directory
  unfold directoryEnd at directory
  -- The cells begin after the header, and after the directory that follows it.
  rw [sound.room_eq]
  simp only [roomExactly, minus_eq header, Bind.bind, Except.bind]
  rw [minus_eq (by omega), directoryEnd, Nat.sub_add_eq]

/-- A cell is stored in exact numbers: the room that it fits in is a word, and so is its length. -/
theorem insertExactly_eq (sound : page.Sound) {cell : Bytes} (addressable : cell.length + entrySize < sizeLimit) :
    page.insertExactly cell = page.insert cell := by
  have fitting : page.fitsExactly cell.length = page.fits cell.length := by
    rw [fitsExactly, fits, sound.roomExactly_eq]
  unfold insertExactly insert
  by_cases empty : cell = []
  · rw [if_pos empty, if_pos empty]
  rw [if_neg empty, if_neg empty, fitting, sound.fits_eq addressable]
  simp only [Bind.bind, Except.bind]
  by_cases fits : cell.length + page.entryCost ≤ page.cellStart - page.directoryEnd
  · -- A cell that fits is shorter than the page, whose size is a word.
    have within := sound.cellStart_le
    have small := sound.small
    have number := sound.assign_snd_lt ⟨page.cellStart - cell.length, cell.length⟩
    simp only [fits, decide_true, Bool.not_true, Bool.false_eq_true, ↓reduceIte,
      word_eq (show cell.length < wordLimit by omega), minus_eq (show cell.length ≤ page.cellStart by omega),
      word_eq number, Nat.mod_eq_of_lt number]
  · simp [fits]

/-- A cell is erased in exact numbers. -/
theorem eraseExactly_eq (sound : page.Sound) (index : Nat) : page.eraseExactly index = page.erase index := by
  unfold eraseExactly erase
  cases found : page.slots[index]? with
  | none => rfl
  | some slot =>
    simp only
    by_cases free : slot.isFree = true
    · have number := sound.index_lt (List.getElem?_eq_some_iff.1 found).1
      rw [if_pos free, if_pos free, word_eq number, Nat.mod_eq_of_lt number]
      rfl
    · rw [if_neg free, if_neg free]
      -- The cells that are left can be packed, and that is done in exact numbers.
      obtain ⟨after, packed, _⟩ := (sound.vacate index).pack_eq
      exact (packExactly_eq (sound.vacate index).small packed).trans packed.symm

theorem imageExactly_eq (sound : page.Sound) : page.imageExactly = page.image := by
  have few := sound.slots_lt
  rw [imageExactly, word_eq (by omega)]
  rfl

/-- Records are read from slots whose numbers are words. -/
theorem recordsExactly_eq (sound : page.Sound) : page.recordsExactly = page.records := by
  have words : ∀ index ∈ List.range page.slots.length, index < wordLimit := fun index member =>
    sound.index_lt (List.mem_range.1 member)
  unfold recordsExactly records
  generalize List.range page.slots.length = indices at words
  -- One slot after the other is looked into, in the same way by both.
  have same : (indices.mapM fun index => do page.record? (← word index))
      = indices.mapM fun index => page.record? (index % wordLimit) := by
    induction indices with
    | nil => rfl
    | cons index rest ih =>
      have number := words index List.mem_cons_self
      rw [List.mapM_cons, List.mapM_cons, ih fun other member => words other (List.mem_cons_of_mem _ member),
        word_eq number, Nat.mod_eq_of_lt number]
      rfl
  rw [same]

theorem insertRecordExactly_eq (sound : page.Sound) {record : Record}
    (addressable : record.encode.length + entrySize < sizeLimit) :
    page.insertRecordExactly record = page.insertRecord record := by
  rw [insertRecordExactly, insertRecord, sound.insertExactly_eq addressable]

theorem eraseRecordExactly_eq (sound : page.Sound) (record : Record) :
    page.eraseRecordExactly record = page.eraseRecord record := by
  unfold eraseRecordExactly eraseRecord
  cases record.place with
  | none => rfl
  | some place => simp only [sound.eraseExactly_eq]

/-- A change is the same in exact numbers. -/
theorem changeExactly_eq (sound : page.Sound) {change : PageChange} (addressable : change.Addressable) :
    page.changeExactly change = page.change change := by
  -- A cell in memory is so short that its length and the cost of an entry can be added.
  have limit : 2 ^ 63 + entrySize < sizeLimit := by decide
  cases change with
  | insert cell =>
    unfold PageChange.Addressable at addressable
    rw [changeExactly, Page.change, sound.insertExactly_eq (by omega)]
  | erase slot => exact sound.eraseExactly_eq slot
  | insertRecord record =>
    unfold PageChange.Addressable at addressable
    rw [changeExactly, Page.change, sound.insertRecordExactly_eq (by omega)]
  | eraseRecord record => exact sound.eraseRecordExactly_eq record
  | reload id => rw [changeExactly, Page.change, sound.imageExactly_eq]

end Sound

/-- What may be asked of a page next has an answer in exact numbers, and it is the same one. -/
structure Exact (page : Page) : Prop where
  /-- The room that is left is what the header, the directory and the cells do not need. -/
  room : ∃ room, page.room = .ok room ∧ page.roomExactly = .ok room
    ∧ 16 + 4 * page.slots.length + Slot.total page.slots + room = page.size
  records : page.recordsExactly = page.records ∧ ∃ result, page.records = Outcome.ofResult result
  change : ∀ change : PageChange, change.Addressable →
    page.changeExactly change = page.change change ∧ ∃ result, page.change change = Outcome.ofResult result

/-- On a page that is laid out no difference lies below zero, and no word loses bits. -/
theorem Layout.exact (layout : page.Layout) : page.Exact where
  room := by
    obtain ⟨room, told, whole⟩ := layout.exists_room
    exact ⟨room, told, layout.sound.roomExactly_eq.trans told, whole⟩
  records := ⟨layout.sound.recordsExactly_eq, _, layout.sound.records_eq⟩
  change := by
    intro change addressable
    refine ⟨layout.sound.changeExactly_eq addressable, ?_⟩
    rcases layout.change_ends addressable with ⟨after, changed, _⟩ | ⟨failure, refused⟩
    · exact ⟨.ok after, changed⟩
    · exact ⟨.error failure, refused⟩

/--
A page that began empty is laid out after every sequence of changes, and computes in exact numbers.

The directory ends before the cells begin, the cells tile the page from there to its end, slots that were
freed are blank, and the last slot is in use. So the room that is left is what the header, the directory and
the cells do not need, nothing is ever subtracted from less, and every number that becomes a word keeps its
bits.
-/
theorem changeAll_empty {id : PageId} {size : Nat} {changes : List PageChange} (least : 21 ≤ size)
    (most : size ≤ 65535) (addressable : ∀ change ∈ changes, change.Addressable) :
    emptyExactly id size = .ok (empty id size)
      ∧ ∃ page, (empty id size).changeAll changes = .ok page ∧ page.size = size
        ∧ 16 + 4 * page.slots.length ≤ page.cellStart ∧ page.cellStart ≤ size
        ∧ page.Layout ∧ page.Exact := by
  have small : size < wordLimit := by
    unfold wordLimit
    omega
  obtain ⟨layout, sized⟩ := empty_layout id (Nat.le_of_succ_le least) most
  obtain ⟨page, ran, laid, same⟩ := layout.changeAll_ends addressable
  -- The bounds are those of a sound page, in numbers.
  refine ⟨?_, page, ran, same.trans sized, ?_, ?_, laid, laid.exact⟩
  · rw [emptyExactly, word_eq small, empty, Nat.mod_eq_of_lt small]
    rfl
  · have directory := laid.sound.directory
    simp only [directoryEnd, headerSize, entrySize] at directory
    omega
  · rw [← sized, ← same]
    exact laid.sound.cellStart_le

/-- A slot is freed, kept in an image and used again, a cell finds no room, and the last slot goes. -/
def crowding : List PageChange :=
  [.insert [1, 2], .insert [3, 4, 5], .erase 0, .reload ⟨1, 0⟩, .insertRecord ⟨none, []⟩, .insert [6, 7, 8, 9],
    .eraseRecord ⟨some ⟨⟨1, 0⟩, 1⟩, []⟩]

theorem changeAll_empty_crowding :
    (21 ≤ 30 ∧ 30 ≤ 65535 ∧ ∀ change ∈ crowding, change.Addressable)
      ∧ emptyExactly ⟨1, 0⟩ 30 = .ok (empty ⟨1, 0⟩ 30)
      ∧ ∃ page, (empty ⟨1, 0⟩ 30).changeAll crowding = .ok page ∧ page.size = 30
        ∧ 16 + 4 * page.slots.length ≤ page.cellStart ∧ page.cellStart ≤ 30
        ∧ page.Layout ∧ page.Exact := by
  have least : 21 ≤ 30 := by decide
  have most : 30 ≤ 65535 := by decide
  have short : (Record.encode ⟨none, []⟩).length < 2 ^ 63 := by decide
  have addressable : ∀ change ∈ crowding, change.Addressable := by
    simp [crowding, PageChange.Addressable, short]
  exact ⟨⟨least, most, addressable⟩, changeAll_empty least most addressable⟩

/-- A page of one byte more than a word can tell has no place for its cells. -/
example (id : PageId) : emptyExactly id 65536 = trap .overflow := rfl

end Page

end HeapEngine
