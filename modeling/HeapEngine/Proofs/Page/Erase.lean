import HeapEngine.Proofs.Page.Pack

/-! Erasing a cell changes nothing but its slot and the free slots at the end of the directory. -/

namespace HeapEngine.Page

/-- Trimming takes free slots off the end of the directory. -/
theorem trimFree_append (slots : List Slot) :
    ∃ tail, slots = trimFree slots ++ tail ∧ ∀ slot ∈ tail, slot.isFree = true :=
  SlotList.dropWhile_reverse_append Slot.isFree slots

/-- The slots left after trimming stood in the directory before. -/
theorem mem_of_mem_trimFree {slots : List Slot} {slot : Slot} (member : slot ∈ trimFree slots) :
    slot ∈ slots := by
  obtain ⟨tail, split, _⟩ := trimFree_append slots
  rw [split]
  exact List.mem_append_left tail member

theorem length_trimFree_le (slots : List Slot) : (trimFree slots).length ≤ slots.length := by
  obtain ⟨tail, split, _⟩ := trimFree_append slots
  have lengths := congrArg List.length split
  rw [List.length_append] at lengths
  omega

/-- Free slots take no room, so trimming them gives none back. -/
theorem total_trimFree (slots : List Slot) : Slot.total (trimFree slots) = Slot.total slots := by
  obtain ⟨tail, split, free⟩ := trimFree_append slots
  have nothing : Slot.total tail = 0 := by
    refine List.sum_eq_zero_iff_forall_eq_nat.2 fun length member => ?_
    obtain ⟨slot, listed, rfl⟩ := List.mem_map.1 member
    exact Slot.isFree_iff.1 (free slot listed)
  have parts := congrArg Slot.total split
  rw [Slot.total, Slot.total, List.map_append, List.sum_append] at parts
  unfold Slot.total at nothing ⊢
  omega

/-- Trimming the directory trims the list of cells. -/
theorem map_trimFree (buffer : Bytes) (slots : List Slot) :
    (trimFree slots).map (Slot.content buffer)
      = SlotList.trim (slots.map (Slot.content buffer)) := by
  -- A slot is free exactly if it shows nothing, so both stop at the same place.
  have nothing : Option.isNone ∘ Slot.content buffer = Slot.isFree := by
    funext slot
    simp
  have dropped : (slots.map (Slot.content buffer)).reverse.dropWhile Option.isNone
      = (slots.reverse.dropWhile Slot.isFree).map (Slot.content buffer) := by
    rw [← List.map_reverse, List.dropWhile_map, nothing]
  rw [trimFree, SlotList.trim, dropped, List.map_reverse]

/-- The page with one of its slots free, before the cells move together. -/
def vacate (page : Page) (index : Nat) : Page :=
  { page with slots := trimFree (page.slots.set index .free) }

variable {page : Page}

theorem cells_vacate (page : Page) (index : Nat) :
    (page.vacate index).cells = page.cells.remove index := by
  simp only [cells, vacate, map_trimFree, List.map_set, SlotList.remove]
  rfl

/-- A slot that is freed gives its length back. -/
theorem total_vacate {index : Nat} {slot : Slot} (found : page.slots[index]? = some slot) :
    Slot.total (page.vacate index).slots + slot.length = Slot.total page.slots := by
  rw [vacate, total_trimFree]
  exact Slot.total_set Slot.free found

/-- Freeing a slot makes the directory no longer. -/
theorem length_vacate_le (page : Page) (index : Nat) : (page.vacate index).slots.length ≤ page.slots.length := by
  have shorter := length_trimFree_le (page.slots.set index .free)
  rwa [List.length_set] at shorter

/-- Erasing a cell frees its slot and packs the cells that are left. -/
theorem erase_eq_pack {index : Nat} {slot : Slot} (found : page.slots[index]? = some slot)
    (used : slot.isFree = false) : page.erase index = (page.vacate index).pack := by
  simp [erase, found, used, vacate]

/-- Only a slot in use is erased. It is freed, and the cells that are left are packed. -/
theorem erase_eq_ok {index : Nat} {after : Page} (erased : page.erase index = .ok after) :
    ∃ slot, page.slots[index]? = some slot ∧ slot.isFree = false ∧ (page.vacate index).pack = .ok after := by
  cases found : page.slots[index]? with
  | none =>
    rw [erase, found] at erased
    cases erased
  | some slot =>
    cases used : slot.isFree with
    | true => simp [erase, found, used, fail] at erased
    | false => exact ⟨slot, rfl, used, (erase_eq_pack found used).symm.trans erased⟩

/-- Only a record that is stored on this page is erased, from a slot of its directory. -/
theorem eraseRecord_eq_ok {record : Record} {after : Page} (erased : page.eraseRecord record = .ok after) :
    ∃ place, record.place = some place ∧ place.page = page.id ∧ place.slot < page.slots.length
      ∧ page.erase place.slot = .ok after := by
  unfold eraseRecord at erased
  -- Each of the three refusals ends without a page.
  split at erased
  · cases erased
  rename_i place placed
  split at erased
  · cases erased
  rename_i here
  split at erased
  · cases erased
  rename_i within
  exact ⟨place, placed, Decidable.not_not.1 here, Nat.not_le.1 within, erased⟩

namespace Sound

/-- Freeing a slot gives room back and moves nothing. -/
theorem vacate (sound : page.Sound) (index : Nat) : (page.vacate index).Sound := by
  have from_ : ∀ slot ∈ (page.vacate index).slots, slot ∈ page.slots ∨ slot = .free := fun slot member =>
    List.mem_or_eq_of_mem_set (mem_of_mem_trimFree member)
  have total : Slot.total (page.vacate index).slots ≤ Slot.total page.slots := by
    cases found : page.slots[index]? with
    | some old =>
      have given := total_vacate found
      omega
    | none =>
      -- A slot that is not there is not set, so the directory stays what it is.
      have same := List.set_eq_of_length_le (a := Slot.free) (List.getElem?_eq_none_iff.1 found)
      rw [Page.vacate, total_trimFree]
      exact Nat.le_of_eq (congrArg Slot.total same)
  refine ⟨sound.large, sound.small, ?_, ?_, ?_, ?_⟩
  · have directory := sound.directory
    have shorter := page.length_vacate_le index
    unfold directoryEnd entrySize at directory ⊢
    have start : (page.vacate index).cellStart = page.cellStart := rfl
    omega
  · intro slot member used
    rcases from_ slot member with old | rfl
    · exact sound.inside slot old used
    · simp at used
  · have apart := sound.apart
    show page.cellStart + Slot.total (page.vacate index).slots ≤ page.size
    omega
  · intro slot member
    rcases from_ slot member with old | rfl
    · exact sound.words slot old
    · simp [Slot.free, wordLimit]

/-- There is nothing to erase beyond the directory. -/
theorem erase_beyond {index : Nat} (beyond : page.cells.length ≤ index) :
    page.erase index = fail (.noSlot index page.cells.length) := by
  rw [length_cells] at beyond ⊢
  simp [erase, List.getElem?_eq_none beyond]

/-- There is nothing to erase in a free slot. -/
theorem erase_free (sound : page.Sound) {index : Nat} (free : page.cells[index]? = some none) :
    page.erase index = fail (.noRecord page.id index) := by
  rw [getElem?_cells, Option.map_eq_some_iff] at free
  obtain ⟨slot, found, nothing⟩ := free
  have isFree : slot.isFree = true := by simpa using congrArg Option.isNone nothing
  have number := sound.index_lt (List.getElem?_eq_some_iff.1 found).1
  simp [erase, found, isFree, Nat.mod_eq_of_lt number]

/-- Erasing a cell empties its slot, and every other slot holds what it held before. -/
theorem erase_used (sound : page.Sound) {index : Nat} {cell : Bytes}
    (used : page.cells[index]? = some (some cell)) :
    ∃ after, page.erase index = .ok after ∧ page.Evolves after ∧ after.Packed
      ∧ after.cells = page.cells.remove index := by
  rw [getElem?_cells, Option.map_eq_some_iff] at used
  obtain ⟨slot, found, content⟩ := used
  have notFree : slot.isFree = false := by simpa using congrArg Option.isNone content
  -- After the slot was freed, the other cells move together.
  obtain ⟨after, packed, evolves, isPacked, cells⟩ := (sound.vacate index).pack_eq
  exact ⟨after, (erase_eq_pack found notFree).trans packed,
    ⟨evolves.id, evolves.size, evolves.changedBy, evolves.sound, fun _ => isPacked⟩, isPacked,
    by rw [cells, cells_vacate]⟩

/-- A slot with a cell is emptied, and any other one is refused. -/
theorem erase_ends (sound : page.Sound) (index : Nat) :
    (∃ after, page.erase index = .ok after ∧ page.Evolves after ∧ after.cells = page.cells.remove index)
      ∨ ∃ failure, page.erase index = fail failure := by
  cases held : page.cells[index]? with
  | none => exact .inr ⟨_, erase_beyond (List.getElem?_eq_none_iff.1 held)⟩
  | some content =>
    cases content with
    | none => exact .inr ⟨_, sound.erase_free held⟩
    | some cell =>
      obtain ⟨after, erased, evolves, _, cells⟩ := sound.erase_used held
      exact .inl ⟨after, erased, evolves, cells⟩

end Sound

end HeapEngine.Page
