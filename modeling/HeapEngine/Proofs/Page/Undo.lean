import HeapEngine.Proofs.Page.Layout

/-!
Erasing a cell that was just inserted gives the page back as it was, byte for byte.

Erasing moves all cells of a page, so the page could come back with its cells at other places. It does not, as
cells that already lie side by side up to the end of a page are packed where they are.
-/

namespace HeapEngine.Page

variable {page after : Page}

section Packing

/-- The slots in use stand in the order in which their cells lie, the highest first. -/
theorem pairwise_inUse (slots : List Slot) :
    (inUse slots).Pairwise fun higher lower => lower.1.offset ≤ higher.1.offset := by
  let higher (a b : Slot × Nat) : Bool := decide (b.1.offset ≤ a.1.offset)
  have trans (a b c : Slot × Nat) (first : higher a b = true) (second : higher b c = true) : higher a c = true := by
    simp only [higher, decide_eq_true_eq] at first second ⊢
    omega
  have total (a b : Slot × Nat) : (higher a b || higher b a) = true := by
    simp only [higher, Bool.or_eq_true, decide_eq_true_eq]
    omega
  have sorted := List.pairwise_mergeSort trans total (slots.zipIdx.filter fun entry => !entry.1.isFree)
  simpa [inUse, higher] using sorted

/-- Whether a place belongs to the cell of one of some entries, under its slot number. -/
def Lies (entries : List (Slot × Nat)) (index place : Nat) : Prop :=
  ∃ slot : Slot, (slot, index) ∈ entries ∧ slot.Covers place

/-- Every place of a cell belongs to a slot in use. -/
theorem lies_inUse {slots : List Slot} {index place : Nat} :
    Lies (inUse slots) index place ↔ Slot.Takes slots index place := by
  constructor
  · rintro ⟨slot, member, covers⟩
    exact ⟨slot, (mem_inUse.1 member).1, covers⟩
  · rintro ⟨slot, found, covers⟩
    exact ⟨slot, mem_inUse.2 ⟨found, covers.used⟩, covers⟩

/-- Entries of a directory, each with a cell and the highest cell first, whose cells tile a range. -/
structure Stacked (slots : List Slot) (entries : List (Slot × Nat)) (start stop : Nat) : Prop where
  listed : ∀ entry ∈ entries, slots[entry.2]? = some entry.1 ∧ entry.1.isFree = false
  distinct : (entries.map Prod.snd).Nodup
  descending : entries.Pairwise fun higher lower => lower.1.offset ≤ higher.1.offset
  tiles : Tiles (Lies entries) start stop

/-- The slots in use are stacked where the cells of a directory tile a range. -/
theorem stacked_inUse {slots : List Slot} {start stop : Nat} (tiles : Tiles (Slot.Takes slots) start stop) :
    Stacked slots (inUse slots) start stop where
  listed _ member := mem_inUse.1 member
  distinct := nodup_inUse slots
  descending := pairwise_inUse slots
  tiles := tiles.congr fun _ _ => lies_inUse

namespace Stacked

variable {slots : List Slot} {entry : Slot × Nat} {rest : List (Slot × Nat)} {start stop : Nat}

/-- A cell is not empty, so it has its first place. -/
theorem lies_offset (stacked : Stacked slots (entry :: rest) start stop) :
    Lies (entry :: rest) entry.2 entry.1.offset := by
  have used := Slot.isFree_eq_false_iff.1 (stacked.listed entry List.mem_cons_self).2
  exact ⟨entry.1, List.mem_cons_self, Nat.le_refl _, by omega⟩

/-- The highest cell ends where the range does. -/
theorem offset_add_length (stacked : Stacked slots (entry :: rest) start stop) :
    entry.1.offset + entry.1.length = stop := by
  have used := Slot.isFree_eq_false_iff.1 (stacked.listed entry List.mem_cons_self).2
  have first := stacked.tiles.within stacked.lies_offset
  have last : Lies (entry :: rest) entry.2 (entry.1.offset + entry.1.length - 1) :=
    ⟨entry.1, List.mem_cons_self, by unfold Slot.Covers; omega⟩
  have most := stacked.tiles.within last
  apply Decidable.byContradiction
  intro short
  -- The last place of the range would belong to a cell that begins no higher, and so has this first place too.
  have from_ : start ≤ stop - 1 := by omega
  have before : stop - 1 < stop := by omega
  obtain ⟨index, slot, member, covers⟩ := stacked.tiles.covered from_ before
  unfold Slot.Covers at covers
  have lower : slot.offset ≤ entry.1.offset := by
    rcases List.mem_cons.1 member with rfl | later
    · exact Nat.le_refl _
    · exact (List.pairwise_cons.1 stacked.descending).1 _ later
  have shared : Lies (entry :: rest) index entry.1.offset := ⟨slot, member, lower, by omega⟩
  have same : index = entry.2 := stacked.tiles.apart shared stacked.lies_offset
  -- One slot number has one slot, whose cell ends before that place.
  have found := (stacked.listed _ member).1
  simp only [same, (stacked.listed entry List.mem_cons_self).1, Option.some.injEq] at found
  rw [← found] at covers
  omega

/-- The cells below the highest one tile what is left of the range. -/
theorem tail (stacked : Stacked slots (entry :: rest) start stop) : Stacked slots rest start entry.1.offset := by
  have ends := stacked.offset_add_length
  have fresh := (List.nodup_cons.1 stacked.distinct).1
  refine ⟨fun other member => stacked.listed other (List.mem_cons_of_mem _ member),
    (List.nodup_cons.1 stacked.distinct).2, (List.pairwise_cons.1 stacked.descending).2, ?_, ?_, ?_⟩
  · rintro index place ⟨slot, member, covers⟩
    have among : Lies (entry :: rest) index place := ⟨slot, List.mem_cons_of_mem _ member, covers⟩
    have inside := stacked.tiles.within among
    refine ⟨inside.1, Nat.not_le.1 fun high => ?_⟩
    -- From there on all places belong to the highest cell, whose slot number is not met again.
    have taken : Lies (entry :: rest) entry.2 place :=
      ⟨entry.1, List.mem_cons_self, by unfold Slot.Covers; omega⟩
    have same := stacked.tiles.apart among taken
    exact fresh (same ▸ List.mem_map_of_mem (f := Prod.snd) member)
  · intro place from_ before
    obtain ⟨index, slot, member, covers⟩ := stacked.tiles.covered from_ (by omega)
    rcases List.mem_cons.1 member with rfl | later
    · -- The highest cell begins behind this place.
      unfold Slot.Covers at covers
      simp only at before
      omega
    · exact ⟨index, slot, later, covers⟩
  · rintro index other place ⟨slot, member, covers⟩ ⟨otherSlot, otherMember, alsoCovers⟩
    exact stacked.tiles.apart ⟨slot, List.mem_cons_of_mem _ member, covers⟩
      ⟨otherSlot, List.mem_cons_of_mem _ otherMember, alsoCovers⟩

/-- The highest cell is packed where it is. -/
theorem packCell (stacked : Stacked page.slots (entry :: rest) start stop) (within : stop ≤ page.size)
    (small : page.size < wordLimit) :
    page.packCell ⟨stop, page.buffer.drop stop, page.slots⟩ entry
      = .ok ⟨entry.1.offset, page.buffer.drop entry.1.offset, page.slots⟩ := by
  have ends := stacked.offset_add_length
  obtain ⟨found, _⟩ := stacked.listed entry List.mem_cons_self
  have lower : stop - entry.1.length = entry.1.offset := by omega
  have word : entry.1.offset % wordLimit = entry.1.offset := Nat.mod_eq_of_lt (by omega)
  have room : ¬ stop < entry.1.length := by omega
  have inside : ¬ page.size < entry.1.offset + entry.1.length := by omega
  -- The cell and what was packed before are what the buffer has from the cell on.
  have bytes : page.buffer.window entry.1.offset entry.1.length ++ page.buffer.drop stop
      = page.buffer.drop entry.1.offset := by
    rw [Bytes.window, ← ends, ← List.drop_drop]
    exact List.take_append_drop _ _
  have still : page.slots.set entry.2 ⟨entry.1.offset, entry.1.length⟩ = page.slots := by
    obtain ⟨listed, stands⟩ := List.getElem?_eq_some_iff.1 found
    rw [← stands]
    exact List.set_getElem_self listed
  simp [Page.packCell, cellAt, room, inside, lower, word, bytes, still, Bind.bind, Except.bind]

/-- Cells that tile a range are packed where they are. -/
theorem foldlM_packCell {entries : List (Slot × Nat)} (stacked : Stacked page.slots entries start stop)
    (below : start ≤ stop) (within : stop ≤ page.size) (small : page.size < wordLimit) :
    entries.foldlM page.packCell ⟨stop, page.buffer.drop stop, page.slots⟩
      = .ok ⟨start, page.buffer.drop start, page.slots⟩ := by
  -- After the highest cell the others tile the range below it.
  induction entries generalizing stop with
  | nil =>
    have same : start = stop := by
      apply Decidable.byContradiction
      intro apart
      -- A range without cells has no place.
      obtain ⟨index, slot, member, _⟩ := stacked.tiles.covered (Nat.le_refl start) (by omega)
      cases member
    rw [same]
    rfl
  | cons entry rest ih =>
    have first := stacked.tiles.within stacked.lies_offset
    have ends := stacked.offset_add_length
    rw [List.foldlM_cons, stacked.packCell within small]
    exact ih stacked.tail first.1 (by omega)

end Stacked

/-- The page with what it has from a place on, and nothing before that. -/
def keptFrom (page : Page) (start : Nat) : Page :=
  { page with cellStart := start, buffer := Bytes.zeros start ++ page.buffer.drop start }

/-- Packing a page whose cells tile its end moves nothing. -/
theorem pack_of_tiles {start : Nat} (tiles : Tiles (Slot.Takes page.slots) start page.size)
    (below : start ≤ page.size) (small : page.size < wordLimit) : page.pack = .ok (page.keptFrom start) := by
  have nothing : page.buffer.drop page.size = [] := List.drop_length
  have folded := (stacked_inUse tiles).foldlM_packCell below (Nat.le_refl _) small
  rw [nothing] at folded
  rw [pack, folded]
  simp [Bind.bind, Except.bind, keptFrom, Nat.mod_eq_of_lt (Nat.lt_of_le_of_lt below small)]

end Packing

section Directory

/-- Nothing is trimmed where the last slot is in use. -/
theorem trimFree_of_last {slots : List Slot}
    (last : ∀ slot, slots.getLast? = some slot → slot.isFree = false) : trimFree slots = slots := by
  have stops : slots.reverse.dropWhile Slot.isFree = slots.reverse := by
    cases turned : slots.reverse with
    | nil => rfl
    | cons slot rest =>
      have used := last slot (by rw [← List.head?_reverse, turned, List.head?_cons])
      simp [used]
  rw [trimFree, stops, List.reverse_reverse]

/-- Freeing the slot that was just assigned gives the directory back, once it is trimmed. -/
theorem trimFree_assign (blank : ∀ slot ∈ page.slots, slot.isFree = true → slot = .free)
    (last : ∀ slot, page.slots.getLast? = some slot → slot.isFree = false) (entry : Slot) :
    trimFree ((page.assign entry).1.set (page.assign entry).2 .free) = page.slots := by
  unfold assign
  cases free : page.freeSlot? with
  | some index =>
    -- The slot that was used again was blank before.
    obtain ⟨old, found, isFree⟩ := freeSlot?_some free
    obtain ⟨within, stands⟩ := List.getElem?_eq_some_iff.1 found
    have before : page.slots[index] = .free := stands.trans (blank old (List.mem_of_getElem? found) isFree)
    simp only [List.set_set]
    rw [← before, List.set_getElem_self]
    exact trimFree_of_last last
  | none =>
    -- The new slot is the last one, so it is trimmed, and the one before it is in use.
    have trimmed : trimFree (page.slots ++ [.free]) = trimFree page.slots := by
      simp [trimFree, Slot.free, Slot.isFree]
    simp only [List.set_append_right _ _ (Nat.le_refl _), Nat.sub_self, List.set_cons_zero]
    rw [trimmed, trimFree_of_last last]

end Directory

/--
A page is as another one was.

What may differ are bytes before the lowest cell. They have no meaning, and they are not stored.
-/
structure Restores (before after : Page) : Prop where
  id : after.id = before.id
  changedBy : after.changedBy = before.changedBy
  /-- The same directory, the same lowest cell, and the same bytes from there on. -/
  agrees : after.Agrees before
  /-- Both are stored as the same bytes. -/
  image : ∃ image, before.image = .ok image ∧ after.image = .ok image

namespace Layout

/-- The directory and the bytes from the lowest cell on are all that makes a page. -/
theorem restores_keptFrom (layout : page.Layout) {other : Page} (id : other.id = page.id)
    (changedBy : other.changedBy = page.changedBy) (slots : other.slots = page.slots) (size : other.size = page.size)
    (kept : other.buffer.drop page.cellStart = page.buffer.drop page.cellStart) :
    page.Restores (other.keptFrom page.cellStart) := by
  have within := layout.sound.cellStart_le
  have agrees : (other.keptFrom page.cellStart).Agrees page := by
    refine ⟨slots, rfl, ?_, ?_⟩
    · show (Bytes.zeros page.cellStart ++ other.buffer.drop page.cellStart).length = page.size
      unfold Page.size at size within ⊢
      rw [List.length_append, Bytes.length_zeros, List.length_drop]
      omega
    · exact (List.drop_left' (Bytes.length_zeros _)).trans kept
  obtain ⟨image, encoded, _⟩ := layout.sound.exists_image
  exact ⟨id, changedBy, agrees, image, encoded, agrees.image.trans encoded⟩

/-- Erasing the cell that was stored last packs the others where they are. -/
theorem erase_withCell (layout : page.Layout) {cell : Bytes} (nonempty : cell ≠ [])
    (fits : cell.length + page.entryCost ≤ page.cellStart - page.directoryEnd) :
    ∃ restored, (page.withCell cell).erase (page.cells.put cell).2 = .ok restored ∧ page.Restores restored := by
  have within := layout.sound.cellStart_le
  have directory := layout.sound.directory
  let entry : Slot := ⟨page.cellStart - cell.length, cell.length⟩
  have used : entry.isFree = false := by simpa [entry, Slot.isFree] using nonempty
  have found : (page.withCell cell).slots[(page.assign entry).2]? = some entry := by
    have assigned := page.getElem?_assign entry (page.assign entry).2
    rwa [if_pos rfl] at assigned
  -- Without the new slot the directory is the old one.
  let vacated : Page := { page.withCell cell with slots := page.slots }
  have freed : (page.withCell cell).vacate (page.assign entry).2 = vacated :=
    congrArg (fun slots => { page.withCell cell with slots }) (trimFree_assign layout.blank layout.last entry)
  have size : vacated.size = page.size := Bytes.length_overwrite (by unfold Page.size at within; omega)
  -- The other cells are where they were, and they tile the end of the page.
  have kept : vacated.buffer.drop page.cellStart = page.buffer.drop page.cellStart :=
    Bytes.drop_overwrite (by unfold Page.size at within; omega) (by omega)
  have packed : vacated.pack = .ok (vacated.keptFrom page.cellStart) := by
    apply pack_of_tiles
    · rw [size]
      exact layout.tiles
    · omega
    · have small := layout.sound.small
      omega
  refine ⟨vacated.keptFrom page.cellStart, ?_, layout.restores_keptFrom rfl rfl rfl size kept⟩
  rw [← assign_snd entry cell, erase_eq_pack found used, freed, packed]

/-- A cell that was inserted can be erased, and then the page is as it was. -/
theorem erase_of_insert (layout : page.Layout) {cell : Bytes} {slot : Nat}
    (inserted : page.insert cell = .ok (after, slot)) :
    ∃ restored, after.erase slot = .ok restored ∧ page.Restores restored := by
  obtain ⟨nonempty, _, room, _⟩ := eq_withCell_of_insert inserted
  have fits : cell.length + page.entryCost ≤ page.cellStart - page.directoryEnd := by omega
  rw [layout.sound.insert_eq nonempty (layout.sound.addressable_of_insert inserted), if_pos fits] at inserted
  cases inserted
  exact layout.erase_withCell nonempty fits

/-- A record that was stored can be erased from its place, and then the page is as it was. -/
theorem eraseRecord_of_insertRecord (layout : page.Layout) {record : Record} {place : RecordId}
    (inserted : page.insertRecord record = .ok (after, place)) :
    ∃ restored, after.eraseRecord { record with place := some place } = .ok restored ∧ page.Restores restored := by
  obtain ⟨⟨stored, slot⟩, told, placed⟩ := Outcome.exists_of_bind inserted
  cases placed
  obtain ⟨restored, erased, restores⟩ := layout.erase_of_insert told
  refine ⟨restored, ?_, restores⟩
  -- A slot that can be erased is there.
  obtain ⟨_, found, _⟩ := erase_eq_ok erased
  have there : ¬ after.slots.length ≤ slot := Nat.not_le.2 (List.getElem?_eq_some_iff.1 found).1
  simpa [Page.eraseRecord, there] using erased

end Layout

/--
Erasing undoes inserting.

Take a page that began empty and was changed in any way, with as many bytes as a page can have. If a cell or a
record goes into it, whether into a slot that was used before or into a new one, then it can be erased under the
slot or the place that was told. This leaves the page with the directory and the lowest cell that it had, and
with the same image, byte for byte.
-/
theorem erase_undoes_insert {id : PageId} {size : Nat} {changes : List PageChange} (least : 21 ≤ size)
    (most : size ≤ 65535) (ran : (empty id size).changeAll changes = .ok page) :
    (∀ cell after slot, page.insert cell = .ok (after, slot) →
        ∃ restored, after.erase slot = .ok restored ∧ page.Restores restored)
      ∧ ∀ record after place, page.insertRecord record = .ok (after, place) →
        ∃ restored, after.eraseRecord { record with place := some place } = .ok restored ∧ page.Restores restored := by
  have layout := (empty_layout id (Nat.le_of_succ_le least) most).1.of_changeAll ran
  exact ⟨fun _ _ _ inserted => layout.erase_of_insert inserted,
    fun _ _ _ inserted => layout.eraseRecord_of_insertRecord inserted⟩

/-- The page of thirty bytes that is left when the first of two cells is erased. -/
def gapped : Page := ⟨⟨1, 0⟩, [.free, ⟨27, 3⟩], 27, Bytes.zeros 27 ++ [3, 4, 5], none⟩

theorem changeAll_gapped :
    (empty ⟨1, 0⟩ 30).changeAll [.insert [1, 2], .insert [3, 4, 5], .erase 0] = .ok gapped := by
  let full : Page := ⟨⟨1, 0⟩, [⟨28, 2⟩, ⟨25, 3⟩], 25, Bytes.zeros 25 ++ [3, 4, 5, 1, 2], none⟩
  have inserted : (empty ⟨1, 0⟩ 30).changeAll [.insert [1, 2], .insert [3, 4, 5], .erase 0]
      = full.changeAll [.erase 0] := rfl
  -- Only the second cell is left to move.
  have left : inUse (full.vacate 0).slots = [(⟨25, 3⟩, 1)] := by
    simp [inUse, full, vacate, trimFree, Slot.isFree, Slot.free, List.zipIdx]
  have erased : full.erase 0 = .ok gapped := by
    have used : Slot.isFree ⟨28, 2⟩ = false := rfl
    rw [erase_eq_pack rfl used, pack, left]
    rfl
  rw [inserted, changeAll, change, erased]
  rfl

/-- A cell that goes into the gap, and is erased, leaves the gap as it was. -/
theorem erase_undoes_insert_gapped :
    (empty ⟨1, 0⟩ 30).changeAll [.insert [1, 2], .insert [3, 4, 5], .erase 0] = .ok gapped
      ∧ ∃ after, gapped.insert [6, 7] = .ok (after, 0)
        ∧ ∃ restored, after.erase 0 = .ok restored ∧ gapped.Restores restored := by
  have undone := (erase_undoes_insert (by decide) (by decide) changeAll_gapped).1
  exact ⟨changeAll_gapped, _, rfl, undone [6, 7] _ 0 rfl⟩

end HeapEngine.Page
