import HeapEngine.Proofs.Page.Image
import HeapEngine.Proofs.Page.Records

/-!
Where the cells of a page lie.

On a page that began empty every place from the lowest cell to the end belongs to exactly one cell. Inserting
puts a cell right below the others, and erasing moves the cells that are left together, so no place is lost
and none is given to two of them.
-/

namespace HeapEngine

/-- Every place from one on and before another is taken by exactly one index, and no other place by any. -/
structure Tiles (takes : Nat → Nat → Prop) (start stop : Nat) : Prop where
  within : ∀ {index place : Nat}, takes index place → start ≤ place ∧ place < stop
  covered : ∀ {place : Nat}, start ≤ place → place < stop → ∃ index, takes index place
  apart : ∀ {index other place : Nat}, takes index place → takes other place → index = other

namespace Tiles

variable {takes others : Nat → Nat → Prop} {start stop lower new : Nat}

/-- No place is left over where there is none. -/
theorem nil (stop : Nat) (nothing : ∀ index place, ¬ takes index place) : Tiles takes stop stop where
  within taken := absurd taken (nothing _ _)
  covered from_ before := by omega
  apart taken _ := absurd taken (nothing _ _)

/-- What takes the same places tiles the same range. -/
theorem congr (tiles : Tiles takes start stop)
    (same : ∀ index place, others index place ↔ takes index place) : Tiles others start stop where
  within taken := tiles.within ((same _ _).1 taken)
  covered from_ before := by
    obtain ⟨index, taken⟩ := tiles.covered from_ before
    exact ⟨index, (same _ _).2 taken⟩
  apart taken alsoTaken := tiles.apart ((same _ _).1 taken) ((same _ _).1 alsoTaken)

/-- An index without a place may be given all places right below the others. -/
theorem extend (tiles : Tiles takes start stop) (below : lower ≤ start) (within : start ≤ stop)
    (unused : ∀ place, ¬ takes new place)
    (grown : ∀ index place, others index place
      ↔ takes index place ∨ index = new ∧ lower ≤ place ∧ place < start) : Tiles others lower stop where
  within := by
    intro index place taken
    rcases (grown _ _).1 taken with old | ⟨_, from_, before⟩
    · have inside := tiles.within old
      omega
    · omega
  covered := by
    intro place from_ before
    -- A place is one of the new ones, or it was taken before.
    by_cases low : place < start
    · exact ⟨new, (grown _ _).2 (.inr ⟨rfl, from_, low⟩)⟩
    · obtain ⟨index, taken⟩ := tiles.covered (Nat.not_lt.1 low) before
      exact ⟨index, (grown _ _).2 (.inl taken)⟩
  apart := by
    intro index other place taken alsoTaken
    -- New places lie below the old ones, so no place is both.
    rcases (grown _ _).1 taken with old | ⟨rfl, _, low⟩
    · have inside := tiles.within old
      rcases (grown _ _).1 alsoTaken with alsoOld | ⟨_, _, low⟩
      · exact tiles.apart old alsoOld
      · omega
    · rcases (grown _ _).1 alsoTaken with alsoOld | ⟨rfl, _, _⟩
      · have inside := tiles.within alsoOld
        omega
      · rfl

end Tiles

namespace Slot

/-- Whether a place belongs to the cell of a slot. A free slot has no place. -/
def Covers (slot : Slot) (place : Nat) : Prop := slot.offset ≤ place ∧ place < slot.offset + slot.length

/-- Whether a place belongs to the cell under a slot number. -/
def Takes (slots : List Slot) (index place : Nat) : Prop := ∃ slot, slots[index]? = some slot ∧ slot.Covers place

/-- A slot that has a place is in use. -/
theorem Covers.used {slot : Slot} {place : Nat} (covers : slot.Covers place) : slot.isFree = false := by
  apply isFree_eq_false_iff.2
  unfold Covers at covers
  omega

end Slot

/-- What may be done to a page between two looks at its layout. -/
inductive PageChange where
  | insert (cell : Bytes)
  | erase (slot : Nat)
  | insertRecord (record : Record)
  | eraseRecord (record : Record)
  /-- Stores the page and reads it back, under the same name or another one. -/
  | reload (id : PageId)

/-- Nothing in memory is longer than half of the addresses there are. -/
def PageChange.Addressable : PageChange → Prop
  | insert cell => cell.length < 2 ^ 63
  | insertRecord record => record.encode.length < 2 ^ 63
  | _ => True

namespace Page

variable {page after : Page}

/-- How a page is laid out: a sound page whose cells tile its end, without remains of erased cells. -/
structure Layout (page : Page) : Prop where
  sound : page.Sound
  packed : page.Packed
  /-- Every place from the lowest cell on belongs to exactly one cell. -/
  tiles : Tiles (Slot.Takes page.slots) page.cellStart page.size
  /-- A slot that was freed does not tell where its cell was. -/
  blank : ∀ slot ∈ page.slots, slot.isFree = true → slot = .free
  /-- The last slot is in use, if there is one. -/
  last : ∀ slot, page.slots.getLast? = some slot → slot.isFree = false

namespace Layout

/-- The room that is left is what the header, the directory and the cells do not need. -/
theorem exists_room (layout : page.Layout) : ∃ room, page.room = .ok room
    ∧ 16 + 4 * page.slots.length + Slot.total page.slots + room = page.size := by
  have packed := layout.packed
  have directory := layout.sound.directory
  refine ⟨page.cellStart - page.directoryEnd, layout.sound.room_eq, ?_⟩
  -- The cells are all there is from the lowest one on, so the room is what lies before it.
  unfold Packed at packed
  simp only [directoryEnd, headerSize, entrySize] at directory ⊢
  omega

end Layout

/-- A page without cells is laid out, whatever its name. -/
theorem empty_layout (id : PageId) {size : Nat} (least : 20 ≤ size) (most : size ≤ 65535) :
    (empty id size).Layout ∧ (empty id size).size = size := by
  obtain ⟨sound, packed, _, sized⟩ := empty_sound id least most
  have start : (empty id size).cellStart = size := Nat.mod_eq_of_lt (by unfold wordLimit; omega)
  refine ⟨⟨sound, packed, ?_, by simp [empty], by simp [empty]⟩, sized⟩
  rw [start, sized]
  exact .nil size (by simp [Slot.Takes, empty])

section Insert

/-- The slot that is assigned has the new entry, and the other slots are as before. -/
theorem getElem?_assign (page : Page) (entry : Slot) (index : Nat) :
    (page.assign entry).1[index]?
      = if index = (page.assign entry).2 then some entry else page.slots[index]? := by
  unfold assign
  cases free : page.freeSlot? with
  | some found =>
    obtain ⟨old, stands, _⟩ := freeSlot?_some free
    have within := (List.getElem?_eq_some_iff.1 stands).1
    simp only [List.getElem?_set]
    by_cases here : found = index
    · subst here
      simp [within]
    · simp [here, Ne.symm here]
  | none =>
    simp only
    -- The new slot follows the old ones, and past it there is still nothing.
    rcases Nat.lt_trichotomy index page.slots.length with before | rfl | past
    · rw [List.getElem?_append_left before, if_neg (by omega)]
    · simp
    · rw [if_neg (by omega), List.getElem?_eq_none (by simp; omega), List.getElem?_eq_none (by omega)]

/-- The slot that is assigned has no place before. -/
theorem assign_unused (page : Page) (entry : Slot) (place : Nat) :
    ¬ Slot.Takes page.slots (page.assign entry).2 place := by
  rintro ⟨slot, found, covers⟩
  have used := covers.used
  unfold assign at found
  cases free : page.freeSlot? with
  | some index =>
    obtain ⟨old, stands, isFree⟩ := freeSlot?_some free
    simp only [free] at found
    cases stands.symm.trans found
    rw [used] at isFree
    cases isFree
  | none => simp [free] at found

/-- Assigning a slot gives it the places of its entry, and the other slots keep theirs. -/
theorem takes_assign (page : Page) (entry : Slot) (index place : Nat) :
    Slot.Takes (page.assign entry).1 index place
      ↔ Slot.Takes page.slots index place ∨ index = (page.assign entry).2 ∧ entry.Covers place := by
  have unused := page.assign_unused entry place
  unfold Slot.Takes at unused ⊢
  rw [getElem?_assign]
  by_cases here : index = (page.assign entry).2
  · subst here
    simp only [unused, ↓reduceIte, Option.some.injEq, exists_eq_left', true_and, false_or]
  · simp only [here, ↓reduceIte, false_and, or_false]

/-- The last slot is in use after one was assigned, as it was before. -/
theorem last_assign {entry slot : Slot} (used : entry.isFree = false)
    (last : ∀ old, page.slots.getLast? = some old → old.isFree = false)
    (found : (page.assign entry).1.getLast? = some slot) : slot.isFree = false := by
  unfold assign at found
  cases free : page.freeSlot? with
  | some index =>
    simp only [free, List.getLast?_eq_getElem?, List.length_set, List.getElem?_set] at found
    -- The last slot is the one that was assigned, or it is as before.
    split at found
    · split at found
      · cases found
        exact used
      · cases found
    · exact last slot (List.getLast?_eq_getElem?.trans found)
  | none =>
    simp only [free, List.getLast?_append, List.getLast?_singleton, Option.some_or, Option.some.injEq] at found
    exact found ▸ used

namespace Layout

/-- A cell that fits goes right below the others, so the cells still tile the end of the page. -/
theorem withCell (layout : page.Layout) {cell : Bytes} (nonempty : cell ≠ [])
    (fits : cell.length + page.entryCost ≤ page.cellStart - page.directoryEnd) :
    (page.withCell cell).Layout := by
  obtain ⟨evolves, _⟩ := layout.sound.withCell_evolves nonempty fits
  have below : cell.length ≤ page.cellStart := by omega
  -- A cell that is not empty leaves no free slot behind.
  have used : Slot.isFree ⟨page.cellStart - cell.length, cell.length⟩ = false := by
    simpa [Slot.isFree] using nonempty
  refine ⟨evolves.sound, evolves.packed layout.packed, ?_, ?_, fun slot found => ?_⟩
  · rw [evolves.size]
    apply layout.tiles.extend (Nat.sub_le _ _) layout.sound.cellStart_le
      (page.assign_unused ⟨page.cellStart - cell.length, cell.length⟩)
    intro index place
    -- The places of the new entry end where the lowest cell begins.
    have whole := page.takes_assign ⟨page.cellStart - cell.length, cell.length⟩ index place
    rwa [Slot.Covers, Nat.sub_add_cancel below] at whole
  · intro slot member free
    rcases mem_assign member with rfl | old
    · rw [used] at free
      cases free
    · exact layout.blank slot old free
  · exact last_assign used layout.last found

/-- A page that a cell was inserted into is laid out. -/
theorem insert (layout : page.Layout) {cell : Bytes} {slot : Nat}
    (inserted : page.insert cell = .ok (after, slot)) : after.Layout := by
  obtain ⟨nonempty, rfl, room, _⟩ := eq_withCell_of_insert inserted
  exact layout.withCell nonempty (by omega)

end Layout

end Insert

section Erase

/-- The last slot that trimming leaves is in use. -/
theorem last_trimFree {slots : List Slot} {slot : Slot} (found : (trimFree slots).getLast? = some slot) :
    slot.isFree = false := by
  -- Trimming stops at the first slot from behind that is in use.
  rw [trimFree, List.getLast?_reverse] at found
  have stopped := List.head?_dropWhile_not Slot.isFree slots.reverse
  rw [found] at stopped
  exact stopped

/-- The places of the cells that were packed so far. -/
def Packing.Takes (packing : Packing) (done : List (Slot × Nat)) (index place : Nat) : Prop :=
  (∃ entry ∈ done, entry.2 = index) ∧ Slot.Takes packing.slots index place

/-- A cell that was packed goes right below the others, under its slot. -/
theorem packCell_eq_ok {packing next : Packing} {entry : Slot × Nat}
    (moved : page.packCell packing entry = .ok next) :
    entry.1.length ≤ packing.start ∧ next.start = packing.start - entry.1.length
      ∧ next.slots = packing.slots.set entry.2 ⟨next.start % wordLimit, entry.1.length⟩ := by
  unfold packCell at moved
  simp only at moved
  -- A cell that is longer than the space before the others is not packed.
  split at moved
  · cases moved
  rename_i room
  obtain ⟨cell, _, placed⟩ := Outcome.exists_of_bind moved
  cases placed
  exact ⟨Nat.not_lt.1 room, rfl, rfl⟩

/-- A cell that is packed takes the places right below those that were packed before. -/
theorem tiles_packCell {packing next : Packing} {done : List (Slot × Nat)} {entry : Slot × Nat}
    {stop : Nat} (tiles : Tiles (packing.Takes done) packing.start stop) (within : packing.start ≤ stop)
    (word : stop < wordLimit) (listed : entry.2 < packing.slots.length)
    (fresh : ∀ other ∈ done, other.2 ≠ entry.2) (moved : page.packCell packing entry = .ok next) :
    Tiles (next.Takes (entry :: done)) next.start stop := by
  obtain ⟨room, start, slots⟩ := packCell_eq_ok moved
  have apart : ¬ ∃ other ∈ done, other.2 = entry.2 := fun ⟨other, member, same⟩ => fresh other member same
  have unused : ∀ place, ¬ packing.Takes done entry.2 place := fun place taken => apart taken.1
  apply tiles.extend (Nat.le_trans (Nat.le_of_eq start) (Nat.sub_le _ _)) within unused
  intro index place
  rw [Nat.mod_eq_of_lt (show next.start < wordLimit by omega)] at slots
  unfold Packing.Takes Slot.Takes
  rw [slots, List.getElem?_set]
  by_cases here : entry.2 = index
  · -- The slot of the cell that moves was not packed before.
    subst here
    simp only [apart, false_and, false_or, true_and, List.mem_cons, exists_eq_or_imp, true_or, ↓reduceIte,
      listed, Option.some.injEq, exists_eq_left', Slot.Covers, start, Nat.sub_add_cancel room]
  · simp [here, Ne.symm here]

/-- Cells that are packed in turn take the places below those that were packed before, without a gap. -/
theorem tiles_foldlM {todo done : List (Slot × Nat)} {packing last : Packing} {stop : Nat}
    (tiles : Tiles (packing.Takes done) packing.start stop) (within : packing.start ≤ stop)
    (word : stop < wordLimit) (listed : ∀ entry ∈ todo, entry.2 < packing.slots.length)
    (distinct : (todo.map Prod.snd).Nodup) (fresh : ∀ entry ∈ todo, ∀ other ∈ done, other.2 ≠ entry.2)
    (packed : todo.foldlM page.packCell packing = .ok last) :
    Tiles (last.Takes (todo.reverse ++ done)) last.start stop := by
  -- The first cell goes below those that are done, and is done when the others move.
  induction todo generalizing done packing with
  | nil =>
    cases packed
    exact tiles
  | cons entry rest ih =>
    rw [List.foldlM_cons] at packed
    rw [List.map_cons, List.nodup_cons] at distinct
    obtain ⟨next, moved, later⟩ := Outcome.exists_of_bind packed
    obtain ⟨room, start, slots⟩ := packCell_eq_ok moved
    have stepped := tiles_packCell tiles within word (listed entry List.mem_cons_self)
      (fresh entry List.mem_cons_self) moved
    -- The directory is as long as it was, and the slot of this cell is not met again.
    have still : ∀ other ∈ rest, other.2 < next.slots.length := by
      intro other member
      rw [slots, List.length_set]
      exact listed other (List.mem_cons_of_mem _ member)
    have apart : ∀ other ∈ rest, ∀ before ∈ entry :: done, before.2 ≠ other.2 := by
      intro other member before among
      rcases List.mem_cons.1 among with rfl | old
      · intro same
        exact distinct.1 (same ▸ List.mem_map_of_mem member)
      · exact fresh other (List.mem_cons_of_mem _ member) before old
    have whole := ih stepped (by omega) still distinct.2 apart later
    rwa [List.reverse_cons, List.append_assoc]

/-- The cells of a page that was packed tile its end. -/
theorem Sound.tiles_packed (sound : page.Sound) {packing : Packing}
    (folded : (inUse page.slots).foldlM page.packCell ⟨page.size, [], page.slots⟩ = .ok packing)
    (packs : page.Packs (inUse page.slots).reverse packing) :
    Tiles (Slot.Takes packing.slots) packing.start page.size := by
  -- Before any cell moves, no place is taken and none has to be.
  have nothing : Tiles (Packing.Takes ⟨page.size, [], page.slots⟩ []) page.size page.size :=
    .nil _ fun index place taken => by simp [Packing.Takes] at taken
  have listed : ∀ entry ∈ inUse page.slots, entry.2 < page.slots.length := fun entry member =>
    (List.getElem?_eq_some_iff.1 (mem_inUse.1 member).1).1
  have tiles := tiles_foldlM nothing (Nat.le_refl _) sound.small listed (nodup_inUse page.slots)
    (fun _ _ _ member => absurd member List.not_mem_nil) folded
  rw [List.append_nil] at tiles
  apply tiles.congr
  intro index place
  -- Only a slot that was in use, and so was packed, has a place.
  refine ⟨fun taken => ⟨?_, taken⟩, fun taken => taken.2⟩
  obtain ⟨moved, stands, covers⟩ := taken
  obtain ⟨slot, found, moves⟩ := packs.exists_origin_at stands
  have used : slot.isFree = false := moves.isFree_eq ▸ covers.used
  exact ⟨(slot, index), List.mem_reverse.2 (mem_inUse.2 ⟨found, used⟩), rfl⟩

/-- Packing lays a page out whose directory has no remains of erased cells. -/
theorem Sound.pack_layout (sound : page.Sound)
    (blank : ∀ slot ∈ page.slots, slot.isFree = true → slot = .free)
    (last : ∀ slot, page.slots.getLast? = some slot → slot.isFree = false)
    (packed : page.pack = .ok after) : after.Layout := by
  obtain ⟨packing, folded, packs, whole⟩ := sound.exists_packs
  cases packed.symm.trans whole
  refine ⟨packs.sound sound, packs.packed, ?_, ?_, ?_⟩
  · rw [packs.size_packed]
    exact sound.tiles_packed folded packs
  · -- A free slot is left as it is.
    intro moved member free
    obtain ⟨slot, among, moves⟩ := packs.exists_origin member
    have alsoFree : slot.isFree = true := moves.isFree_eq ▸ free
    rw [moves.free alsoFree]
    exact blank slot among alsoFree
  · intro moved found
    rw [List.getLast?_eq_getElem?] at found
    -- The last slot of the directory was its last slot before.
    obtain ⟨slot, stood, moves⟩ := packs.exists_origin_at found
    have position : (page.packed packing).slots.length - 1 = page.slots.length - 1 := congrArg (· - 1) packs.slots
    rw [position, ← List.getLast?_eq_getElem?] at stood
    rw [moves.isFree_eq]
    exact last slot stood

namespace Layout

/-- A page that a cell was erased from is laid out. -/
theorem erase (layout : page.Layout) {index : Nat} (erased : page.erase index = .ok after) : after.Layout := by
  obtain ⟨_, _, _, packed⟩ := erase_eq_ok erased
  -- The directory is trimmed before the cells move, so its last slot is in use then.
  apply (layout.sound.vacate index).pack_layout _ (fun _ => last_trimFree) packed
  intro slot member free
  -- What is free was free before, or it is the slot that the cell was erased from.
  rcases List.mem_or_eq_of_mem_set (mem_of_mem_trimFree member) with old | new
  · exact layout.blank slot old free
  · exact new

theorem insertRecord (layout : page.Layout) {record : Record} {place : RecordId}
    (inserted : page.insertRecord record = .ok (after, place)) : after.Layout := by
  obtain ⟨_, stored, told⟩ := Outcome.exists_of_bind inserted
  cases told
  exact layout.insert stored

theorem eraseRecord (layout : page.Layout) {record : Record}
    (erased : page.eraseRecord record = .ok after) : after.Layout := by
  obtain ⟨_, _, _, _, cellErased⟩ := eraseRecord_eq_ok erased
  exact layout.erase cellErased

/-- Pages with the same directory, the same lowest cell and the same size are laid out alike. -/
theorem of_agrees (layout : page.Layout) (agrees : page.Agrees after) : after.Layout where
  sound := agrees.sound layout.sound
  packed := by
    have packed := layout.packed
    rwa [Packed, agrees.cellStart, agrees.slots, agrees.size] at packed
  tiles := by
    have tiles := layout.tiles
    rwa [agrees.cellStart, agrees.slots, agrees.size] at tiles
  blank := agrees.slots ▸ layout.blank
  last := agrees.slots ▸ layout.last

end Layout

end Erase

/-- Changes a page. -/
def change (page : Page) : PageChange → Outcome Page
  | .insert cell => do return (← page.insert cell).1
  | .erase slot => page.erase slot
  | .insertRecord record => do return (← page.insertRecord record).1
  | .eraseRecord record => page.eraseRecord record
  | .reload id => do ofImage id (← page.image)

/-- Makes changes in turn. A failure leaves the page as it is, and only a trap ends them. -/
def changeAll (page : Page) : List PageChange → Except Trap Page
  | [] => .ok page
  | change :: rest =>
    match page.change change with
    | .ok after => after.changeAll rest
    | .error (.failed _) => page.changeAll rest
    | .error (.trapped cause) => .error cause

namespace Layout

/-- A change to a page that is laid out leaves such a page of the same size, or it is refused. -/
theorem change_ends (layout : page.Layout) {change : PageChange} (addressable : change.Addressable) :
    (∃ after, page.change change = .ok after ∧ after.Layout ∧ after.size = page.size)
      ∨ ∃ failure, page.change change = fail failure := by
  have limit : 2 ^ 63 + entrySize < sizeLimit := by decide
  -- How a change ends is told of sound pages, and what it leaves is laid out again.
  cases change with
  | insert cell =>
    have short : cell.length + entrySize < sizeLimit := by
      unfold PageChange.Addressable at addressable
      omega
    rcases layout.sound.insert_ends short with ⟨after, inserted, evolves, _⟩ | ⟨failure, refused⟩
    · refine .inl ⟨after, ?_, layout.insert inserted, evolves.size⟩
      rw [Page.change, inserted]
      rfl
    · refine .inr ⟨failure, ?_⟩
      rw [Page.change, refused]
      rfl
  | erase slot =>
    rcases layout.sound.erase_ends slot with ⟨after, erased, evolves, _⟩ | refused
    · exact .inl ⟨after, erased, layout.erase erased, evolves.size⟩
    · exact .inr refused
  | insertRecord record =>
    have short : record.encode.length + entrySize < sizeLimit := by
      unfold PageChange.Addressable at addressable
      omega
    rcases layout.sound.insertRecord_ends short with ⟨after, place, inserted, evolves, _⟩ | refused
    · refine .inl ⟨after, ?_, layout.insertRecord inserted, evolves.size⟩
      rw [Page.change, inserted]
      rfl
    · refine .inr ⟨.noRoom page.id, ?_⟩
      rw [Page.change, refused]
      rfl
  | eraseRecord record =>
    rcases layout.sound.eraseRecord_ends record with ⟨after, _, _, erased, evolves, _⟩ | refused
    · exact .inl ⟨after, erased, layout.eraseRecord erased, evolves.size⟩
    · exact .inr refused
  | reload id =>
    -- A page that is laid out has an image, and what is read from it agrees with the page.
    obtain ⟨image, encoded, _⟩ := layout.sound.exists_image
    obtain ⟨after, decoded, agrees, _⟩ := layout.sound.ofImage_image encoded id
    refine .inl ⟨after, ?_, layout.of_agrees agrees.symm, agrees.size⟩
    rw [Page.change, encoded]
    exact decoded

/-- What a change leaves is laid out, whatever was asked for. -/
theorem of_change (layout : page.Layout) {change : PageChange} (changed : page.change change = .ok after) :
    after.Layout := by
  cases change with
  | insert cell =>
    obtain ⟨⟨_, _⟩, inserted, told⟩ := Outcome.exists_of_bind changed
    cases told
    exact layout.insert inserted
  | erase slot => exact layout.erase changed
  | insertRecord record =>
    obtain ⟨⟨_, _⟩, inserted, told⟩ := Outcome.exists_of_bind changed
    cases told
    exact layout.insertRecord inserted
  | eraseRecord record => exact layout.eraseRecord changed
  | reload id =>
    -- What is read from the image of the page agrees with the page.
    obtain ⟨image, encoded, decoded⟩ := Outcome.exists_of_bind changed
    obtain ⟨_, same, agrees, _⟩ := layout.sound.ofImage_image encoded id
    cases decoded.symm.trans same
    exact layout.of_agrees agrees.symm

/-- Changes that come to an end leave a page that is laid out. -/
theorem of_changeAll (layout : page.Layout) {changes : List PageChange} (ran : page.changeAll changes = .ok after) :
    after.Layout := by
  -- The page that the changes before have left varies.
  induction changes generalizing page with
  | nil =>
    cases ran
    exact layout
  | cons change rest ih =>
    rw [changeAll] at ran
    split at ran
    · rename_i changed
      exact ih (layout.of_change changed) ran
    · exact ih layout ran
    · cases ran

/-- All changes in turn leave a page that is laid out, of the same size, without a trap. -/
theorem changeAll_ends (layout : page.Layout) {changes : List PageChange}
    (addressable : ∀ change ∈ changes, change.Addressable) :
    ∃ last, page.changeAll changes = .ok last ∧ last.Layout ∧ last.size = page.size := by
  -- A change that is refused leaves the page as it is, so the next one finds the same layout.
  induction changes generalizing page with
  | nil => exact ⟨page, rfl, layout, rfl⟩
  | cons change rest ih =>
    have later : ∀ other ∈ rest, other.Addressable := fun other member =>
      addressable other (List.mem_cons_of_mem _ member)
    rcases layout.change_ends (addressable change List.mem_cons_self) with
      ⟨after, changed, laid, size⟩ | ⟨failure, refused⟩
    · obtain ⟨last, ran, lastLaid, lastSize⟩ := ih laid later
      refine ⟨last, ?_, lastLaid, lastSize.trans size⟩
      rw [changeAll, changed]
      exact ran
    · obtain ⟨last, ran, lastLaid, lastSize⟩ := ih layout later
      refine ⟨last, ?_, lastLaid, lastSize⟩
      rw [changeAll, refused]
      exact ran

end Layout

end Page

end HeapEngine
