import HeapEngine.Proofs.Page.Insert

/-!
Moving the cells of a page together keeps every cell under its slot.

The cells move one after the other. What is already packed stays where it is, and a cell that moves
goes right below it.
-/

namespace HeapEngine.Page

variable {page : Page}

/-- The slots in use are the entries of the directory that are not free, with their places. -/
theorem mem_inUse {slots : List Slot} {entry : Slot × Nat} :
    entry ∈ inUse slots ↔ slots[entry.2]? = some entry.1 ∧ entry.1.isFree = false := by
  simp [inUse, List.mem_zipIdx_iff_getElem?]

/-- No slot is in use twice. -/
theorem nodup_inUse (slots : List Slot) : ((inUse slots).map Prod.snd).Nodup := by
  have order : (inUse slots).Perm (slots.zipIdx.filter fun entry => !entry.1.isFree) :=
    List.mergeSort_perm _ _
  refine (order.map Prod.snd).nodup_iff.2 ?_
  refine List.Nodup.sublist (List.filter_sublist.map Prod.snd) ?_
  rw [List.zipIdx_map_snd]
  exact List.nodup_range'

/-- The slots in use are as long together as all slots, since a free slot has length zero. -/
theorem total_inUse (slots : List Slot) :
    Slot.total ((inUse slots).map Prod.fst) = Slot.total slots := by
  have order : (inUse slots).Perm (slots.zipIdx.filter fun entry => !entry.1.isFree) :=
    List.mergeSort_perm _ _
  unfold Slot.total
  rw [((order.map Prod.fst).map Slot.length).sum_nat]
  -- The position counts up along the directory, so the number it begins with stays general.
  have general : ∀ (slots : List Slot) (first : Nat),
      (((slots.zipIdx first).filter fun entry => !entry.1.isFree).map Prod.fst
        |>.map Slot.length).sum = (slots.map Slot.length).sum := by
    intro slots
    induction slots with
    | nil => simp
    | cons slot rest ih =>
      intro first
      rw [List.zipIdx_cons, List.filter_cons]
      cases free : slot.isFree with
      | true => simpa [Slot.isFree_iff.1 free] using ih (first + 1)
      | false => simpa using ih (first + 1)
  exact general slots 0

/-- The buffer that the cells packed so far will lie in. -/
def Packing.buffer (packing : Packing) : Bytes := Bytes.zeros packing.start ++ packing.cells

/-- The cells of some slots are packed, and the other slots are as they were. -/
structure Packs (page : Page) (done : List (Slot × Nat)) (packing : Packing) : Prop where
  start : packing.start + Slot.total (done.map Prod.fst) = page.size
  length : packing.start + packing.cells.length = page.size
  slots : packing.slots.length = page.slots.length
  moved : ∀ entry ∈ done, ∃ offset, packing.slots[entry.2]? = some ⟨offset, entry.1.length⟩
    ∧ packing.start ≤ offset ∧ offset + entry.1.length ≤ page.size
    ∧ packing.buffer.window offset entry.1.length
      = page.buffer.window entry.1.offset entry.1.length
  others : ∀ index, (∀ entry ∈ done, entry.2 ≠ index) →
    packing.slots[index]? = page.slots[index]?

/-- Before any cell moves, all space after the front is still to be filled. -/
theorem Packs.nil (page : Page) : page.Packs [] ⟨page.size, [], page.slots⟩ where
  start := by simp [Slot.total]
  length := by simp
  slots := rfl
  moved := by simp
  others := by simp

/-- One more cell goes right below those already packed. -/
theorem Packs.cons (sound : page.Sound) {done : List (Slot × Nat)} {packing : Packing}
    (packs : page.Packs done packing) {entry : Slot × Nat}
    (found : page.slots[entry.2]? = some entry.1) (used : entry.1.isFree = false)
    (fresh : ∀ other ∈ done, other.2 ≠ entry.2) (room : entry.1.length ≤ packing.start) :
    ∃ next, page.packCell packing entry = .ok next ∧ page.Packs (entry :: done) next := by
  obtain ⟨slot, index⟩ := entry
  simp only at found used fresh room
  have member := List.mem_of_getElem? found
  have inside := (sound.inside slot member used).2
  have within : packing.start ≤ page.size := by
    have := packs.start
    omega
  have word : packing.start - slot.length < wordLimit := by
    have := sound.small
    omega
  have inList : index < packing.slots.length := by
    rw [packs.slots]
    exact (List.getElem?_eq_some_iff.1 found).1
  let cell := page.buffer.window slot.offset slot.length
  have cellLength : cell.length = slot.length := Bytes.length_window inside
  refine ⟨⟨packing.start - slot.length, cell ++ packing.cells,
    packing.slots.set index ⟨packing.start - slot.length, slot.length⟩⟩, ?_, ?_⟩
  · simp [packCell, Nat.not_lt.2 room, sound.cellAt_eq member used, Bind.bind, Except.bind,
      Nat.mod_eq_of_lt word, cell]
  -- The cells packed before keep their places at the end of the buffer.
  have tail : (Packing.buffer ⟨packing.start - slot.length, cell ++ packing.cells,
        packing.slots.set index ⟨packing.start - slot.length, slot.length⟩⟩).drop packing.start
      = packing.buffer.drop packing.start := by
    have front : (Bytes.zeros (packing.start - slot.length) ++ cell).length = packing.start := by
      simp only [List.length_append, Bytes.length_zeros, cellLength]
      omega
    simp only [Packing.buffer]
    rw [← List.append_assoc, List.drop_left' front, List.drop_left' (Bytes.length_zeros _)]
  refine ⟨?_, ?_, ?_, ?_, ?_⟩
  · have := packs.start
    simp only [Slot.total, List.map_cons, List.sum_cons] at this ⊢
    omega
  · have := packs.length
    simp only [List.length_append, cellLength]
    omega
  · simp [packs.slots]
  · intro other listed
    -- The new cell is in front of the others, and those are read in the tail.
    rcases List.mem_cons.1 listed with rfl | old
    · refine ⟨packing.start - slot.length, by simp [inList], Nat.le_refl _, by simp only; omega, ?_⟩
      have middle := Bytes.window_middle (Bytes.zeros (packing.start - slot.length)) cell
        packing.cells
      rwa [Bytes.length_zeros, cellLength] at middle
    · obtain ⟨offset, stands, after, fits, same⟩ := packs.moved other old
      refine ⟨offset, ?_, by simp only; omega, fits, ?_⟩
      · rw [List.getElem?_set_ne (Ne.symm (fresh other old))]
        exact stands
      · rw [← same, Bytes.window_drop _ _ after, tail, ← Bytes.window_drop _ _ after]
  · intro other apart
    rw [List.getElem?_set_ne (apart (slot, index) (by simp))]
    exact packs.others other fun entry listed => apart entry (by simp [listed])

/-- All cells of a list of slots in use can be packed in turn. -/
theorem Packs.foldlM (sound : page.Sound) {todo done : List (Slot × Nat)} {packing : Packing}
    (packs : page.Packs done packing)
    (found : ∀ entry ∈ todo, page.slots[entry.2]? = some entry.1 ∧ entry.1.isFree = false)
    (distinct : (todo.map Prod.snd).Nodup)
    (fresh : ∀ entry ∈ todo, ∀ other ∈ done, other.2 ≠ entry.2)
    (room : Slot.total (todo.map Prod.fst) ≤ packing.start) :
    ∃ last, todo.foldlM page.packCell packing = .ok last ∧ page.Packs (todo.reverse ++ done) last := by
  -- Each step leaves the room that the remaining cells need.
  induction todo generalizing done packing with
  | nil => exact ⟨packing, rfl, by simpa using packs⟩
  | cons entry rest ih =>
    have total : Slot.total ((entry :: rest).map Prod.fst)
        = entry.1.length + Slot.total (rest.map Prod.fst) := by simp [Slot.total]
    rw [List.map_cons, List.nodup_cons] at distinct
    obtain ⟨next, stepped, nextPacks⟩ := packs.cons sound (found entry (by simp)).1
      (found entry (by simp)).2 (fresh entry (by simp)) (by omega)
    have start : next.start + entry.1.length = packing.start := by
      have before := packs.start
      have after := nextPacks.start
      simp only [Slot.total, List.map_cons, List.sum_cons] at before after
      omega
    obtain ⟨last, folded, lastPacks⟩ := ih nextPacks (fun other member => found other (by simp [member]))
      distinct.2 (fun other member before listed => by
        rcases List.mem_cons.1 listed with rfl | old
        · intro same
          exact distinct.1 (same ▸ List.mem_map_of_mem member)
        · exact fresh other (by simp [member]) before old) (by omega)
    refine ⟨last, ?_, by simpa using lastPacks⟩
    rw [List.foldlM_cons, stepped]
    exact folded

/-- Where a slot is moved: its cell goes with it, and a free slot stays what it is. -/
structure MovesTo (page : Page) (packing : Packing) (slot moved : Slot) : Prop where
  length : moved.length = slot.length
  free : slot.isFree = true → moved = slot
  inside : slot.isFree = false →
    packing.start ≤ moved.offset ∧ moved.offset + slot.length ≤ page.size
  content : Slot.content packing.buffer moved = Slot.content page.buffer slot

/-- A slot is free where it is moved to exactly if it was free. -/
theorem MovesTo.isFree_eq {packing : Packing} {slot moved : Slot} (moves : page.MovesTo packing slot moved) :
    moved.isFree = slot.isFree := by
  simp only [Slot.isFree, moves.length]

/-- The page with its cells where they were packed. -/
def packed (page : Page) (packing : Packing) : Page :=
  { page with slots := packing.slots, cellStart := packing.start, buffer := packing.buffer }

namespace Packs

variable {packing : Packing}

/-- A slot in use is moved with its cell, and a free slot is left alone. -/
theorem exists_movesTo (packs : page.Packs (inUse page.slots).reverse packing) {index : Nat}
    {slot : Slot} (found : page.slots[index]? = some slot) :
    ∃ moved, packing.slots[index]? = some moved ∧ page.MovesTo packing slot moved := by
  cases used : slot.isFree with
  | false =>
    obtain ⟨offset, stands, after, fits, same⟩ := packs.moved (slot, index)
      (List.mem_reverse.2 (mem_inUse.2 ⟨found, used⟩))
    have stillUsed : Slot.isFree ⟨offset, slot.length⟩ = false := used
    refine ⟨⟨offset, slot.length⟩, stands, rfl, ?_, fun _ => ⟨after, fits⟩, ?_⟩
    · intro free
      rw [used] at free
      cases free
    · simp only [Slot.content, used, stillUsed, Bool.false_eq_true, ↓reduceIte, same]
  | true =>
    -- No slot of this number was packed, since the slot is not in use.
    have left := packs.others index fun entry member same => by
      have inUse := mem_inUse.1 (List.mem_reverse.1 member)
      rw [same, found, Option.some.injEq] at inUse
      rw [← inUse.1, used] at inUse
      exact absurd inUse.2 (by simp)
    refine ⟨slot, left.trans found, rfl, fun _ => rfl, ?_, by simp [Slot.content, used]⟩
    intro inUse
    rw [used] at inUse
    cases inUse

/-- Every slot of the packed page comes from the slot of the same number. -/
theorem exists_origin_at (packs : page.Packs (inUse page.slots).reverse packing) {index : Nat} {moved : Slot}
    (stands : packing.slots[index]? = some moved) :
    ∃ slot, page.slots[index]? = some slot ∧ page.MovesTo packing slot moved := by
  have within := (List.getElem?_eq_some_iff.1 stands).1
  rw [packs.slots] at within
  have found := List.getElem?_eq_getElem within
  obtain ⟨_, same, moves⟩ := packs.exists_movesTo found
  rw [stands, Option.some.injEq] at same
  subst same
  exact ⟨_, found, moves⟩

theorem exists_origin (packs : page.Packs (inUse page.slots).reverse packing) {moved : Slot}
    (member : moved ∈ packing.slots) : ∃ slot ∈ page.slots, page.MovesTo packing slot moved := by
  obtain ⟨index, stands⟩ := List.mem_iff_getElem?.1 member
  obtain ⟨slot, found, moves⟩ := packs.exists_origin_at stands
  exact ⟨slot, List.mem_of_getElem? found, moves⟩

/-- What is told of each slot and of where it is moved can be told of the whole directories. -/
theorem map_slots {α : Type} (packs : page.Packs (inUse page.slots).reverse packing)
    {after before : Slot → α} (same : ∀ slot moved, page.MovesTo packing slot moved →
      after moved = before slot) : packing.slots.map after = page.slots.map before := by
  refine List.ext_getElem? fun index => ?_
  rw [List.getElem?_map, List.getElem?_map]
  cases found : page.slots[index]? with
  | none =>
    -- Both directories end here.
    have beyond := List.getElem?_eq_none_iff.1 found
    rw [List.getElem?_eq_none (by rw [packs.slots]; exact beyond)]
    rfl
  | some slot =>
    obtain ⟨moved, stands, moves⟩ := packs.exists_movesTo found
    rw [stands, Option.map_some, Option.map_some, same slot moved moves]

/-- The cells are as long together as they were. -/
theorem total_slots (packs : page.Packs (inUse page.slots).reverse packing) :
    Slot.total packing.slots = Slot.total page.slots := by
  have lengths : packing.slots.map Slot.length = page.slots.map Slot.length :=
    packs.map_slots fun _ _ moves => moves.length
  rw [Slot.total, Slot.total, lengths]

/-- All cells lie side by side at the end of the page. -/
theorem start_add_total (packs : page.Packs (inUse page.slots).reverse packing) :
    packing.start + Slot.total page.slots = page.size := by
  have whole := packs.start
  rwa [List.map_reverse, Slot.total, List.map_reverse, List.sum_reverse, ← Slot.total,
    total_inUse] at whole

theorem size_packed {done : List (Slot × Nat)} (packs : page.Packs done packing) :
    (page.packed packing).size = page.size := by
  show packing.buffer.length = page.size
  simp only [Packing.buffer, List.length_append, Bytes.length_zeros]
  exact packs.length

theorem packed (packs : page.Packs (inUse page.slots).reverse packing) :
    (page.packed packing).Packed := by
  have size := packs.size_packed
  have total := packs.total_slots
  have start := packs.start_add_total
  show packing.start + Slot.total packing.slots = (page.packed packing).size
  omega

/-- A page whose cells were moved apart from its directory is sound. -/
theorem sound (packs : page.Packs (inUse page.slots).reverse packing) (sound : page.Sound) :
    (page.packed packing).Sound := by
  have size := packs.size_packed
  have start := packs.start_add_total
  refine ⟨?_, ?_, ?_, ?_, Nat.le_of_eq packs.packed, ?_⟩
  · rw [size]
    exact sound.large
  · rw [size]
    exact sound.small
  · -- The directory is as long as it was, and the cells begin no lower than before.
    have directory := sound.directory
    have apart := sound.apart
    show headerSize + packing.slots.length * entrySize ≤ packing.start
    rw [packs.slots]
    unfold directoryEnd at directory
    omega
  · intro moved member used
    obtain ⟨slot, _, moves⟩ := packs.exists_origin member
    have length := moves.length
    have slotUsed : slot.isFree = false := moves.isFree_eq ▸ used
    obtain ⟨after, fits⟩ := moves.inside slotUsed
    refine ⟨after, ?_⟩
    rw [size, length]
    exact fits
  · intro moved member
    obtain ⟨slot, among, moves⟩ := packs.exists_origin member
    have length := moves.length
    have words := sound.words slot among
    have small := sound.small
    cases slotUsed : slot.isFree with
    | true =>
      rw [moves.free slotUsed]
      exact words
    | false =>
      -- A cell that was moved lies within the page, whose size is a word.
      have inside := moves.inside slotUsed
      omega

/-- Every slot holds what it held. -/
theorem cells (packs : page.Packs (inUse page.slots).reverse packing) :
    (page.packed packing).cells = page.cells :=
  packs.map_slots fun _ _ moves => moves.content

end Packs

namespace Sound

/-- The cells of a sound page have room to move, one after the other, to the end of the page. -/
theorem exists_packs (sound : page.Sound) :
    ∃ packing, (inUse page.slots).foldlM page.packCell ⟨page.size, [], page.slots⟩ = .ok packing
      ∧ page.Packs (inUse page.slots).reverse packing ∧ page.pack = .ok (page.packed packing) := by
  -- The cells that move have room together, as they lie apart on a sound page.
  have room : Slot.total ((inUse page.slots).map Prod.fst) ≤ page.size := by
    have apart := sound.apart
    rw [total_inUse]
    omega
  obtain ⟨packing, folded, packs⟩ := (Packs.nil page).foldlM sound
    (fun entry member => mem_inUse.1 member) (nodup_inUse page.slots) (by simp) room
  rw [List.append_nil] at packs
  -- The place of the lowest cell is a word, as it lies within the page.
  have word : packing.start < wordLimit := by
    have small := sound.small
    have start := packs.start_add_total
    omega
  refine ⟨packing, folded, packs, ?_⟩
  simp [pack, folded, Bind.bind, Except.bind, Nat.mod_eq_of_lt word, Page.packed, Packing.buffer]

/-- Packing a sound page always succeeds, and every slot holds afterwards what it held before. -/
theorem pack_eq (sound : page.Sound) :
    ∃ after, page.pack = .ok after ∧ page.Evolves after ∧ after.Packed
      ∧ after.cells = page.cells := by
  obtain ⟨packing, _, packs, packed⟩ := sound.exists_packs
  exact ⟨_, packed, ⟨rfl, packs.size_packed, rfl, packs.sound sound, fun _ => packs.packed⟩,
    packs.packed, packs.cells⟩

end Sound

end HeapEngine.Page
