import HeapEngine.Proofs.Page.Undo
import HeapEngine.Proofs.Page.Usable

/-!
Erasing a cell closes the gaps of a page.

A page that was read may have gaps before, between and after its cells, which may lie in any order. As long as
no place belongs to two of them, erasing one moves all others to the end of the page, side by side and in the
order in which they lay.
-/

namespace HeapEngine

namespace Slot

variable {slots moved : List Slot} {index other : Nat}

/-- The cells of a directory lie apart: no place belongs to two of them. -/
def Apart (slots : List Slot) : Prop :=
  ∀ ⦃index other place : Nat⦄, Takes slots index place → Takes slots other place → index = other

/-- Whether a slot is free, or one of the cells ends before the other one begins. -/
def Avoids (a b : Slot) : Prop :=
  a.isFree = true ∨ b.isFree = true ∨ a.offset + a.length ≤ b.offset ∨ b.offset + b.length ≤ a.offset

instance (a b : Slot) : Decidable (a.Avoids b) := inferInstanceAs (Decidable (_ ∨ _))

/-- A place of the one cell is no place of the other. -/
theorem Avoids.not_covers {a b : Slot} (avoids : a.Avoids b) {place : Nat} (covers : a.Covers place) :
    ¬ b.Covers place := by
  intro both
  have usedA := covers.used
  have usedB := both.used
  unfold Covers at covers both
  -- A free slot covers nothing, and cells of which one ends in time have no place in common.
  rcases avoids with free | free | before | behind
  · rw [usedA] at free
    cases free
  · rw [usedB] at free
    cases free
  · omega
  · omega

/-- Slots that do not avoid each other both cover the place where the later of them begins. -/
theorem exists_covers_of_not_avoids {a b : Slot} (meet : ¬ a.Avoids b) :
    ∃ place, a.Covers place ∧ b.Covers place := by
  simp only [Avoids, not_or, Bool.not_eq_true, isFree_eq_false_iff] at meet
  refine ⟨max a.offset b.offset, ?_, ?_⟩
  · unfold Covers
    omega
  · unfold Covers
    omega

/-- Whether the cells of a directory lie apart is told by comparing the slots in pairs. -/
theorem apart_iff_pairwise : Apart slots ↔ slots.Pairwise Avoids := by
  rw [List.pairwise_iff_getElem]
  constructor
  · intro apart index other within otherWithin before
    apply Decidable.byContradiction
    intro meet
    -- The place that both cells have would make the two numbers one.
    obtain ⟨place, covers, alsoCovers⟩ := exists_covers_of_not_avoids meet
    have same := apart ⟨_, List.getElem?_eq_getElem within, covers⟩
      ⟨_, List.getElem?_eq_getElem otherWithin, alsoCovers⟩
    omega
  · rintro avoids index other place ⟨slot, found, covers⟩ ⟨otherSlot, otherFound, alsoCovers⟩
    obtain ⟨within, rfl⟩ := List.getElem?_eq_some_iff.1 found
    obtain ⟨otherWithin, rfl⟩ := List.getElem?_eq_some_iff.1 otherFound
    -- Of two numbers the lower one comes first in the directory.
    rcases Nat.lt_trichotomy index other with before | same | behind
    · exact absurd alsoCovers ((avoids index other within otherWithin before).not_covers covers)
    · exact same
    · exact absurd covers ((avoids other index otherWithin within behind).not_covers alsoCovers)

instance (slots : List Slot) : Decidable (Apart slots) := decidable_of_iff _ apart_iff_pairwise.symm

/-- Whether the cell under one slot number ends before the cell under another one begins. -/
def Precedes (slots : List Slot) (index other : Nat) : Prop :=
  ∃ lower higher, slots[index]? = some lower ∧ slots[other]? = some higher
    ∧ lower.isFree = false ∧ higher.isFree = false ∧ lower.offset + lower.length ≤ higher.offset

/-- Where two slots stand as they stood, their cells have the order that they had. -/
theorem Precedes.congr (precedes : Precedes slots index other) (same : moved[index]? = slots[index]?)
    (otherSame : moved[other]? = slots[other]?) : Precedes moved index other := by
  unfold Precedes
  rwa [same, otherSame]

/-- Of two cells only one can lie before the other. -/
theorem Precedes.asymm (precedes : Precedes slots index other) : ¬ Precedes slots other index := by
  rintro ⟨lower, higher, found, otherFound, used, _, before⟩
  obtain ⟨otherLower, otherHigher, again, otherAgain, _, _, behind⟩ := precedes
  cases found.symm.trans otherAgain
  cases otherFound.symm.trans again
  have positive := isFree_eq_false_iff.1 used
  omega

/-- Directories whose cells lie in one order of their numbers, whatever it is, agree on each two of these. -/
theorem precedes_iff_of_pairwise {numbers : List Nat} (old : numbers.Pairwise (Precedes slots))
    (new : numbers.Pairwise (Precedes moved)) (listed : index ∈ numbers) (otherListed : other ∈ numbers) :
    Precedes slots index other ↔ Precedes moved index other := by
  rw [List.pairwise_iff_getElem] at old new
  obtain ⟨first, within, rfl⟩ := List.mem_iff_getElem.1 listed
  obtain ⟨second, otherWithin, rfl⟩ := List.mem_iff_getElem.1 otherListed
  -- The number that comes first has the lower cell in both directories.
  rcases Nat.lt_trichotomy first second with before | rfl | behind
  · exact iff_of_true (old first second within otherWithin before) (new first second within otherWithin before)
  · exact iff_of_false (fun below => below.asymm below) (fun below => below.asymm below)
  · exact iff_of_false (old second first otherWithin within behind).asymm
      (new second first otherWithin within behind).asymm

end Slot

namespace Page

variable {page : Page}

section Apart

variable {slots : List Slot} {start stop : Nat}

/-- Of cells that lie apart each ends before the ones above it begin. -/
theorem pairwise_inUse_of_apart (apart : Slot.Apart slots) :
    (inUse slots).Pairwise fun higher lower => lower.1.offset + lower.1.length ≤ higher.1.offset := by
  have distinct : (inUse slots).Pairwise fun higher lower => higher.2 ≠ lower.2 :=
    List.pairwise_map.1 (nodup_inUse slots)
  apply ((pairwise_inUse slots).and distinct).imp_of_mem
  rintro higher lower member otherMember ⟨descends, differ⟩
  obtain ⟨found, used⟩ := mem_inUse.1 member
  obtain ⟨otherFound, _⟩ := mem_inUse.1 otherMember
  have positive := Slot.isFree_eq_false_iff.1 used
  apply Decidable.byContradiction
  intro reaches
  -- A lower cell that reaches into the higher one has its first place too.
  have first : Slot.Takes slots higher.2 higher.1.offset := ⟨higher.1, found, Nat.le_refl _, by omega⟩
  have shared : Slot.Takes slots lower.2 higher.1.offset := ⟨lower.1, otherFound, descends, by omega⟩
  exact differ (apart first shared)

/-- The numbers of the slots in use in the order in which their cells lie, the lowest first. -/
def cellOrder (slots : List Slot) : List Nat := (inUse slots).reverse.map Prod.snd

theorem mem_cellOrder {number : Nat} {slot : Slot} (found : slots[number]? = some slot)
    (used : slot.isFree = false) : number ∈ cellOrder slots :=
  List.mem_map.2 ⟨(slot, number), List.mem_reverse.2 (mem_inUse.2 ⟨found, used⟩), rfl⟩

/-- In the order of cells that lie apart each precedes all that follow it. -/
theorem pairwise_cellOrder (apart : Slot.Apart slots) : (cellOrder slots).Pairwise (Slot.Precedes slots) := by
  rw [cellOrder, List.pairwise_map, List.pairwise_reverse]
  apply (pairwise_inUse_of_apart apart).imp_of_mem
  intro higher lower member otherMember before
  obtain ⟨found, used⟩ := mem_inUse.1 member
  obtain ⟨otherFound, otherUsed⟩ := mem_inUse.1 otherMember
  exact ⟨lower.1, higher.1, otherFound, found, otherUsed, used, before⟩

/-- Cells that lie one below the other within a range are together no longer than it. -/
theorem total_le_of_pairwise {entries : List (Slot × Nat)} (below : start ≤ stop)
    (descending : entries.Pairwise fun higher lower => lower.1.offset + lower.1.length ≤ higher.1.offset)
    (inside : ∀ entry ∈ entries, start ≤ entry.1.offset ∧ entry.1.offset + entry.1.length ≤ stop) :
    start + Slot.total (entries.map Prod.fst) ≤ stop := by
  -- Below the highest cell the others have the range up to where it begins.
  induction entries generalizing stop with
  | nil => exact below
  | cons entry rest ih =>
    obtain ⟨ends, lower⟩ := List.pairwise_cons.1 descending
    have first := inside entry List.mem_cons_self
    have others := ih first.1 lower fun other member =>
      ⟨(inside other (List.mem_cons_of_mem _ member)).1, ends other member⟩
    have sum : Slot.total ((entry :: rest).map Prod.fst) = entry.1.length + Slot.total (rest.map Prod.fst) := by
      simp [Slot.total]
    omega

/-- A readable page whose cells lie apart has room for them side by side. -/
theorem Readable.sound (readable : page.Readable) (apart : Slot.Apart page.slots) : page.Sound := by
  refine ⟨readable.large, readable.small, readable.directory, readable.inside, ?_, readable.words⟩
  rw [← total_inUse]
  apply total_le_of_pairwise readable.within (pairwise_inUse_of_apart apart)
  intro entry member
  obtain ⟨found, used⟩ := mem_inUse.1 member
  exact readable.inside entry.1 (List.mem_of_getElem? found) used

end Apart

section Order

/-- The cells of some slots were packed, and from the lowest up they lie in the order of the numbers. -/
structure Packing.Rises (packing : Packing) (numbers : List Nat) : Prop where
  packed : ∀ number ∈ numbers, ∃ slot, packing.slots[number]? = some slot
    ∧ slot.isFree = false ∧ packing.start ≤ slot.offset
  order : numbers.Pairwise (Slot.Precedes packing.slots)

namespace Packing.Rises

variable {packing next last : Packing} {numbers : List Nat}

/-- A cell that is packed precedes all that were packed before it. -/
theorem packCell (rises : packing.Rises numbers) (word : packing.start < wordLimit) {entry : Slot × Nat}
    (used : entry.1.isFree = false) (listed : entry.2 < packing.slots.length) (fresh : entry.2 ∉ numbers)
    (moved : page.packCell packing entry = .ok next) : next.Rises (entry.2 :: numbers) := by
  obtain ⟨room, start, slots⟩ := packCell_eq_ok moved
  rw [Nat.mod_eq_of_lt (show next.start < wordLimit by omega)] at slots
  -- The slot of the cell is told its new place, and the slots that were packed before keep theirs.
  have placed : next.slots[entry.2]? = some ⟨next.start, entry.1.length⟩ := by
    rw [slots, List.getElem?_set_self listed]
  have kept : ∀ number ∈ numbers, next.slots[number]? = packing.slots[number]? := by
    intro number member
    have differ : entry.2 ≠ number := by
      rintro rfl
      exact fresh member
    rw [slots, List.getElem?_set_ne differ]
  constructor
  · intro number member
    rcases List.mem_cons.1 member with rfl | old
    · exact ⟨_, placed, used, Nat.le_refl _⟩
    · obtain ⟨slot, found, inUse, beyond⟩ := rises.packed number old
      exact ⟨slot, (kept number old).trans found, inUse, by omega⟩
  · apply List.pairwise_cons.2
    constructor
    · intro number member
      obtain ⟨slot, found, inUse, beyond⟩ := rises.packed number member
      -- The new cell ends where those before it begin.
      exact ⟨_, slot, placed, (kept number member).trans found, used, inUse, by simp only; omega⟩
    · apply rises.order.imp_of_mem
      intro number other member otherMember precedes
      exact precedes.congr (kept number member) (kept other otherMember)

/-- Cells that are packed in turn come to lie in the reverse order of their turns. -/
theorem foldlM {todo : List (Slot × Nat)} (rises : packing.Rises numbers) (word : packing.start < wordLimit)
    (listed : ∀ entry ∈ todo, entry.1.isFree = false ∧ entry.2 < packing.slots.length)
    (distinct : (todo.map Prod.snd).Nodup) (fresh : ∀ entry ∈ todo, entry.2 ∉ numbers)
    (packed : todo.foldlM page.packCell packing = .ok last) :
    last.Rises (todo.reverse.map Prod.snd ++ numbers) := by
  -- The first cell precedes those that are done, and is done when the others move.
  induction todo generalizing packing numbers with
  | nil =>
    cases packed
    exact rises
  | cons entry rest ih =>
    rw [List.foldlM_cons] at packed
    rw [List.map_cons, List.nodup_cons] at distinct
    obtain ⟨next, moved, later⟩ := Outcome.exists_of_bind packed
    obtain ⟨room, start, slots⟩ := packCell_eq_ok moved
    obtain ⟨used, within⟩ := listed entry List.mem_cons_self
    have stepped := rises.packCell word used within (fresh entry List.mem_cons_self) moved
    have still : ∀ other ∈ rest, other.1.isFree = false ∧ other.2 < next.slots.length := by
      intro other member
      rw [slots, List.length_set]
      exact listed other (List.mem_cons_of_mem _ member)
    have apart : ∀ other ∈ rest, other.2 ∉ entry.2 :: numbers := by
      intro other member among
      rcases List.mem_cons.1 among with same | old
      · exact distinct.1 (same ▸ List.mem_map_of_mem member)
      · exact fresh other (List.mem_cons_of_mem _ member) old
    have whole := ih stepped (by omega) still distinct.2 apart later
    rwa [List.reverse_cons, List.map_append, List.append_assoc]

end Packing.Rises

/-- Packing keeps the order of cells that lie apart. -/
theorem Sound.precedes_packed (sound : page.Sound) (apart : Slot.Apart page.slots) {packing : Packing}
    (folded : (inUse page.slots).foldlM page.packCell ⟨page.size, [], page.slots⟩ = .ok packing)
    (packs : page.Packs (inUse page.slots).reverse packing) (index other : Nat) :
    Slot.Precedes packing.slots index other ↔ Slot.Precedes page.slots index other := by
  have nothing : Packing.Rises ⟨page.size, [], page.slots⟩ [] := ⟨by simp, .nil⟩
  have listed : ∀ entry ∈ inUse page.slots, entry.1.isFree = false ∧ entry.2 < page.slots.length := by
    intro entry member
    obtain ⟨found, used⟩ := mem_inUse.1 member
    exact ⟨used, (List.getElem?_eq_some_iff.1 found).1⟩
  have rises : packing.Rises (cellOrder page.slots) := by
    have whole := nothing.foldlM sound.small listed (nodup_inUse page.slots) (by simp) folded
    rwa [List.append_nil] at whole
  have same := fun (member : index ∈ cellOrder page.slots) (otherMember : other ∈ cellOrder page.slots) =>
    Slot.precedes_iff_of_pairwise rises.order (pairwise_cellOrder apart) member otherMember
  -- Before and after packing only a slot in use has a cell.
  constructor
  · intro precedes
    have ⟨_, _, stands, otherStands, used, otherUsed, _⟩ := precedes
    obtain ⟨_, found, moves⟩ := packs.exists_origin_at stands
    obtain ⟨_, otherFound, otherMoves⟩ := packs.exists_origin_at otherStands
    exact (same (mem_cellOrder found (moves.isFree_eq ▸ used))
      (mem_cellOrder otherFound (otherMoves.isFree_eq ▸ otherUsed))).1 precedes
  · intro precedes
    have ⟨_, _, found, otherFound, used, otherUsed, _⟩ := precedes
    exact (same (mem_cellOrder found used) (mem_cellOrder otherFound otherUsed)).2 precedes

end Order

section Erase

variable {index : Nat} {slot : Slot}

/-- After a slot was freed the slots in use are the others that were in use. -/
theorem getElem?_vacate_used (page : Page) (index number : Nat) (slot : Slot) :
    (page.vacate index).slots[number]? = some slot ∧ slot.isFree = false
      ↔ number ≠ index ∧ page.slots[number]? = some slot ∧ slot.isFree = false := by
  obtain ⟨tail, split, free⟩ := trimFree_append (page.slots.set index .free)
  have whole : (page.slots.set index .free)[number]? = ((page.vacate index).slots ++ tail)[number]? :=
    congrArg (·[number]?) split
  constructor
  · rintro ⟨found, used⟩
    rw [List.getElem?_append_left (List.getElem?_eq_some_iff.1 found).1, found] at whole
    by_cases here : index = number
    · -- The slot that was freed is not in use.
      have within := (List.getElem?_eq_some_iff.1 whole).1
      rw [List.length_set] at within
      rw [here, List.getElem?_set_self within] at whole
      cases whole
      cases used
    · rw [List.getElem?_set_ne here] at whole
      exact ⟨Ne.symm here, whole, used⟩
  · rintro ⟨differ, found, used⟩
    rw [List.getElem?_set_ne (Ne.symm differ), found] at whole
    refine ⟨?_, used⟩
    -- Only free slots were trimmed.
    rcases Nat.lt_or_ge number (page.vacate index).slots.length with within | past
    · rw [List.getElem?_append_left within] at whole
      exact whole.symm
    · rw [List.getElem?_append_right past] at whole
      rw [free slot (List.mem_of_getElem? whole.symm)] at used
      cases used

/-- Cells that lie apart still do when one of them is gone. -/
theorem apart_vacate (apart : Slot.Apart page.slots) (index : Nat) : Slot.Apart (page.vacate index).slots := by
  have stood : ∀ {number place : Nat}, Slot.Takes (page.vacate index).slots number place →
      Slot.Takes page.slots number place := by
    rintro number place ⟨slot, found, covers⟩
    exact ⟨slot, ((page.getElem?_vacate_used index number slot).1 ⟨found, covers.used⟩).2.1, covers⟩
  exact fun _ _ _ taken alsoTaken => apart (stood taken) (stood alsoTaken)

/-- The order of the other cells is what it was before the slot was freed. -/
theorem precedes_vacate (page : Page) (index number other : Nat) :
    Slot.Precedes (page.vacate index).slots number other
      ↔ number ≠ index ∧ other ≠ index ∧ Slot.Precedes page.slots number other := by
  constructor
  · rintro ⟨lower, higher, found, otherFound, used, otherUsed, before⟩
    obtain ⟨differ, stood, _⟩ := (page.getElem?_vacate_used index number lower).1 ⟨found, used⟩
    obtain ⟨otherDiffer, otherStood, _⟩ := (page.getElem?_vacate_used index other higher).1 ⟨otherFound, otherUsed⟩
    exact ⟨differ, otherDiffer, lower, higher, stood, otherStood, used, otherUsed, before⟩
  · rintro ⟨differ, otherDiffer, lower, higher, stood, otherStood, used, otherUsed, before⟩
    obtain ⟨found, _⟩ := (page.getElem?_vacate_used index number lower).2 ⟨differ, stood, used⟩
    obtain ⟨otherFound, _⟩ := (page.getElem?_vacate_used index other higher).2 ⟨otherDiffer, otherStood, otherUsed⟩
    exact ⟨lower, higher, found, otherFound, used, otherUsed, before⟩

/-- A page after a cell was erased from a slot and the gaps between the others were closed. -/
structure Closes (page : Page) (index : Nat) (slot : Slot) (after : Page) : Prop where
  id : after.id = page.id
  size : after.size = page.size
  changedBy : after.changedBy = page.changedBy
  /-- Under every other number there is the cell that was there, or still none. -/
  shown : ∀ number, after.cell? number = if number = index then .ok none else page.cell? number
  /-- Every place from the lowest cell to the end of the page belongs to exactly one cell. -/
  tiles : Tiles (Slot.Takes after.slots) after.cellStart after.size
  /-- Of two cells that are left the one lies before the other that lay before it. -/
  order : ∀ number other, Slot.Precedes after.slots number other
    ↔ number ≠ index ∧ other ≠ index ∧ Slot.Precedes page.slots number other
  /-- The lowest cell begins higher, by what the erased cell took at least. -/
  start : page.cellStart + slot.length ≤ after.cellStart
  /-- There is as much more room. -/
  room : ∃ before now, page.room = .ok before ∧ after.room = .ok now ∧ before + slot.length ≤ now

/-- Erasing a cell from a sound page whose cells lie apart closes the gaps. -/
theorem Sound.exists_closes (sound : page.Sound) (apart : Slot.Apart page.slots)
    (found : page.slots[index]? = some slot) (used : slot.isFree = false) :
    ∃ after, page.erase index = .ok after ∧ page.Closes index slot after := by
  -- After the slot was freed, the other cells move together.
  have vacated := sound.vacate index
  obtain ⟨packing, folded, packs, packed⟩ := vacated.exists_packs
  have afterSound := packs.sound vacated
  -- They fill the page from the lowest of them, so what the erased cell took is free now.
  have higher : page.cellStart + slot.length ≤ packing.start := by
    have given := total_vacate found
    have filled : packing.start + Slot.total (page.vacate index).slots = page.size := packs.start_add_total
    have before := sound.apart
    omega
  have shorter : ((page.vacate index).packed packing).directoryEnd ≤ page.directoryEnd := by
    have fewer := page.length_vacate_le index
    have entries : ((page.vacate index).packed packing).slots.length = (page.vacate index).slots.length := packs.slots
    unfold directoryEnd entrySize
    omega
  refine ⟨_, (erase_eq_pack found used).trans packed, rfl, packs.size_packed, rfl, ?_, ?_, ?_, higher, ?_⟩
  · intro number
    rw [afterSound.cell?_eq, sound.cell?_eq, packs.cells, cells_vacate, SlotList.join_remove]
    split <;> rfl
  · rw [packs.size_packed]
    exact vacated.tiles_packed folded packs
  · intro number other
    exact (vacated.precedes_packed (apart_vacate apart index) folded packs number other).trans
      (page.precedes_vacate index number other)
  · have directory := sound.directory
    have start : ((page.vacate index).packed packing).cellStart = packing.start := rfl
    exact ⟨_, _, sound.room_eq, afterSound.room_eq, by omega⟩

/--
Erasing a cell closes the gaps of a page that was read.

There may be gaps before, between and after its cells, the cells may lie in any order, and any slots may be
free, as long as no place belongs to two cells. Then each of the cells can be erased. The others keep their
numbers and their bytes, and fill the end of the page without a gap, in the order in which they lay.
-/
theorem erase_closes_gaps {id : PageId} {image : Bytes} (read : ofImage id image = .ok page)
    (apart : Slot.Apart page.slots) (found : page.slots[index]? = some slot) (used : slot.isFree = false) :
    ∃ after, page.erase index = .ok after ∧ page.Closes index slot after :=
  ((ofImage_readable read).sound apart).exists_closes apart found used

/-- The slots of a page with three cells and a free slot, where the cell of the first slot is not the highest. -/
def scatteredSlots : List Slot := [⟨40, 3⟩, ⟨5, 0⟩, ⟨34, 2⟩, ⟨45, 2⟩]

/-- The image of such a page with bytes below its cells, between each two of them and above them. -/
def scatteredImage : Bytes :=
  [62, 89, 177, 132] ++ [4, 0, 33, 0] ++ Bytes.zeros 8 ++ scatteredSlots.flatMap entryBytes
    ++ [89, 90, 1, 2, 91, 92, 93, 94, 3, 4, 5, 95, 96, 6, 7, 97]

/-- What that image holds. -/
def scattered : Page := ⟨⟨1, 0⟩, scatteredSlots, 33, scatteredImage, none⟩

/-- The cell between the two others is erased, and its slot is followed by a free one. -/
theorem erase_closes_gaps_scattered :
    (ofImage ⟨1, 0⟩ scatteredImage = .ok scattered ∧ Slot.Apart scattered.slots
      ∧ scattered.slots[0]? = some ⟨40, 3⟩ ∧ Slot.isFree ⟨40, 3⟩ = false)
      ∧ ∃ after, scattered.erase 0 = .ok after ∧ scattered.Closes 0 ⟨40, 3⟩ after := by
  have read : ofImage ⟨1, 0⟩ scatteredImage = .ok scattered := eq_ok_of_toOption (by decide +kernel)
  have apart : Slot.Apart scattered.slots := by decide
  exact ⟨⟨read, apart, rfl, rfl⟩, erase_closes_gaps read apart rfl rfl⟩

end Erase

end Page

end HeapEngine
