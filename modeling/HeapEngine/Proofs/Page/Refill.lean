import HeapEngine.Proofs.Page.Encodable
import HeapEngine.Proofs.Record.Exact

/-!
A record can be stored again where it was read.

Records are written in no more bytes than they were read from, and erasing a cell gives its bytes back. The
page may have any size. Offsets are words, so a page that is larger than a word can tell counts its space as
if it had only the bytes beyond the last whole word.
-/

namespace HeapEngine.Page

/-- How many bytes of a page its offsets can tell apart. -/
def span (page : Page) : Nat := page.size % wordLimit

/-- A page whose space is accounted for: its cells, and the space that is left, make up its span. -/
structure Balanced (page : Page) : Prop where
  /-- A page that is too small for a slot may be too small for a header. -/
  directory : page.slots ≠ [] → page.directoryEnd ≤ page.cellStart
  whole : page.cellStart + Slot.total page.slots = page.span
  inside : ∀ slot ∈ page.slots, slot.isFree = false → slot.offset + slot.length ≤ page.span

variable {page : Page}

theorem span_le_size (page : Page) : page.span ≤ page.size := Nat.mod_le _ _

theorem span_lt (page : Page) : page.span < wordLimit := Nat.mod_lt _ (by decide)

/-- A place among the last bytes of a page is told as its place in the span. -/
theorem mod_wordLimit (page : Page) {place : Nat} (above : page.size - page.span ≤ place)
    (within : place ≤ page.size) : place % wordLimit = place - (page.size - page.span) := by
  -- Before the span there are whole words, which an offset does not tell.
  have words : page.size - page.span = wordLimit * (page.size / wordLimit) := by
    have parts := Nat.div_add_mod page.size wordLimit
    unfold span
    omega
  have most := page.span_le_size
  have small := page.span_lt
  obtain ⟨beyond, rfl⟩ := Nat.exists_eq_add_of_le above
  rw [words, Nat.mul_add_mod, Nat.mod_eq_of_lt (by omega)]
  omega

/-- An empty page is balanced, whatever its size. -/
theorem empty_balanced (id : PageId) (size : Nat) : (empty id size).Balanced where
  directory filled := absurd rfl filled
  whole := by
    have length : (empty id size).size = size := Bytes.length_zeros size
    rw [span, length]
    rfl
  inside slot member := absurd member List.not_mem_nil

/-- Only the lengths of slots decide whether one of them is free. -/
theorem isSome_freeSlot?_congr {other : Page} (same : other.slots.map Slot.length = page.slots.map Slot.length) :
    other.freeSlot?.isSome = page.freeSlot?.isSome := by
  have free : (fun length => decide (length = 0)) ∘ Slot.length = Slot.isFree := rfl
  have lowest : ∀ slots : List Slot, (slots.map Slot.length).findIdx? (fun length => decide (length = 0))
      = slots.findIdx? Slot.isFree := fun slots => by rw [List.findIdx?_map, free]
  rw [freeSlot?, freeSlot?, ← lowest, ← lowest, same]

/-- A page has a free slot if any of its slots is free. -/
theorem isSome_freeSlot? {slot : Slot} (member : slot ∈ page.slots) (free : slot.isFree = true) :
    page.freeSlot?.isSome = true := by
  rw [freeSlot?, List.findIdx?_isSome]
  exact List.any_eq_true.2 ⟨slot, member, free⟩

section Insert

variable {cell : Bytes} {changed : Page} {index : Nat}

/-- A cell that goes in takes its bytes from the space that is left. -/
theorem Balanced.insert (balanced : page.Balanced) (inserted : page.insert cell = .ok (changed, index)) :
    changed.Balanced := by
  obtain ⟨_, rfl, room, within⟩ := eq_withCell_of_insert inserted
  have whole := balanced.whole
  have size : (page.withCell cell).size = page.size :=
    Bytes.length_overwrite (by unfold Page.size at within; omega)
  have span : (page.withCell cell).span = page.span := congrArg (· % wordLimit) size
  have start : (page.withCell cell).cellStart = page.cellStart - cell.length := rfl
  refine ⟨fun _ => ?_, ?_, fun slot member used => ?_⟩
  · -- The directory grows by the cost of the entry, for which there was room.
    have entries := page.length_assign ⟨page.cellStart - cell.length, cell.length⟩
    have directory : (page.withCell cell).directoryEnd = page.directoryEnd + page.entryCost := by
      simp only [directoryEnd, withCell, entries]
      omega
    omega
  · rw [span, start]
    simp only [withCell, total_assign]
    omega
  · rw [span]
    rcases mem_assign member with rfl | old
    · simp only
      omega
    · exact balanced.inside slot old used

end Insert

section Erase

/-- Setting a slot to one of the same length leaves all lengths as they are. -/
theorem map_length_set {slots : List Slot} {index : Nat} {slot : Slot}
    (same : (slots.map Slot.length)[index]? = some slot.length) :
    (slots.set index slot).map Slot.length = slots.map Slot.length := by
  rw [List.map_set]
  refine List.ext_getElem? fun other => ?_
  rw [List.getElem?_set]
  by_cases here : index = other
  · subst here
    have within := (List.getElem?_eq_some_iff.1 same).1
    rw [if_pos rfl, if_pos within, same]
  · rw [if_neg here]

/-- Cells were moved below others. They took so many bytes, and no slot became shorter or longer. -/
structure Shifts (page : Page) (before after : Packing) (bytes : Nat) : Prop where
  start : after.start + bytes = before.start
  lengths : after.slots.map Slot.length = before.slots.map Slot.length
  /-- A slot is left as it is, or its cell is moved to where offsets can tell it. -/
  inside : ∀ slot ∈ after.slots, slot ∈ before.slots ∨ slot.offset + slot.length ≤ page.span

/-- A cell can be packed below those already packed if there is room for it. -/
theorem exists_packCell {packing : Packing} {entry : Slot × Nat}
    (inside : entry.1.offset + entry.1.length ≤ page.span)
    (stands : (packing.slots.map Slot.length)[entry.2]? = some entry.1.length)
    (room : page.size - page.span + entry.1.length ≤ packing.start) (within : packing.start ≤ page.size) :
    ∃ next, page.packCell packing entry = .ok next ∧ page.Shifts packing next entry.1.length := by
  have most := page.span_le_size
  have small := page.span_lt
  have above : ¬ page.size < entry.1.offset + entry.1.length := by omega
  have enough : ¬ packing.start < entry.1.length := by omega
  have word : (packing.start - entry.1.length) % wordLimit
      = packing.start - entry.1.length - (page.size - page.span) :=
    page.mod_wordLimit (by omega) (by omega)
  refine ⟨⟨packing.start - entry.1.length, page.buffer.window entry.1.offset entry.1.length ++ packing.cells,
    packing.slots.set entry.2 ⟨(packing.start - entry.1.length) % wordLimit, entry.1.length⟩⟩, ?_, ?_, ?_, ?_⟩
  · simp [packCell, cellAt, enough, above, Bind.bind, Except.bind]
  · exact Nat.sub_add_cancel (Nat.not_lt.1 enough)
  · exact map_length_set stands
  · intro slot member
    rcases List.mem_or_eq_of_mem_set member with old | rfl
    · exact .inl old
    · refine .inr ?_
      simp only [word]
      omega

/-- Cells can be packed in turn if there is room for all of them. -/
theorem exists_foldlM_packCell {entries : List (Slot × Nat)} (packing : Packing)
    (inside : ∀ entry ∈ entries, entry.1.offset + entry.1.length ≤ page.span)
    (stand : ∀ entry ∈ entries, (packing.slots.map Slot.length)[entry.2]? = some entry.1.length)
    (room : page.size - page.span + Slot.total (entries.map Prod.fst) ≤ packing.start)
    (within : packing.start ≤ page.size) :
    ∃ last, entries.foldlM page.packCell packing = .ok last
      ∧ page.Shifts packing last (Slot.total (entries.map Prod.fst)) := by
  -- Each cell leaves the room that the others need, and every slot keeps its length until its turn.
  induction entries generalizing packing with
  | nil => exact ⟨packing, rfl, rfl, rfl, fun slot member => .inl member⟩
  | cons entry rest ih =>
    have total : Slot.total ((entry :: rest).map Prod.fst) = entry.1.length + Slot.total (rest.map Prod.fst) := by
      simp [Slot.total]
    rw [total] at room ⊢
    obtain ⟨next, moved, shifts⟩ :=
      exists_packCell (inside entry List.mem_cons_self) (stand entry List.mem_cons_self) (by omega) within
    have start := shifts.start
    obtain ⟨last, packed, later⟩ := ih next (fun other member => inside other (List.mem_cons_of_mem _ member))
      (fun other member => shifts.lengths ▸ stand other (List.mem_cons_of_mem _ member)) (by omega) (by omega)
    have lower := later.start
    refine ⟨last, ?_, by omega, later.lengths.trans shifts.lengths, fun slot member => ?_⟩
    · rw [List.foldlM_cons, moved]
      exact packed
    · rcases later.inside slot member with old | moved
      · exact shifts.inside slot old
      · exact .inr moved

/-- What packing leaves where the cells have room in the span: they end there, under slots of the same lengths. -/
structure Settles (before after : Page) : Prop where
  size : after.size = before.size
  lengths : after.slots.map Slot.length = before.slots.map Slot.length
  whole : after.cellStart + Slot.total after.slots = after.span
  inside : ∀ slot ∈ after.slots, slot.isFree = false → slot.offset + slot.length ≤ after.span

/-- Cells that have room in the span of a page can be moved together there. -/
theorem exists_settles (room : Slot.total page.slots ≤ page.span)
    (inside : ∀ slot ∈ page.slots, slot.isFree = false → slot.offset + slot.length ≤ page.span) :
    ∃ after, page.pack = .ok after ∧ page.Settles after := by
  have most := page.span_le_size
  have total := total_inUse page.slots
  have entered : ∀ entry ∈ inUse page.slots, entry.1.offset + entry.1.length ≤ page.span := fun entry member => by
    obtain ⟨found, used⟩ := mem_inUse.1 member
    exact inside entry.1 (List.mem_of_getElem? found) used
  have stand : ∀ entry ∈ inUse page.slots, (page.slots.map Slot.length)[entry.2]? = some entry.1.length :=
    fun entry member => by
      rw [List.getElem?_map, (mem_inUse.1 member).1]
      rfl
  obtain ⟨packing, folded, shifts⟩ := exists_foldlM_packCell ⟨page.size, [], page.slots⟩ entered stand
    (by simp only [total]; omega) (Nat.le_refl _)
  have start := shifts.start
  rw [total] at start
  simp only at start
  -- What was packed fills the page from its lowest cell on.
  have size : (Bytes.zeros packing.start ++ packing.cells).length = page.size := by
    have filled := (foldlM_packCell_eq_ok folded).1
    simpa using filled
  have word : packing.start % wordLimit = packing.start - (page.size - page.span) :=
    page.mod_wordLimit (by omega) (by omega)
  let after : Page := { page with
    slots := packing.slots
    cellStart := packing.start % wordLimit
    buffer := Bytes.zeros packing.start ++ packing.cells }
  have span : after.span = page.span := congrArg (· % wordLimit) size
  refine ⟨after, ?_, size, shifts.lengths, ?_, fun slot member used => ?_⟩
  · rw [pack, folded]
    rfl
  · have lengths : Slot.total packing.slots = Slot.total page.slots := congrArg List.sum shifts.lengths
    show packing.start % wordLimit + Slot.total packing.slots = after.span
    rw [span, word, lengths]
    omega
  · rw [span]
    rcases shifts.inside slot member with old | moved
    · exact inside slot old used
    · exact moved

/-- Freeing a slot makes the directory shorter, or it leaves a free slot in it. -/
theorem length_trimFree_lt_or {slots : List Slot} {index : Nat} (within : index < slots.length) :
    (trimFree (slots.set index .free)).length < slots.length ∨ Slot.free ∈ trimFree (slots.set index .free) := by
  obtain ⟨tail, split, free⟩ := trimFree_append (slots.set index .free)
  have lengths := congrArg List.length split
  rw [List.length_append, List.length_set] at lengths
  by_cases nothing : tail = []
  · rw [nothing, List.append_nil] at split
    exact .inr (split ▸ List.mem_set within Slot.free)
  · have positive := List.length_pos_iff.2 nothing
    omega

/-- A cell that is erased leaves its bytes and what its slot costs, and the page is balanced again. -/
theorem Balanced.exists_erase (balanced : page.Balanced) {index : Nat} {slot : Slot}
    (found : page.slots[index]? = some slot) (used : slot.isFree = false) :
    ∃ after, page.erase index = .ok after ∧ after.Balanced ∧ after.size = page.size
      ∧ after.directoryEnd + slot.length + after.entryCost ≤ after.cellStart := by
  have within := (List.getElem?_eq_some_iff.1 found).1
  have directory := balanced.directory (List.ne_nil_of_mem (List.mem_of_getElem? found))
  have whole := balanced.whole
  have given := total_vacate found
  have span : (page.vacate index).span = page.span := rfl
  have inside : ∀ other ∈ (page.vacate index).slots, other.isFree = false →
      other.offset + other.length ≤ (page.vacate index).span := fun other member inUse => by
    -- The slots that are left stood there before, but for the one that was freed.
    rcases List.mem_or_eq_of_mem_set (mem_of_mem_trimFree member) with old | rfl
    · exact balanced.inside other old inUse
    · simp at inUse
  obtain ⟨after, packed, settles⟩ := exists_settles (by omega) inside
  have size : after.size = page.size := settles.size
  have same : after.span = page.span := congrArg (· % wordLimit) size
  have entries : after.slots.length = (page.vacate index).slots.length := by
    simpa using congrArg List.length settles.lengths
  have total : Slot.total after.slots = Slot.total (page.vacate index).slots := congrArg List.sum settles.lengths
  have start := settles.whole
  have room : after.directoryEnd + slot.length + after.entryCost ≤ after.cellStart := by
    simp only [directoryEnd, headerSize, entrySize] at directory ⊢
    -- A slot that is no longer there pays for the next one, and a free one costs nothing.
    rcases length_trimFree_lt_or within with shorter | free
    · have cost : after.entryCost ≤ 4 := by
        unfold entryCost entrySize
        split <;> omega
      have fewer : (page.vacate index).slots.length < page.slots.length := shorter
      omega
    · have fewer := page.length_vacate_le index
      have vacant : after.freeSlot?.isSome = true := by
        rw [isSome_freeSlot?_congr settles.lengths]
        exact isSome_freeSlot? free rfl
      have cost : after.entryCost = 0 := by rw [entryCost, if_pos vacant]
      omega
  exact ⟨after, (erase_eq_pack found used).trans packed, ⟨fun _ => by omega, start, settles.inside⟩, size, room⟩

/-- A page that a cell was erased from is balanced. -/
theorem Balanced.erase (balanced : page.Balanced) {changed : Page} {index : Nat}
    (erased : page.erase index = .ok changed) : changed.Balanced := by
  obtain ⟨slot, found, used, _⟩ := erase_eq_ok erased
  obtain ⟨after, same, kept, _⟩ := balanced.exists_erase found used
  cases erased.symm.trans same
  exact kept

end Erase

/-- A request that a balanced page serves leaves a balanced page. -/
theorem Balanced.serve (balanced : page.Balanced) {request : CellRequest} {reply : CellReply} {changed : Page}
    (served : page.serve request = .ok (changed, reply)) : changed.Balanced := by
  cases request with
  | insert cell =>
    obtain ⟨_, inserted, told⟩ := Outcome.exists_of_bind served
    cases told
    exact balanced.insert inserted
  | erase slot =>
    obtain ⟨_, erased, told⟩ := Outcome.exists_of_bind served
    cases told
    exact balanced.erase erased
  | eraseRecord record =>
    obtain ⟨_, erased, told⟩ := Outcome.exists_of_bind served
    cases told
    -- A record that is erased is the cell of its slot.
    obtain ⟨_, _, _, _, cellErased⟩ := eraseRecord_eq_ok erased
    exact balanced.erase cellErased
  | look slot =>
    obtain ⟨_, _, told⟩ := Outcome.exists_of_bind served
    cases told
    exact balanced

/-- After a request the others are served on the page it left, or on the same one if it failed. -/
theorem exists_of_serveAll_cons {request : CellRequest} {rest : List CellRequest} {last : Page}
    {answers : List (Except Failure CellReply)} (served : page.serveAll (request :: rest) = .ok (last, answers)) :
    ∃ middle later, middle.serveAll rest = .ok (last, later)
      ∧ (middle = page ∨ ∃ reply, page.serve request = .ok (middle, reply)) := by
  -- Each answer is put before those that follow, so these end with the same page.
  have followed : ∀ (middle : Page) (answer : Except Failure CellReply),
      ((middle.serveAll rest).map fun ended => (ended.1, answer :: ended.2)) = .ok (last, answers) →
      ∃ later, middle.serveAll rest = .ok (last, later) := fun middle answer told => by
    cases ending : middle.serveAll rest with
    | error cause => simp [ending, Except.map] at told
    | ok result =>
      simp only [ending, Except.map, Except.ok.injEq, Prod.mk.injEq] at told
      exact ⟨result.2, by rw [← told.1]⟩
  rw [Page.serveAll] at served
  split at served
  · rename_i after reply answered
    obtain ⟨later, ending⟩ := followed after _ served
    exact ⟨after, later, ending, .inr ⟨reply, answered⟩⟩
  · obtain ⟨later, ending⟩ := followed page _ served
    exact ⟨page, later, ending, .inl rfl⟩
  · cases served

/-- Requests that do not trap leave a balanced page balanced. -/
theorem Balanced.serveAll (balanced : page.Balanced) {requests : List CellRequest} {last : Page}
    {answers : List (Except Failure CellReply)} (served : page.serveAll requests = .ok (last, answers)) :
    last.Balanced := by
  -- What fails leaves the page as it is, and what succeeds leaves it balanced.
  induction requests generalizing page answers with
  | nil =>
    cases served
    exact balanced
  | cons request rest ih =>
    obtain ⟨middle, later, ending, rfl | ⟨reply, answered⟩⟩ := exists_of_serveAll_cons served
    · exact ih balanced ending
    · exact ih (balanced.serve answered) ending

/-- A cell that is shown has the length that its slot tells. -/
theorem exists_of_cell? {index : Nat} {cell : Bytes} (shown : page.cell? index = .ok (some cell)) :
    ∃ slot, page.slots[index]? = some slot ∧ slot.isFree = false ∧ cell.length = slot.length := by
  unfold cell? at shown
  split at shown
  · rename_i slot found
    split at shown
    · cases shown
    rename_i used
    unfold cellAt at shown
    split at shown
    · cases shown
    rename_i within
    cases shown
    exact ⟨slot, found, by simpa using used, Bytes.length_window (by unfold Page.size at within; omega)⟩
  · cases shown

/-- Where a cell was erased there is room for one that is no longer. -/
theorem Balanced.exists_refill (balanced : page.Balanced) {index : Nat} {cell : Bytes} {record : Record}
    (shown : page.cell? index = .ok (some cell)) (short : record.encode.length ≤ cell.length) :
    ∃ after refilled place, page.erase index = .ok after ∧ after.insertRecord record = .ok (refilled, place) := by
  obtain ⟨slot, found, used, length⟩ := exists_of_cell? shown
  obtain ⟨after, erased, kept, _, room⟩ := balanced.exists_erase found used
  have most := after.span_le_size
  have small := after.span_lt
  have whole := kept.whole
  have limits : wordLimit < sizeLimit := by decide
  have fits : after.directoryEnd + record.encode.length + after.entryCost ≤ after.cellStart := by omega
  have inserted := insert_eq_ok record.encode_ne_nil fits (by omega) (by omega)
  refine ⟨after, after.withCell record.encode, ⟨after.id,
    (after.assign ⟨after.cellStart - record.encode.length, record.encode.length⟩).2 % wordLimit⟩, erased, ?_⟩
  rw [insertRecord, inserted]
  rfl

/--
A record that is read from bytes is written in fewer bytes or in the same ones.

So a record that is read from a cell of a page can always be stored on that page again once the cell is
erased, whatever was asked of the page before since it was empty and whatever its size is.
-/
theorem refills_empty {bytes : Bytes} {record : Record} (decoded : Record.decode bytes = .ok record) :
    record.encode.length ≤ bytes.length ∧ (record.encode.length = bytes.length → record.encode = bytes)
      ∧ ∀ (id : PageId) (size : Nat) (requests : List CellRequest) (page : Page)
          (answers : List (Except Failure CellReply)) (slot : Nat),
        (empty id size).serveAll requests = .ok (page, answers) → page.cell? slot = .ok (some bytes) →
        ∃ after refilled place, page.erase slot = .ok after ∧ after.insertRecord record = .ok (refilled, place) := by
  obtain ⟨shorter, same⟩ := (Record.reads_of_decode decoded).2.2.length_le
  refine ⟨shorter, same, fun id size requests page answers slot served shown => ?_⟩
  exact ((empty_balanced id size).serveAll served).exists_refill shown shorter

/-- The page of thirty bytes that two values in wide forms fill. -/
def wideFilled : Page := ⟨⟨1, 0⟩, [⟨20, 10⟩], 20, Bytes.zeros 20 ++ Record.wide, none⟩

/-- Values that were written wider than they need be go into a full page again once their cell is erased. -/
theorem refills_empty_wide : Record.decode Record.wide = .ok ⟨none, [.null, .integer (-3)]⟩
    ∧ (empty ⟨1, 0⟩ 30).serveAll [.insert Record.wide] = .ok (wideFilled, [.ok (.stored 0)])
    ∧ wideFilled.cell? 0 = .ok (some Record.wide)
    ∧ (Record.encode ⟨none, [.null, .integer (-3)]⟩).length ≤ Record.wide.length
    ∧ ((Record.encode ⟨none, [.null, .integer (-3)]⟩).length = Record.wide.length
      → Record.encode ⟨none, [.null, .integer (-3)]⟩ = Record.wide)
    ∧ ∃ after refilled place, wideFilled.erase 0 = .ok after
      ∧ after.insertRecord ⟨none, [.null, .integer (-3)]⟩ = .ok (refilled, place) := by
  have decoded : Record.decode Record.wide = .ok ⟨none, [.null, .integer (-3)]⟩ := rfl
  have served : (empty ⟨1, 0⟩ 30).serveAll [.insert Record.wide] = .ok (wideFilled, [.ok (.stored 0)]) := rfl
  have shown : wideFilled.cell? 0 = .ok (some Record.wide) := rfl
  obtain ⟨shorter, same, refills⟩ := refills_empty decoded
  exact ⟨decoded, served, shown, shorter, same, refills ⟨1, 0⟩ 30 _ wideFilled _ 0 served shown⟩

end HeapEngine.Page
