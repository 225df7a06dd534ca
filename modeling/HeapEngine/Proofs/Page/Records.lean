import HeapEngine.Proofs.Operation
import HeapEngine.Proofs.Page.Behaviour
import HeapEngine.Proofs.Record.Codec

/-! Records on sound pages: where one goes, when one can be erased, and which ones are read. -/

namespace HeapEngine

namespace Page

variable {page : Page}

/-- The record that a cell holds, under the place it has. -/
def recordOf (place : RecordId) (cell : Bytes) : Except Failure Record :=
  match Record.decode cell with
  | .error cause => .error (.encoding (.record cause))
  | .ok record => .ok { record with place := some place }

/-- The records that the first cells of a list hold, or the first failure to read one. -/
def recordsOf (id : PageId) (cells : SlotList) : List Nat → Except Failure (List Record)
  | [] => .ok []
  | slot :: rest =>
    match cells[slot]?.join with
    | none => recordsOf id cells rest
    | some cell =>
      match recordOf ⟨id, slot⟩ cell with
      | .error failure => .error failure
      | .ok record => (recordsOf id cells rest).map (record :: ·)

/-- Asking for room has an answer, or it traps. -/
theorem fits_ends (page : Page) (length : Nat) :
    (∃ room, page.fits length = .ok room) ∨ ∃ cause, page.fits length = trap cause := by
  simp only [fits, room, Bind.bind, Except.bind]
  by_cases crossed : page.cellStart < page.directoryEnd
  · exact .inr ⟨.overflow, by simp [crossed, trap]⟩
  · by_cases beyond : sizeLimit ≤ length + page.entryCost
    · exact .inr ⟨.overflow, by simp [crossed, beyond]⟩
    · exact .inl ⟨decide (length + page.entryCost ≤ page.cellStart - page.directoryEnd), by simp [crossed, beyond]⟩

/-- An empty page has room for a cell with its directory entry. -/
theorem fits_empty (id : PageId) {size length : Nat} (least : 20 ≤ size) (most : size ≤ 65535)
    (short : length ≤ size - 20) : (empty id size).fits length = .ok true := by
  obtain ⟨sound, _⟩ := empty_sound id least most
  have start : (empty id size).cellStart = size := Nat.mod_eq_of_lt (by unfold wordLimit; omega)
  have directory : (empty id size).directoryEnd = 16 := rfl
  have cost : (empty id size).entryCost = 4 := rfl
  rw [sound.fits_eq (by simp only [entrySize, sizeLimit]; omega), start, directory, cost]
  simp only [Except.ok.injEq, decide_eq_true_eq]
  omega

/-- A record for which there is room is stored, unless the page traps. -/
theorem insertRecord_of_fits {page : Page} {record : Record} (fits : page.fits record.encode.length = .ok true) :
    (∃ changed place, page.insertRecord record = .ok (changed, place))
      ∨ ∃ cause, page.insertRecord record = trap cause := by
  cases ran : page.insertRecord record with
  | ok stored => exact .inl ⟨stored.1, stored.2, rfl⟩
  | error fault =>
    simp only [insertRecord, insert, record.encode_ne_nil, fits, Bind.bind, Except.bind, ↓reduceIte, Bool.not_true,
      Bool.false_eq_true] at ran
    -- Only a page whose cells begin beyond its end is left.
    split at ran
    · rename_i stored
      split at stored
      · cases ran
        cases stored
        exact .inr ⟨_, rfl⟩
      · cases stored
    · cases ran

/-- Where there is room for a record it is not refused. -/
theorem insertRecord_ne_fail_of_fits {page : Page} {record : Record} (fits : page.fits record.encode.length = .ok true)
    (failure : Failure) : page.insertRecord record ≠ fail failure := by
  intro refused
  rcases insertRecord_of_fits fits with ⟨_, _, stored⟩ | ⟨_, trapped⟩
  · cases refused.symm.trans stored
  · cases refused.symm.trans trapped

/-- There was room for a record that was stored. -/
theorem fits_of_insertRecord {page changed : Page} {record : Record} {place : RecordId}
    (inserted : page.insertRecord record = .ok (changed, place)) : page.fits record.encode.length = .ok true := by
  obtain ⟨_, stored, _⟩ := Outcome.exists_of_bind inserted
  rw [insert, if_neg record.encode_ne_nil] at stored
  obtain ⟨room, counted, fitting⟩ := Outcome.exists_of_bind stored
  cases room with
  | true => exact counted
  | false => simp [fail] at fitting

namespace Sound

/-- A record goes where the list of cells puts it, or there is no room for it. -/
theorem insertRecord_ends (sound : page.Sound) {record : Record}
    (addressable : record.encode.length + entrySize < sizeLimit) :
    (∃ after place, page.insertRecord record = .ok (after, place) ∧ page.Evolves after
        ∧ place = ⟨page.id, (page.cells.put record.encode).2⟩
        ∧ after.cells = (page.cells.put record.encode).1)
      ∨ page.insertRecord record = fail (.noRoom page.id) := by
  have inserted := sound.insert_eq record.encode_ne_nil addressable
  -- Room is the only reason to refuse a record, as its bytes are not empty.
  by_cases room : record.encode.length + page.entryCost ≤ page.cellStart - page.directoryEnd
  · left
    obtain ⟨evolves, cells⟩ := sound.withCell_evolves record.encode_ne_nil room
    rw [if_pos room] at inserted
    refine ⟨page.withCell record.encode, _, ?_, evolves, rfl, cells⟩
    simp only [insertRecord, inserted, Bind.bind, Except.bind, evolves.id]
  · right
    rw [if_neg room] at inserted
    simp only [insertRecord, inserted, fail, Bind.bind, Except.bind]

/-- A record is stored on a sound page, or it is refused. -/
theorem insertRecord_ne_trap (sound : page.Sound) {record : Record}
    (addressable : record.encode.length + entrySize < sizeLimit) (cause : Trap) :
    page.insertRecord record ≠ trap cause := by
  intro trapped
  rcases sound.insertRecord_ends addressable with ⟨_, _, stored, _⟩ | refused
  · cases trapped.symm.trans stored
  · cases trapped.symm.trans refused

/-- A record is erased if its slot holds a cell of this page, and the page is left alone else. -/
theorem eraseRecord_ends (sound : page.Sound) (record : Record) :
    (∃ after place cell, page.eraseRecord record = .ok after ∧ page.Evolves after
        ∧ record.place = some place ∧ place.page = page.id
        ∧ page.cells[place.slot]? = some (some cell)
        ∧ after.cells = page.cells.remove place.slot)
      ∨ ∃ failure, page.eraseRecord record = fail failure := by
  cases placed : record.place with
  | none =>
    refine .inr ⟨.misuse .unplacedOnPage, ?_⟩
    simp only [eraseRecord, placed]
  | some place =>
    by_cases here : place.page = page.id
    · cases held : page.cells[place.slot]?.join with
      | none =>
        -- The slot is free or gone.
        refine .inr ⟨_, sound.eraseRecord_gone placed here fun cell used => ?_⟩
        rw [used] at held
        cases held
      | some cell =>
        have used := Option.join_eq_some_iff.1 held
        obtain ⟨after, erased, evolves, _, cells⟩ := sound.eraseRecord_used placed here used
        exact .inl ⟨after, place, cell, erased, evolves, rfl, here, used, cells⟩
    · refine .inr ⟨.misuse (.onOtherPage place page.id), ?_⟩
      simp only [eraseRecord, placed, ne_eq, here, not_false_eq_true, ↓reduceIte]

end Sound

namespace Contained

/-- A record is read from the cell under its slot. -/
theorem record?_eq (contained : page.Contained) (slot : Nat) :
    page.record? slot = match page.cells[slot]?.join with
      | none => .ok none
      | some cell => Outcome.ofResult ((recordOf ⟨page.id, slot⟩ cell).map some) := by
  simp only [record?, contained.cell?_eq, Bind.bind, Except.bind]
  cases page.cells[slot]?.join with
  | none => rfl
  | some cell =>
    simp only [recordOf]
    cases Record.decode cell <;> rfl

/-- Reading a record ends without a trap. -/
theorem record?_ends (contained : page.Contained) (slot : Nat) :
    ∃ result, page.record? slot = Outcome.ofResult result := by
  rw [contained.record?_eq slot]
  cases page.cells[slot]?.join with
  | none => exact ⟨.ok none, rfl⟩
  | some cell => exact ⟨_, rfl⟩

/-- All records of a page are those of its cells in slot order. -/
theorem records_eq (contained : page.Contained) : page.records
    = Outcome.ofResult (recordsOf page.id page.cells (List.range page.cells.length)) := by
  have few := contained.slots_lt
  unfold records
  rw [length_cells]
  -- Every slot number is a word, so none is cut off.
  have words : ∀ slot ∈ List.range page.slots.length, slot % wordLimit = slot := by
    intro slot member
    have within := List.mem_range.1 member
    exact Nat.mod_eq_of_lt (by omega)
  generalize List.range page.slots.length = slots at words
  induction slots with
  | nil => rfl
  | cons slot rest ih =>
    have tail := ih fun other member => words other (List.mem_cons_of_mem _ member)
    rw [List.mapM_cons, words slot List.mem_cons_self, contained.record?_eq slot, recordsOf]
    -- The first failure in slot order is told, so the later slots count only without one before.
    cases later : rest.mapM fun index => page.record? (index % wordLimit) with
    | error fault =>
      simp only [later, Bind.bind, Except.bind] at tail ⊢
      cases page.cells[slot]?.join with
      | none => exact tail
      | some cell =>
        simp only
        cases recordOf ⟨page.id, slot⟩ cell with
        | error failure => rfl
        | ok record =>
          cases more : recordsOf page.id page.cells rest with
          | error failure =>
            rw [more] at tail
            exact tail
          | ok records =>
            rw [more] at tail
            cases tail
    | ok found =>
      simp only [later, Bind.bind, Except.bind] at tail ⊢
      cases page.cells[slot]?.join with
      | none => exact tail
      | some cell =>
        simp only
        cases recordOf ⟨page.id, slot⟩ cell with
        | error failure => rfl
        | ok record =>
          cases more : recordsOf page.id page.cells rest with
          | error failure =>
            rw [more] at tail
            cases tail
          | ok records =>
            rw [more] at tail
            cases tail
            rfl

end Contained

namespace Sound

theorem record?_eq (sound : page.Sound) (slot : Nat) :
    page.record? slot = match page.cells[slot]?.join with
      | none => .ok none
      | some cell => Outcome.ofResult ((recordOf ⟨page.id, slot⟩ cell).map some) :=
  sound.contained.record?_eq slot

theorem record?_ends (sound : page.Sound) (slot : Nat) :
    ∃ result, page.record? slot = Outcome.ofResult result :=
  sound.contained.record?_ends slot

theorem records_eq (sound : page.Sound) : page.records
    = Outcome.ofResult (recordsOf page.id page.cells (List.range page.cells.length)) :=
  sound.contained.records_eq

end Sound

/-- The values of the record in a slot, if there is one that can be read. -/
def values? (page : Page) (slot : Nat) : Option (List Value) :=
  page.cells[slot]?.join.bind fun cell => (Record.decode cell).toOption.map Record.values

/-- Whether every cell of a page can be read as a record. -/
def Legible (page : Page) : Prop :=
  ∀ (slot : Nat) cell, page.cells[slot]?.join = some cell → ∃ record, Record.decode cell = .ok record

variable {page changed : Page} {record : Record} {place : RecordId}

/-- Pages with the same cells have the same records. -/
theorem values?_congr (same : page.cells = changed.cells) (slot : Nat) :
    page.values? slot = changed.values? slot := by
  unfold values?
  rw [same]

/-- A slot with a record is one of the page's. -/
theorem lt_of_values? {slot : Nat} {values : List Value} (shown : page.values? slot = some values) :
    slot < page.cells.length := by
  obtain ⟨cell, held, _⟩ := Option.bind_eq_some_iff.1 shown
  exact (List.getElem?_eq_some_iff.1 (Option.join_eq_some_iff.1 held)).1

/-- The records of a page are those of its slots, under the places they have. -/
theorem mem_recordsOf {id : PageId} {slots : List Nat} {records : List Record}
    (read : recordsOf id page.cells slots = .ok records) (record : Record) :
    record ∈ records ↔ ∃ slot ∈ slots, ∃ values, page.values? slot = some values
      ∧ record = ⟨some ⟨id, slot⟩, values⟩ := by
  induction slots generalizing records with
  | nil =>
    cases read
    simp
  | cons slot rest ih =>
    rw [recordsOf] at read
    simp only [List.mem_cons, exists_eq_or_imp]
    cases held : page.cells[slot]?.join with
    | none =>
      -- A free slot has no record.
      simp only [held] at read
      have nothing : page.values? slot = none := by rw [values?, held]; rfl
      rw [ih read]
      simp [nothing]
    | some cell =>
      simp only [held, recordOf] at read
      cases decoded : Record.decode cell with
      | error cause => simp [decoded] at read
      | ok first =>
        simp only [decoded] at read
        cases later : recordsOf id page.cells rest with
        | error failure => simp [later, Except.map] at read
        | ok others =>
          simp only [later, Except.map, Except.ok.injEq] at read
          subst read
          have values : page.values? slot = some first.values := by
            rw [values?, held, Option.bind_some, decoded]
            rfl
          rw [List.mem_cons, ih later]
          simp [values]

theorem Legible.congr (legible : page.Legible) (same : page.cells = changed.cells) : changed.Legible := by
  unfold Legible
  rw [← same]
  exact legible

/-- A page that holds only encoded records is legible. -/
theorem legible_of_encoded (encoded : ∀ cell, some cell ∈ page.cells →
    ∃ record : Record, cell = record.encode ∧ record.encode.length < 2 ^ 64) : page.Legible := by
  intro slot cell held
  obtain ⟨record, rfl, short⟩ :=
    encoded cell (List.mem_of_getElem? (Option.join_eq_some_iff.1 held))
  exact ⟨_, record.decode_encode (.of_length short)⟩

/-- A cell that was inserted takes no more room than the page has. -/
theorem Sound.length_of_insert (sound : page.Sound) {cell : Bytes} {slot : Nat}
    (inserted : page.insert cell = .ok (changed, slot)) : cell.length < wordLimit := by
  obtain ⟨_, _, room, within⟩ := eq_withCell_of_insert inserted
  have small := sound.small
  omega

/-- So its length can be counted, also together with its entry. -/
theorem Sound.addressable_of_insert (sound : page.Sound) {cell : Bytes} {slot : Nat}
    (inserted : page.insert cell = .ok (changed, slot)) : cell.length + entrySize < sizeLimit := by
  have short := sound.length_of_insert inserted
  have limits : wordLimit + entrySize < sizeLimit := by decide
  omega

/-- A record that was stored on a page takes no more room than the page has. -/
theorem Sound.length_of_insertRecord (sound : page.Sound)
    (inserted : page.insertRecord record = .ok (changed, place)) :
    record.encode.length < wordLimit := by
  obtain ⟨_, stored, _⟩ := Outcome.exists_of_bind inserted
  exact sound.length_of_insert stored

/-- What is inserted on a sound page leaves a sound one. -/
theorem Sound.of_insert (sound : page.Sound) {cell : Bytes} {slot : Nat}
    (inserted : page.insert cell = .ok (changed, slot)) : changed.Sound := by
  rcases sound.insert_ends (sound.addressable_of_insert inserted) with ⟨_, same, evolves, _⟩ | ⟨_, refused⟩
  · cases inserted.symm.trans same
    exact evolves.sound
  · cases inserted.symm.trans refused

/-- What is erased on a sound page leaves a sound one. -/
theorem Sound.of_erase (sound : page.Sound) {slot : Nat} (erased : page.erase slot = .ok changed) : changed.Sound := by
  rcases sound.erase_ends slot with ⟨_, same, evolves, _⟩ | ⟨_, refused⟩
  · cases erased.symm.trans same
    exact evolves.sound
  · cases erased.symm.trans refused

/-- A record that was stored on a sound page is where the list of cells puts it. -/
theorem Sound.insertRecord_eq_ok (sound : page.Sound) (inserted : page.insertRecord record = .ok (changed, place)) :
    page.Evolves changed ∧ place = ⟨page.id, (page.cells.put record.encode).2⟩
      ∧ changed.cells = (page.cells.put record.encode).1 := by
  have short := sound.length_of_insertRecord inserted
  have limits : wordLimit + entrySize < sizeLimit := by decide
  rcases sound.insertRecord_ends (show record.encode.length + entrySize < sizeLimit by omega) with
    ⟨_, _, same, evolves, spot, cells⟩ | refused
  · cases inserted.symm.trans same
    exact ⟨evolves, spot, cells⟩
  · cases inserted.symm.trans refused

/-- A legible page stays so when one slot gets a record or nothing, and its other records stay. -/
theorem Legible.of_join (legible : page.Legible) {target : Nat} {cell : Option Bytes}
    {values : Option (List Value)}
    (shown : ∀ slot : Nat, changed.cells[slot]?.join
      = if slot = target then cell else page.cells[slot]?.join)
    (readable : ∀ bytes, cell = some bytes → ∃ record, Record.decode bytes = .ok record)
    (read : (cell.bind fun bytes => (Record.decode bytes).toOption.map Record.values) = values) :
    changed.Legible ∧ ∀ slot, changed.values? slot
      = if slot = target then values else page.values? slot := by
  refine ⟨?_, ?_⟩
  · intro slot bytes held
    rw [shown slot] at held
    split at held
    · exact readable bytes held
    · exact legible slot bytes held
  · intro slot
    rw [values?, shown slot]
    by_cases here : slot = target
    · rw [if_pos here, if_pos here]
      exact read
    · rw [if_neg here, if_neg here]
      rfl

/-- A record that was stored is in its slot with its values, and the other slots are as before. -/
theorem Sound.values?_insertRecord (sound : page.Sound) (legible : page.Legible)
    (inserted : page.insertRecord record = .ok (changed, place)) :
    changed.Legible ∧ place.page = page.id ∧ ∀ slot, changed.values? slot
      = if slot = place.slot then some record.values else page.values? slot := by
  have short := sound.length_of_insertRecord inserted
  obtain ⟨_, rfl, cells⟩ := sound.insertRecord_eq_ok inserted
  have decoded := record.decode_encode (.of_length (Nat.lt_trans short (by decide)))
  have readable : ∀ bytes, some record.encode = some bytes → ∃ record, Record.decode bytes = .ok record := by
    intro bytes told
    cases told
    exact ⟨_, decoded⟩
  -- Putting a cell into the list changes one slot, and that slot holds the record.
  obtain ⟨still, values⟩ := legible.of_join
    (fun slot => by rw [cells, SlotList.join_put]) readable (by rw [Option.bind_some, decoded])
  exact ⟨still, rfl, values⟩

/-- A record that was deleted is gone from its slot, and the other slots are as before. -/
theorem Sound.values?_eraseRecord (sound : page.Sound) (legible : page.Legible)
    (placed : record.place = some place) (erased : page.eraseRecord record = .ok changed) :
    changed.Legible ∧ place.page = page.id ∧ ∀ slot, changed.values? slot
      = if slot = place.slot then none else page.values? slot := by
  rcases sound.eraseRecord_ends record with ⟨after, where_, _, same, _, found, here, _, cells⟩ | refused
  · rw [erased] at same
    cases same
    cases placed.symm.trans found
    -- Removing a cell from the list empties one slot.
    obtain ⟨still, values⟩ := legible.of_join
      (fun slot => by rw [cells, SlotList.join_remove]) (by simp) rfl
    exact ⟨still, here, values⟩
  · obtain ⟨failure, refused⟩ := refused
    rw [erased] at refused
    cases refused

end Page

end HeapEngine
