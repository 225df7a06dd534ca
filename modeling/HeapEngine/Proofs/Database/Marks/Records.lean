import HeapEngine.Database.Scan
import HeapEngine.Proofs.Database.Marks

/-!
Records are stored and deleted on pages that only their writers mark, and scans mark nothing.
-/

namespace HeapEngine

namespace Page

variable {page changed : Page} {record : Record}

/-- Who a page is and who has changed it are the same. -/
def SameOwner (page changed : Page) : Prop := changed.id = page.id ∧ changed.changedBy = page.changedBy

theorem sameOwner_insert {cell : Bytes} {slot : Nat} (inserted : page.insert cell = .ok (changed, slot)) :
    page.SameOwner changed := by
  obtain ⟨_, rfl, _⟩ := eq_withCell_of_insert inserted
  exact ⟨rfl, rfl⟩

/-- Storing a record leaves the mark of a page to the transaction. -/
theorem sameOwner_insertRecord {place : RecordId} (inserted : page.insertRecord record = .ok (changed, place)) :
    page.SameOwner changed := by
  obtain ⟨_, stored, told⟩ := Outcome.exists_of_bind inserted
  cases told
  exact sameOwner_insert stored

theorem sameOwner_pack (packed : page.pack = .ok changed) : page.SameOwner changed := by
  obtain ⟨_, _, moved⟩ := Outcome.exists_of_bind packed
  cases moved
  exact ⟨rfl, rfl⟩

/-- Erasing a record leaves the mark of a page to the transaction. -/
theorem sameOwner_eraseRecord (erased : page.eraseRecord record = .ok changed) : page.SameOwner changed := by
  obtain ⟨_, _, _, _, cellErased⟩ := eraseRecord_eq_ok erased
  obtain ⟨_, _, _, packed⟩ := erase_eq_ok cellErased
  have kept := sameOwner_pack packed
  exact kept

end Page

namespace Database

variable {db after : Database} {asker : TransactionId} {id : PageId} {α : Type}

/-- Whoever stores a record has marked nothing yet. -/
theorem permits_insertAt (marked : db.Marked) (asker : TransactionId) (id : PageId) (record : Record) :
    Op.Permits (insertAt asker id record) db fun result after => Fades asker db after
      ∧ ∀ copy place, result = .ok (copy, place) → after.pool.isCurrent copy = true := by
  refine (permits_acquire marked asker id .writing).bind ?_ ?_
  · intro failure after ended
    exact ⟨ended.1, by simp⟩
  intro copy given ended
  obtain ⟨gained, current⟩ := ended
  refine (permits_changeCopy gained.marked asker (current copy rfl).2
    fun page changed place stored => (Page.sameOwner_insertRecord stored).2).bind ?_ ?_
  · intro failure after ended
    exact ⟨gained.trans ended.1, by simp⟩
  intro place after ended
  refine .pure ⟨gained.trans ended.1, ?_⟩
  intro _ _ told
  cases told
  exact ended.2

/-- A page may be released early by whoever has not marked it. -/
theorem permits_releaseEarly (marked : db.Marked) (unmarked : db.mark? id ≠ some asker) :
    Op.Permits (releaseEarly asker id) db fun _ after => after.Marked := by
  have released := marked.release unmarked
  unfold Op.Permits Op.Ends releaseEarly
  rcases taken : db.locks.release id asker with ⟨held, locks⟩
  rw [taken] at released
  cases held with
  | true => exact released
  | false => exact released

/-- A page that is released again carries no mark of the one who looked for room there. -/
theorem permits_insertFrom (marked : db.Marked) (heap : Heap) (asker : TransactionId) (record : Record)
    (size left number : Nat) :
    Op.Permits (insertFrom heap asker record size left number) db fun result after => after.Marked
      ∧ ∀ copy place, result = .ok (some (copy, place)) → after.pool.isCurrent copy = true := by
  -- After each page only the locks have changed, and those of pages without room may go again.
  induction left generalizing db number with
  | zero => exact .pure ⟨marked, by simp⟩
  | succ left ih =>
    unfold insertFrom
    refine .get_bind ((permits_acquire marked asker (heap.page number) .reading).bind ?_ ?_)
    · intro failure after ended
      exact ⟨ended.1.marked, by simp⟩
    intro copy given ended
    obtain ⟨gained, -⟩ := ended
    refine (permits_lookAt copy).bind ?_ ?_
    · intro failure after same
      subst same
      exact ⟨gained.marked, by simp⟩
    intro page after same
    subst same
    refine Op.Ends.bind (.outcome fun _ => gained) (fun _ _ kept => ⟨kept.marked, by simp⟩) ?_
    intro room after kept
    refine .ite ?_ ?_
    · intro _
      refine (permits_insertAt kept.marked asker (heap.page number) record).bind ?_ ?_
      · intro failure last ended
        exact ⟨ended.1.marked, by simp⟩
      intro stored last ended
      refine .pure ⟨ended.1.marked, fun copy place told => ?_⟩
      cases told
      exact ended.2 copy place rfl
    · intro _
      refine .ite ?_ ?_
      · intro unheld
        -- A mark of the asker would mean that it held the page before it looked.
        have unmarked : after.mark? (heap.page number) ≠ some asker := by
          intro mark
          have writes := marked.writes _ _ (kept.marks _ _ mark)
          simp [Locks.holds, writes] at unheld
        refine (permits_releaseEarly kept.marked unmarked).bind ?_ ?_
        · intro failure last ended
          exact ⟨ended, by simp⟩
        intro _ last ended
        exact ih ended (number + 1)
      · intro _
        exact ih kept.marked (number + 1)

/-- A copy that its writer adopts is the only one with a new mark. -/
theorem permits_adopt (marked : db.Marked) {copy : CopyId} (current : db.pool.isCurrent copy = true) :
    Op.Permits (adopt asker copy) db fun _ after => after.Marked := by
  obtain ⟨page, resident⟩ := exists_page_of_current current
  by_cases writes : db.locks.isWriter copy.page asker = true
  · -- What was the page before has the mark of its writer, and all others are as they were.
    have adopted : Marked
        { db with pool := db.pool.editResident copy.page (fun _ => page.markChanged asker) } := by
      refine ⟨marked.tables, marked.locks, fun other transaction mark => ?_⟩
      rw [mark?, Pool.page?_editResident] at mark
      split at mark
      · rename_i here
        rw [resident] at mark
        cases mark
        rw [here]
        exact writes
      · exact marked.writes other transaction mark
    refine Op.Ends.mono (Op.Ensures.permits (ensures_adopt_current writes current resident)) ?_
    intro _ after ended
    obtain ⟨_, rfl⟩ := ended
    have touched : Fades asker _ _ := adopted.touch copy.page
    exact touched.marked
  · unfold adopt
    refine .get_bind (.ite (fun _ => .fail marked) fun writer => ?_)
    exact absurd (by simpa using writer) writes

/-- Pages that were changed for a transaction are adopted in turn, here the only one. -/
theorem permits_adoptAll (marked : db.Marked) {copy : CopyId} (current : db.pool.isCurrent copy = true) :
    Op.Permits (adoptAll asker [copy]) db fun _ after => after.Marked :=
  (permits_adopt marked current).reply

theorem permits_insertInHeap (marked : db.Marked) (heap : Heap) (asker : TransactionId)
    (record : Record) :
    Op.Permits (insertInHeap heap asker record) db fun result after => after.Marked
      ∧ ∀ copy place, result = .ok (copy, place) → after.pool.isCurrent copy = true := by
  unfold insertInHeap
  refine .get_bind (Op.Ends.bind (.outcome fun _ => marked) (fun _ _ kept => ⟨kept, by simp⟩) ?_)
  intro largest after marked
  refine .ite (fun _ => .fail ⟨marked, by simp⟩) fun _ => ?_
  have counts : Op.Permits (heapPageCount heap) after fun _ same => same.Marked :=
    .get_bind (.outcome fun _ => marked)
  refine counts.bind (fun _ _ kept => ⟨kept, by simp⟩) ?_
  intro count after marked
  refine (permits_insertFrom marked heap asker record _ count 0).bind ?_ ?_
  · intro failure after ended
    exact ⟨ended.1, by simp⟩
  intro found after ended
  obtain ⟨marked, current⟩ := ended
  rcases found with none | ⟨copy, place⟩
  · -- The record goes on a new page, which is stored at once.
    refine (permits_onStorage marked asker (.anywhere (Storage.append heap.store) _)).bind ?_ ?_
    · intro failure last ended
      exact ⟨ended.1.marked, by simp⟩
    intro number last ended
    refine (permits_insertAt ended.1.marked asker (heap.page number) record).mono ?_
    intro result final stored
    exact ⟨stored.1.marked, stored.2⟩
  · refine .pure ⟨marked, ?_⟩
    intro _ _ told
    cases told
    exact current copy place rfl

/-- The heap answers with the one page that it changed, and whose copy is the current one. -/
theorem permits_insertInTable (marked : db.Marked) (number : Nat) (heap : Heap) (asker : TransactionId)
    (record : Record) :
    Op.Permits (insertInTable number (.heap heap) asker record) db fun result after =>
      after.Marked ∧ ∀ changed stored, result = .ok (.ok changed, stored) →
        ∃ copy, changed = [copy] ∧ after.pool.isCurrent copy = true := by
  refine .attempt_bind (permits_insertInHeap marked heap asker record) ?_
  intro answer after ended
  obtain ⟨kept, current⟩ := ended
  cases answer with
  | error failure => exact .pure ⟨kept, by simp⟩
  | ok stored =>
    refine .pure ⟨kept, fun changed _ told => ?_⟩
    cases told
    exact ⟨stored.1, rfl, current stored.1 stored.2 rfl⟩

/-- Storing a record marks the page it goes to, whose writer is the one who stores it. -/
theorem permits_insert (marked : db.Marked) (asker : TransactionId) (number : Nat) (record : Record) :
    Op.Permits (insert asker number record) db fun _ after => after.Marked := by
  unfold insert Catalog.find
  refine .get_bind ?_
  cases registered : db.catalog.tables.find? number with
  | none => exact .pure marked
  | some table =>
    obtain ⟨heap, rfl⟩ := marked.tables number table registered
    refine (permits_insertInTable marked number heap asker record).bind (fun _ _ ended => ended.1) ?_
    intro value after ended
    obtain ⟨answer, stored⟩ := value
    obtain ⟨kept, changes⟩ := ended
    cases answer with
    | error failure => exact .pure kept
    | ok changed =>
      obtain ⟨copy, rfl, current⟩ := changes changed stored rfl
      refine .attempt_bind (permits_adoptAll kept current) ?_
      intro _ last adopted
      exact .pure adopted

/-- The heap answers with the page that it changed, and whose copy is the current one. -/
theorem permits_deleteFromHeap (marked : db.Marked) (heap : Heap) (asker : TransactionId) (record : Record) :
    Op.Permits (deleteFromHeap heap asker record) db fun result after => after.Marked
      ∧ ∀ copy, result = .ok copy → after.pool.isCurrent copy = true := by
  unfold deleteFromHeap
  cases record.place with
  | none => exact .fail ⟨marked, by simp⟩
  | some place =>
    refine .ite (fun _ => .fail ⟨marked, by simp⟩) fun _ => ?_
    refine (permits_acquire marked asker place.page .writing).bind ?_ ?_
    · intro failure after ended
      exact ⟨ended.1.marked, by simp⟩
    intro copy given ended
    refine (permits_changeCopy ended.1.marked asker (ended.2 copy rfl).2 ?_).bind ?_ ?_
    · intro page changed _ erased
      -- The change is the erasure of the record, with nothing told.
      obtain ⟨_, outcome, told⟩ := Outcome.exists_of_bind erased
      cases told
      exact (Page.sameOwner_eraseRecord outcome).2
    · intro failure after ended
      exact ⟨ended.1.marked, by simp⟩
    intro _ after ended
    refine .pure ⟨ended.1.marked, ?_⟩
    intro _ told
    cases told
    exact ended.2

/-- Deleting a record marks its page, whose writer is the one who deletes it. -/
theorem permits_delete (marked : db.Marked) (asker : TransactionId) (record : Record) :
    Op.Permits (delete asker record) db fun _ after => after.Marked := by
  unfold delete
  cases placed : record.place with
  | none => exact .fail marked
  | some place =>
    refine permits_tableAt_bind marked (fun _ => marked) fun heap => ?_
    have inTable : Op.Permits (deleteFromTable place.page.table (.heap heap) asker record) db _ :=
      permits_deleteFromHeap marked heap asker record
    refine inTable.bind (fun _ _ ended => ended.1) ?_
    intro copy after ended
    exact permits_adoptAll ended.1 (ended.2 copy rfl)

theorem permits_nextRecords (marked : db.Marked) (scan : Scan) :
    Op.Permits scan.nextRecords db fun _ after => after.Marked := by
  refine (permits_acquire marked scan.transaction _ .reading).bind (fun _ _ ended => ended.1.marked) ?_
  intro copy given ended
  refine (permits_lookAt copy).bind (fun _ _ same => same ▸ ended.1.marked) ?_
  intro page after same
  subst same
  exact .outcome fun _ => ended.1.marked

theorem permits_advance (marked : db.Marked) (limit : Nat) (scan : Scan) :
    Op.Permits (Scan.advance limit scan) db fun _ after => after.Marked := by
  -- Every page that is gone over is one of those left.
  induction limit generalizing db scan with
  | zero =>
    unfold Scan.advance
    refine .ite (fun _ => .pure marked) fun _ => ?_
    cases scan.pending with
    | nil => exact .pure marked
    | cons record rest => exact .pure marked
  | succ limit ih =>
    unfold Scan.advance
    refine .ite (fun _ => .pure marked) fun _ => ?_
    cases scan.pending with
    | cons record rest => exact .pure marked
    | nil =>
      refine .attempt_bind (permits_nextRecords marked scan) ?_
      intro answer after kept
      cases answer with
      | ok records => exact ih kept _
      | error failure => exact .pure kept

/-- A scan marks nothing. -/
theorem permits_take (marked : db.Marked) (scan : Scan) (count : Nat) :
    Op.Permits (scan.take count) db fun _ after => after.Marked := by
  induction count generalizing db scan with
  | zero => exact .pure marked
  | succ count ih =>
    unfold Scan.take Scan.next
    have counts : Op.Permits (heapPageCount scan.heap) db fun _ after => after.Marked :=
      .get_bind (.outcome fun _ => marked)
    have next : Op.Permits scan.next db fun _ after => after.Marked :=
      counts.andThen fun pages after kept => permits_advance kept (pages - scan.page) scan
    refine next.andThen ?_
    intro value after kept
    obtain ⟨item, later⟩ := value
    cases item with
    | done => exact .pure kept
    -- The scan goes on after a record and after a failure alike.
    | record _ | failure _ => exact (ih kept later).reply

end Database

end HeapEngine
