import HeapEngine.Proofs.Database.Roaming.Search

/-!
Storing records in heaps and deleting them, whatever the stores hold.

Every way in which this can end is told with what it leaves behind: where a record went and why no page before
had room, or else which page was not given, and that all pages are as they were.
-/

namespace HeapEngine

namespace Database

variable {db before middle after : Database} {id : PageId} {page : Page} {asker : TransactionId} {heap : Heap}
  {number : Nat} {record : Record} {mayTrap : Prop}

/-- An empty page was appended to a heap, and all else is as it was. -/
structure Appends (before : Database) (number : Nat) (after : Database) : Prop where
  intact : after.Intact
  standing : ∃ image, (Page.empty ⟨0, (before.standing.shown number).images.length⟩
      (before.standing.shown number).pageSize).image = .ok image
    ∧ after.standing = before.standing.withShown number
      { before.standing.shown number with images := (before.standing.shown number).images ++ [image] }
  locks : after.locks = before.locks
  pool : after.pool = before.pool

/-- No table is registered. -/
theorem Appends.catalog_eq (appends : Appends before number after) : after.catalog = before.catalog := by
  obtain ⟨_, _, stands⟩ := appends.standing
  exact congrArg Standing.catalog stands

/-- A page that is appended is at the end of its heap. -/
theorem Intact.ensures_append (intact : db.Intact) (registered : db.catalog.heap? number = some heap) :
    Op.Ensures (onStorage (Storage.append heap.store)) db fun result after =>
      result = .ok (db.standing.shown number).images.length ∧ Appends db number after := by
  refine (intact.housed.ensures_append registered).mono fun result after ended => ?_
  obtain ⟨told, image, storage, rfl, encoded, long, _, shows⟩ := ended
  rw [← shown_eq registered] at told encoded
  refine ⟨told, (Step.append registered long shows).intact intact, ⟨image, encoded, ?_⟩, rfl, rfl⟩
  rw [← shown_eq registered] at shows
  exact standing_withStorage intact.orderly registered shows

/-- A page beyond the end of its heap is not in memory. -/
theorem Housed.absent_of_beyond (housed : db.Housed) (registered : db.catalog.heap? id.table = some heap)
    (beyond : (db.standing.shown id.table).images.length ≤ id.number) : db.pool.page? id = none := by
  refine Option.eq_none_iff_forall_ne_some.2 fun page resident => ?_
  obtain ⟨image, found⟩ := (housed.kept id page resident).stored heap registered
  exact absurd (List.getElem?_eq_some_iff.1 found).1 (Nat.not_lt.2 beyond)

/-- A page beyond the end of its heap is not in memory. -/
theorem Intact.absent_of_beyond (intact : db.Intact) (registered : db.catalog.heap? id.table = some heap)
    (beyond : (db.standing.shown id.table).images.length ≤ id.number) : db.pool.page? id = none :=
  intact.housed.absent_of_beyond registered beyond

/-- The page that was appended is stored as an empty one, and is not in memory. -/
theorem Appends.exists_stored (appends : Appends before heap.table after) (intact : before.Intact)
    (registered : before.catalog.heap? heap.table = some heap) :
    let last := heap.page (before.standing.shown heap.table).images.length
    after.pool.page? last = none ∧ ∃ page, after.standing.stored? last = some page ∧ page.Sound
      ∧ page.Agrees (.empty last before.settings.pageSize) := by
  intro last
  obtain ⟨image, encoded, stands⟩ := appends.standing
  have size := intact.orderly.sizes heap.table heap registered
  obtain ⟨_, least, most⟩ := Settings.check_eq_ok intact.orderly.settings
  rw [size] at encoded
  obtain ⟨sound, _⟩ := Page.empty_sound ⟨0, (before.standing.shown heap.table).images.length⟩
    (Nat.le_of_succ_le least) most
  obtain ⟨page, decoded, agrees, _⟩ := sound.ofImage_image encoded last
  refine ⟨?_, page, Standing.stored?_eq_some.2 ⟨image, ?_, decoded⟩, agrees.symm.sound sound, ?_⟩
  · rw [appends.pool]
    exact intact.absent_of_beyond registered (Nat.le_refl _)
  · rw [stands, Standing.image?, Standing.withShown]
    simp [last, Heap.page]
  · -- All empty pages of one size agree, whatever their names are.
    exact ⟨agrees.slots, agrees.cellStart, agrees.size, agrees.stored⟩

/-- What it comes to that a record is stored in a heap, before the page that it is on is marked. -/
inductive Stored (db : Database) (heap : Heap) (asker : TransactionId) (record : Record) :
    Except Failure (CopyId × RecordId) → Database → Prop
  /-- No page has room for the record, not even an empty one. -/
  | tooLarge (long : db.settings.pageSize - 20 < record.encode.length) :
      Stored db heap asker record (.error (.recordTooLarge record.encode.length (db.settings.pageSize - 20))) db
  | found {stored : CopyId × RecordId} {after : Database}
      (short : record.encode.length ≤ db.settings.pageSize - 20)
      (searched : Searched db heap asker record (db.standing.shown heap.table).images.length 0 (.ok (some stored))
        after) :
      Stored db heap asker record (.ok stored) after
  | denied {failure : Failure} {after : Database} (short : record.encode.length ≤ db.settings.pageSize - 20)
      (searched : Searched db heap asker record (db.standing.shown heap.table).images.length 0 (.error failure) after) :
      Stored db heap asker record (.error failure) after
  /-- No page has room, so the record is to go on a new one. -/
  | appended {result : Except Failure (CopyId × RecordId)} {searched grown after : Database}
      (short : record.encode.length ≤ db.settings.pageSize - 20)
      (exhausted : Searched db heap asker record (db.standing.shown heap.table).images.length 0 (.ok none) searched)
      (appends : Appends searched heap.table grown)
      (attempted : Attempted grown asker (heap.page (db.standing.shown heap.table).images.length)
        (fun page => page.insertRecord record) result after) : Stored db heap asker record result after

/-- Storing a record in a heap ends in one of these ways. -/
theorem Intact.ends_insertInHeap (intact : db.Intact) (registered : db.catalog.heap? heap.table = some heap)
    (asker : TransactionId) (record : Record) (safe : mayTrap ∨ db.WellFormed) :
    Op.Ends mayTrap (insertInHeap heap asker record) db (Stored db heap asker record) := by
  obtain ⟨size, least, most⟩ := intact.housed.pageSize registered
  rw [Storage.pageSize_view] at size
  unfold insertInHeap
  refine .get_bind ?_
  -- A page is larger than its header and one entry, so the largest cell is told.
  have largest : Page.largestCell (db.storage.pageSize heap.store) = .ok (db.settings.pageSize - 20) := by
    rw [size, Page.largestCell, if_neg (by simp only [Page.headerSize, Page.entrySize]; omega), Nat.sub_sub]
    rfl
  refine .ofOutcome_bind largest (.ite (fun long => .fail (.tooLarge long)) fun small => ?_)
  have short := Nat.not_lt.1 small
  -- What fits a page is far from filling the memory.
  have addressable : record.encode.length + Page.entrySize < Page.sizeLimit := by
    simp only [Page.entrySize, Page.sizeLimit]
    omega
  refine .run_bind (intact.housed.heapPageCount_eq registered) ?_
  refine (intact.ends_insertFrom heap asker record (safe.imp_right fun formed => ⟨formed, addressable⟩) _ 0).bind
    (fun failure after searched => .denied short searched) fun found searched ended => ?_
  cases found with
  | some stored => exact .pure (.found short ended)
  | none =>
    obtain ⟨roams, still⟩ : Roams db searched ∧ searched.Intact := by
      cases ended with
      | exhausted roams intact _ _ => exact ⟨roams, intact⟩
    have known : searched.catalog.heap? heap.table = some heap := roams.catalog_eq ▸ registered
    have count : (searched.standing.shown heap.table).images.length = (db.standing.shown heap.table).images.length := by
      rw [roams.shown_eq]
    refine (still.ensures_append known).ends.bind (fun _ _ told => by cases told.1) fun last grown told => ?_
    obtain ⟨same, appends⟩ := told
    rw [count] at same
    cases same
    refine (appends.intact.housed.ends_insertAt asker _ record ?_).mono fun _ _ attempted =>
      .appended short ended appends attempted
    -- An empty page is sound, so storing a record on it does not trap.
    obtain ⟨absent, page, stored, sound, _⟩ := appends.exists_stored still known
    rw [count] at absent stored
    refine .inr fun other there => ?_
    cases ((seen?_of_absent absent).trans stored).symm.trans there
    exact sound.insertRecord_ne_trap addressable

/-- What it comes to that a record is stored in a table for a transaction. -/
inductive Inserted (db : Database) (asker : TransactionId) (number : Nat) (record : Record) :
    Except Failure Unit → Record → Database → Prop
  | unknown (missing : db.catalog.heap? number = none) :
      Inserted db asker number record (.error (.noTable number)) record db
  | failed {heap : Heap} {failure : Failure} {after : Database} (registered : db.catalog.heap? number = some heap)
      (fails : Stored db heap asker record (.error failure) after) :
      Inserted db asker number record (.error failure) record after
  /-- The page that the record is on is marked, and was asked for. -/
  | stored {heap : Heap} {copy : CopyId} {place : RecordId} {after : Database} {changed : Page}
      (registered : db.catalog.heap? number = some heap)
      (stores : Stored db heap asker record (.ok (copy, place)) after)
      (there : after.pool.page? copy.page = some changed) :
      Inserted db asker number record (.ok ()) { record with place := some place } (after.adopted asker copy changed)

/-- A record that was stored in a heap is on a page that was changed for its transaction. -/
theorem Stored.exists_alters {copy : CopyId} {place : RecordId}
    (stored : Stored db heap asker record (.ok (copy, place)) after) :
    ∃ given page changed, Alters asker given copy page changed after := by
  cases stored with
  | found _ searched =>
    cases searched with
    | found _ _ _ _ _ _ _ _ alters => exact ⟨_, _, _, alters⟩
  | appended _ _ _ attempted =>
    cases attempted with
    | changed _ _ alters => exact ⟨_, _, _, alters⟩

/-- A record that is stored in a heap is told its place, and otherwise keeps the one that it had. -/
theorem ends_insertInTable {post : Except Failure (CopyId × RecordId) → Database → Prop}
    (ends : Op.Ends mayTrap (insertInHeap heap asker record) db post) :
    Op.Ends mayTrap (insertInTable number (.heap heap) asker record) db fun result after =>
      (∃ failure, result = .ok (.error failure, record) ∧ post (.error failure) after)
      ∨ ∃ copy place, result = .ok (.ok [copy], { record with place := some place })
        ∧ post (.ok (copy, place)) after := by
  refine .attempt_bind ends fun answer after stored => ?_
  cases answer with
  | error failure => exact .pure (.inl ⟨failure, rfl, stored⟩)
  | ok placed => exact .pure (.inr ⟨placed.1, placed.2, rfl, stored⟩)

/-- Storing a record in a table ends in one of these ways. -/
theorem Intact.ends_insert (intact : db.Intact) (asker : TransactionId) (number : Nat) (record : Record)
    (safe : mayTrap ∨ db.WellFormed) :
    Op.Ends mayTrap (insert asker number record) db fun result after => ∃ answer stored,
      result = .ok (answer, stored) ∧ Inserted db asker number record answer stored after := by
  unfold Database.insert
  refine .get_bind ?_
  rw [intact.housed.find_eq number]
  cases registered : db.catalog.heap? number with
  | none => exact .pure ⟨_, _, rfl, .unknown registered⟩
  | some heap =>
    have table := intact.orderly.heap_table registered
    have known : db.catalog.heap? heap.table = some heap := table ▸ registered
    refine (ends_insertInTable (intact.ends_insertInHeap known asker record safe)).bind (fun _ _ ended => ?_)
      fun value after ended => ?_
    · obtain ⟨_, told, _⟩ | ⟨_, _, told, _⟩ := ended <;> cases told
    obtain ⟨_, ⟨⟩, stored⟩ | ⟨_, _, ⟨⟩, stored⟩ := ended
    · exact .pure ⟨_, _, rfl, .failed registered stored⟩
    · obtain ⟨given, page, changed, alters⟩ := stored.exists_alters
      refine .attempt_bind alters.ensures_adoptAll.ends fun answer last ended => .pure ?_
      obtain ⟨rfl, there, rfl⟩ := ended
      exact ⟨_, _, rfl, .stored registered stored there⟩

/-- What it comes to that a record is deleted for a transaction. -/
inductive Deleted (db : Database) (asker : TransactionId) (record : Record) : Except Failure Unit → Database → Prop
  | unplaced (nowhere : record.place = none) : Deleted db asker record (.error (.misuse .unplaced)) db
  | unknown {place : RecordId} (placed : record.place = some place)
      (missing : db.catalog.heap? place.page.table = none) :
      Deleted db asker record (.error (.noTable place.page.table)) db
  | failed {place : RecordId} {heap : Heap} {failure : Failure} {after : Database} (placed : record.place = some place)
      (registered : db.catalog.heap? place.page.table = some heap)
      (fails : Attempted db asker place.page (fun page => return (← page.eraseRecord record, ())) (.error failure)
        after) : Deleted db asker record (.error failure) after
  /-- The page that the record was on is marked, and was asked for. -/
  | erased {place : RecordId} {heap : Heap} {copy : CopyId} {given after : Database} {page changed : Page}
      (placed : record.place = some place) (registered : db.catalog.heap? place.page.table = some heap)
      (obtains : Obtains db asker place.page .exclusive copy page given)
      (erased : page.eraseRecord record = .ok changed) (alters : Alters asker given copy page changed after) :
      Deleted db asker record (.ok ()) (after.adopted asker copy changed)

/-- A record is erased on the page that it names, or the page stays as it is. -/
theorem Intact.ends_deleteFromTable {place : RecordId} (intact : db.Intact)
    (registered : db.catalog.heap? place.page.table = some heap) (asker : TransactionId)
    (placed : record.place = some place) (safe : mayTrap ∨ ∀ id page, db.seen? id = some page → page.Sound) :
    Op.Ends mayTrap (deleteFromTable place.page.table (.heap heap) asker record) db fun result after => ∃ told,
      Attempted db asker place.page (fun page => return (← page.eraseRecord record, ())) told after
        ∧ result = told.map fun done => done.1 := by
  unfold deleteFromTable deleteFromHeap
  simp only [placed]
  -- A table is registered under its number, so the record is in this one.
  rw [if_neg fun other => other (intact.orderly.heap_table registered).symm]
  refine intact.housed.ends_change asker place.page (fun copy _ => copy) (fun page changed _ erased => ?_)
    (safe.imp_right fun sound page seen cause trapped => ?_)
  · obtain ⟨_, outcome, told⟩ := Outcome.exists_of_bind erased
    cases told
    exact .erase outcome
  · rcases (sound _ page seen).eraseRecord_ends record with ⟨_, _, _, erased, _⟩ | ⟨_, refused⟩
    · rw [erased] at trapped
      cases trapped
    · rw [refused] at trapped
      cases trapped

/-- Deleting a record ends in one of these ways. -/
theorem Intact.ends_delete (intact : db.Intact) (asker : TransactionId) (record : Record)
    (safe : mayTrap ∨ ∀ id page, db.seen? id = some page → page.Sound) :
    Op.Ends mayTrap (delete asker record) db (Deleted db asker record) := by
  unfold Database.delete
  cases placed : record.place with
  | none => exact .fail (.unplaced placed)
  | some place =>
    refine intact.housed.overHeaps.ends_tableAt_bind (fun missing => .unknown placed missing) fun heap registered => ?_
    refine (intact.ends_deleteFromTable registered asker placed safe).bind (fun failure after ended => ?_)
      fun copy after ended => ?_
    · obtain ⟨told, attempted, same⟩ := ended
      cases told with
      | error cause =>
        cases same
        exact .failed placed registered attempted
      | ok done => cases same
    · obtain ⟨told, attempted, same⟩ := ended
      cases told with
      | error cause => cases same
      | ok done =>
        cases same
        cases attempted with
        | changed obtains outcome alters =>
          obtain ⟨_, erased, told⟩ := Outcome.exists_of_bind outcome
          cases told
          refine alters.ensures_adoptAll.ends.mono fun result last ended => ?_
          obtain ⟨rfl, _, rfl⟩ := ended
          exact .erased placed registered obtains erased alters

end Database

end HeapEngine
