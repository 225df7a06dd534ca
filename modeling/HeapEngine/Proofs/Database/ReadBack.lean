import HeapEngine.Proofs.Database.Ledger
import HeapEngine.Proofs.Database.Traversal
import HeapEngine.Proofs.Locks.Compatible

/-!
Reading records back from the stores, past the pages in memory.

What is read back does not depend on what is in memory, so a new database over the same stores reads
the same. Nothing can keep its scans from any page: its stores do not fail, no page in it has changes, and
nobody else holds a lock.
-/

namespace HeapEngine

namespace Standing

variable {kind : ImageKind} {standing : Standing} {place : RecordId}

/-- The record that is stored at a place, or why it cannot be read. -/
def record? (standing : Standing) (place : RecordId) : Outcome (Option Record) :=
  match standing.image? place.page with
  | none => .ok none
  | some image => do (← Page.ofImage place.page image).record? place.slot

/-- A page whose image is known is the one read from it. -/
theorem stored?_eq {id : PageId} {image : Bytes} {page : Page} (found : standing.image? id = some image)
    (read : Page.ofImage id image = .ok page) : standing.stored? id = some page := by
  rw [stored?, found, Option.bind_some, read]
  rfl

/-- If all that is stored can be read, so can the record of each place. -/
theorem Orderly.record?_eq (orderly : standing.Orderly kind.allows) (legible : standing.Legible)
    (place : RecordId) :
    ∃ record, standing.record? place = .ok record ∧ record.map Record.values = standing.recordMap place := by
  cases found : standing.image? place.page with
  | none => exact ⟨none, by rw [record?, found], by rw [recordMap, stored?, found]; rfl⟩
  | some image =>
    obtain ⟨page, read, cells⟩ := legible place.page image found
    have sound := (orderly.stored (stored?_eq found read)).2.1
    rw [recordMap_eq found read]
    have record : standing.record? place = page.record? place.slot := by
      simp only [record?, found, read, Bind.bind, Except.bind]
    rw [record, sound.record?_eq, Page.values?]
    cases held : page.cells[place.slot]?.join with
    | none => exact ⟨none, rfl, rfl⟩
    | some cell =>
      -- A cell that is there is that of a record.
      obtain ⟨record, decoded⟩ := cells place.slot cell held
      refine ⟨some { record with place := some ⟨page.id, place.slot⟩ }, ?_, ?_⟩
      · simp only [Page.recordOf, decoded]
        rfl
      · simp only [Option.bind_some, decoded]
        rfl

end Standing

namespace Database

variable {kind : ImageKind} {db : Database} {place : RecordId}

/-- Reads the record of a place from the store of its table. Where there is no page there is none. -/
def recordAt (place : RecordId) : Op Database (Option Record) := do
  match (← get).catalog.heap? place.page.table with
  | none => return none
  | some heap =>
    if place.page.number < (← heapPageCount heap) then
      (← readStored (.heap heap) place.page).record? place.slot
    else return none

/-- The values that are stored at a place. -/
def readBack (db : Database) (place : RecordId) : Outcome (Option (List Value)) :=
  match recordAt place db with
  | .ok record _ => .ok (record.map Record.values)
  | .error fault _ => .error fault

/-- The records that can be read back. -/
def storedRecords (db : Database) : RecordMap := fun place => (db.readBack place).toOption.join

/-- A new database over the same tables and stores. -/
def reopened (db : Database) : Database :=
  { db with locks := .empty, pool := .empty, calls := .empty }

/-- Reading a record from its store tells what is stored, if the store is not told to fail. -/
theorem ensures_recordAt (consistent : db.Consistent kind) (quiet : db.standing.Quiet) (place : RecordId) :
    Op.Ensures (recordAt place) db fun result _ =>
      db.standing.record? place = Outcome.ofResult result := by
  unfold recordAt
  refine .get_bind ?_
  cases registered : db.catalog.heap? place.page.table with
  | none =>
    refine .pure ?_
    simp only [Standing.record?, Standing.image?, standing, registered, StoreView.nothing]
    rfl
  | some heap =>
    refine .run_bind (heapPageCount_eq consistent registered) (.ite (fun within => ?_) fun beyond => ?_)
    · -- The page is there, so its store shows an image of it.
      obtain ⟨image, found⟩ : ∃ image, db.standing.image? place.page = some image :=
        ⟨_, List.getElem?_eq_getElem within⟩
      have read : (db.storage.view heap.store).read place.page = Page.ofImage place.page image := by
        rw [← shown_eq registered, StoreView.read, (quiet _).1, if_neg (by decide)]
        unfold Standing.image? at found
        rw [found]
      have outcome : db.standing.record? place
          = (Page.ofImage place.page image).bind fun page => page.record? place.slot := by
        rw [Standing.record?, found]
        rfl
      rw [outcome]
      have reads : Op.Ensures (readStored (.heap heap) place.page) db fun result _ =>
          Page.ofImage place.page image = Outcome.ofResult result := by
        refine .onStorage ((Storage.ensures_read (pageSize_pos consistent registered) _).mono ?_)
        intro result storage ended
        rw [← read]
        exact ended.1
      refine reads.bind ?_ ?_
      · intro failure after ended
        rw [ended]
        rfl
      · intro page after ended
        have told : Page.ofImage place.page image = .ok page := ended
        -- The page is sound, so its records are those of its cells.
        have sound := (consistent.orderly.stored (Standing.stored?_eq found told)).2.1
        obtain ⟨result, same⟩ := sound.record?_ends place.slot
        exact .ofOutcome same (by rw [told]; exact same)
    · refine .pure ?_
      -- Past the last page there is no image, and no record either.
      rw [Standing.record?, Standing.image?, List.getElem?_eq_none (Nat.not_lt.1 beyond)]
      rfl

/-- What is read back is what the database stands for. -/
theorem Consistent.readBack_eq (consistent : db.Consistent kind) (quiet : db.standing.Quiet)
    (place : RecordId) :
    db.readBack place = (db.standing.record? place).map (Option.map Record.values) := by
  obtain ⟨result, after, ran, told⟩ := (ensures_recordAt consistent quiet place).exists_run
  rw [readBack, ran, told]
  cases result <;> rfl

/-- If all that is stored can be read, the stored records are read back. -/
theorem Consistent.readBack (consistent : db.Consistent kind) (quiet : db.standing.Quiet)
    (legible : db.standing.Legible) (place : RecordId) :
    db.readBack place = .ok (db.standing.recordMap place) := by
  obtain ⟨record, told, values⟩ := consistent.orderly.record?_eq legible place
  rw [consistent.readBack_eq quiet, told, ← values]
  rfl

theorem Consistent.storedRecords (consistent : db.Consistent kind) (quiet : db.standing.Quiet)
    (legible : db.standing.Legible) : db.storedRecords = db.standing.recordMap := by
  funext place
  rw [Database.storedRecords, consistent.readBack quiet legible]
  rfl

/-- A new database over what a consistent one has stored is fresh. -/
theorem Consistent.reopened (consistent : db.Consistent kind) : Fresh kind.allows db.reopened := by
  have orderly := consistent.orderly
  exact ⟨⟨orderly.settings, orderly.catalog, orderly.tables, orderly.apart, orderly.sizes,
    orderly.images, Locks.exclusive_empty⟩, rfl, rfl⟩

section Fresh

variable {met : Database} {asker : TransactionId} {heap : Heap} {number : Nat} (fresh : Fresh kind.allows db)

include fresh

/-- In a fresh database the records that are seen are those that are stored. -/
theorem Fresh.values?_eq (place : RecordId) : db.values? place = db.standing.recordMap place := by
  have absent : db.pool.page? place.page = none := by
    rw [fresh.pool]
    rfl
  rw [values?, cell?, seen?_of_absent absent, Standing.recordMap]
  cases db.standing.stored? place.page <;> rfl

/-- While pages only come and go there is always one without changes to be dropped. -/
theorem Fresh.not_full (roams : Roams db met) : ¬ met.Full := by
  rintro ⟨filled, changed⟩
  have room := (Settings.check_eq_ok fresh.orderly.settings).1
  have several : 0 < met.pool.residentCount := Nat.lt_of_lt_of_le (roams.settings_eq ▸ room) filled
  obtain ⟨id, page, resident⟩ := Pool.exists_resident several
  -- Nothing was in memory at first, so the page is as it is stored.
  rcases roams.shows id page resident with before | ⟨_, stored⟩
  · rw [fresh.pool] at before
    cases before
  · have clean := (fresh.orderly.stored stored).2.2.2.1
    have marked := changed id page resident
    rw [Page.isDirty, clean] at marked
    cases marked

/-- While only one transaction gains locks, it can read every page. -/
theorem Fresh.exists_grant? (advances : Locks.Advances asker db.locks met.locks) (id : PageId) :
    ∃ granted, met.locks.grant? id asker .shared = some granted := by
  refine Locks.exists_grantShared?_iff.2 fun holder other => ?_
  -- What another one writes was written before, when no lock was held.
  have before := advances.writers id holder other
  rw [fresh.locks] at before
  exact before

variable (quiet : db.standing.Quiet) (legible : db.standing.Legible)
  (registered : db.catalog.heap? heap.table = some heap) (within : number < db.standing.count heap)

include quiet legible registered within

/-- A page of a heap is found, and all its records can be read. -/
theorem Fresh.exists_lists : ∃ page records, db.standing.lookup (heap.page number) = .ok page
    ∧ db.Lists (heap.page number) records := by
  obtain ⟨image, found⟩ : ∃ image, db.standing.image? (heap.page number) = some image :=
    ⟨_, List.getElem?_eq_getElem within⟩
  obtain ⟨page, decoded, cells⟩ := legible (heap.page number) image found
  have stored := Standing.stored?_eq found decoded
  have seen : db.seen? (heap.page number) = some page := by
    rw [seen?, fresh.pool]
    exact stored
  obtain ⟨records, read⟩ := cells.exists_recordsOf (heap.page number) (List.range page.cells.length)
  have known : db.standing.catalog.find (heap.page number).table = .ok (.heap heap) :=
    fresh.orderly.find_eq_ok registered
  exact ⟨page, records, Standing.lookup_of_stored? known (quiet _).1 stored, page, seen, read⟩

/-- While pages only come and go, and only one transaction gains locks, no page is withheld from it. -/
theorem Fresh.not_withheld (roams : Roams db met) (advances : Locks.Advances asker db.locks met.locks)
    (failure : Failure) : ¬ met.Withheld asker (heap.page number) failure := by
  obtain ⟨page, records, found, lists⟩ := fresh.exists_lists quiet legible registered within
  intro withheld
  cases withheld with
  | denied denied =>
    cases denied with
    | refused _ refused =>
      obtain ⟨granted, given⟩ := fresh.exists_grant? advances (heap.page number)
      cases refused.symm.trans given
    | unloadable unloadable =>
      cases unloadable with
      | full _ _ full => exact fresh.not_full roams full
      | unread _ fails =>
        rw [roams.standing] at fails
        cases found.symm.trans fails
  | illegible seen fails =>
    -- What is seen of the page is seen of it still, so its records can be read still.
    have coherent : db.Coherent kind := (Tended.fresh fresh).coherent
    obtain ⟨same, again, read⟩ := (coherent.lists_iff roams registered).2 lists
    cases seen.symm.trans again
    cases fails.symm.trans read

end Fresh

/-- Whoever scans a heap to its end has these records, in the order of their places, and is told of the end. -/
def ScansAs (db : Database) (heap : Heap) (asker : TransactionId) (map : RecordMap) : Prop :=
  ∃ records : List Record, records.Pairwise Record.Precedes
    ∧ (∀ record, record ∈ records ↔ ∃ place values, record = ⟨some place, values⟩
      ∧ place.page.table = heap.table ∧ map place = some values)
    ∧ ∀ count, records.length < count → ∃ later after,
      db.serve (.scan (.start heap asker) count)
        = .ok (.ok (.items (records.map .record ++ [.done]) later), after)

/-- A place with a record is on a page that its heap has. -/
theorem number_lt_of_recordMap {heap : Heap} {values : List Value} (here : place.page.table = heap.table)
    (stored : db.standing.recordMap place = some values) : place.page.number < db.standing.count heap := by
  obtain ⟨page, read, _⟩ := Option.bind_eq_some_iff.1 stored
  obtain ⟨image, found, _⟩ := Standing.stored?_eq_some.1 read
  rw [Standing.image?, here] at found
  exact (List.getElem?_eq_some_iff.1 found).1

/-- In a fresh database over stores that do not fail, a scan gives all records that are stored. -/
theorem Fresh.scansAs (fresh : Fresh kind.allows db) (quiet : db.standing.Quiet) (legible : db.standing.Legible)
    {heap : Heap} (registered : db.catalog.heap? heap.table = some heap) (asker : TransactionId) :
    db.ScansAs heap asker db.standing.recordMap := by
  have coherent : db.Coherent kind := (Tended.fresh fresh).coherent
  obtain ⟨reached, records, ending, course, unfolds⟩ := Scan.exists_unfolds coherent (.refl db) coherent.intact
    (.refl _ _) (show db.catalog.heap? (Scan.start heap asker).heap.table = some (Scan.start heap asker).heap
      from registered) rfl rfl (Nat.zero_le _)
  -- Only a page that is withheld could end the scan before the last one.
  have whole : ending = none := by
    cases ending with
    | none => rfl
    | some failure =>
      obtain ⟨met, roams, advances, withheld⟩ := course.fails failure rfl
      have short : reached ≠ db.standing.count heap := fun all => by cases course.complete.2 all
      have below := Nat.lt_of_le_of_ne course.within short
      exact absurd withheld (fresh.not_withheld quiet legible registered below roams advances failure)
  have all := course.complete.1 whole
  subst whole
  refine ⟨records, course.lists.ascending, fun record => ?_, fun count enough => ?_⟩
  · rw [course.lists.mem_iff]
    constructor
    · rintro ⟨number, slot, values, _, _, shown, same⟩
      exact ⟨⟨heap.page number, slot⟩, values, same, rfl, (fresh.values?_eq _).symm.trans shown⟩
    · rintro ⟨⟨⟨table, number⟩, slot⟩, values, same, here, stored⟩
      have below := number_lt_of_recordMap here stored
      cases (show table = heap.table from here)
      exact ⟨number, slot, values, Nat.zero_le _, all ▸ below, (fresh.values?_eq _).trans stored, same⟩
  · rw [Option.toList_none, List.map_nil, List.append_nil] at unfolds
    obtain ⟨later, after, taken⟩ := unfolds.exists_take (by rwa [List.length_map])
    refine ⟨later, after, ?_⟩
    rw [serve, run, Command.perform, Op.bind_of_ok taken]
    rfl

/-- The stores hold these records: they are read back, also in a new database, and given by each of its scans. -/
structure Holds (db : Database) (map : RecordMap) : Prop where
  read : ∀ place, db.readBack place = .ok (map place)
  reopened : ∀ place, db.reopened.readBack place = .ok (map place)
  scanned : ∀ heap transaction, db.catalog.heap? heap.table = some heap →
    db.reopened.ScansAs heap transaction map

/-- If all that is stored can be read, the stores hold what the database stands for. -/
theorem Consistent.holds (consistent : db.Consistent kind) (quiet : db.standing.Quiet)
    (legible : db.standing.Legible) : db.Holds db.standing.recordMap := by
  -- A new database has the same stores, and nothing in memory that could differ from them.
  have fresh : Fresh kind.allows db.reopened := consistent.reopened
  refine ⟨consistent.readBack quiet legible, fresh.consistent.readBack quiet legible, ?_⟩
  intro heap transaction registered
  exact fresh.scansAs quiet legible registered transaction

end Database

end HeapEngine
