import HeapEngine.Database.Scan
import HeapEngine.Database.Waiting
import HeapEngine.Proofs.Database.Loops
import HeapEngine.Proofs.Database.Records
import HeapEngine.Proofs.Database.Steps

/-!
What lasts while pages are looked for and records are stored, deleted and gone through.

These operations differ in what they look for and agree in how they change a database. So what is to be kept
by all of them is asked of the few changes they are made of, and told of each of them here once and for all.
-/

namespace HeapEngine

namespace Database

variable {db before after : Database} {asker : TransactionId} {id : PageId} {copy : CopyId} {heap : Heap}
  {α : Type}

/-- Only what lies beyond memory changed: what is stored, and what tables of the caller's own were asked for. -/
def Beyond (before after : Database) : Prop := ∃ storage calls, after = { before with storage, calls }

/-- The rest is as it was. -/
theorem Beyond.eq (beyond : Beyond before after) : after.settings = before.settings
    ∧ after.catalog = before.catalog ∧ after.locks = before.locks ∧ after.pool = before.pool := by
  obtain ⟨_, _, rfl⟩ := beyond
  exact ⟨rfl, rfl, rfl, rfl⟩

/-- Whatever the storage is asked for, nothing else changes. -/
theorem permits_onStorage_beyond (action : Op Storage α) (db : Database) :
    Op.Permits (onStorage action) db fun _ after => Beyond db after :=
  .onStorage ((Op.Ends.anywhere action db.storage).mono fun _ storage _ => ⟨storage, db.calls, rfl⟩)

/-- Whatever a table of the caller's own answers, nothing changes but that it was asked. -/
theorem permits_noted (number : Nat) (call : TableCall) (answer : List TableCall → Except Failure α)
    (db : Database) :
    Op.Permits (do ofResult (answer (← note number call))) db fun _ after => Beyond db after := by
  have notes : Op.Permits (note number call) db fun _ after => Beyond db after := ⟨db.storage, _, rfl⟩
  exact notes.andThen fun _ _ beyond => .ofResult beyond

/-- Reading past the pages in memory leaves these and the locks alone. -/
theorem permits_readStored (table : Table) (id : PageId) (db : Database) :
    Op.Permits (readStored table id) db fun _ after => Beyond db after := by
  cases table with
  | heap heap => exact permits_onStorage_beyond _ db
  | custom format => exact permits_noted id.table (.read id) (fun before => format.read before id) db

/-- Whatever a table answers when a page is written, nothing in memory changes. -/
theorem permits_writeStored (number : Nat) (table : Table) (page : Page) (db : Database) :
    Op.Permits (writeStored number table page) db fun _ after => Beyond db after := by
  cases table with
  | heap heap => exact permits_onStorage_beyond _ db
  | custom format => exact permits_noted number (.write page) (fun before => format.write before page) db

/-- Whatever a table answers when it is made durable, nothing in memory changes. -/
theorem permits_syncAt (number : Nat) (db : Database) :
    Op.Permits (syncAt number) db fun _ after => Beyond db after := by
  -- An unknown table is not asked. A heap asks its store, and a custom table is noted to be asked.
  refine (permits_tableAt number db).bind (fun _ _ found => ⟨db.storage, db.calls, found.1⟩) ?_
  rintro table _ ⟨rfl, -⟩
  cases table with
  | heap heap => exact permits_onStorage_beyond _ _
  | custom format => exact permits_noted number .sync format.sync _

/-- The copy that is given is the resident one, and bringing it leaves the locks and the tables alone. -/
theorem permits_bring_current (id : PageId) (db : Database) :
    Op.Permits (bring id) db fun result after => after.locks = db.locks ∧ after.catalog = db.catalog
      ∧ ∀ copy, result = .ok copy → copy.page = id ∧ after.pool.isCurrent copy = true := by
  obtain ⟨-, current, answer⟩ := Pool.touch_eq db.pool id
  -- A page in memory is given as it is. Another is read, finds room and is loaded last.
  refine .onPool_bind ?_
  cases asked : (db.pool.touch id).1 with
  | some copy =>
    rw [asked] at answer
    refine .pure ⟨rfl, rfl, fun _ told => ?_⟩
    cases told
    exact ⟨answer.1, (current copy).trans answer.2⟩
  | none =>
    refine (permits_tableAt id.table _).bind (fun _ _ found => found.1 ▸ ⟨rfl, rfl, by simp⟩) ?_
    rintro table _ ⟨rfl, -⟩
    refine (permits_readStored table id _).bind (fun _ _ beyond => ?_) fun page read beyond => ?_
    · exact ⟨beyond.eq.2.2.1, beyond.eq.2.1, by simp⟩
    obtain ⟨-, catalog, locks, -⟩ := beyond.eq
    have rooms : Op.Permits makeRoom read fun _ after => after.locks = read.locks ∧ after.catalog = read.catalog :=
      (ensures_makeRoom_rooms read).permits.mono fun _ _ rooms => by cases rooms <;> exact ⟨rfl, rfl⟩
    refine rooms.bind (fun _ _ kept => ⟨kept.1.trans locks, kept.2.trans catalog, by simp⟩) ?_
    intro _ roomy kept
    refine .onPool ⟨kept.1.trans locks, kept.2.trans catalog, fun _ told => ?_⟩
    cases told
    exact ⟨rfl, (roomy.pool.load_eq id page).2.2⟩

/-- A page was changed on its current copy by its writer, and is not marked yet. -/
structure Alters (asker : TransactionId) (before : Database) (copy : CopyId) (page changed : Page)
    (after : Database) : Prop where
  current : before.pool.isCurrent copy = true
  writes : before.locks.isWriter copy.page asker = true
  resident : before.pool.page? copy.page = some page
  revises : page.Revises changed
  after : after = { before with pool := before.pool.editResident copy.page fun _ => changed }

/-- A changed page is marked where it is, and was asked for. -/
def adopted (db : Database) (asker : TransactionId) (copy : CopyId) (changed : Page) : Database :=
  { db with pool := ((db.pool.editResident copy.page fun _ => changed.markChanged asker).touch copy.page).2 }

/-- Only the page that is adopted is another one than before its writer changed it. -/
theorem Alters.page?_adopted {page changed : Page} (alters : Alters asker before copy page changed after)
    (id : PageId) : (after.adopted asker copy changed).pool.page? id
      = if id = copy.page then some (changed.markChanged asker) else before.pool.page? id := by
  -- The page is edited twice and touched once, and only the last edit shows.
  rw [adopted, (Pool.touch_eq _ copy.page).1, Pool.page?_editResident, alters.after, Pool.page?_editResident,
    Pool.page?_editResident, if_pos rfl, alters.resident]
  split <;> rfl

/-- What is stored and registered is as before a page was changed and adopted. -/
theorem Alters.shown_adopted {page changed : Page} (alters : Alters asker before copy page changed after) :
    (after.adopted asker copy changed).catalog = before.catalog
      ∧ (after.adopted asker copy changed).standing.shown = before.standing.shown := by
  rw [alters.after]
  exact ⟨rfl, rfl⟩

/-- A page that its writer has changed is adopted. -/
theorem Alters.ensures_adoptAll {page changed : Page} (alters : Alters asker before copy page changed after) :
    Op.Ensures (adoptAll asker [copy]) after fun result last => result = .ok ()
      ∧ after.pool.page? copy.page = some changed ∧ last = after.adopted asker copy changed := by
  -- The copy is still the current one, and holds the changed page.
  have still : after.pool.isCurrent copy = true := by
    rw [alters.after, Pool.isCurrent_editResident]
    exact alters.current
  have there : after.pool.page? copy.page = some changed := by
    rw [alters.after, Pool.page?_editResident, if_pos rfl, alters.resident]
    rfl
  have writes : after.locks.isWriter copy.page asker = true := by
    rw [alters.after]
    exact alters.writes
  refine Op.Ends.bind (ensures_adopt_current writes still there) (fun _ _ ended => by cases ended.1)
    fun _ last ended => .pure ⟨rfl, there, ?_⟩
  exact ended.2

/-- A change of the current copy of a page for its writer is what happens, or nothing does. -/
theorem permits_alters {change : Page → Outcome (Page × α)} (current : db.pool.isCurrent copy = true)
    (writes : db.locks.isWriter copy.page asker = true)
    (revises : ∀ page changed value, change page = .ok (changed, value) → page.Revises changed) :
    Op.Permits (changeCopy copy change) db fun result after =>
      match result with
      | .ok value => ∃ page changed, change page = .ok (changed, value) ∧ Alters asker db copy page changed after
      | .error _ => after = db := by
  -- The current copy and the resident page are one, so what is changed on the copy is the page.
  obtain ⟨page, resident⟩ := exists_page_of_current current
  unfold Op.Permits Op.Ends changeCopy Database.copy?
  rw [Pool.copy?_of_current current, resident]
  cases outcome : change page with
  | error fault =>
    simp only [outcome]
    cases fault with
    | failed failure => rfl
    | trapped cause => exact trivial
  | ok result =>
    obtain ⟨changed, value⟩ := result
    simp only [outcome]
    rw [Pool.edit_of_current current]
    exact ⟨page, changed, outcome, current, writes, resident, revises page changed value outcome, rfl⟩

/--
What lasts while records are looked for, stored and deleted, of tables as they are registered.

Pages may be brought into memory and locks be taken and released again. Which pages may also be changed is
told, and then whoever changes a page is its writer.
-/
structure Lasts (catalog : Catalog) (mayChange : PageId → Prop) (holds : Database → Prop) : Prop where
  tables : ∀ {db}, holds db → db.catalog = catalog
  touch : ∀ {db}, holds db → ∀ id, holds { db with pool := (db.pool.touch id).2 }
  bring : ∀ {db}, holds db → ∀ id, Op.Permits (bring id) db fun _ after => holds after
  grant : ∀ {db id asker mode locks}, holds db → db.locks.grant? id asker mode = some locks →
    holds { db with locks }
  release : ∀ {db}, holds db → ∀ id holder, holds { db with locks := (db.locks.release id holder).2 }
  append : ∀ {db number heap}, holds db → catalog.heap? number = some heap →
    Op.Permits (onStorage (Storage.append heap.store)) db fun _ after => holds after
  revise : ∀ {db id page changed}, holds db → mayChange id → db.pool.page? id = some page →
    page.Revises changed → holds { db with pool := db.pool.editResident id fun _ => changed }
  mark : ∀ {db id page asker}, holds db → mayChange id → db.locks.isWriter id asker = true →
    db.pool.page? id = some page →
    holds { db with pool := db.pool.editResident id fun _ => page.markChanged asker }

namespace Lasts

variable {catalog : Catalog} {mayChange : PageId → Prop} {holds : Database → Prop}
  (lasts : Lasts catalog mayChange holds)

include lasts

theorem lockPage (held : holds db) (asker : TransactionId) (id : PageId) (mode : LockMode) :
    Op.Permits (lockPage asker id mode) db fun result after => holds after
      ∧ (result = .ok () → mode = .exclusive → after.locks.isWriter id asker = true) := by
  unfold Op.Permits Op.Ends Database.lockPage Locks.request
  cases granted : db.locks.grant? id asker mode with
  | none => exact ⟨held, by simp⟩
  | some locks =>
    refine ⟨lasts.grant held granted, fun _ exclusive => ?_⟩
    subst exclusive
    exact Locks.isWriter_of_grantExclusive? granted

/-- Who is given a page to write is its writer, and the copy is the resident one. -/
theorem acquire (held : holds db) (asker : TransactionId) (id : PageId) (access : Access) :
    Op.Permits (acquire asker id access) db fun result after => holds after
      ∧ ∀ copy, result = .ok copy → copy.page = id ∧ after.pool.isCurrent copy = true
        ∧ (access = .writing → after.locks.isWriter id asker = true) := by
  -- The page is brought, locked and brought again. Only the last copy is given, so that one has to be current.
  refine (lasts.bring held id).bind (fun _ _ kept => ⟨kept, by simp⟩) ?_
  intro _ brought kept
  refine (lasts.lockPage kept asker id access.lockMode).bind (fun _ _ ended => ⟨ended.1, by simp⟩) ?_
  intro _ locked ended
  obtain ⟨kept, writes⟩ := ended
  refine ((lasts.bring kept id).and (permits_bring_current id locked)).mono ?_
  intro result after ended
  obtain ⟨kept, locks, -, current⟩ := ended
  refine ⟨kept, fun copy told => ?_⟩
  obtain ⟨here, resident⟩ := current copy told
  refine ⟨here, resident, fun writing => ?_⟩
  rw [locks]
  exact writes rfl (congrArg Access.lockMode writing)

theorem releaseEarly (held : holds db) (asker : TransactionId) (id : PageId) :
    Op.Permits (releaseEarly asker id) db fun _ after => holds after := by
  have released := lasts.release held id asker
  unfold Op.Permits Op.Ends Database.releaseEarly
  rcases taken : db.locks.release id asker with ⟨held, locks⟩
  rw [taken] at released
  cases held <;> exact released

/-- What lasts does so while a page is changed, if that page may be. -/
theorem altered {page changed : Page} (held : holds before) (alters : Alters asker before copy page changed after)
    (may : mayChange copy.page) : holds after := by
  rw [alters.after]
  exact lasts.revise held may alters.resident alters.revises

/-- A page that its writer has changed is adopted, which lasts if the page may be changed. -/
theorem adoptAll {page changed : Page} (held : holds before) (alters : Alters asker before copy page changed after) :
    Op.Permits (adoptAll asker [copy]) after fun result last => result = .ok ()
      ∧ (mayChange copy.page → holds last) := by
  -- Marking is what lasts for the page, and touching it afterwards only moves the clock.
  refine alters.ensures_adoptAll.permits.mono fun result last ended => ?_
  obtain ⟨told, still, rfl⟩ := ended
  refine ⟨told, fun may => lasts.touch (lasts.mark (lasts.altered held alters may) may ?_ still) copy.page⟩
  rw [alters.after]
  exact alters.writes

/-- A record is stored on a page, which is not marked yet, or nothing is. -/
theorem insertAt (held : holds db) (asker : TransactionId) (id : PageId) (record : Record) :
    Op.Permits (insertAt asker id record) db fun result after =>
      match result with
      | .ok (copy, place) => ∃ middle page changed, holds middle
        ∧ page.insertRecord record = .ok (changed, place) ∧ Alters asker middle copy page changed after
      | .error _ => holds after := by
  -- From here on the page is resident and locked by its writer, so it may be changed.
  refine (lasts.acquire held asker id .writing).bind (fun _ _ ended => ended.1) ?_
  intro copy given ended
  obtain ⟨kept, current⟩ := ended
  obtain ⟨here, resident, writes⟩ := current copy rfl
  subst here
  refine (permits_alters resident (writes rfl) fun _ _ _ inserted => .insert inserted).bind
    (fun _ _ same => same ▸ kept) ?_
  intro place after ended
  obtain ⟨page, changed, inserted, alters⟩ := ended
  exact .pure ⟨given, page, changed, kept, inserted, alters⟩

theorem insertFrom (held : holds db) (heap : Heap) (asker : TransactionId) (record : Record)
    (size left number : Nat) :
    Op.Permits (insertFrom heap asker record size left number) db fun result after =>
      match result with
      | .ok (some (copy, place)) => ∃ middle page changed, holds middle
        ∧ page.insertRecord record = .ok (changed, place) ∧ Alters asker middle copy page changed after
      | _ => holds after := by
  -- Pages without room are only looked at, and released again.
  induction left generalizing db number with
  | zero => exact .pure held
  | succ left ih =>
    unfold Database.insertFrom
    refine .get_bind ((lasts.acquire held asker (heap.page number) .reading).bind (fun _ _ ended => ended.1) ?_)
    intro copy given ended
    have kept := ended.1
    refine (permits_lookAt copy).bind (fun _ _ same => same ▸ kept) ?_
    rintro page _ rfl
    refine Op.Ends.bind (.outcome fun _ => kept : Op.Permits _ _ fun _ after => holds after)
      (fun _ _ kept => kept) ?_
    intro room after kept
    refine .ite (fun _ => ?_) fun _ => .ite (fun _ => ?_) fun _ => ih kept (number + 1)
    · exact (lasts.insertAt kept asker (heap.page number) record).bind (fun _ _ kept => kept)
        fun stored last ended => .pure ended
    · exact (lasts.releaseEarly kept asker (heap.page number)).bind (fun _ _ kept => kept)
        fun _ last kept => ih kept (number + 1)

theorem insertInHeap {number : Nat} (held : holds db) (registered : catalog.heap? number = some heap)
    (asker : TransactionId) (record : Record) :
    Op.Permits (insertInHeap heap asker record) db fun result after =>
      match result with
      | .ok (copy, place) => ∃ middle page changed, holds middle
        ∧ page.insertRecord record = .ok (changed, place) ∧ Alters asker middle copy page changed after
      | .error _ => holds after := by
  -- The size is checked first. Then the pages are searched, and the heap grows only if none had room.
  unfold Database.insertInHeap
  refine .get_bind (Op.Ends.bind (.outcome fun _ => held : Op.Permits _ _ fun _ after => holds after)
    (fun _ _ kept => kept) ?_)
  intro largest after kept
  refine .ite (fun _ => .fail kept) fun _ => ?_
  have counts : Op.Permits (heapPageCount heap) after fun _ last => holds last :=
    .get_bind (.outcome fun _ => kept)
  refine counts.bind (fun _ _ kept => kept) ?_
  intro count after kept
  refine (lasts.insertFrom kept heap asker record _ count 0).bind (fun _ _ kept => kept) ?_
  intro found after ended
  cases found with
  | some stored => exact .pure ended
  | none =>
    refine (lasts.append ended registered).bind (fun _ _ kept => kept) ?_
    exact fun place last kept => lasts.insertAt kept asker (heap.page place) record

/-- A record is stored on one page of a heap, which is not marked yet, or nothing is. -/
theorem insertInTable {number : Nat} (held : holds db) (registered : catalog.heap? number = some heap)
    (asker : TransactionId) (record : Record) :
    Op.Permits (insertInTable number (.heap heap) asker record) db fun result after =>
      ∃ answer stored, result = .ok (answer, stored) ∧
        match answer with
        | .ok copies => ∃ middle copy page changed place, holds middle ∧ copies = [copy]
          ∧ page.insertRecord record = .ok (changed, place) ∧ stored = { record with place := some place }
          ∧ Alters asker middle copy page changed after
        | .error _ => holds after := by
  refine .attempt_bind (lasts.insertInHeap held registered asker record) ?_
  intro answer after ended
  cases answer with
  | error failure => exact .pure ⟨_, _, rfl, ended⟩
  | ok stored =>
    obtain ⟨middle, page, changed, kept, inserted, alters⟩ := ended
    exact .pure ⟨_, _, rfl, middle, stored.1, page, changed, stored.2, kept, rfl, inserted, rfl, alters⟩

/-- A record that is stored in a heap changes one page, and if it is not stored no page is changed. -/
theorem insert {number : Nat} (held : holds db)
    (heaps : ∀ table, catalog.tables.find? number = some table → ∃ heap, table = .heap heap)
    (asker : TransactionId) (record : Record) :
    Op.Permits (insert asker number record) db fun result after => ∃ answer stored, result = .ok (answer, stored) ∧
      match answer with
      | .ok () => ∃ middle id page changed place, holds middle ∧ middle.pool.page? id = some page
        ∧ page.insertRecord record = .ok (changed, place) ∧ stored = { record with place := some place }
        ∧ (mayChange id → holds after)
      | .error _ => holds after := by
  -- What is adopted is the one copy that the heap hands over.
  unfold Database.insert Catalog.find
  refine .get_bind ?_
  rw [lasts.tables held]
  cases found : catalog.tables.find? number with
  | none => exact .pure ⟨_, _, rfl, held⟩
  | some table =>
    obtain ⟨heap, rfl⟩ := heaps table found
    have registered : catalog.heap? number = some heap := by rw [Catalog.heap?, found]
    refine (lasts.insertInTable held registered asker record).bind (fun _ _ ended => ?_)
      fun value after ended => ?_
    · obtain ⟨_, _, told, _⟩ := ended
      cases told
    · obtain ⟨answer, stored, told, outcome⟩ := ended
      cases told
      cases answer with
      | error failure => exact .pure ⟨_, _, rfl, outcome⟩
      | ok copies =>
        obtain ⟨middle, copy, page, changed, place, kept, rfl, inserted, rfl, alters⟩ := outcome
        refine .attempt_bind (lasts.adoptAll kept alters) fun answer last ended => .pure ?_
        obtain ⟨rfl, after⟩ := ended
        exact ⟨_, _, rfl, middle, copy.page, page, changed, place, kept, alters.resident, inserted, rfl, after⟩

/-- A record is erased on the page it is stored on, which is not marked yet, or nothing is. -/
theorem deleteFromHeap (held : holds db) (heap : Heap) (asker : TransactionId) (record : Record) :
    Op.Permits (deleteFromHeap heap asker record) db fun result after =>
      match result with
      | .ok copy => ∃ place middle page changed, record.place = some place ∧ holds middle
        ∧ copy.page = place.page ∧ Alters asker middle copy page changed after
      | .error _ => holds after := by
  unfold Database.deleteFromHeap
  cases placed : record.place with
  | none => exact .fail held
  | some place =>
    refine .ite (fun _ => .fail held) fun _ => ?_
    refine (lasts.acquire held asker place.page .writing).bind (fun _ _ ended => ended.1) ?_
    intro copy given ended
    obtain ⟨kept, current⟩ := ended
    obtain ⟨here, resident, writes⟩ := current copy rfl
    refine (permits_alters resident (here ▸ writes rfl) fun page changed _ erased => ?_).bind
      (fun _ _ same => same ▸ kept) ?_
    · -- The change is the erasure of the record, with nothing told.
      obtain ⟨_, outcome, told⟩ := Outcome.exists_of_bind erased
      cases told
      exact .erase outcome
    · intro _ last ended
      obtain ⟨page, changed, _, alters⟩ := ended
      exact .pure ⟨place, given, page, changed, rfl, kept, here, alters⟩

/-- A record that is deleted from a heap changes the page it is on, and if it is not no page is changed. -/
theorem delete (held : holds db)
    (heaps : ∀ number table, catalog.tables.find? number = some table → ∃ heap, table = .heap heap)
    (asker : TransactionId) (record : Record) :
    Op.Permits (delete asker record) db fun result after =>
      match result with
      | .ok () => ∃ place, record.place = some place ∧ (mayChange place.page → holds after)
      | .error _ => holds after := by
  unfold Database.delete
  cases placed : record.place with
  | none => exact .fail held
  | some place =>
    -- The table that the record's place names is a heap, as all tables are.
    refine (permits_tableAt place.page.table db).bind (fun _ _ looked => looked.1 ▸ held) ?_
    rintro table _ ⟨rfl, registered⟩
    obtain ⟨heap, rfl⟩ := heaps _ table (lasts.tables held ▸ registered table rfl)
    have inTable : Op.Permits (deleteFromTable place.page.table (.heap heap) asker record) _ _ :=
      lasts.deleteFromHeap held heap asker record
    refine inTable.bind (fun _ _ kept => kept) ?_
    intro copy last ended
    obtain ⟨there, middle, page, changed, same, kept, here, alters⟩ := ended
    cases placed.symm.trans same
    refine (lasts.adoptAll kept alters).mono fun result final ended => ?_
    obtain ⟨rfl, after⟩ := ended
    exact ⟨place, rfl, here ▸ after⟩

theorem nextRecords (held : holds db) (scan : Scan) :
    Op.Permits scan.nextRecords db fun _ after => holds after := by
  -- A page is looked at under its lock, and records that cannot be read change nothing.
  refine (lasts.acquire held scan.transaction _ .reading).bind (fun _ _ ended => ended.1) ?_
  intro copy given ended
  refine (permits_lookAt copy).bind (fun _ _ same => same ▸ ended.1) ?_
  rintro page _ rfl
  exact .outcome fun _ => ended.1

theorem advance (held : holds db) (limit : Nat) (scan : Scan) :
    Op.Permits (Scan.advance limit scan) db fun _ after => holds after := by
  -- Every page that is gone over is one of those left.
  induction limit generalizing db scan with
  | zero =>
    unfold Scan.advance
    refine .ite (fun _ => .pure held) fun _ => ?_
    cases scan.pending <;> exact .pure held
  | succ limit ih =>
    unfold Scan.advance
    refine .ite (fun _ => .pure held) fun _ => ?_
    cases scan.pending with
    | cons record rest => exact .pure held
    | nil =>
      refine .attempt_bind (lasts.nextRecords held scan) fun answer after kept => ?_
      cases answer with
      | ok records => exact ih kept _
      | error failure => exact .pure kept

theorem next (held : holds db) (scan : Scan) : Op.Permits scan.next db fun _ after => holds after := by
  have counts : Op.Permits (heapPageCount scan.heap) db fun _ after => holds after :=
    .get_bind (.outcome fun _ => held)
  exact counts.andThen fun pages _ kept => lasts.advance kept (pages - scan.page) scan

theorem take (held : holds db) (scan : Scan) (count : Nat) :
    Op.Permits (scan.take count) db fun _ after => holds after := by
  induction count generalizing db scan with
  | zero => exact .pure held
  | succ count ih =>
    refine (lasts.next held scan).andThen fun value after kept => ?_
    obtain ⟨item, later⟩ := value
    cases item with
    | done => exact .pure kept
    -- The scan goes on after a record and after a failure alike.
    | record _ | failure _ => exact (ih kept later).reply

/-- A request that waited is given the resident copy, once its lock is granted. -/
theorem ask (held : holds db) (request : PageRequest) :
    Op.Permits request.ask db fun result after => holds after
      ∧ ∀ copy, result = .ok (some (.ok copy)) → copy.page = request.page ∧ after.pool.isCurrent copy = true := by
  unfold PageRequest.ask
  refine .get_bind ?_
  -- A request that is refused goes on waiting. Once granted, it asks for the page again.
  cases granted : request.lockRequest.ask db.locks with
  | none => exact .pure ⟨held, by simp⟩
  | some locks =>
    have kept := lasts.grant held granted
    refine .set_bind (.attempt_bind ((lasts.bring kept request.page).and (permits_bring_current _ _)) ?_)
    intro answer after ended
    obtain ⟨kept, -, -, current⟩ := ended
    refine .pure ⟨kept, fun copy told => ?_⟩
    cases told
    exact current copy rfl

theorem start (held : holds db) (request : PageRequest) :
    Op.Permits request.start db fun result after => holds after
      ∧ ∀ copy, result = .ok (some (.ok copy)) → copy.page = request.page ∧ after.pool.isCurrent copy = true := by
  refine .attempt_bind (lasts.bring held request.page) fun answer after kept => ?_
  cases answer with
  | error failure => exact .pure ⟨kept, by simp⟩
  | ok copy => exact lasts.ask kept request

end Lasts

end Database

end HeapEngine
