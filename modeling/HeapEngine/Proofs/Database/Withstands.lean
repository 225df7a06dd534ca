import HeapEngine.Proofs.Database.Lasting
import HeapEngine.Proofs.Database.Marks.Records
import HeapEngine.Proofs.Database.Run

/-!
What withstands tables of the caller's own, whatever these do.

Such a table may give any copies as the ones it changed, also such as are not resident, and fail whenever it likes.
So what is to be kept by all tables is asked of the few things that a script can do to the pages in memory.
-/

namespace HeapEngine

/-- A page that is revised keeps its mark. -/
theorem Page.Revises.isDirty_eq {page changed : Page} (revises : page.Revises changed) :
    changed.isDirty = page.isDirty := by
  cases revises with
  | insert inserted => rw [isDirty, (sameOwner_insertRecord inserted).2, isDirty]
  | erase erased => rw [isDirty, (sameOwner_eraseRecord erased).2, isDirty]

/-- A page that is revised keeps its name. -/
theorem Page.Revises.id_eq {page changed : Page} (revises : page.Revises changed) : changed.id = page.id := by
  cases revises with
  | insert inserted => exact (sameOwner_insertRecord inserted).1
  | erase erased => exact (sameOwner_eraseRecord erased).1

/-- Whether a command writes pages, reads them anew or drops one. All others ask for pages and change them. -/
def Command.settles : Command → Bool
  | finish _ _ | writeBack _ | writeBackOf _ | checkpoint | discard _ => true
  | _ => false

namespace Database

variable {db : Database} {α : Type}

/-- Whatever kind of table a page is read from, it is the one that was asked for. -/
theorem permits_readStored_id (table : Table) (id : PageId) (db : Database) :
    Op.Permits (readStored table id) db fun result _ => ∀ page, result = .ok page → page.id = id := by
  cases table with
  | heap heap =>
    apply Op.Ends.onStorage
    refine (Storage.permits_read_image heap.store id db.storage).mono fun result _ decoded page told => ?_
    obtain ⟨image, decoded⟩ := decoded page told
    exact (Page.ofImage_eq_ok decoded).1
  | custom format =>
    have notes := Op.Ends.anywhere (note id.table (.read id)) db
    apply notes.bind
    · intro failure _ _ page told
      cases told
    · -- Tables of the caller's own read what they are asked for.
      exact fun before _ _ => .ofResult fun page told => format.id_read told

/--
What holds as long as pages are only asked for, changed and adopted.

It is told by the pages in memory and the settings. A page stays the one that it is. If it has changes it may be
changed again, but not so that it looks as if it had none.
-/
structure Withstands (holds : Database → Prop) : Prop where
  same : ∀ {db after}, holds db → after.settings = db.settings → after.pool = db.pool → holds after
  touch : ∀ {db}, holds db → ∀ id, holds { db with pool := (db.pool.touch id).2 }
  bring : ∀ {db}, holds db → ∀ id, Op.Permits (bring id) db fun _ after => holds after
  newCopy : ∀ {db}, holds db → ∀ page, holds { db with pool := (db.pool.addStray page).2 }
  edit : ∀ {db}, holds db → ∀ copy change, (∀ page, (change page).id = page.id) →
    (∀ page, page.isDirty = true → (change page).isDirty = true) →
    holds { db with pool := db.pool.edit copy change }
  replace : ∀ {db id page changed}, holds db → db.pool.page? id = some page → changed.id = page.id →
    (page.isDirty = true → changed.isDirty = true) →
    holds { db with pool := db.pool.editResident id fun _ => changed }
  adopt : ∀ {db}, holds db → ∀ asker copy, Op.Permits (adopt asker copy) db fun _ after => holds after

namespace Withstands

variable {holds : Database → Prop} (withstands : Withstands holds)

include withstands

theorem beyond {after : Database} (held : holds db) (beyond : Beyond db after) : holds after :=
  withstands.same held beyond.eq.1 beyond.eq.2.2.2

/-- Records of heaps may be looked for, stored and deleted. -/
theorem lasts (catalog : Catalog) : Lasts catalog (fun _ => True) fun db => db.catalog = catalog ∧ holds db where
  tables held := held.1
  touch held id := ⟨held.1, withstands.touch held.2 id⟩
  bring {db} held id := ((permits_bring_current id db).and (withstands.bring held.2 id)).mono fun _ _ ended =>
    ⟨ended.1.2.1.trans held.1, ended.2⟩
  grant held _ := ⟨held.1, withstands.same held.2 rfl rfl⟩
  release held _ _ := ⟨held.1, withstands.same held.2 rfl rfl⟩
  append {db _ _} held _ := (permits_onStorage_beyond _ db).mono fun _ _ beyond =>
    ⟨beyond.eq.2.1.trans held.1, withstands.beyond held.2 beyond⟩
  revise held _ resident revises :=
    ⟨held.1, withstands.replace held.2 resident revises.id_eq fun dirty => revises.isDirty_eq.trans dirty⟩
  mark held _ _ resident := ⟨held.1, withstands.replace held.2 resident rfl fun _ => rfl⟩

theorem acquire (held : holds db) (asker : TransactionId) (id : PageId) (access : Access) :
    Op.Permits (acquire asker id access) db fun _ after => holds after :=
  ((withstands.lasts db.catalog).acquire ⟨rfl, held⟩ asker id access).mono fun _ _ ended => ended.1.2

theorem adoptAll (held : holds db) (asker : TransactionId) (copies : List CopyId) :
    Op.Permits (adoptAll asker copies) db fun _ after => holds after := by
  -- A copy that finds no room leaves those before it adopted.
  induction copies generalizing db with
  | nil => exact .pure held
  | cons copy rest ih => exact (withstands.adopt held asker copy).andThen fun _ _ held => ih held

/-- Whatever a script does is withstood. -/
theorem runScript (held : holds db) (place : Option RecordId) (script : Script α) :
    Op.Permits (runScript place script) db fun _ after => holds after := by
  -- Asking for pages is all that can make any resident. The other steps change copies in place, and locks.
  induction script generalizing db place with
  | finish result => exact .pure held
  | stop fault =>
    cases fault with
    | failed failure => exact .pure held
    | trapped cause => exact trivial
  | acquire asker id access next ih =>
    exact .attempt_bind (withstands.acquire held asker id access) fun answer _ held => ih answer held place
  | lock asker id mode next ih =>
    have locks : Op.Permits (tryLock asker id mode) db fun _ after => holds after := by
      unfold Op.Permits Op.Ends tryLock
      cases db.locks.request id asker mode db.settings.patience with
      | ok locks => exact withstands.same held rfl rfl
      | error refusal => exact held
    exact locks.andThen fun answer _ held => ih answer held place
  | unlock asker id next ih =>
    have released : holds { db with locks := (db.locks.release id asker).2 } := withstands.same held rfl rfl
    exact ih (db.locks.release id asker).1 released place
  | unlockAll asker next ih =>
    have released : holds { db with locks := (db.locks.releaseAll asker).2 } := withstands.same held rfl rfl
    exact ih (db.locks.releaseAll asker).1 released place
  | newCopy page next ih => exact .onPool_bind (ih (db.pool.addStray page).1 (withstands.newCopy held page) place)
  | look copy next ih => exact .get_bind (ih (db.copy? copy) held place)
  | edit copy change next ih =>
    -- A table changes what a copy holds, and not its mark.
    have keeps (page : Page) (dirty : page.isDirty = true) : (change.apply page).isDirty = true := by
      rwa [Page.isDirty, change.changedBy_apply]
    exact .onPool_bind (ih (withstands.edit held copy change.apply change.id_apply keeps) place)
  | mark copy asker next ih =>
    have marked := withstands.edit held copy (fun page => page.markChanged asker) (fun _ => rfl) fun _ _ => rfl
    exact .onPool_bind (ih marked place)
  | place told next ih => exact ih held told

/-- What is stored in a table may be any pages, which are not adopted yet. -/
theorem insertInTable (held : holds db) {number : Nat} {table : Table}
    (found : db.catalog.tables.find? number = some table) (asker : TransactionId) (record : Record) :
    Op.Permits (insertInTable number table asker record) db fun _ after => holds after := by
  have lasts := withstands.lasts db.catalog
  cases table with
  | heap heap =>
    have registered : db.catalog.heap? number = some heap := by rw [Catalog.heap?, found]
    refine .attempt_bind (lasts.insertInHeap ⟨rfl, held⟩ registered asker record) fun answer after ended => ?_
    cases answer with
    | error failure => exact .pure ended.2
    | ok stored =>
      -- The page is changed in memory, and will be adopted.
      obtain ⟨_, _, _, held, _, alters⟩ := ended
      exact .pure (lasts.altered held alters trivial).2
  | custom format =>
    have notes : Op.Permits (note number (.insert asker record)) db fun _ after => holds after :=
      withstands.same held rfl rfl
    refine notes.andThen fun before _ held => ?_
    exact (withstands.runScript held record.place (format.insert before asker record)).reply

theorem deleteFromTable (held : holds db) (number : Nat) (table : Table) (asker : TransactionId)
    (record : Record) : Op.Permits (deleteFromTable number table asker record) db fun _ after => holds after := by
  have lasts := withstands.lasts db.catalog
  cases table with
  | heap heap =>
    refine (lasts.deleteFromHeap ⟨rfl, held⟩ heap asker record).mono fun result after ended => ?_
    cases result with
    | error failure => exact ended.2
    | ok copy =>
      obtain ⟨_, _, _, _, _, held, _, alters⟩ := ended
      exact (lasts.altered held alters trivial).2
  | custom format =>
    have notes : Op.Permits (note number (.delete asker record)) db fun _ after => holds after :=
      withstands.same held rfl rfl
    refine notes.andThen fun before _ held => ?_
    exact (withstands.runScript held record.place (format.delete before asker record)).andThen
      fun _ _ held => .ofResult held

theorem insert (held : holds db) (asker : TransactionId) (number : Nat) (record : Record) :
    Op.Permits (insert asker number record) db fun _ after => holds after := by
  unfold Database.insert Catalog.find
  refine .get_bind ?_
  cases found : db.catalog.tables.find? number with
  | none => exact .pure held
  | some table =>
    refine (withstands.insertInTable held found asker record).andThen ?_
    rintro ⟨answer, stored⟩ after held
    -- A failure of the table is told with the record, and then nothing is adopted.
    cases answer with
    | error failure => exact .pure held
    | ok changed => exact .attempt_bind (withstands.adoptAll held asker changed) fun _ _ held => .pure held

theorem delete (held : holds db) (asker : TransactionId) (record : Record) :
    Op.Permits (delete asker record) db fun _ after => holds after := by
  unfold Database.delete
  cases record.place with
  | none => exact .fail held
  | some place =>
    refine (permits_tableAt place.page.table db).bind (fun _ _ found => found.1 ▸ held) ?_
    rintro table _ ⟨rfl, -⟩
    refine (withstands.deleteFromTable held place.page.table table asker record).andThen ?_
    exact fun changed _ held => withstands.adoptAll held asker [changed]

/-- Every command that only asks for pages and changes them is withstood. -/
theorem perform (held : holds db) (command : Command) (asks : command.settles = false) :
    Op.Permits command.perform db fun _ after => holds after := by
  have lasts := withstands.lasts db.catalog
  cases command with
  | acquire transaction page access => exact (withstands.acquire held transaction page access).reply
  | insert transaction table record =>
    refine (withstands.insert held transaction table record).andThen ?_
    rintro ⟨answer, stored⟩ after held
    cases answer with
    | ok _ => exact .pure held
    | error failure => exact .fail held
  | delete transaction record => exact (withstands.delete held transaction record).reply
  | scan cursor count => exact ((lasts.take ⟨rfl, held⟩ cursor count).mono fun _ _ ended => ended.2).reply
  | start request => exact ((lasts.start ⟨rfl, held⟩ request).mono fun _ _ ended => ended.1.2).reply
  | ask request => exact ((lasts.ask ⟨rfl, held⟩ request).mono fun _ _ ended => ended.1.2).reply
  | releaseEarly transaction page =>
    exact ((lasts.releaseEarly ⟨rfl, held⟩ transaction page).mono fun _ _ ended => ended.2).reply
  | setFailing store reads writes =>
    exact ((permits_onStorage_beyond _ db).mono fun _ _ beyond => withstands.beyond held beyond).reply
  | addHeap name store =>
    have adds : Op.Permits (addHeap name store) db fun _ after => holds after :=
      ends_addHeap (fun _ => held) fun _ _ _ => withstands.same held rfl rfl
    exact adds.reply
  | finish | writeBack | writeBackOf | checkpoint | discard => cases asks

end Withstands

end Database

end HeapEngine
