import HeapEngine.Proofs.Database.RollBack
import HeapEngine.Proofs.Database.Tracking
import HeapEngine.Proofs.Locks.Traffic
import HeapEngine.Proofs.Storage.Commuting

/-!
Different transactions can end in either order.

What is done to a page when it is written or read anew commutes with what is done to another page so, since
the pages have places of their own in memory and in their stores. A page carries the mark of one transaction,
so two transactions have no changed page in common.
-/

namespace HeapEngine

namespace Database

variable {db before after : Database} {id other : PageId} {heap neighbour : Heap} {transaction : TransactionId}
  {α β : Type}

/-! The parts of a database. -/

/-- The storage, as a part of a database. -/
def storagePart : Part Database Storage where
  get db := db.storage
  put storage db := { db with storage }
  get_put _ _ := rfl
  put_put _ _ _ := rfl

/-- The pages in memory, as a part of a database. -/
def poolPart : Part Database Pool where
  get db := db.pool
  put pool db := { db with pool }
  get_put _ _ := rfl
  put_put _ _ _ := rfl

/-- The locks, as a part of a database. -/
def locksPart : Part Database Locks where
  get db := db.locks
  put locks db := { db with locks }
  get_put _ _ := rfl
  put_put _ _ _ := rfl

theorem apart_storage_pool : storagePart.Apart poolPart := ⟨fun _ _ => rfl, fun _ _ => rfl, fun _ _ _ => rfl⟩

theorem apart_storage_locks : storagePart.Apart locksPart := ⟨fun _ _ => rfl, fun _ _ => rfl, fun _ _ _ => rfl⟩

theorem apart_pool_locks : poolPart.Apart locksPart := ⟨fun _ _ => rfl, fun _ _ => rfl, fun _ _ _ => rfl⟩

theorem lifts_onStorage (action : Op Storage α) : storagePart.Lifts action (onStorage action) := by
  -- The storage is opened here once; all else of the database is taken along.
  refine .of_ended fun db => ?_
  unfold onStorage Op.outcome Op.last
  simp only [storagePart]
  cases action db.storage <;> rfl

/-- Changing the pages in memory, with nothing to tell. -/
theorem lifts_onPool (change : Pool → Pool) :
    poolPart.Lifts (modify change) (onPool fun pool => ((), change pool)) := .of_ended fun _ => rfl

/-- Releasing the locks of a transaction, as something done to the locks alone. -/
def releaseFrom (transaction : TransactionId) : Op Locks (List PageId) := fun locks =>
  .ok (locks.releaseAll transaction).1 (locks.releaseAll transaction).2

theorem lifts_releaseLocks (transaction : TransactionId) :
    locksPart.Lifts (releaseFrom transaction) (releaseLocks transaction) := .of_ended fun _ => rfl

theorem commutes_onPool {change another : Pool → Pool} (same : another (change db.pool) = change (another db.pool)) :
    Op.Commutes (onPool fun pool => ((), change pool)) (onPool fun pool => ((), another pool)) db :=
  poolPart.commutes (lifts_onPool change) (lifts_onPool another) ⟨rfl, rfl, same⟩

/-! What is done to one page. -/

/-- An operation commutes with everything that is done to a page when it is written or read anew. -/
structure Aside (id : PageId) (action : Op Database α) (db : Database) : Prop where
  page : (action.last db).pool.page? id = db.pool.page? id
  catalog : (action.last db).catalog = db.catalog
  read : ∀ heap, db.catalog.heap? id.table = some heap →
    Op.Commutes (onStorage (Storage.read heap.store id)) action db
  write : ∀ heap page, db.catalog.heap? id.table = some heap → db.pool.page? id = some page →
    Op.Commutes (onStorage (Storage.write heap.store page)) action db
  /-- The page is changed or dropped after its store was asked, which changes nothing but the storage. -/
  edit : ∀ storage change,
    Op.Commutes (onPool fun pool => ((), pool.editResident id change)) action { db with storage }
  drop : ∀ storage, Op.Commutes (onPool fun pool => ((), pool.drop id)) action { db with storage }

theorem last_onStorage (action : Op Storage α) (db : Database) :
    (onStorage action).last db = { db with storage := action.last db.storage } := (lifts_onStorage action).last db

/-- Looking for a table leaves a database alone, and finds a heap or fails. -/
theorem OverHeaps.commutes_tableAt_bind (heaps : db.OverHeaps) {action : Op Database α} {number : Nat}
    {next : Table → Op Database β} (same : (action.last db).catalog = db.catalog)
    (found : ∀ heap, db.catalog.heap? number = some heap → Op.Commutes (next (.heap heap)) action db) :
    Op.Commutes (tableAt number >>= next) action db := by
  show Op.Commutes (MonadState.get >>= fun db => ofResult (db.catalog.find number) >>= next) action db
  -- The tables are the same before and after the action, so it does not matter when they are looked at.
  refine .get_bind (by rw [same]) ?_
  unfold Catalog.find
  cases registered : db.catalog.tables.find? number with
  | none =>
    have fails : ∀ db : Database, (ofResult (.error (.noTable number)) >>= next : Op Database β) db
        = Op.ended (.error (.failed (.noTable number))) db := fun _ => rfl
    exact .of_const fails action db
  | some table =>
    obtain ⟨heap, rfl⟩ := heaps number table registered
    exact found heap (by rw [Catalog.heap?, registered])

/-- Reading a page past the pages in memory changes the storage at most. -/
theorem OverHeaps.last_readAnew (heaps : db.OverHeaps) (id : PageId) :
    ∃ storage, Op.last (do readStored (← tableAt id.table) id) db = { db with storage } := by
  show ∃ storage, Op.last (ofResult (db.catalog.find id.table) >>= fun table => readStored table id) db
    = { db with storage }
  unfold Catalog.find
  cases registered : db.catalog.tables.find? id.table with
  | none => exact ⟨db.storage, rfl⟩
  | some table =>
    obtain ⟨heap, rfl⟩ := heaps id.table table registered
    exact ⟨_, last_onStorage (Storage.read heap.store id) db⟩

namespace Aside

variable {action : Op Database α}

/-- Writing a page commutes with what leaves it alone. -/
theorem writeBack (aside : Aside id action db) (heaps : db.OverHeaps) :
    Op.Commutes (writeBack id) action db := by
  unfold Database.writeBack
  -- The action leaves the page, so whether there is something to write is seen in either order.
  refine .get_bind (by simp only [aside.page]) ?_
  cases resident : db.pool.page? id with
  | none => exact .pure _ _ _
  | some page =>
    refine .ite (fun _ => .pure _ _ _) fun _ => ?_
    refine heaps.commutes_tableAt_bind aside.catalog fun heap registered => ?_
    -- The store is asked first, and what is done to the page then begins over another storage.
    refine (aside.write heap page registered resident).bind fun _ _ => ?_
    rw [last_onStorage]
    exact (aside.edit _ _).bind fun _ _ => .pure _ _ _

/-- Reading a page anew commutes with what leaves it alone. -/
theorem reload (aside : Aside id action db) (heaps : db.OverHeaps) :
    Op.Commutes (reload id) action db := by
  -- An answer of the store is read in both orders, whether it is a page or a failure.
  have reads : Op.Commutes (do readStored (← tableAt id.table) id) action db :=
    heaps.commutes_tableAt_bind aside.catalog aside.read
  unfold Database.reload
  refine reads.attempt.bind fun answer _ => ?_
  obtain ⟨storage, stored⟩ := heaps.last_readAnew id
  rw [Op.last_attempt, stored]
  cases answer with
  | ok page => exact (aside.edit storage _).bind fun _ _ => .pure _ _ _
  | error failure => exact (aside.drop storage).bind fun _ _ => .pure _ _ _

end Aside

/-- A page that is in memory is stored in its place. -/
theorem Housed.number_lt (housed : db.Housed) {page : Page} (registered : db.catalog.heap? id.table = some heap)
    (resident : db.pool.page? id = some page) :
    page.id = id ∧ page.id.number < (db.storage.view heap.store).images.length := by
  -- Only pages of the store's own length can be in memory, so each of them has an image.
  have keeps := housed.kept id page resident
  obtain ⟨image, stored⟩ := keeps.stored heap registered
  rw [Standing.image?, shown_eq registered] at stored
  exact ⟨keeps.name, keeps.name ▸ (List.getElem?_eq_some_iff.1 stored).1⟩

/-- Different pages are at different places of one store, or in stores that have no byte in common. -/
theorem Intact.near (intact : db.Intact) (apart : id ≠ other) (registered : db.catalog.heap? id.table = some heap)
    (known : db.catalog.heap? other.table = some neighbour) :
    neighbour.store = heap.store ∧ id.number ≠ other.number ∨ heap.store.Apart neighbour.store := by
  -- Pages of one table differ in their numbers, and different tables are over different stores.
  by_cases same : id.table = other.table
  · rw [same] at registered
    cases registered.symm.trans known
    refine .inl ⟨rfl, fun numbers => apart ?_⟩
    cases id
    cases other
    cases same
    cases numbers
    rfl
  · exact .inr (intact.orderly.apart _ _ _ _ same registered known)

namespace Aside

/-- Releasing locks leaves all pages alone. -/
theorem of_releaseLocks (transaction : TransactionId) (id : PageId) (db : Database) :
    Aside id (releaseLocks transaction) db where
  page := rfl
  catalog := rfl
  -- Locks are a part of the database that neither the storage nor the pool looks at.
  read _ _ := apart_storage_locks.commutes (lifts_onStorage _) (lifts_releaseLocks _) db
  write _ _ _ _ := apart_storage_locks.commutes (lifts_onStorage _) (lifts_releaseLocks _) db
  edit _ _ := apart_pool_locks.commutes (lifts_onPool _) (lifts_releaseLocks _) _
  drop _ := apart_pool_locks.commutes (lifts_onPool _) (lifts_releaseLocks _) _

/-- What is done to another page in memory leaves a page alone. -/
theorem of_onPool {change : Pool → Pool} (page : (change db.pool).page? id = db.pool.page? id)
    (edit : ∀ another, change (db.pool.editResident id another) = (change db.pool).editResident id another)
    (drop : change (db.pool.drop id) = (change db.pool).drop id) :
    Aside id (onPool fun pool => ((), change pool)) db where
  page := page
  catalog := rfl
  -- The pool and the storage are parts of their own, so only other changes of the pool count.
  read _ _ := apart_storage_pool.commutes (lifts_onStorage _) (lifts_onPool _) db
  write _ _ _ _ := apart_storage_pool.commutes (lifts_onStorage _) (lifts_onPool _) db
  edit _ another := commutes_onPool (edit another)
  drop _ := commutes_onPool drop

theorem of_editResident (apart : other ≠ id) (change : Page → Page) (db : Database) :
    Aside id (onPool fun pool => ((), pool.editResident other change)) db :=
  of_onPool (by rw [Pool.page?_editResident, if_neg (Ne.symm apart)])
    (fun another => Pool.editResident_comm _ (Ne.symm apart) another change)
    (Pool.drop_editResident _ apart change).symm

theorem of_drop (numbered : db.pool.Numbered) (apart : other ≠ id) :
    Aside id (onPool fun pool => ((), pool.drop other)) db :=
  of_onPool (by rw [Pool.page?_drop, if_neg (Ne.symm apart)])
    (fun another => Pool.drop_editResident _ (Ne.symm apart) another) (numbered.drop_comm (Ne.symm apart))

/-- What is asked of the storage leaves a page alone if it commutes with reading and writing that page. -/
theorem of_onStorage {action : Op Storage α}
    (read : ∀ heap, db.catalog.heap? id.table = some heap →
      Op.Commutes (Storage.read heap.store id) action db.storage)
    (write : ∀ heap page, db.catalog.heap? id.table = some heap → db.pool.page? id = some page →
      Op.Commutes (Storage.write heap.store page) action db.storage) : Aside id (onStorage action) db where
  -- What is asked of the storage is asked past the pool, which sees nothing of it.
  page := by rw [last_onStorage]
  catalog := by rw [last_onStorage]
  read heap registered := storagePart.commutes (lifts_onStorage _) (lifts_onStorage _) (read heap registered)
  write heap page registered resident :=
    storagePart.commutes (lifts_onStorage _) (lifts_onStorage _) (write heap page registered resident)
  edit _ _ := (apart_storage_pool.commutes (lifts_onStorage _) (lifts_onPool _) _).symm
  drop _ := (apart_storage_pool.commutes (lifts_onStorage _) (lifts_onPool _) _).symm

/-- Reading another page past the pages in memory leaves a page alone. -/
theorem of_read (intact : db.Intact) (apart : other ≠ id) (known : db.catalog.heap? other.table = some neighbour) :
    Aside id (onStorage (Storage.read neighbour.store other)) db := by
  -- Reads of one store commute always, and a read and a write do if their pages are different.
  have positive := intact.housed.pageSize_pos known
  refine of_onStorage (fun heap registered => ?_) fun heap page registered resident => ?_
  · have near := intact.near apart known registered
    exact (Storage.commutes_read_read positive (near.imp And.left fun apart => apart) other id).symm
  · obtain ⟨name, within⟩ := intact.housed.number_lt registered resident
    have near := intact.near apart known registered
    rw [← name] at near
    exact (Storage.commutes_read_write positive near within).symm

/-- Writing another page that is in memory leaves a page alone. -/
theorem of_write (intact : db.Intact) (apart : other ≠ id) {written : Page}
    (known : db.catalog.heap? other.table = some neighbour) (there : db.pool.page? other = some written) :
    Aside id (onStorage (Storage.write neighbour.store written)) db := by
  -- The written page is in memory, so it goes to its own place and the file or list does not grow.
  obtain ⟨nameToo, withinToo⟩ := intact.housed.number_lt known there
  refine of_onStorage (fun heap registered => ?_) fun heap page registered resident => ?_
  · have near := intact.near (Ne.symm apart) registered known
    rw [← nameToo] at near
    exact Storage.commutes_read_write (intact.housed.pageSize_pos registered) near withinToo
  · obtain ⟨name, within⟩ := intact.housed.number_lt registered resident
    have near := intact.near (Ne.symm apart) registered known
    rw [← name, ← nameToo] at near
    exact Storage.commutes_write_write (intact.housed.pageSize_pos registered) near within withinToo

end Aside

/-! What holds between the operations. -/

/-- What always holds, with what makes the order of the operations invisible. -/
structure Tidy (db : Database) : Prop where
  intact : db.Intact
  numbered : db.pool.Numbered
  listed : db.locks.Listed

/-- No step gives two resident copies one number. -/
theorem Step.numbered (step : Step before after) (numbered : before.pool.Numbered) : after.pool.Numbered := by
  -- A number is given out only where a page is loaded; a changed page keeps its copy.
  cases step with
  | touch id => exact numbered.touch id
  | drop id => exact numbered.drop id
  | load stored => exact numbered.load _ _
  | @restore id page stored => exact numbered.editResident id fun _ => page
  | @revise id page changed resident revises => exact numbered.editResident id fun _ => changed
  | @mark id page asker resident writes => exact numbered.editResident id fun _ => page.markChanged asker
  | write resident registered encoded shows => exact numbered.editResident _ _
  | _ => exact numbered

/-- No step lists a page as read that has no reader. -/
theorem Step.listed (step : Step before after) (listed : before.locks.Listed) : after.locks.Listed := by
  -- Only grants and releases touch what is listed.
  cases step with
  | grant granted => exact listed.grant? granted
  | release id holder => exact listed.release id holder
  | releaseAll holder => exact listed.releaseAll holder
  | _ => exact listed

theorem Steps.tidy (steps : Steps before after) (tidy : before.Tidy) : after.Tidy := by
  induction steps with
  | refl => exact tidy
  | tail _ step ih => exact ⟨step.intact ih.intact, step.numbered ih.numbered, step.listed ih.listed⟩

/-- What is left is tidy where an operation that does not trap began so. -/
theorem Tidy.last (tidy : db.Tidy) {action : Op Database α} {post : α → Database → Prop}
    (moves : Moves False action db post) : (action.last db).Tidy := by
  -- An operation that cannot trap has an end, and the steps to it keep all that is tidy.
  obtain ⟨_, _, steps, _⟩ := Op.Ensures.exists_outcome moves
  exact steps.tidy tidy

/-- Writing a page leaves the tables and all other pages in memory. -/
theorem Writing.others {result : Except Failure Bool} (writing : Writing db other result after) (apart : other ≠ id) :
    after.pool.page? id = db.pool.page? id ∧ after.catalog = db.catalog := by
  cases writing with
  | written =>
    refine ⟨?_, rfl⟩
    show (db.pool.editResident other Page.markWritten).page? id = db.pool.page? id
    rw [Pool.page?_editResident, if_neg (Ne.symm apart)]
  | _ => exact ⟨rfl, rfl⟩

/-- Reading a page anew leaves the tables and all other pages in memory. -/
theorem Rereads.others (rereads : Rereads other db after) (apart : other ≠ id) :
    after.pool.page? id = db.pool.page? id ∧ after.catalog = db.catalog := by
  refine ⟨?_, rereads.catalog⟩
  have outcome := rereads.outcome
  split at outcome
  · obtain ⟨page, _, pool⟩ := outcome
    rw [pool, Pool.page?_editResident, if_neg (Ne.symm apart)]
  · rw [outcome, Pool.page?_drop, if_neg (Ne.symm apart)]

namespace Aside

/-- What commutes with all that leaves one page alone leaves every other page alone. -/
theorem of_commutes (tidy : db.Tidy) (apart : other ≠ id) {action : Op Database α}
    (others : (action.last db).pool.page? id = db.pool.page? id ∧ (action.last db).catalog = db.catalog)
    (commutes : ∀ (storage : Storage) (second : Op Database Page), Aside other second { db with storage } →
      Op.Commutes action second { db with storage })
    (commutesToo : ∀ (storage : Storage) (second : Op Database Unit), Aside other second { db with storage } →
      Op.Commutes action second { db with storage }) : Aside id action db where
  -- Each thing that may be done to the one page leaves the other page alone, so it commutes with the action.
  page := others.1
  catalog := others.2
  read _ registered := (commutes db.storage _ (of_read tidy.intact (Ne.symm apart) registered)).symm
  write _ _ registered resident :=
    (commutesToo db.storage _ (of_write tidy.intact (Ne.symm apart) registered resident)).symm
  edit storage change := (commutesToo storage _ (of_editResident (Ne.symm apart) change _)).symm
  drop storage := (commutesToo storage _ (of_drop tidy.numbered (Ne.symm apart))).symm

/-- Writing one page leaves every other one alone. -/
theorem of_writeBack (tidy : db.Tidy) (apart : other ≠ id) : Aside id (Database.writeBack other) db := by
  have heaps := tidy.intact.housed.overHeaps
  -- What writing does to other pages is read off its end, whichever that is.
  obtain ⟨_, _, writing⟩ := (tidy.intact.housed.ensures_writeBack other).exists_outcome
  exact of_commutes tidy apart (writing.others apart) (fun _ _ aside => aside.writeBack heaps) fun _ _ aside =>
    aside.writeBack heaps

/-- Reading one page anew leaves every other one alone. -/
theorem of_reload (tidy : db.Tidy) (apart : other ≠ id) : Aside id (Database.reload other) db := by
  have heaps := tidy.intact.housed.overHeaps
  -- Rereading changes or drops its own page only, whether the store can be read or not.
  obtain ⟨_, _, _, rereads⟩ := (tidy.intact.ensures_reload other).exists_outcome
  exact of_commutes tidy apart (rereads.others apart) (fun _ _ aside => aside.reload heaps) fun _ _ aside =>
    aside.reload heaps

end Aside

/-! Ending transactions. -/

/-- Ends a transaction as if the pages that it changed were the given ones. -/
def finishOver (ids : List PageId) (transaction : TransactionId) : Ending → Op Database Unit
  | .commit => do
    writeBackEach ids
    let _ ← releaseLocks transaction
  | .abort => do
    let failure ← reloadEach ids
    let _ ← releaseLocks transaction
    match failure with
    | none => return ()
    | some failure => fail failure

/-- Ending a transaction is ending it over the pages that carry its mark then. -/
theorem finish_eq_finishOver (transaction : TransactionId) (ending : Ending) (db : Database) :
    finish transaction ending db = finishOver (db.pool.changedBy transaction) transaction ending db := by
  cases ending <;> rfl

/-- An operation commutes with all that ending a transaction does, if the pages that it changed are these. -/
structure Beside (ids : List PageId) (transaction : TransactionId) (action : Op Database α) : Prop where
  writes : ∀ db : Database, db.Tidy → ∀ id ∈ ids, Op.Commutes (writeBack id) action db
  reloads : ∀ db : Database, db.Tidy → ∀ id ∈ ids, Op.Commutes (reload id) action db
  releases : ∀ db : Database, db.Tidy → Op.Commutes (releaseLocks transaction) action db

namespace Beside

variable {ids others : List PageId} {action : Op Database α} {ender : TransactionId}

theorem tail (beside : Beside (id :: ids) transaction action) : Beside ids transaction action where
  writes db tidy other member := beside.writes db tidy other (List.mem_cons_of_mem _ member)
  reloads db tidy other member := beside.reloads db tidy other (List.mem_cons_of_mem _ member)
  releases := beside.releases

theorem writeBackEach (beside : Beside ids transaction action) (tidy : db.Tidy) :
    Op.Commutes (writeBackEach ids) action db := by
  -- Each page is written in a database that the earlier ones left tidy, so the database varies.
  induction ids generalizing db with
  | nil => exact .pure _ _ _
  | cons id rest ih =>
    have moves : Moves False (Database.writeBack id) db fun _ _ => True := tidy.intact.housed.moves_writeBack id
    exact (beside.writes db tidy id List.mem_cons_self).bind fun _ _ => ih beside.tail (tidy.last moves)

theorem reloadEach (beside : Beside ids transaction action) (tidy : db.Tidy) :
    Op.Commutes (reloadEach ids) action db := by
  -- As with writing, but what was lost on the way is told at the end.
  induction ids generalizing db with
  | nil => exact .pure _ _ _
  | cons id rest ih =>
    have moves : Moves False (Database.reload id) db fun _ _ => True := tidy.intact.housed.moves_reload id
    refine (beside.reloads db tidy id List.mem_cons_self).bind fun _ _ => ?_
    exact (ih beside.tail (tidy.last moves)).bind fun _ _ => .pure _ _ _

theorem finishOver (beside : Beside ids transaction action) (tidy : db.Tidy) (ending : Ending) :
    Op.Commutes (finishOver ids transaction ending) action db := by
  -- Both endings go over the pages first and release the locks then.
  cases ending with
  | commit =>
    have moves : Moves False (Database.writeBackEach ids) db fun _ _ => True :=
      tidy.intact.housed.moves_writeBackEach ids
    refine (beside.writeBackEach tidy).bind fun _ _ => ?_
    exact (beside.releases _ (tidy.last moves)).bind fun _ _ => .pure _ _ _
  | abort =>
    have moves : Moves False (Database.reloadEach ids) db fun _ _ => True := tidy.intact.housed.moves_reloadEach ids
    refine (beside.reloadEach tidy).bind fun failure _ => ?_
    refine (beside.releases _ (tidy.last moves)).bind fun _ _ => ?_
    cases failure with
    | none => exact .pure _ _ _
    | some failure =>
      have fails : ∀ db : Database, (liftM (fail failure : Outcome Unit) : Op Database Unit) db
          = Op.ended (fail failure) db := fun _ => rfl
      exact .of_const fails _ _

/-- Writing a page leaves a transaction alone that did not change it. -/
theorem of_writeBack (outside : id ∉ ids) (transaction : TransactionId) :
    Beside ids transaction (Database.writeBack id) where
  -- The page that is written is none of the transaction's own, so each of those is another one.
  writes db tidy other member := by
    have apart : id ≠ other := (ne_of_mem_of_not_mem member outside).symm
    exact (Aside.of_writeBack tidy apart).writeBack tidy.intact.housed.overHeaps
  reloads db tidy other member := by
    have apart : id ≠ other := (ne_of_mem_of_not_mem member outside).symm
    exact (Aside.of_writeBack tidy apart).reload tidy.intact.housed.overHeaps
  releases db tidy := ((Aside.of_releaseLocks transaction id db).writeBack tidy.intact.housed.overHeaps).symm

/-- Reading a page anew leaves a transaction alone that did not change it. -/
theorem of_reload (outside : id ∉ ids) (transaction : TransactionId) :
    Beside ids transaction (Database.reload id) where
  writes db tidy other member := by
    have apart : id ≠ other := (ne_of_mem_of_not_mem member outside).symm
    exact (Aside.of_reload tidy apart).writeBack tidy.intact.housed.overHeaps
  reloads db tidy other member := by
    have apart : id ≠ other := (ne_of_mem_of_not_mem member outside).symm
    exact (Aside.of_reload tidy apart).reload tidy.intact.housed.overHeaps
  releases db tidy := ((Aside.of_releaseLocks transaction id db).reload tidy.intact.housed.overHeaps).symm

/-- Other transactions hold what they held when one releases its locks. -/
theorem of_releaseLocks (different : transaction ≠ ender) (ids : List PageId) :
    Beside ids transaction (Database.releaseLocks ender) where
  writes db tidy id _ := (Aside.of_releaseLocks ender id db).writeBack tidy.intact.housed.overHeaps
  reloads db tidy id _ := (Aside.of_releaseLocks ender id db).reload tidy.intact.housed.overHeaps
  releases db tidy := by
    -- Here both operations act on the locks, and what one releases the other did not hold.
    refine locksPart.commutes (lifts_releaseLocks _) (lifts_releaseLocks _) ⟨?_, ?_, ?_⟩
    · exact congrArg Except.ok (Locks.pagesOf_releaseAll_other db.locks different)
    · exact congrArg Except.ok (Locks.pagesOf_releaseAll_other db.locks (Ne.symm different))
    · exact Locks.releaseAll_comm tidy.listed transaction ender

/-- Two transactions that changed different pages leave each other alone when they end. -/
theorem of_finishOver (apart : ∀ id ∈ ids, id ∉ others) (different : transaction ≠ ender) (ending : Ending) :
    Beside ids transaction (Database.finishOver others ender ending) where
  -- What is beside each single step of an ending is beside the whole ending.
  writes _ tidy id member := ((of_writeBack (apart id member) ender).finishOver tidy ending).symm
  reloads _ tidy id member := ((of_reload (apart id member) ender).finishOver tidy ending).symm
  releases _ tidy := ((of_releaseLocks (Ne.symm different) others).finishOver tidy ending).symm

end Beside

/-- The pages that a transaction is known to have changed are those with its mark. -/
theorem mem_changedBy_iff_mark : id ∈ db.pool.changedBy transaction ↔ db.mark? id = some transaction := by
  rw [Pool.mem_changedBy, mark?, Option.bind_eq_some_iff]

/-- The pages of other transactions keep their marks when one ends. -/
theorem Tidy.changedBy_finish (tidy : db.Tidy) {ender : TransactionId} (different : transaction ≠ ender)
    (ending : Ending) :
    ((finish ender ending).last db).pool.changedBy transaction = db.pool.changedBy transaction := by
  have named : db.Named := fun id page resident => (tidy.intact.kept id page resident).name
  have moves : Moves False (finish ender ending) db fun _ _ => True := tidy.intact.housed.moves_finish ender ending
  obtain ⟨result, told, _⟩ := Op.Ensures.exists_outcome moves
  -- Only pages with the mark of the transaction that ends lose their marks.
  have clears : ∃ cleared, Clears cleared db ((finish ender ending).last db)
      ∧ ∀ id, cleared id → db.mark? id = some ender := by
    cases ending with
    | commit =>
      refine ⟨_, (permits_commit_clears named ender).of_outcome told, fun id written => ?_⟩
      obtain ⟨done, rest, _, _, split, _⟩ := written
      exact mem_changedBy_iff_mark.1 (by rw [split]; simp)
    | abort =>
      exact ⟨_, (permits_abort_clears tidy.intact.housed.overHeaps named ender).of_outcome told,
        fun id member => mem_changedBy_iff_mark.1 member⟩
  obtain ⟨cleared, clears, mine⟩ := clears
  -- Both lists are in ascending order, so they are equal if they have the same members.
  refine SortedMap.eq_of_ascending (SortedMap.pairwise_keys _) (SortedMap.pairwise_keys _) fun id => ?_
  show id ∈ Pool.changedBy _ transaction ↔ id ∈ Pool.changedBy _ transaction
  rw [mem_changedBy_iff_mark, mem_changedBy_iff_mark]
  by_cases gone : cleared id
  · rw [clears.gone id gone, mine id gone]
    exact ⟨nofun, fun same => absurd (Option.some.inj same).symm different⟩
  · rw [clears.kept id gone]

/-- Different transactions can end in either order, each in either way. -/
theorem Tidy.commutes_finish (tidy : db.Tidy) {ender : TransactionId} (different : transaction ≠ ender)
    (ending another : Ending) : Op.Commutes (finish transaction ending) (finish ender another) db := by
  -- A page carries one mark, so no page was changed by both.
  have apart : ∀ id ∈ db.pool.changedBy transaction, id ∉ db.pool.changedBy ender := by
    intro id mine theirs
    rw [mem_changedBy_iff_mark] at mine theirs
    exact different (Option.some.inj (mine.symm.trans theirs))
  refine ((Beside.of_finishOver apart different another).finishOver tidy ending).congr
    (finish_eq_finishOver ..) ?_ (finish_eq_finishOver ..) ?_
  · rw [finish_eq_finishOver, tidy.changedBy_finish different]
  · rw [finish_eq_finishOver, tidy.changedBy_finish (Ne.symm different)]

/-- A command that does not trap is answered as it comes out. -/
theorem serve_eq {command : Command} {result : Except Failure Reply}
    (told : command.perform.outcome db = Outcome.ofResult result) :
    db.serve command = .ok (result, command.perform.last db) := by
  unfold serve run
  rw [Op.run_eq_ended command.perform db, told]
  cases result <;> rfl

/-- Every command but the one that registers a heap makes small steps, and that one leaves the pages and the locks. -/
theorem Tidy.permits_perform (tidy : db.Tidy) {command : Command} (proper : command.Proper db) :
    Op.Permits command.perform db fun _ after => after.Tidy := by
  -- Registering a heap is no small step, so it is taken by itself.
  cases command with
  | addHeap name store =>
    have adds : Op.Permits (addHeap name store) db fun _ after => after.Tidy :=
      ends_addHeap (fun _ => tidy) fun _ _ registered =>
        ⟨tidy.intact.registered proper registered, tidy.numbered, tidy.listed⟩
    exact adds.reply
  | _ => exact Op.Ends.mono (tidy.intact.housed.moves_perform nofun) fun _ _ ended => ended.1.tidy tidy

/-- Whatever was asked for, in whatever order, and whatever failed, the database is tidy. -/
theorem Arises.tidy (arises : Arises db) : db.Tidy := by
  -- What callers do between the commands keeps the numbers of the copies and the listed readers as well.
  induction arises with
  | @fresh db fresh =>
    exact ⟨fresh.intact, fresh.pool ▸ Pool.Numbered.empty, fresh.locks ▸ Locks.listed_empty⟩
  | serve _ proper served ih => exact run_permits (ih.permits_perform proper) served
  | lock arises granted ih => exact ⟨(arises.lock granted).intact, ih.numbered, ih.listed.grant? granted⟩
  | unlock id holder arises ih =>
    exact ⟨(arises.unlock id holder).intact, ih.numbered, ih.listed.release id holder⟩
  | unlockAll holder arises ih => exact ⟨(arises.unlockAll holder).intact, ih.numbered, ih.listed.releaseAll holder⟩
  | @handle _ id _ changed arises resident handles ih =>
    exact ⟨(arises.handle resident handles).intact, ih.numbered.editResident id fun _ => changed, ih.listed⟩
  | store arises same ih => exact ⟨(arises.store same).intact, ih.numbered, ih.listed⟩

/--
Ending different transactions commutes.

In every database that arises, whether the transactions commit or abort, and whichever stores fail, each is
answered the same before and after the other, and both orders leave the same database: the pages in memory
with what they hold, their marks and the order of their last use, the locks, and the stores with what they
hold and count.
-/
theorem ends_in_either_order (arises : Arises db) {ender : TransactionId} (different : transaction ≠ ender)
    (ending another : Ending) :
    ∃ first second left right last,
      db.serve (.finish transaction ending) = .ok (first, left)
      ∧ left.serve (.finish ender another) = .ok (second, last)
      ∧ db.serve (.finish ender another) = .ok (second, right)
      ∧ right.serve (.finish transaction ending) = .ok (first, last) := by
  have tidy := arises.tidy
  have ended (transaction : TransactionId) (ending : Ending) : ∃ result,
      (Command.finish transaction ending).perform.outcome db = Outcome.ofResult result := by
    have moves : Moves False (Command.finish transaction ending).perform db fun _ _ => True :=
      (tidy.intact.housed.moves_finish transaction ending).bind fun _ _ _ _ => .pure trivial
    obtain ⟨result, told, _⟩ := Op.Ensures.exists_outcome moves
    exact ⟨result, told⟩
  obtain ⟨first, toldFirst⟩ := ended transaction ending
  obtain ⟨second, toldSecond⟩ := ended ender another
  -- Saying that the transaction has ended commutes with everything.
  have commutes : Op.Commutes (Command.finish transaction ending).perform
      (Command.finish ender another).perform db := by
    refine Op.Commutes.bind (Op.Commutes.symm (Op.Commutes.bind ?_ fun _ _ => .pure _ _ _)) fun _ _ => .pure _ _ _
    exact (tidy.commutes_finish different ending another).symm
  refine ⟨first, second, _, _, _, serve_eq toldFirst, serve_eq (commutes.right.trans toldSecond),
    serve_eq toldSecond, ?_⟩
  rw [commutes.last]
  exact serve_eq (commutes.left.trans toldFirst)

/-- Two transactions read one page, and each has changed another one of a store that cannot be read now. -/
def bothChanged : Database :=
  let record (length : Nat) : Record := ⟨none, [.blob (Bytes.zeros length)]⟩
  let placed (number : Nat) : Record := ⟨some ⟨⟨1, number⟩, 0⟩, []⟩
  (overImages ⟨64, 3, .ofMilliseconds 1⟩ []).afterAll
    [.insert ⟨1⟩ 1 (record 30), .insert ⟨1⟩ 1 (record 40), .insert ⟨1⟩ 1 (record 40), .finish ⟨1⟩ .commit,
      .acquire ⟨1⟩ ⟨1, 2⟩ .reading, .acquire ⟨2⟩ ⟨1, 2⟩ .reading, .delete ⟨1⟩ (placed 0), .delete ⟨2⟩ (placed 1),
      .setFailing 0 true false]

theorem arises_bothChanged : Arises bothChanged := by
  refine .afterAll (.fresh (overImages_fresh (by decide) (by simp))) ?_ (by decide +kernel)
  simp [Command.Proper]

/-- One transaction commits and the other cannot read its page anew, whichever of them ends first. -/
theorem ends_in_either_order_unreadable : Arises bothChanged ∧ ∃ left right last,
    bothChanged.serve (.finish ⟨1⟩ .commit) = .ok (.ok .done, left)
    ∧ left.serve (.finish ⟨2⟩ .abort) = .ok (.error (.storage .injectedRead), last)
    ∧ bothChanged.serve (.finish ⟨2⟩ .abort) = .ok (.error (.storage .injectedRead), right)
    ∧ right.serve (.finish ⟨1⟩ .commit) = .ok (.ok .done, last) := by
  have commits : bothChanged.answer? (Command.finish ⟨1⟩ .commit).perform = some (.ok .done) := by decide +kernel
  have aborts : bothChanged.answer? (Command.finish ⟨2⟩ .abort).perform
      = some (.error (.storage .injectedRead)) := by decide +kernel
  have different : (⟨1⟩ : TransactionId) ≠ ⟨2⟩ := by decide
  obtain ⟨first, second, left, right, last, one, two, three, four⟩ :=
    ends_in_either_order arises_bothChanged different .commit .abort
  obtain ⟨rfl, _⟩ := Prod.mk.inj (Except.ok.inj (one.symm.trans (run_eq commits)))
  obtain ⟨rfl, _⟩ := Prod.mk.inj (Except.ok.inj (three.symm.trans (run_eq aborts)))
  exact ⟨arises_bothChanged, left, right, last, one, two, three, four⟩

end Database

end HeapEngine
