import HeapEngine.Database.Cache
import HeapEngine.Proofs.Database.Standing
import HeapEngine.Proofs.Settings

/-!
Getting pages leaves what a database stands for as it is, but for the locks of the one who asks.

A page that is brought into memory is as it is stored, and one that is dropped had no changes.
-/

namespace HeapEngine

namespace Op.Ends

variable {mayTrap : Prop} {α : Type} {db : Database} {post : Except Failure α → Database → Prop}

/-- What an operation on the storage ensures is ensured of the database with that storage. -/
theorem onStorage {action : Op Storage α}
    (ensures : Ends mayTrap action db.storage fun result storage => post result { db with storage }) :
    Ends mayTrap (Database.onStorage action) db post := by
  unfold Ends at ensures ⊢
  unfold Database.onStorage
  cases ran : action db.storage with
  | ok value after =>
    rw [ran] at ensures
    exact ensures
  | error fault after =>
    rw [ran] at ensures
    cases fault <;> exact ensures

/-- What is ensured after the pool was changed. -/
theorem onPool_bind {β : Type} {change : Pool → β × Pool} {next : β → Op Database α}
    (ensures : Ends mayTrap (next (change db.pool).1) { db with pool := (change db.pool).2 } post) :
    Ends mayTrap (Database.onPool change >>= next) db post := ensures

theorem onPool {change : Pool → α × Pool}
    (holds : post (.ok (change db.pool).1) { db with pool := (change db.pool).2 }) :
    Ends mayTrap (Database.onPool change) db post := holds

end Op.Ends

namespace Database

variable {kind : ImageKind} {db before after : Database} {asker : TransactionId} {id : PageId}

/-- A database is consistent and stands for what it stood for. -/
structure Stays (kind : ImageKind) (before after : Database) : Prop where
  consistent : after.Consistent kind
  standing : after.standing = before.standing

/-- A database is consistent, and the locks one transaction gained are all that changed. -/
structure Gains (kind : ImageKind) (asker : TransactionId) (before after : Database) : Prop where
  consistent : after.Consistent kind
  standing : after.standing = before.standing.withLocks after.locks
  advances : Locks.Advances asker before.locks after.locks

/-- A copy that a transaction was given is the one in memory, locked as its use demands. -/
structure Given (after : Database) (asker : TransactionId) (id : PageId) (access : Access)
    (copy : CopyId) : Prop where
  page : copy.page = id
  current : after.pool.isCurrent copy = true
  holds : after.locks.holds id asker = true
  writes : access = .writing → after.locks.isWriter id asker = true

namespace Stays

theorem trans {middle : Database} (first : Stays kind before middle) (second : Stays kind middle after) :
    Stays kind before after :=
  ⟨second.consistent, second.standing.trans first.standing⟩

/-- What stands is also who holds which lock. -/
theorem locks_eq (stays : Stays kind before after) : after.locks = before.locks :=
  congrArg Standing.locks stays.standing

theorem catalog_eq (stays : Stays kind before after) : after.catalog = before.catalog :=
  congrArg Standing.catalog stays.standing

/-- Nothing changed, so no lock was gained. -/
theorem gains (stays : Stays kind before after) (asker : TransactionId) :
    Gains kind asker before after where
  consistent := stays.consistent
  standing := by
    rw [stays.standing, stays.locks_eq]
    exact (Standing.withLocks_locks before.standing).symm
  advances := by
    rw [stays.locks_eq]
    exact .refl asker _

end Stays

namespace Gains

theorem trans {middle : Database} (first : Gains kind asker before middle)
    (second : Gains kind asker middle after) : Gains kind asker before after where
  consistent := second.consistent
  standing := by rw [second.standing, first.standing, Standing.withLocks_withLocks]
  advances := first.advances.trans second.advances

theorem catalog_eq (gains : Gains kind asker before after) : after.catalog = before.catalog :=
  congrArg Standing.catalog gains.standing

theorem unwritten_eq (gains : Gains kind asker before after) :
    after.standing.unwritten = before.standing.unwritten := by
  rw [gains.standing, Standing.unwritten_withLocks]

theorem shown_eq (gains : Gains kind asker before after) :
    after.standing.shown = before.standing.shown := by
  rw [gains.standing, Standing.shown_withLocks]

end Gains

namespace Consistent

/-- Nothing at all changed. -/
theorem stays (consistent : db.Consistent kind) : Stays kind db db := ⟨consistent, rfl⟩

/-- Asking the pool for a page changes only the order of last use. -/
theorem touch (consistent : db.Consistent kind) (id : PageId) :
    Stays kind db { db with pool := (db.pool.touch id).2 } := by
  have same := (Pool.touch_eq db.pool id).1
  -- The frames are those there were, but for the order of last use.
  obtain ⟨stays, stands⟩ := consistent.withPool (fun other => by rw [same])
    fun other page resident => consistent.cached other page (same other ▸ resident)
  exact ⟨stays, stands⟩

/-- A page loses its changes if it is gone from memory, or there as it is stored. -/
theorem forget (consistent : db.Consistent kind) {pool : Pool}
    (others : ∀ other, other ≠ id → pool.page? other = db.pool.page? other)
    (here : ∀ page, pool.page? id = some page → db.standing.stored? id = some page) :
    Consistent kind { db with pool } ∧ standing { db with pool } = db.standing.withUnwritten id none := by
  have stands : standing { db with pool } = db.standing.withUnwritten id none := by
    simp only [standing, Standing.withUnwritten, Standing.mk.injEq, true_and, and_true]
    funext other
    by_cases same : other = id
    · subst same
      rw [if_pos rfl]
      cases resident : pool.page? other with
      | none => rfl
      | some page =>
        -- What is read from an image carries no mark.
        have mark := (consistent.orderly.stored (here page resident)).2.2.2.1
        simp [Page.isDirty, mark]
    · rw [if_neg same, others other same]
  refine ⟨⟨?_, ?_⟩, stands⟩
  · rw [stands]
    exact consistent.orderly.withUnwritten id none
  · intro other page resident
    rw [stands]
    by_cases same : other = id
    · subst same
      exact (consistent.orderly.fits_stored (here page resident)).withUnwritten other none
    · rw [others other same] at resident
      exact (consistent.cached other page resident).withUnwritten id none

/-- A page in memory can be dropped, and its changes are lost with it. -/
theorem discard (consistent : db.Consistent kind) (id : PageId) :
    Consistent kind { db with pool := db.pool.drop id }
      ∧ standing { db with pool := db.pool.drop id } = db.standing.withUnwritten id none := by
  refine consistent.forget ?_ ?_
  · intro other apart
    rw [Pool.page?_drop, if_neg apart]
  · intro page resident
    rw [Pool.page?_drop, if_pos rfl] at resident
    cases resident

/-- A page without changes can be dropped. -/
theorem drop (consistent : db.Consistent kind) (clean : db.standing.unwritten id = none) :
    Stays kind db { db with pool := db.pool.drop id } := by
  obtain ⟨stays, stands⟩ := consistent.discard id
  exact ⟨stays, stands.trans (Standing.withUnwritten_none clean)⟩

/-- A page can be loaded as it is stored, unless a changed one is in memory. -/
theorem load (consistent : db.Consistent kind) {page : Page}
    (stored : db.standing.stored? id = some page) (absent : db.standing.unwritten id = none) :
    Stays kind db { db with pool := (db.pool.load id page).2 } := by
  have loaded := (db.pool.load_eq id page).1
  have mark := (consistent.orderly.stored stored).2.2.2.1
  have unwritten : ∀ other, ((db.pool.load id page).2.page? other).filter Page.isDirty
      = (db.pool.page? other).filter Page.isDirty := by
    intro other
    rw [loaded]
    split
    · rename_i here
      -- The page that was read carries no mark.
      rw [here]
      refine Eq.trans ?_ absent.symm
      simp [Page.isDirty, mark]
    · rfl
  obtain ⟨stays, stands⟩ := consistent.withPool unwritten fun other held resident => by
    rw [loaded] at resident
    split at resident
    · rename_i here
      cases resident
      rw [here]
      exact consistent.orderly.fits_stored stored
    · exact consistent.cached other held resident
  exact ⟨stays, stands⟩

/-- Other locks leave a database consistent if no writer of a changed page loses its lock. -/
theorem withLocks (consistent : db.Consistent kind) {locks : Locks} (exclusive : locks.Exclusive)
    (kept : ∀ id page transaction, db.pool.page? id = some page →
      page.changedBy = some transaction → db.locks.isWriter id transaction = true →
      locks.isWriter id transaction = true) :
    Consistent kind { db with locks } where
  orderly := { consistent.orderly with locks := exclusive }
  cached id page resident := by
    -- Only what is said of writers speaks of locks.
    have fits := consistent.cached id page resident
    refine ⟨fits.name, fits.sound, fits.size, fits.clean, fun transaction changed => ?_⟩
    obtain ⟨writes, stored⟩ := fits.changed transaction changed
    exact ⟨kept id page transaction resident changed writes, stored⟩

/-- A lock that is granted leaves a database consistent. -/
theorem grant (consistent : db.Consistent kind) {mode : LockMode} {locks : Locks}
    (granted : db.locks.grant? id asker mode = some locks) :
    Gains kind asker db { db with locks } := by
  have exclusive := consistent.orderly.locks
  have advances := Locks.grant?_advances exclusive granted
  refine ⟨consistent.withLocks (exclusive.grant? granted) ?_, rfl, advances⟩
  intro other page transaction _ _ writes
  -- The asker keeps what it writes, and others are not touched.
  by_cases self : transaction = asker
  · subst self
    exact advances.writes other writes
  · rw [advances.writers other transaction self]
    exact writes

end Consistent

/-- Looking for a table changes nothing, and what is found is registered. -/
theorem permits_tableAt (number : Nat) (db : Database) :
    Op.Permits (tableAt number) db fun result after => after = db
      ∧ ∀ table, result = .ok table → db.catalog.tables.find? number = some table := by
  refine .get_bind (.ofResult ⟨rfl, fun table told => ?_⟩)
  unfold Catalog.find at told
  split at told
  · rename_i registered
    cases told
    exact registered
  · cases told

/-- All registered tables are heaps. -/
def OverHeaps (db : Database) : Prop :=
  ∀ number table, db.catalog.tables.find? number = some table → ∃ heap, table = .heap heap

/-- Where every table is a heap, looking for one finds a registered heap, or fails. -/
theorem OverHeaps.ends_tableAt_bind {α : Type} {mayTrap : Prop} {number : Nat} {next : Table → Op Database α}
    {post : Except Failure α → Database → Prop} (heaps : db.OverHeaps)
    (missing : db.catalog.heap? number = none → post (.error (.noTable number)) db)
    (found : ∀ heap, db.catalog.heap? number = some heap → Op.Ends mayTrap (next (.heap heap)) db post) :
    Op.Ends mayTrap (tableAt number >>= next) db post := by
  show Op.Ends mayTrap (ofResult (db.catalog.find number) >>= next) db post
  unfold Catalog.find
  cases registered : db.catalog.tables.find? number with
  | none => exact missing (by rw [Catalog.heap?, registered])
  | some table =>
    obtain ⟨heap, rfl⟩ := heaps number table registered
    exact found heap (by rw [Catalog.heap?, registered])

/-- Where all is in order, looking for a table finds a registered heap, or fails. -/
theorem ends_tableAt_bind {α : Type} {mayTrap : Prop} {allows : Bytes → Prop} {number : Nat}
    {next : Table → Op Database α} {post : Except Failure α → Database → Prop}
    (orderly : db.standing.Orderly allows)
    (missing : db.catalog.heap? number = none → post (.error (.noTable number)) db)
    (found : ∀ heap, db.catalog.heap? number = some heap → Op.Ends mayTrap (next (.heap heap)) db post) :
    Op.Ends mayTrap (tableAt number >>= next) db post := by
  refine OverHeaps.ends_tableAt_bind (fun other table registered => ?_) missing found
  obtain ⟨store, rfl⟩ := orderly.tables other table registered
  exact ⟨_, rfl⟩

/-- The stores of all heaps have pages of the size that the settings say. -/
theorem pageSize_eq (consistent : db.Consistent kind) {number : Nat} {heap : Heap}
    (registered : db.catalog.heap? number = some heap) :
    (db.storage.view heap.store).pageSize = db.settings.pageSize := by
  have size := consistent.orderly.sizes number heap registered
  rwa [shown_eq registered] at size

/-- Every page has room for a record, and every place in it is a word. -/
theorem pageSize_bounds (consistent : db.Consistent kind) :
    21 ≤ db.settings.pageSize ∧ db.settings.pageSize ≤ 65535 :=
  (Settings.check_eq_ok consistent.orderly.settings).2

/-- Pages of a registered heap have bytes. -/
theorem pageSize_pos (consistent : db.Consistent kind) {number : Nat} {heap : Heap}
    (registered : db.catalog.heap? number = some heap) :
    0 < (db.storage.view heap.store).pageSize := by
  have least := (pageSize_bounds consistent).1
  rw [pageSize_eq consistent registered]
  omega

/-- Counting the pages of a registered heap has an answer. -/
theorem heapPageCount_eq (consistent : db.Consistent kind) {number : Nat} {heap : Heap}
    (registered : db.catalog.heap? number = some heap) :
    heapPageCount heap db = .ok (db.standing.shown number).images.length db := by
  have count := Storage.pageCount_eq (pageSize_pos consistent registered)
  rw [shown_eq registered]
  show (liftM (db.storage.pageCount heap.store) : Op Database Nat) db = _
  rw [count]
  rfl

/-- Reading a page past the pages in memory gives it as it is stored, and changes nothing. -/
theorem ensures_readStored (consistent : db.Consistent kind) {heap : Heap}
    (registered : db.catalog.heap? id.table = some heap) :
    Op.Ensures (readStored (.heap heap) id) db fun result after =>
      Stays kind db after ∧ (∀ page, result = .ok page → db.standing.stored? id = some page)
        ∧ ((db.standing.shown id.table).readsFail = false → ∀ page,
          db.standing.stored? id = some page → result = .ok page) := by
  refine .onStorage ((Storage.ensures_read (pageSize_pos consistent registered) id).mono ?_)
  intro result storage ended
  obtain ⟨told, shows⟩ := ended
  obtain ⟨stays, stands⟩ := consistent.withStorage registered shows
  refine ⟨⟨stays, stands⟩, fun page read => ?_, fun works page stored => ?_⟩
  · -- What was read is what the store shows, so it is what is stored.
    rw [← shown_eq registered, read] at told
    exact Standing.stored?_of_read told
  · -- A store that does not fail gives the image that is stored, and that image can be read.
    obtain ⟨-, -, -, -, image, found, decoded⟩ := consistent.orderly.stored stored
    rw [Standing.image?] at found
    rw [← shown_eq registered, StoreView.read, works, if_neg (by decide)] at told
    simp only [found, decoded] at told
    cases result with
    | ok value => cases told; rfl
    | error failure => cases told

/-- Room is there already, or a clean page is dropped for it, or there is no clean page. -/
inductive Rooms (db : Database) : Except Failure Unit → Database → Prop
  | there (room : db.pool.residentCount < db.settings.capacity) : Rooms db (.ok ()) db
  | drop {id : PageId} {page : Page} (resident : db.pool.page? id = some page)
      (clean : page.isDirty = false) : Rooms db (.ok ()) { db with pool := db.pool.drop id }
  | full (failure : Failure) : Rooms db (.error failure) db

theorem ensures_makeRoom_rooms (db : Database) : Op.Ensures makeRoom db (Rooms db) := by
  unfold Op.Ensures Op.Ends makeRoom
  by_cases full : db.settings.capacity ≤ db.pool.residentCount
  · rw [if_pos full, dropStalest]
    cases stale : db.pool.stalestClean with
    | none => exact .full _
    | some id =>
      obtain ⟨page, resident, clean⟩ := Pool.stalestClean_eq_some stale
      exact .drop resident clean
  · rw [if_neg full]
    exact .there (Nat.not_le.1 full)

/-- Making room drops at most a page without changes. -/
theorem ensures_makeRoom (consistent : db.Consistent kind) :
    Op.Ensures makeRoom db fun _ after => Stays kind db after := by
  refine (ensures_makeRoom_rooms db).mono fun result after rooms => ?_
  cases rooms with
  | there => exact consistent.stays
  | full => exact consistent.stays
  | drop resident clean =>
    -- The stalest of the clean pages has no changes that would be lost.
    refine consistent.drop ?_
    rw [unwritten_eq resident, if_pos]
    simpa [Page.isDirty] using clean

/-- A page that is brought into memory is there, and nothing else can be told from before. -/
theorem ensures_bring (consistent : db.Consistent kind) (id : PageId) :
    Op.Ensures (bring id) db fun result after => Stays kind db after
      ∧ ∀ copy, result = .ok copy → copy.page = id ∧ after.pool.isCurrent copy = true := by
  obtain ⟨-, current, answer⟩ := Pool.touch_eq db.pool id
  have touched := consistent.touch id
  refine .onPool_bind ?_
  cases asked : (db.pool.touch id).1 with
  | some copy =>
    rw [asked] at answer
    refine .pure ⟨touched, ?_⟩
    intro copy told
    cases told
    exact ⟨answer.1, by rw [← answer.2]; exact current copy⟩
  | none =>
    rw [asked] at answer
    -- The page is not in memory, so there are no changes of it either.
    have absent : db.standing.unwritten id = none := by
      show Option.filter _ (db.pool.page? id) = none
      rw [answer]
      rfl
    refine ends_tableAt_bind touched.consistent.orderly (fun _ => ⟨touched, by simp⟩) fun heap registered => ?_
    refine (ensures_readStored touched.consistent registered).bind ?_ ?_
    · intro failure after ended
      obtain ⟨stays, _⟩ := ended
      exact ⟨touched.trans stays, by simp⟩
    intro page after ended
    obtain ⟨read, stored, _⟩ := ended
    -- The page may go in now; making room for it may fail, and then it does not.
    have ready := touched.trans read
    refine (ensures_makeRoom ready.consistent).bind ?_ ?_
    · intro failure after stays
      exact ⟨ready.trans stays, by simp⟩
    intro _ after stays
    have settled := ready.trans stays
    refine .onPool ⟨settled.trans (settled.consistent.load ?_ ?_), ?_⟩
    · rw [settled.standing, ← touched.standing]
      exact stored page rfl
    · rw [settled.standing]
      exact absent
    · intro copy told
      cases told
      exact ⟨rfl, (after.pool.load_eq id page).2.2⟩

/-- A lock is granted, or refused without a change. -/
theorem ensures_lockPage (consistent : db.Consistent kind) (asker : TransactionId) (id : PageId)
    (mode : LockMode) :
    Op.Ensures (lockPage asker id mode) db fun result after => Gains kind asker db after
      ∧ (result = .ok () → after.locks.holds id asker = true
        ∧ (mode = .exclusive → after.locks.isWriter id asker = true)) := by
  unfold Op.Ensures Op.Ends lockPage Locks.request
  -- A request is a grant, or it is refused at once.
  cases granted : db.locks.grant? id asker mode with
  | none => exact ⟨consistent.stays.gains asker, by simp⟩
  | some locks =>
    exact ⟨consistent.grant granted,
      fun _ => Locks.holds_of_grant? granted⟩

/-- A page that was given to a transaction is in memory and locked as its use demands. -/
theorem ensures_acquire (consistent : db.Consistent kind) (asker : TransactionId) (id : PageId)
    (access : Access) :
    Op.Ensures (acquire asker id access) db fun result after => Gains kind asker db after
      ∧ ∀ copy, result = .ok copy → after.Given asker id access copy := by
  refine (ensures_bring consistent id).bind ?_ ?_
  · intro failure after ended
    obtain ⟨stays, _⟩ := ended
    exact ⟨stays.gains asker, by simp⟩
  intro _ first ended
  obtain ⟨stays, _⟩ := ended
  have before := stays.gains asker
  refine (ensures_lockPage before.consistent asker id access.lockMode).bind ?_ ?_
  · intro failure after ended
    obtain ⟨gains, _⟩ := ended
    exact ⟨before.trans gains, by simp⟩
  intro _ locked ended
  obtain ⟨gains, held⟩ := ended
  obtain ⟨holds, writes⟩ := held rfl
  -- The page may have been dropped meanwhile, so it is brought once more.
  refine (ensures_bring gains.consistent id).mono ?_
  intro result after ended
  obtain ⟨again, current⟩ := ended
  refine ⟨(before.trans gains).trans (again.gains asker), ?_⟩
  intro copy told
  obtain ⟨here, resident⟩ := current copy told
  refine ⟨here, resident, by rw [again.locks_eq]; exact holds, ?_⟩
  rintro rfl
  rw [again.locks_eq]
  exact writes rfl

/--
Whether requests for pages have deadlines, in this database and in every other one with its settings.

A page is then given as it is without a deadline, unless the clock has run for ages.
-/
def GivesDeadlines (db : Database) : Prop :=
  ∀ asked : Database, asked.settings = db.settings → ∀ now : Duration, now.seconds < 2 ^ 62 →
    ∀ transaction id access,
      acquireAt now transaction id access asked = acquire transaction id access asked

/-- Requests have deadlines where patience is shorter than ages. -/
theorem givesDeadlines (timely : db.settings.Timely) : db.GivesDeadlines := by
  intro asked same now early transaction id access
  obtain ⟨moment, told⟩ := (same ▸ timely : asked.settings.Timely).exists_deadline early
  -- The deadline is only told, so the request goes on from the database it was made to.
  unfold acquireAt
  rw [Op.get_bind_run, Op.liftM_bind_run, told]

/-- A page that a transaction has not changed can be released, whether it was held or not. -/
theorem ensures_releaseEarly (consistent : db.Consistent kind) (asker : TransactionId) (id : PageId)
    (unchanged : ∀ page, db.standing.unwritten id = some page → page.changedBy ≠ some asker) :
    Op.Ensures (releaseEarly asker id) db fun _ after => after.Consistent kind
      ∧ after.standing = db.standing.withLocks after.locks
      ∧ after.locks = (db.locks.release id asker).2 := by
  have exclusive := consistent.orderly.locks
  have released : Consistent kind { db with locks := (db.locks.release id asker).2 } := by
    refine consistent.withLocks (exclusive.release id asker) ?_
    intro other page transaction resident changed writes
    rw [Locks.isWriter_release, writes, Bool.true_and, Bool.not_eq_true', decide_eq_false_iff_not]
    -- The writer of a changed page is not the one who releases it.
    intro same
    obtain ⟨rfl, rfl⟩ := same
    refine unchanged page (unwritten_eq_some.2 ⟨resident, ?_⟩) changed
    rw [changed]
    simp
  unfold Op.Ensures Op.Ends releaseEarly
  rcases taken : db.locks.release id asker with ⟨held, locks⟩
  rw [taken] at released
  cases held <;> exact ⟨released, rfl, rfl⟩

end Database

end HeapEngine
