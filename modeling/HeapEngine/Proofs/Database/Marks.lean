import HeapEngine.Proofs.Database.Records

/-!
Whoever has changed a page in memory is its writer, whatever the stores hold.

Nothing is asked of the pages here. One that is not sound may trap, but what does not trap lets no
mark outlive its lock.
-/

namespace HeapEngine

/-- A page that is read from a store is the one of some image, under the name that was asked for. -/
theorem Storage.permits_read_image (store : StoreId) (id : PageId) (storage : Storage) :
    Op.Permits (read store id) storage fun result _ =>
      ∀ page, result = .ok page → ∃ image, Page.ofImage id image = .ok page := by
  -- Both kinds of store read what they show.
  have decoded : ∀ (view : StoreView) (result : Except Failure Page),
      view.read id = Outcome.ofResult result → ∀ page, result = .ok page →
        ∃ image, Page.ofImage id image = .ok page := by
    rintro view result told page rfl
    unfold StoreView.read at told
    split at told
    · cases told
    · split at told
      · cases told
      · exact ⟨_, told⟩
  cases store with
  | memory number =>
    refine ends_onArray ((PageArray.ensures_read (storage.array number) id).permits.mono ?_)
    intro result after ended
    exact decoded _ result ended.1
  | file name pageSize =>
    apply ends_onFile
    rcases Nat.eq_zero_or_pos pageSize with rfl | positive
    · -- A file of pages without bytes cannot be counted.
      exact trivial
    · refine (PageFile.ensures_read positive (storage.file name) id).permits.mono ?_
      intro result after ended
      exact decoded _ result ended.1

/-- A page that is read from a store carries no mark. -/
theorem Storage.permits_read (store : StoreId) (id : PageId) (storage : Storage) :
    Op.Permits (read store id) storage fun result _ =>
      ∀ page, result = .ok page → page.changedBy = none := by
  refine (permits_read_image store id storage).mono fun result _ decoded page told => ?_
  obtain ⟨image, decoded⟩ := decoded page told
  exact (Page.ofImage_eq_ok decoded).2.2

namespace Database

variable {db before after : Database} {asker : TransactionId} {id : PageId} {α : Type}

/-- Who has changed the page of a name that is in memory. -/
def mark? (db : Database) (id : PageId) : Option TransactionId :=
  (db.pool.page? id).bind Page.changedBy

/-- All tables are heaps, a writer is alone on its page, and whoever has marked a page is its writer. -/
structure Marked (db : Database) : Prop where
  tables : ∀ number table, db.catalog.tables.find? number = some table → ∃ heap, table = .heap heap
  locks : db.locks.Exclusive
  writes : ∀ id transaction, db.mark? id = some transaction → db.locks.isWriter id transaction = true

/-- No page was marked, and one transaction gained locks at most. -/
structure Fades (asker : TransactionId) (before after : Database) : Prop where
  marked : after.Marked
  advances : Locks.Advances asker before.locks after.locks
  marks : ∀ id transaction, after.mark? id = some transaction → before.mark? id = some transaction

theorem Fades.trans {middle : Database} (first : Fades asker before middle)
    (second : Fades asker middle after) : Fades asker before after :=
  ⟨second.marked, first.advances.trans second.advances,
    fun id transaction mark => first.marks id transaction (second.marks id transaction mark)⟩

/-- A page without a mark gets none. -/
theorem Fades.mark?_eq_none (fades : Fades asker before after) (unmarked : before.mark? id = none) :
    after.mark? id = none := by
  cases mark : after.mark? id with
  | none => rfl
  | some transaction =>
    rw [fades.marks id transaction mark] at unmarked
    cases unmarked

namespace Marked

theorem fades (marked : db.Marked) : Fades asker db db :=
  ⟨marked, .refl asker db.locks, fun _ _ mark => mark⟩

/-- Other pages in memory are fine if no mark is new. -/
theorem withPool (marked : db.Marked) {pool : Pool}
    (marks : ∀ id transaction, mark? { db with pool } id = some transaction →
      db.mark? id = some transaction) : Fades asker db { db with pool } :=
  ⟨⟨marked.tables, marked.locks, fun id transaction mark =>
    marked.writes id transaction (marks id transaction mark)⟩, .refl asker db.locks, marks⟩

/-- What is stored does not matter. -/
theorem withStorage (marked : db.Marked) (storage : Storage) : Fades asker db { db with storage } :=
  ⟨⟨marked.tables, marked.locks, marked.writes⟩, .refl asker db.locks, fun _ _ mark => mark⟩

theorem touch (marked : db.Marked) (id : PageId) :
    Fades asker db { db with pool := (db.pool.touch id).2 } := by
  -- The same pages are in memory as before.
  refine marked.withPool fun other transaction mark => ?_
  rwa [mark?, (Pool.touch_eq db.pool id).1] at mark

theorem drop (marked : db.Marked) (id : PageId) :
    Fades asker db { db with pool := db.pool.drop id } := by
  refine marked.withPool fun other transaction mark => ?_
  rw [mark?, Pool.page?_drop] at mark
  split at mark
  · cases mark
  · exact mark

/-- A page that carries no mark may be loaded. -/
theorem load (marked : db.Marked) {page : Page} (unmarked : page.changedBy = none) :
    Fades asker db { db with pool := (db.pool.load id page).2 } := by
  refine marked.withPool fun other transaction mark => ?_
  rw [mark?, (db.pool.load_eq id page).1] at mark
  split at mark
  · rw [Option.bind_some, unmarked] at mark
    cases mark
  · exact mark

/-- A page may be changed if it keeps its mark, or loses it. -/
theorem editResident (marked : db.Marked) {change : Page → Page}
    (kept : ∀ page transaction, db.pool.page? id = some page →
      (change page).changedBy = some transaction → page.changedBy = some transaction) :
    Fades asker db { db with pool := db.pool.editResident id change } := by
  refine marked.withPool fun other transaction mark => ?_
  rw [mark?, Pool.page?_editResident] at mark
  split at mark
  · -- The page was in memory, and its mark is at most the one it had.
    rename_i here
    obtain ⟨changed, found, mark⟩ := Option.bind_eq_some_iff.1 mark
    obtain ⟨page, resident, rfl⟩ := Option.map_eq_some_iff.1 found
    rw [here, mark?, resident]
    exact kept page transaction resident mark
  · exact mark

/-- A lock may be granted whenever it can be. -/
theorem grant (marked : db.Marked) {mode : LockMode} {locks : Locks}
    (granted : db.locks.grant? id asker mode = some locks) : Fades asker db { db with locks } := by
  have advances := Locks.grant?_advances marked.locks granted
  refine ⟨⟨marked.tables, marked.locks.grant? granted, ?_⟩, advances, fun _ _ mark => mark⟩
  intro other transaction mark
  have writes := marked.writes other transaction mark
  by_cases self : transaction = asker
  · subst self
    exact advances.writes other writes
  · exact (advances.writers other transaction self).trans writes

/-- A page may be released by whoever has not marked it. -/
theorem release (marked : db.Marked) (unmarked : db.mark? id ≠ some asker) :
    Marked { db with locks := (db.locks.release id asker).2 } := by
  refine ⟨marked.tables, marked.locks.release id asker, fun other transaction mark => ?_⟩
  rw [Locks.isWriter_release, marked.writes other transaction mark, Bool.true_and,
    Bool.not_eq_true', decide_eq_false_iff_not]
  intro ended
  -- Only the lock of the asker on this page goes, and there it has no mark.
  obtain ⟨rfl, rfl⟩ := ended
  exact unmarked mark

/-- Everything may be released by whoever has marked nothing. -/
theorem releaseAll (marked : db.Marked) (unmarked : ∀ id, db.mark? id ≠ some asker) :
    Marked { db with locks := (db.locks.releaseAll asker).2 } := by
  refine ⟨marked.tables, marked.locks.releaseAll asker, fun id transaction mark => ?_⟩
  rw [Locks.isWriter_releaseAll, marked.writes id transaction mark, Bool.true_and,
    Bool.not_eq_true', decide_eq_false_iff_not]
  rintro rfl
  exact unmarked id mark

end Marked

/-- What is done to the storage marks no page. -/
theorem permits_onStorage (marked : db.Marked) (asker : TransactionId) {action : Op Storage α}
    {answers : Except Failure α → Prop}
    (permits : Op.Permits action db.storage fun result _ => answers result) :
    Op.Permits (onStorage action) db fun result after => Fades asker db after ∧ answers result :=
  .onStorage (permits.mono fun _ storage answered => ⟨marked.withStorage storage, answered⟩)

/-- Looking for a table finds a heap, or fails. -/
theorem permits_tableAt_bind (marked : db.Marked) {number : Nat} {next : Table → Op Database α}
    {post : Except Failure α → Database → Prop} (missing : ∀ failure, post (.error failure) db)
    (found : ∀ heap, Op.Permits (next (.heap heap)) db post) :
    Op.Permits (tableAt number >>= next) db post := by
  refine (permits_tableAt number db).bind (fun failure _ looked => looked.1 ▸ missing failure) ?_
  rintro table _ ⟨rfl, registered⟩
  obtain ⟨heap, rfl⟩ := marked.tables number table (registered table rfl)
  exact found heap

/-- Making room drops a page at most. -/
theorem permits_makeRoom (marked : db.Marked) (asker : TransactionId) :
    Op.Permits makeRoom db fun _ after => Fades asker db after := by
  refine (ensures_makeRoom_rooms db).permits.mono fun result after rooms => ?_
  cases rooms with
  | there => exact marked.fades
  | full => exact marked.fades
  | drop _ _ => exact marked.drop _

/-- A page that is brought into memory carries no mark unless it was there with it. -/
theorem permits_bring (marked : db.Marked) (asker : TransactionId) (id : PageId) :
    Op.Permits (bring id) db fun result after => Fades asker db after
      ∧ ∀ copy, result = .ok copy → copy.page = id ∧ after.pool.isCurrent copy = true := by
  obtain ⟨-, current, answer⟩ := Pool.touch_eq db.pool id
  have touched : Fades asker db _ := marked.touch id
  refine .onPool_bind ?_
  cases asked : (db.pool.touch id).1 with
  | some copy =>
    rw [asked] at answer
    refine .pure ⟨touched, ?_⟩
    intro _ told
    cases told
    exact ⟨answer.1, by rw [← answer.2]; exact current copy⟩
  | none =>
    refine permits_tableAt_bind touched.marked (fun _ => ⟨touched, by simp⟩) fun heap => ?_
    refine (permits_onStorage touched.marked asker (Storage.permits_read heap.store id _)).bind ?_ ?_
    · intro failure after ended
      exact ⟨touched.trans ended.1, by simp⟩
    intro page read ended
    obtain ⟨kept, unmarked⟩ := ended
    have ready := touched.trans kept
    refine (permits_makeRoom ready.marked asker).bind ?_ ?_
    · intro failure after fades
      exact ⟨ready.trans fades, by simp⟩
    intro _ roomy fades
    -- What was read goes in without a mark, once there is room.
    have settled := ready.trans fades
    refine .onPool ⟨settled.trans (settled.marked.load (unmarked page rfl)), ?_⟩
    intro _ told
    cases told
    exact ⟨rfl, (roomy.pool.load_eq id page).2.2⟩

theorem permits_lockPage (marked : db.Marked) (asker : TransactionId) (id : PageId) (mode : LockMode) :
    Op.Permits (lockPage asker id mode) db fun _ after => Fades asker db after := by
  unfold Op.Permits Op.Ends lockPage Locks.request
  cases granted : db.locks.grant? id asker mode with
  | none => exact marked.fades
  | some locks => exact marked.grant granted

/-- Whoever is given a page has marked nothing by that. -/
theorem permits_acquire (marked : db.Marked) (asker : TransactionId) (id : PageId) (access : Access) :
    Op.Permits (acquire asker id access) db fun result after => Fades asker db after
      ∧ ∀ copy, result = .ok copy → copy.page = id ∧ after.pool.isCurrent copy = true := by
  refine (permits_bring marked asker id).bind ?_ ?_
  · intro failure after ended
    exact ⟨ended.1, by simp⟩
  intro _ brought ended
  obtain ⟨first, _⟩ := ended
  refine (permits_lockPage first.marked asker id access.lockMode).bind ?_ ?_
  · intro failure after fades
    exact ⟨first.trans fades, by simp⟩
  intro _ locked second
  -- The page may have been dropped while the lock was asked for, so it is brought again.
  refine (permits_bring second.marked asker id).mono ?_
  intro result after ended
  exact ⟨(first.trans second).trans ended.1, ended.2⟩

/-- A change of the current copy that keeps its mark marks nothing anew. -/
theorem permits_changeCopy (marked : db.Marked) (asker : TransactionId) {copy : CopyId}
    {change : Page → Outcome (Page × α)}
    (current : db.pool.isCurrent copy = true)
    (kept : ∀ page changed value, change page = .ok (changed, value) →
      changed.changedBy = page.changedBy) :
    Op.Permits (changeCopy copy change) db fun _ after => Fades asker db after
      ∧ after.pool.isCurrent copy = true := by
  obtain ⟨page, resident⟩ := exists_page_of_current current
  unfold Op.Permits Op.Ends changeCopy Database.copy?
  rw [Pool.copy?_of_current current, resident]
  cases outcome : change page with
  | error fault =>
    simp only [outcome]
    cases fault with
    | failed failure => exact ⟨marked.fades, current⟩
    | trapped cause => exact trivial
  | ok result =>
    obtain ⟨changed, value⟩ := result
    simp only [outcome]
    rw [Pool.edit_of_current current]
    refine ⟨marked.editResident fun held transaction there mark => ?_,
      by rw [Pool.isCurrent_editResident]; exact current⟩
    -- The page in memory is the one that was changed, and the change kept its mark.
    rw [resident, Option.some.injEq] at there
    subst there
    rw [← kept page changed value outcome]
    exact mark

end Database

end HeapEngine
