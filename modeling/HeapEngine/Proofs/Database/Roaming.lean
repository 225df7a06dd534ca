import HeapEngine.Proofs.Database.Transparent.Similar

/-!
What looking for pages does to a database, whatever its stores hold.

Pages with changes stay in memory as they are, and others come and go. Which page a transaction is given, which
locks it has then, and why it may be given none, is told exactly.
-/

namespace HeapEngine

namespace Database

variable {db before middle after : Database} {id : PageId} {page : Page} {asker : TransactionId} {α β : Type}

/-- What is in memory of a page, or else what is stored. -/
def seen? (db : Database) (id : PageId) : Option Page := (db.pool.page? id).or (db.standing.stored? id)

/-- What may be seen of a page, if it could also have been dropped and read again. -/
def MayShow (db : Database) (id : PageId) (page : Page) : Prop :=
  db.pool.page? id = some page ∨ db.standing.unwritten id = none ∧ db.standing.stored? id = some page

/-- A page that is not in memory has no changes. -/
theorem unwritten_of_absent (absent : db.pool.page? id = none) : db.standing.unwritten id = none := by
  show Option.filter _ (db.pool.page? id) = none
  rw [absent]
  rfl

theorem seen?_of_resident (resident : db.pool.page? id = some page) : db.seen? id = some page := by
  rw [seen?, resident]
  rfl

theorem seen?_of_absent (absent : db.pool.page? id = none) : db.seen? id = db.standing.stored? id := by
  rw [seen?, absent]
  rfl

/-- What is seen of a page may be seen of it. -/
theorem mayShow_of_seen? (seen : db.seen? id = some page) : db.MayShow id page := by
  cases resident : db.pool.page? id with
  | none => exact .inr ⟨unwritten_of_absent resident, seen?_of_absent resident ▸ seen⟩
  | some held =>
    cases (seen?_of_resident resident).symm.trans seen
    exact .inl resident

/-- A page goes by the name that it may be seen under. -/
theorem Intact.id_of_mayShow (intact : db.Intact) (shown : db.MayShow id page) : page.id = id := by
  rcases shown with resident | ⟨_, stored⟩
  · exact (intact.kept id page resident).name
  · exact (intact.keeps_stored stored).1.name

/-- Pages without changes came and went, and locks were taken or released. All else is as it was. -/
structure Roams (before after : Database) : Prop where
  standing : after.standing = before.standing.withLocks after.locks
  shows : ∀ id page, after.pool.page? id = some page → before.MayShow id page
  outlasts : after.pool.Outlasts before.pool

namespace Roams

section Kept

variable (roams : Roams before after)

include roams

theorem settings_eq : after.settings = before.settings := congrArg Standing.settings roams.standing

theorem catalog_eq : after.catalog = before.catalog := congrArg Standing.catalog roams.standing

theorem shown_eq : after.standing.shown = before.standing.shown := by
  rw [roams.standing, Standing.shown_withLocks]

theorem unwritten_eq : after.standing.unwritten = before.standing.unwritten := by
  rw [roams.standing, Standing.unwritten_withLocks]

theorem stored?_eq (id : PageId) : after.standing.stored? id = before.standing.stored? id := by
  rw [roams.standing]
  rfl

/-- What may be seen of a page was there to be seen before. -/
theorem mayShow (shown : after.MayShow id page) : before.MayShow id page := by
  rcases shown with resident | ⟨clean, stored⟩
  · exact roams.shows id page resident
  · exact .inr ⟨roams.unwritten_eq ▸ clean, roams.stored?_eq id ▸ stored⟩

/-- A page that may be in memory may be there still. -/
theorem housed (housed : before.Housed) : after.Housed where
  settings := roams.settings_eq ▸ housed.settings
  catalog := by
    rw [roams.catalog_eq, roams.settings_eq]
    exact housed.catalog
  tables := roams.catalog_eq ▸ housed.tables
  stores number heap registered := by
    have known : before.catalog.heap? number = some heap := roams.catalog_eq ▸ registered
    rw [← Database.shown_eq registered, roams.shown_eq, Database.shown_eq known, roams.settings_eq]
    exact housed.stores number heap known
  kept id page resident := by
    -- A page in memory was there before, or came from its image, and either may be kept.
    have keeps : before.standing.Keeps id page := by
      rcases roams.shows id page resident with old | ⟨_, stored⟩
      · exact housed.kept id page old
      · exact (housed.keeps_stored stored).1
    rw [roams.standing]
    exact { keeps with }

theorem intact (intact : before.Intact) (exclusive : after.locks.Exclusive) : after.Intact :=
  intact.of_housed (roams.housed intact.housed) roams.catalog_eq exclusive

end Kept

theorem refl (db : Database) : Roams db db := ⟨rfl, fun _ _ resident => .inl resident, .refl _⟩

theorem trans (first : Roams before middle) (second : Roams middle after) : Roams before after where
  standing := by rw [second.standing, first.standing, Standing.withLocks_withLocks]
  shows id page resident := first.mayShow (second.shows id page resident)
  outlasts := second.outlasts.trans first.outlasts

/-- Which locks are held says nothing of pages. -/
theorem withLocks (db : Database) (locks : Locks) : Roams db { db with locks } :=
  ⟨rfl, fun _ _ resident => .inl resident, .refl _⟩

/-- Asking the pool for a page changes only the order of last use. -/
theorem touch (db : Database) (id : PageId) : Roams db { db with pool := (db.pool.touch id).2 } := by
  -- The clock goes on, and no page is another one for that.
  have same := (Pool.touch_eq db.pool id).1
  exact ⟨standing_withPool fun other => by rw [same], fun other page resident => .inl (same other ▸ resident),
    .touch _ _⟩

/-- A page without changes can be dropped. -/
theorem drop (clean : db.standing.unwritten id = none) : Roams db { db with pool := db.pool.drop id } := by
  -- A clean page does not count as unwritten, so without it the database stands for the same.
  refine ⟨standing_withPool fun other => ?_, fun other page resident => ?_, .drop _ _⟩
  · rw [Pool.page?_drop]
    split
    · rename_i here
      exact here ▸ clean.symm
    · rfl
  · rw [Pool.page?_drop] at resident
    split at resident
    · cases resident
    · exact .inl resident

/-- A page can be loaded as it is stored, if it is not in memory. -/
theorem load (stored : db.standing.stored? id = some page) (unmarked : page.changedBy = none)
    (absent : db.pool.page? id = none) : Roams db { db with pool := (db.pool.load id page).2 } := by
  have loaded := (db.pool.load_eq id page).1
  -- A page as it is stored is clean, so it does not count as unwritten either.
  refine ⟨standing_withPool fun other => ?_, fun other held resident => ?_, .load _ _ _⟩
  · rw [loaded]
    split
    · rename_i here
      simp [here, absent, Page.isDirty, unmarked]
    · rfl
  · rw [loaded] at resident
    split at resident
    · rename_i here
      cases resident
      rw [here]
      exact .inr ⟨unwritten_of_absent absent, stored⟩
    · exact .inl resident

/-- A store that goes on showing the same changes nothing. -/
theorem count {number : Nat} {heap : Heap} {storage : Storage} (housed : db.Housed)
    (registered : db.catalog.heap? number = some heap)
    (shows : Storage.Shows db.storage heap.store (db.storage.view heap.store) storage) :
    Roams db { db with storage } :=
  ⟨housed.standing_count registered shows, fun _ _ resident => .inl resident, .refl _⟩

end Roams

/-! Bringing pages into memory. -/

/-- There is no room in memory for one more page, and all that are there have changes. -/
def Full (db : Database) : Prop :=
  db.settings.capacity ≤ db.pool.residentCount ∧ ∀ id page, db.pool.page? id = some page → page.isDirty = true

/-- Whether a page can be brought into memory, or is there. -/
def Loadable (db : Database) (id : PageId) : Prop :=
  (∃ page, db.pool.page? id = some page) ∨ (∃ page, db.standing.lookup id = .ok page) ∧ ¬ db.Full

/-- Why a page cannot be brought into memory. -/
inductive Unloadable (db : Database) (id : PageId) : Failure → Prop
  | unread {failure : Failure} (absent : db.pool.page? id = none)
      (fails : db.standing.lookup id = fail failure) : Unloadable db id failure
  | full {page : Page} (absent : db.pool.page? id = none) (found : db.standing.lookup id = .ok page)
      (full : db.Full) : Unloadable db id (.poolFull db.settings.capacity)

theorem Unloadable.not_loadable {failure : Failure} (unloadable : db.Unloadable id failure) : ¬ db.Loadable id := by
  rintro (⟨page, resident⟩ | ⟨⟨page, found⟩, room⟩)
  · cases unloadable with
    | unread absent => cases absent.symm.trans resident
    | full absent => cases absent.symm.trans resident
  · cases unloadable with
    | unread _ fails => cases fails.symm.trans found
    | full _ _ full => exact room full

/-- Making room fails only if there is none and no page can be dropped. -/
theorem ensures_makeRoom_exact (db : Database) :
    Op.Ensures makeRoom db fun result after => Roams db after ∧ after.locks = db.locks
      ∧ (∀ id, db.pool.page? id = none → after.pool.page? id = none)
      ∧ match result with
        | .ok () => ¬ db.Full
        | .error failure => db.Full ∧ failure = .poolFull db.settings.capacity := by
  unfold Op.Ensures Op.Ends makeRoom
  -- There is room, or the stalest clean page goes, or all pages are changed and none can go.
  by_cases full : db.settings.capacity ≤ db.pool.residentCount
  · rw [if_pos full, dropStalest]
    cases stale : db.pool.stalestClean with
    | none => exact ⟨.refl db, rfl, fun _ absent => absent, ⟨full, fun _ _ => Pool.isDirty_of_stalestClean stale⟩, rfl⟩
    | some id =>
      obtain ⟨page, resident, clean⟩ := Pool.stalestClean_eq_some stale
      refine ⟨.drop ?_, rfl, fun other absent => ?_, fun crammed => ?_⟩
      · rw [unwritten_eq resident, if_pos]
        simpa [Page.isDirty] using clean
      · show (db.pool.drop id).page? other = none
        rw [Pool.page?_drop, absent, ite_self]
      · rw [crammed.2 id page resident] at clean
        cases clean
  · rw [if_neg full]
    exact ⟨.refl db, rfl, fun _ absent => absent, fun crammed => full crammed.1⟩

/-- A page that is in memory is given as it is there. -/
theorem ensures_bring_resident (resident : db.pool.page? id = some page) :
    Op.Ensures (bring id) db fun result after => ∃ copy, result = .ok copy ∧ copy.page = id
      ∧ after.pool.isCurrent copy = true ∧ after.pool.page? id = some page ∧ Roams db after
      ∧ after.locks = db.locks := by
  obtain ⟨pages, current, answer⟩ := Pool.touch_eq db.pool id
  refine .onPool_bind ?_
  -- Asking for a page that is in memory gives a copy of it, and what it holds is not looked at.
  cases asked : (db.pool.touch id).1 with
  | some copy =>
    rw [asked] at answer
    exact .pure ⟨copy, rfl, answer.1, (current copy).trans answer.2, (pages id).trans resident, .touch db id, rfl⟩
  | none =>
    rw [asked] at answer
    cases answer.symm.trans resident

/-- A page is brought into memory as it is seen, or it is told why it cannot be. -/
theorem Housed.ensures_bring_exact (housed : db.Housed) (id : PageId) :
    Op.Ensures (bring id) db fun result after => Roams db after ∧ after.locks = db.locks ∧ match result with
      | .ok copy => db.Loadable id ∧ copy.page = id ∧ after.pool.isCurrent copy = true
        ∧ ∃ page, db.seen? id = some page ∧ after.pool.page? id = some page
      | .error failure => db.Unloadable id failure := by
  -- A page in memory is not read. Otherwise its table is looked up, it is read, and room is made for it.
  cases resident : db.pool.page? id with
  | some page =>
    refine (ensures_bring_resident resident).mono fun result after ended => ?_
    obtain ⟨copy, rfl, here, current, still, roams, locks⟩ := ended
    exact ⟨roams, locks, .inl ⟨page, resident⟩, here, current, page, seen?_of_resident resident, still⟩
  | none =>
    -- Asking for a page that is not there only makes the clock go on.
    have missing : db.pool.frames.find? id = none := by simpa [Pool.page?] using resident
    have asked : db.pool.touch id = (none, { db.pool with clock := db.pool.clock + 1 }) := by
      rw [Pool.touch, missing]
    have touched := Roams.touch db id
    refine .onPool_bind ?_
    rw [asked] at touched ⊢
    have still := touched.housed housed
    refine still.overHeaps.ends_tableAt_bind (fun unknown => ?_) fun heap registered => ?_
    · refine ⟨touched, rfl, .unread resident ?_⟩
      rw [Standing.lookup, show db.standing.catalog.find id.table = _ from housed.find_eq id.table]
      rw [show db.catalog.heap? id.table = none from unknown]
    have known : db.catalog.heap? id.table = some heap := registered
    have looked : db.standing.lookup id = (db.standing.shown id.table).read id := by
      rw [Standing.lookup, show db.standing.catalog.find id.table = _ from housed.find_eq id.table, known]
    refine (still.ensures_readStored registered).bind (fun failure after ended => ?_) fun page read ended => ?_
    · obtain ⟨told, storage, rfl, shows⟩ := ended
      exact ⟨touched.trans (.count still registered shows), rfl, .unread resident (looked.trans told)⟩
    obtain ⟨told, storage, rfl, shows⟩ := ended
    have reads := touched.trans (.count still registered shows)
    have found : db.standing.lookup id = .ok page := looked.trans told
    have stored := Standing.stored?_of_lookup found
    -- Whether there is room is told by the pages in memory, and they are what they were.
    refine (ensures_makeRoom_exact _).bind (fun failure after ended => ?_) fun _ after ended => ?_
    · obtain ⟨roams, locks, _, full, rfl⟩ := ended
      exact ⟨reads.trans roams, locks, .full resident found full⟩
    obtain ⟨roams, locks, gone, room⟩ := ended
    have ready := reads.trans roams
    have loads : Roams after { after with pool := (after.pool.load id page).2 } :=
      .load (ready.stored?_eq id ▸ stored) (housed.keeps_stored stored).2 (gone id resident)
    obtain ⟨pages, here, current⟩ := after.pool.load_eq id page
    refine .onPool ⟨ready.trans loads, locks, .inr ⟨⟨page, found⟩, room⟩, here, current, page,
      (seen?_of_absent resident).trans stored, ?_⟩
    rw [pages, if_pos rfl]

/-! Locking pages, and giving them to transactions. -/

/-- A lock is granted, or it is refused and nothing changes. -/
theorem ensures_lockPage_exact (db : Database) (asker : TransactionId) (id : PageId) (mode : LockMode) :
    Op.Ensures (lockPage asker id mode) db fun result after => match result with
      | .ok () => ∃ locks, db.locks.grant? id asker mode = some locks ∧ after = { db with locks }
      | .error failure => after = db ∧ db.locks.grant? id asker mode = none
        ∧ failure = .lockRefused ⟨asker, id, mode, db.settings.patience⟩ := by
  unfold Op.Ensures Op.Ends lockPage Locks.request
  cases granted : db.locks.grant? id asker mode with
  | none => exact ⟨rfl, rfl, rfl⟩
  | some locks => exact ⟨locks, rfl, rfl⟩

/-- A transaction was given a page as it is seen, with the lock that it asked for. -/
structure Obtains (before : Database) (asker : TransactionId) (id : PageId) (mode : LockMode) (copy : CopyId)
    (page : Page) (after : Database) : Prop where
  roams : Roams before after
  granted : before.locks.grant? id asker mode = some after.locks
  loadable : before.Loadable id
  seen : before.seen? id = some page
  here : copy.page = id
  current : after.pool.isCurrent copy = true
  resident : after.pool.page? id = some page

/-- Why a transaction is not given a page. -/
inductive Denied (db : Database) (asker : TransactionId) (id : PageId) (mode : LockMode) : Failure → Prop
  | unloadable {failure : Failure} (unloadable : db.Unloadable id failure) : Denied db asker id mode failure
  | refused (loadable : db.Loadable id) (refused : db.locks.grant? id asker mode = none) :
      Denied db asker id mode (.lockRefused ⟨asker, id, mode, db.settings.patience⟩)

/-- A transaction is given a page, or it is told why not and has no lock more than before. -/
theorem Housed.ensures_acquire_exact (housed : db.Housed) (asker : TransactionId) (id : PageId) (access : Access) :
    Op.Ensures (acquire asker id access) db fun result after => match result with
      | .ok copy => ∃ page, Obtains db asker id access.lockMode copy page after
      | .error failure => Roams db after ∧ after.locks = db.locks ∧ Denied db asker id access.lockMode failure := by
  -- The page is brought first, then locked, then asked for again, since only then is it sure who may see it.
  refine (housed.ensures_bring_exact id).bind (fun failure after ended => ?_) fun _ brought ended => ?_
  · exact ⟨ended.1, ended.2.1, .unloadable ended.2.2⟩
  obtain ⟨roams, locks, loadable, _, _, page, seen, resident⟩ := ended
  refine (ensures_lockPage_exact brought asker id access.lockMode).bind (fun failure after ended => ?_)
    fun _ locked ended => ?_
  · obtain ⟨rfl, refused, rfl⟩ := ended
    refine ⟨roams, locks, ?_⟩
    rw [roams.settings_eq]
    exact .refused loadable (locks ▸ refused)
  obtain ⟨granted, given, rfl⟩ := ended
  -- The page is in memory now, and a lock does not change that.
  have still : (Database.pool { brought with locks := granted }).page? id = some page := resident
  refine (ensures_bring_resident still).mono fun result after ended => ?_
  obtain ⟨copy, rfl, here, current, there, again, same⟩ := ended
  exact ⟨page, (roams.trans (.withLocks brought granted)).trans again, by rw [same, ← locks]; exact given,
    loadable, seen, here, current, there⟩

end Database

end HeapEngine
