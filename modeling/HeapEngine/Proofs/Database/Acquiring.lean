import HeapEngine.Proofs.Database.Recency

/-!
Getting a page and its lock, or neither.

Getting a page has three stages, each of which may fail: the page is brought into memory, locked, and brought
again, as it may have gone meanwhile. While nobody else does anything the last stage finds the page, so a lock that
was granted is never left behind by a failure.
-/

namespace HeapEngine

namespace Database

variable {db before after : Database} {id : PageId} {asker : TransactionId}

/-- The same pages are in memory, or one more that was read, perhaps in the place of another one without changes. -/
inductive Admits (id : PageId) (before after : Database) : Prop
  | nothing (same : ∀ other, after.pool.page? other = before.pool.page? other)
  | loaded {page : Page} (absent : before.pool.page? id = none) (found : before.Readable id page)
      (pages : ∀ other, after.pool.page? other = if other = id then some page else before.pool.page? other)
  | exchanged {page old : Page} {victim : PageId} (absent : before.pool.page? id = none)
      (found : before.Readable id page) (there : before.pool.page? victim = some old) (clean : old.isDirty = false)
      (pages : ∀ other, after.pool.page? other
        = if other = id then some page else if other = victim then none else before.pool.page? other)

/-- Pages with changes stay as they are when another page is admitted. -/
theorem Admits.unwritten (admits : Admits id before after) {other : PageId} {page : Page}
    (resident : before.pool.page? other = some page) (dirty : page.isDirty = true) :
    after.pool.page? other = some page := by
  -- The page is not the one that was absent, and not the one that went.
  cases admits with
  | nothing same => rw [same, resident]
  | loaded absent found pages =>
    have apart : other ≠ id := by
      rintro rfl
      cases absent.symm.trans resident
    rw [pages, if_neg apart, resident]
  | @exchanged loaded old victim absent found there clean pages =>
    have apart : other ≠ id := by
      rintro rfl
      cases absent.symm.trans resident
    have stays : other ≠ victim := by
      rintro rfl
      cases there.symm.trans resident
      rw [clean] at dirty
      cases dirty
    rw [pages, if_neg apart, if_neg stays, resident]

/-- A page that came into memory is as it is read. -/
theorem Admits.readable (admits : Admits id before after) {page : Page} (absent : before.pool.page? id = none)
    (resident : after.pool.page? id = some page) : before.Readable id page := by
  cases admits with
  | nothing same => cases (same id ▸ resident).symm.trans absent
  | loaded _ found pages =>
    rw [pages, if_pos rfl] at resident
    exact Option.some.inj resident ▸ found
  | exchanged _ found _ _ pages =>
    rw [pages, if_pos rfl] at resident
    exact Option.some.inj resident ▸ found

/-- Nothing changed but the pages in memory, what stores count and what tables of the caller's own were asked. -/
structure Reading (id : PageId) (before after : Database) : Prop where
  settings : after.settings = before.settings
  catalog : after.catalog = before.catalog
  locks : after.locks = before.locks
  bytes : Storage.SameBytes before.storage after.storage
  calls : ∀ number, after.callsTo number = before.callsTo number
    ∨ number = id.table ∧ after.callsTo number = .read id :: before.callsTo number

theorem Reads.reading (reads : Reads id before after) (pool : Pool) : Reading id before { after with pool } :=
  ⟨reads.beyond.eq.1, reads.beyond.eq.2.1, reads.beyond.eq.2.2.1, reads.bytes, reads.calls⟩

/-- Bringing a page into memory reads it at most, and admits no other. -/
theorem Brings.reading {result : Except Failure CopyId} (brings : Brings db id result after) :
    Reading id db after := by
  cases brings with
  | hit => exact ⟨rfl, rfl, rfl, .refl _, fun _ => .inl rfl⟩
  | unread _ _ reads => exact reads.reading _
  | full _ _ reads => exact reads.reading _
  | loads _ _ reads => exact reads.reading _
  | replaces _ _ reads => exact reads.reading _

theorem page?_of_absent (absent : db.pool.isResident id = false) : db.pool.page? id = none := by
  rw [Pool.isResident_eq] at absent
  simpa using absent

theorem Brings.admits {result : Except Failure CopyId} (brings : Brings db id result after) : Admits id db after := by
  have touched := (Pool.touch_eq db.pool id).1
  cases brings with
  | hit => exact .nothing touched
  | unread => exact .nothing touched
  | full => exact .nothing touched
  | @loads page read absent found reads room =>
    refine .loaded (page?_of_absent absent) ⟨_, found⟩ fun other => ?_
    rw [((db.pool.touch id).2.load_eq id page).1, touched]
  | @replaces page read victim absent found reads crowded stale =>
    obtain ⟨old, there, clean⟩ := Pool.stalestClean_eq_some stale
    refine .exchanged (page?_of_absent absent) ⟨_, found⟩ there clean fun other => ?_
    rw [(((db.pool.touch id).2.drop victim).load_eq id page).1, Pool.page?_drop, touched]

/-- A page that cannot be brought into memory changes none of those that are there. -/
theorem Brings.page?_of_error {failure : Failure} (brings : Brings db id (.error failure) after) (other : PageId) :
    after.pool.page? other = db.pool.page? other := by
  cases brings with
  | unread => exact (Pool.touch_eq db.pool id).1 other
  | full => exact (Pool.touch_eq db.pool id).1 other

/-- A page that was brought into memory is there. -/
theorem Brings.resident {copy : CopyId} (brings : Brings db id (.ok copy) after) : after.pool.isResident id = true := by
  cases brings with
  | hit resident => rwa [Pool.isResident_eq, (Pool.touch_eq db.pool id).1, ← Pool.isResident_eq]
  | @loads page =>
    rw [Pool.isResident_eq, ((db.pool.touch id).2.load_eq id page).1, if_pos rfl]
    rfl
  | @replaces page read victim =>
    rw [Pool.isResident_eq, (((db.pool.touch id).2.drop victim).load_eq id page).1, if_pos rfl]
    rfl

/-- A table of the caller's own gives no page as changed that it has just read. -/
def ReadsUnmarked (db : Database) (number : Nat) : Prop := ∀ format calls id page,
  db.catalog.tables.find? number = some (.custom format) → format.read calls id = .ok page → page.isDirty = false

/-- A page is read without a mark, of a heap in any case and of any other table if that gives none. -/
theorem Readable.unmarked {page : Page} (readable : db.Readable id page) (unmarked : db.ReadsUnmarked id.table) :
    page.isDirty = false := by
  cases registered : db.catalog.heap? id.table with
  | some heap => exact readable.clean registered
  | none =>
    have reads : Op.Permits (readPast id) db fun result _ => ∀ page, result = .ok page → page.isDirty = false := by
      refine (permits_tableAt id.table db).bind (fun _ _ _ => nofun) ?_
      intro table looked ended
      obtain ⟨same, registeredToo⟩ := ended
      rw [same]
      have found := registeredToo table rfl
      cases table with
      | heap heap => simp [Catalog.heap?, found] at registered
      | custom format =>
        have notes : Op.Permits (note id.table (.read id)) db fun _ _ => True := trivial
        refine notes.bind (fun _ _ _ => nofun) fun calls noted _ => ?_
        -- What the table answers is told as it is.
        exact .ofResult fun page told => unmarked format calls id page found told
    obtain ⟨after, ran⟩ := readable
    exact reads.of_ok ran page rfl

/-- What a page that could not be had leaves behind: nothing, but that it may be in memory now. -/
structure LeavesNothing (asker : TransactionId) (id : PageId) (mode : LockMode) (before : Database)
    (failure : Failure) (after : Database) : Prop extends Reading id before after where
  /-- Which pages have changes, and what they hold, is as before. -/
  unwritten : ∀ other page, before.pool.page? other = some page → page.isDirty = true →
    after.pool.page? other = some page
  admits : Admits id before after
  /-- A page that came into memory has no changes. -/
  clean : ∀ page, before.pool.page? id = none → after.pool.page? id = some page → before.ReadsUnmarked id.table →
    page.isDirty = false
  /-- The page is brought into memory only if it could not be locked then. -/
  refused : (∀ other, after.pool.page? other = before.pool.page? other)
    ∨ failure = .lockRefused ⟨asker, id, mode, before.settings.patience⟩

/-- What a page that was given comes to: it is in memory as the one that was used last, and locked. -/
structure GivesLatest (asker : TransactionId) (id : PageId) (access : Access) (copy : CopyId) (after : Database) :
    Prop where
  here : copy.page = id
  current : after.pool.isCurrent copy = true
  latest : after.pool.byRecency.head? = some id
  holds : after.locks.holds id asker = true
  writes : access = .writing → after.locks.isWriter id asker = true

/-- A page is given with its lock, or it leaves nothing behind, unless its table traps. -/
theorem ends_acquire_exact {mayTrap : Prop} (responds : mayTrap ∨ db.pool.isResident id = true ∨ db.Responds id)
    (ticking : db.pool.Ticking) (asker : TransactionId) (access : Access) :
    Op.Ends mayTrap (acquire asker id access) db fun result after => match result with
      | .ok copy => GivesLatest asker id access copy after
      | .error failure => LeavesNothing asker id access.lockMode db failure after := by
  refine (ends_bring_exact responds).bind (fun failure after brings => ?_) fun _ brought brings => ?_
  · exact { brings.reading with
      unwritten := fun _ _ => brings.admits.unwritten
      admits := brings.admits
      clean := fun _ absent there unmarked => (brings.admits.readable absent there).unmarked unmarked
      refused := .inl brings.page?_of_error }
  refine (ensures_lockPage_exact brought asker id access.lockMode).ends.bind (fun failure after ended => ?_)
    fun _ locked ended => ?_
  · obtain ⟨rfl, -, rfl⟩ := ended
    exact { brings.reading with
      unwritten := fun _ _ => brings.admits.unwritten
      admits := brings.admits
      clean := fun _ absent there unmarked => (brings.admits.readable absent there).unmarked unmarked
      refused := .inr (by rw [brings.reading.settings]) }
  obtain ⟨granted, given, rfl⟩ := ended
  -- The page is in memory now, and a lock does not change that.
  have there : Pool.isResident ({ brought with locks := granted } : Database).pool id = true := brings.resident
  refine (ends_bring_exact (.inr (.inl there))).mono fun result after again => ?_
  cases again with
  | @hit copy resident here current =>
    obtain ⟨holds, writes⟩ := Locks.holds_of_grant? given
    refine ⟨here, ((Pool.touch_eq _ id).2.1 copy).trans current, ?_, holds, fun writing =>
      writes (congrArg _ writing)⟩
    exact congrArg List.head? ((brings.order ticking).1.touch brings.resident).2
  | unread absent => cases brings.resident.symm.trans absent
  | full absent => cases brings.resident.symm.trans absent
  | loads absent => cases brings.resident.symm.trans absent
  | replaces absent => cases brings.resident.symm.trans absent

/--
A page that cannot be had leaves nothing behind, and one that is given is locked and was used last.

Nothing is asked of the tables, nor of how many pages there is room for: however a database proceeds, the page that
was brought into memory is still there when its lock is granted. A page that is there is always given or refused,
and so is one that is not if reading it comes to an end.
-/
theorem failed_acquire_leaves_nothing (proceeds : Proceeds db) (asker : TransactionId) (id : PageId)
    (access : Access) :
    (db.pool.isResident id = true ∨ db.Responds id →
      ∃ result after, (acquire asker id access).Gives db result after)
    ∧ ∀ result after, (acquire asker id access).Gives db result after → match result with
      | .ok copy => GivesLatest asker id access copy after
      | .error failure => LeavesNothing asker id access.lockMode db failure after := by
  have ticking := proceeds.ticking
  refine ⟨fun responds => ?_, fun _ _ gives => ?_⟩
  · exact Op.Ensures.answers (ends_acquire_exact (.inr responds) ticking asker access)
  · exact (ends_acquire_exact (.inl trivial) ticking asker access).of_gives gives

/-- A page of a table of the caller's own is locked for writing, and makes room for another page. -/
def awayLocked : Database :=
  cramped.afterAll [.acquire ⟨1⟩ ⟨1, 1⟩ .writing, .acquire ⟨2⟩ ⟨1, 0⟩ .reading]

theorem proceeds_awayLocked : Proceeds awayLocked := by
  have fresh : Proceeds cramped := .fresh rfl
  exact fresh.afterAll (by decide +kernel)

/-- The table reads its pages without marks. -/
theorem readsUnmarked_awayLocked : awayLocked.ReadsUnmarked 1 := by
  intro format calls id page found read
  have only : awayLocked.catalog.tables.find? 1 = some (.custom (.detached 64 2 [0, 1] (some .exclusive) 1)) := rfl
  rw [only] at found
  cases found
  -- A page is read as an empty one, if it is read.
  unfold TableFormat.detached at read
  simp only at read
  split at read
  · cases read
    rfl
  · cases read

/-- Who asks for the locked page is refused, and the page has taken the place of the other one meanwhile. -/
theorem failed_acquire_leaves_nothing_awayLocked : Proceeds awayLocked
    ∧ (∃ after, acquire ⟨2⟩ ⟨1, 1⟩ .reading awayLocked
        = .error (.failed (.lockRefused ⟨⟨2⟩, ⟨1, 1⟩, .shared, .ofMilliseconds 20⟩)) after
      ∧ after.locks = awayLocked.locks ∧ after.pool.page? ⟨1, 0⟩ = none
      ∧ ∃ page, after.pool.page? ⟨1, 1⟩ = some page ∧ page.isDirty = false)
    ∧ ∃ copy after, acquire ⟨1⟩ ⟨1, 1⟩ .reading awayLocked = .ok copy after
      ∧ after.pool.byRecency.head? = some ⟨1, 1⟩ ∧ after.locks.holds ⟨1, 1⟩ ⟨1⟩ = true := by
  have refused := (acquire ⟨2⟩ ⟨1, 1⟩ .reading).run_eq_ended awayLocked
  rw [show (acquire ⟨2⟩ ⟨1, 1⟩ .reading).outcome awayLocked
    = fail (.lockRefused ⟨⟨2⟩, ⟨1, 1⟩, .shared, .ofMilliseconds 20⟩) from by decide +kernel] at refused
  have given := (acquire ⟨1⟩ ⟨1, 1⟩ .reading).run_eq_ended awayLocked
  rw [show (acquire ⟨1⟩ ⟨1, 1⟩ .reading).outcome awayLocked = .ok ⟨⟨1, 1⟩, 2⟩ from by decide +kernel] at given
  have nothing := (failed_acquire_leaves_nothing proceeds_awayLocked ⟨2⟩ ⟨1, 1⟩ .reading).2
    (.error (.lockRefused ⟨⟨2⟩, ⟨1, 1⟩, .shared, .ofMilliseconds 20⟩)) _ refused
  have latest := (failed_acquire_leaves_nothing proceeds_awayLocked ⟨1⟩ ⟨1, 1⟩ .reading).2 (.ok ⟨⟨1, 1⟩, 2⟩) _ given
  have loaded : ((acquire ⟨2⟩ ⟨1, 1⟩ .reading).last awayLocked).pool.page? ⟨1, 1⟩ = some (.empty ⟨1, 1⟩ 64) := by
    decide +kernel
  have clean := nothing.clean _ (by decide +kernel) loaded readsUnmarked_awayLocked
  exact ⟨proceeds_awayLocked, ⟨_, refused, nothing.locks, by decide +kernel, _, loaded, clean⟩, _, _, given,
    latest.latest, latest.holds⟩

end Database

end HeapEngine
