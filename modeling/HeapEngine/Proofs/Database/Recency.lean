import HeapEngine.Proofs.Commutes
import HeapEngine.Proofs.Database.Memory
import HeapEngine.Proofs.Database.Roaming

/-!
Which page goes when another one is needed: of those without changes, the one that was used longest ago.

The pages in memory are as good as a list, the one used last first. What every operation does to the list is told
exactly, over tables of any kind.
-/

namespace HeapEngine

/-- A list in which a page cannot be used has no room, and none of its members may go. -/
theorem useInOrder_eq_none {capacity : Nat} {mayGo : PageId → Bool} {order : List PageId} {id : PageId} :
    useInOrder capacity mayGo order id = none
      ↔ id ∉ order ∧ capacity ≤ order.length ∧ ∀ other ∈ order, mayGo other = false := by
  unfold useInOrder
  by_cases there : id ∈ order
  · simp [there]
  · by_cases room : order.length < capacity
    · simp [there, room, Nat.not_le.2 room]
    · simp [there, room, Nat.not_lt.1 room]

namespace Page

/-- An image is refused for its size or for what it holds. -/
theorem readEntries_ne_poolFull {id : PageId} {cellStart size count capacity : Nat} {directory : Bytes} :
    readEntries id cellStart size count directory ≠ fail (.poolFull capacity) := by
  induction count generalizing directory with
  | zero => rintro ⟨⟩
  | succ count ih =>
    unfold readEntries
    simp only
    split
    · rintro ⟨⟩
    · intro failed
      exact ih (Outcome.eq_fail_of_reply failed)

theorem ofImage_ne_poolFull {id : PageId} {image : Bytes} {capacity : Nat} :
    ofImage id image ≠ fail (.poolFull capacity) := by
  unfold ofImage
  simp only
  split
  · rintro ⟨⟩
  split
  · rintro ⟨⟩
  split
  · rintro ⟨⟩
  split
  · rintro ⟨⟩
  split
  · rintro ⟨⟩
  · intro failed
    exact readEntries_ne_poolFull (Outcome.eq_fail_of_reply failed)

end Page

namespace Storage

/-- Reading a page tells what its store shows, and changes no byte. -/
theorem permits_read_shown (store : StoreId) (id : PageId) (storage : Storage) :
    Op.Permits (read store id) storage fun result after =>
      (storage.view store).read id = Outcome.ofResult result ∧ SameBytes storage after := by
  cases store with
  | memory number =>
    refine ends_onArray ((PageArray.ensures_read (storage.array number) id).permits.mono fun result after ended => ?_)
    exact ⟨ended.1, .setArray (congrArg StoreView.images ended.2)⟩
  | file name pageSize =>
    rcases Nat.eq_zero_or_pos pageSize with rfl | positive
    · -- Pages without bytes cannot be counted.
      have traps : Op.Permits (PageFile.read 0 id) (storage.file name) fun _ _ => False := trivial
      exact ends_onFile (traps.mono fun _ _ never => never.elim)
    · have positive : 0 < (storage.view (.file name pageSize)).pageSize := positive
      refine (Op.Ends.and (ensures_read positive id).permits (ensures_read_sameBytes positive id).permits).mono ?_
      exact fun _ _ ended => ⟨ended.1.1, ended.2⟩

end Storage

namespace Database

variable {db after read : Database} {id : PageId} {page : Page}

/-! Reading pages past those in memory. -/

/-- Reads a page as it is stored, past the pages in memory. -/
def readPast (id : PageId) : Op Database Page := do readStored (← tableAt id.table) id

/-- A page was read, or could not be: no stored byte changed, and at most one request was noted. -/
structure Reads (id : PageId) (before after : Database) : Prop where
  beyond : Beyond before after
  bytes : Storage.SameBytes before.storage after.storage
  calls : ∀ number, after.callsTo number = before.callsTo number
    ∨ number = id.table ∧ after.callsTo number = .read id :: before.callsTo number

/-- Why a page cannot be read. -/
def Unreadable (db : Database) (id : PageId) (failure : Failure) : Prop :=
  ∃ after, readPast id db = .error (.failed failure) after

/-- What is read of a page. -/
def Readable (db : Database) (id : PageId) (page : Page) : Prop := ∃ after, readPast id db = .ok page after

/-- Reading a page comes to an end, with the page or with a failure. -/
def Responds (db : Database) (id : PageId) : Prop := Op.Ensures (readPast id) db fun _ _ => True

theorem permits_readPast (id : PageId) (db : Database) :
    Op.Permits (readPast id) db fun _ after => Reads id db after := by
  -- A heap notes no request, and a custom table notes this one before it answers.
  have nothing : Reads id db db := ⟨⟨_, _, rfl⟩, .refl _, fun _ => .inl rfl⟩
  refine (permits_tableAt id.table db).bind (fun _ _ found => found.1 ▸ nothing) ?_
  rintro table _ ⟨rfl, -⟩
  cases table with
  | heap heap =>
    refine .onStorage ((Storage.permits_read_shown heap.store id _).mono fun _ storage ended => ?_)
    exact ⟨⟨storage, _, rfl⟩, ended.2, fun _ => .inl rfl⟩
  | custom format =>
    rename_i db
    have notes : Op.Permits (note id.table (.read id)) db fun _ read => Reads id db read := by
      refine ⟨⟨db.storage, _, rfl⟩, .refl _, fun number => ?_⟩
      by_cases here : number = id.table
      · refine .inr ⟨here, ?_⟩
        rw [here, callsTo, SortedMap.find?_insert_self]
        rfl
      · refine .inl ?_
        rw [callsTo, SortedMap.find?_insert_other _ _ here, callsTo]
    exact notes.andThen fun before _ reads => .ofResult reads

/-- What is read does not depend on the pages in memory. -/
theorem readPast_withPool (id : PageId) (db : Database) (pool : Pool) :
    readPast id { db with pool } = match readPast id db with
      | .ok page after => .ok page { after with pool }
      | .error fault after => .error fault { after with pool } := by
  -- What is read depends on the table that is found, and finding it does not look at the pages in memory.
  cases found : db.catalog.find id.table with
  | error failure =>
    have missing (other : Database) (same : other.catalog = db.catalog) :
        readPast id other = .error (.failed failure) other := by
      refine Op.bind_of_error ?_ _
      show ofResult (other.catalog.find id.table) other = _
      rw [same, found]
      rfl
    rw [missing db rfl, missing { db with pool } rfl]
  | ok table =>
    have there (other : Database) (same : other.catalog = db.catalog) :
        readPast id other = readStored table id other := by
      refine Op.bind_of_ok ?_ _
      show ofResult (other.catalog.find id.table) other = _
      rw [same, found]
      rfl
    rw [there db rfl, there { db with pool } rfl]
    cases table with
    | heap heap =>
      simp only [readStored, onStorage]
      cases Storage.read heap.store id db.storage <;> rfl
    | custom format =>
      -- The table is asked for the page, and what it answers is told as it is.
      have asks (other : Database) (same : other.calls = db.calls) :
          readStored (.custom format) id other
            = (ofResult (format.read (db.callsTo id.table) id) : Op Database Page)
              { other with calls := db.calls.insert id.table (.read id :: db.callsTo id.table) } := by
        cases other
        cases same
        rfl
      rw [asks db rfl, asks { db with pool } rfl]
      cases format.read (db.callsTo id.table) id <;> rfl

/-- Whatever is in memory meanwhile, a page is read as it would be now. -/
theorem ends_readPast_withPool {mayTrap : Prop} (responds : mayTrap ∨ db.Responds id) (pool : Pool) :
    Op.Ends mayTrap (readPast id) { db with pool } fun result after =>
      ∃ read, after = { read with pool } ∧ Reads id db read ∧ readPast id db = match result with
        | .ok page => .ok page read
        | .error failure => .error (.failed failure) read := by
  -- Reading ends as it does with the pages in memory now, so the run here is told of the run there.
  have reads := permits_readPast id db
  unfold Responds Op.Ensures Op.Ends at responds
  unfold Op.Permits Op.Ends at reads
  unfold Op.Ends
  rw [readPast_withPool]
  cases ran : readPast id db with
  | ok page read =>
    rw [ran] at reads
    exact ⟨read, rfl, reads, rfl⟩
  | error fault read =>
    rw [ran] at reads
    rw [ran] at responds
    cases fault with
    | failed failure => exact ⟨read, rfl, reads, rfl⟩
    | trapped cause => exact responds.resolve_right fun never => never

/-- A page of a heap is read from its store. -/
theorem ends_readPast {mayTrap : Prop} {heap : Heap} {post : Except Failure Page → Database → Prop}
    (registered : db.catalog.heap? id.table = some heap)
    (ends : Op.Ends mayTrap (Storage.read heap.store id) db.storage fun result storage =>
      post result { db with storage }) : Op.Ends mayTrap (readPast id) db post := by
  -- The number leads to a heap only if a heap was registered under it.
  have found : db.catalog.tables.find? id.table = some (.heap heap) := by
    unfold Catalog.heap? at registered
    split at registered
    · cases registered
      assumption
    · cases registered
  have looked : tableAt id.table db = .ok (.heap heap) db := by
    show ofResult (db.catalog.find id.table) db = _
    rw [Catalog.find, found]
    rfl
  exact .run_bind looked (.onStorage ends)

/-- A page of a heap is read as its store shows it. -/
theorem permits_readPast_shown {heap : Heap} (registered : db.catalog.heap? id.table = some heap) :
    Op.Permits (readPast id) db fun result _ =>
      (db.storage.view heap.store).read id = Outcome.ofResult result :=
  ends_readPast registered ((Storage.permits_read_shown heap.store id db.storage).mono fun _ _ ended => ended.1)

/-- Reading a page of a heap always comes to an end. -/
theorem responds_of_heap {heap : Heap} (registered : db.catalog.heap? id.table = some heap)
    (positive : 0 < (db.storage.view heap.store).pageSize) : db.Responds id := by
  unfold Responds
  exact ends_readPast registered ((Storage.ensures_read positive id).mono fun _ _ _ => trivial)

/-- A page of a heap has no mark when it is read. -/
theorem Readable.clean {heap : Heap} (readable : db.Readable id page)
    (registered : db.catalog.heap? id.table = some heap) : page.isDirty = false := by
  obtain ⟨after, ran⟩ := readable
  -- A store gives what it read from an image, which carries no mark.
  have shown : StoreView.read _ id = .ok page := (permits_readPast_shown registered).of_ok ran
  unfold StoreView.read at shown
  split at shown
  · cases shown
  · split at shown
    · cases shown
    · rw [Page.isDirty, (Page.ofImage_eq_ok shown).2.2]
      rfl

/-- Reading a page of a heap does not fail for want of room in memory. -/
theorem not_unreadable_full {heap : Heap} (registered : db.catalog.heap? id.table = some heap) (capacity : Nat) :
    ¬ db.Unreadable id (.poolFull capacity) := by
  rintro ⟨after, ran⟩
  have shown : StoreView.read _ id = fail (.poolFull capacity) := (permits_readPast_shown registered).of_error ran
  unfold StoreView.read at shown
  split at shown
  · cases shown
  · split at shown
    · cases shown
    · exact Page.ofImage_ne_poolFull shown

/-! Bringing pages into memory. -/

/-- What it comes to that a page is brought into memory. -/
inductive Brings (db : Database) (id : PageId) : Except Failure CopyId → Database → Prop
  /-- It is there. -/
  | hit {copy : CopyId} (resident : db.pool.isResident id = true) (here : copy.page = id)
      (current : db.pool.isCurrent copy = true) : Brings db id (.ok copy) { db with pool := (db.pool.touch id).2 }
  /-- It is not there, and cannot be read. -/
  | unread {failure : Failure} {read : Database} (absent : db.pool.isResident id = false)
      (fails : readPast id db = .error (.failed failure) read) (reads : Reads id db read) :
      Brings db id (.error failure) { read with pool := (db.pool.touch id).2 }
  /-- It is read, and there is no room for it. -/
  | full {page : Page} {read : Database} (absent : db.pool.isResident id = false)
      (found : readPast id db = .ok page read) (reads : Reads id db read) (full : db.Full) :
      Brings db id (.error (.poolFull db.settings.capacity)) { read with pool := (db.pool.touch id).2 }
  /-- It is read, and there is room for it. -/
  | loads {page : Page} {read : Database} (absent : db.pool.isResident id = false)
      (found : readPast id db = .ok page read) (reads : Reads id db read)
      (room : db.pool.residentCount < db.settings.capacity) :
      Brings db id (.ok ((db.pool.touch id).2.load id page).1)
        { read with pool := ((db.pool.touch id).2.load id page).2 }
  /-- It is read, and another page goes for it. -/
  | replaces {page : Page} {read : Database} {victim : PageId} (absent : db.pool.isResident id = false)
      (found : readPast id db = .ok page read) (reads : Reads id db read)
      (crowded : db.settings.capacity ≤ db.pool.residentCount) (stale : db.pool.stalestClean = some victim) :
      Brings db id (.ok (((db.pool.touch id).2.drop victim).load id page).1)
        { read with pool := (((db.pool.touch id).2.drop victim).load id page).2 }

/-- A page is brought into memory in one of these ways, whatever table it is of, unless the table traps. -/
theorem ends_bring_exact {mayTrap : Prop} (responds : mayTrap ∨ db.pool.isResident id = true ∨ db.Responds id) :
    Op.Ends mayTrap (bring id) db (Brings db id) := by
  refine .onPool_bind ?_
  cases resident : db.pool.frames.find? id with
  | some frame =>
    have asked : (db.pool.touch id).1 = some ⟨id, frame.serial⟩ := by rw [Pool.touch, resident]
    rw [asked]
    refine .pure (.hit ?_ rfl (Pool.isCurrent_iff.2 ⟨frame, resident, rfl⟩))
    rw [Pool.isResident, SortedMap.contains, resident]
    rfl
  | none =>
    have absent : db.pool.isResident id = false := by
      rw [Pool.isResident, SortedMap.contains, resident]
      rfl
    -- The clock went on, and the frames are what they were.
    have touched : db.pool.touch id = (none, { db.pool with clock := db.pool.clock + 1 }) := by
      rw [Pool.touch, resident]
    rw [show (db.pool.touch id).1 = none from congrArg Prod.fst touched]
    show Op.Ends mayTrap (tableAt id.table >>= fun table => readStored table id >>= fun page =>
      makeRoom >>= fun _ => onPool (Pool.load · id page)) _ _
    rw [← bind_assoc]
    have answers : mayTrap ∨ db.Responds id :=
      responds.imp_right fun either => either.resolve_left (by simp [absent])
    refine (ends_readPast_withPool answers (db.pool.touch id).2).bind (fun failure after ended => ?_)
      fun page after ended => ?_
    · obtain ⟨read, rfl, reads, fails⟩ := ended
      exact .unread absent fails reads
    obtain ⟨read, rfl, reads, found⟩ := ended
    -- Whether there is room, and which page goes, is told by the frames that there were.
    have capacity : read.settings.capacity = db.settings.capacity := by rw [reads.beyond.eq.1]
    have count : (db.pool.touch id).2.residentCount = db.pool.residentCount := by rw [touched]; rfl
    have stale : (db.pool.touch id).2.stalestClean = db.pool.stalestClean := by rw [touched]; rfl
    have pages := (Pool.touch_eq db.pool id).1
    refine (ensures_makeRoom_stalest _).ends.bind (fun failure after ended => ?_) fun _ after ended => ?_
    · obtain ⟨⟨crowded, dirty⟩, rfl, rfl⟩ := ended
      rw [capacity]
      refine .full absent found reads ⟨?_, fun other held resident => dirty other held ((pages other).trans resident)⟩
      rw [← capacity, ← count]
      exact crowded
    · simp only [capacity, count, stale] at ended
      rcases ended with ⟨room, rfl⟩ | ⟨crowded, victim, oldest, rfl⟩
      · exact .onPool (@Brings.loads db id page read absent found reads room)
      · exact .onPool (@Brings.replaces db id page read victim absent found reads crowded oldest)

theorem permits_bring_exact (id : PageId) (db : Database) : Op.Permits (bring id) db (Brings db id) :=
  ends_bring_exact (.inl trivial)

/-! What is done to memory, as what is done to the order of last use. -/

/-- The order of last use after one more use of a page, if the page can be used. -/
def orderAfter (db : Database) (id : PageId) : Option (List PageId) :=
  useInOrder db.settings.capacity db.pool.mayGo db.pool.byRecency id

theorem orderAfter_of_resident (resident : db.pool.isResident id = true) :
    db.orderAfter id = some (moveToFront id db.pool.byRecency) := by
  rw [orderAfter, useInOrder, if_pos (Pool.mem_byRecency.2 resident)]

/-- A page that is not there cannot be used if there is no room and no page may go. -/
theorem orderAfter_eq_none : db.orderAfter id = none ↔ db.pool.isResident id = false ∧ db.Full := by
  rw [orderAfter, useInOrder_eq_none, Pool.mem_byRecency, Bool.not_eq_true, Pool.length_byRecency, Full]
  refine and_congr_right fun _ => and_congr_right fun _ =>
    ⟨fun stay other page resident => ?_, fun dirty other member => ?_⟩
  · have stays := stay other (Pool.mem_byRecency.2 (by rw [Pool.isResident_eq, resident]; rfl))
    simpa [Pool.mayGo, resident] using stays
  · have resident := Pool.mem_byRecency.1 member
    rw [Pool.isResident_eq] at resident
    obtain ⟨page, found⟩ := Option.isSome_iff_exists.1 resident
    simp [Pool.mayGo, found, dirty other page found]

/-- A page that is not in a list goes to the front of it without leaving another place. -/
theorem moveToFront_of_not_mem {order : List PageId} (absent : id ∉ order) : moveToFront id order = id :: order := by
  rw [moveToFront, List.erase_of_not_mem absent]

theorem orderAfter_of_room (absent : db.pool.isResident id = false)
    (room : db.pool.residentCount < db.settings.capacity) :
    db.orderAfter id = some (moveToFront id db.pool.byRecency) := by
  have out : id ∉ db.pool.byRecency := by rw [Pool.mem_byRecency, absent]; simp
  rw [orderAfter, useInOrder, if_neg out, Pool.length_byRecency, if_pos room, moveToFront_of_not_mem out]

theorem orderAfter_of_stale (ticking : db.pool.Ticking) (absent : db.pool.isResident id = false)
    (crowded : db.settings.capacity ≤ db.pool.residentCount) {victim : PageId}
    (stale : db.pool.stalestClean = some victim) :
    db.orderAfter id = some (moveToFront id (db.pool.byRecency.erase victim)) := by
  have out : id ∉ db.pool.byRecency := by rw [Pool.mem_byRecency, absent]; simp
  rw [orderAfter, useInOrder, if_neg out, Pool.length_byRecency, if_neg (Nat.not_lt.2 crowded),
    ← ticking.stalestClean_eq,
    stale, moveToFront_of_not_mem fun member => out (List.mem_of_mem_erase member)]
  rfl

/-- A page that is brought into memory is used, and if it cannot be brought no page is. -/
theorem Brings.order (ticking : db.pool.Ticking) {result : Except Failure CopyId} :
    Brings db id result after → after.pool.Ticking ∧ match result with
      | .ok copy => copy.page = id ∧ db.orderAfter id = some after.pool.byRecency
      | .error _ => after.pool.byRecency = db.pool.byRecency := by
  intro brings
  cases brings with
  | hit resident here =>
    obtain ⟨still, order⟩ := ticking.touch resident
    exact ⟨still, here, by rw [orderAfter_of_resident resident, order]⟩
  | unread absent => exact ticking.touch_absent absent
  | full absent => exact ticking.touch_absent absent
  | @loads page read absent found reads room =>
    obtain ⟨still, touched⟩ := ticking.touch_absent absent
    obtain ⟨last, order⟩ := still.load id page
    exact ⟨last, rfl, by rw [orderAfter_of_room absent room, order, touched]⟩
  | @replaces page read victim absent found reads crowded stale =>
    obtain ⟨still, touched⟩ := ticking.touch_absent absent
    obtain ⟨less, dropped⟩ := still.drop victim
    obtain ⟨last, order⟩ := less.load id page
    exact ⟨last, rfl, by rw [orderAfter_of_stale ticking absent crowded stale, order, dropped, touched]⟩

/-- A copy that is adopted is used, and if it cannot be adopted no page is. Only a copy that is not there traps. -/
theorem ends_adopt_order {mayTrap : Prop} (ticking : db.pool.Ticking) (asker : TransactionId) (copy : CopyId)
    (there : mayTrap ∨ (db.copy? copy).isSome = true) :
    Op.Ends mayTrap (adopt asker copy) db fun result after => after.pool.Ticking ∧ match result with
      | .ok () => db.orderAfter copy.page = some after.pool.byRecency
      | .error failure => after.pool.byRecency = db.pool.byRecency
        ∧ (failure = .misuse (.changedUnlocked asker copy.page) ∧ db.locks.isWriter copy.page asker = false
          ∨ failure = .poolFull db.settings.capacity ∧ db.locks.isWriter copy.page asker = true
            ∧ db.pool.isResident copy.page = false ∧ db.Full) := by
  refine (ends_adopt_exact asker copy there).mono fun result after adopts => ?_
  -- Marking the copy uses no page.
  have marked (page : Page) : (db.withMark asker copy page).Ticking
      ∧ (db.withMark asker copy page).byRecency = db.pool.byRecency := ticking.edit copy _
  cases adopts with
  | unlocked refused => exact ⟨ticking, rfl, .inl ⟨rfl, refused⟩⟩
  | @current page writes held current =>
    obtain ⟨still, order⟩ := marked page
    obtain ⟨frame, found, _⟩ := Pool.isCurrent_iff.1 current
    have resident : db.pool.isResident copy.page = true := by
      rw [Pool.isResident, SortedMap.contains, found]
      rfl
    have residentToo : (db.withMark asker copy page).isResident copy.page = true := by
      rw [withMark, Pool.isResident_edit, resident]
    obtain ⟨last, front⟩ := still.touch residentToo
    exact ⟨last, by rw [orderAfter_of_resident resident, front, order]⟩
  | @displaces page writes held stray resident =>
    obtain ⟨still, order⟩ := marked page
    obtain ⟨last, front⟩ := still.seat copy (page.markChanged asker)
    exact ⟨last, by rw [orderAfter_of_resident resident, front, order]⟩
  | @full page writes held stray absent full =>
    obtain ⟨still, order⟩ := marked page
    exact ⟨still, order, .inr ⟨rfl, writes, absent, full⟩⟩
  | @settles page writes held stray absent room =>
    obtain ⟨still, order⟩ := marked page
    obtain ⟨last, front⟩ := still.seat copy (page.markChanged asker)
    exact ⟨last, by rw [orderAfter_of_room absent room, front, order]⟩
  | @replaces page victim writes held stray absent crowded stale =>
    obtain ⟨still, order⟩ := marked page
    obtain ⟨less, dropped⟩ := still.drop victim
    obtain ⟨last, front⟩ := less.seat copy (page.markChanged asker)
    exact ⟨last, by rw [orderAfter_of_stale ticking absent crowded stale, front, dropped, order]⟩

/-- There is no room for a copy that is adopted only if its page is not there and no page may go for it. -/
theorem permits_adopt_exhausted (ticking : db.pool.Ticking) (asker : TransactionId) (copy : CopyId) :
    Op.Permits (adopt asker copy) db fun result _ =>
      (∃ capacity, result = .error (.poolFull capacity)) ↔ db.locks.isWriter copy.page asker = true
        ∧ db.pool.isResident copy.page = false ∧ db.Full := by
  -- Where the copy finds its place the order is told, and otherwise it is told why not.
  refine (ends_adopt_order ticking asker copy (.inl trivial)).mono fun result after ended => ?_
  cases result with
  | ok _ =>
    refine ⟨by rintro ⟨_, ⟨⟩⟩, fun exhausted => ?_⟩
    cases (orderAfter_eq_none.2 exhausted.2).symm.trans ended.2
  | error failure =>
    rcases ended.2.2 with ⟨rfl, unlocked⟩ | ⟨rfl, exhausted⟩
    · refine ⟨by rintro ⟨_, ⟨⟩⟩, fun exhausted => ?_⟩
      cases unlocked.symm.trans exhausted.1
    · exact ⟨fun _ => exhausted, fun _ => ⟨_, rfl⟩⟩

/-- A page that is read anew stays where it is in the order, and leaves it if it cannot be read. -/
theorem permits_reload_order (ticking : db.pool.Ticking) (id : PageId) :
    Op.Permits (reload id) db fun result after => match result with
      | .ok none => after.pool.byRecency = db.pool.byRecency
      | .ok (some _) => after.pool.byRecency = db.pool.byRecency.erase id
      | .error _ => False := by
  -- A page that was read anew is edited where it is, and one that was not is dropped.
  refine (permits_reload_pool id db).mono fun result after reloaded => ?_
  match result, reloaded with
  | .ok none, ⟨page, same⟩ => exact same ▸ (ticking.editResident id fun _ => page).2
  | .ok (some _), same => exact same ▸ (ticking.drop id).2

/-- A page could not be read anew when its turn came. -/
def Unrestored (db : Database) (ids : List PageId) (id : PageId) : Prop :=
  ∃ done rest told middle failure after, ids = done ++ id :: rest ∧ reloadEach done db = .ok told middle
    ∧ Database.reload id middle = .ok (some failure) after

/-- Where no page is gone over, all are restored. -/
theorem not_unrestored_nil : ¬ Unrestored db [] id := by
  rintro ⟨done, rest, _, _, _, _, split, _⟩
  simp at split

/-- Once the first page was gone over, it is not restored if it could not be read, and others as they turn out later. -/
theorem unrestored_cons_iff {middle : Database} {rest : List PageId} {lost : Option Failure} {other : PageId}
    (ran : Database.reload id db = .ok lost middle) :
    Unrestored db (id :: rest) other ↔ other = id ∧ lost ≠ none ∨ Unrestored middle rest other := by
  -- The first page was gone over in either case, so the rest goes on from where that ended.
  have goesOn (ids : List PageId) : reloadEach (id :: ids) db = (do return lost <|> (← reloadEach ids)) middle :=
    Op.bind_of_ok ran _
  constructor
  · rintro ⟨done, later, told, reached, failure, after, split, each, last⟩
    cases done with
    | nil =>
      -- Nothing is gone over before, so the page is the first one.
      obtain ⟨rfl, rfl⟩ := List.cons.inj split
      cases each
      cases ran.symm.trans last
      exact .inl ⟨rfl, by simp⟩
    | cons first done =>
      obtain ⟨rfl, rfl⟩ := List.cons.inj split
      rw [goesOn] at each
      cases inner : reloadEach done middle with
      | error fault state =>
        rw [Op.bind_of_error inner] at each
        cases each
      | ok value state =>
        rw [Op.bind_of_ok inner] at each
        cases each
        exact .inr ⟨done, later, value, reached, failure, after, rfl, inner, last⟩
  · rintro (⟨rfl, gone⟩ | ⟨done, later, told, reached, failure, after, rfl, each, last⟩)
    · obtain ⟨failure, rfl⟩ := Option.ne_none_iff_exists'.1 gone
      exact ⟨[], rest, none, db, failure, middle, rfl, rfl, ran⟩
    · refine ⟨id :: done, later, lost <|> told, reached, failure, after, rfl, ?_, last⟩
      rw [goesOn, Op.bind_of_ok each]
      rfl

/-- Reading pages anew takes those out of the order that could not be read, and tells whether there are any. -/
theorem permits_reloadEach_order (ticking : db.pool.Ticking) (ids : List PageId) :
    Op.Permits (reloadEach ids) db fun result after => ∃ lost, (∀ id, id ∈ lost ↔ db.Unrestored ids id)
      ∧ after.pool.byRecency = db.pool.byRecency.filter (· ∉ lost) ∧ (result = .ok none ↔ lost = []) := by
  -- What was lost so far and what will be among the pages that are left is all that is lost.
  apply ends_reloadEach fun told rest middle => middle.pool.Ticking
    ∧ ∃ lost, (∀ other, db.Unrestored ids other ↔ other ∈ lost ∨ middle.Unrestored rest other)
      ∧ middle.pool.byRecency = db.pool.byRecency.filter (· ∉ lost) ∧ (told = none ↔ lost = [])
  · rintro told id rest middle ⟨ticking, lost, members, order, tells⟩
    refine ((permits_reload_pool id middle).and (.ran (Database.reload id) middle)).mono fun result after ended => ?_
    match result, ended with
    | .ok none, ⟨⟨page, same⟩, ran⟩ =>
      obtain ⟨still, stays⟩ := ticking.editResident id fun _ => page
      rw [← same] at still stays
      refine ⟨still, lost, fun other => ?_, stays.trans order, by simpa using tells⟩
      rw [members, unrestored_cons_iff ran]
      simp
    | .ok (some failure), ⟨same, ran⟩ =>
      obtain ⟨still, less⟩ := ticking.drop id
      rw [← same] at still less
      refine ⟨still, id :: lost, fun other => ?_, ?_, by simp⟩
      · rw [members, unrestored_cons_iff ran, List.mem_cons]
        simp [or_left_comm, or_assoc]
      · rw [less, ticking.nodup_byRecency.erase_eq_filter, order, List.filter_filter]
        refine List.filter_congr fun other _ => ?_
        rw [Bool.eq_iff_iff]
        simp
  · rintro told middle ⟨_, lost, members, order, tells⟩
    refine ⟨lost, fun id => ?_, order, by simpa using tells⟩
    rw [members, or_iff_left not_unrestored_nil]
  · exact ⟨ticking, [], fun other => by simp, by simp, by simp⟩

/-- An abort takes those of its pages out of the order that it cannot read, and fails if there are any. -/
theorem permits_abort_order (ticking : db.pool.Ticking) (transaction : TransactionId) :
    Op.Permits (finish transaction .abort) db fun result after =>
      ∃ lost, (∀ id, id ∈ lost ↔ db.Unrestored (db.pool.changedBy transaction) id)
        ∧ after.pool.byRecency = db.pool.byRecency.filter (· ∉ lost) ∧ (result = .ok () ↔ lost = []) := by
  -- Releasing the locks afterwards does not touch the order.
  have reads : Op.Permits (rollBack transaction) db _ := .get_bind (permits_reloadEach_order ticking _)
  refine reads.bind (fun failure after ended => ?_) fun failure middle ended => ?_
  · obtain ⟨lost, members, order, tells⟩ := ended
    exact ⟨lost, members, order, by simpa using tells⟩
  obtain ⟨lost, members, order, tells⟩ := ended
  refine .run_bind rfl ?_
  cases failure with
  | none => exact .pure ⟨lost, members, order, by simpa using tells⟩
  | some failure => exact .fail ⟨lost, members, order, by simpa using tells⟩

/-- A page cannot be brought into memory for want of room only if it can be read and no page may go for it. -/
theorem Brings.exhausted_iff {result : Except Failure CopyId} (brings : Brings db id result after) :
    (∃ capacity, result = .error (.poolFull capacity))
      ↔ db.pool.isResident id = false
        ∧ ((∃ page, db.Readable id page) ∧ db.Full ∨ ∃ capacity, db.Unreadable id (.poolFull capacity)) := by
  -- Whether the page is there, can be read and finds room is what the ways of bringing it differ in.
  cases brings with
  | hit resident => simp [resident]
  | unread absent fails =>
    refine ⟨?_, ?_⟩
    · rintro ⟨capacity, told⟩
      cases told
      exact ⟨absent, .inr ⟨capacity, _, fails⟩⟩
    · rintro ⟨-, ⟨⟨page, _, found⟩, -⟩ | ⟨capacity, _, failsToo⟩⟩
      · cases fails.symm.trans found
      · cases fails.symm.trans failsToo
        exact ⟨capacity, rfl⟩
  | full absent found reads full => exact ⟨fun _ => ⟨absent, .inl ⟨⟨_, _, found⟩, full⟩⟩, fun _ => ⟨_, rfl⟩⟩
  | loads absent found reads room =>
    refine ⟨by rintro ⟨_, ⟨⟩⟩, ?_⟩
    rintro ⟨-, ⟨-, crowded, -⟩ | ⟨_, _, fails⟩⟩
    · exact absurd room (Nat.not_lt.2 crowded)
    · cases found.symm.trans fails
  | replaces absent found reads crowded stale =>
    refine ⟨by rintro ⟨_, ⟨⟩⟩, ?_⟩
    rintro ⟨-, ⟨-, -, dirty⟩ | ⟨_, _, fails⟩⟩
    · obtain ⟨page, resident, clean⟩ := Pool.stalestClean_eq_some stale
      rw [dirty _ page resident] at clean
      cases clean
    · cases found.symm.trans fails

/-- The pages in memory are as good as a list, from which the page nearest the end that may go makes room. -/
structure FollowsRecency (db : Database) : Prop where
  /-- No page was used after now, and no two at the same time. -/
  ticking : db.pool.Ticking
  members : ∀ id, id ∈ db.pool.byRecency ↔ db.pool.isResident id = true
  ordered : db.pool.byRecency.Pairwise db.pool.UsedAfter
  /-- The page that goes is the one without changes nearest the end, in whatever order the frames are gone through. -/
  stalest : ∀ entries : List (PageId × Frame), entries.Perm db.pool.frames.entries →
    (Pool.stalest (entries.filter fun entry => !entry.2.page.isDirty)).map Prod.fst
      = (db.pool.byRecency.filter db.pool.mayGo).getLast?
  /-- Reading a page of a heap always comes to an end. Only a table of the caller's own may trap instead. -/
  responds : ∀ id heap, db.catalog.heap? id.table = some heap → 0 < (db.storage.view heap.store).pageSize →
    db.Responds id
  bring_gives : ∀ id, db.pool.isResident id = true ∨ db.Responds id →
    ∃ result after, (Database.bring id).Gives db result after
  bring : ∀ id result after, (Database.bring id).Gives db result after → match result with
    | .ok copy => copy.page = id ∧ db.orderAfter id = some after.pool.byRecency
    | .error _ => after.pool.byRecency = db.pool.byRecency
  /-- There is no room for a page if it is needed, all pages have changes and there are as many as may be. -/
  bring_exhausted : ∀ id result after, (Database.bring id).Gives db result after →
    ((∃ capacity, result = .error (.poolFull capacity)) ↔ db.pool.isResident id = false
      -- A table of the caller's own may also say by itself that there is no room.
      ∧ ((∃ page, db.Readable id page) ∧ db.Full ∨ ∃ capacity, db.Unreadable id (.poolFull capacity)))
  readable : ∀ id heap capacity, db.catalog.heap? id.table = some heap → ¬ db.Unreadable id (.poolFull capacity)
  adopt_gives : ∀ asker copy, (db.copy? copy).isSome = true →
    ∃ result after, (Database.adopt asker copy).Gives db result after
  adopt : ∀ asker copy result after, (Database.adopt asker copy).Gives db result after → match result with
    | .ok () => db.orderAfter copy.page = some after.pool.byRecency
    | .error _ => after.pool.byRecency = db.pool.byRecency
  adopt_exhausted : ∀ asker copy result after, (Database.adopt asker copy).Gives db result after →
    ((∃ capacity, result = .error (.poolFull capacity)) ↔ db.locks.isWriter copy.page asker = true
      ∧ db.pool.isResident copy.page = false ∧ db.Full)
  writeBack : ∀ id result after, (Database.writeBack id).Gives db result after →
    after.pool.byRecency = db.pool.byRecency
  writeBackOf : ∀ transaction result after, (Database.writeBackOf transaction).Gives db result after →
    after.pool.byRecency = db.pool.byRecency
  checkpoint : ∀ result after, Database.checkpoint.Gives db result after → after.pool.byRecency = db.pool.byRecency
  commit : ∀ transaction result after, (finish transaction .commit).Gives db result after →
    after.pool.byRecency = db.pool.byRecency
  reload : ∀ id result after, (Database.reload id).Gives db result after → match result with
    | .ok none => after.pool.byRecency = db.pool.byRecency
    | .ok (some _) => after.pool.byRecency = db.pool.byRecency.erase id
    | .error _ => False
  /-- Of the pages that are taken back those leave that could not be read. The abort succeeds if there are none. -/
  abort : ∀ transaction result after, (finish transaction .abort).Gives db result after →
    ∃ lost, (∀ id, id ∈ lost ↔ db.Unrestored (db.pool.changedBy transaction) id)
      ∧ after.pool.byRecency = db.pool.byRecency.filter (· ∉ lost) ∧ (result = .ok () ↔ lost = [])
  discard : ∀ id result after, (Database.discard id).Gives db result after →
    after.pool.byRecency = db.pool.byRecency.erase id

/--
The page that goes for another one is always the one without changes that was used longest ago.

However a database proceeds, over tables of any kind, its pages in memory are a list, the one used last first: a
page that is asked for or whose changes are taken in goes to the front, and if it was not there and there is no
room, the page without changes nearest the end goes. Writing keeps the list, and so does an abort that can read all
it takes back. Only what is discarded or cannot be read again leaves it besides.
-/
theorem follows_recency (proceeds : Proceeds db) : db.FollowsRecency := by
  have ticking := proceeds.ticking
  have keeps {α : Type} {action : Op Database α} (edits : Op.Permits action db fun _ after => db.pool.Edits after.pool)
      (result : Except Failure α) (after : Database) (gives : action.Gives db result after) :
      after.pool.byRecency = db.pool.byRecency := (ticking.edits (edits.of_gives gives)).2
  have drops (id : PageId) : Op.Permits (discard id) db fun _ after =>
    after.pool.byRecency = db.pool.byRecency.erase id := (ticking.drop id).2
  exact {
    ticking
    members := fun _ => Pool.mem_byRecency
    ordered := ticking.pairwise_byRecency
    stalest := fun _ same => ticking.stalest_eq same
    responds := fun _ _ registered positive => responds_of_heap registered positive
    bring_gives := fun id responds => Op.Ensures.answers (ends_bring_exact (.inr responds))
    bring := fun id _ _ gives => (((permits_bring_exact id db).of_gives gives).order ticking).2
    bring_exhausted := fun id _ _ gives => ((permits_bring_exact id db).of_gives gives).exhausted_iff
    readable := fun _ _ capacity registered => not_unreadable_full registered capacity
    adopt_gives := fun asker copy there => Op.Ensures.answers (ends_adopt_order ticking asker copy (.inr there))
    adopt := fun asker copy result _ gives => by
      have ended := ((ends_adopt_order ticking asker copy (.inl trivial)).of_gives gives).2
      cases result with
      | ok _ => exact ended
      | error failure => exact ended.1
    adopt_exhausted := fun asker copy _ _ gives => (permits_adopt_exhausted ticking asker copy).of_gives gives
    writeBack := fun id => keeps (permits_writeBack_edits id db)
    writeBackOf := fun transaction => keeps (permits_writeBackOf_edits transaction db)
    checkpoint := keeps (permits_checkpoint_edits db)
    commit := fun transaction => keeps (permits_commit_edits transaction db)
    reload := fun id _ _ gives => (permits_reload_order ticking id).of_gives gives
    abort := fun transaction _ _ gives => (permits_abort_order ticking transaction).of_gives gives
    discard := fun id _ _ gives => (drops id).of_gives gives }

/-- A database with room for two pages, over a heap of three that are empty. -/
def roomForTwo : Database := overImages ⟨64, 2, Duration.ofMilliseconds 20⟩ (List.replicate 3 (Bytes.zeros 64))

/-- A record was stored on the first page, and the second one was looked at after that. -/
def bothTaken : Database :=
  roomForTwo.afterAll [.insert ⟨1⟩ 1 (.ofValues [.integer 7]), .acquire ⟨2⟩ ⟨1, 1⟩ .reading]

/-- The third page takes the place of the second, since the first was used before it but has changes. -/
theorem follows_recency_bothTaken : Proceeds bothTaken
    ∧ bothTaken.pool.byRecency = [⟨1, 1⟩, ⟨1, 0⟩] ∧ bothTaken.pool.mayGo ⟨1, 0⟩ = false
    ∧ ∃ copy after, bring ⟨1, 2⟩ bothTaken = .ok copy after ∧ after.pool.byRecency = [⟨1, 2⟩, ⟨1, 0⟩] := by
  have fresh : Proceeds roomForTwo := .fresh rfl
  have proceeds : Proceeds bothTaken := fresh.afterAll (by decide +kernel)
  have ran := (bring ⟨1, 2⟩).run_eq_ended bothTaken
  rw [show (bring ⟨1, 2⟩).outcome bothTaken = .ok ⟨⟨1, 2⟩, 2⟩ from by decide +kernel] at ran
  have used := (follows_recency proceeds).bring ⟨1, 2⟩ (.ok ⟨⟨1, 2⟩, 2⟩) _ ran
  have expected : bothTaken.orderAfter ⟨1, 2⟩ = some [⟨1, 2⟩, ⟨1, 0⟩] := by decide +kernel
  refine ⟨proceeds, by decide +kernel, by decide +kernel, _, _, ran, ?_⟩
  exact Option.some.inj (used.2.symm.trans expected)

end Database

end HeapEngine
