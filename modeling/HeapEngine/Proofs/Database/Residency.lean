import HeapEngine.Proofs.Database.Adopting
import HeapEngine.Proofs.Database.Withstands
import HeapEngine.Table.Detached

/-!
No more pages are resident than may be, and no page with changes makes room for another one.

Nothing is asked of the tables but that they read the page that they are asked for and leave to each page its name. One
of the caller's own may give any copies as the ones it changed, also such as are not resident, and fail whenever it
likes.
-/

namespace HeapEngine

namespace Pool

/-- Whether a page is resident with changes that are not written. -/
def isUnwritten (pool : Pool) (id : PageId) : Bool := (pool.page? id).any Page.isDirty

theorem isUnwritten_iff {pool : Pool} {id : PageId} :
    pool.isUnwritten id = true ↔ ∃ page, pool.page? id = some page ∧ page.isDirty = true := by
  simp [isUnwritten, Option.any_eq_true]

end Pool

namespace Database

variable {first db middle after : Database} {id : PageId} {copy : CopyId} {excused : PageId → Prop} {α : Type}

/-- No more pages are resident than the settings allow. -/
def Bounded (db : Database) : Prop := db.pool.residentCount ≤ db.settings.capacity

/-- The pages in memory go by the names that they are found under. -/
def Named (db : Database) : Prop := ∀ id page, db.pool.page? id = some page → page.id = id

/--
The number of resident pages stays bounded, they keep their names, and those with changes stay so if they are not
excused.
-/
structure Retains (excused : PageId → Prop) (before after : Database) : Prop where
  settings : after.settings = before.settings
  bounded : before.Bounded → after.Bounded
  named : before.Named → after.Named
  unwritten : ∀ id, before.pool.isUnwritten id = true → after.pool.isUnwritten id = true ∨ excused id

/-- A page was written in its turn while pages were written one after the other, up to the first that fails. -/
def Written (db : Database) (ids : List PageId) (id : PageId) : Prop :=
  ∃ done rest middle after, ids = done ++ id :: rest ∧ writeBackEach done db = .ok () middle
    ∧ writeBack id middle = .ok true after

/-- What is written after the first page is written in its turn. -/
theorem Written.cons {rest : List PageId} {wrote : Bool} {other : PageId}
    (ran : writeBack id db = .ok wrote middle) (written : Written middle rest other) :
    Written db (id :: rest) other := by
  -- The first page is one more of those that were written before.
  obtain ⟨done, later, before, after, rfl, each, last⟩ := written
  refine ⟨id :: done, later, before, after, rfl, ?_, last⟩
  exact (Op.bind_of_ok ran _).trans each

/-- Where no page is gone over, none is written. -/
theorem not_written_nil : ¬ Written db [] id := by
  rintro ⟨done, rest, middle, after, split, _⟩
  simp at split

/-- Once the first page was gone over, what is written is that page, if it had changes, and what is written later. -/
theorem written_cons_iff {rest : List PageId} {wrote : Bool} {other : PageId}
    (ran : writeBack id db = .ok wrote middle) :
    Written db (id :: rest) other ↔ other = id ∧ wrote = true ∨ Written middle rest other := by
  constructor
  · rintro ⟨done, later, reached, after, split, each, last⟩
    cases done with
    | nil =>
      -- Nothing is gone over before, so the page is the first one.
      obtain ⟨rfl, rfl⟩ := List.cons.inj split
      cases each
      rw [ran] at last
      cases last
      exact .inl ⟨rfl, rfl⟩
    | cons first done =>
      obtain ⟨rfl, rfl⟩ := List.cons.inj split
      rw [writeBackEach, Op.bind_of_ok ran] at each
      exact .inr ⟨done, later, reached, after, rfl, each, last⟩
  · rintro (⟨rfl, rfl⟩ | written)
    · exact ⟨[], rest, db, middle, rfl, rfl, ran⟩
    · exact written.cons ran

/-- If the first page cannot be written, nothing is. -/
theorem not_written_of_error {rest : List PageId} {fault : Fault} {other : PageId}
    (ran : writeBack id db = .error fault middle) : ¬ Written db (id :: rest) other := by
  rintro ⟨done, later, reached, after, split, each, last⟩
  cases done with
  | nil =>
    obtain ⟨rfl, rfl⟩ := List.cons.inj split
    cases each
    rw [ran] at last
    cases last
  | cons first done =>
    obtain ⟨rfl, rfl⟩ := List.cons.inj split
    have stopped : writeBackEach (id :: done) db = .error fault middle := Op.bind_of_error ran _
    rw [stopped] at each
    cases each

namespace Retains

theorem refl (excused : PageId → Prop) (db : Database) : Retains excused db db :=
  ⟨rfl, fun bounded => bounded, fun named => named, fun _ unwritten => .inl unwritten⟩

theorem weaken {others : PageId → Prop} (retains : Retains excused first db)
    (implies : ∀ id, excused id → others id) : Retains others first db :=
  { retains with unwritten := fun id unwritten => (retains.unwritten id unwritten).imp_right (implies id) }

/-- Only the pages in memory and the settings matter. -/
theorem of_eq (retains : Retains excused first db) (settings : after.settings = db.settings)
    (pool : after.pool = db.pool) : Retains excused first after := by
  refine ⟨settings.trans retains.settings, fun bounded => ?_, fun named => ?_, fun id unwritten => ?_⟩
  · rw [Bounded, settings, pool]
    exact retains.bounded bounded
  · rw [Named, pool]
    exact retains.named named
  · rw [pool]
    exact retains.unwritten id unwritten

theorem beyond (retains : Retains excused first db) (beyond : Beyond db after) : Retains excused first after :=
  retains.of_eq beyond.eq.1 beyond.eq.2.2.2

/-- If no page becomes resident and none loses its name or its changes, nothing is lost. -/
theorem withPool (retains : Retains excused first db) {pool : Pool}
    (inside : ∀ id, pool.isResident id = true → db.pool.isResident id = true)
    (names : db.Named → Named { db with pool })
    (kept : ∀ id, db.pool.isUnwritten id = true → pool.isUnwritten id = true ∨ excused id) :
    Retains excused first { db with pool } := by
  refine ⟨retains.settings, fun bounded => ?_, fun named => names (retains.named named), fun id unwritten => ?_⟩
  · exact Nat.le_trans (Pool.residentCount_le inside) (retains.bounded bounded)
  · rcases retains.unwritten id unwritten with still | may
    · exact kept id still
    · exact .inr may

/-- The order of last use and the copies that are not resident do not matter. -/
theorem samePages (retains : Retains excused first db) {pool : Pool}
    (same : ∀ id, pool.page? id = db.pool.page? id) : Retains excused first { db with pool } := by
  refine retains.withPool (fun id resident => ?_) (fun named id page there => ?_) fun id unwritten => .inl ?_
  · rwa [Pool.isResident_eq, same, ← Pool.isResident_eq] at resident
  · exact named id page (same id ▸ there)
  · rwa [Pool.isUnwritten, same, ← Pool.isUnwritten]

theorem touch (retains : Retains excused first db) (id : PageId) :
    Retains excused first { db with pool := (db.pool.touch id).2 } :=
  retains.samePages (Pool.touch_eq db.pool id).1

/-- A page may be changed while it keeps its name, and its changes stay to be written or it is excused. -/
theorem editResident (retains : Retains excused first db) {change : Page → Page}
    (names : ∀ page, db.pool.page? id = some page → page.id = id → (change page).id = id)
    (keeps : ∀ page, db.pool.page? id = some page → page.isDirty = true → (change page).isDirty = true ∨ excused id) :
    Retains excused first { db with pool := db.pool.editResident id change } := by
  -- The same pages are resident, and only this one can have lost its changes.
  refine retains.withPool (fun other resident => ?_) (fun named other page there => ?_) fun other unwritten => ?_
  · rwa [Pool.isResident_editResident] at resident
  · rw [Pool.page?_editResident] at there
    split at there
    · rename_i here
      obtain ⟨old, resident, rfl⟩ := Option.map_eq_some_iff.1 there
      exact here ▸ names old resident (named id old resident)
    · exact named other page there
  · rw [Pool.isUnwritten, Pool.page?_editResident]
    split
    · rename_i here
      obtain ⟨page, resident, dirty⟩ := Pool.isUnwritten_iff.1 (here ▸ unwritten)
      rw [resident]
      exact here ▸ keeps page resident dirty
    · exact .inl unwritten

/-- Any copy may be changed, resident or not. -/
theorem edit (retains : Retains excused first db) {change : Page → Page}
    (names : ∀ page, db.copy? copy = some page → (change page).id = page.id)
    (keeps : ∀ page, page.isDirty = true → (change page).isDirty = true) :
    Retains excused first { db with pool := db.pool.edit copy change } := by
  cases current : db.pool.isCurrent copy with
  | true =>
    rw [Pool.edit_of_current current]
    apply retains.editResident
    · exact fun page resident named => (names page ((Pool.copy?_of_current current).trans resident)).trans named
    · exact fun page _ dirty => .inl (keeps page dirty)
  | false => exact retains.samePages (Pool.page?_edit_of_stray current change)

/-- A page without changes may be dropped, and so may one that is excused. -/
theorem drop (retains : Retains excused first db) (may : db.pool.isUnwritten id = true → excused id) :
    Retains excused first { db with pool := db.pool.drop id } := by
  refine retains.withPool (fun other resident => ?_) (fun named other page there => ?_) fun other unwritten => ?_
  · rw [Pool.isResident_eq, Pool.page?_drop] at resident
    rw [Pool.isResident_eq]
    split at resident
    · cases resident
    · exact resident
  · rw [Pool.page?_drop] at there
    split at there
    · cases there
    · exact named other page there
  · by_cases here : other = id
    · exact .inr (here ▸ may (here ▸ unwritten))
    · rw [Pool.isUnwritten, Pool.page?_drop, if_neg here]
      exact .inl unwritten

/-- A page may be made resident under its name where there is room, unless it takes the place of changes. -/
theorem install (retains : Retains excused first db) {pool : Pool} {page : Page}
    (room : first.Bounded → pool.residentCount ≤ db.settings.capacity)
    (pages : ∀ other, pool.page? other = if other = id then some page else db.pool.page? other)
    (name : page.id = id) (dirty : db.pool.isUnwritten id = true → page.isDirty = true) :
    Retains excused first { db with pool } := by
  refine ⟨retains.settings, room, fun named other held there => ?_, fun other unwritten => ?_⟩
  · rw [pages] at there
    split at there
    · rename_i here
      cases there
      exact here ▸ name
    · exact retains.named named other held there
  · -- What there was under another name is there still.
    refine (retains.unwritten other unwritten).imp_left fun still => ?_
    rw [Pool.isUnwritten, pages]
    split
    · rename_i here
      exact dirty (here ▸ still)
    · exact still

/-- A changed copy may be made the resident one of its page, where there is room if there was none. -/
theorem seat (retains : Retains excused first db) {page : Page} (name : page.id = copy.page)
    (dirty : page.isDirty = true)
    (room : db.pool.isResident copy.page = false → first.Bounded → db.pool.residentCount < db.settings.capacity) :
    Retains excused first { db with pool := db.pool.seat copy page } := by
  refine retains.install (fun bounded => ?_) (db.pool.page?_seat copy page) name fun _ => dirty
  cases resident : db.pool.isResident copy.page with
  | false => exact Nat.le_trans (Pool.residentCount_seat_le _ _ _) (room resident bounded)
  | true =>
    -- The copy takes the place of another one, so no page becomes resident.
    refine Nat.le_trans (Pool.residentCount_le fun other there => ?_) (retains.bounded bounded)
    rw [Pool.isResident_eq, Pool.page?_seat] at there
    split at there
    · rename_i here
      exact here ▸ resident
    · rwa [Pool.isResident_eq]

/-- A page without changes leaves room behind. -/
theorem dropClean (retains : Retains excused first db) {page : Page} (resident : db.pool.page? id = some page)
    (clean : page.isDirty = false) : Retains excused first { db with pool := db.pool.drop id }
      ∧ (first.Bounded → (db.pool.drop id).residentCount < db.settings.capacity) := by
  refine ⟨retains.drop fun unwritten => ?_, fun bounded => ?_⟩
  · obtain ⟨_, same, dirty⟩ := Pool.isUnwritten_iff.1 unwritten
    cases resident.symm.trans same
    rw [clean] at dirty
    cases dirty
  · refine Nat.lt_of_lt_of_le (Pool.residentCount_drop_lt ?_) (retains.bounded bounded)
    rw [Pool.isResident_eq, resident]
    rfl

/-- Making room drops a page without changes at most, and then there is room. -/
theorem makeRoom (retains : Retains excused first db) :
    Op.Permits makeRoom db fun result after => Retains excused first after
      ∧ (∀ id, db.pool.page? id = none → after.pool.page? id = none)
      ∧ (result = .ok () → first.Bounded → after.pool.residentCount < after.settings.capacity) := by
  refine (ensures_makeRoom_rooms db).permits.mono fun result after rooms => ?_
  cases rooms with
  | there room => exact ⟨retains, fun _ absent => absent, fun _ _ => room⟩
  | full failure => exact ⟨retains, fun _ absent => absent, by simp⟩
  | @drop id page resident clean =>
    obtain ⟨kept, room⟩ := retains.dropClean resident clean
    exact ⟨kept, fun other absent => by rw [Pool.page?_drop, absent, ite_self], fun _ => room⟩

/-- A page is brought in only where there is room for it. -/
theorem bring (retains : Retains excused first db) (id : PageId) :
    Op.Permits (bring id) db fun _ after => Retains excused first after := by
  have touched := retains.touch id
  obtain ⟨same, -, answer⟩ := Pool.touch_eq db.pool id
  refine .onPool_bind ?_
  cases asked : (db.pool.touch id).1 with
  | some copy => exact .pure touched
  | none =>
    rw [asked] at answer
    refine (permits_tableAt id.table _).bind (fun _ _ found => found.1 ▸ touched) ?_
    rintro table _ ⟨rfl, -⟩
    refine ((permits_readStored table id _).and (permits_readStored_id table id _)).bind
      (fun _ _ ended => touched.beyond ended.1) ?_
    intro page read ended
    obtain ⟨beyond, name⟩ := ended
    refine (touched.beyond beyond).makeRoom.bind (fun _ _ ended => ended.1) fun _ roomy ended => ?_
    obtain ⟨kept, gone, room⟩ := ended
    -- The page was not there, and making room has not brought it.
    have absent : roomy.pool.page? id = none := by
      refine gone id ?_
      rw [beyond.eq.2.2.2]
      exact (same id).trans answer
    refine .onPool (kept.install (fun bounded => ?_) (roomy.pool.load_eq id page).1
      (name page rfl) fun unwritten => ?_)
    · exact Nat.le_trans (Pool.residentCount_seat_le _ _ _) (room rfl bounded)
    · rw [Pool.isUnwritten, absent] at unwritten
      cases unwritten

/-- Whatever copy is adopted, no changes are lost. Where it needs room it takes the place of no changes. -/
theorem adopt (retains : Retains excused first db) (asker : TransactionId) (copy : CopyId) :
    Op.Permits (adopt asker copy) db fun _ after => Retains excused first after := by
  refine (ends_adopt_exact asker copy (.inl trivial)).mono fun result after adopts => ?_
  -- The copy is marked first, wherever it is, so what becomes resident later has changes.
  have marked {page : Page} (held : db.copy? copy = some page) :
      Retains excused first { db with pool := db.withMark asker copy page } := by
    apply retains.edit
    · intro other there
      cases held.symm.trans there
      rfl
    · exact fun _ _ => rfl
  -- If it has to be seated, it goes where its page belongs.
  have name {page : Page} (stray : db.pool.isCurrent copy = false) (held : db.copy? copy = some page) :
      (page.markChanged asker).id = copy.page := by
    show page.id = copy.page
    exact Pool.id_of_copy? stray held
  cases adopts with
  | unlocked => exact retains
  | current _ held _ => exact (marked held).touch copy.page
  | full _ held => exact marked held
  | @displaces page _ held stray resident =>
    refine (marked held).seat (name stray held) rfl fun gone => ?_
    -- The page was resident before its copy was marked, so it still is.
    rw [withMark, Pool.isResident_edit, resident] at gone
    cases gone
  | @settles page _ held stray _ room =>
    refine (marked held).seat (name stray held) rfl fun _ _ => ?_
    rwa [Pool.residentCount, withMark, Pool.frames_edit_of_stray stray]
  | @replaces page victim _ held stray _ _ stale =>
    obtain ⟨old, resident, clean⟩ := Pool.stalestClean_eq_some stale
    have found : (db.withMark asker copy page).page? victim = some old := by
      rw [withMark, Pool.page?_edit_of_stray stray, resident]
    obtain ⟨kept, room⟩ := (marked held).dropClean found clean
    exact kept.seat (name stray held) rfl fun _ => room

/-- Whatever tables do, no changes are lost while pages are asked for, changed and adopted. -/
theorem withstands (excused : PageId → Prop) (first : Database) : Withstands (Retains excused first) where
  same := of_eq
  touch := touch
  bring := bring
  newCopy kept _ := kept.samePages fun _ => rfl
  edit kept _ _ names keeps := kept.edit (fun page _ => names page) keeps
  replace kept resident names keeps := by
    apply kept.editResident
    · intro page there name
      cases resident.symm.trans there
      exact names.trans name
    · intro page there dirty
      cases resident.symm.trans there
      exact .inl (keeps dirty)
  adopt := adopt

/-- Only a page that is written loses its changes, and it stays resident. -/
theorem writeBack (retains : Retains excused first db) (id : PageId) :
    Op.Permits (writeBack id) db fun result after =>
      Retains (fun other => excused other ∨ (other = id ∧ result = .ok true)) first after := by
  -- Until the table has accepted the page, nothing is lost.
  have kept (result : Except Failure Bool) :
      Retains (fun other => excused other ∨ (other = id ∧ result = .ok true)) first db :=
    retains.weaken fun _ may => .inl may
  unfold Database.writeBack
  refine .get_bind ?_
  cases db.pool.page? id with
  | none => exact .pure (kept _)
  | some page =>
    refine .ite (fun _ => .pure (kept _)) fun _ => ?_
    refine (permits_tableAt id.table db).bind (fun _ _ found => found.1 ▸ kept _) ?_
    rintro table _ ⟨rfl, -⟩
    refine (permits_writeStored id.table table page _).bind (fun _ _ beyond => (kept _).beyond beyond) ?_
    intro _ written beyond
    have stored := (kept (.ok true)).beyond beyond
    -- The page loses its mark and stays the page that it is.
    exact .onPool_bind (.pure (stored.editResident (fun _ _ name => name) fun _ _ _ => .inr (.inr ⟨rfl, rfl⟩)))

/-- The first of several pages is written, and what is excused of the others stays so. -/
theorem writeBackFirst {rest : List PageId} (retains : Retains excused first db)
    (may : ∀ other, Written db (id :: rest) other → excused other) :
    Op.Permits (Database.writeBack id) db fun result after => match result with
      | .ok _ => Retains excused first after ∧ ∀ other, Written after rest other → excused other
      | .error _ => Retains excused first after := by
  refine ((retains.writeBack id).and (.told (Database.writeBack id) db)).mono fun result after ended => ?_
  obtain ⟨kept, ran⟩ := ended
  have still : Retains excused first after := by
    refine kept.weaken fun other excuse => ?_
    -- A page that loses its changes here is the first to be written.
    rcases excuse with before | ⟨rfl, told⟩
    · exact before
    · exact may other ⟨[], rest, db, after, rfl, rfl, ran true told⟩
  cases result with
  | ok wrote => exact ⟨still, fun other written => may other (written.cons (ran wrote rfl))⟩
  | error failure => exact still

theorem writeBackEach {ids : List PageId} (retains : Retains excused first db)
    (may : ∀ id, Written db ids id → excused id) :
    Op.Permits (writeBackEach ids) db fun _ after => Retains excused first after := by
  apply ends_writeBackEach fun rest db => Retains excused first db ∧ ∀ id, Written db rest id → excused id
  · exact fun id rest db left => left.1.writeBackFirst left.2
  · exact fun db left => left.1
  · exact ⟨retains, may⟩

theorem writeBackNoting {ids : List PageId} (retains : Retains excused first db) (tables : List Nat)
    (may : ∀ id, Written db ids id → excused id) :
    Op.Permits (writeBackNoting tables ids) db fun _ after => Retains excused first after := by
  apply ends_writeBackNoting fun rest db => Retains excused first db ∧ ∀ id, Written db rest id → excused id
  · exact fun id rest db left => left.1.writeBackFirst left.2
  · exact fun tables db left => left.1
  · exact ⟨retains, may⟩

theorem syncEach (retains : Retains excused first db) (numbers : List Nat) :
    Op.Permits (syncEach numbers) db fun _ after => Retains excused first after :=
  preserves_syncEach (fun number _ db retains => (permits_syncAt number db).mono fun _ _ => retains.beyond) db retains

/-- A page that is read anew loses its changes, whether it can be read or not. -/
theorem reload (retains : Retains excused first db) (may : excused id) :
    Op.Permits (reload id) db fun _ after => Retains excused first after := by
  have reads : Op.Permits (do readStored (← tableAt id.table) id) db fun result after =>
      Retains excused first after ∧ ∀ page, result = .ok page → page.id = id := by
    refine (permits_tableAt id.table db).bind (fun _ _ found => found.1 ▸ ⟨retains, nofun⟩) ?_
    rintro table _ ⟨rfl, -⟩
    refine ((permits_readStored table id _).and (permits_readStored_id table id _)).mono fun _ _ ended => ?_
    exact ⟨retains.beyond ended.1, ended.2⟩
  refine .attempt_bind reads fun answer after ended => ?_
  obtain ⟨kept, name⟩ := ended
  -- The page is replaced if it can be read, and else it is dropped.
  cases answer with
  | ok page =>
    have fresh : Retains excused first { after with pool := after.pool.editResident id fun _ => page } :=
      kept.editResident (fun _ _ _ => name page rfl) fun _ _ _ => .inr may
    exact .onPool_bind (.pure fresh)
  | error failure => exact .onPool_bind (.pure (kept.drop fun _ => may))

theorem reloadEach {ids : List PageId} (retains : Retains excused first db) (may : ∀ id ∈ ids, excused id) :
    Op.Permits (reloadEach ids) db fun _ after => Retains excused first after :=
  preserves_reloadEach (fun id member _ retains => retains.reload (may id member)) db retains

end Retains

end Database

/--
Whether a command may take the changes of a page away: the page is discarded, or its transaction is aborted,
or it is written.
-/
def Command.Excuses (db : Database) (id : PageId) : Command → Prop
  | discard page => id = page
  | finish transaction .abort => ∃ page, db.pool.page? id = some page ∧ page.changedBy = some transaction
  | finish transaction .commit | writeBackOf transaction => db.Written (db.pool.changedBy transaction) id
  | writeBack page => db.Written [page] id
  | checkpoint => db.Written db.pool.frames.keys id
  | _ => False

namespace Database

variable {db after : Database}

/-- Every command keeps to the number of resident pages, and takes only changes away that it may. -/
theorem permits_perform_retains (db : Database) (command : Command) :
    Op.Permits command.perform db fun _ after => Retains (fun id => command.Excuses db id) db after := by
  have start := Retains.refl (fun id => command.Excuses db id) db
  -- Writing excuses what is written and an abort what is taken back. All else loses no changes.
  cases command with
  | finish transaction ending =>
    cases ending with
    | commit =>
      have writes : Op.Permits (writeBackOf transaction) db fun _ after => Retains _ db after :=
        .get_bind (start.writeBackEach fun _ written => written)
      refine .reply (writes.andThen fun _ _ kept => ?_)
      exact .run_bind rfl (.pure (kept.of_eq rfl rfl))
    | abort =>
      have reads : Op.Permits (rollBack transaction) db fun _ after => Retains _ db after :=
        .get_bind (start.reloadEach fun _ member => Pool.mem_changedBy.1 member)
      refine .reply (reads.andThen fun failure middle kept => ?_)
      have released : Retains _ db { middle with locks := (middle.locks.releaseAll transaction).2 } :=
        kept.of_eq rfl rfl
      refine .run_bind rfl ?_
      cases failure with
      | none => exact .pure released
      | some failure => exact .fail released
  | writeBack page =>
    have kept : Op.Permits (writeBack page) db fun _ after =>
        Retains (Command.Excuses db · (.writeBack page)) db after := by
      have first := start.writeBackFirst fun other (written : Written db [page] other) => written
      refine first.mono fun result _ ended => ?_
      cases result with
      | ok _ => exact ended.1
      | error _ => exact ended
    exact kept.reply
  | writeBackOf transaction => exact .reply (.get_bind (start.writeBackEach fun _ written => written))
  | checkpoint =>
    refine .reply (.get_bind ((start.writeBackNoting [] fun _ written => written).andThen ?_))
    exact fun written _ kept => kept.syncEach written
  | discard page =>
    have drops : Op.Permits (discard page) db fun _ after => Retains _ db after := start.drop fun _ => rfl
    exact drops.reply
  | _ => exact (Retains.withstands _ db).perform start _ rfl

/--
The databases that arise when nothing was in memory to begin with, over tables of any kind.

Between two commands callers may do anything that makes no page resident, none leave and none another one: change the
copies that they were given, register tables, write to files, ask for locks.
-/
inductive Operates : Database → Prop
  | fresh {db : Database} (nothing : db.pool = .empty) : Operates db
  | serve {db after : Database} {command : Command} {result : Except Failure Reply} (operates : Operates db)
      (served : db.serve command = .ok (result, after)) : Operates after
  | meanwhile {db after : Database} (operates : Operates db) (settings : after.settings = db.settings)
      (same : ∀ id, after.pool.isResident id = db.pool.isResident id) (named : after.Named) : Operates after

/-- However a database is operated, no more pages are resident than may be. -/
theorem Operates.bounded (operates : Operates db) : db.Bounded := by
  -- One command keeps the bound, also if it fails, and what callers do makes no page resident.
  induction operates with
  | fresh nothing =>
    rw [Bounded, nothing]
    exact Nat.zero_le _
  | serve _ served ih => exact (run_permits (permits_perform_retains _ _) served).bounded ih
  | meanwhile _ settings same _ ih =>
    rw [Bounded, settings]
    exact Nat.le_trans (Pool.residentCount_le fun id there => same id ▸ there) ih

/-- However a database is operated, the pages in memory go by the names that they are found under. -/
theorem Operates.named (operates : Operates db) : db.Named := by
  -- A page is read under its name, and whatever is done to it afterwards it stays that page.
  induction operates with
  | fresh nothing =>
    intro id page there
    rw [nothing] at there
    cases there
  | serve _ served ih => exact (run_permits (permits_perform_retains _ _) served).named ih
  | meanwhile _ _ _ named _ => exact named

/-- A copy is one of the page that it holds. -/
theorem Named.id_of_copy? (named : db.Named) {copy : CopyId} {page : Page} (held : db.copy? copy = some page) :
    page.id = copy.page := by
  cases current : db.pool.isCurrent copy with
  | true =>
    rw [Database.copy?, Pool.copy?_of_current current] at held
    exact named copy.page page held
  | false => exact Pool.id_of_copy? current held

/--
No more pages are resident than may be, and no page with changes is stolen.

However a database is operated, over tables of any kind, so it is after each command that is answered, also with
a failure: a page that was resident with changes still is, but if it was discarded, taken back for its own
transaction, or written. Every copy, resident or not, is one of the page that it holds, so no page is resident under
two names.
-/
theorem no_page_stolen (operates : Operates db) :
    db.pool.residentCount ≤ db.settings.capacity
    ∧ (∀ copy page, db.copy? copy = some page → page.id = copy.page)
    ∧ ∀ command result after, db.serve command = .ok (result, after) →
      after.settings = db.settings ∧ after.pool.residentCount ≤ after.settings.capacity
      ∧ ∀ id, db.pool.isUnwritten id = true → after.pool.isUnwritten id = true ∨ command.Excuses db id := by
  refine ⟨operates.bounded, fun copy page held => operates.named.id_of_copy? held, ?_⟩
  intro command result after served
  have retains := run_permits (permits_perform_retains db command) served
  exact ⟨retains.settings, retains.bounded operates.bounded, retains.unwritten⟩

/-- A database with room for one page, over a table that stores each record on two. -/
def cramped : Database where
  settings := ⟨64, 1, Duration.ofMilliseconds 20⟩
  catalog := (Catalog.empty 64).bind "pairs" 1 (.custom (.detached 64 2 [0, 1] (some .exclusive) 1))
  storage := .empty ""
  locks := .empty
  pool := .empty
  calls := .empty

/-- A record for two pages was stored where there is room for one. -/
def overfilled : Database := cramped.after (Command.insert ⟨1⟩ 1 (.ofValues [.integer 7])).perform

/-- The first page went in and the second did not, and nobody who asks for the second one gets the first out. -/
theorem no_page_stolen_overfilled : Operates overfilled
    ∧ cramped.serve (.insert ⟨1⟩ 1 (.ofValues [.integer 7])) = .ok (.error (.poolFull 1), overfilled)
    ∧ overfilled.pool.isUnwritten ⟨1, 0⟩ = true
    ∧ ∃ after, overfilled.serve (.acquire ⟨2⟩ ⟨1, 1⟩ .reading) = .ok (.error (.poolFull 1), after)
      ∧ after.pool.residentCount ≤ after.settings.capacity ∧ after.pool.isUnwritten ⟨1, 0⟩ = true := by
  have refused : cramped.answer? (Command.insert ⟨1⟩ 1 (.ofValues [.integer 7])).perform
      = some (.error (.poolFull 1)) := by decide +kernel
  have stored : cramped.serve (.insert ⟨1⟩ 1 (.ofValues [.integer 7])) = .ok (.error (.poolFull 1), overfilled) :=
    run_eq refused
  have operates : Operates overfilled := .serve (.fresh rfl) stored
  have unwritten : overfilled.pool.isUnwritten ⟨1, 0⟩ = true := by decide +kernel
  have refusedToo : overfilled.answer? (Command.acquire ⟨2⟩ ⟨1, 1⟩ .reading).perform
      = some (.error (.poolFull 1)) := by decide +kernel
  have asked : overfilled.serve (.acquire ⟨2⟩ ⟨1, 1⟩ .reading) = .ok (.error (.poolFull 1), _) := run_eq refusedToo
  obtain ⟨_, bounded, kept⟩ := (no_page_stolen operates).2.2 _ _ _ asked
  refine ⟨operates, stored, unwritten, _, asked, bounded, (kept _ unwritten).resolve_right ?_⟩
  -- Asking for a page excuses nothing.
  exact fun excused => excused

end Database

end HeapEngine
