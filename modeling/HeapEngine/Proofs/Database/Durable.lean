import HeapEngine.Proofs.Database.Steps.Commands

/-!
A commit writes all that its transaction changed, or stops at the first page that cannot be written.

The stores may come to refuse pages at any time, also between two pages that are written.
-/

namespace HeapEngine

namespace Database

variable {db before middle after : Database} {id : PageId}

/-- Lets the store of a page refuse to be written from now on, or not. Files cannot be told to. -/
def setRefusing (id : PageId) (refuses : Bool) : Op Database Unit := fun db =>
  match db.catalog.heap? id.table with
  | some ⟨_, .memory number⟩ => onStorage (Storage.onArray number (modify fun store =>
      store.setFailing store.readsFail refuses)) db
  | _ => .ok () db

/-- Writes a page if it has changes, where it is given which pages the stores refuse. -/
def writeBackUnder (refuses : PageId → Bool) (id : PageId) : Op Database Bool := do
  setRefusing id (refuses id)
  writeBack id

/-- Writes pages in turn, up to the first that fails, where it is given which ones the stores refuse. -/
def writeBackEachUnder (refuses : PageId → Bool) : List PageId → Op Database Unit
  | [] => pure ()
  | id :: rest => do
    let _ ← writeBackUnder refuses id
    writeBackEachUnder refuses rest

/--
Commits a transaction, where it is given which pages the stores refuse.

Only what the stores refuse is given: the pages are written and the locks are released as in any commit.
-/
def commitUnder (refuses : PageId → Bool) (transaction : TransactionId) : Op Database Unit := do
  writeBackEachUnder refuses ((← get).pool.changedBy transaction)
  let _ ← releaseLocks transaction

/-- Whether the store of a page was told to refuse to be written. -/
def refuses (db : Database) (id : PageId) : Bool := (db.standing.shown id.table).writesFail

/-- Why a page cannot be written, if it cannot. -/
def refusal? (refuses : PageId → Bool) (db : Database) (id : PageId) : Option Failure :=
  match db.catalog.heap? id.table with
  | none => some (.noTable id.table)
  | some ⟨_, .memory _⟩ => if refuses id then some (.storage .injectedWrite) else none
  | some ⟨_, .file _ _⟩ => none

/-- A page in memory has no mark any more, holds what it held, and is stored as its image. -/
def Durable (before after : Database) (id : PageId) : Prop :=
  ∃ page image, before.pool.page? id = some page ∧ after.pool.page? id = some page.markWritten
    ∧ page.markWritten.image = .ok image ∧ after.standing.image? id = some image

/-- A page is what it was, in memory and stored. -/
def Untouched (before after : Database) (id : PageId) : Prop :=
  after.pool.page? id = before.pool.page? id ∧ after.standing.image? id = before.standing.image? id

/-- What the commit of a transaction comes to. -/
structure Commits (refuses : PageId → Bool) (transaction : TransactionId) (before : Database)
    (result : Except Failure Unit) (after : Database) : Prop where
  /-- If no page is refused, all are written, and the transaction holds no lock. -/
  succeeds : (∀ id ∈ before.pool.changedBy transaction, refusal? refuses before id = none) →
    result = .ok () ∧ (∀ id ∈ before.pool.changedBy transaction, Durable before after id)
      ∧ ∀ id, after.locks.holds id transaction = false
  /-- The first page that is refused and those after it go on as they were, and so do all locks. -/
  stops : ∀ done first rest failure, before.pool.changedBy transaction = done ++ first :: rest →
    (∀ id ∈ done, refusal? refuses before id = none) → refusal? refuses before first = some failure →
    result = .error failure ∧ (∀ id ∈ done, Durable before after id)
      ∧ (∀ id ∈ first :: rest, Untouched before after id
        ∧ ∃ page, after.pool.page? id = some page ∧ page.changedBy = some transaction)
      ∧ after.locks = before.locks
  outside : ∀ id, id ∉ before.pool.changedBy transaction → Untouched before after id
  /-- Nor does a store change that no heap is over. -/
  apart : ∀ store, (∀ number heap, before.catalog.heap? number = some heap → heap.store.Apart store) →
    after.storage.view store = before.storage.view store
  others : ∀ id holder, holder ≠ transaction →
    after.locks.isReader id holder = before.locks.isReader id holder
      ∧ after.locks.isWriter id holder = before.locks.isWriter id holder

/-- Some pages that had changes are written, and nothing else can be told from before but what is refused. -/
structure WritesBack (done : List PageId) (before after : Database) : Prop where
  intact : after.Intact
  catalog : after.catalog = before.catalog
  locks : after.locks = before.locks
  written : ∀ id ∈ done, Durable before after id
  kept : ∀ id, id ∉ done → Untouched before after id
  apart : ∀ store, (∀ number heap, before.catalog.heap? number = some heap → heap.store.Apart store) →
    after.storage.view store = before.storage.view store

namespace WritesBack

/-- Pages that are written after others are other pages. -/
theorem append {first second : List PageId} (one : WritesBack first before middle)
    (two : WritesBack second middle after) (different : ∀ id ∈ second, id ∉ first) :
    WritesBack (first ++ second) before after where
  intact := two.intact
  catalog := two.catalog.trans one.catalog
  locks := two.locks.trans one.locks
  written id member := by
    -- Pages that were written later were not touched by what was written first, so they are what they were.
    by_cases later : id ∈ second
    · obtain ⟨page, image, resident, written⟩ := two.written id later
      rw [(one.kept id (different id later)).1] at resident
      exact ⟨page, image, resident, written⟩
    · have earlier : id ∈ first := (List.mem_append.1 member).resolve_right later
      obtain ⟨page, image, resident, clean, encoded, stored⟩ := one.written id earlier
      -- What was written first is left alone afterwards.
      obtain ⟨still, there⟩ := two.kept id later
      exact ⟨page, image, resident, still.trans clean, encoded, there.trans stored⟩
  kept id outside := by
    rw [List.mem_append, not_or] at outside
    obtain ⟨held, shown⟩ := one.kept id outside.1
    obtain ⟨still, there⟩ := two.kept id outside.2
    exact ⟨still.trans held, there.trans shown⟩
  apart store apart := by
    rw [two.apart store fun number heap known => apart number heap (one.catalog ▸ known)]
    exact one.apart store apart

/-- A store may show other flags for what it refuses. -/
theorem of_storage (intact : before.Intact) {number : Nat} {heap : Heap} {view : StoreView}
    {storage : Storage} (registered : before.catalog.heap? number = some heap)
    (shows : Storage.Shows before.storage heap.store view storage)
    (size : view.pageSize = (before.storage.view heap.store).pageSize)
    (images : view.images = (before.storage.view heap.store).images) :
    WritesBack [] before { before with storage } where
  intact := intact.withFlags registered shows size images
  catalog := rfl
  locks := rfl
  written := by simp
  kept id _ := by
    refine ⟨rfl, ?_⟩
    rw [Standing.image?, standing_withStorage intact.orderly registered shows]
    simp only [Standing.withShown, Standing.image?]
    -- The one store shows other flags and the same images, and other stores show the same.
    by_cases here : id.table = number
    · rw [if_pos here, here, shown_eq registered, images]
    · rw [if_neg here]
  apart store apart := shows.apart store (apart number heap registered)

end WritesBack

namespace Intact

variable (intact : db.Intact)

include intact

/-- Nothing is written yet. -/
theorem writesBack : WritesBack [] db db where
  intact := intact
  catalog := rfl
  locks := rfl
  written := by simp
  kept _ _ := ⟨rfl, rfl⟩
  apart _ _ := rfl

/-- A store that is told what to refuse shows the same images, and refuses that. -/
theorem ensures_setRefusing (refuses : PageId → Bool) (id : PageId) :
    Op.Ensures (setRefusing id (refuses id)) db fun result after => result = .ok ()
      ∧ WritesBack [] db after ∧ ∀ heap, db.catalog.heap? id.table = some heap →
        refusal? refuses db id = if (after.storage.view heap.store).writesFail then
          some (.storage .injectedWrite) else none := by
  unfold Op.Ensures Op.Ends setRefusing refusal?
  -- Only a store in memory can be told to fail. What is not registered is refused for that.
  cases registered : db.catalog.heap? id.table with
  | none => exact ⟨rfl, intact.writesBack, by simp⟩
  | some heap =>
    obtain ⟨number, store⟩ := heap
    cases store with
    | memory number =>
      refine ⟨rfl, ?_, fun heap found => ?_⟩
      · exact .of_storage intact registered (.setArray rfl) rfl rfl
      · cases found
        rw [Storage.view_setArray, if_pos rfl]
        rfl
    | file name pageSize =>
      refine ⟨rfl, intact.writesBack, fun heap found => ?_⟩
      cases found
      rfl

/-- A page whose store accepts it is stored, and one that is refused stays. -/
theorem writesBack_of_writing {page : Page} {result : Except Failure Bool} (resident : db.pool.page? id = some page)
    (dirty : page.isDirty = true) (writing : Writing db id result after) :
    match result with
    | .ok _ => WritesBack [id] db after ∧ ∃ heap, db.catalog.heap? id.table = some heap
        ∧ (db.storage.view heap.store).writesFail = false
    | .error failure => WritesBack [] db after ∧ (db.catalog.heap? id.table = none ∧ failure = .noTable id.table
        ∨ ∃ heap, db.catalog.heap? id.table = some heap ∧ (db.storage.view heap.store).writesFail = true
          ∧ failure = .storage .injectedWrite) := by
  cases writing with
  | clean clean =>
    rw [clean page resident] at dirty
    cases dirty
  | missing _ _ missing => exact ⟨intact.writesBack, .inl ⟨missing, rfl⟩⟩
  | refused _ _ registered refuses shows =>
    exact ⟨.of_storage intact registered shows rfl rfl, .inr ⟨_, registered, refuses, rfl⟩⟩
  | @written held heap image storage found _ registered accepts encoded shows =>
    rw [resident] at found
    cases found
    refine ⟨?_, heap, registered, accepts⟩
    have step : Step db { db with storage, pool := db.pool.editResident id Page.markWritten } :=
      .write resident registered encoded shows
    have stands := standing_writeBack intact.orderly resident registered shows
    -- The image goes to the place of the page, and the other images are what they were.
    refine ⟨step.intact intact, rfl, rfl, ?_, ?_, ?_⟩
    · intro other member
      cases List.mem_singleton.1 member
      obtain ⟨old, stored⟩ := (intact.kept id page resident).stored heap registered
      refine ⟨page, image, resident, ?_, encoded, stands ▸ Standing.image?_written_self stored⟩
      rw [Pool.page?_editResident, if_pos rfl, resident]
      rfl
    · intro other outside
      have different : other ≠ id := by simpa using outside
      refine ⟨?_, stands ▸ Standing.image?_written_other different⟩
      rw [Pool.page?_editResident, if_neg different]
    · exact fun store apart => shows.apart store (apart _ heap registered)

/-- One page is written, or refused as it is given. -/
theorem ensures_writeBackUnder (refuses : PageId → Bool) {page : Page}
    (resident : db.pool.page? id = some page) (dirty : page.isDirty = true) :
    Op.Ensures (writeBackUnder refuses id) db fun result after =>
      match result with
      | .ok _ => WritesBack [id] db after ∧ refusal? refuses db id = none
      | .error failure => WritesBack [] db after ∧ refusal? refuses db id = some failure := by
  refine (intact.ensures_setRefusing refuses id).bind (fun _ _ ended => by cases ended.1) ?_
  intro _ told ended
  obtain ⟨_, same, obeys⟩ := ended
  -- Telling the store what to refuse touches no page, so the page is still there with its changes.
  have held : told.pool.page? id = some page := (same.kept id (by simp)).1.trans resident
  refine (same.intact.housed.ensures_writeBack id).mono ?_
  intro result after writing
  have writes := same.intact.writesBack_of_writing held dirty writing
  rw [same.catalog] at writes
  cases result with
  | ok wrote =>
    obtain ⟨writes, heap, registered, accepts⟩ := writes
    exact ⟨same.append writes (by simp), by rw [obeys heap registered, accepts]; rfl⟩
  | error failure =>
    obtain ⟨stays, why⟩ := writes
    refine ⟨same.append stays (by simp), ?_⟩
    rcases why with ⟨missing, rfl⟩ | ⟨heap, registered, refused, rfl⟩
    · rw [refusal?, missing]
    · rw [obeys heap registered, refused]
      rfl

/-- Pages with changes are written in turn, up to the first that is refused. -/
theorem ensures_writeBackEachUnder (refuses : PageId → Bool) {ids : List PageId} (nodup : ids.Nodup)
    (dirty : ∀ id ∈ ids, ∃ page, db.pool.page? id = some page ∧ page.isDirty = true) :
    Op.Ensures (writeBackEachUnder refuses ids) db fun result after =>
      ∃ done, WritesBack done db after ∧ (∀ id ∈ done, refusal? refuses db id = none) ∧
        match result with
        | .ok () => done = ids
        | .error failure => ∃ first rest, ids = done ++ first :: rest
          ∧ refusal? refuses db first = some failure := by
  -- What is written first is written for good, and the rest is as it was when it is its turn.
  induction ids generalizing db with
  | nil => exact .pure ⟨[], intact.writesBack, by simp, rfl⟩
  | cons id rest ih =>
    obtain ⟨page, resident, changed⟩ := dirty id List.mem_cons_self
    obtain ⟨fresh, others⟩ := List.nodup_cons.1 nodup
    refine (intact.ensures_writeBackUnder refuses resident changed).bind ?_ ?_
    · intro failure after ended
      exact ⟨[], ended.1, by simp, id, rest, rfl, ended.2⟩
    intro _ middle ended
    obtain ⟨one, accepted⟩ := ended
    have later : ∀ other ∈ rest, ∃ page, middle.pool.page? other = some page ∧ page.isDirty = true := by
      intro other member
      have different : other ∉ [id] := by
        rintro here
        exact fresh (List.mem_singleton.1 here ▸ member)
      rw [(one.kept other different).1]
      exact dirty other (List.mem_cons_of_mem _ member)
    refine (ih one.intact others later).mono ?_
    intro result after ended
    obtain ⟨done, more, all, told⟩ := ended
    have same : ∀ other, refusal? refuses middle other = refusal? refuses db other := by
      intro other
      rw [refusal?, one.catalog, refusal?]
    simp only [same] at all told
    cases result with
    | ok _ =>
      subst told
      refine ⟨id :: done, one.append more ?_, List.forall_mem_cons.2 ⟨accepted, all⟩, rfl⟩
      rintro other member here
      exact fresh (List.mem_singleton.1 here ▸ member)
    | error failure =>
      obtain ⟨first, left, split, refused⟩ := told
      refine ⟨id :: done, one.append more ?_, List.forall_mem_cons.2 ⟨accepted, all⟩, first, left,
        by rw [split]; rfl, refused⟩
      rintro other member here
      exact fresh (List.mem_singleton.1 here ▸ split ▸ List.mem_append_left _ member)

/-- A store in memory that a heap is over is there, so it can be set as it is and nothing changes. -/
theorem onArray_same {number table store : Nat}
    (registered : db.catalog.heap? number = some ⟨table, .memory store⟩)
    {change : PageArray → PageArray}
    (same : change (db.storage.array store) = db.storage.array store) :
    onStorage (Storage.onArray store (modify change)) db = .ok () db := by
  -- The array is there, since its pages have a size.
  have there : db.storage.arrays.find? store = some (db.storage.array store) := by
    have positive := intact.housed.pageSize_pos registered
    unfold Storage.array
    cases found : db.storage.arrays.find? store with
    | some array => rfl
    | none => simp [Storage.view, Storage.array, found, PageArray.view, PageArray.empty] at positive
  have set : db.storage.arrays.insert store (change (db.storage.array store))
      = db.storage.arrays := by
    rw [same, SortedMap.insert_of_find? there]
  show EStateM.Result.ok () { db with storage := { db.storage with
    arrays := db.storage.arrays.insert store (change (db.storage.array store)) } } = .ok () db
  rw [set]

/-- What a store refuses already it can be told to refuse, and nothing changes. -/
theorem setRefusing_refuses (id : PageId) : setRefusing id (db.refuses id) db = .ok () db := by
  unfold setRefusing
  cases registered : db.catalog.heap? id.table with
  | none => rfl
  | some heap =>
    obtain ⟨number, store⟩ := heap
    cases store with
    | file name pageSize => rfl
    | memory store =>
      refine intact.onArray_same registered ?_
      simp only [refuses, shown_eq registered]
      rfl

/-- Writing a page tells no store to fail, or not to. -/
theorem flags_of_writing {result : Except Failure Bool} (writing : Writing db id result after) (number : Nat) :
    (after.standing.shown number).writesFail = (db.standing.shown number).writesFail
      ∧ (after.standing.shown number).readsFail = (db.standing.shown number).readsFail := by
  -- Whether the images change or not, the flags of the one store are what they were.
  have flags {table : Nat} {heap : Heap} {view : StoreView} {storage : Storage} {pool : Pool}
      (registered : db.catalog.heap? table = some heap)
      (shows : Storage.Shows db.storage heap.store view storage)
      (writes : view.writesFail = (db.storage.view heap.store).writesFail)
      (reads : view.readsFail = (db.storage.view heap.store).readsFail) :
      ((standing { db with storage, pool }).shown number).writesFail = (db.standing.shown number).writesFail
        ∧ ((standing { db with storage, pool }).shown number).readsFail
          = (db.standing.shown number).readsFail := by
    show ((standing { db with storage }).shown number).writesFail = _
      ∧ ((standing { db with storage }).shown number).readsFail = _
    rw [standing_withStorage intact.orderly registered shows]
    simp only [Standing.withShown]
    by_cases here : number = table
    · rw [if_pos here, here, shown_eq registered]
      exact ⟨writes, reads⟩
    · rw [if_neg here]
      exact ⟨rfl, rfl⟩
  cases writing with
  | clean => exact ⟨rfl, rfl⟩
  | missing => exact ⟨rfl, rfl⟩
  | refused _ _ registered _ shows => exact flags registered shows rfl rfl
  | written _ _ registered _ _ shows => exact flags registered shows rfl rfl

/-- Writing a page tells no store what to refuse. -/
theorem refuses_of_writing {result : Except Failure Bool} (writing : Writing db id result after) :
    after.refuses = db.refuses :=
  funext fun other => (intact.flags_of_writing writing other.table).1

/-- A page is written as it is where the stores refuse what they refuse already, which they go on doing. -/
theorem writeBackUnder_bind {α : Type} (id : PageId) {next later : Bool → Op Database α}
    (same : ∀ wrote middle, middle.Intact → middle.refuses = db.refuses → next wrote middle = later wrote middle) :
    (writeBackUnder db.refuses id >>= next) db = (writeBack id >>= later) db := by
  -- To tell a store what it does already changes nothing, so the run is that of writing alone.
  have first : writeBackUnder db.refuses id db = writeBack id db :=
    Op.bind_of_ok (intact.setRefusing_refuses id) _
  have writing := intact.housed.ensures_writeBack id
  have moves : Moves False (writeBack id) db fun _ _ => True := intact.housed.moves_writeBack id
  unfold Op.Ensures Op.Ends at writing
  unfold Moves Op.Ends at moves
  simp only [bind, EStateM.bind, first]
  cases outcome : writeBack id db with
  | error fault middle => rfl
  | ok wrote middle =>
    rw [outcome] at writing moves
    exact same wrote middle (moves.1.intact intact) (intact.refuses_of_writing writing)

/-- Pages are written as they are where the stores refuse what they refuse already. -/
theorem writeBackEachUnder_refuses (ids : List PageId) :
    writeBackEachUnder db.refuses ids db = writeBackEach ids db := by
  induction ids generalizing db with
  | nil => rfl
  | cons id rest ih => exact intact.writeBackUnder_bind id fun _ _ still same => same ▸ ih still

/-- A commit is one where the stores refuse what they refuse already. -/
theorem finish_eq_commitUnder (transaction : TransactionId) :
    finish transaction .commit db = commitUnder db.refuses transaction db := by
  have same := intact.writeBackEachUnder_refuses (db.pool.changedBy transaction)
  -- What follows the pages that are written is the same.
  exact (Op.run_congr same _).symm

end Intact

/-- The pages that a transaction changed are in memory, with changes. -/
theorem exists_dirty_of_mem {transaction : TransactionId} (member : id ∈ db.pool.changedBy transaction) :
    ∃ page, db.pool.page? id = some page ∧ page.isDirty = true := by
  obtain ⟨page, resident, changed⟩ := Pool.mem_changedBy.1 member
  exact ⟨page, resident, by rw [Page.isDirty, changed]; rfl⟩

/-- A list has one first element that is refused, and one beginning before it. -/
theorem first_refused_unique {refuses : PageId → Bool} {done again rest left : List PageId}
    {first other : PageId} (same : done ++ first :: rest = again ++ other :: left)
    (accepted : ∀ id ∈ done, refusal? refuses db id = none)
    (acceptedAgain : ∀ id ∈ again, refusal? refuses db id = none)
    (refused : refusal? refuses db first ≠ none) (refusedAgain : refusal? refuses db other ≠ none) :
    done = again ∧ first = other ∧ rest = left := by
  -- Both beginnings are as many elements as are accepted.
  have longest : ∀ {done rest : List PageId} {first : PageId},
      (∀ id ∈ done, refusal? refuses db id = none) → refusal? refuses db first ≠ none →
      (done ++ first :: rest).takeWhile (fun id => (refusal? refuses db id).isNone) = done := by
    intro done rest first accepted refused
    rw [List.takeWhile_append_of_pos (by simpa using accepted), List.takeWhile_cons_of_neg (by simpa using refused),
      List.append_nil]
  have front : done = again := by
    rw [← longest accepted refused, same, longest acceptedAgain refusedAgain]
  rw [front, List.append_cancel_left_eq, List.cons.injEq] at same
  exact ⟨front, same⟩

/-- A commit writes pages up to the first that is refused, and releases the locks if there is none. -/
theorem Intact.ensures_commitUnder_writes (intact : db.Intact) (refuses : PageId → Bool)
    (transaction : TransactionId) :
    Op.Ensures (commitUnder refuses transaction) db fun result after => ∃ done middle,
      WritesBack done db middle ∧ (∀ id ∈ done, refusal? refuses db id = none) ∧
        match result with
        | .ok () => done = db.pool.changedBy transaction
          ∧ after = { middle with locks := (middle.locks.releaseAll transaction).2 }
        | .error failure => after = middle ∧ ∃ first rest,
          db.pool.changedBy transaction = done ++ first :: rest ∧ refusal? refuses db first = some failure := by
  -- The pages that are written are listed once each, so those that are left are others.
  have nodup : (db.pool.changedBy transaction).Nodup :=
    SortedMap.nodup_of_ascending (SortedMap.pairwise_keys _)
  refine .get_bind (Op.Ends.bind (intact.ensures_writeBackEachUnder refuses nodup
    fun id member => exists_dirty_of_mem member) ?_ ?_)
  · intro failure after ended
    obtain ⟨done, writes, accepted, stopped⟩ := ended
    exact ⟨done, after, writes, accepted, rfl, stopped⟩
  · intro _ middle ended
    obtain ⟨done, writes, accepted, all⟩ := ended
    exact Op.Ends.run_bind rfl (.pure ⟨done, middle, writes, accepted, all, rfl⟩)

/-- A commit stores all that the transaction changed, or stops at the first page that is refused. -/
theorem Intact.ensures_commitUnder (intact : db.Intact) (refuses : PageId → Bool)
    (transaction : TransactionId) :
    Op.Ensures (commitUnder refuses transaction) db fun result after =>
      Commits refuses transaction db result after := by
  have nodup : (db.pool.changedBy transaction).Nodup :=
    SortedMap.nodup_of_ascending (SortedMap.pairwise_keys _)
  refine (intact.ensures_commitUnder_writes refuses transaction).mono fun result after ended => ?_
  obtain ⟨done, middle, writes, accepted, outcome⟩ := ended
  cases result with
  | error failure =>
    obtain ⟨rfl, first, rest, split, refused⟩ := outcome
    refine ⟨?_, ?_, ?_, writes.apart, fun id holder _ => by rw [writes.locks]; exact ⟨rfl, rfl⟩⟩
    · intro all
      rw [all first (by rw [split]; simp)] at refused
      cases refused
    · intro again other left failure splitAgain acceptedAgain refusedAgain
      obtain ⟨rfl, rfl, rfl⟩ := first_refused_unique (split.symm.trans splitAgain) accepted acceptedAgain
        (by simp [refused]) (by simp [refusedAgain])
      cases refused.symm.trans refusedAgain
      refine ⟨rfl, writes.written, fun id member => ?_, writes.locks⟩
      -- What is left is no part of what was written.
      have outside : id ∉ done := by
        rw [split, List.nodup_append] at nodup
        exact fun inside => nodup.2.2 id inside id member rfl
      have changed : id ∈ db.pool.changedBy transaction := by
        rw [split]
        exact List.mem_append_right _ member
      obtain ⟨page, resident, mark⟩ := Pool.mem_changedBy.1 changed
      have kept := writes.kept id outside
      exact ⟨kept, page, kept.1.trans resident, mark⟩
    · intro id outside
      refine writes.kept id fun inside => outside ?_
      rw [split]
      exact List.mem_append_left _ inside
  | ok value =>
    obtain ⟨rfl, rfl⟩ := outcome
    -- All locks of the transaction are released, and those of others are not.
    refine ⟨fun _ => ⟨rfl, writes.written, fun id => ?_⟩, ?_, writes.kept, writes.apart, ?_⟩
    · simp [Locks.holds, Locks.isReader_releaseAll, Locks.isWriter_releaseAll]
    · intro again first rest failure split _ refused
      rw [accepted first (by rw [split]; simp)] at refused
      cases refused
    · intro id holder other
      simp [Locks.isReader_releaseAll, Locks.isWriter_releaseAll, other, writes.locks]

/--
A commit is durable, and a commit that fails stops cleanly.

In every database that arises, and whichever pages the stores refuse, a commit writes the pages that carry
the mark of its transaction in ascending order, and what it comes to is told by the first that is refused.
A commit on its own is one where the stores refuse what they refuse already.
-/
theorem commit_durable (arises : Arises db) (transaction : TransactionId) (refuses : PageId → Bool) :
    (db.pool.changedBy transaction).Pairwise (· < ·)
    ∧ (∀ id, id ∈ db.pool.changedBy transaction
      ↔ ∃ page, db.pool.page? id = some page ∧ page.changedBy = some transaction)
    ∧ (∃ result after, Commits refuses transaction db result after
      ∧ commitUnder refuses transaction db = match result with
        | .ok () => .ok () after
        | .error failure => .error (.failed failure) after)
    ∧ finish transaction .commit db = commitUnder db.refuses transaction db := by
  have intact := arises.intact
  refine ⟨SortedMap.pairwise_keys _, fun _ => Pool.mem_changedBy, ?_, ?_⟩
  · obtain ⟨result, after, ran, commits⟩ := (intact.ensures_commitUnder refuses transaction).exists_run
    refine ⟨result, after, commits, ?_⟩
    cases result <;> exact ran
  · exact intact.finish_eq_commitUnder transaction

/-- Commands that are always proper and are answered lead to a database that arises. -/
theorem Arises.afterAll {commands : List Command} (arises : Arises db)
    (proper : ∀ command ∈ commands, ∀ db, command.Proper db) (answered : db.answersAll commands = true) :
    Arises (db.afterAll commands) :=
  afterAll_keeps arises (fun command member _ _ _ arises served => .serve arises (proper command member _) served)
    answered

/-- A transaction has stored one record on each of two pages. -/
def twoUnwritten : Database :=
  (overImages ⟨64, 2, .ofMilliseconds 1⟩ []).afterAll
    [.insert ⟨1⟩ 1 ⟨none, [.blob (Bytes.zeros 30)]⟩, .insert ⟨1⟩ 1 ⟨none, [.blob (Bytes.zeros 40)]⟩]

theorem arises_twoUnwritten : Arises twoUnwritten := by
  refine .afterAll (.fresh (overImages_fresh (by decide) (by simp))) ?_ (by decide +kernel)
  simp [Command.Proper]

/-- The first page is written, the second one is refused, and the transaction keeps its locks. -/
theorem commit_durable_stopped : Arises twoUnwritten ∧ ∃ after,
    commitUnder (fun id => id.number = 1) ⟨1⟩ twoUnwritten
      = .error (.failed (.storage .injectedWrite)) after
    ∧ Durable twoUnwritten after ⟨1, 0⟩ ∧ Untouched twoUnwritten after ⟨1, 1⟩
    ∧ after.locks = twoUnwritten.locks := by
  obtain ⟨_, _, ⟨result, after, ended, ran⟩, _⟩ :=
    commit_durable arises_twoUnwritten ⟨1⟩ fun id => id.number = 1
  have both : twoUnwritten.pool.changedBy ⟨1⟩ = [⟨1, 0⟩, ⟨1, 1⟩] := by decide +kernel
  have accepted : refusal? (fun id => id.number = 1) twoUnwritten ⟨1, 0⟩ = none := by decide +kernel
  have refused : refusal? (fun id => id.number = 1) twoUnwritten ⟨1, 1⟩ = some (.storage .injectedWrite) := by
    decide +kernel
  obtain ⟨rfl, written, left, locks⟩ := ended.stops [⟨1, 0⟩] ⟨1, 1⟩ [] _ both (by simpa using accepted) refused
  exact ⟨arises_twoUnwritten, after, ran, written _ List.mem_cons_self, (left _ List.mem_cons_self).1, locks⟩

end Database

end HeapEngine
