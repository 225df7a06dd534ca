import HeapEngine.Proofs.Database.Durable

/-!
An abort takes back all that its transaction changed and releases its locks, whatever cannot be read.

The stores may come to be unreadable at any time, also between two pages that are read.
-/

namespace HeapEngine

/-- The failure that an outcome reports, if it is one. -/
def Outcome.failure? {α : Type} : Outcome α → Option Failure
  | .error (.failed failure) => some failure
  | _ => none

/-- Only the images of a store and whether it can be read decide what is read from it. -/
theorem StoreView.read_congr {a b : StoreView} (fails : a.readsFail = b.readsFail)
    (images : a.images = b.images) (id : PageId) : a.read id = b.read id := by
  rw [read, read, fails, images]

namespace Database

variable {db before middle after : Database} {id : PageId} {transaction : TransactionId}

/-- Lets the store of a page be unreadable from now on, or not. Files cannot be told to. -/
def setUnreadable (id : PageId) (unreadable : Bool) : Op Database Unit := fun db =>
  match db.catalog.heap? id.table with
  | some ⟨_, .memory number⟩ => onStorage (Storage.onArray number (modify fun store =>
      store.setFailing unreadable store.writesFail)) db
  | _ => .ok () db

/-- Reads a page anew, where it is given which pages the stores do not let be read. -/
def reloadUnder (unreadable : PageId → Bool) (id : PageId) : Op Database (Option Failure) := do
  setUnreadable id (unreadable id)
  reload id

/-- Reads pages anew in turn, all of them, where it is given which ones cannot be read. -/
def reloadEachUnder (unreadable : PageId → Bool) : List PageId → Op Database (Option Failure)
  | [] => return none
  | id :: rest => do
    let first ← reloadUnder unreadable id
    let later ← reloadEachUnder unreadable rest
    return first <|> later

/--
Aborts a transaction, where it is given which pages the stores do not let be read.

Only that is given: the pages are read anew and the locks are released as in any abort.
-/
def abortUnder (unreadable : PageId → Bool) (transaction : TransactionId) : Op Database Unit := do
  let failure ← reloadEachUnder unreadable ((← get).pool.changedBy transaction)
  let _ ← releaseLocks transaction
  match failure with
  | none => return ()
  | some failure => fail failure

/-- Whether the store of a page was told not to be read. -/
def unreadable (db : Database) (id : PageId) : Bool := (db.standing.shown id.table).readsFail

/-- What the store of a page shows, where it is given which pages cannot be read. -/
def told (unreadable : PageId → Bool) (db : Database) (id : PageId) : StoreView :=
  match db.catalog.heap? id.table with
  | some ⟨_, .memory number⟩ => { db.storage.view (.memory number) with readsFail := unreadable id }
  | some ⟨_, .file name pageSize⟩ => db.storage.view (.file name pageSize)
  | none => .nothing

/-- Why a page cannot be read, if it cannot. -/
def loss? (unreadable : PageId → Bool) (db : Database) (id : PageId) : Option Failure :=
  match db.catalog.heap? id.table with
  | none => some (.noTable id.table)
  | some _ => ((db.told unreadable id).read id).failure?

/-- A page is in memory as its image says that is stored, and carries no mark. -/
def Restored (after : Database) (id : PageId) : Prop :=
  ∃ image page, after.standing.image? id = some image ∧ Page.ofImage id image = .ok page
    ∧ after.pool.page? id = some page ∧ page.changedBy = none

/-- What the abort of a transaction comes to. -/
structure RollsBack (unreadable : PageId → Bool) (transaction : TransactionId) (before : Database)
    (result : Except Failure Unit) (after : Database) : Prop where
  succeeds : result = .ok () ↔ ∀ id ∈ before.pool.changedBy transaction, loss? unreadable before id = none
  /-- Of several pages that cannot be read the first one is told of. -/
  reports : ∀ done first rest failure, before.pool.changedBy transaction = done ++ first :: rest →
    (∀ id ∈ done, loss? unreadable before id = none) → loss? unreadable before first = some failure →
    result = .error failure
  unlocked : ∀ id, after.locks.holds id transaction = false
  unmarked : after.pool.changedBy transaction = []
  tables : after.catalog = before.catalog
  bytes : Storage.SameBytes before.storage after.storage
  restored : ∀ id ∈ before.pool.changedBy transaction, loss? unreadable before id = none → Restored after id
  /-- No page is better than one with changes that were taken back. -/
  dropped : ∀ id ∈ before.pool.changedBy transaction, loss? unreadable before id ≠ none →
    after.pool.isResident id = false
  /-- The frames of all other pages stay, with their marks and the order of their last use. -/
  outside : ∀ id, id ∉ before.pool.changedBy transaction →
    after.pool.frames.find? id = before.pool.frames.find? id
  others : ∀ id holder, holder ≠ transaction →
    after.locks.isReader id holder = before.locks.isReader id holder
      ∧ after.locks.isWriter id holder = before.locks.isWriter id holder

/-- Some pages are taken back, and nothing else can be told from before but what cannot be read. -/
structure TakesBack (unreadable : PageId → Bool) (done : List PageId) (before after : Database) : Prop where
  intact : after.Intact
  catalog : after.catalog = before.catalog
  locks : after.locks = before.locks
  bytes : Storage.SameBytes before.storage after.storage
  restored : ∀ id ∈ done, loss? unreadable before id = none → Restored after id
  dropped : ∀ id ∈ done, loss? unreadable before id ≠ none → after.pool.frames.find? id = none
  kept : ∀ id, id ∉ done → after.pool.frames.find? id = before.pool.frames.find? id

/-- A store counted what was asked of it, and nothing else changed. -/
structure Counts (before after : Database) : Prop where
  intact : after.Intact
  pool : after.pool = before.pool
  catalog : after.catalog = before.catalog
  locks : after.locks = before.locks
  bytes : Storage.SameBytes before.storage after.storage
  standing : after.standing = before.standing

/-- What reading a page anew comes to: it is there as it is stored, or it is gone. -/
structure Rereads (id : PageId) (before after : Database) : Prop where
  intact : after.Intact
  catalog : after.catalog = before.catalog
  locks : after.locks = before.locks
  bytes : Storage.SameBytes before.storage after.storage
  shown : after.standing.shown = before.standing.shown
  outcome : match loss? before.unreadable before id with
    | none => ∃ page, before.standing.stored? id = some page
      ∧ after.pool = before.pool.editResident id fun _ => page
    | some _ => after.pool = before.pool.drop id

/-- What is stored is told by the tables and by the bytes of their stores. -/
theorem image?_of_sameBytes (catalog : after.catalog = before.catalog)
    (bytes : Storage.SameBytes before.storage after.storage) (id : PageId) :
    after.standing.image? id = before.standing.image? id := by
  simp only [Standing.image?, standing, catalog]
  cases before.catalog.heap? id.table with
  | none => rfl
  | some heap => simp only [bytes.images]

/-- So is what is read where it is given what cannot be read. -/
theorem read_told_of_sameBytes (unreadable : PageId → Bool) (catalog : after.catalog = before.catalog)
    (bytes : Storage.SameBytes before.storage after.storage) (id : PageId) :
    (after.told unreadable id).read id = (before.told unreadable id).read id := by
  have same : (after.told unreadable id).readsFail = (before.told unreadable id).readsFail
      ∧ (after.told unreadable id).images = (before.told unreadable id).images := by
    simp only [told, catalog]
    cases before.catalog.heap? id.table with
    | none => exact ⟨rfl, rfl⟩
    | some heap =>
      obtain ⟨_, store⟩ := heap
      cases store with
      | memory number => exact ⟨rfl, bytes.images (.memory number)⟩
      | file name pageSize => exact ⟨rfl, bytes.images (.file name pageSize)⟩
  exact StoreView.read_congr same.1 same.2 id

/-- So is why a page cannot be read. -/
theorem loss?_of_sameBytes (unreadable : PageId → Bool) (catalog : after.catalog = before.catalog)
    (bytes : Storage.SameBytes before.storage after.storage) (id : PageId) :
    loss? unreadable after id = loss? unreadable before id := by
  rw [loss?, read_told_of_sameBytes unreadable catalog bytes, catalog, loss?]

/-- A page that is restored stays so while nothing is done to it and to what is stored. -/
theorem Restored.of_same (restored : Restored middle id)
    (image : after.standing.image? id = middle.standing.image? id)
    (page : after.pool.page? id = middle.pool.page? id) : Restored after id := by
  obtain ⟨bytes, held, stored, decoded, resident, clean⟩ := restored
  exact ⟨bytes, held, image.trans stored, decoded, page.trans resident, clean⟩

namespace TakesBack

variable {unreadable : PageId → Bool}

/-- Pages are taken back one after the other. -/
theorem append {first second : List PageId} (one : TakesBack unreadable first before middle)
    (two : TakesBack unreadable second middle after) :
    TakesBack unreadable (first ++ second) before after := by
  -- Reading pages changes no byte, so the later pages are lost for the reasons that were given before.
  have loss := loss?_of_sameBytes unreadable one.catalog one.bytes
  refine ⟨two.intact, two.catalog.trans one.catalog, two.locks.trans one.locks, one.bytes.trans two.bytes,
    fun id member read => ?_, fun id member lost => ?_, fun id outside => ?_⟩
  · by_cases later : id ∈ second
    · exact two.restored id later ((loss id).trans read)
    · -- What was taken back first is left alone afterwards.
      have earlier : id ∈ first := (List.mem_append.1 member).resolve_right later
      refine (one.restored id earlier read).of_same (image?_of_sameBytes two.catalog two.bytes id) ?_
      rw [Pool.page?, Pool.page?, two.kept id later]
  · by_cases later : id ∈ second
    · exact two.dropped id later fun none => lost ((loss id).symm.trans none)
    · have earlier : id ∈ first := (List.mem_append.1 member).resolve_right later
      exact (two.kept id later).trans (one.dropped id earlier lost)
  · rw [List.mem_append, not_or] at outside
    exact (two.kept id outside.2).trans (one.kept id outside.1)

/-- When all pages are taken back only the locks are left to be released. -/
theorem rollsBack (taken : TakesBack unreadable (before.pool.changedBy transaction) before after) :
    RollsBack unreadable transaction before
      (match (before.pool.changedBy transaction).findSome? (loss? unreadable before) with
        | none => .ok ()
        | some failure => .error failure)
      { after with locks := (after.locks.releaseAll transaction).2 } where
  succeeds := by
    -- The first failure is told, so all were read exactly if none is told.
    rw [← List.findSome?_eq_none_iff]
    cases (before.pool.changedBy transaction).findSome? (loss? unreadable before) <;> simp
  reports done first rest failure split readable lost := by
    rw [List.findSome?_eq_some_iff.2 ⟨done, first, rest, split, lost, readable⟩]
  unlocked id := by simp [Locks.holds, Locks.isReader_releaseAll, Locks.isWriter_releaseAll]
  unmarked := by
    refine List.eq_nil_iff_forall_not_mem.2 fun id member => ?_
    obtain ⟨page, resident, mark⟩ := Pool.mem_changedBy.1 member
    by_cases changed : id ∈ before.pool.changedBy transaction
    · cases why : loss? unreadable before id with
      | none =>
        -- What was read anew carries no mark.
        obtain ⟨_, fresh, _, _, there, clean⟩ := taken.restored id changed why
        rw [there] at resident
        cases resident
        rw [clean] at mark
        cases mark
      | some failure =>
        have gone : after.pool.frames.find? id = none := taken.dropped id changed (by simp [why])
        simp [Pool.page?, gone] at resident
    · -- All other pages are as they were, so they carried the mark of somebody else.
      have same : after.pool.page? id = before.pool.page? id := by
        rw [Pool.page?, Pool.page?, taken.kept id changed]
      exact changed (Pool.mem_changedBy.2 ⟨page, same ▸ resident, mark⟩)
  tables := taken.catalog
  bytes := taken.bytes
  restored := taken.restored
  dropped id member lost := by
    have gone : after.pool.frames.find? id = none := taken.dropped id member lost
    simp [Pool.isResident, SortedMap.contains, gone]
  outside := taken.kept
  others id holder other := by
    simp [Locks.isReader_releaseAll, Locks.isWriter_releaseAll, other, taken.locks]

end TakesBack

/-- What a store was told already it can be told, and it shows what it showed. -/
theorem told_unreadable (db : Database) (id : PageId) :
    db.told db.unreadable id = db.standing.shown id.table := by
  unfold told
  split
  · rename_i registered
    rw [unreadable, shown_eq registered]
  · rename_i registered
    rw [shown_eq registered]
  · rename_i missing
    simp only [standing, missing]

namespace Intact

variable (intact : db.Intact)

include intact

/-- Nothing is taken back yet. -/
theorem takesBack (unreadable : PageId → Bool) : TakesBack unreadable [] db db where
  intact := intact
  catalog := rfl
  locks := rfl
  bytes := .refl _
  restored := by simp
  dropped := by simp
  kept _ _ := rfl

/-- A store that is told what cannot be read shows that, and the same images. -/
theorem ensures_setUnreadable (unreadable : PageId → Bool) (id : PageId) :
    Op.Ensures (setUnreadable id (unreadable id)) db fun result after => result = .ok ()
      ∧ TakesBack unreadable [] db after ∧ after.pool = db.pool
      ∧ after.standing.shown id.table = db.told unreadable id := by
  unfold Op.Ensures Op.Ends setUnreadable told
  cases registered : db.catalog.heap? id.table with
  | none => exact ⟨rfl, intact.takesBack unreadable, rfl, by simp only [standing, registered]⟩
  | some heap =>
    obtain ⟨table, store⟩ := heap
    cases store with
    | file name pageSize => exact ⟨rfl, intact.takesBack unreadable, rfl, shown_eq registered⟩
    | memory number =>
      -- The store shows the same images, whether they can be read or not.
      have shows : Storage.Shows db.storage (.memory number)
          { db.storage.view (.memory number) with readsFail := unreadable id }
          { db.storage with
            arrays := db.storage.arrays.insert number ((db.storage.array number).setFailing
              (unreadable id) (db.storage.array number).writesFail) } := .setArray rfl
      have kept := intact.withFlags registered shows rfl rfl
      have stands := standing_withStorage intact.orderly registered shows
      refine ⟨rfl, ⟨kept, rfl, rfl, .setArray rfl, by simp, by simp, fun _ _ => rfl⟩, rfl, ?_⟩
      exact (congrArg (Standing.shown · id.table) stands).trans (if_pos rfl)

/-- A page that is read past the pages in memory is as it is stored, and its store counts that it was read. -/
theorem ensures_readAnew (id : PageId) :
    Op.Ensures (do readStored (← tableAt id.table) id) db fun result after => Counts db after
      ∧ loss? db.unreadable db id = (Outcome.ofResult result).failure?
      ∧ ∀ page, result = .ok page → after.standing.stored? id = some page := by
  -- A table that is not registered cannot be read, and loses the page for that.
  refine ends_tableAt_bind intact.orderly (fun missing => ?_) fun heap registered => ?_
  · refine ⟨⟨intact, rfl, rfl, rfl, .refl _, rfl⟩, ?_, by simp⟩
    rw [loss?, missing]
    rfl
  · have positive := intact.housed.pageSize_pos registered
    refine .onStorage (((Storage.ensures_read positive id).and
      (Storage.ensures_read_sameBytes positive id)).mono ?_)
    intro result storage ended
    obtain ⟨⟨read, shows⟩, bytes⟩ := ended
    have stands := intact.housed.standing_count registered shows
    rw [← shown_eq registered] at read
    refine ⟨⟨intact.withFlags registered shows rfl rfl, rfl, rfl, rfl, bytes, stands⟩, ?_, fun page found => ?_⟩
    · rw [loss?, registered, told_unreadable, read]
    · rw [stands]
      subst found
      exact Standing.stored?_of_read read

theorem ensures_reload (id : PageId) :
    Op.Ensures (reload id) db fun result after =>
      result = .ok (loss? db.unreadable db id) ∧ Rereads id db after := by
  -- Reading is an attempt, so the page is replaced or dropped, and the attempt itself does not fail.
  refine Op.Ends.attempt_bind (intact.ensures_readAnew id) ?_
  intro answer after ended
  obtain ⟨counts, why, stored⟩ := ended
  have shown := congrArg Standing.shown counts.standing
  cases answer with
  | ok page =>
    have found := stored page rfl
    have why : loss? db.unreadable db id = none := why
    rw [why]
    refine .onPool_bind (.pure ⟨rfl, (Step.restore found).intact counts.intact, counts.catalog, counts.locks,
      counts.bytes, shown, ?_⟩)
    rw [counts.standing] at found
    rw [why]
    exact ⟨page, found, congrArg (Pool.editResident · id fun _ => page) counts.pool⟩
  | error failure =>
    have why : loss? db.unreadable db id = some failure := why
    rw [why]
    refine .onPool_bind (.pure ⟨rfl, (Step.drop id).intact counts.intact, counts.catalog, counts.locks,
      counts.bytes, shown, ?_⟩)
    rw [why]
    exact congrArg (Pool.drop · id) counts.pool

/-- One page is taken back, whether it can be read or not. -/
theorem ensures_reloadUnder (unreadable : PageId → Bool) {page : Page}
    (resident : db.pool.page? id = some page) :
    Op.Ensures (reloadUnder unreadable id) db fun result after =>
      result = .ok (loss? unreadable db id) ∧ TakesBack unreadable [id] db after := by
  -- The store is told first, which touches no page, so the page is still in memory when it is read anew.
  refine (intact.ensures_setUnreadable unreadable id).bind (fun _ _ ended => by cases ended.1) ?_
  intro _ set ended
  obtain ⟨_, same, pool, shown⟩ := ended
  -- Where the store is told so, the page is lost for the same reason as is given.
  have loss : loss? set.unreadable set id = loss? unreadable db id := by
    rw [loss?, told_unreadable, shown, same.catalog, loss?]
  refine (same.intact.ensures_reload id).mono ?_
  intro result after ended
  obtain ⟨told, rereads⟩ := ended
  have outcome := rereads.outcome
  rw [loss] at told outcome
  have one : TakesBack unreadable [id] set after := by
    have same := loss?_of_sameBytes unreadable same.catalog same.bytes id
    refine ⟨rereads.intact, rereads.catalog, rereads.locks, rereads.bytes, fun other member read => ?_,
      fun other member lost => ?_, fun other outside => ?_⟩
    · cases List.mem_singleton.1 member
      rw [← same, read] at outcome
      obtain ⟨page, stored, edited⟩ := outcome
      obtain ⟨image, found, decoded⟩ := Standing.stored?_eq_some.1 stored
      -- What is stored of the page is what was read of it.
      refine ⟨image, page, (image?_of_sameBytes rereads.catalog rereads.bytes id).trans found, decoded, ?_,
        (Page.ofImage_eq_ok decoded).2.2⟩
      rw [edited, Pool.page?_editResident, if_pos rfl, pool, resident, Option.map_some]
    · cases List.mem_singleton.1 member
      obtain ⟨failure, why⟩ := Option.ne_none_iff_exists'.1 lost
      rw [← same, why] at outcome
      rw [outcome]
      exact Pool.find?_drop_self _ _
    · -- Whether the page is replaced or dropped, no other frame notices.
      have apart : other ≠ id := by simpa using outside
      cases why : loss? unreadable db id with
      | none =>
        rw [why] at outcome
        obtain ⟨page, _, edited⟩ := outcome
        rw [edited, Pool.find?_editResident_other _ _ apart]
      | some failure =>
        rw [why] at outcome
        rw [outcome, Pool.find?_drop_other _ apart]
  exact ⟨told, same.append one⟩

/-- All pages are taken back, and the first that cannot be read is told of. -/
theorem ensures_reloadEachUnder (unreadable : PageId → Bool) {ids : List PageId} (nodup : ids.Nodup)
    (resident : ∀ id ∈ ids, ∃ page, db.pool.page? id = some page) :
    Op.Ensures (reloadEachUnder unreadable ids) db fun result after =>
      result = .ok (ids.findSome? (loss? unreadable db)) ∧ TakesBack unreadable ids db after := by
  -- Whether the first page can be read or not, the rest is as it was when it is its turn.
  induction ids generalizing db with
  | nil => exact .pure ⟨rfl, intact.takesBack unreadable⟩
  | cons id rest ih =>
    obtain ⟨page, there⟩ := resident id List.mem_cons_self
    obtain ⟨fresh, others⟩ := List.nodup_cons.1 nodup
    refine (intact.ensures_reloadUnder unreadable there).bind (fun _ _ ended => by cases ended.1) ?_
    intro first middle ended
    obtain ⟨told, one⟩ := ended
    cases told
    have later : ∀ other ∈ rest, ∃ page, middle.pool.page? other = some page := by
      intro other member
      have apart : other ∉ [id] := fun here => fresh (List.mem_singleton.1 here ▸ member)
      rw [Pool.page?, one.kept other apart]
      exact resident other (List.mem_cons_of_mem _ member)
    refine (ih one.intact others later).bind (fun _ _ ended => by cases ended.1) ?_
    intro last after ended
    obtain ⟨told, more⟩ := ended
    cases told
    refine .pure ⟨?_, one.append more⟩
    rw [funext (loss?_of_sameBytes unreadable one.catalog one.bytes), List.findSome?_cons]
    cases loss? unreadable db id <;> rfl

/-- What a store was told already it can be told, and nothing changes. -/
theorem setUnreadable_unreadable (id : PageId) : setUnreadable id (db.unreadable id) db = .ok () db := by
  -- Only a store in memory can be told, and it is told what it does already.
  unfold setUnreadable
  cases registered : db.catalog.heap? id.table with
  | none => rfl
  | some heap =>
    obtain ⟨number, store⟩ := heap
    cases store with
    | file name pageSize => rfl
    | memory store =>
      refine intact.onArray_same registered ?_
      simp only [unreadable, shown_eq registered]
      rfl

/-- Pages are read anew as they are where the stores are told what they were told already. -/
theorem reloadEachUnder_unreadable (ids : List PageId) :
    reloadEachUnder db.unreadable ids db = reloadEach ids db := by
  induction ids generalizing db with
  | nil => rfl
  | cons id rest ih =>
    have first : reloadUnder db.unreadable id db = reload id db :=
      Op.bind_of_ok (intact.setUnreadable_unreadable id) _
    obtain ⟨result, middle, ran, _, rereads⟩ := (intact.ensures_reload id).exists_run
    -- Reading tells no store anything, so the rest is told what it was told already.
    have same : middle.unreadable = db.unreadable := by
      funext other
      rw [unreadable, rereads.shown, unreadable]
    simp only [reloadEachUnder, reloadEach, bind, EStateM.bind, first, ran]
    cases result with
    | error failure => rfl
    | ok answer =>
      simp only
      rw [← same, ih rereads.intact]

/-- An abort is one where the stores are told what they were told already. -/
theorem finish_eq_abortUnder (transaction : TransactionId) :
    finish transaction .abort db = abortUnder db.unreadable transaction db := by
  have same := intact.reloadEachUnder_unreadable (db.pool.changedBy transaction)
  -- What follows the pages that are read anew is the same.
  exact (Op.run_congr same _).symm

end Intact

/-- An abort takes back all that the transaction changed, and tells of the first page that cannot be read. -/
theorem Intact.ensures_abortUnder (intact : db.Intact) (unreadable : PageId → Bool)
    (transaction : TransactionId) :
    Op.Ensures (abortUnder unreadable transaction) db fun result after =>
      RollsBack unreadable transaction db result after ∧ after.Intact := by
  have nodup : (db.pool.changedBy transaction).Nodup :=
    SortedMap.nodup_of_ascending (SortedMap.pairwise_keys _)
  have resident : ∀ id ∈ db.pool.changedBy transaction, ∃ page, db.pool.page? id = some page := by
    intro id member
    obtain ⟨page, there, _⟩ := Pool.mem_changedBy.1 member
    exact ⟨page, there⟩
  refine .get_bind ((intact.ensures_reloadEachUnder unreadable nodup resident).bind ?_ ?_)
  · intro failure after ended
    cases ended.1
  intro answer middle ended
  obtain ⟨told, taken⟩ := ended
  cases told
  have rolls := taken.rollsBack
  have intact := (Step.releaseAll transaction).intact taken.intact
  refine .run_bind rfl ?_
  cases lost : (db.pool.changedBy transaction).findSome? (loss? unreadable db) with
  | none =>
    rw [lost] at rolls
    exact .pure ⟨rolls, intact⟩
  | some failure =>
    rw [lost] at rolls
    exact .fail ⟨rolls, intact⟩

/--
An abort always rolls back and lets go.

In every database that arises, and whichever pages cannot be read, an abort takes back all pages that carry
the mark of its transaction, in ascending order, and what it comes to is told by the first that cannot be
read. An abort on its own is one where the stores are told what they were told already.
-/
theorem abort_rolls_back (arises : Arises db) (transaction : TransactionId) (unreadable : PageId → Bool) :
    (db.pool.changedBy transaction).Pairwise (· < ·)
    ∧ (∀ id, id ∈ db.pool.changedBy transaction
      ↔ ∃ page, db.pool.page? id = some page ∧ page.changedBy = some transaction)
    ∧ (∃ result after, RollsBack unreadable transaction db result after
      ∧ abortUnder unreadable transaction db = match result with
        | .ok () => .ok () after
        | .error failure => .error (.failed failure) after)
    ∧ finish transaction .abort db = abortUnder db.unreadable transaction db := by
  have intact := arises.intact
  refine ⟨SortedMap.pairwise_keys _, fun _ => Pool.mem_changedBy, ?_, intact.finish_eq_abortUnder transaction⟩
  obtain ⟨result, after, ran, rolls, _⟩ := (intact.ensures_abortUnder unreadable transaction).exists_run
  refine ⟨result, after, rolls, ?_⟩
  cases result <;> exact ran

/-- The first page cannot be read and is dropped, the second one is restored, and no lock is left. -/
theorem abort_rolls_back_lost : Arises twoUnwritten ∧ ∃ after,
    abortUnder (fun id => id.number = 0) ⟨1⟩ twoUnwritten
      = .error (.failed (.storage .injectedRead)) after
    ∧ after.pool.isResident ⟨1, 0⟩ = false ∧ Restored after ⟨1, 1⟩
    ∧ (∀ id, after.locks.holds id ⟨1⟩ = false)
    ∧ Storage.SameBytes twoUnwritten.storage after.storage := by
  obtain ⟨_, _, ⟨result, after, rolls, ran⟩, _⟩ :=
    abort_rolls_back arises_twoUnwritten ⟨1⟩ fun id => id.number = 0
  have both : twoUnwritten.pool.changedBy ⟨1⟩ = [⟨1, 0⟩, ⟨1, 1⟩] := by decide +kernel
  have lost : loss? (fun id => id.number = 0) twoUnwritten ⟨1, 0⟩ = some (.storage .injectedRead) := by
    decide +kernel
  have readable : loss? (fun id => id.number = 0) twoUnwritten ⟨1, 1⟩ = none := by decide +kernel
  obtain rfl := rolls.reports [] ⟨1, 0⟩ [⟨1, 1⟩] _ both (by simp) lost
  exact ⟨arises_twoUnwritten, after, ran, rolls.dropped _ (by simp [both]) (by simp [lost]),
    rolls.restored _ (by simp [both]) readable, rolls.unlocked, rolls.bytes⟩

end Database

end HeapEngine
