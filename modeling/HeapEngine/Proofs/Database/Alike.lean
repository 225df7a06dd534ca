import HeapEngine.Proofs.Database.Enduring
import HeapEngine.Proofs.Database.Roaming.Heap
import HeapEngine.Proofs.Database.RollBack

/-!
Pages in memory without changes are like their images, whatever becomes of locks, stores and tables.

This holds as long as whoever changes a page marks it, and every operation that changes one does so. What it is to
be like an image is given, since it is not the same for every kind of image.
-/

namespace HeapEngine

/-- When pages in memory are like their images, of which there are some and not others. -/
structure Likeness where
  allows : Bytes → Prop
  /-- What holds of every page in memory, with changes or without. -/
  fair : Page → Prop
  /-- When a page without changes is like the image that is stored under its name. -/
  like : PageId → Bytes → Page → Prop
  allows_image : ∀ {page : Page} {image : Bytes}, fair page → page.image = .ok image → allows image
  read : ∀ {id : PageId} {image : Bytes} {page : Page}, allows image → Page.ofImage id image = .ok page →
    fair page ∧ like id image page
  written : ∀ (id : PageId) {page : Page} {image : Bytes}, fair page → page.image = .ok image →
    fair page.markWritten ∧ like id image page.markWritten
  fair_empty : ∀ (id : PageId) {size : Nat}, 20 ≤ size → size ≤ 65535 → fair (Page.empty id size)
  fair_revised : ∀ {page changed : Page} {asker : TransactionId}, page.Revises changed → fair page →
    fair (changed.markChanged asker)
  fair_handled : ∀ {page changed : Page}, Database.Handles page changed → fair page → fair changed

namespace Database

variable {likeness : Likeness} {db before searched given grown after : Database} {id : PageId} {page : Page}
  {asker : TransactionId} {number : Nat} {heap : Heap} {record : Record}

/-- All images are allowed, and all pages in memory are fair, and like their images if they have no changes. -/
structure Alike (likeness : Likeness) (db : Database) : Prop where
  intact : db.Intact
  images : ∀ id image, db.standing.image? id = some image → likeness.allows image
  fair : ∀ id page, db.pool.page? id = some page → likeness.fair page
  /-- The table may be registered no more, and then the page has no image. -/
  clean : ∀ id page heap, db.pool.page? id = some page → page.changedBy = none →
    db.catalog.heap? id.table = some heap → ∃ image, db.standing.image? id = some image ∧ likeness.like id image page

namespace Alike

/-- What is read from a store is fair, and like its image. -/
theorem of_stored (alike : db.Alike likeness) (stored : db.standing.stored? id = some page) :
    likeness.fair page ∧ ∃ image, db.standing.image? id = some image ∧ likeness.like id image page := by
  obtain ⟨image, found, decoded⟩ := Standing.stored?_eq_some.1 stored
  obtain ⟨fair, like⟩ := likeness.read (alike.images id image found) decoded
  exact ⟨fair, image, found, like⟩

/-- Every page that may be seen is fair. -/
theorem fair_of_mayShow (alike : db.Alike likeness) (shown : db.MayShow id page) : likeness.fair page := by
  rcases shown with resident | ⟨_, stored⟩
  · exact alike.fair id page resident
  · exact (alike.of_stored stored).1

/-- All is alike still if the images are the same, and the pages are as before, as stored, or marked. -/
theorem update (alike : before.Alike likeness) (intact : after.Intact) (catalog : after.catalog = before.catalog)
    (images : ∀ id, after.standing.image? id = before.standing.image? id)
    (pages : ∀ id page, after.pool.page? id = some page → before.pool.page? id = some page
      ∨ before.standing.stored? id = some page ∨ likeness.fair page ∧ page.isDirty = true) :
    after.Alike likeness := by
  refine ⟨intact, fun id image found => alike.images id image (images id ▸ found), fun id page resident => ?_,
    fun id page heap resident clean registered => ?_⟩
  -- A page that is stored may have come into memory, and a page that changed has a mark, so nothing is asked of it.
  · rcases pages id page resident with old | stored | ⟨fair, _⟩
    · exact alike.fair id page old
    · exact (alike.of_stored stored).1
    · exact fair
  · rw [images]
    rcases pages id page resident with old | stored | ⟨_, dirty⟩
    · exact alike.clean id page heap old clean (catalog ▸ registered)
    · exact (alike.of_stored stored).2
    · rw [Page.isDirty, clean] at dirty
      cases dirty

/-- Locks say nothing of pages. -/
theorem withLocks (alike : db.Alike likeness) {locks : Locks} (exclusive : locks.Exclusive) :
    Alike likeness { db with locks } :=
  alike.update (alike.intact.withLocks exclusive) rfl (fun _ => rfl) fun _ _ resident => .inl resident

/-- Looking for pages leaves all alike. -/
theorem roams (alike : before.Alike likeness) (roams : Roams before after) (intact : after.Intact) :
    after.Alike likeness := by
  -- A page that came into memory came from its image.
  refine alike.update intact roams.catalog_eq (fun id => ?_) fun id page resident => ?_
  · rw [Standing.image?, roams.shown_eq, Standing.image?]
  · exact (roams.shows id page resident).imp_right fun shown => .inl shown.2

theorem touch (alike : db.Alike likeness) (id : PageId) :
    Alike likeness { db with pool := (db.pool.touch id).2 } :=
  alike.roams (.touch db id) ((Step.touch id).intact alike.intact)

/-- Any page may be dropped, also one with changes. -/
theorem drop (alike : db.Alike likeness) (id : PageId) : Alike likeness { db with pool := db.pool.drop id } := by
  refine alike.update ((Step.drop id).intact alike.intact) rfl (fun _ => rfl) fun other page resident => .inl ?_
  rw [Pool.page?_drop] at resident
  split at resident
  · cases resident
  · exact resident

/-- A page may become another one that has a mark. -/
theorem edit (alike : db.Alike likeness) {change : Page → Page}
    (keeps : ∀ page, db.pool.page? id = some page → db.standing.Keeps id (change page))
    (marked : ∀ page, db.pool.page? id = some page → likeness.fair (change page) ∧ (change page).isDirty = true) :
    Alike likeness { db with pool := db.pool.editResident id change } := by
  -- Only the one page is another than before, and it has a mark.
  refine alike.update (alike.intact.editResident keeps) rfl (fun _ => rfl) fun other page resident => ?_
  rw [Pool.page?_editResident] at resident
  split at resident
  · rename_i here
    subst here
    obtain ⟨old, found, rfl⟩ := Option.map_eq_some_iff.1 resident
    exact .inr (.inr (marked old found))
  · exact .inl resident

/-- A store that shows what it showed may count. -/
theorem count (alike : db.Alike likeness) {storage : Storage} (registered : db.catalog.heap? number = some heap)
    (shows : Storage.Shows db.storage heap.store (db.storage.view heap.store) storage) :
    Alike likeness { db with storage } :=
  alike.roams (.count alike.intact.housed registered shows) ((Step.count registered shows).intact alike.intact)

/-- An empty page is fair, so its image is allowed. -/
theorem append (alike : before.Alike likeness) (registered : before.catalog.heap? number = some heap)
    (appends : Appends before number after) : after.Alike likeness := by
  -- The pages in memory are the same, and the images are those that there were and one more.
  obtain ⟨image, encoded, stands⟩ := appends.standing
  have grows : before.standing.Grows number after.standing := .inr ⟨image, encoded, stands⟩
  obtain ⟨_, least, most⟩ := Settings.check_eq_ok alike.intact.orderly.settings
  have fair := likeness.fair_empty ⟨0, (before.standing.shown number).images.length⟩
    (Nat.le_of_succ_le least) most
  rw [alike.intact.orderly.sizes number heap registered] at encoded
  refine ⟨appends.intact, fun id found there => ?_, fun id page resident =>
    alike.fair id page (appends.pool ▸ resident), fun id page heap resident clean known => ?_⟩
  · rw [Standing.image?, stands] at there
    simp only [Standing.withShown] at there
    -- The images of the table are those that there were, and the one of an empty page.
    split at there
    · rename_i here
      rcases List.mem_append.1 (List.mem_of_getElem? there) with old | new
      · obtain ⟨place, _, same⟩ := List.mem_iff_getElem.1 old
        exact alike.images ⟨number, place⟩ found (by rw [Standing.image?, List.getElem?_eq_some_iff]; exact ⟨_, same⟩)
      · cases List.mem_singleton.1 new
        exact likeness.allows_image fair encoded
    · exact alike.images id found there
  · obtain ⟨image, found, like⟩ := alike.clean id page heap (appends.pool ▸ resident) clean (appends.catalog_eq ▸ known)
    exact ⟨image, grows.image? found, like⟩

/-- A page that is written is like the image that is stored then. -/
theorem write (alike : db.Alike likeness) {image : Bytes} {storage : Storage}
    (resident : db.pool.page? id = some page) (registered : db.catalog.heap? id.table = some heap)
    (encoded : page.image = .ok image)
    (shows : Storage.Shows db.storage heap.store { db.storage.view heap.store with
      images := (db.storage.view heap.store).images.set id.number image } storage) :
    Alike likeness { db with storage, pool := db.pool.editResident id Page.markWritten } := by
  have stands := standing_writeBack alike.intact.orderly resident registered shows
  obtain ⟨fair, like⟩ := likeness.written id (alike.fair id page resident) encoded
  obtain ⟨old, stored⟩ := (alike.intact.kept id page resident).stored heap registered
  have placed : (db.standing.written id image).image? id = some image := Standing.image?_written_self stored
  -- Every page in memory is as before, or it is the one that was written.
  have pages : ∀ other held, (db.pool.editResident id Page.markWritten).page? other = some held →
      other = id ∧ held = page.markWritten ∨ other ≠ id ∧ db.pool.page? other = some held := by
    intro other held there
    rw [Pool.page?_editResident] at there
    split at there
    · rename_i here
      rw [resident] at there
      exact .inl ⟨here, (Option.some.inj there).symm⟩
    · rename_i apart
      exact .inr ⟨apart, there⟩
  refine ⟨(Step.write resident registered encoded shows).intact alike.intact, fun other found there => ?_,
    fun other held there => ?_, fun other held heap there clean known => ?_⟩
  · rw [stands] at there
    by_cases here : other = id
    · subst here
      cases placed.symm.trans there
      exact likeness.allows_image (alike.fair _ page resident) encoded
    · exact alike.images other found (Standing.image?_written_other here ▸ there)
  · rcases pages other held there with ⟨_, rfl⟩ | ⟨_, same⟩
    · exact fair
    · exact alike.fair other held same
  · rw [stands]
    rcases pages other held there with ⟨rfl, rfl⟩ | ⟨apart, same⟩
    · exact ⟨image, placed, like⟩
    · rw [Standing.image?_written_other apart]
      exact alike.clean other held heap same clean known

theorem writeBack (alike : db.Alike likeness) (id : PageId) :
    Op.Permits (writeBack id) db fun _ after => after.catalog = db.catalog ∧ after.Alike likeness := by
  refine (alike.intact.housed.ensures_writeBack id).permits.mono fun _ after writing => ⟨writing.catalog_eq, ?_⟩
  cases writing with
  | clean => exact alike
  | missing => exact alike
  | refused _ _ registered _ shows => exact alike.count registered shows
  | written resident _ registered _ encoded shows => exact alike.write resident registered encoded shows

theorem reload (alike : db.Alike likeness) (id : PageId) :
    Op.Permits (reload id) db fun _ after => after.catalog = db.catalog ∧ after.Alike likeness := by
  -- What stands in the store is what stood there, so only the one page is looked at.
  refine (alike.intact.ensures_reload id).permits.mono fun result after ended => ?_
  obtain ⟨_, rereads⟩ := ended
  have outcome := rereads.outcome
  refine ⟨rereads.catalog, alike.update rereads.intact rereads.catalog (fun other => ?_) fun other page there => ?_⟩
  · rw [Standing.image?, rereads.shown, Standing.image?]
  -- The page is as it is stored now, or it is gone.
  cases lost : loss? db.unreadable db id with
  | none =>
    rw [lost] at outcome
    obtain ⟨fresh, stored, edited⟩ := outcome
    rw [edited, Pool.page?_editResident] at there
    split at there
    · rename_i here
      obtain ⟨_, _, rfl⟩ := Option.map_eq_some_iff.1 there
      exact .inr (.inl (here ▸ stored))
    · exact .inl there
  | some failure =>
    rw [lost] at outcome
    rw [outcome, Pool.page?_drop] at there
    split at there
    · cases there
    · exact .inl there

/-- A store may come to fail at any time, and holds what it held. -/
theorem setFailing (alike : db.Alike likeness) (store : Nat) (reads writes : Bool) :
    Op.Permits (onStorage (Storage.onArray store (modify (PageArray.setFailing reads writes)))) db
      -- The bytes are the same, and only whether the store fails is told otherwise.
      fun _ after => after.catalog = db.catalog ∧ after.Alike likeness := by
  have switched {storage : Storage} (shows : Storage.Shows db.storage (.memory store)
      { db.storage.view (.memory store) with readsFail := reads, writesFail := writes } storage)
      (same : Storage.SameBytes db.storage storage) :
      Database.catalog { db with storage } = db.catalog ∧ Alike likeness { db with storage } :=
    ⟨rfl, alike.update (alike.intact.switch shows) rfl
      (image?_of_sameBytes (show Database.catalog { db with storage } = db.catalog from rfl) same)
      fun _ _ resident => .inl resident⟩
  exact .onStorage (Storage.ends_onArray (switched (.setArray rfl) (.setArray rfl)))

/-- A page that is changed by its writer and adopted carries a mark. -/
theorem adopted (alike : before.Alike likeness) (roams : Roams before given) {copy : CopyId} {changed : Page}
    (alters : Alters asker given copy page changed after) (intact : (after.adopted asker copy changed).Intact) :
    (after.adopted asker copy changed).Alike likeness := by
  -- The page came into memory as it is stored, if it was not there, and was changed there.
  obtain ⟨tables, shown⟩ := alters.shown_adopted
  refine alike.update intact (tables.trans roams.catalog_eq) (fun id => ?_) ?_
  · rw [Standing.image?, shown, roams.shown_eq, Standing.image?]
  intro id held there
  rw [alters.page?_adopted] at there
  split at there
  · cases there
    have fair := alike.fair_of_mayShow (roams.shows copy.page page alters.resident)
    exact .inr (.inr ⟨likeness.fair_revised alters.revises fair, rfl⟩)
  · exact (roams.shows id held there).imp_right fun shown => .inl shown.2

end Alike

/-- A record is stored on a page while all is alike, or all that happened is that a heap grew. -/
theorem Stored.alike {result : Except Failure (CopyId × RecordId)} (stored : Stored db heap asker record result after)
    (alike : db.Alike likeness) (registered : db.catalog.heap? heap.table = some heap) :
    ∃ middle, middle.Alike likeness ∧ match result with
      | .ok (copy, _) => ∃ given page changed, Roams middle given ∧ Alters asker given copy page changed after
      | .error _ => Roams middle after := by
  -- The heap may have grown on the way, so the page is found in a database between the two.
  cases stored with
  | tooLarge _ => exact ⟨db, alike, .refl db⟩
  | found _ searched =>
    cases searched with
    | found _ _ _ roams _ _ _ _ alters => exact ⟨db, alike, _, _, _, roams, alters⟩
  | denied _ searched =>
    cases searched with
    | denied _ _ _ roams _ => exact ⟨db, alike, roams⟩
  | appended _ exhausted appends attempted =>
    cases exhausted with
    | exhausted roams intact _ _ =>
      refine ⟨_, (alike.roams roams intact).append (roams.catalog_eq ▸ registered) appends, ?_⟩
      cases attempted with
      | changed obtains _ alters => exact ⟨_, _, _, obtains.roams, alters⟩
      | refused obtains _ => exact obtains.roams
      | denied roams _ _ => exact roams

namespace Alike

theorem insert (alike : db.Alike likeness) (asker : TransactionId) (number : Nat) (record : Record) :
    Op.Permits (insert asker number record) db fun _ after => after.Alike likeness := by
  have inserts : Op.Permits (Database.insert asker number record) db _ :=
    alike.intact.ends_insert asker number record (.inl trivial)
  -- The steps tell that all is in order afterwards, and what was inserted which page is another.
  refine (inserts.and (alike.intact.housed.moves_insert asker number record)).mono fun _ after ended => ?_
  obtain ⟨⟨_, _, _, inserted⟩, steps, _⟩ := ended
  have intact := steps.intact alike.intact
  cases inserted with
  | unknown _ => exact alike
  | failed registered stored =>
    have table := alike.intact.orderly.heap_table registered
    obtain ⟨_, alike, roams⟩ := stored.alike alike (table ▸ registered)
    exact alike.roams roams intact
  | stored registered stored there =>
    have table := alike.intact.orderly.heap_table registered
    obtain ⟨_, alike, _, _, _, roams, alters⟩ := stored.alike alike (table ▸ registered)
    rw [alters.after, Pool.page?_editResident, if_pos rfl, alters.resident] at there
    cases there
    exact alike.adopted roams alters intact

theorem delete (alike : db.Alike likeness) (asker : TransactionId) (record : Record) :
    Op.Permits (delete asker record) db fun _ after => after.Alike likeness := by
  have deletes : Op.Permits (Database.delete asker record) db _ :=
    alike.intact.ends_delete asker record (.inl trivial)
  refine (deletes.and (alike.intact.housed.moves_delete asker record)).mono fun _ after ended => ?_
  obtain ⟨deleted, steps, _⟩ := ended
  have intact := steps.intact alike.intact
  cases deleted with
  | unplaced _ => exact alike
  | unknown _ _ => exact alike
  | failed _ _ attempted =>
    exact alike.roams (attempted.fruitless alike.intact.orderly.locks).1 intact
  | erased _ _ obtains _ alters => exact alike.adopted obtains.roams alters intact

/-- A heap that is registered is over images of the kind, and finds no page of its own in memory. -/
theorem addHeap (alike : db.Alike likeness) {name : String} {store : StoreId}
    (proper : (Command.addHeap name store).Proper db)
    (allowed : ∀ image ∈ (db.storage.view store).images, likeness.allows image) :
    Op.Permits (addHeap name store) db fun _ after => after.Alike likeness := by
  refine ends_addHeap (fun _ => alike) fun heap next registered => ?_
  -- Tables that stay registered are over the stores that they were over.
  obtain ⟨_, _, rfl, _⟩ := Catalog.find?_registerHeap registered
  have old : ∀ {id : PageId} {other}, db.catalog.heap? id.table = some other → next.heap? id.table = some other →
      (standing { db with catalog := next }).image? id = db.standing.image? id := by
    intro id other known knownToo
    simp only [Standing.image?, standing, known, knownToo]
  refine ⟨alike.intact.registered proper registered, fun id image found => ?_, alike.fair,
    fun id page other resident clean known => ?_⟩
  · obtain ⟨other, known⟩ := exists_heap_of_image? found
    have known : next.heap? id.table = some other := known
    rcases Catalog.heap?_eq_some_of_registerHeap registered known with ⟨_, rfl⟩ | ⟨_, _, before⟩
    · simp only [Standing.image?, standing, known] at found
      exact allowed image (List.mem_of_getElem? found)
    · exact alike.images id image (old before known ▸ found)
  · have known : next.heap? id.table = some other := known
    rcases Catalog.heap?_eq_some_of_registerHeap registered known with ⟨new, _⟩ | ⟨_, _, before⟩
    -- No page in memory has the number of the new table yet.
    · rw [proper.2.2 id new] at resident
      cases resident
    · rw [old before known]
      exact alike.clean id page other resident clean before

/-- What is alike stays so whatever else is done. -/
theorem endures (likeness : Likeness) (catalog : Catalog) :
    Endures catalog (fun _ => False) fun db => db.catalog = catalog ∧ db.Alike likeness where
  tables held := held.1
  touch held id := ⟨held.1, held.2.touch id⟩
  bring {db} held id := by
    have brings := (held.2.intact.housed.ensures_bring_exact id).permits
    refine (brings.and (held.2.intact.housed.moves_bring id)).mono fun _ after ended => ?_
    obtain ⟨⟨roams, _⟩, steps, _⟩ := ended
    exact ⟨roams.catalog_eq.trans held.1, held.2.roams roams (steps.intact held.2.intact)⟩
  grant held granted := ⟨held.1, held.2.withLocks (held.2.intact.orderly.locks.grant? granted)⟩
  release held id holder := ⟨held.1, held.2.withLocks (held.2.intact.orderly.locks.release id holder)⟩
  append {db number heap} held registered := by
    have known : db.catalog.heap? number = some heap := held.1 ▸ registered
    have appends := (held.2.intact.ensures_append known).permits
    refine (appends.and (permits_onStorage_beyond _ db)).mono fun _ _ ended => ?_
    exact ⟨ended.2.eq.2.1.trans held.1, held.2.append known ended.1.2⟩
  -- Which page changes, and by whom it is marked, is told with insertion and deletion instead.
  revise _ never := never.elim
  mark _ never := never.elim
  heaps held := held.2.intact.housed.overHeaps
  writeBack held id := (held.2.writeBack id).mono fun _ _ ended => ⟨ended.1.trans held.1, ended.2⟩
  reload held id := (held.2.reload id).mono fun _ _ ended => ⟨ended.1.trans held.1, ended.2⟩
  drop held id := ⟨held.1, held.2.drop id⟩
  count held registered shows := ⟨held.1, held.2.count registered shows⟩
  releaseAll held holder := ⟨held.1, held.2.withLocks (held.2.intact.orderly.locks.releaseAll holder)⟩
  setFailing held store reads writes :=
    (held.2.setFailing store reads writes).mono fun _ _ ended => ⟨ended.1.trans held.1, ended.2⟩

end Alike

end Database

/-- What callers keep to when they register a heap, so that also the images of its store are of a kind. -/
structure Command.ProperOver (allows : Bytes → Prop) (db : Database) (command : Command) : Prop where
  proper : command.Proper db
  images : ∀ name store, command = .addHeap name store → ∀ image ∈ (db.storage.view store).images, allows image

/-- Only registering a heap has to be proper. -/
theorem Command.ProperOver.of_ne {allows : Bytes → Prop} {db : Database} {command : Command}
    (others : ∀ name store, command ≠ .addHeap name store) : command.ProperOver allows db where
  proper := by
    cases command with
    | addHeap name store => exact absurd rfl (others name store)
    | _ => exact trivial
  images name store same := absurd same (others name store)

namespace Database

variable {likeness : Likeness} {db after : Database} {id : PageId}

/-- Every command leaves all alike, unless it traps. -/
theorem Alike.perform (alike : db.Alike likeness) {command : Command}
    (proper : command.ProperOver likeness.allows db) :
    Op.Permits command.perform db fun _ after => after.Alike likeness := by
  -- Commands that change no record are made of what endures.
  have others (kept : ¬ command.Recasts) : Op.Permits command.perform db fun _ after => after.Alike likeness :=
    ((Alike.endures likeness db.catalog).perform ⟨rfl, alike⟩ kept).mono fun _ _ ended => ended.2
  cases command with
  | insert transaction table record =>
    refine (alike.insert transaction table record).andThen ?_
    rintro ⟨answer, stored⟩ after alike
    cases answer with
    | ok _ => exact .pure alike
    | error failure => exact .fail alike
  | delete transaction record => exact (alike.delete transaction record).reply
  | addHeap name store => exact (alike.addHeap proper.proper (proper.images name store rfl)).reply
  | _ => exact others (by simp [Command.Recasts])

/--
The databases that arise over heaps on stores of their own while whoever changes a page marks it.

What the stores hold is of one kind. Commands may have been served in any order, whatever failed, and callers may
have asked for locks, changed and marked the pages in memory and made stores on their own.
-/
inductive Tended (allows : Bytes → Prop) : Database → Prop
  | fresh {db : Database} (fresh : Fresh allows db) : Tended allows db
  | serve {db after : Database} {command : Command} {result : Except Failure Reply} (tended : Tended allows db)
      (proper : command.ProperOver allows db) (served : db.serve command = .ok (result, after)) : Tended allows after
  | lock {db : Database} {id : PageId} {asker : TransactionId} {mode : LockMode} {locks : Locks}
      (tended : Tended allows db) (granted : db.locks.grant? id asker mode = some locks) :
      Tended allows { db with locks }
  | unlock {db : Database} (id : PageId) (holder : TransactionId) (tended : Tended allows db) :
      Tended allows { db with locks := (db.locks.release id holder).2 }
  | unlockAll {db : Database} (holder : TransactionId) (tended : Tended allows db) :
      Tended allows { db with locks := (db.locks.releaseAll holder).2 }
  | handle {db : Database} {id : PageId} {page changed : Page} (tended : Tended allows db)
      (resident : db.pool.page? id = some page) (handles : Handles page changed) (marked : changed.isDirty = true) :
      Tended allows { db with pool := db.pool.editResident id fun _ => changed }
  /-- Stores that no heap is over are made, or change. -/
  | store {db : Database} {storage : Storage} (tended : Tended allows db)
      (same : ∀ number heap, db.catalog.heap? number = some heap →
        storage.view heap.store = db.storage.view heap.store) : Tended allows { db with storage }

/-- Commands that are answered, none of which registers a heap, may be served one after the other. -/
theorem Tended.afterAll {allows : Bytes → Prop} {commands : List Command} (tended : Tended allows db)
    (others : ∀ command ∈ commands, ∀ name store, command ≠ .addHeap name store)
    (answered : db.answersAll commands = true) : Tended allows (db.afterAll commands) :=
  afterAll_keeps tended (fun command member _ _ _ tended served =>
    .serve tended (.of_ne (others command member)) served) answered

/-- Nothing is in memory yet, and all is in order. -/
theorem Fresh.alike (fresh : Fresh likeness.allows db) : db.Alike likeness where
  intact :=
    have orderly := { fresh.orderly with
      images := fun number image member => ⟨(fresh.orderly.images number image member).1, trivial⟩ }
    Fresh.intact ⟨orderly, fresh.pool, fresh.locks⟩
  images id image found := (fresh.orderly.images id.table image (List.mem_of_getElem? found)).2
  fair id page resident := by
    rw [fresh.pool] at resident
    cases resident
  clean id page heap resident := by
    rw [fresh.pool] at resident
    cases resident

/-- While whoever changes a page marks it, all is alike. -/
theorem Tended.alike (tended : Tended likeness.allows db) : db.Alike likeness := by
  induction tended with
  | fresh fresh => exact fresh.alike
  | serve _ proper served ih => exact run_permits (ih.perform proper) served
  | lock _ granted ih => exact ih.withLocks (ih.intact.orderly.locks.grant? granted)
  | unlock id holder _ ih => exact ih.withLocks (ih.intact.orderly.locks.release id holder)
  | unlockAll holder _ ih => exact ih.withLocks (ih.intact.orderly.locks.releaseAll holder)
  -- A caller who changes a page marks it, so nothing is asked of its image.
  | @handle db id page changed _ resident handles marked ih =>
    refine ih.edit (fun _ _ => handles.keeps (ih.intact.kept _ _ resident)) fun _ _ => ⟨?_, marked⟩
    exact likeness.fair_handled handles (ih.fair _ _ resident)
  | store _ same ih =>
    have stands := standing_withOthers same
    have intact : Intact _ := ⟨stands ▸ ih.intact.orderly, fun id page there => stands ▸ ih.intact.kept id page there⟩
    exact ih.update intact rfl (fun id => by rw [stands]) fun _ _ there => .inl there

end Database

end HeapEngine
