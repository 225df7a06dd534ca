import HeapEngine.Proofs.Database.Lasting
import HeapEngine.Proofs.Database.Run

/-!
Getting pages, and storing, deleting and reading records, make small steps at most.

Where the stores hold pages that are not sound an operation may trap. It is said of each whether it may.
-/

namespace HeapEngine

namespace Database

variable {db before after : Database} {asker : TransactionId} {id : PageId} {heap : Heap}
  {α β : Type} {mayTrap : Prop} {post : α → Database → Prop}

/-- An operation makes small steps at most, and what is promised holds if it succeeds. -/
def Moves (mayTrap : Prop) (action : Op Database α) (db : Database) (post : α → Database → Prop) : Prop :=
  Op.Ends mayTrap action db fun result after =>
    Steps db after ∧ ∀ value, result = .ok value → post value after

namespace Moves

theorem pure {value : α} (holds : post value db) : Moves mayTrap (Pure.pure value) db post := by
  refine Op.Ends.pure ⟨.refl, fun other told => ?_⟩
  cases told
  exact holds

/-- Where steps are gone on with, they are made. -/
theorem of_preserves {action : Op Database α} (kept : Op.Preserves mayTrap (Steps db) action) :
    Moves mayTrap action db fun _ _ => True :=
  (kept db .refl).mono fun _ _ steps => ⟨steps, fun _ _ => trivial⟩

theorem fail {failure : Failure} :
    Moves mayTrap (liftM (HeapEngine.fail failure : Outcome α) : Op Database α) db post :=
  Op.Ends.fail ⟨.refl, by simp⟩

/-- Operations in turn make the steps of both. -/
theorem bind {first : Op Database β} {next : β → Op Database α} {middle : β → Database → Prop}
    (moves : Moves mayTrap first db middle)
    (continued : ∀ value between, Steps db between → middle value between →
      Moves mayTrap (next value) between post) :
    Moves mayTrap (first >>= next) db post := by
  -- The steps of the first operation are made in any case, also if the second one fails.
  refine Op.Ends.bind moves (fun _ _ ended => ⟨ended.1, by simp⟩) ?_
  intro value between ended
  obtain ⟨steps, holds⟩ := ended
  refine (continued value between steps (holds value rfl)).mono ?_
  intro result after ended
  exact ⟨steps.trans ended.1, ended.2⟩

/-- After an attempt the operation goes on, whether the attempt failed or not. -/
theorem attempt_bind {first : Op Database β} {next : Except Failure β → Op Database α}
    {middle : β → Database → Prop} (moves : Moves mayTrap first db middle)
    (continued : ∀ answer between, Steps db between →
      (∀ value, answer = .ok value → middle value between) → Moves mayTrap (next answer) between post) :
    Moves mayTrap (attempt first >>= next) db post := by
  -- Unlike in a sequence, a failed attempt has made its steps and is gone on from.
  refine Op.Ends.attempt_bind moves ?_
  intro answer between ended
  obtain ⟨steps, holds⟩ := ended
  refine (continued answer between steps holds).mono ?_
  intro result after ended
  exact ⟨steps.trans ended.1, ended.2⟩

/-- An operation that is permitted to make small steps may trap. -/
theorem of_permits {action : Op Database α} (permits : Op.Permits action db fun _ after => Steps db after) :
    Moves True action db fun _ _ => True :=
  Op.Ends.mono permits fun _ _ steps => ⟨steps, fun _ _ => trivial⟩

/-- What does not trap need not be permitted to. -/
theorem of_ensures {action : Op Database α} (moves : Moves False action db post) :
    Moves mayTrap action db post := Op.Ensures.ends moves

/-- Looking at the database is no step. -/
theorem get_bind {next : Database → Op Database α} (moves : Moves mayTrap (next db) db post) :
    Moves mayTrap (MonadState.get >>= next) db post := moves

/-- A step that changes the pages in memory, and what follows. -/
theorem onPool_bind {change : Pool → β × Pool} {next : β → Op Database α}
    (step : Step db { db with pool := (change db.pool).2 })
    (moves : Moves mayTrap (next (change db.pool).1) { db with pool := (change db.pool).2 } post) :
    Moves mayTrap (onPool change >>= next) db post :=
  -- The change of the pool comes before all that follows.
  Op.Ends.mono (Op.Ends.onPool_bind moves) fun _ _ ended => ⟨.head step ended.1, ended.2⟩

theorem onPool {change : Pool → α × Pool} (step : Step db { db with pool := (change db.pool).2 })
    (holds : post (change db.pool).1 { db with pool := (change db.pool).2 }) :
    Moves mayTrap (onPool change) db post := by
  refine Op.Ends.onPool ⟨.single step, fun value told => ?_⟩
  cases told
  exact holds

theorem ite {condition : Prop} [Decidable condition] {yes no : Op Database α}
    (whenTrue : condition → Moves mayTrap yes db post) (whenFalse : ¬ condition → Moves mayTrap no db post) :
    Moves mayTrap (if condition then yes else no) db post :=
  Op.Ends.ite whenTrue whenFalse

end Moves

/-- Making room drops a page at most, and what is stored stays. -/
theorem moves_makeRoom :
    Moves mayTrap makeRoom db fun _ after => ∀ id, after.standing.stored? id = db.standing.stored? id := by
  -- Making room cannot trap, so it need not be said whether it may.
  have drops : Moves False makeRoom db fun _ after =>
      ∀ id, after.standing.stored? id = db.standing.stored? id := by
    refine (ensures_makeRoom_rooms db).mono fun result after rooms => ?_
    cases rooms with
    | there => exact ⟨.refl, fun _ _ _ => rfl⟩
    | full => exact ⟨.refl, by simp⟩
    | drop _ _ => exact ⟨.single (.drop _), fun _ _ _ => rfl⟩
  exact drops.of_ensures

/-- The current copy of a page can be looked at. -/
theorem moves_lookAt {copy : CopyId} (current : db.pool.isCurrent copy = true) :
    Moves mayTrap (lookAt copy) db fun page after => after = db ∧ db.pool.page? copy.page = some page := by
  -- The frame of the current copy is there, so there is a page to look at.
  obtain ⟨page, resident⟩ := exists_page_of_current current
  have looks : Moves False (lookAt copy) db fun page after =>
      after = db ∧ db.pool.page? copy.page = some page := by
    refine (ensures_lookAt current resident).mono ?_
    intro result after ended
    obtain ⟨rfl, rfl⟩ := ended
    refine ⟨.refl, fun _ told => ?_⟩
    cases told
    exact ⟨rfl, resident⟩
  exact looks.of_ensures

namespace Housed

variable (housed : db.Housed)

include housed

/-- All tables are heaps. -/
theorem overHeaps : db.OverHeaps := by
  -- A housed table is a heap under its own number; only the first half is said here.
  intro number table found
  obtain ⟨store, same⟩ := housed.tables number table found
  exact ⟨_, same⟩

theorem heap_table {number : Nat} (registered : db.catalog.heap? number = some heap) : heap.table = number :=
  Catalog.heap_table housed.tables registered

/-- Looking for a table finds a registered heap, or nothing. -/
theorem find_eq (number : Nat) : db.catalog.find number = match db.catalog.heap? number with
    | some heap => .ok (.heap heap)
    | none => .error (.noTable number) := by
  -- What is found in the catalog is a heap, as no other tables are registered.
  unfold Catalog.find Catalog.heap?
  cases found : db.catalog.tables.find? number with
  | none => rfl
  | some table =>
    obtain ⟨heap, rfl⟩ := housed.overHeaps number table found
    rfl

/-- Looking for a table finds a registered heap, or fails without a step. -/
theorem moves_tableAt_bind {number : Nat} {next : Table → Op Database α}
    (found : ∀ heap, db.catalog.heap? number = some heap → Moves mayTrap (next (.heap heap)) db post) :
    Moves mayTrap (tableAt number >>= next) db post :=
  housed.overHeaps.ends_tableAt_bind (fun _ => ⟨.refl, by simp⟩) found

/-- The stores of all heaps have pages of one size, and a page has room for a record. -/
theorem pageSize {number : Nat} (registered : db.catalog.heap? number = some heap) :
    (db.storage.view heap.store).pageSize = db.settings.pageSize ∧ 21 ≤ db.settings.pageSize
      ∧ db.settings.pageSize ≤ 65535 := by
  have size := (housed.stores number heap registered).1
  exact ⟨size, (Settings.check_eq_ok housed.settings).2⟩

theorem pageSize_pos {number : Nat} (registered : db.catalog.heap? number = some heap) :
    0 < (db.storage.view heap.store).pageSize := by
  obtain ⟨size, least, _⟩ := housed.pageSize registered
  omega

/-- Counting the pages of a registered heap has an answer. -/
theorem heapPageCount_eq {number : Nat} (registered : db.catalog.heap? number = some heap) :
    heapPageCount heap db = .ok (db.standing.shown number).images.length db := by
  have count := Storage.pageCount_eq (housed.pageSize_pos registered)
  rw [shown_eq registered]
  show (liftM (db.storage.pageCount heap.store) : Op Database Nat) db = _
  rw [count]
  rfl

/-- A store that goes on showing the same changes nothing that the database stands for. -/
theorem standing_count {number : Nat} {storage : Storage}
    (registered : db.catalog.heap? number = some heap)
    (shows : Storage.Shows db.storage heap.store (db.storage.view heap.store) storage) :
    standing { db with storage } = db.standing := by
  -- Stores of other heaps are the same one or have no byte in common with it.
  refine standing_withOthers fun other neighbour known => ?_
  exact shows.same neighbour.store (housed.same_or_apart registered known)

/-- Reading past the pages in memory gives what the store shows, and the store counts it. -/
theorem ensures_readStored (registered : db.catalog.heap? id.table = some heap) :
    Op.Ensures (readStored (.heap heap) id) db fun result after =>
      (db.standing.shown id.table).read id = Outcome.ofResult result
        ∧ ∃ storage, after = { db with storage }
          ∧ Storage.Shows db.storage heap.store (db.storage.view heap.store) storage := by
  -- The store is asked once, and it shows afterwards what it showed.
  refine .onStorage ((Storage.ensures_read (housed.pageSize_pos registered) id).mono ?_)
  intro result storage ended
  obtain ⟨told, shows⟩ := ended
  rw [shown_eq registered]
  exact ⟨told, storage, rfl, shows⟩

/-- What is read past the pages in memory is what is stored. -/
theorem moves_readStored (registered : db.catalog.heap? id.table = some heap) :
    Moves mayTrap (readStored (.heap heap) id) db fun page after =>
      after.standing.stored? id = some page ∧ after.pool = db.pool := by
  have reads : Moves False (readStored (.heap heap) id) db fun page after =>
      after.standing.stored? id = some page ∧ after.pool = db.pool := by
    -- Counting the read is a step, and it changes nothing that is stored.
    refine (housed.ensures_readStored registered).mono ?_
    intro result after ended
    obtain ⟨told, storage, rfl, shows⟩ := ended
    refine ⟨.single (.count registered shows), fun page read => ⟨?_, rfl⟩⟩
    rw [housed.standing_count registered shows]
    subst read
    exact Standing.stored?_of_read told
  exact reads.of_ensures

/-- A page that is brought into memory is there. -/
theorem moves_bring (id : PageId) :
    Moves mayTrap (bring id) db fun copy after => copy.page = id ∧ after.pool.isCurrent copy = true := by
  -- Asking the pool for the page is the first step, whether the page is there or not.
  obtain ⟨-, current, answer⟩ := Pool.touch_eq db.pool id
  have touched : Step db _ := .touch id
  refine .onPool_bind touched ?_
  cases asked : (db.pool.touch id).1 with
  | some copy =>
    rw [asked] at answer
    exact .pure ⟨answer.1, (current copy).trans answer.2⟩
  | none =>
    -- From here on the page is not in memory, and it is read before room is made for it.
    refine (touched.housed housed).moves_tableAt_bind fun heap registered => ?_
    refine ((touched.housed housed).moves_readStored registered).bind ?_
    intro page read steps ended
    refine moves_makeRoom.bind ?_
    intro _ roomy _ kept
    -- What was read is stored still, so it may be loaded.
    have stored : roomy.standing.stored? id = some page := (kept id).trans ended.1
    exact .onPool (.load stored) ⟨rfl, (roomy.pool.load_eq id page).2.2⟩

/-- Appending a page adds the image of an empty page. -/
theorem ensures_append {number : Nat} (registered : db.catalog.heap? number = some heap) :
    Op.Ensures (onStorage (Storage.append heap.store)) db fun result after =>
      result = .ok (db.storage.view heap.store).images.length ∧ ∃ image storage, after = { db with storage }
        ∧ (Page.empty ⟨0, (db.storage.view heap.store).images.length⟩
          (db.storage.view heap.store).pageSize).image = .ok image
        ∧ image.length = db.settings.pageSize ∧ (∀ kind : ImageKind, kind.allows image)
        ∧ Storage.Shows db.storage heap.store { db.storage.view heap.store with
          images := (db.storage.view heap.store).images ++ [image] } storage := by
  -- The empty page fits the pages of the store, since the sizes agree.
  have size := (housed.pageSize registered).1
  obtain ⟨image, encoded, long, allowed⟩ := Settings.exists_image_empty housed.settings
    ⟨0, (db.storage.view heap.store).images.length⟩
  rw [← size] at encoded long
  refine .onStorage ((Storage.ensures_append (housed.pageSize_pos registered) encoded long).mono ?_)
  intro result storage ended
  exact ⟨ended.1, image, storage, rfl, encoded, long.trans size, allowed, ended.2⟩

/-- A page that is appended to a heap is empty. -/
theorem moves_append {number : Nat} (registered : db.catalog.heap? number = some heap) :
    Moves mayTrap (onStorage (Storage.append heap.store)) db fun _ _ => True := by
  have appends : Moves False (onStorage (Storage.append heap.store)) db fun _ _ => True := by
    -- What the store shows afterwards is one image more, and that is the step.
    refine (housed.ensures_append registered).mono fun result after ended => ?_
    obtain ⟨_, image, storage, rfl, _, long, _, shows⟩ := ended
    exact ⟨.single (.append registered long shows), fun _ _ => trivial⟩
  exact appends.of_ensures

/-- Looking for records, storing them and deleting them makes small steps. -/
theorem lasts : Lasts db.catalog (fun _ => True) (Steps db) where
  -- Every way of making steps is taken over by `Lasts`, so that the operations are gone through only once.
  tables steps := steps.catalog_eq.1
  touch steps id := steps.tail (.touch id)
  bring steps id := Op.Ends.mono ((steps.housed housed).moves_bring id) fun _ _ ended => steps.trans ended.1
  grant steps granted := steps.tail (.grant granted)
  release steps id holder := steps.tail (.release id holder)
  append steps registered :=
    Op.Ends.mono ((steps.housed housed).moves_append (steps.heap? registered)) fun _ _ ended => steps.trans ended.1
  revise steps _ resident revises := steps.tail (.revise resident revises)
  mark steps _ writes resident := steps.tail (.mark resident writes)

/-- A page that was given to a transaction is in memory. -/
theorem moves_acquire (asker : TransactionId) (id : PageId) (access : Access) :
    Moves True (acquire asker id access) db fun copy after =>
      copy.page = id ∧ after.pool.isCurrent copy = true := by
  refine (housed.lasts.acquire .refl asker id access).mono fun result after ended => ?_
  refine ⟨ended.1, fun copy told => ?_⟩
  obtain ⟨here, current, _⟩ := ended.2 copy told
  exact ⟨here, current⟩

theorem moves_releaseEarly (asker : TransactionId) (id : PageId) :
    Moves True (releaseEarly asker id) db fun _ _ => True :=
  .of_permits (housed.lasts.releaseEarly .refl asker id)

/-- The first page with room is looked for, and pages without are released again. -/
theorem moves_insertFrom (heap : Heap) (asker : TransactionId) (record : Record) (size left number : Nat) :
    Moves True (insertFrom heap asker record size left number) db fun _ _ => True := by
  refine .of_permits ((housed.lasts.insertFrom .refl heap asker record size left number).mono ?_)
  intro result after ended
  -- Either no page was tried, or none had room, or the record was stored and its page is marked.
  rcases result with failure | none | stored
  · exact ended
  · exact ended
  · obtain ⟨_, _, _, steps, _, alters⟩ := ended
    exact housed.lasts.altered steps alters trivial

/-- Storing a record stores it on a page and marks the page. -/
theorem moves_insert (asker : TransactionId) (number : Nat) (record : Record) :
    Moves True (insert asker number record) db fun _ _ => True := by
  have lasting := housed.lasts.insert .refl (housed.overHeaps number) asker record
  refine .of_permits (lasting.mono fun result after ended => ?_)
  obtain ⟨answer, _, _, outcome⟩ := ended
  -- A refusal leaves what the search left, and a success marks the page besides.
  cases answer with
  | error failure => exact outcome
  | ok _ =>
    obtain ⟨_, _, _, _, _, _, _, _, _, steps⟩ := outcome
    exact steps trivial

/-- Deleting a record erases it from its page and marks the page. -/
theorem moves_delete (asker : TransactionId) (record : Record) :
    Moves True (delete asker record) db fun _ _ => True := by
  have deletes := housed.lasts.delete .refl housed.overHeaps asker record
  refine .of_permits (deletes.mono fun result after ended => ?_)
  cases result with
  | error failure => exact ended
  | ok _ =>
    obtain ⟨_, _, steps⟩ := ended
    exact steps trivial

theorem moves_next (scan : Scan) : Moves True scan.next db fun _ _ => True :=
  .of_permits (housed.lasts.next .refl scan)

theorem moves_take (scan : Scan) (count : Nat) : Moves True (scan.take count) db fun _ _ => True :=
  .of_permits (housed.lasts.take .refl scan count)

end Housed

end Database

end HeapEngine
