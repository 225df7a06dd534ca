import HeapEngine.Proofs.Database.Steps.Records

/-!
Writing pages, taking changes back and ending transactions make small steps, and so does every command.

What always holds is told of every database that arises, whatever its stores hold, whatever was asked of
it, and whatever a caller did to the pages and the locks on its own.
-/

namespace HeapEngine

namespace Database

variable {db before after : Database} {asker : TransactionId} {id : PageId} {heap : Heap}
  {mayTrap : Prop}

/-- What an attempt to write one page comes to. -/
inductive Writing (db : Database) (id : PageId) : Except Failure Bool → Database → Prop
  /-- There is nothing to write. -/
  | clean (clean : ∀ page, db.pool.page? id = some page → page.isDirty = false) : Writing db id (.ok false) db
  /-- The table is not registered any more. -/
  | missing {page : Page} (resident : db.pool.page? id = some page) (dirty : page.isDirty = true)
      (missing : db.catalog.heap? id.table = none) : Writing db id (.error (.noTable id.table)) db
  /-- The store refuses, and shows what it showed. -/
  | refused {page : Page} {heap : Heap} {storage : Storage} (resident : db.pool.page? id = some page)
      (dirty : page.isDirty = true) (registered : db.catalog.heap? id.table = some heap)
      (refuses : (db.storage.view heap.store).writesFail = true)
      (shows : Storage.Shows db.storage heap.store (db.storage.view heap.store) storage) :
      Writing db id (.error (.storage .injectedWrite)) { db with storage }
  /-- The image of the page is stored, and the page has no mark any more. -/
  | written {page : Page} {heap : Heap} {image : Bytes} {storage : Storage}
      (resident : db.pool.page? id = some page) (dirty : page.isDirty = true)
      (registered : db.catalog.heap? id.table = some heap)
      (accepts : (db.storage.view heap.store).writesFail = false) (encoded : page.image = .ok image)
      (shows : Storage.Shows db.storage heap.store { db.storage.view heap.store with
        images := (db.storage.view heap.store).images.set id.number image } storage) :
      Writing db id (.ok true) { db with storage, pool := db.pool.editResident id Page.markWritten }

/-- An attempt to write a page is one step at most. -/
theorem Writing.steps {result : Except Failure Bool} (writing : Writing db id result after) :
    Steps db after := by
  cases writing with
  | clean => exact .refl
  | missing => exact .refl
  | refused resident dirty registered refuses shows => exact .single (.count registered shows)
  | written resident dirty registered accepts encoded shows =>
    exact .single (.write resident registered encoded shows)

/-- Writing a page leaves the tables alone. -/
theorem Writing.catalog_eq {result : Except Failure Bool} (writing : Writing db id result after) :
    after.catalog = db.catalog := by
  cases writing <;> rfl

theorem moves_releaseLocks (asker : TransactionId) :
    Moves mayTrap (releaseLocks asker) db fun _ _ => True := by
  -- It is one step and has no result to tell of, so it may be said to trap or not.
  have releases : Moves False (releaseLocks asker) db fun _ _ => True :=
    ⟨.single (.releaseAll asker), fun _ _ => trivial⟩
  exact releases.of_ensures

theorem moves_discard (id : PageId) : Moves mayTrap (discard id) db fun _ _ => True := by
  have drops : Moves False (discard id) db fun _ _ => True := ⟨.single (.drop id), fun _ _ => trivial⟩
  exact drops.of_ensures

/-- A store in memory can be told to fail at any time. -/
theorem moves_setFailing (store : Nat) (reads writes : Bool) :
    Moves mayTrap (onStorage (Storage.onArray store (modify (PageArray.setFailing reads writes)))) db
      fun _ _ => True := by
  have switches : Moves False
      (onStorage (Storage.onArray store (modify (PageArray.setFailing reads writes)))) db fun _ _ => True := by
    refine .onStorage ((Storage.ensures_setFailing db.storage store reads writes).mono ?_)
    exact fun _ storage ended => ⟨.single (.switch ended.2), fun _ _ => trivial⟩
  exact switches.of_ensures

namespace Housed

variable (housed : db.Housed)

include housed

/-- A page is written if it has changes and its store accepts it. Writing does not trap. -/
theorem ensures_writeBack (id : PageId) :
    Op.Ensures (writeBack id) db fun result after => Writing db id result after := by
  unfold writeBack
  -- A page that is absent or clean is not written, and nothing is asked of its table.
  refine .get_bind ?_
  cases resident : db.pool.page? id with
  | none => exact .pure (.clean (by simp [resident]))
  | some page =>
    refine .ite (fun clean => .pure (.clean fun held found => ?_)) fun dirty => ?_
    · rw [resident] at found
      cases found
      simpa using clean
    have dirty : page.isDirty = true := by simpa using dirty
    refine housed.overHeaps.ends_tableAt_bind (fun missing => .missing resident dirty missing) fun heap registered => ?_
    -- A page in memory has an image, and a place in its store.
    have keeps := housed.kept id page resident
    obtain ⟨image, encoded, long⟩ := keeps.encodable.exists_image
    obtain ⟨old, stored⟩ := keeps.stored heap registered
    have within := (List.getElem?_eq_some_iff.1 stored).1
    rw [shown_eq registered, ← keeps.name] at within
    have size := keeps.size.trans (housed.pageSize registered).1.symm
    have writes : Op.Ensures (writeStored id.table (.heap heap) page) db fun result after =>
        ∃ storage, after = { db with storage } ∧ if (db.storage.view heap.store).writesFail then
            result = .error (.storage .injectedWrite)
              ∧ Storage.Shows db.storage heap.store (db.storage.view heap.store) storage
          else result = .ok () ∧ Storage.Shows db.storage heap.store { db.storage.view heap.store with
            images := (db.storage.view heap.store).images.set id.number image } storage := by
      refine .onStorage ((Storage.ensures_write (housed.pageSize_pos registered) size encoded long
        within).mono ?_)
      intro result storage ended
      rw [keeps.name] at ended
      exact ⟨storage, rfl, ended⟩
    refine writes.bind ?_ ?_
    · intro failure after ended
      -- Whether the store refuses was settled before, and a refusal told leaves the image as it was.
      obtain ⟨storage, rfl, ended⟩ := ended
      split at ended
      · rename_i refuses
        obtain ⟨told, shows⟩ := ended
        cases told
        exact .refused resident dirty registered refuses shows
      · cases ended.1
    · intro _ after ended
      obtain ⟨storage, rfl, ended⟩ := ended
      split at ended
      · cases ended.1
      · rename_i accepts
        exact .onPool_bind (.pure
          (.written resident dirty registered (Bool.eq_false_iff.2 accepts) encoded ended.2))

theorem moves_writeBack (id : PageId) : Moves mayTrap (writeBack id) db fun _ _ => True := by
  have writes : Moves False (writeBack id) db fun _ _ => True :=
    (housed.ensures_writeBack id).mono fun _ _ writing => ⟨writing.steps, fun _ _ => trivial⟩
  exact writes.of_ensures

/-- What makes small steps wherever the database is housed goes on with the steps that led there. -/
theorem preserves_steps {α : Type} {action : Op Database α}
    (moves : ∀ middle : Database, middle.Housed → Moves mayTrap action middle fun _ _ => True) :
    Op.Preserves mayTrap (Steps db) action :=
  fun middle steps => (moves middle (steps.housed housed)).mono fun _ _ ended => steps.trans ended.1

theorem moves_writeBackEach (ids : List PageId) :
    Moves mayTrap (writeBackEach ids) db fun _ _ => True :=
  .of_preserves (preserves_writeBackEach fun id _ =>
    housed.preserves_steps fun _ housed => housed.moves_writeBack id)

theorem moves_writeBackOf (asker : TransactionId) :
    Moves mayTrap (writeBackOf asker) db fun _ _ => True :=
  .get_bind (housed.moves_writeBackEach _)

theorem moves_syncAt (number : Nat) : Moves mayTrap (syncAt number) db fun _ _ => True := by
  -- An unknown table ends the loop. A known one is made durable, which only counts.
  refine housed.moves_tableAt_bind fun heap registered => ?_
  have syncs : Moves False (syncTable number (.heap heap)) db fun _ _ => True := by
    refine .onStorage ((Storage.ensures_sync db.storage heap.store).mono ?_)
    exact fun _ storage ended => ⟨.single (.count registered ended.2), fun _ _ => trivial⟩
  exact syncs.of_ensures

theorem moves_checkpoint : Moves mayTrap checkpoint db fun _ _ => True := by
  apply Moves.of_preserves
  apply preserves_checkpoint
  · exact fun id => housed.preserves_steps fun _ housed => housed.moves_writeBack id
  · exact fun number => housed.preserves_steps fun _ housed => housed.moves_syncAt number

/-- A page is read anew, or dropped if it cannot be read. -/
theorem moves_reload (id : PageId) : Moves mayTrap (reload id) db fun _ _ => True := by
  -- What is read anew is what is stored then, though the tables were looked up before.
  have reads : Moves mayTrap (do readStored (← tableAt id.table) id) db fun page after =>
      after.standing.stored? id = some page ∧ after.pool = db.pool :=
    housed.moves_tableAt_bind fun heap registered => housed.moves_readStored registered
  refine reads.attempt_bind fun answer after steps ended => ?_
  cases answer with
  | ok page => exact .onPool_bind (.restore (ended page rfl).1) (.pure trivial)
  | error failure => exact .onPool_bind (.drop id) (.pure trivial)

theorem moves_reloadEach (ids : List PageId) : Moves mayTrap (reloadEach ids) db fun _ _ => True :=
  .of_preserves (preserves_reloadEach fun id _ => housed.preserves_steps fun _ housed => housed.moves_reload id)

/-- A transaction can end in either way, whatever the stores hold. -/
theorem moves_finish (asker : TransactionId) (ending : Ending) :
    Moves mayTrap (finish asker ending) db fun _ _ => True := by
  apply Moves.of_preserves
  refine preserves_finish ?_ ?_ ?_ ending
  · exact fun id => housed.preserves_steps fun _ housed => housed.moves_writeBack id
  · exact fun id => housed.preserves_steps fun _ housed => housed.moves_reload id
  · exact housed.preserves_steps fun _ _ => moves_releaseLocks asker

theorem moves_ask (request : PageRequest) : Moves True request.ask db fun _ _ => True :=
  .of_permits ((housed.lasts.ask .refl request).mono fun _ _ ended => ended.1)

theorem moves_start (request : PageRequest) : Moves True request.start db fun _ _ => True :=
  .of_permits ((housed.lasts.start .refl request).mono fun _ _ ended => ended.1)

end Housed

end Database

/--
What callers keep to when they register a heap; for all else they may ask.

The heap is over a store apart from those of the heaps that stay registered, the store holds pages of the
common size, and no page that is in memory has the number that is given out, as one could after all
numbers were given out once.
-/
def Command.Proper (db : Database) : Command → Prop
  | addHeap name store =>
    (∀ number heap, db.catalog.heap? number = some heap → number ≠ db.catalog.nextNumber →
      db.catalog.numbers.find? name ≠ some number → store.Apart heap.store)
    ∧ (∀ image ∈ (db.storage.view store).images, image.length = db.settings.pageSize)
    ∧ ∀ id, id.table = db.catalog.nextNumber → db.pool.page? id = none
  | _ => True

namespace Database

variable {db before after : Database} {id : PageId}

namespace Housed

variable (housed : db.Housed)

include housed

/-- Every command but the one that registers a heap makes small steps. -/
theorem moves_perform {command : Command} (registersNone : ∀ name store, command ≠ .addHeap name store) :
    Moves True command.perform db fun _ _ => True := by
  -- Commands that give nothing back make the steps of what they do.
  have done {α : Type} {action : Op Database α} (moves : Moves True action db fun _ _ => True) :
      Moves True (do let _ ← action; return Reply.done) db fun _ _ => True :=
    moves.bind fun _ _ _ _ => .pure trivial
  cases command with
  | acquire transaction page access =>
    exact (housed.moves_acquire transaction page access).bind fun _ _ _ _ => .pure trivial
  | insert transaction table record =>
    refine (housed.moves_insert transaction table record).bind fun value _ _ _ => ?_
    obtain ⟨answer, stored⟩ := value
    cases answer with
    | ok _ => exact .pure trivial
    | error failure => exact .fail
  | delete transaction record => exact done (housed.moves_delete transaction record)
  | scan cursor count => exact (housed.moves_take cursor count).bind fun _ _ _ _ => .pure trivial
  | finish transaction ending => exact done (housed.moves_finish transaction ending)
  | writeBack page => exact done (housed.moves_writeBack page)
  | writeBackOf transaction => exact done (housed.moves_writeBackOf transaction)
  | checkpoint => exact done housed.moves_checkpoint
  | start request => exact (housed.moves_start request).bind fun _ _ _ _ => .pure trivial
  | ask request => exact (housed.moves_ask request).bind fun _ _ _ _ => .pure trivial
  | releaseEarly transaction page => exact done (housed.moves_releaseEarly transaction page)
  | discard page => exact done (moves_discard page)
  | setFailing store reads writes => exact done (moves_setFailing store reads writes)
  | addHeap name store => exact absurd rfl (registersNone name store)

/-- A heap that is registered finds no page of its own in memory. It may be over a store that another is over. -/
theorem registered {name : String} {store : StoreId} {heap : Heap} {next : Catalog}
    (images : ∀ image ∈ (db.storage.view store).images, image.length = db.settings.pageSize)
    (free : ∀ id, id.table = db.catalog.nextNumber → db.pool.page? id = none)
    (registered : db.catalog.registerHeap name store (db.storage.pageSize store) = .ok (heap, next)) :
    Housed { db with catalog := next } := by
  obtain ⟨size, nextSize, rfl, _⟩ := Catalog.find?_registerHeap registered
  have tables := Catalog.forall_registerHeap registered ⟨store, rfl⟩ housed.tables
  refine ⟨housed.settings, nextSize.trans housed.catalog, tables, ?_, ?_⟩
  -- A number leads to the new heap, or to one that was registered before.
  · intro number other known
    rcases Catalog.heap?_eq_some_of_registerHeap registered known with ⟨_, rfl⟩ | ⟨_, _, old⟩
    · -- The size of the new heap's pages was compared with that of the catalog.
      exact ⟨(Storage.pageSize_view db.storage store ▸ size).trans housed.catalog, images⟩
    · exact housed.stores number other old
  · intro id page resident
    have keeps := housed.kept id page resident
    refine ⟨keeps.name, keeps.size, keeps.encodable, fun other known => ?_⟩
    rcases Catalog.heap?_eq_some_of_registerHeap registered known with ⟨new, _⟩ | ⟨_, _, old⟩
    · rw [free id new] at resident
      cases resident
    · -- The heap was registered before, and its store is what it was.
      have same : (standing { db with catalog := next }).shown id.table = db.standing.shown id.table := by
        simp only [standing, old, show next.heap? id.table = some other from known]
      obtain ⟨image, found⟩ := keeps.stored other old
      exact ⟨image, by rwa [Standing.image?, same]⟩

end Housed

namespace Intact

variable (intact : db.Intact)

include intact

/-- A heap that is registered finds no page of its own in memory, and takes none from another. -/
theorem registered {name : String} {store : StoreId} {heap : Heap} {next : Catalog}
    (proper : (Command.addHeap name store).Proper db)
    (registered : db.catalog.registerHeap name store (db.storage.pageSize store) = .ok (heap, next)) :
    Intact { db with catalog := next } := by
  obtain ⟨apart, images, free⟩ := proper
  -- The store of the new heap lies apart from all others, which is what being housed does not ask.
  exact ⟨orderly_registered intact.orderly apart (fun image member => ⟨images image member, trivial⟩) registered,
    (intact.housed.registered images free registered).kept⟩

/-- Every command leaves what always holds, unless it traps. -/
theorem ends_perform {command : Command} (proper : command.Proper db) :
    Op.Permits command.perform db fun _ after => after.Intact := by
  cases command with
  | addHeap name store =>
    have adds : Op.Permits (addHeap name store) db fun _ after => after.Intact :=
      ends_addHeap (fun _ => intact) fun _ _ registered => intact.registered proper registered
    exact adds.reply
  -- All other commands make small steps, and each of these keeps what always holds.
  | _ => exact Op.Ends.mono (intact.housed.moves_perform nofun) fun _ _ ended => ended.1.intact intact

end Intact

/-- What a caller can do to a page that it was given, past the database. -/
inductive Handles (page : Page) : Page → Prop
  | insert {cell : Bytes} {slot : Nat} {changed : Page}
      (inserted : page.insert cell = .ok (changed, slot)) : Handles page changed
  | erase {slot : Nat} {changed : Page} (erased : page.erase slot = .ok changed) : Handles page changed
  | mark (asker : TransactionId) : Handles page (page.markChanged asker)
  | clean : Handles page page.markWritten

/--
The databases that arise over heaps on stores of their own, whatever the stores hold.

Commands may have been served in any order, whatever failed, and callers may have asked for locks, changed
the pages in memory and made stores on their own.
-/
inductive Arises : Database → Prop
  | fresh {db : Database} (fresh : Fresh (fun _ => True) db) : Arises db
  | serve {db after : Database} {command : Command} {result : Except Failure Reply} (arises : Arises db)
      (proper : command.Proper db) (served : db.serve command = .ok (result, after)) : Arises after
  | lock {db : Database} {id : PageId} {asker : TransactionId} {mode : LockMode} {locks : Locks}
      (arises : Arises db) (granted : db.locks.grant? id asker mode = some locks) :
      Arises { db with locks }
  | unlock {db : Database} (id : PageId) (holder : TransactionId) (arises : Arises db) :
      Arises { db with locks := (db.locks.release id holder).2 }
  | unlockAll {db : Database} (holder : TransactionId) (arises : Arises db) :
      Arises { db with locks := (db.locks.releaseAll holder).2 }
  | handle {db : Database} {id : PageId} {page changed : Page} (arises : Arises db)
      (resident : db.pool.page? id = some page) (handles : Handles page changed) :
      Arises { db with pool := db.pool.editResident id fun _ => changed }
  /-- Stores that no heap is over are made, or change. -/
  | store {db : Database} {storage : Storage} (arises : Arises db)
      (same : ∀ number heap, db.catalog.heap? number = some heap →
        storage.view heap.store = db.storage.view heap.store) : Arises { db with storage }

/-- Nothing is in memory yet, and all is in order. -/
theorem Fresh.intact (fresh : Fresh (fun _ => True) db) : db.Intact := by
  refine ⟨fresh.orderly, fun id page resident => ?_⟩
  rw [fresh.pool] at resident
  cases resident

/-- A page that a caller changed has its name, its size and an image still. -/
theorem Handles.keeps {standing : Standing} {page changed : Page} (handles : Handles page changed)
    (keeps : standing.Keeps id page) : standing.Keeps id changed := by
  -- Storing and erasing keep all but the cells, and a mark is none of what has to be kept.
  have of_reworks (reworks : page.Reworks changed) : standing.Keeps id changed :=
    ⟨reworks.id.trans keeps.name, reworks.size.trans keeps.size, reworks.encodable, keeps.stored⟩
  have encodable := keeps.encodable
  cases handles with
  | insert inserted => exact of_reworks (encodable.insert inserted)
  | erase erased => exact of_reworks (encodable.erase erased)
  | mark asker =>
    exact ⟨keeps.name, keeps.size, ⟨encodable.large, encodable.directory, encodable.cells⟩, keeps.stored⟩
  | clean =>
    exact ⟨keeps.name, keeps.size, ⟨encodable.large, encodable.directory, encodable.cells⟩, keeps.stored⟩

/-- What always holds is told of every database that arises. -/
theorem Arises.intact (arises : Arises db) : db.Intact := by
  -- A command is the only one of these that can trap, and after a trap nothing arises.
  induction arises with
  | fresh fresh => exact fresh.intact
  | serve _ proper served ih => exact run_permits (ih.ends_perform proper) served
  | lock _ granted ih => exact (Step.grant granted).intact ih
  | unlock id holder _ ih => exact (Step.release id holder).intact ih
  | unlockAll holder _ ih => exact (Step.releaseAll holder).intact ih
  | handle _ resident handles ih => exact ih.editResident fun _ _ => handles.keeps (ih.kept _ _ resident)
  | store _ same ih =>
    have stands := standing_withOthers same
    exact ⟨stands ▸ ih.orderly, fun id page resident => stands ▸ ih.kept id page resident⟩

end Database

end HeapEngine
