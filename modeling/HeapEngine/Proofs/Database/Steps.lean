import Mathlib.Logic.Relation
import HeapEngine.Proofs.Database.Tables
import HeapEngine.Proofs.Page.Encodable

/-!
What a database does, one small step after the other, whatever the stores hold.

Nothing is asked of the pages here: their cells may overlap, and an operation on them may trap. What one
step can do is said once, and what every step keeps is kept by every operation.
-/

namespace HeapEngine

/-- A record is stored on a page, or erased from it. -/
inductive Page.Revises (page : Page) : Page → Prop
  | insert {record : Record} {place : RecordId} {changed : Page}
      (inserted : page.insertRecord record = .ok (changed, place)) : page.Revises changed
  | erase {record : Record} {changed : Page} (erased : page.eraseRecord record = .ok changed) :
      page.Revises changed

theorem Page.Revises.reworks {page changed : Page} (revises : page.Revises changed)
    (encodable : page.Encodable) : page.Reworks changed := by
  cases revises with
  | insert inserted => exact encodable.insertRecord inserted
  | erase erased => exact encodable.eraseRecord erased

/-- All images of a store are of one size, which is that of its pages. -/
def StoreView.Uniform (view : StoreView) (size : Nat) : Prop :=
  view.pageSize = size ∧ ∀ image ∈ view.images, image.length = size

/-- Whether a page may be in memory, whatever it holds: it has its name, its size and a place it is stored at. -/
structure Standing.Keeps (standing : Standing) (id : PageId) (page : Page) : Prop where
  name : page.id = id
  size : page.size = standing.settings.pageSize
  encodable : page.Encodable
  /-- The table may be registered no more, and then the page has no place. -/
  stored : ∀ heap, standing.catalog.heap? id.table = some heap → ∃ image, standing.image? id = some image

namespace Database

variable {db before after : Database} {id : PageId} {heap : Heap}

/-- One small change of a database. Every operation makes some of them, one after the other. -/
inductive Step (db : Database) : Database → Prop
  /-- A page is asked for. -/
  | touch (id : PageId) : Step db { db with pool := (db.pool.touch id).2 }
  | drop (id : PageId) : Step db { db with pool := db.pool.drop id }
  /-- A page is brought into memory as it is stored. -/
  | load {id : PageId} {page : Page} (stored : db.standing.stored? id = some page) :
      Step db { db with pool := (db.pool.load id page).2 }
  /-- The page in memory becomes what is stored. -/
  | restore {id : PageId} {page : Page} (stored : db.standing.stored? id = some page) :
      Step db { db with pool := db.pool.editResident id fun _ => page }
  | revise {id : PageId} {page changed : Page} (resident : db.pool.page? id = some page)
      (revises : page.Revises changed) :
      Step db { db with pool := db.pool.editResident id fun _ => changed }
  | mark {id : PageId} {page : Page} {asker : TransactionId} (resident : db.pool.page? id = some page)
      (writes : db.locks.isWriter id asker = true) :
      Step db { db with pool := db.pool.editResident id fun _ => page.markChanged asker }
  | grant {id : PageId} {asker : TransactionId} {mode : LockMode} {locks : Locks}
      (granted : db.locks.grant? id asker mode = some locks) : Step db { db with locks }
  | release (id : PageId) (holder : TransactionId) :
      Step db { db with locks := (db.locks.release id holder).2 }
  | releaseAll (holder : TransactionId) :
      Step db { db with locks := (db.locks.releaseAll holder).2 }
  /-- A store counts what is asked of it, and shows what it showed. -/
  | count {number : Nat} {heap : Heap} {storage : Storage}
      (registered : db.catalog.heap? number = some heap)
      (shows : Storage.Shows db.storage heap.store (db.storage.view heap.store) storage) :
      Step db { db with storage }
  | append {number : Nat} {heap : Heap} {image : Bytes} {storage : Storage}
      (registered : db.catalog.heap? number = some heap) (long : image.length = db.settings.pageSize)
      (shows : Storage.Shows db.storage heap.store { db.storage.view heap.store with
        images := (db.storage.view heap.store).images ++ [image] } storage) :
      Step db { db with storage }
  /-- The image of a page in memory is stored, and the page has no mark any more. -/
  | write {id : PageId} {page : Page} {heap : Heap} {image : Bytes} {storage : Storage}
      (resident : db.pool.page? id = some page) (registered : db.catalog.heap? id.table = some heap)
      (encoded : page.image = .ok image)
      (shows : Storage.Shows db.storage heap.store { db.storage.view heap.store with
        images := (db.storage.view heap.store).images.set id.number image } storage) :
      Step db { db with storage, pool := db.pool.editResident id Page.markWritten }
  /-- A store in memory fails from now on, or not. -/
  | switch {number : Nat} {reads writes : Bool} {storage : Storage}
      (shows : Storage.Shows db.storage (.memory number) { db.storage.view (.memory number) with
        readsFail := reads, writesFail := writes } storage) :
      Step db { db with storage }

/-- Some small changes, one after the other. -/
abbrev Steps : Database → Database → Prop := Relation.ReflTransGen Step

/--
What holds of every database over heaps, whatever the stores hold, and also if heaps share a store.

Every page in memory could be written in its place, if its table is registered still.
-/
structure Housed (db : Database) : Prop where
  settings : db.settings.check = .ok ()
  catalog : db.catalog.pageSize = db.settings.pageSize
  tables : ∀ number table, db.catalog.tables.find? number = some table → ∃ store, table = .heap ⟨number, store⟩
  stores : ∀ number heap, db.catalog.heap? number = some heap →
    (db.storage.view heap.store).Uniform db.settings.pageSize
  kept : ∀ id page, db.pool.page? id = some page → db.standing.Keeps id page

/--
What holds of every database over heaps on stores of their own, whatever the stores hold.

All is in order, and every page in memory could be written in its place.
-/
structure Intact (db : Database) : Prop where
  orderly : db.standing.Orderly fun _ => True
  kept : ∀ id page, db.pool.page? id = some page → db.standing.Keeps id page

/-- A database stands for what its heaps show, whatever other stores there are. -/
theorem standing_withOthers {storage : Storage} (same : ∀ number heap, db.catalog.heap? number = some heap →
    storage.view heap.store = db.storage.view heap.store) : standing { db with storage } = db.standing := by
  simp only [standing, Standing.mk.injEq, true_and, and_true]
  funext number
  cases registered : db.catalog.heap? number with
  | none => rfl
  | some heap => exact same number heap registered

namespace Housed

/-- Every image that a table shows is of the common size. -/
theorem images (housed : db.Housed) (number : Nat) :
    ∀ image ∈ (db.standing.shown number).images, image.length = db.settings.pageSize := by
  intro image member
  simp only [standing] at member
  -- A table that is not registered shows nothing, and so no image that could be of another size.
  cases registered : db.catalog.heap? number with
  | none => simp [registered, StoreView.nothing] at member
  | some heap =>
    simp only [registered] at member
    exact (housed.stores number heap registered).2 image member

/-- What is read from a store may be in memory. -/
theorem keeps_stored (housed : db.Housed) {page : Page} (stored : db.standing.stored? id = some page) :
    db.standing.Keeps id page ∧ page.changedBy = none := by
  obtain ⟨image, found, decoded⟩ := Standing.stored?_eq_some.1 stored
  obtain ⟨name, size, unmarked⟩ := Page.ofImage_eq_ok decoded
  have long := housed.images id.table image (List.mem_of_getElem? found)
  exact ⟨⟨name, size.trans long, Page.ofImage_encodable decoded, fun _ _ => ⟨image, found⟩⟩, unmarked⟩

/-- Other pages may be in memory if each of them may be. -/
theorem withPool (housed : db.Housed) {pool : Pool}
    (kept : ∀ id page, pool.page? id = some page → db.standing.Keeps id page) :
    Housed { db with pool } where
  settings := housed.settings
  catalog := housed.catalog
  tables := housed.tables
  stores := housed.stores
  kept id page resident := { kept id page resident with }

/-- One page in memory may become another that may be there. -/
theorem editResident (housed : db.Housed) {change : Page → Page}
    (keeps : ∀ page, db.pool.page? id = some page → db.standing.Keeps id (change page)) :
    Housed { db with pool := db.pool.editResident id change } := by
  -- Only the page that is changed is another one; the rest is where it was.
  refine housed.withPool fun other page resident => ?_
  rw [Pool.page?_editResident] at resident
  split at resident
  · rename_i here
    obtain ⟨old, found, rfl⟩ := Option.map_eq_some_iff.1 resident
    rw [here]
    exact keeps old found
  · exact housed.kept other page resident

/-- Locks say nothing of pages. -/
theorem withLocks (housed : db.Housed) (locks : Locks) : Housed { db with locks } where
  settings := housed.settings
  catalog := housed.catalog
  tables := housed.tables
  stores := housed.stores
  kept id page resident := { housed.kept id page resident with }

/-- The stores may show other images of the same size, and no fewer. -/
theorem withStorage (housed : db.Housed) {storage : Storage}
    (uniform : ∀ number heap, db.catalog.heap? number = some heap →
      (storage.view heap.store).Uniform db.settings.pageSize)
    (count : ∀ number heap, db.catalog.heap? number = some heap →
      (db.storage.view heap.store).images.length ≤ (storage.view heap.store).images.length) :
    Housed { db with storage } where
  settings := housed.settings
  catalog := housed.catalog
  tables := housed.tables
  stores := uniform
  kept id page resident := by
    have keeps := housed.kept id page resident
    refine ⟨keeps.name, keeps.size, keeps.encodable, fun heap known => ?_⟩
    obtain ⟨old, found⟩ := keeps.stored heap known
    have known : db.catalog.heap? id.table = some heap := known
    -- Where there was an image there is one still.
    have within := (List.getElem?_eq_some_iff.1 found).1
    rw [shown_eq known] at within
    have there : id.number < (storage.view heap.store).images.length :=
      Nat.lt_of_lt_of_le within (count id.table heap known)
    have shown : (standing { db with storage }).shown id.table = storage.view heap.store := shown_eq known
    rw [Standing.image?, shown]
    exact ⟨_, List.getElem?_eq_getElem there⟩

/-- Two registered heaps are over one store, or over stores apart. -/
theorem same_or_apart (housed : db.Housed) {number other : Nat} {neighbour : Heap}
    (registered : db.catalog.heap? number = some heap) (known : db.catalog.heap? other = some neighbour) :
    neighbour.store = heap.store ∨ heap.store.Apart neighbour.store := by
  have size := (housed.stores number heap registered).1
  have alike := (housed.stores other neighbour known).1
  -- Two numbers in memory are different stores. Two names are, if the pages are of one size anyway.
  cases here : heap.store with
  | memory a =>
    cases there : neighbour.store with
    | memory b => exact (Decidable.em (b = a)).imp (congrArg _) Ne.symm
    | file name pageSize => exact .inr trivial
  | file name pageSize =>
    cases there : neighbour.store with
    | memory b => exact .inr trivial
    | file path others =>
      -- Stores over one file have pages of one size, since all stores have.
      rw [here] at size
      rw [there] at alike
      have sizes : others = pageSize := Eq.trans alike size.symm
      rcases Decidable.em (path = name) with rfl | apart
      · exact .inl (by rw [sizes])
      · exact .inr (Ne.symm apart)

/-- One store may show other images of the same size, and no fewer, to all heaps over it. -/
theorem of_shows (housed : db.Housed) {storage : Storage} {view : StoreView} {number : Nat}
    (registered : db.catalog.heap? number = some heap) (shows : Storage.Shows db.storage heap.store view storage)
    (uniform : view.Uniform db.settings.pageSize)
    (count : (db.storage.view heap.store).images.length ≤ view.images.length) : Housed { db with storage } := by
  -- A heap over this very store sees the new images, and one over another store those that it saw.
  refine housed.withStorage (fun other neighbour known => ?_) fun other neighbour known => ?_
  · rcases housed.same_or_apart registered known with same | apart
    · rw [same, shows.here]
      exact uniform
    · rw [shows.apart _ apart]
      exact housed.stores other neighbour known
  · rcases housed.same_or_apart registered known with same | apart
    · rw [same, shows.here]
      exact count
    · exact Nat.le_of_eq (by rw [shows.apart _ apart])

/-- A store may count, or be told to fail. -/
theorem withFlags (housed : db.Housed) {storage : Storage} {view : StoreView} {number : Nat}
    (registered : db.catalog.heap? number = some heap)
    (shows : Storage.Shows db.storage heap.store view storage)
    (size : view.pageSize = (db.storage.view heap.store).pageSize)
    (images : view.images = (db.storage.view heap.store).images) : Housed { db with storage } := by
  obtain ⟨sized, long⟩ := housed.stores number heap registered
  refine housed.of_shows registered shows ⟨size.trans sized, fun image member => ?_⟩ (Nat.le_of_eq (by rw [images]))
  exact long image (images ▸ member)

/-- A store in memory may be told to fail, whether a heap is over it or not. -/
theorem switch (housed : db.Housed) {number : Nat} {reads writes : Bool} {storage : Storage}
    (shows : Storage.Shows db.storage (.memory number) { db.storage.view (.memory number) with
      readsFail := reads, writesFail := writes } storage) :
    Housed { db with storage } := by
  have views : ∀ table heap, db.catalog.heap? table = some heap →
      (storage.view heap.store).pageSize = (db.storage.view heap.store).pageSize
        ∧ (storage.view heap.store).images = (db.storage.view heap.store).images := by
    -- The store need not be registered, so each heap is asked whether it is over this one.
    intro table heap registered
    by_cases here : heap.store = .memory number
    · rw [here, shows.here]
      exact ⟨rfl, rfl⟩
    · rw [shows.apart _ (StoreId.apart_memory here)]
      exact ⟨rfl, rfl⟩
  refine housed.withStorage (fun table heap registered => ?_) fun table heap registered => ?_
  · obtain ⟨size, images⟩ := views table heap registered
    rw [StoreView.Uniform, size, images]
    exact housed.stores table heap registered
  · exact Nat.le_of_eq (by rw [(views table heap registered).2])

end Housed

namespace Intact

theorem housed (intact : db.Intact) : db.Housed where
  settings := intact.orderly.settings
  catalog := intact.orderly.catalog
  tables := intact.orderly.tables
  stores number heap registered := by
    rw [← shown_eq registered]
    exact ⟨intact.orderly.sizes number heap registered, fun image member =>
      (intact.orderly.images number image member).1⟩
  kept := intact.kept

/-- What is housed over the same tables is in order, if a writer is alone on its page. -/
theorem of_housed (intact : before.Intact) (housed : after.Housed) (catalog : after.catalog = before.catalog)
    (exclusive : after.locks.Exclusive) : after.Intact where
  orderly := {
    settings := housed.settings
    catalog := housed.catalog
    tables := housed.tables
    apart := by
      -- What was required before is of the same tables, only it is told of the catalog afterwards.
      show ∀ a b x y, a ≠ b → after.catalog.heap? a = some x → after.catalog.heap? b = some y → x.store.Apart y.store
      rw [catalog]
      exact intact.orderly.apart
    sizes := fun number heap registered => by
      rw [shown_eq registered]
      exact (housed.stores number heap registered).1
    images := fun number image member => ⟨housed.images number image member, trivial⟩
    locks := exclusive }
  kept := housed.kept

/-- What is read from a store may be in memory. -/
theorem keeps_stored (intact : db.Intact) {page : Page} (stored : db.standing.stored? id = some page) :
    db.standing.Keeps id page ∧ page.changedBy = none := intact.housed.keeps_stored stored

/-- One page in memory may become another that may be there. -/
theorem editResident (intact : db.Intact) {change : Page → Page}
    (keeps : ∀ page, db.pool.page? id = some page → db.standing.Keeps id (change page)) :
    Intact { db with pool := db.pool.editResident id change } :=
  intact.of_housed (intact.housed.editResident keeps) rfl intact.orderly.locks

/-- Locks say nothing of pages. -/
theorem withLocks (intact : db.Intact) {locks : Locks} (exclusive : locks.Exclusive) : Intact { db with locks } :=
  intact.of_housed (intact.housed.withLocks locks) rfl exclusive

/-- A store may count, or be told to fail. -/
theorem withFlags (intact : db.Intact) {storage : Storage} {view : StoreView} {number : Nat}
    (registered : db.catalog.heap? number = some heap)
    (shows : Storage.Shows db.storage heap.store view storage)
    (size : view.pageSize = (db.storage.view heap.store).pageSize)
    (images : view.images = (db.storage.view heap.store).images) : Intact { db with storage } :=
  intact.of_housed (intact.housed.withFlags registered shows size images) rfl intact.orderly.locks

/-- A store in memory may be told to fail, whether a heap is over it or not. -/
theorem switch (intact : db.Intact) {number : Nat} {reads writes : Bool} {storage : Storage}
    (shows : Storage.Shows db.storage (.memory number) { db.storage.view (.memory number) with
      readsFail := reads, writesFail := writes } storage) : Intact { db with storage } :=
  intact.of_housed (intact.housed.switch shows) rfl intact.orderly.locks

end Intact

/-- No step registers a table or changes the settings. -/
theorem Step.catalog_eq (step : Step before after) :
    after.catalog = before.catalog ∧ after.settings = before.settings := by
  cases step <;> exact ⟨rfl, rfl⟩

/-- No step takes the pages from their places. -/
theorem Step.housed (step : Step before after) (housed : before.Housed) : after.Housed := by
  cases step with
  | touch id =>
    refine housed.withPool fun other page resident => housed.kept other page ?_
    rwa [(Pool.touch_eq before.pool id).1] at resident
  | drop id =>
    refine housed.withPool fun other page resident => ?_
    rw [Pool.page?_drop] at resident
    split at resident
    · cases resident
    · exact housed.kept other page resident
  | @load id page stored =>
    refine housed.withPool fun other held resident => ?_
    rw [(before.pool.load_eq id page).1] at resident
    split at resident
    · rename_i here
      cases resident
      rw [here]
      exact (housed.keeps_stored stored).1
    · exact housed.kept other held resident
  | restore stored => exact housed.editResident fun _ _ => (housed.keeps_stored stored).1
  | revise resident revises =>
    -- Storing and erasing keep the name and the size, so the page has the place that it had.
    have keeps := housed.kept _ _ resident
    have reworks := revises.reworks keeps.encodable
    exact housed.editResident fun _ _ =>
      ⟨reworks.id.trans keeps.name, reworks.size.trans keeps.size, reworks.encodable, keeps.stored⟩
  | mark resident writes =>
    have keeps := housed.kept _ _ resident
    have encodable := keeps.encodable
    exact housed.editResident fun _ _ => ⟨keeps.name, keeps.size,
      ⟨encodable.large, encodable.directory, encodable.cells⟩, keeps.stored⟩
  | grant _ => exact housed.withLocks _
  | release id holder => exact housed.withLocks _
  | releaseAll holder => exact housed.withLocks _
  | count registered shows => exact housed.withFlags registered shows rfl rfl
  | @append number heap image storage registered long shows =>
    -- An empty page comes behind the others, and they stay where they are.
    obtain ⟨size, images⟩ := housed.stores number heap registered
    refine housed.of_shows registered shows ⟨size, fun other member => ?_⟩ (by simp)
    rcases List.mem_append.1 member with old | new
    · exact images other old
    · cases List.mem_singleton.1 new
      exact long
  | @write id page heap image storage resident registered encoded shows =>
    -- What is written is the image of a page that may be in memory, so it is as long as the others.
    have keeps := housed.kept _ _ resident
    obtain ⟨size, images⟩ := housed.stores id.table heap registered
    obtain ⟨same, again, long⟩ := keeps.encodable.exists_image
    cases encoded.symm.trans again
    have uniform : ∀ other ∈ (before.storage.view heap.store).images.set id.number image,
        other.length = before.settings.pageSize := by
      intro other member
      rcases List.mem_or_eq_of_mem_set member with old | new
      · exact images other old
      · exact new ▸ long.trans keeps.size
    have stored := housed.of_shows registered shows ⟨size, uniform⟩ (by simp)
    -- The page that loses its mark is the same otherwise.
    exact stored.editResident fun held found => by
      have keeps := stored.kept id held found
      have encodable := keeps.encodable
      exact ⟨keeps.name, keeps.size, ⟨encodable.large, encodable.directory, encodable.cells⟩, keeps.stored⟩
  | switch shows => exact housed.switch shows

/-- A writer stays alone on its page whatever step is made. -/
theorem Step.exclusive (step : Step before after) (exclusive : before.locks.Exclusive) : after.locks.Exclusive := by
  cases step with
  | grant granted => exact exclusive.grant? granted
  | release id holder => exact exclusive.release id holder
  | releaseAll holder => exact exclusive.releaseAll holder
  | _ => exact exclusive

/-- What always holds is kept by every step. -/
theorem Step.intact (step : Step before after) (intact : before.Intact) : after.Intact :=
  intact.of_housed (step.housed intact.housed) step.catalog_eq.1 (step.exclusive intact.orderly.locks)

theorem Steps.housed (steps : Steps before after) (housed : before.Housed) : after.Housed := by
  -- The induction is on the steps made; each keeps what the next one needs.
  induction steps with
  | refl => exact housed
  | tail _ step ih => exact step.housed ih

theorem Steps.intact (steps : Steps before after) (intact : before.Intact) : after.Intact := by
  induction steps with
  | refl => exact intact
  | tail _ step ih => exact step.intact ih

theorem Steps.catalog_eq (steps : Steps before after) :
    after.catalog = before.catalog ∧ after.settings = before.settings := by
  induction steps with
  | refl => exact ⟨rfl, rfl⟩
  | tail _ step ih => exact ⟨step.catalog_eq.1.trans ih.1, step.catalog_eq.2.trans ih.2⟩

/-- A heap that is registered stays so. -/
theorem Steps.heap? (steps : Steps before after) {number : Nat} (registered : before.catalog.heap? number = some heap) :
    after.catalog.heap? number = some heap := by
  rw [steps.catalog_eq.1]
  exact registered

end Database

end HeapEngine
