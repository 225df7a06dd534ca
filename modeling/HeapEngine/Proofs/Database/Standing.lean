import HeapEngine.Proofs.Locks
import HeapEngine.Proofs.Pool
import HeapEngine.Proofs.Settings
import HeapEngine.Proofs.Storage

/-!
What a database stands for, whichever clean pages happen to be in memory, and when it is consistent.

A clean page in memory is no more than what is stored. So all that counts is what the stores show,
which pages are changed and not written, and who holds which lock.
-/

namespace HeapEngine

/-- The heap registered under a number. -/
def Catalog.heap? (catalog : Catalog) (number : Nat) : Option Heap :=
  match catalog.tables.find? number with
  | some (.heap heap) => some heap
  | _ => none

/-- A view of a table that has no store. -/
def StoreView.nothing : StoreView := ⟨0, [], false, false⟩

/-- What counts of a database whichever clean pages are in memory. -/
structure Standing where
  settings : Settings
  catalog : Catalog
  /-- What the store of each table shows. -/
  shown : Nat → StoreView
  /-- The pages in memory with changes that are not written. -/
  unwritten : PageId → Option Page
  locks : Locks

/-- Which images a store may hold: at least those of sound pages, and no page that is not sound. -/
structure ImageKind where
  allows : Bytes → Prop
  allows_image : ∀ {page : Page} {image : Bytes}, page.Sound → page.image = .ok image → allows image
  sound : ∀ {id : PageId} {image : Bytes} {page : Page}, allows image →
    Page.ofImage id image = .ok page → page.Sound

/-- An empty page of the size that settings give has an image, which any store may hold. -/
theorem Settings.exists_image_empty {settings : Settings} (accepted : settings.check = .ok ()) (id : PageId) :
    ∃ image, (Page.empty id settings.pageSize).image = .ok image
      ∧ image.length = settings.pageSize ∧ ∀ kind : ImageKind, kind.allows image := by
  obtain ⟨_, least, most⟩ := check_eq_ok accepted
  obtain ⟨sound, _, _, sized⟩ := Page.empty_sound id (Nat.le_of_succ_le least) most
  obtain ⟨image, encoded, long⟩ := sound.exists_image
  exact ⟨image, encoded, long.trans sized, fun kind => kind.allows_image sound encoded⟩

/-- A registered heap carries its number, if every table is a heap over some store under the number it is found by. -/
theorem Catalog.heap_table {catalog : Catalog} {number : Nat} {heap : Heap} (named : ∀ number table,
      catalog.tables.find? number = some table → ∃ store, table = .heap ⟨number, store⟩)
    (registered : catalog.heap? number = some heap) : heap.table = number := by
  -- The heap carries a number of its own, so the table under which it is found has to be opened.
  unfold Catalog.heap? at registered
  cases found : catalog.tables.find? number with
  | none =>
    rw [found] at registered
    cases registered
  | some table =>
    obtain ⟨store, rfl⟩ := named number table found
    rw [found] at registered
    cases registered
    rfl

namespace Standing

/-- The image that is stored of a page. -/
def image? (standing : Standing) (id : PageId) : Option Bytes :=
  (standing.shown id.table).images[id.number]?

/-- The page that is stored, if it can be read from its image. -/
def stored? (standing : Standing) (id : PageId) : Option Page :=
  (standing.image? id).bind fun image => (Page.ofImage id image).toOption

/-- What is stored is what its image holds. -/
theorem stored?_eq_some {standing : Standing} {id : PageId} {page : Page} : standing.stored? id = some page
    ↔ ∃ image, standing.image? id = some image ∧ Page.ofImage id image = .ok page := by
  rw [stored?, Option.bind_eq_some_iff]
  refine exists_congr fun image => and_congr_right fun _ => ?_
  cases Page.ofImage id image with
  | error fault => simp [Except.toOption]
  | ok read => simp [Except.toOption]

/-- A page that its store gives is the one that is stored. -/
theorem stored?_of_read {standing : Standing} {id : PageId} {page : Page}
    (read : (standing.shown id.table).read id = .ok page) : standing.stored? id = some page := by
  -- No image, or one that is refused, gives no page. So there is an image, and it is read.
  unfold StoreView.read at read
  split at read
  · cases read
  · split at read
    · cases read
    · rename_i image found
      rw [stored?, image?, found, Option.bind_some, read]
      rfl

/-- What a page holds: what was changed and not written, or else what is stored. -/
def content? (standing : Standing) (id : PageId) : Option Page :=
  match standing.unwritten id with
  | some page => some page
  | none => standing.stored? id

/-- Another view for one table. -/
def withShown (standing : Standing) (number : Nat) (view : StoreView) : Standing :=
  { standing with shown := fun other => if other = number then view else standing.shown other }

/-- The view that a table has already changes nothing. -/
theorem withShown_self (standing : Standing) (number : Nat) :
    standing.withShown number (standing.shown number) = standing := by
  have same : (fun other => if other = number then standing.shown number else standing.shown other)
      = standing.shown := by
    funext other
    split
    · rename_i here
      rw [here]
    · rfl
  rw [withShown, same]

/-- Another unwritten page, or none, under one name. -/
def withUnwritten (standing : Standing) (id : PageId) (page : Option Page) : Standing :=
  { standing with
    unwritten := fun other => if other = id then page else standing.unwritten other }

/-- A page that is not unwritten need not be taken out. -/
theorem withUnwritten_none {standing : Standing} {id : PageId} (clean : standing.unwritten id = none) :
    standing.withUnwritten id none = standing := by
  have same : (fun other => if other = id then none else standing.unwritten other)
      = standing.unwritten := by
    funext other
    split
    · rename_i here
      rw [here, clean]
    · rfl
  rw [withUnwritten, same]

/-- Other locks. -/
def withLocks (standing : Standing) (locks : Locks) : Standing := { standing with locks }

section Locks

variable (standing : Standing) (locks later : Locks)

@[simp] theorem withLocks_withLocks : (standing.withLocks locks).withLocks later
    = standing.withLocks later := rfl

/-- The locks that there are already change nothing. -/
theorem withLocks_locks : standing.withLocks standing.locks = standing := rfl

@[simp] theorem locks_withLocks : (standing.withLocks locks).locks = locks := rfl

@[simp] theorem catalog_withLocks : (standing.withLocks locks).catalog = standing.catalog := rfl

@[simp] theorem shown_withLocks : (standing.withLocks locks).shown = standing.shown := rfl

@[simp] theorem unwritten_withLocks : (standing.withLocks locks).unwritten = standing.unwritten := rfl

@[simp] theorem content?_withLocks (id : PageId) :
    (standing.withLocks locks).content? id = standing.content? id := rfl

end Locks

/-- Whether a page may be in memory: a clean one as it is stored, a changed one for its writer. -/
structure Fits (standing : Standing) (id : PageId) (page : Page) : Prop where
  name : page.id = id
  sound : page.Sound
  size : page.size = standing.settings.pageSize
  clean : page.changedBy = none → ∃ read, standing.stored? id = some read ∧ read.Agrees page
  changed : ∀ transaction, page.changedBy = some transaction →
    standing.locks.isWriter id transaction = true ∧ ∃ image, standing.image? id = some image

/-- Which pages are unwritten does not say what may be in memory. -/
theorem Fits.withUnwritten {standing : Standing} {id : PageId} {page : Page}
    (fits : standing.Fits id page) (other : PageId) (unwritten : Option Page) :
    (standing.withUnwritten other unwritten).Fits id page :=
  ⟨fits.name, fits.sound, fits.size, fits.clean, fits.changed⟩

/-- Heaps over stores apart from each other, with images of one size and kind. -/
structure Orderly (allows : Bytes → Prop) (standing : Standing) : Prop where
  settings : standing.settings.check = .ok ()
  catalog : standing.catalog.pageSize = standing.settings.pageSize
  tables : ∀ number table, standing.catalog.tables.find? number = some table →
    ∃ store, table = .heap ⟨number, store⟩
  apart : ∀ a b x y, a ≠ b → standing.catalog.heap? a = some x → standing.catalog.heap? b = some y →
    x.store.Apart y.store
  sizes : ∀ number heap, standing.catalog.heap? number = some heap →
    (standing.shown number).pageSize = standing.settings.pageSize
  images : ∀ number, ∀ image ∈ (standing.shown number).images,
    image.length = standing.settings.pageSize ∧ allows image
  locks : standing.locks.Exclusive

namespace Orderly

variable {kind : ImageKind} {allows : Bytes → Prop} {standing : Standing}

/-- A registered heap carries its number. -/
theorem heap_table (orderly : standing.Orderly allows) {number : Nat} {heap : Heap}
    (registered : standing.catalog.heap? number = some heap) : heap.table = number :=
  Catalog.heap_table orderly.tables registered

/-- Looking for a registered heap finds it. -/
theorem find_eq_ok (orderly : standing.Orderly allows) {number : Nat} {heap : Heap}
    (registered : standing.catalog.heap? number = some heap) :
    standing.catalog.find number = .ok (.heap heap) := by
  -- What is found under the number is a table, which is a heap, and then it is this one.
  unfold Catalog.heap? at registered
  unfold Catalog.find
  cases found : standing.catalog.tables.find? number with
  | none =>
    rw [found] at registered
    cases registered
  | some table =>
    obtain ⟨store, rfl⟩ := orderly.tables number table found
    rw [found] at registered
    cases registered
    rfl

/-- Where no heap is registered there is no table. -/
theorem find_eq_error (orderly : standing.Orderly allows) {number : Nat}
    (missing : standing.catalog.heap? number = none) :
    standing.catalog.find number = .error (.noTable number) := by
  unfold Catalog.heap? at missing
  unfold Catalog.find
  cases found : standing.catalog.tables.find? number with
  | none => rfl
  | some table =>
    obtain ⟨store, rfl⟩ := orderly.tables number table found
    rw [found] at missing
    cases missing

/-- What is read from a stored image is a sound page of the common size under its name. -/
theorem stored (orderly : standing.Orderly kind.allows) {id : PageId} {page : Page}
    (read : standing.stored? id = some page) :
    page.id = id ∧ page.Sound ∧ page.size = standing.settings.pageSize ∧ page.changedBy = none
      ∧ ∃ image, standing.image? id = some image ∧ Page.ofImage id image = .ok page := by
  obtain ⟨image, found, decoded⟩ := stored?_eq_some.1 read
  obtain ⟨name, size, mark⟩ := Page.ofImage_eq_ok decoded
  -- Images are of the common size, and of a kind that is read as sound pages only.
  obtain ⟨long, allowed⟩ := orderly.images id.table image (List.mem_of_getElem? found)
  exact ⟨name, kind.sound allowed decoded, size.trans long, mark, image, found, decoded⟩

/-- An empty page of the common size has an image, which any store may hold. -/
theorem exists_image_empty (orderly : standing.Orderly allows) (id : PageId) :
    ∃ image, (Page.empty id standing.settings.pageSize).image = .ok image
      ∧ image.length = standing.settings.pageSize ∧ ∀ kind : ImageKind, kind.allows image :=
  Settings.exists_image_empty orderly.settings id

/-- Order is a matter of tables, stores and locks. -/
theorem withUnwritten (orderly : standing.Orderly allows) (id : PageId) (unwritten : Option Page) :
    (standing.withUnwritten id unwritten).Orderly allows :=
  ⟨orderly.settings, orderly.catalog, orderly.tables, orderly.apart, orderly.sizes, orderly.images,
    orderly.locks⟩

/-- A store may show other images of the same size and kind. -/
theorem withShown (orderly : standing.Orderly allows) (number : Nat) {view : StoreView}
    (size : view.pageSize = standing.settings.pageSize)
    (images : ∀ image ∈ view.images, image.length = standing.settings.pageSize ∧ allows image) :
    (standing.withShown number view).Orderly allows := by
  refine ⟨orderly.settings, orderly.catalog, orderly.tables, orderly.apart, ?_, ?_, orderly.locks⟩
  -- The other tables show what they showed, so the new view is looked at apart from them.
  · intro other heap registered
    simp only [Standing.withShown]
    split
    · exact size
    · exact orderly.sizes other heap registered
  · intro other image member
    simp only [Standing.withShown] at member
    split at member
    · exact images image member
    · exact orderly.images other image member

/-- What is stored may be in memory. -/
theorem fits_stored (orderly : standing.Orderly kind.allows) {id : PageId} {page : Page}
    (read : standing.stored? id = some page) : standing.Fits id page := by
  obtain ⟨name, sound, size, mark, _⟩ := orderly.stored read
  refine ⟨name, sound, size, fun _ => ⟨page, read, .refl page⟩, fun transaction changed => ?_⟩
  -- A page that is read carries no mark.
  rw [mark] at changed
  cases changed

end Orderly

end Standing

namespace Database

/-- What a database stands for. -/
def standing (db : Database) : Standing where
  settings := db.settings
  catalog := db.catalog
  shown number :=
    match db.catalog.heap? number with
    | some heap => db.storage.view heap.store
    | none => .nothing
  unwritten id := (db.pool.page? id).filter Page.isDirty
  locks := db.locks

/-- All is in order, and every page in memory may be there. -/
structure Consistent (kind : ImageKind) (db : Database) : Prop where
  orderly : db.standing.Orderly kind.allows
  cached : ∀ id page, db.pool.page? id = some page → db.standing.Fits id page

variable {kind : ImageKind} {db : Database} {id : PageId} {heap : Heap}

/-- Only a registered heap has images. -/
theorem exists_heap_of_image? {image : Bytes} (found : db.standing.image? id = some image) :
    ∃ heap, db.catalog.heap? id.table = some heap := by
  -- A table that is not registered shows nothing, so it has no image.
  simp only [Standing.image?, standing] at found
  cases registered : db.catalog.heap? id.table with
  | none =>
    rw [registered] at found
    simp [StoreView.nothing] at found
  | some heap => exact ⟨heap, rfl⟩

theorem shown_eq {number : Nat} (registered : db.catalog.heap? number = some heap) :
    db.standing.shown number = db.storage.view heap.store := by
  simp only [standing, registered]

/-- A page in memory is unwritten if it has changes. -/
theorem unwritten_eq {page : Page} (resident : db.pool.page? id = some page) :
    db.standing.unwritten id = if page.changedBy = none then none else some page := by
  simp only [standing, resident, Option.filter, Page.isDirty]
  by_cases mark : page.changedBy = none
  · simp [mark]
  · simp [mark, Option.isSome_iff_ne_none]

/-- A page in memory that is not unwritten has no mark. -/
theorem unmarked_of_unwritten {page : Page} (resident : db.pool.page? id = some page)
    (unwritten : db.standing.unwritten id = none) : page.changedBy = none := by
  rw [unwritten_eq resident] at unwritten
  simpa using unwritten

/-- An unwritten page is in memory, with changes. -/
theorem unwritten_eq_some {page : Page} : db.standing.unwritten id = some page
    ↔ db.pool.page? id = some page ∧ page.changedBy ≠ none := by
  simp only [standing, Option.filter_eq_some_iff, Page.isDirty, Option.isSome_iff_ne_none]

/-- Other clean pages in memory do not change what a database stands for. -/
theorem standing_withPool {pool : Pool}
    (same : ∀ id, (pool.page? id).filter Page.isDirty = (db.pool.page? id).filter Page.isDirty) :
    standing { db with pool } = db.standing := by
  simp only [standing, Standing.mk.injEq, true_and, and_true]
  exact funext same

/-- What one store shows is all that a change of that store can change. -/
theorem standing_withStorage {allows : Bytes → Prop} (orderly : db.standing.Orderly allows)
    {storage : Storage} {view : StoreView} {number : Nat} (registered : db.catalog.heap? number = some heap)
    (shows : Storage.Shows db.storage heap.store view storage) :
    standing { db with storage } = db.standing.withShown number view := by
  simp only [standing, Standing.withShown, Standing.mk.injEq, true_and, and_true]
  funext other
  by_cases here : other = number
  · subst here
    simp only [registered, ↓reduceIte]
    exact shows.here
  · -- The stores of other heaps lie apart from this one.
    rw [if_neg here]
    cases found : db.catalog.heap? other with
    | none => rfl
    | some neighbour =>
      exact shows.apart _ (orderly.apart number other heap neighbour (Ne.symm here) registered found)

namespace Consistent

/-- A page in memory agrees with what it is said to hold, and an unwritten one is that. -/
theorem content (consistent : db.Consistent kind) {page : Page}
    (resident : db.pool.page? id = some page) :
    ∃ held, db.standing.content? id = some held ∧ held.Agrees page
      ∧ (page.changedBy ≠ none → held = page) := by
  cases mark : page.changedBy with
  | none =>
    obtain ⟨read, stored, agrees⟩ := (consistent.cached id page resident).clean mark
    refine ⟨read, ?_, agrees, by simp⟩
    -- A clean page is said to hold what is stored.
    rw [Standing.content?, unwritten_eq resident, if_pos mark]
    exact stored
  | some transaction =>
    refine ⟨page, ?_, .refl page, by simp⟩
    rw [Standing.content?, unwritten_eq resident, if_neg (by simp [mark])]

/-- An unwritten page may be in memory. -/
theorem fits_unwritten (consistent : db.Consistent kind) {page : Page}
    (unwritten : db.standing.unwritten id = some page) : db.standing.Fits id page :=
  consistent.cached id page (unwritten_eq_some.1 unwritten).1

/-- There is an image to write an unwritten page over. -/
theorem image?_unwritten (consistent : db.Consistent kind) {page : Page}
    (unwritten : db.standing.unwritten id = some page) :
    ∃ image, db.standing.image? id = some image := by
  -- What may be in memory with a mark has a place it is stored at, since its writer wrote on a stored page.
  obtain ⟨transaction, changed⟩ := Option.ne_none_iff_exists'.1 (unwritten_eq_some.1 unwritten).2
  exact ((consistent.fits_unwritten unwritten).changed transaction changed).2

/-- Whoever changed a page is its writer until the page is written. -/
theorem isWriter (consistent : db.Consistent kind) {page : Page} {transaction : TransactionId}
    (unwritten : db.standing.unwritten id = some page)
    (changed : page.changedBy = some transaction) : db.locks.isWriter id transaction = true :=
  ((consistent.fits_unwritten unwritten).changed transaction changed).1

/-- Other pages in memory leave a database consistent if they may be there. -/
theorem withPool (consistent : db.Consistent kind) {pool : Pool}
    (same : ∀ id, (pool.page? id).filter Page.isDirty = (db.pool.page? id).filter Page.isDirty)
    (fits : ∀ id page, pool.page? id = some page → db.standing.Fits id page) :
    Consistent kind { db with pool } ∧ standing { db with pool } = db.standing := by
  -- What a database stands for is the same, and all that is required is told of that.
  have stands := standing_withPool same
  refine ⟨⟨?_, fun id page resident => ?_⟩, stands⟩
  · rw [stands]
    exact consistent.orderly
  · rw [stands]
    exact fits id page resident

/-- A store that goes on showing the same leaves a database consistent. -/
theorem withStorage (consistent : db.Consistent kind) {storage : Storage} {number : Nat}
    (registered : db.catalog.heap? number = some heap)
    (shows : Storage.Shows db.storage heap.store (db.storage.view heap.store) storage) :
    Consistent kind { db with storage } ∧ standing { db with storage } = db.standing := by
  have stands : standing { db with storage } = db.standing := by
    rw [standing_withStorage consistent.orderly registered shows, ← shown_eq registered,
      Standing.withShown_self]
  refine ⟨⟨?_, fun id page resident => ?_⟩, stands⟩
  · rw [stands]
    exact consistent.orderly
  · rw [stands]
    exact consistent.cached id page resident

end Consistent

end Database

end HeapEngine
