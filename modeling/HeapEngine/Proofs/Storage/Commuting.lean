import HeapEngine.Proofs.Commutes
import HeapEngine.Proofs.Storage.Equivalence

/-!
Reading and writing different pages of the stores can be done in either order.

A page that is written in its place leaves the count of the pages and the images of all others, and what a
store counts grows by the same whatever was asked before.
-/

namespace HeapEngine

namespace StoreView

variable {view : StoreView} {page other : Page} {id : PageId}

/-- A page that is written in its place stays in it, and nothing but its image is other than before. -/
theorem after_write (within : page.id.number < view.images.length) :
    view.after (.write page) = match view.accept page with
      | .ok image => { view with images := view.images.set page.id.number image }
      | .error _ => view := by
  -- The place is one in use, so the image is set there and none is appended.
  have placed (image : Bytes) : put view.images page.id.number image = view.images.set page.id.number image :=
    if_pos within
  simp only [after]
  cases view.accept page with
  | error fault => rfl
  | ok image => exact congrArg (fun images => { view with images }) (placed image)

theorem length_after_write (within : page.id.number < view.images.length) :
    (view.after (.write page)).images.length = view.images.length := by
  rw [after_write within]
  cases view.accept page with
  | error fault => rfl
  | ok image => exact List.length_set

/-- Another page is read as before. -/
theorem read_after_write (within : page.id.number < view.images.length) (apart : id.number ≠ page.id.number) :
    (view.after (.write page)).read id = view.read id := by
  rw [after_write within]
  cases view.accept page with
  | error fault => rfl
  | ok image => simp only [read, List.getElem?_set_ne (Ne.symm apart), List.length_set]

/-- Whether a page is accepted does not depend on what is stored. -/
theorem accept_after_write (within : page.id.number < view.images.length) (other : Page) :
    (view.after (.write page)).accept other = view.accept other := by
  rw [after_write within]
  cases view.accept page with
  | error fault => rfl
  | ok image => simp only [accept, List.length_set]

/-- Two pages may be written in either order. -/
theorem after_write_comm (within : page.id.number < view.images.length)
    (withinToo : other.id.number < view.images.length) (apart : page.id.number ≠ other.id.number) :
    (view.after (.write page)).after (.write other) = (view.after (.write other)).after (.write page) := by
  -- Each page is within also after the other one was written, so both writes set an image in its place.
  have later : other.id.number < (view.after (.write page)).images.length := by rwa [length_after_write within]
  have laterToo : page.id.number < (view.after (.write other)).images.length := by rwa [length_after_write withinToo]
  rw [after_write later, after_write laterToo, accept_after_write within, accept_after_write withinToo,
    after_write within, after_write withinToo]
  cases view.accept page with
  | error fault => cases view.accept other <;> rfl
  | ok image =>
    cases view.accept other with
    | error fault => rfl
    | ok another => simp only [List.set_comm _ _ apart]

end StoreView

namespace PageArray

variable {store : PageArray} {page other : Page} {id : PageId}

/-- How often writing a page is counted: not if it is refused. -/
def countsWrite (view : StoreView) (page : Page) : Nat :=
  match view.accept page with
  | .ok _ => 1
  | .error _ => 0

theorem outcome_read (store : PageArray) (id : PageId) : (read id).outcome store = store.view.read id :=
  (Op.eq_of_ended (store.read_eq id)).1

theorem last_read (store : PageArray) (id : PageId) :
    (read id).last store = { store with readCount := store.readCount + countsRead store.view id } :=
  (Op.eq_of_ended (store.read_eq id)).2

theorem outcome_write (store : PageArray) (page : Page) :
    (write page).outcome store = (store.view.accept page).map fun _ => () := by
  -- Whether the page is accepted decides both the answer and what is left behind.
  have ran := store.write_eq page
  cases accepted : store.view.accept page with
  | ok image =>
    rw [accepted] at ran
    exact (Op.eq_of_ended ran).1
  | error fault =>
    rw [accepted] at ran
    exact (Op.eq_of_ended ran).1

theorem last_write (store : PageArray) (page : Page) :
    (write page).last store = { store with
      images := (store.view.after (.write page)).images
      writeCount := store.writeCount + countsWrite store.view page } := by
  have ran := store.write_eq page
  simp only [StoreView.after, countsWrite]
  cases accepted : store.view.accept page with
  | ok image =>
    rw [accepted] at ran
    exact (Op.eq_of_ended ran).2
  | error fault =>
    rw [accepted] at ran
    exact (Op.eq_of_ended ran).2

/-- A store shows after a page is written what its view comes to. -/
theorem view_last_write (store : PageArray) (page : Page) :
    ((write page).last store).view = store.view.after (.write page) := by
  rw [last_write, StoreView.after]
  cases store.view.accept page <;> rfl

/-- Two pages may be read in either order, also if they are the same. -/
theorem commutes_read_read (store : PageArray) (id other : PageId) : Op.Commutes (read id) (read other) store where
  left := by rw [outcome_read, outcome_read, last_read]; rfl
  right := by rw [outcome_read, outcome_read, last_read]; rfl
  last := by
    -- Only the count of reads is other than before, and it grows by both, whichever comes first.
    simp only [last_read]
    rw [PageArray.mk.injEq]
    refine ⟨rfl, rfl, rfl, rfl, ?_, rfl, rfl⟩
    exact Nat.add_right_comm ..

/-- A page may be read before or after another one is written in its place. -/
theorem commutes_read_write (within : page.id.number < store.images.length) (apart : id.number ≠ page.id.number) :
    Op.Commutes (read id) (write page) store where
  left := by
    -- What is shown after the write is what the view comes to, and there the other page is as before.
    rw [outcome_read, outcome_read, view_last_write]
    exact StoreView.read_after_write within apart
  right := by
    rw [outcome_write, outcome_write, last_read]
    rfl
  last := by
    -- A read is counted if its page is there, and the write leaves that as it is.
    have counted : countsRead (store.view.after (.write page)) id = countsRead store.view id := by
      rw [StoreView.after_write within]
      cases store.view.accept page with
      | error fault => rfl
      | ok image => simp only [countsRead, List.getElem?_set_ne (Ne.symm apart)]
    rw [last_read ((write page).last store) id, view_last_write, counted, last_read, last_write, last_write]
    rfl

/-- Two pages may be written in their places in either order. -/
theorem commutes_write_write (within : page.id.number < store.images.length)
    (withinToo : other.id.number < store.images.length) (apart : page.id.number ≠ other.id.number) :
    Op.Commutes (write page) (write other) store where
  left := by rw [outcome_write, outcome_write, view_last_write, StoreView.accept_after_write withinToo]
  right := by rw [outcome_write, outcome_write, view_last_write, StoreView.accept_after_write within]
  last := by
    -- Each page is accepted after the other was written exactly if it was before, so it is counted alike.
    have counted : countsWrite (store.view.after (.write page)) other = countsWrite store.view other := by
      rw [countsWrite, countsWrite, StoreView.accept_after_write within]
    have countedToo : countsWrite (store.view.after (.write other)) page = countsWrite store.view page := by
      rw [countsWrite, countsWrite, StoreView.accept_after_write withinToo]
    rw [last_write ((write page).last store) other, last_write ((write other).last store) page, view_last_write,
      view_last_write, StoreView.after_write_comm within withinToo apart, counted, countedToo, last_write, last_write,
      Nat.add_right_comm]

end PageArray

namespace PageFile

variable {pageSize : Nat} {content : Bytes} {page other : Page} {id : PageId}

theorem outcome_read (positive : 0 < pageSize) (id : PageId) (content : Bytes) :
    (read pageSize id).outcome content = (view pageSize content).read id :=
  (Op.eq_of_ended (read_eq positive id content)).1

theorem last_read (positive : 0 < pageSize) (id : PageId) (content : Bytes) :
    (read pageSize id).last content = content :=
  (Op.eq_of_ended (read_eq positive id content)).2

theorem outcome_write (positive : 0 < pageSize) (page : Page) (content : Bytes) :
    (write pageSize page).outcome content = ((view pageSize content).accept page).map fun _ => () := by
  have ran := write_eq positive page content
  cases accepted : (view pageSize content).accept page with
  | ok image =>
    rw [accepted] at ran
    exact (Op.eq_of_ended ran).1
  | error fault =>
    rw [accepted] at ran
    exact (Op.eq_of_ended ran).1

/-- A file shows after a page is written in its place what its view comes to, and the bytes after its pages stay. -/
theorem last_write (positive : 0 < pageSize) (within : page.id.number < (view pageSize content).images.length) :
    view pageSize ((write pageSize page).last content) = (view pageSize content).after (.write page)
      ∧ tail pageSize ((write pageSize page).last content) = tail pageSize content := by
  have ran := write_eq positive page content
  simp only [StoreView.after]
  cases accepted : (view pageSize content).accept page with
  | ok image =>
    rw [accepted] at ran
    -- An accepted image has the size of a page, so it takes the place of a page byte for byte.
    obtain ⟨sized, _⟩ := StoreView.of_accept accepted
    rw [(Op.eq_of_ended ran).2, tail_put positive sized (Nat.le_of_lt within), if_pos (by exact within)]
    exact ⟨by rw [view, images_put positive sized (Nat.le_of_lt within)]; rfl, rfl⟩
  | error fault =>
    rw [accepted] at ran
    rw [(Op.eq_of_ended ran).2]
    exact ⟨rfl, rfl⟩

/-- The bytes of a file are told by what it shows and what comes after its pages. -/
theorem eq_of_view {other : Bytes} (views : view pageSize content = view pageSize other)
    (tails : tail pageSize content = tail pageSize other) : content = other := by
  -- A file is its pages one after the other, and then the bytes that make up no page.
  have same : images pageSize content = images pageSize other := congrArg StoreView.images views
  rw [← flatten_images_append_tail pageSize content, same, tails, flatten_images_append_tail]

/-- Two pages may be read in either order, also if they are the same. -/
theorem commutes_read_read (positive : 0 < pageSize) (content : Bytes) (id other : PageId) :
    Op.Commutes (read pageSize id) (read pageSize other) content where
  left := by rw [last_read positive]
  right := by rw [last_read positive]
  last := by rw [last_read positive id, last_read positive other, last_read positive id]

/-- A page may be read before or after another one is written in its place. -/
theorem commutes_read_write (positive : 0 < pageSize) (within : page.id.number < (view pageSize content).images.length)
    (apart : id.number ≠ page.id.number) : Op.Commutes (read pageSize id) (write pageSize page) content where
  left := by
    -- Reading leaves the bytes alone, so only what is read after the write has to be compared.
    rw [outcome_read positive, outcome_read positive, (last_write positive within).1]
    exact StoreView.read_after_write within apart
  right := by rw [last_read positive]
  last := by rw [last_read positive, last_read positive]

/-- Two pages may be written in their places in either order. -/
theorem commutes_write_write (positive : 0 < pageSize)
    (within : page.id.number < (view pageSize content).images.length)
    (withinToo : other.id.number < (view pageSize content).images.length) (apart : page.id.number ≠ other.id.number) :
    Op.Commutes (write pageSize page) (write pageSize other) content where
  left := by
    rw [outcome_write positive, outcome_write positive, (last_write positive withinToo).1,
      StoreView.accept_after_write withinToo]
  right := by
    rw [outcome_write positive, outcome_write positive, (last_write positive within).1,
      StoreView.accept_after_write within]
  last := by
    -- The bytes are compared by what they show and by their tails, since writing is known by these.
    obtain ⟨views, tails⟩ := last_write positive within
    obtain ⟨viewsToo, tailsToo⟩ := last_write positive withinToo
    have later : other.id.number < (view pageSize ((write pageSize page).last content)).images.length := by
      rw [views, StoreView.length_after_write within]
      exact withinToo
    have laterToo : page.id.number < (view pageSize ((write pageSize other).last content)).images.length := by
      rw [viewsToo, StoreView.length_after_write withinToo]
      exact within
    obtain ⟨viewsLast, tailsLast⟩ := last_write positive later
    obtain ⟨viewsLastToo, tailsLastToo⟩ := last_write positive laterToo
    refine eq_of_view (viewsLast.trans ?_) (tailsLast.trans ?_)
    · rw [viewsLastToo, views, viewsToo, StoreView.after_write_comm within withinToo apart]
    · rw [tailsLastToo, tails, tailsToo]

end PageFile

namespace Storage

variable {storage : Storage} {store other : StoreId} {id : PageId} {page : Page}

/-- One store in memory, as a part of the storage. -/
def arrayPart (number : Nat) : Part Storage PageArray where
  get storage := storage.array number
  put array storage := { storage with arrays := storage.arrays.insert number array }
  get_put _ _ := by simp [Storage.array]
  put_put _ _ _ := by simp only [SortedMap.insert_insert]

/-- One file, as a part of the storage. -/
def filePart (name : String) : Part Storage Bytes where
  get storage := storage.file name
  put content storage := { storage with files := storage.files.insert name content }
  get_put _ _ := by simp [Storage.file]
  put_put _ _ _ := by simp only [SortedMap.insert_insert]

theorem lifts_onArray {α : Type} (number : Nat) (action : Op PageArray α) :
    (arrayPart number).Lifts action (onArray number action) :=
  .of_ended fun _ => onArray_run (Op.run_eq_ended action _)

theorem lifts_onFile {α : Type} (name : String) (action : Op Bytes α) :
    (filePart name).Lifts action (onFile name action) :=
  .of_ended fun _ => onFile_run (Op.run_eq_ended action _)

theorem apart_arrays {number another : Nat} (apart : number ≠ another) :
    (arrayPart number).Apart (arrayPart another) where
  -- A store in memory is found under its number, which another number does not touch.
  left _ _ := by simp [arrayPart, Storage.array, SortedMap.find?_insert, apart]
  right _ _ := by simp [arrayPart, Storage.array, SortedMap.find?_insert, Ne.symm apart]
  put _ _ _ := by simp only [arrayPart, SortedMap.insert_comm _ apart]

theorem apart_files {name another : String} (apart : name ≠ another) : (filePart name).Apart (filePart another) where
  left _ _ := by simp [filePart, Storage.file, SortedMap.find?_insert, apart]
  right _ _ := by simp [filePart, Storage.file, SortedMap.find?_insert, Ne.symm apart]
  put _ _ _ := by simp only [filePart, SortedMap.insert_comm _ apart]

theorem apart_array_file (number : Nat) (name : String) : (arrayPart number).Apart (filePart name) :=
  ⟨fun _ _ => rfl, fun _ _ => rfl, fun _ _ _ => rfl⟩

/-- Does one thing to a store in memory, and another to a store over a file. -/
def onStore {α : Type} (store : StoreId) (onMemory : Op PageArray α) (onPages : Nat → Op Bytes α) : Op Storage α :=
  match store with
  | .memory number => onArray number onMemory
  | .file name pageSize => onFile name (onPages pageSize)

theorem read_eq_onStore (store : StoreId) (id : PageId) :
    read store id = onStore store (PageArray.read id) fun pageSize => PageFile.read pageSize id := by
  cases store <;> rfl

theorem write_eq_onStore (store : StoreId) (page : Page) :
    write store page = onStore store (PageArray.write page) fun pageSize => PageFile.write pageSize page := by
  cases store <;> rfl

section

variable {α β : Type} {onMemory : Op PageArray α} {onPages : Nat → Op Bytes α} {alsoMemory : Op PageArray β}
  {alsoPages : Nat → Op Bytes β}

/-- Whatever is done to stores that have no byte in common can be done in either order. -/
theorem commutes_of_apart (apart : store.Apart other) (storage : Storage) :
    Op.Commutes (onStore store onMemory onPages) (onStore other alsoMemory alsoPages) storage := by
  -- Stores differ in their kind, in their numbers or in the names of their files, and so do their parts.
  cases store with
  | memory number =>
    cases other with
    | memory another => exact (apart_arrays apart).commutes (lifts_onArray ..) (lifts_onArray ..) storage
    | file name _ => exact (apart_array_file number name).commutes (lifts_onArray ..) (lifts_onFile ..) storage
  | file name _ =>
    cases other with
    | memory number => exact (apart_array_file number name).symm.commutes (lifts_onFile ..) (lifts_onArray ..) storage
    | file another _ => exact (apart_files apart).commutes (lifts_onFile ..) (lifts_onFile ..) storage

/-- What can be done to one store in either order can be done so to the storage. -/
theorem commutes_onStore
    (arrays : ∀ number, store = .memory number → Op.Commutes onMemory alsoMemory (storage.array number))
    (files : ∀ name pageSize, store = .file name pageSize →
      Op.Commutes (onPages pageSize) (alsoPages pageSize) (storage.file name)) :
    Op.Commutes (onStore store onMemory onPages) (onStore store alsoMemory alsoPages) storage := by
  -- A store is one part of the storage, and both operations act on that part alone.
  cases store with
  | memory number => exact (arrayPart number).commutes (lifts_onArray ..) (lifts_onArray ..) (arrays number rfl)
  | file name pageSize => exact (filePart name).commutes (lifts_onFile ..) (lifts_onFile ..) (files name pageSize rfl)

end

/-- Pages may be read in either order. -/
theorem commutes_read_read (positive : 0 < (storage.view store).pageSize) (near : other = store ∨ store.Apart other)
    (id another : PageId) : Op.Commutes (read store id) (read other another) storage := by
  -- Either both stores are one, where its pages commute, or they have no byte in common.
  rw [read_eq_onStore, read_eq_onStore]
  rcases near with rfl | apart
  · refine commutes_onStore (fun number _ => PageArray.commutes_read_read _ id another) fun name pageSize same => ?_
    subst same
    exact PageFile.commutes_read_read positive _ id another
  · exact commutes_of_apart apart storage

/-- A page may be read before or after another one is written in its place. -/
theorem commutes_read_write (positive : 0 < (storage.view store).pageSize)
    (near : other = store ∧ id.number ≠ page.id.number ∨ store.Apart other)
    (within : page.id.number < (storage.view other).images.length) :
    Op.Commutes (read store id) (write other page) storage := by
  -- In one store the numbers of the pages differ, and two stores have nothing in common.
  rw [read_eq_onStore, write_eq_onStore]
  rcases near with ⟨rfl, apart⟩ | apart
  · refine commutes_onStore (fun number same => ?_) fun name pageSize same => ?_
    · subst same
      exact PageArray.commutes_read_write within apart
    · subst same
      exact PageFile.commutes_read_write positive within apart
  · exact commutes_of_apart apart storage

/-- Different pages may be written in their places in either order. -/
theorem commutes_write_write {page another : Page} (positive : 0 < (storage.view store).pageSize)
    (near : other = store ∧ page.id.number ≠ another.id.number ∨ store.Apart other)
    (within : page.id.number < (storage.view store).images.length)
    (withinToo : another.id.number < (storage.view other).images.length) :
    Op.Commutes (write store page) (write other another) storage := by
  -- In one store both pages stay in their places, and two stores have nothing in common.
  rw [write_eq_onStore, write_eq_onStore]
  rcases near with ⟨rfl, apart⟩ | apart
  · refine commutes_onStore (fun number same => ?_) fun name pageSize same => ?_
    · subst same
      exact PageArray.commutes_write_write within withinToo apart
    · subst same
      exact PageFile.commutes_write_write positive within withinToo apart
  · exact commutes_of_apart apart storage

end Storage

end HeapEngine
