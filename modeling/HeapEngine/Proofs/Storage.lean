import HeapEngine.Proofs.SortedMap
import HeapEngine.Proofs.Storage.View

/-!
All the storage there is: an operation on one store changes what that store shows, and leaves alone
what the stores apart from it show.
-/

namespace HeapEngine

/-- Whether two stores have no byte in common: other arrays, or other files. -/
def StoreId.Apart : StoreId → StoreId → Prop
  | .memory a, .memory b => a ≠ b
  | .file a _, .file b _ => a ≠ b
  | _, _ => True

theorem StoreId.Apart.symm {a b : StoreId} (apart : a.Apart b) : b.Apart a := by
  cases a <;> cases b <;> simp_all [StoreId.Apart, ne_comm]

namespace Storage

/-- What can be seen of a store; only stores in memory can be told to fail. -/
def view (storage : Storage) : StoreId → StoreView
  | .memory number => (storage.array number).view
  | .file name pageSize => PageFile.view pageSize (storage.file name)

variable {storage : Storage} {store : StoreId}

theorem pageSize_view (storage : Storage) (store : StoreId) :
    (storage.view store).pageSize = storage.pageSize store := by
  cases store <;> rfl

theorem pageCount_eq (positive : 0 < (storage.view store).pageSize) :
    storage.pageCount store = .ok (storage.view store).images.length := by
  cases store with
  | memory number => rfl
  | file name pageSize => exact PageFile.pageCount_eq positive

/-- Setting one array leaves alone what all other stores show. -/
theorem view_setArray (storage : Storage) (number : Nat) (array : PageArray) (other : StoreId) :
    view { storage with arrays := storage.arrays.insert number array } other
      = if other = .memory number then array.view else storage.view other := by
  cases other with
  | memory n =>
    by_cases here : n = number
    · subst here
      simp [view, Storage.array]
    · simp [view, Storage.array, SortedMap.find?_insert, here]
  -- A file is no array.
  | file name pageSize => simp [view, file]

/-- Setting one file leaves alone what stores over other files show. -/
theorem view_setFile (storage : Storage) (name : String) (content : Bytes) (pageSize : Nat)
    (other : StoreId) (apart : other = .file name pageSize ∨ (StoreId.file name pageSize).Apart other) :
    view { storage with files := storage.files.insert name content } other
      = if other = .file name pageSize then PageFile.view pageSize content
        else storage.view other := by
  rcases apart with rfl | apart
  · simp [view, file]
  · cases other with
    | memory number => rfl
    | file asked size =>
      -- Stores apart from this one are over other files, whatever their size of pages.
      have here : asked ≠ name := fun same => apart same.symm
      simp [view, file, SortedMap.find?_insert, here]

/-- What an operation on an array ensures is ensured of the storage with that array set. -/
theorem ends_onArray {mayTrap : Prop} {α : Type} {number : Nat} {action : Op PageArray α}
    {post : Except Failure α → Storage → Prop}
    (ends : Op.Ends mayTrap action (storage.array number) fun result after =>
      post result { storage with arrays := storage.arrays.insert number after }) :
    Op.Ends mayTrap (onArray number action) storage post := by
  unfold Op.Ends at ends ⊢
  unfold onArray
  cases ran : action (storage.array number) with
  | ok value after =>
    rw [ran] at ends
    exact ends
  | error fault after =>
    rw [ran] at ends
    cases fault <;> exact ends

/-- What an operation on a file ensures is ensured of the storage with that file set. -/
theorem ends_onFile {mayTrap : Prop} {α : Type} {name : String} {action : Op Bytes α}
    {post : Except Failure α → Storage → Prop}
    (ends : Op.Ends mayTrap action (storage.file name) fun result after =>
      post result { storage with files := storage.files.insert name after }) :
    Op.Ends mayTrap (onFile name action) storage post := by
  unfold Op.Ends at ends ⊢
  unfold onFile
  cases ran : action (storage.file name) with
  | ok value after =>
    rw [ran] at ends
    exact ends
  | error fault after =>
    rw [ran] at ends
    cases fault <;> exact ends

/-- One store shows something else, and those apart from it show what they showed. -/
structure Shows (before : Storage) (store : StoreId) (shown : StoreView) (after : Storage) : Prop where
  here : after.view store = shown
  apart : ∀ other, store.Apart other → after.view other = before.view other

namespace Shows

theorem setArray {number : Nat} {array : PageArray} {shown : StoreView} (shows : array.view = shown) :
    Shows storage (.memory number) shown
      { storage with arrays := storage.arrays.insert number array } where
  here := by rw [view_setArray, if_pos rfl, shows]
  apart other apart := by
    rw [view_setArray, if_neg]
    rintro rfl
    exact apart rfl

theorem setFile {name : String} {content : Bytes} {pageSize : Nat} {shown : StoreView}
    (shows : PageFile.view pageSize content = shown) :
    Shows storage (.file name pageSize) shown
      { storage with files := storage.files.insert name content } where
  here := by rw [view_setFile storage name content pageSize _ (.inl rfl), if_pos rfl, shows]
  apart other apart := by
    rw [view_setFile storage name content pageSize _ (.inr apart), if_neg]
    rintro rfl
    exact apart rfl

/-- A store that shows what it showed is like all others. -/
theorem same {after : Storage} (shows : Shows storage store (storage.view store) after) (other : StoreId)
    (known : other = store ∨ store.Apart other) : after.view other = storage.view other := by
  rcases known with rfl | apart
  · exact shows.here
  · exact shows.apart other apart

end Shows

/-- Reading tells what a store shows at the page's position, and the store goes on showing it. -/
theorem ensures_read (positive : 0 < (storage.view store).pageSize) (id : PageId) :
    Op.Ensures (read store id) storage fun result after =>
      (storage.view store).read id = Outcome.ofResult result
        ∧ Shows storage store (storage.view store) after := by
  cases store with
  | memory number =>
    refine ends_onArray ((PageArray.ensures_read (storage.array number) id).mono ?_)
    intro result after ended
    obtain ⟨told, shows⟩ := ended
    exact ⟨told, .setArray shows⟩
  | file name pageSize =>
    refine ends_onFile ((PageFile.ensures_read positive (storage.file name) id).mono ?_)
    intro result after ended
    obtain ⟨told, rfl⟩ := ended
    exact ⟨told, .setFile rfl⟩

/-- Every store in memory has the images it had, and every file its bytes. -/
structure SameBytes (before after : Storage) : Prop where
  arrays : ∀ number, (after.array number).images = (before.array number).images
  files : ∀ name, after.file name = before.file name

namespace SameBytes

theorem refl (storage : Storage) : SameBytes storage storage := ⟨fun _ => rfl, fun _ => rfl⟩

theorem trans {a b c : Storage} (first : SameBytes a b) (second : SameBytes b c) : SameBytes a c :=
  ⟨fun number => (second.arrays number).trans (first.arrays number),
    fun name => (second.files name).trans (first.files name)⟩

/-- A store in memory may count, or be told to fail. -/
theorem setArray {number : Nat} {array : PageArray} (same : array.images = (storage.array number).images) :
    SameBytes storage { storage with arrays := storage.arrays.insert number array } where
  arrays other := by
    by_cases here : other = number
    · rw [here, Storage.array, SortedMap.find?_insert_self]
      exact same
    · rw [Storage.array, SortedMap.find?_insert_other _ _ here]
      rfl
  files _ := rfl

/-- What has the same bytes shows the same images. -/
theorem images {after : Storage} (same : SameBytes storage after) (store : StoreId) :
    (after.view store).images = (storage.view store).images := by
  cases store with
  | memory number => exact same.arrays number
  | file name pageSize =>
    show PageFile.images pageSize (after.file name) = PageFile.images pageSize (storage.file name)
    rw [same.files]

end SameBytes

/-- Reading counts in a store in memory, and changes no byte. -/
theorem ensures_read_sameBytes (positive : 0 < (storage.view store).pageSize) (id : PageId) :
    Op.Ensures (read store id) storage fun _ after => SameBytes storage after := by
  cases store with
  | memory number =>
    refine ends_onArray ((PageArray.ensures_read (storage.array number) id).mono ?_)
    intro result after ended
    exact .setArray (congrArg StoreView.images ended.2)
  | file name pageSize =>
    refine ends_onFile ((PageFile.ensures_read positive (storage.file name) id).mono ?_)
    intro result after ended
    refine ⟨fun _ => rfl, fun other => ?_⟩
    -- The content is set again as it was.
    rw [ended.2, Storage.file, SortedMap.find?_insert]
    split
    · rename_i here
      rw [here]
      rfl
    · rfl

/-- Writing over a page that is there sets its image, or fails and changes nothing. -/
theorem ensures_write {page : Page} {image : Bytes} (positive : 0 < (storage.view store).pageSize)
    (sized : page.size = (storage.view store).pageSize) (encoded : page.image = .ok image)
    (long : image.length = page.size)
    (within : page.id.number < (storage.view store).images.length) :
    Op.Ensures (write store page) storage fun result after =>
      if (storage.view store).writesFail then
        result = .error (.storage .injectedWrite)
          ∧ Shows storage store (storage.view store) after
      else result = .ok () ∧ Shows storage store { storage.view store with
          images := (storage.view store).images.set page.id.number image } after := by
  cases store with
  | memory number =>
    refine ends_onArray ((PageArray.ensures_write sized encoded within).mono ?_)
    intro result after told
    -- The store in memory may be told to fail, and a file is not.
    by_cases fails : (storage.array number).writesFail = true
    · rw [if_pos fails] at told
      rw [if_pos (show (storage.view (.memory number)).writesFail = true from fails)]
      exact ⟨told.1, .setArray told.2⟩
    · rw [if_neg fails] at told
      rw [if_neg (show ¬ (storage.view (.memory number)).writesFail = true from fails)]
      exact ⟨told.1, .setArray told.2⟩
  | file name pageSize =>
    refine ends_onFile ((PageFile.ensures_write positive sized (long.trans sized) encoded within).mono ?_)
    intro result after ended
    obtain ⟨told, shows⟩ := ended
    exact ⟨told, .setFile shows⟩

/-- Appending adds the image of an empty page, whatever failures were asked for. -/
theorem ensures_append {image : Bytes} (positive : 0 < (storage.view store).pageSize)
    (encoded : (Page.empty ⟨0, (storage.view store).images.length⟩
      (storage.view store).pageSize).image = .ok image)
    (long : image.length = (storage.view store).pageSize) :
    Op.Ensures (append store) storage fun result after =>
      result = .ok (storage.view store).images.length ∧ Shows storage store { storage.view store with
        images := (storage.view store).images ++ [image] } after := by
  cases store with
  | memory number =>
    refine ends_onArray ((PageArray.ensures_append encoded).mono ?_)
    intro result after ended
    obtain ⟨told, shows⟩ := ended
    exact ⟨told, .setArray shows⟩
  | file name pageSize =>
    refine ends_onFile ((PageFile.ensures_append positive long encoded).mono ?_)
    intro result after ended
    obtain ⟨told, shows⟩ := ended
    exact ⟨told, .setFile shows⟩

/-- Making a store durable changes nothing that can be seen. -/
theorem ensures_sync (storage : Storage) (store : StoreId) :
    Op.Ensures (sync store) storage fun result after =>
      result = .ok () ∧ Shows storage store (storage.view store) after := by
  cases store with
  | memory number =>
    refine ends_onArray ((PageArray.ensures_sync (storage.array number)).mono ?_)
    intro result after ended
    obtain ⟨told, shows⟩ := ended
    exact ⟨told, .setArray shows⟩
  -- A file writes through, so nothing happens.
  | file name pageSize => exact .pure ⟨rfl, rfl, fun _ _ => rfl⟩

/-- Asking a store in memory for failures changes nothing else that it shows. -/
theorem ensures_setFailing (storage : Storage) (number : Nat) (reads writes : Bool) :
    Op.Ensures (onArray number (modify (PageArray.setFailing reads writes))) storage
      fun result after => result = .ok () ∧ Shows storage (.memory number)
        { storage.view (.memory number) with readsFail := reads, writesFail := writes } after := by
  refine ends_onArray ((PageArray.ensures_setFailing (storage.array number) reads writes).mono ?_)
  intro result after ended
  obtain ⟨told, shows⟩ := ended
  exact ⟨told, .setArray shows⟩

end Storage

end HeapEngine
