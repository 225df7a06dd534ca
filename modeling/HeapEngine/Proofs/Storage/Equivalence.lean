import HeapEngine.Proofs.Page.Encodable
import HeapEngine.Proofs.Storage

/-!
A store over a file and a store in memory cannot be told apart.

Both show a list of page images. A file has bytes after its last whole page besides, which nobody is told
of and which the first page that is appended covers.
-/

namespace HeapEngine

/-- What may be asked of a page store. -/
inductive StoreRequest where
  | count
  | read (id : PageId)
  /-- Writes a page at its own position. -/
  | write (page : Page)
  /-- Appends an empty page. -/
  | append

/-- What a page store tells when it does what it was asked for. -/
inductive StoreReply where
  | counted (pages : Nat)
  | found (page : Page)
  | written
  | appended (number : Nat)

/--
How many pages a store has after a request, as the answer tells.

An append that succeeds adds one page. So does a page that is written right after the last one.
-/
def StoreRequest.pagesAfter (pages : Nat) : StoreRequest → Outcome StoreReply → Nat
  | .append, .ok _ => pages + 1
  | .write page, .ok _ => if page.id.number = pages then pages + 1 else pages
  | _, _ => pages

namespace Storage

/-- Does what a request asks of a store. -/
def serve (store : StoreId) : StoreRequest → Op Storage StoreReply
  | .count => do return .counted (← (← get).pageCount store)
  | .read id => do return .found (← read store id)
  | .write page => do
    write store page
    return .written
  | .append => do return .appended (← append store)

/-- Serves requests in turn, whatever becomes of each of them. -/
def serveAll (store : StoreId) : List StoreRequest → Storage → List (Outcome StoreReply) × Storage
  | [], storage => ([], storage)
  | request :: rest, storage =>
    match serve store request storage with
    | .ok reply after =>
      let (replies, last) := serveAll store rest after
      (.ok reply :: replies, last)
    | .error fault after =>
      let (replies, last) := serveAll store rest after
      (.error fault :: replies, last)

end Storage

/-- An image is as long as its page. -/
theorem Page.length_of_image {page : Page} {image : Bytes} (encoded : page.image = .ok image) :
    image.length = page.size := by
  unfold Page.image at encoded
  split at encoded
  · cases encoded
  rename_i long
  split at encoded
  · cases encoded
  split at encoded
  · cases encoded
  rename_i within
  cases encoded
  -- The cells begin within the page, and what lies before them is filled up with zeros.
  have whole : page.unsealed.length = page.size := by
    unfold Page.unsealed
    simp only [List.length_append, List.length_take, List.length_drop, Bytes.length_zeros]
    unfold Page.size at within ⊢
    omega
  rw [List.length_append, length_checksumBytes, List.length_drop, whole]
  unfold checksumSize at long ⊢
  omega

namespace StoreView

/-- The image that a page would be stored as, unless it is refused. -/
def accept (view : StoreView) (page : Page) : Outcome Bytes := do
  page.requireSize view.pageSize
  if view.writesFail then fail (.storage .injectedWrite)
  else if view.images.length < page.id.number then fail (.noPage page.id view.images.length)
  else page.image

/-- The images with one set in its place, or added after the last. -/
def put (images : List Bytes) (number : Nat) (image : Bytes) : List Bytes :=
  if number < images.length then images.set number image else images ++ [image]

variable {view : StoreView} {page : Page} {images : List Bytes} {image : Bytes} {number other : Nat}

/-- A page that is accepted has the size of the store's pages, and a place among them or right after. -/
theorem of_accept (accepted : view.accept page = .ok image) :
    image.length = view.pageSize ∧ page.id.number ≤ view.images.length := by
  obtain ⟨_, sized, rest⟩ := Outcome.exists_of_bind accepted
  unfold Page.requireSize at sized
  split at sized
  · cases sized
  rename_i same
  split at rest
  · cases rest
  split at rest
  · cases rest
  rename_i within
  exact ⟨(Page.length_of_image rest).trans (by simpa using same), Nat.not_lt.1 within⟩

/-- Putting an image adds at most one page. -/
theorem length_put (images : List Bytes) (number : Nat) (image : Bytes) :
    (put images number image).length = if number < images.length then images.length else images.length + 1 := by
  unfold put
  split <;> simp

/-- The image of the empty page that would be appended. -/
def blank (view : StoreView) : Outcome Bytes := (Page.empty ⟨0, view.images.length⟩ view.pageSize).image

/-- What a request is told. -/
def reply (view : StoreView) : StoreRequest → Outcome StoreReply
  | .count => .ok (.counted view.images.length)
  | .read id => (view.read id).map .found
  | .write page => (view.accept page).map fun _ => .written
  | .append => view.blank.map fun _ => .appended view.images.length

/-- What the store shows after a request. One that is refused changes nothing. -/
def after (view : StoreView) : StoreRequest → StoreView
  | .count => view
  | .read _ => view
  | .write page =>
    match view.accept page with
    | .ok image => { view with images := put view.images page.id.number image }
    | .error _ => view
  | .append =>
    match view.blank with
    | .ok image => { view with images := view.images ++ [image] }
    | .error _ => view

/-- All other pages keep their images. -/
theorem getElem?_put (apart : other ≠ number) (there : other < images.length) :
    (put images number image)[other]? = images[other]? := by
  unfold put
  split
  · exact List.getElem?_set_ne (Ne.symm apart)
  · exact List.getElem?_append_left there

/-- A request takes no page away, and changes only the page that it writes. -/
theorem after_images (view : StoreView) (request : StoreRequest) :
    view.images.length ≤ (view.after request).images.length
      ∧ ∀ number < view.images.length, (∀ page, request = .write page → page.id.number ≠ number) →
        (view.after request).images[number]? = view.images[number]? := by
  have same : view.images.length ≤ view.images.length
      ∧ ∀ number < view.images.length, (∀ page, request = .write page → page.id.number ≠ number) →
        view.images[number]? = view.images[number]? := ⟨Nat.le_refl _, fun _ _ _ => rfl⟩
  cases request with
  | count => exact same
  | read id => exact same
  | write page =>
    simp only [after]
    cases view.accept page with
    | error fault => exact same
    | ok image =>
      refine ⟨?_, fun number there untouched => ?_⟩
      · rw [length_put]
        split <;> omega
      · exact getElem?_put (Ne.symm (untouched page rfl)) there
  | append =>
    simp only [after]
    cases view.blank with
    | error fault => exact same
    | ok image => exact ⟨by simp, fun number there _ => List.getElem?_append_left there⟩

/-- How many pages there are after a request can be told from the answer. -/
theorem length_after (view : StoreView) (request : StoreRequest) :
    (view.after request).images.length = request.pagesAfter view.images.length (view.reply request) := by
  cases request with
  | count => rfl
  | read id =>
    -- Whatever is read, the pages are the same.
    simp only [after, StoreRequest.pagesAfter]
  | write page =>
    simp only [after, reply]
    cases accepted : view.accept page with
    | error fault => rfl
    | ok image =>
      have within := (of_accept accepted).2
      simp only [length_put, StoreRequest.pagesAfter, Except.map]
      split <;> split <;> omega
  | append =>
    simp only [after, reply]
    cases view.blank with
    | error fault => rfl
    | ok image => exact List.length_append

end StoreView

namespace PageFile

variable {pageSize number : Nat} {content image : Bytes}

/-- The bytes after the last whole page. -/
def tail (pageSize : Nat) (content : Bytes) : Bytes := content.drop (content.length / pageSize * pageSize)

/-- A file is its whole pages, one after the other, and what follows them. -/
theorem flatten_images_append_tail (pageSize : Nat) (content : Bytes) :
    (images pageSize content).flatten ++ tail pageSize content = content := by
  -- The first pages are the beginning of the file, however many are counted.
  have general : ∀ count, count ≤ content.length / pageSize →
      ((List.range count).map fun number => content.window (number * pageSize) pageSize).flatten
        = content.take (count * pageSize) := by
    intro count
    induction count with
    | zero => simp
    | succ count ih =>
      intro within
      rw [List.range_succ, List.map_append, List.flatten_append, ih (by omega), Nat.succ_mul, List.take_add]
      simp [Bytes.window]
  rw [images, general _ (Nat.le_refl _), tail, List.take_append_drop]

/-- An image that is put in its place among the whole pages, or after them, is one of them afterwards. -/
theorem images_put (positive : 0 < pageSize) (sized : image.length = pageSize)
    (within : number ≤ (images pageSize content).length) :
    images pageSize (content.overwrite (number * pageSize) image)
      = StoreView.put (images pageSize content) number image := by
  rw [length_images] at within
  unfold StoreView.put
  rw [length_images]
  rcases Nat.lt_or_eq_of_le within with before | rfl
  · rw [if_pos before, images_overwrite sized before]
  · rw [if_neg (Nat.lt_irrefl _), images_append positive sized]

/-- What follows the last whole page stays until a page is appended, and then nothing follows. -/
theorem tail_put (positive : 0 < pageSize) (sized : image.length = pageSize)
    (within : number ≤ (images pageSize content).length) :
    tail pageSize (content.overwrite (number * pageSize) image)
      = if number < (images pageSize content).length then tail pageSize content else [] := by
  rw [length_images] at within ⊢
  have whole := Nat.div_mul_le_self content.length pageSize
  rcases Nat.lt_or_eq_of_le within with before | rfl
  · -- The page ends where the tail begins, or before.
    have fits := end_le before
    have apart := end_le_start pageSize before
    rw [if_pos before, tail, tail, Bytes.length_overwrite (by omega),
      Bytes.drop_overwrite (by omega) (by omega)]
  · -- The tail is shorter than a page, so the new one covers it.
    have rest : content.length < content.length / pageSize * pageSize + pageSize := Nat.lt_div_mul_add positive
    have length : (content.overwrite (content.length / pageSize * pageSize) image).length
        = (content.length / pageSize + 1) * pageSize := by
      rw [Nat.succ_mul]
      simp only [Bytes.overwrite, List.length_append, List.length_take, List.length_drop]
      omega
    rw [if_neg (Nat.lt_irrefl _), tail, length, Nat.mul_div_cancel _ positive, List.drop_eq_nil_iff]
    exact Nat.le_of_eq length

/-- Reading tells what the whole pages show, and leaves the file as it is. -/
theorem read_eq (positive : 0 < pageSize) (id : PageId) (content : Bytes) :
    read pageSize id content = Op.ended ((view pageSize content).read id) content := by
  rw [read, Op.get_bind_run, Op.liftM_bind_run, pageCount_eq positive]
  simp only [StoreView.read, view, Bool.false_eq_true, ↓reduceIte, length_images, getElem?_images]
  by_cases within : id.number < content.length / pageSize
  · rw [if_neg (Nat.not_le.2 within), if_pos within, Op.liftM_run]
  · rw [if_pos (Nat.not_lt.1 within), if_neg within]
    rfl

/-- Writing puts the image that is accepted over its place, and else leaves the file as it is. -/
theorem write_eq (positive : 0 < pageSize) (page : Page) (content : Bytes) :
    write pageSize page content = match (view pageSize content).accept page with
      | .ok image => Op.ended (.ok ()) (content.overwrite (page.id.number * pageSize) image)
      | .error fault => Op.ended (.error fault) content := by
  rw [write, Op.liftM_bind_run, StoreView.accept, view]
  -- The size is looked at first, then the position, and only then the page is encoded.
  cases page.requireSize pageSize with
  | error fault => rfl
  | ok _ =>
    rw [Op.get_bind_run, Op.liftM_bind_run, pageCount_eq positive]
    simp only [Bind.bind, Except.bind, Bool.false_eq_true, ↓reduceIte]
    by_cases beyond : (images pageSize content).length < page.id.number
    · rw [if_pos beyond, if_pos beyond]
      rfl
    · rw [if_neg beyond, if_neg beyond]
      cases page.image <;> rfl

/-- Appending puts the image of an empty page after the whole pages. -/
theorem append_eq (positive : 0 < pageSize) (content : Bytes) :
    append pageSize content = match (view pageSize content).blank with
      | .ok image => Op.ended (.ok (images pageSize content).length)
          (content.overwrite ((images pageSize content).length * pageSize) image)
      | .error fault => Op.ended (.error fault) content := by
  rw [append, Op.get_bind_run, Op.liftM_bind_run, pageCount_eq positive, StoreView.blank, view]
  simp only [Op.liftM_bind_run]
  cases (Page.empty ⟨0, (images pageSize content).length⟩ pageSize).image <;> rfl

end PageFile

namespace PageArray

variable {store : PageArray}

/-- How often reading a page is counted: not if the store fails or has no such page. -/
def countsRead (view : StoreView) (id : PageId) : Nat :=
  if view.readsFail then 0 else if (view.images[id.number]?).isSome then 1 else 0

/-- Reading tells what the store shows, and what is read is counted, whether it is a page or not. -/
theorem read_eq (store : PageArray) (id : PageId) :
    read id store = Op.ended (store.view.read id)
      { store with readCount := store.readCount + countsRead store.view id } := by
  rw [read, Op.get_bind_run, StoreView.read, countsRead, view]
  simp only
  by_cases fails : store.readsFail = true
  · rw [if_pos fails, if_pos fails, if_pos fails]
    rfl
  rw [if_neg fails, if_neg fails, if_neg fails]
  cases store.images[id.number]? with
  | none => rfl
  | some image => simp only [Op.set_bind_run, Op.liftM_run, Option.isSome_some, ↓reduceIte]

/-- Writing puts the image that is accepted in its place, and else changes nothing. -/
theorem write_eq (store : PageArray) (page : Page) :
    write page store = match store.view.accept page with
      | .ok image => Op.ended (.ok ()) { store with
          images := StoreView.put store.images page.id.number image, writeCount := store.writeCount + 1 }
      | .error fault => Op.ended (.error fault) store := by
  rw [write, Op.get_bind_run, Op.liftM_bind_run, StoreView.accept, view]
  cases page.requireSize store.pageSize with
  | error fault => rfl
  | ok _ =>
    simp only [Bind.bind, Except.bind]
    by_cases fails : store.writesFail = true
    · rw [if_pos fails, if_pos fails]
      rfl
    rw [if_neg fails, if_neg fails, PageArray.pageCount]
    by_cases beyond : store.images.length < page.id.number
    · rw [if_pos beyond, if_pos beyond]
      rfl
    · rw [if_neg beyond, if_neg beyond]
      cases page.image <;> rfl

/-- Appending adds the image of an empty page. -/
theorem append_eq (store : PageArray) :
    append store = match store.view.blank with
      | .ok image => Op.ended (.ok store.images.length) { store with images := store.images ++ [image] }
      | .error fault => Op.ended (.error fault) store := by
  rw [append, Op.get_bind_run, Op.liftM_bind_run, PageArray.pageCount, StoreView.blank, view]
  cases (Page.empty ⟨0, store.images.length⟩ store.pageSize).image <;> rfl

end PageArray

namespace Storage

variable {storage : Storage} {pageSize : Nat}

/-- What an action does to a store in memory is done to the storage. -/
theorem onArray_run {α : Type} {number : Nat} {action : Op PageArray α} {outcome : Outcome α}
    {after : PageArray} (ran : action (storage.array number) = Op.ended outcome after) :
    onArray number action storage
      = Op.ended outcome { storage with arrays := storage.arrays.insert number after } := by
  unfold onArray
  rw [ran]
  cases outcome <;> rfl

/-- What an action does to a file is done to the storage. -/
theorem onFile_run {α : Type} {name : String} {action : Op Bytes α} {outcome : Outcome α}
    {after : Bytes} (ran : action (storage.file name) = Op.ended outcome after) :
    onFile name action storage
      = Op.ended outcome { storage with files := storage.files.insert name after } := by
  unfold onFile
  rw [ran]
  cases outcome <;> rfl

/-- What an operation gives is told as the reply to a request. -/
theorem tell_run {α β σ : Type} {action : Op σ α} {state after : σ} {outcome : Outcome α} (told : α → β)
    (ran : action state = Op.ended outcome after) :
    (action >>= fun value => pure (told value)) state = Op.ended (outcome.map told) after := by
  show EStateM.bind action _ state = _
  unfold EStateM.bind
  rw [ran]
  cases outcome <;> rfl

/-- A store in memory serves a request as the images that it shows do. -/
theorem serve_array (storage : Storage) (number : Nat) (request : StoreRequest) :
    ∃ after, serve (.memory number) request storage
        = Op.ended ((storage.view (.memory number)).reply request) after
      ∧ after.view (.memory number) = (storage.view (.memory number)).after request := by
  have shown : ∀ array, view { storage with arrays := storage.arrays.insert number array } (.memory number)
      = array.view := fun array => by rw [view_setArray, if_pos rfl]
  cases request with
  | count => exact ⟨storage, rfl, rfl⟩
  | read id =>
    exact ⟨_, tell_run StoreReply.found (onArray_run ((storage.array number).read_eq id)), shown _⟩
  | write page =>
    have ran := (storage.array number).write_eq page
    -- Whether the page is accepted decides what is told and what is shown.
    rw [show (storage.array number).view = storage.view (.memory number) from rfl] at ran
    simp only [StoreView.reply, StoreView.after]
    cases accepted : (storage.view (.memory number)).accept page with
    | ok image =>
      rw [accepted] at ran
      exact ⟨_, tell_run (fun _ => StoreReply.written) (onArray_run ran), shown _⟩
    | error fault =>
      rw [accepted] at ran
      exact ⟨_, tell_run (fun _ => StoreReply.written) (onArray_run ran), shown _⟩
  | append =>
    have ran := (storage.array number).append_eq
    rw [show (storage.array number).view = storage.view (.memory number) from rfl] at ran
    simp only [StoreView.reply, StoreView.after]
    cases encoded : (storage.view (.memory number)).blank with
    | ok image =>
      rw [encoded] at ran
      exact ⟨_, tell_run StoreReply.appended (onArray_run ran), shown _⟩
    | error fault =>
      rw [encoded] at ran
      exact ⟨_, tell_run StoreReply.appended (onArray_run ran), shown _⟩

/-- What the bytes after a request are: they show what they must, and the tail is there unless it is covered. -/
structure Leaves (pageSize : Nat) (before : Bytes) (shown : StoreView) (after : Bytes) : Prop where
  view : PageFile.view pageSize after = shown
  tail : PageFile.tail pageSize after
    = if shown.images.length = (PageFile.images pageSize before).length then PageFile.tail pageSize before else []

/-- Bytes that are left alone show what they showed. -/
theorem Leaves.same (pageSize : Nat) (content : Bytes) :
    Leaves pageSize content (PageFile.view pageSize content) content := ⟨rfl, (if_pos rfl).symm⟩

/-- An image is put among the images that are shown, and covers the tail if it comes after them. -/
theorem Leaves.put (positive : 0 < pageSize) {content image : Bytes} {number : Nat}
    (sized : image.length = pageSize) (within : number ≤ (PageFile.images pageSize content).length) :
    Leaves pageSize content { PageFile.view pageSize content with
      images := StoreView.put (PageFile.images pageSize content) number image }
      (content.overwrite (number * pageSize) image) := by
  refine ⟨by rw [PageFile.view, PageFile.images_put positive sized within]; rfl, ?_⟩
  rw [PageFile.tail_put positive sized within, StoreView.length_put]
  -- The tail is covered exactly if there is one more page now.
  by_cases among : number < (PageFile.images pageSize content).length
  · rw [if_pos among, if_pos among, if_pos rfl]
  · rw [if_neg among, if_neg among, if_neg (Nat.succ_ne_self _)]

/-- The storage with other bytes in a file. -/
def withFile (storage : Storage) (name : String) (content : Bytes) : Storage :=
  { storage with files := storage.files.insert name content }

/-- A file that gets the bytes it has stays as it is. -/
theorem withFile_self {name : String} {content : Bytes} (stored : storage.files.find? name = some content) :
    storage.withFile name content = storage := by
  rw [withFile, SortedMap.insert_of_find? stored]

/-- A file serves a request as the images of its whole pages do, and nothing else in the storage changes. -/
theorem serve_file (positive : 0 < pageSize) {name : String} {content : Bytes}
    (stored : storage.files.find? name = some content) (request : StoreRequest) :
    ∃ left, serve (.file name pageSize) request storage
        = Op.ended ((PageFile.view pageSize content).reply request) (storage.withFile name left)
      ∧ Leaves pageSize content ((PageFile.view pageSize content).after request) left := by
  -- The content is what the file's name stands for.
  obtain rfl : storage.file name = content := by rw [file, stored, Option.getD_some]
  cases request with
  | count =>
    have counted : pageCount storage (.file name pageSize)
        = .ok (PageFile.view pageSize (storage.file name)).images.length := PageFile.pageCount_eq positive
    refine ⟨storage.file name, ?_, .same pageSize _⟩
    rw [withFile_self stored, serve, Op.get_bind_run, Op.liftM_bind_run, counted]
    rfl
  | read id =>
    have ran := PageFile.read_eq positive id (storage.file name)
    exact ⟨_, tell_run StoreReply.found (onFile_run ran), .same pageSize _⟩
  | write page =>
    have ran := PageFile.write_eq positive page (storage.file name)
    simp only [StoreView.reply, StoreView.after]
    cases accepted : (PageFile.view pageSize (storage.file name)).accept page with
    | ok image =>
      rw [accepted] at ran
      obtain ⟨sized, within⟩ := StoreView.of_accept accepted
      exact ⟨_, tell_run (fun _ => StoreReply.written) (onFile_run ran), .put positive sized within⟩
    | error fault =>
      rw [accepted] at ran
      exact ⟨_, tell_run (fun _ => StoreReply.written) (onFile_run ran), .same pageSize _⟩
  | append =>
    have ran := PageFile.append_eq positive (storage.file name)
    simp only [StoreView.reply, StoreView.after]
    cases encoded : (PageFile.view pageSize (storage.file name)).blank with
    | ok image =>
      rw [encoded] at ran
      -- An empty page is put right after the others.
      have sized : image.length = pageSize :=
        (Page.length_of_image encoded).trans (Bytes.length_zeros pageSize)
      have put := Leaves.put positive sized (Nat.le_refl (PageFile.images pageSize (storage.file name)).length)
      rw [StoreView.put, if_neg (Nat.lt_irrefl _)] at put
      exact ⟨_, tell_run StoreReply.appended (onFile_run ran), put⟩
    | error fault =>
      rw [encoded] at ran
      exact ⟨_, tell_run StoreReply.appended (onFile_run ran), .same pageSize _⟩

/-- A file that is there is found by the paths that led to it, and opening it changes nothing. -/
theorem openFile_again {name path : String} {content : Bytes}
    (stored : storage.files.find? name = some content)
    (leads : FileName.resolve storage.directory storage.files.contains path = .ok name) :
    openFile path pageSize storage = .ok (.file name pageSize) storage := by
  have here : storage.file name = content := by rw [file, stored, Option.getD_some]
  have found : resolve path storage = .ok name storage := by
    unfold resolve
    rw [leads]
  have opened : onFile name (pure ()) storage = .ok () (storage.withFile name content) := by
    show EStateM.Result.ok () (storage.withFile name (storage.file name)) = _
    rw [here]
  rw [openFile, Op.bind_of_ok found, Op.bind_of_ok opened, withFile_self stored]
  rfl

/-- What a run of requests does to a store over a file and to a store in memory that shows the same. -/
structure Agrees (pageSize : Nat) (requests : List StoreRequest) (before after : Bytes)
    (array : PageArray) : Prop where
  view : array.view = PageFile.view pageSize after
  /-- No page is taken away. -/
  grows : (PageFile.images pageSize before).length ≤ array.images.length
  /-- The file is the pages in memory, and what followed the last whole page unless one was appended. -/
  content : after = array.images.flatten
    ++ if array.images.length = (PageFile.images pageSize before).length then PageFile.tail pageSize before else []
  /-- A page that no request writes keeps its bytes. -/
  kept : ∀ number < (PageFile.images pageSize before).length,
    (∀ page, .write page ∈ requests → page.id.number ≠ number) →
    (PageFile.images pageSize after)[number]? = (PageFile.images pageSize before)[number]?

namespace Agrees

variable {requests : List StoreRequest} {content : Bytes} {array : PageArray}

/-- Before anything is asked the memory has the pages of the file, and the file has its tail besides. -/
theorem nil (shown : array.view = PageFile.view pageSize content) : Agrees pageSize [] content content array := by
  have images : array.images = PageFile.images pageSize content := congrArg StoreView.images shown
  refine ⟨shown, Nat.le_of_eq (congrArg List.length images).symm, ?_, fun _ _ _ => rfl⟩
  rw [images, if_pos rfl, PageFile.flatten_images_append_tail]

/-- What one request leaves is what the other requests begin with. -/
theorem cons {request : StoreRequest} {left after : Bytes}
    (leaves : Leaves pageSize content ((PageFile.view pageSize content).after request) left)
    (agrees : Agrees pageSize requests left after array) :
    Agrees pageSize (request :: requests) content after array := by
  obtain ⟨grown, untouched⟩ := (PageFile.view pageSize content).after_images request
  rw [← leaves.view] at grown untouched
  -- The tail after one request, in terms of what the file shows then.
  have tail : PageFile.tail pageSize left
      = if (PageFile.images pageSize left).length = (PageFile.images pageSize content).length
        then PageFile.tail pageSize content else [] := by
    have := leaves.tail
    rw [← leaves.view] at this
    exact this
  refine ⟨agrees.view, Nat.le_trans grown agrees.grows, ?_, fun number there apart => ?_⟩
  · -- The tail is gone if a page was appended by this request or by a later one.
    have later := agrees.grows
    have earlier : (PageFile.images pageSize content).length ≤ (PageFile.images pageSize left).length := grown
    refine agrees.content.trans (congrArg (array.images.flatten ++ ·) ?_)
    by_cases same : array.images.length = (PageFile.images pageSize left).length
    · rw [if_pos same, tail, same]
    · rw [if_neg same, if_neg (by omega)]
  · rw [agrees.kept number (Nat.lt_of_lt_of_le there grown) fun page member =>
      apart page (List.mem_cons_of_mem _ member)]
    exact untouched number there fun page same => apart page (same ▸ List.mem_cons_self)

end Agrees

/-- A request that was served is followed by the others. -/
theorem serveAll_cons {store : StoreId} {request : StoreRequest} {rest : List StoreRequest}
    {reply : Outcome StoreReply} {after : Storage} (served : serve store request storage = Op.ended reply after) :
    serveAll store (request :: rest) storage
      = (reply :: (serveAll store rest after).1, (serveAll store rest after).2) := by
  rw [serveAll, served]
  cases reply <;> rfl

/--
A store over a file and a store in memory that begin with the same pages cannot be told apart.

Every sequence of requests is told the same by both, refusals included. Afterwards the file is the images in
memory, one after the other, and then whatever followed its last whole page in the beginning, which is gone
as soon as a page was appended. There is one more page for each append that succeeded and for each page that was
written right after the last. Pages that no request writes keep their bytes, no page goes away, no other file is
touched, and opening the file again gives the same store and changes nothing.
-/
theorem file_agrees_with_memory {files arrays : Storage} {name : String} {number : Nat} {content : Bytes}
    (positive : 0 < pageSize) (stored : files.files.find? name = some content)
    (shown : (arrays.array number).view = PageFile.view pageSize content) (requests : List StoreRequest) :
    ∃ left, (serveAll (.file name pageSize) requests files).2 = files.withFile name left
      ∧ (serveAll (.file name pageSize) requests files).1 = (serveAll (.memory number) requests arrays).1
      ∧ Agrees pageSize requests content left ((serveAll (.memory number) requests arrays).2.array number)
      ∧ (PageFile.images pageSize left).length
        = (requests.zip (serveAll (.file name pageSize) requests files).1).foldl
          (fun pages entry => entry.1.pagesAfter pages entry.2) (PageFile.images pageSize content).length
      ∧ ∀ path, FileName.resolve files.directory files.files.contains path = .ok name →
        openFile path pageSize (files.withFile name left) = .ok (.file name pageSize) (files.withFile name left) := by
  -- Both stores show the same before each request, and so they do after it.
  induction requests generalizing files arrays content with
  | nil =>
    refine ⟨content, (withFile_self stored).symm, rfl, .nil shown, rfl, fun path leads => ?_⟩
    rw [withFile_self stored]
    exact openFile_again stored leads
  | cons request rest ih =>
    obtain ⟨left, onFile, leaves⟩ := serve_file positive stored request
    obtain ⟨arraysAfter, inMemory, shownAfter⟩ := arrays.serve_array number request
    have same : arrays.view (.memory number) = PageFile.view pageSize content := shown
    rw [same] at inMemory shownAfter
    have storedAfter : (files.withFile name left).files.find? name = some left :=
      SortedMap.find?_insert_self _ _ _
    obtain ⟨last, kept, told, agrees, pages, again⟩ := ih storedAfter (shownAfter.trans leaves.view.symm)
    -- The bytes of the file are set once more, and a path still leads to it.
    have once : (files.withFile name left).withFile name last = files.withFile name last := by
      rw [withFile, withFile, withFile, SortedMap.insert_insert]
    have names : (files.withFile name left).files.contains = files.files.contains :=
      SortedMap.contains_insert stored left
    rw [once] at kept again
    rw [names] at again
    -- The other requests begin with the pages that there are after the first one.
    have first : (PageFile.images pageSize left).length = request.pagesAfter (PageFile.images pageSize content).length
        ((PageFile.view pageSize content).reply request) := by
      rw [show PageFile.images pageSize left = _ from congrArg StoreView.images leaves.view]
      exact (PageFile.view pageSize content).length_after request
    rw [serveAll_cons onFile, serveAll_cons inMemory]
    refine ⟨last, kept, congrArg (List.cons _) told, agrees.cons leaves, ?_, again⟩
    rw [List.zip_cons_cons, List.foldl_cons, ← first]
    exact pages

/-- Two empty pages and five bytes of a third one that was never finished. -/
def torn : Bytes := Bytes.zeros 48 ++ [1, 2, 3, 4, 5]

/-- The pages in a file, with what follows them. -/
def tornFile : Storage := ⟨"", .empty, SortedMap.empty.insert "t.dat" torn⟩

/-- The same pages in memory. -/
def tornPages : Storage :=
  ⟨"", SortedMap.empty.insert 0 { PageArray.empty 24 with images := [Bytes.zeros 24, Bytes.zeros 24] }, .empty⟩

/-- The pages are counted and written, two requests are refused, and the unfinished page is covered. -/
def tornRequests : List StoreRequest :=
  [.count, .write (.empty ⟨0, 1⟩ 24), .read ⟨0, 1⟩, .read ⟨0, 2⟩, .write (.empty ⟨0, 5⟩ 24), .append, .count]

theorem file_agrees_with_memory_torn :
    0 < 24 ∧ tornFile.files.find? "t.dat" = some torn
      ∧ (tornPages.array 0).view = PageFile.view 24 torn
      ∧ ∃ left, (serveAll (.file "t.dat" 24) tornRequests tornFile).2 = tornFile.withFile "t.dat" left
        ∧ (serveAll (.file "t.dat" 24) tornRequests tornFile).1 = (serveAll (.memory 0) tornRequests tornPages).1
        ∧ Agrees 24 tornRequests torn left ((serveAll (.memory 0) tornRequests tornPages).2.array 0) := by
  have positive : 0 < 24 := by decide
  have stored : tornFile.files.find? "t.dat" = some torn := by decide
  have shown : (tornPages.array 0).view = PageFile.view 24 torn := by rfl
  obtain ⟨left, kept, told, agrees, _, _⟩ := file_agrees_with_memory positive stored shown tornRequests
  exact ⟨positive, stored, shown, left, kept, told, agrees⟩

end Storage

end HeapEngine
