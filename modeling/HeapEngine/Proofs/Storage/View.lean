import HeapEngine.Proofs.Page.Image
import HeapEngine.Proofs.Storage.PageFile

/-!
What a store shows: the images of its pages, and whether reading and writing them fails.

Stores in memory and stores over files show the same kind of thing, and do the same to it.
-/

namespace HeapEngine

/-- What can be seen of a store. -/
structure StoreView where
  pageSize : Nat
  /-- The images of its pages in order. -/
  images : List Bytes
  readsFail : Bool
  writesFail : Bool
deriving DecidableEq

/-- What is read from a store at a page's position. -/
def StoreView.read (view : StoreView) (id : PageId) : Outcome Page :=
  if view.readsFail then fail (.storage .injectedRead)
  else
    match view.images[id.number]? with
    | none => fail (.noPage id view.images.length)
    | some image => Page.ofImage id image

namespace PageArray

/-- What a store in memory shows. -/
def view (store : PageArray) : StoreView :=
  ⟨store.pageSize, store.images, store.readsFail, store.writesFail⟩

variable {store : PageArray}

/-- Reading counts, but changes nothing that the store shows. -/
theorem ensures_read (store : PageArray) (id : PageId) :
    Op.Ensures (read id) store fun result after =>
      store.view.read id = Outcome.ofResult result ∧ after.view = store.view := by
  refine .get_bind (.ite (fun fails => .fail ?_) fun works => ?_)
  · exact ⟨by simp [StoreView.read, view, fails, Outcome.ofResult], rfl⟩
  · cases found : store.images[id.number]? with
    | none =>
      refine .fail ⟨?_, rfl⟩
      simp [StoreView.read, view, works, found, Outcome.ofResult, pageCount]
    | some image =>
      obtain ⟨result, read⟩ := Page.ofImage_ends id image
      refine .set_bind (.ofOutcome read ⟨?_, rfl⟩)
      simp [StoreView.read, view, works, found, read]

/-- Writing over a page that is there sets its image, or fails and changes nothing. -/
theorem ensures_write {page : Page} {image : Bytes} (sized : page.size = store.pageSize)
    (encoded : page.image = .ok image) (within : page.id.number < store.images.length) :
    Op.Ensures (write page) store fun result after =>
      if store.writesFail then
        result = .error (.storage .injectedWrite) ∧ after.view = store.view
      else result = .ok () ∧ after.view
        = { store.view with images := store.images.set page.id.number image } := by
  have size : page.requireSize store.pageSize = .ok () := by simp [Page.requireSize, sized]
  refine .get_bind (.ofOutcome_bind size (.ite (fun fails => .fail ?_) fun works => ?_))
  · rw [if_pos fails]
    exact ⟨rfl, rfl⟩
  · refine .ite (fun beyond => ?_) fun _ => ?_
    · unfold pageCount at beyond
      omega
    · refine .ofOutcome_bind encoded ?_
      rw [if_pos (show page.id.number < store.pageCount from within)]
      -- What is left is the last step alone, which sets the image.
      show ite _ _ _
      rw [if_neg works]
      exact ⟨rfl, rfl⟩

/-- Appending adds the image of an empty page, whatever failures were asked for. -/
theorem ensures_append {image : Bytes}
    (encoded : (Page.empty ⟨0, store.images.length⟩ store.pageSize).image = .ok image) :
    Op.Ensures append store fun result after =>
      result = .ok store.images.length
        ∧ after.view = { store.view with images := store.images ++ [image] } :=
  .get_bind (.ofOutcome_bind encoded (.set_bind ⟨rfl, rfl⟩))

/-- Making the store durable counts, but changes nothing that it shows. -/
theorem ensures_sync (store : PageArray) :
    Op.Ensures sync store fun result after => result = .ok () ∧ after.view = store.view := ⟨rfl, rfl⟩

/-- Asking for failures changes nothing else that the store shows. -/
theorem ensures_setFailing (store : PageArray) (reads writes : Bool) :
    Op.Ensures (modify (setFailing reads writes)) store fun result after => result = .ok ()
      ∧ after.view = { store.view with readsFail := reads, writesFail := writes } := ⟨rfl, rfl⟩

end PageArray

namespace PageFile

/-- What a store over the bytes of a file shows; it cannot be told to fail. -/
def view (pageSize : Nat) (content : Bytes) : StoreView :=
  ⟨pageSize, images pageSize content, false, false⟩

variable {pageSize : Nat} {content image : Bytes}

theorem pageCount_eq (positive : 0 < pageSize) :
    pageCount pageSize content = .ok (images pageSize content).length := by
  have nonzero : pageSize ≠ 0 := Nat.pos_iff_ne_zero.1 positive
  simp [pageCount, nonzero]

/-- Reading leaves a file as it is. -/
theorem ensures_read (positive : 0 < pageSize) (content : Bytes) (id : PageId) :
    Op.Ensures (read pageSize id) content fun result after =>
      (view pageSize content).read id = Outcome.ofResult result ∧ after = content := by
  refine .get_bind (.ofOutcome_bind (pageCount_eq positive) (.ite (fun beyond => .fail ?_) fun within => ?_))
  · refine ⟨?_, rfl⟩
    simp [StoreView.read, view, List.getElem?_eq_none beyond, Outcome.ofResult]
  · rw [length_images] at within
    obtain ⟨result, read⟩ := Page.ofImage_ends id (content.window (id.number * pageSize) pageSize)
    have stored : (images pageSize content)[id.number]?
        = some (content.window (id.number * pageSize) pageSize) := by
      rw [getElem?_images, if_pos (Nat.not_le.1 within)]
    refine .ofOutcome read ⟨?_, rfl⟩
    simp only [StoreView.read, view, Bool.false_eq_true, ↓reduceIte, stored, read]

/-- Writing over a page that is there sets its image. -/
theorem ensures_write {page : Page} (positive : 0 < pageSize) (sized : page.size = pageSize)
    (long : image.length = pageSize) (encoded : page.image = .ok image)
    (within : page.id.number < (images pageSize content).length) :
    Op.Ensures (write pageSize page) content fun result after => result = .ok ()
      ∧ view pageSize after = { view pageSize content with
        images := (images pageSize content).set page.id.number image } := by
  have size : page.requireSize pageSize = .ok () := by simp [Page.requireSize, sized]
  refine .ofOutcome_bind size (.get_bind (.ofOutcome_bind (pageCount_eq positive) (.ite ?_ fun _ => ?_)))
  · intro beyond
    omega
  · refine .ofOutcome_bind encoded ⟨rfl, ?_⟩
    rw [length_images] at within
    rw [view, images_overwrite long within]
    rfl

/-- Appending adds the image of an empty page. -/
theorem ensures_append (positive : 0 < pageSize) (long : image.length = pageSize)
    (encoded : (Page.empty ⟨0, (images pageSize content).length⟩ pageSize).image = .ok image) :
    Op.Ensures (append pageSize) content fun result after =>
      result = .ok (images pageSize content).length ∧ view pageSize after
        = { view pageSize content with images := images pageSize content ++ [image] } := by
  refine .get_bind (.ofOutcome_bind (pageCount_eq positive) (.ofOutcome_bind encoded (.set_bind ?_)))
  refine ⟨rfl, ?_⟩
  rw [view, length_images, images_append positive long]
  rfl

end PageFile

end HeapEngine
