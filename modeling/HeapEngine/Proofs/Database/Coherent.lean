import HeapEngine.Proofs.Database.Alike

/-!
Pages in memory without changes are as they are stored, if all images are read as sound pages.
-/

namespace HeapEngine

/-- A record that is stored or erased on a sound page leaves a sound one. -/
theorem Page.Revises.sound {page changed : Page} (revises : page.Revises changed) (sound : page.Sound) :
    changed.Sound := by
  cases revises with
  | insert inserted =>
    -- A record is stored by storing its bytes as a cell.
    obtain ⟨_, stored, told⟩ := Outcome.exists_of_bind inserted
    cases told
    exact sound.of_insert stored
  | erase erased =>
    -- No record is erased from a sound page with a trap, so what was erased is what the page evolves to.
    rcases sound.eraseRecord_ends _ with ⟨_, _, _, same, evolves, _⟩ | ⟨_, refused⟩
    · cases erased.symm.trans same
      exact evolves.sound
    · cases erased.symm.trans refused

/-- What a caller does to a sound page leaves a sound one. -/
theorem Database.Handles.sound {page changed : Page} (handles : Database.Handles page changed) (sound : page.Sound) :
    changed.Sound := by
  cases handles with
  | insert inserted => exact sound.of_insert inserted
  | erase erased => exact sound.of_erase erased
  | mark asker => exact (Page.Agrees.markChanged page asker).sound sound
  | clean => exact (Page.Agrees.markWritten page).sound sound

/-- Whether a page in memory is as good as the stored one: sound, and if clean the same while its table is known. -/
structure Standing.Mirrors (standing : Standing) (id : PageId) (page : Page) : Prop where
  sound : page.Sound
  clean : page.changedBy = none → ∀ heap, standing.catalog.heap? id.table = some heap →
    ∃ read, standing.stored? id = some read ∧ read.Agrees page

/-- Over images of a kind, a sound page is like what is read from its image. -/
def ImageKind.likeness (kind : ImageKind) : Likeness where
  allows := kind.allows
  fair := Page.Sound
  like id image page := ∃ read, Page.ofImage id image = .ok read ∧ read.Agrees page
  allows_image := kind.allows_image
  -- An image of the kind gives a sound page, which is like itself.
  read allowed decoded := ⟨kind.sound allowed decoded, _, decoded, .refl _⟩
  written id page _ sound encoded := by
    obtain ⟨read, decoded, agrees, _⟩ := sound.ofImage_image encoded id
    have clean := Page.Agrees.markWritten page
    exact ⟨clean.sound sound, read, decoded, agrees.trans clean⟩
  fair_empty id _ least most := (Page.empty_sound id least most).1
  fair_revised {_ changed asker} revises sound := (Page.Agrees.markChanged changed asker).sound (revises.sound sound)
  fair_handled handles sound := handles.sound sound

namespace Database

variable {kind : ImageKind} {db before after : Database} {id : PageId} {page : Page} {number : Nat} {heap : Heap}

/-- All images are of a kind that is read as sound pages only, and all pages in memory mirror them. -/
structure Coherent (kind : ImageKind) (db : Database) : Prop where
  intact : db.Intact
  images : ∀ id image, db.standing.image? id = some image → kind.allows image
  cached : ∀ id page, db.pool.page? id = some page → db.standing.Mirrors id page

/-- All is coherent if all is alike. -/
theorem Alike.coherent (alike : db.Alike kind.likeness) : db.Coherent kind where
  intact := alike.intact
  images := alike.images
  cached id page resident := by
    refine ⟨alike.fair id page resident, fun clean heap registered => ?_⟩
    obtain ⟨image, found, read, decoded, agrees⟩ := alike.clean id page heap resident clean registered
    exact ⟨read, Standing.stored?_eq_some.2 ⟨image, found, decoded⟩, agrees⟩

namespace Coherent

theorem alike (coherent : db.Coherent kind) : db.Alike kind.likeness where
  intact := coherent.intact
  images := coherent.images
  fair id page resident := (coherent.cached id page resident).sound
  clean id page heap resident clean registered := by
    obtain ⟨read, stored, agrees⟩ := (coherent.cached id page resident).clean clean heap registered
    obtain ⟨image, found, decoded⟩ := Standing.stored?_eq_some.1 stored
    exact ⟨image, found, read, decoded, agrees⟩

/-- Every page that may be seen mirrors what is stored. -/
theorem mirrors (coherent : db.Coherent kind) (shown : db.MayShow id page) : db.standing.Mirrors id page := by
  rcases shown with resident | ⟨_, stored⟩
  -- In memory already, or to be brought from its image, which is the only thing it can mirror then.
  · exact coherent.cached id page resident
  · exact ⟨(coherent.alike.of_stored stored).1, fun _ _ _ => ⟨page, stored, .refl page⟩⟩

/-- Looking for pages leaves a database coherent. -/
theorem roams (coherent : before.Coherent kind) (roams : Roams before after) (intact : after.Intact) :
    after.Coherent kind := (coherent.alike.roams roams intact).coherent

/-- A heap that grows by an empty page leaves a database coherent. -/
theorem append (coherent : before.Coherent kind) (registered : before.catalog.heap? number = some heap)
    (appends : Appends before number after) : after.Coherent kind :=
  (coherent.alike.append registered appends).coherent

end Coherent

/-- While whoever changes a page marks it, all is coherent. -/
theorem Tended.coherent (tended : Tended kind.allows db) : db.Coherent kind := by
  -- The kind has to be named before its likeness can be told apart from others.
  have alike : db.Alike kind.likeness := Tended.alike tended
  exact alike.coherent

end Database

end HeapEngine
