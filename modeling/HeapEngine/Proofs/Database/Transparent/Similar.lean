import HeapEngine.Proofs.Database.Records
import HeapEngine.Proofs.Database.Steps.Commands
import HeapEngine.Proofs.Page.Twins

/-!
Databases that nobody can tell apart, whichever clean pages are in memory.

They show the same images, the same locks are held, and the pages with changes hold the same. A lock may
have been released before its transaction ended, so nothing is said of who holds a changed page.
-/

namespace HeapEngine

/-- Two pages of one name that agree and carry the same mark. -/
structure Page.Matches (a b : Page) : Prop where
  twins : a.Twins b
  changedBy : a.changedBy = b.changedBy

namespace Standing

/-- Whether a page may be in memory, whoever holds it: it has a place, and a clean one is as it is stored. -/
structure Suits (standing : Standing) (id : PageId) (page : Page) : Prop where
  name : page.id = id
  sound : page.Sound
  size : page.size = standing.settings.pageSize
  clean : page.changedBy = none → ∃ read, standing.stored? id = some read ∧ read.Agrees page
  placed : ∃ image, standing.image? id = some image

/-- What looking for a page past the pages in memory comes to. -/
def lookup (standing : Standing) (id : PageId) : Outcome Page :=
  match standing.catalog.find id.table with
  | .error failure => fail failure
  | .ok _ => (standing.shown id.table).read id

/-- What is found past the pages in memory is what is stored. -/
theorem stored?_of_lookup {standing : Standing} {id : PageId} {page : Page}
    (found : standing.lookup id = .ok page) : standing.stored? id = some page := by
  -- A table that is not known fails, so the page came from the store.
  unfold Standing.lookup at found
  split at found
  · cases found
  · exact stored?_of_read found

/-- What is stored is found past the pages in memory, if its table is known and its store can be read. -/
theorem lookup_of_stored? {standing : Standing} {id : PageId} {page : Page} {table : Table}
    (known : standing.catalog.find id.table = .ok table) (reads : (standing.shown id.table).readsFail = false)
    (stored : standing.stored? id = some page) : standing.lookup id = .ok page := by
  obtain ⟨image, found, decoded⟩ := stored?_eq_some.1 stored
  rw [Standing.image?] at found
  rw [Standing.lookup, known]
  simp only [StoreView.read, reads, Bool.false_eq_true, ↓reduceIte, found, decoded]

/-- All that counts is the same, and the pages with changes hold the same. -/
structure Similar (a b : Standing) : Prop where
  pageSize : a.settings.pageSize = b.settings.pageSize
  patience : a.settings.patience = b.settings.patience
  catalog : a.catalog = b.catalog
  shown : a.shown = b.shown
  locks : a.locks = b.locks
  unwritten : ∀ id, Option.Rel Page.Matches (a.unwritten id) (b.unwritten id)

namespace Similar

variable {a b : Standing} (similar : a.Similar b) {id : PageId}

include similar

theorem image?_eq (id : PageId) : a.image? id = b.image? id := by
  rw [Standing.image?, similar.shown, Standing.image?]

theorem stored?_eq (id : PageId) : a.stored? id = b.stored? id := by
  rw [Standing.stored?, similar.image?_eq, Standing.stored?]

theorem lookup_eq (id : PageId) : a.lookup id = b.lookup id := by
  rw [Standing.lookup, similar.catalog, similar.shown, Standing.lookup]

/-- A page has changes in both, or in neither. -/
theorem unwritten_eq_none_iff : a.unwritten id = none ↔ b.unwritten id = none := by
  -- The relation holds of two pages or of none, so both are told apart together.
  have both := similar.unwritten id
  generalize a.unwritten id = here at both ⊢
  generalize b.unwritten id = there at both ⊢
  cases both <;> simp

theorem withLocks (locks : Locks) : (a.withLocks locks).Similar (b.withLocks locks) :=
  { similar with locks := rfl }

theorem withShown (number : Nat) (view : StoreView) :
    (a.withShown number view).Similar (b.withShown number view) :=
  { similar with shown := by simp only [Standing.withShown, similar.shown] }

theorem withUnwritten {page other : Option Page} (pages : Option.Rel Page.Matches page other) (id : PageId) :
    (a.withUnwritten id page).Similar (b.withUnwritten id other) where
  pageSize := similar.pageSize
  patience := similar.patience
  catalog := similar.catalog
  shown := similar.shown
  locks := similar.locks
  unwritten name := by
    -- Under this name the two new pages match, and under others those that matched before.
    simp only [Standing.withUnwritten]
    split
    · exact pages
    · exact similar.unwritten name

theorem written (id : PageId) (image : Bytes) : (a.written id image).Similar (b.written id image) := by
  have shown := congrFun similar.shown id.table
  unfold Standing.written
  rw [shown]
  exact (similar.withShown _ _).withUnwritten .none id

end Similar

/-- Which pages are unwritten does not say what may be in memory. -/
theorem Suits.withUnwritten {standing : Standing} {id : PageId} {page : Page} (suits : standing.Suits id page)
    (other : PageId) (unwritten : Option Page) : (standing.withUnwritten other unwritten).Suits id page :=
  { suits with }

/-- Who holds which lock does not say what may be in memory. -/
theorem Suits.withLocks {standing : Standing} {id : PageId} {page : Page} (suits : standing.Suits id page)
    (locks : Locks) : (standing.withLocks locks).Suits id page :=
  { suits with }

theorem Suits.written {standing : Standing} {id other : PageId} {page : Page} {image : Bytes}
    (suits : standing.Suits other page) (apart : other ≠ id) :
    (standing.written id image).Suits other page := by
  have same : (standing.written id image).image? other = standing.image? other := image?_written_other apart
  refine ⟨suits.name, suits.sound, suits.size, fun clean => ?_, same ▸ suits.placed⟩
  -- Its own image is what it was, so it agrees with what is stored as before.
  rw [Standing.stored?, same]
  exact suits.clean clean

/-- A page that may be in memory may be there after its heap has grown. -/
theorem Grows.suits {standing grown : Standing} {number : Nat} {id : PageId} {page : Page}
    (grows : standing.Grows number grown) (suits : standing.Suits id page) : grown.Suits id page := by
  refine ⟨suits.name, suits.sound, grows.settings_eq ▸ suits.size, fun clean => ?_, ?_⟩
  · obtain ⟨read, stored, agrees⟩ := suits.clean clean
    exact ⟨read, grows.stored? stored, agrees⟩
  · obtain ⟨image, found⟩ := suits.placed
    exact ⟨image, grows.image? found⟩

/-- What is stored may be in memory. -/
theorem Orderly.suits_stored {kind : ImageKind} {standing : Standing} (orderly : standing.Orderly kind.allows)
    {id : PageId} {page : Page} (read : standing.stored? id = some page) : standing.Suits id page := by
  obtain ⟨name, sound, size, _, image, found, _⟩ := orderly.stored read
  exact ⟨name, sound, size, fun _ => ⟨page, read, .refl page⟩, image, found⟩

end Standing

namespace Database

variable {kind : ImageKind} {db before middle after : Database} {id : PageId} {page : Page} {heap : Heap}

/-- All is in order, no store fails to be read, and every page in memory may be there. -/
structure Settled (kind : ImageKind) (db : Database) : Prop where
  orderly : db.standing.Orderly kind.allows
  reads : ∀ number, (db.standing.shown number).readsFail = false
  cached : ∀ id page, db.pool.page? id = some page → db.standing.Suits id page

/-- A database is settled and stands for what it stood for. -/
structure Rests (kind : ImageKind) (before after : Database) : Prop where
  settled : after.Settled kind
  standing : after.standing = before.standing

theorem Rests.trans (first : Rests kind before middle) (second : Rests kind middle after) :
    Rests kind before after :=
  ⟨second.settled, second.standing.trans first.standing⟩

namespace Settled

/-- A database that stands for the same is settled if the pages in memory may be there. -/
theorem rests (settled : before.Settled kind) (stands : after.standing = before.standing)
    (suits : ∀ id page, after.pool.page? id = some page → before.standing.Suits id page) :
    Rests kind before after := by
  refine ⟨⟨?_, ?_, ?_⟩, stands⟩
  · rw [stands]
    exact settled.orderly
  · rw [stands]
    exact settled.reads
  · rw [stands]
    exact suits

theorem intact (settled : db.Settled kind) : db.Intact := by
  have orderly := settled.orderly
  have allowed : db.standing.Orderly fun _ => True :=
    -- Any image may be asked of less, and a sound page is one that has an image.
    { orderly with images := fun number image member => ⟨(orderly.images number image member).1, trivial⟩ }
  refine ⟨allowed, fun id page resident => ?_⟩
  have suits := settled.cached id page resident
  exact ⟨suits.name, suits.size, suits.sound.encodable, fun _ _ => suits.placed⟩

/-- What is stored is found past the pages in memory. -/
theorem lookup_eq (settled : db.Settled kind) (stored : db.standing.stored? id = some page) :
    db.standing.lookup id = .ok page := by
  obtain ⟨_, _, _, _, image, found, _⟩ := settled.orderly.stored stored
  obtain ⟨heap, registered⟩ := exists_heap_of_image? found
  exact Standing.lookup_of_stored? (settled.orderly.find_eq_ok registered) (settled.reads id.table) stored

/-- A page in memory is as it is stored, or unwritten. -/
theorem lookup_resident (settled : db.Settled kind) (resident : db.pool.page? id = some page)
    (clean : db.standing.unwritten id = none) : ∃ read, db.standing.lookup id = .ok read := by
  obtain ⟨read, stored, _⟩ := (settled.cached id page resident).clean (unmarked_of_unwritten resident clean)
  exact ⟨read, settled.lookup_eq stored⟩

/-- A store that goes on showing the same changes nothing. -/
theorem count (settled : db.Settled kind) {number : Nat} {storage : Storage}
    (registered : db.catalog.heap? number = some heap)
    (shows : Storage.Shows db.storage heap.store (db.storage.view heap.store) storage) :
    Rests kind db { db with storage } :=
  settled.rests (settled.intact.housed.standing_count registered shows) settled.cached

/-- Asking the pool for a page changes only the order of last use. -/
theorem touch (settled : db.Settled kind) (id : PageId) :
    Rests kind db { db with pool := (db.pool.touch id).2 } := by
  have same := (Pool.touch_eq db.pool id).1
  refine settled.rests (standing_withPool fun other => by rw [same]) fun other page resident => ?_
  exact settled.cached other page (same other ▸ resident)

/-- A page without changes can be dropped. -/
theorem drop (settled : db.Settled kind) (clean : db.standing.unwritten id = none) :
    Rests kind db { db with pool := db.pool.drop id } := by
  -- Only clean pages are told apart from before, and they do not count.
  refine settled.rests (standing_withPool fun other => ?_) fun other page resident => ?_
  · rw [Pool.page?_drop]
    split
    · rename_i here
      rw [here]
      exact clean.symm
    · rfl
  · rw [Pool.page?_drop] at resident
    split at resident
    · cases resident
    · exact settled.cached other page resident

/-- A page can be loaded as it is stored, unless a changed one is in memory. -/
theorem load (settled : db.Settled kind) (stored : db.standing.stored? id = some page)
    (absent : db.standing.unwritten id = none) :
    Rests kind db { db with pool := (db.pool.load id page).2 } := by
  have loaded := (db.pool.load_eq id page).1
  -- What is read carries no mark, so it does not count as a page with changes.
  have mark := (settled.orderly.stored stored).2.2.2.1
  refine settled.rests (standing_withPool fun other => ?_) fun other held resident => ?_
  · rw [loaded]
    split
    · rename_i here
      rw [here]
      refine Eq.trans ?_ absent.symm
      simp [Page.isDirty, mark]
    · rfl
  · rw [loaded] at resident
    split at resident
    · rename_i here
      cases resident
      rw [here]
      exact settled.orderly.suits_stored stored
    · exact settled.cached other held resident

/-- Other locks leave a database settled. -/
theorem withLocks (settled : db.Settled kind) {locks : Locks} (exclusive : locks.Exclusive) :
    Settled kind { db with locks } where
  orderly := { settled.orderly with locks := exclusive }
  reads := settled.reads
  cached id page resident := (settled.cached id page resident).withLocks locks

/-- One page is in memory otherwise than before, or not at all. -/
theorem seen (settled : db.Settled kind) {pool : Pool} {held : Option Page}
    (seen : ∀ other, pool.page? other = if other = id then held else db.pool.page? other)
    (suits : ∀ page, held = some page → db.standing.Suits id page) :
    Settled kind { db with pool }
      ∧ standing { db with pool } = db.standing.withUnwritten id (held.filter Page.isDirty) := by
  have stands : standing { db with pool } = db.standing.withUnwritten id (held.filter Page.isDirty) := by
    simp only [standing, Standing.withUnwritten, Standing.mk.injEq, true_and, and_true]
    funext other
    rw [seen]
    split <;> rfl
  refine ⟨⟨?_, ?_, fun other page resident => ?_⟩, stands⟩
  · rw [stands]
    exact settled.orderly.withUnwritten _ _
  · rw [stands]
    exact settled.reads
  · rw [stands]
    rw [seen] at resident
    split at resident
    · rename_i here
      rw [here]
      exact (suits page resident).withUnwritten _ _
    · exact (settled.cached other page resident).withUnwritten _ _

/-- A heap grows by an image that is allowed. -/
theorem append (settled : db.Settled kind) {number : Nat} {image : Bytes} {storage : Storage}
    (registered : db.catalog.heap? number = some heap)
    (encoded : (Page.empty ⟨0, (db.standing.shown number).images.length⟩
      (db.standing.shown number).pageSize).image = .ok image)
    (long : image.length = db.settings.pageSize) (allowed : kind.allows image)
    (shows : Storage.Shows db.storage heap.store { db.standing.shown number with
      images := (db.standing.shown number).images ++ [image] } storage) :
    Settled kind { db with storage }
      ∧ standing { db with storage } = db.standing.withShown number { db.standing.shown number with
        images := (db.standing.shown number).images ++ [image] } := by
  have stands := standing_withStorage settled.orderly registered shows
  have grows : db.standing.Grows number (standing { db with storage }) := .inr ⟨image, encoded, stands⟩
  refine ⟨⟨?_, ?_, fun other page resident => grows.suits (settled.cached other page resident)⟩, stands⟩
  -- The new image is one more of the size and kind of the others, and is read as an empty page.
  · rw [stands]
    refine settled.orderly.withShown number (settled.orderly.sizes number heap registered) ?_
    intro other member
    rcases List.mem_append.1 member with old | new
    · exact settled.orderly.images number other old
    · cases List.mem_singleton.1 new
      exact ⟨long, allowed⟩
  · intro other
    rw [stands]
    simp only [Standing.withShown]
    split
    · exact settled.reads number
    · exact settled.reads other

/-- A page whose image is stored and whose mark is gone is written. -/
theorem write (settled : db.Settled kind) {image : Bytes} {storage : Storage}
    (resident : db.pool.page? id = some page) (registered : db.catalog.heap? id.table = some heap)
    (encoded : page.image = .ok image)
    (shows : Storage.Shows db.storage heap.store { db.storage.view heap.store with
      images := (db.storage.view heap.store).images.set id.number image } storage) :
    Settled kind { db with storage, pool := db.pool.editResident id Page.markWritten }
      ∧ standing { db with storage, pool := db.pool.editResident id Page.markWritten }
        = db.standing.written id image := by
  have suits := settled.cached id page resident
  obtain ⟨old, stored⟩ := suits.placed
  have stands := standing_writeBack settled.orderly resident registered shows
  obtain ⟨same, again, long⟩ := suits.sound.exists_image
  cases encoded.symm.trans again
  -- The image takes the place of the old one, and the page in memory becomes clean with it.
  refine ⟨⟨?_, ?_, fun other held found => ?_⟩, stands⟩
  · rw [stands]
    refine (settled.orderly.withShown id.table ?_ ?_).withUnwritten id none
    · exact settled.orderly.sizes _ heap registered
    · intro other member
      rcases List.mem_or_eq_of_mem_set member with old | new
      · exact settled.orderly.images _ other old
      · cases new
        exact ⟨long.trans suits.size, kind.allows_image suits.sound encoded⟩
  · intro number
    rw [stands, (Standing.alike_written number).readsFail]
    exact settled.reads number
  · rw [stands]
    rw [Pool.page?_editResident] at found
    split at found
    · rename_i here
      rw [resident] at found
      cases found
      rw [here]
      -- What is stored now reads back as the page that was written.
      obtain ⟨read, decoded, agrees, _⟩ := suits.sound.ofImage_image encoded id
      have placed : (db.standing.written id image).image? id = some image := Standing.image?_written_self stored
      have clean := Page.Agrees.markWritten page
      refine ⟨suits.name, clean.sound suits.sound, suits.size, fun _ => ⟨read, ?_, agrees.trans clean⟩,
        image, placed⟩
      rw [Standing.stored?, placed, Option.bind_some, decoded]
      rfl
    · rename_i apart
      exact (settled.cached other held found).written apart

end Settled

/-- Two settled databases that stand for the same. -/
structure Similar (kind : ImageKind) (a b : Database) : Prop where
  left : a.Settled kind
  right : b.Settled kind
  standing : a.standing.Similar b.standing

namespace Similar

variable {a b a' b' : Database} (similar : Similar kind a b)

include similar

/-- Whatever stands as before is similar as before. -/
theorem rests (left : Rests kind a a') (right : Rests kind b b') : Similar kind a' b' where
  left := left.settled
  right := right.settled
  standing := by
    rw [left.standing, right.standing]
    exact similar.standing

/-- A page that is in memory in both holds the same in both. -/
theorem matches_resident {p q : Page} (here : a.pool.page? id = some p) (there : b.pool.page? id = some q) :
    p.Matches q := by
  have first := similar.left.cached id p here
  have second := similar.right.cached id q there
  -- A mark in one of them and none in the other would be a page with changes in one only.
  have both := similar.standing.unwritten id
  rw [unwritten_eq here, unwritten_eq there] at both
  by_cases mark : p.changedBy = none <;> by_cases other : q.changedBy = none
  · -- Both are clean, and so they are what is stored.
    obtain ⟨read, stored, agrees⟩ := first.clean mark
    obtain ⟨again, found, same⟩ := second.clean other
    rw [similar.standing.stored?_eq, found] at stored
    cases stored
    exact ⟨⟨first.name.trans second.name.symm, agrees.symm.trans same⟩, mark.trans other.symm⟩
  · rw [if_pos mark, if_neg other] at both
    cases both
  · rw [if_neg mark, if_pos other] at both
    cases both
  · rw [if_neg mark, if_neg other] at both
    exact Option.rel_some_some.1 both

theorem withLocks {locks : Locks} (exclusive : locks.Exclusive) :
    Similar kind { a with locks } { b with locks } where
  left := similar.left.withLocks exclusive
  right := similar.right.withLocks exclusive
  standing := similar.standing.withLocks locks

end Similar

end Database

end HeapEngine
