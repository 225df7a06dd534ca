import HeapEngine.Database.Record
import HeapEngine.Proofs.Database.Cache
import HeapEngine.Proofs.Page.Records

/-!
Storing and deleting records: one page changes for the transaction that is its writer.

An operation that fails changes no page. It may leave locks behind, and an empty page at the end of
the heap.
-/

namespace HeapEngine

namespace Standing

/-- Whether a heap has at most one page more than before, an empty one at its end. -/
def Grows (before : Standing) (number : Nat) (after : Standing) : Prop :=
  after = before ∨ ∃ image, (Page.empty ⟨0, (before.shown number).images.length⟩
      (before.shown number).pageSize).image = .ok image
    ∧ after = before.withShown number
      { before.shown number with images := (before.shown number).images ++ [image] }

variable {standing grown : Standing} {number : Nat} {id : PageId} {page : Page}

/-- Growing leaves every image where it is. -/
theorem Grows.image? (grows : standing.Grows number grown) {image : Bytes}
    (found : standing.image? id = some image) : grown.image? id = some image := by
  rcases grows with rfl | ⟨new, _, rfl⟩
  · exact found
  unfold Standing.image? withShown at *
  by_cases here : id.table = number
  · simp only [here, ↓reduceIte] at found ⊢
    -- The new image stands after all the others.
    have within := (List.getElem?_eq_some_iff.1 found).1
    rw [List.getElem?_append_left within]
    exact found
  · simp only [here, ↓reduceIte]
    exact found

/-- Growing takes no lock and changes no page. -/
theorem Grows.locks_eq (grows : standing.Grows number grown) : grown.locks = standing.locks := by
  rcases grows with rfl | ⟨new, _, rfl⟩ <;> rfl

theorem Grows.settings_eq (grows : standing.Grows number grown) :
    grown.settings = standing.settings := by
  rcases grows with rfl | ⟨new, _, rfl⟩ <;> rfl

theorem Grows.unwritten_eq (grows : standing.Grows number grown) :
    grown.unwritten = standing.unwritten := by
  rcases grows with rfl | ⟨new, _, rfl⟩ <;> rfl

theorem Grows.catalog_eq (grows : standing.Grows number grown) :
    grown.catalog = standing.catalog := by
  rcases grows with rfl | ⟨new, _, rfl⟩ <;> rfl

/-- What is stored stays stored. -/
theorem Grows.stored? (grows : standing.Grows number grown)
    (stored : standing.stored? id = some page) : grown.stored? id = some page := by
  obtain ⟨image, found, decoded⟩ := Standing.stored?_eq_some.1 stored
  exact Standing.stored?_eq_some.2 ⟨image, grows.image? found, decoded⟩

/-- A page that may be in memory may be there after growing. -/
theorem Grows.fits (grows : standing.Grows number grown) (fits : standing.Fits id page) :
    grown.Fits id page := by
  refine ⟨fits.name, fits.sound, grows.settings_eq ▸ fits.size, ?_, ?_⟩
  · intro clean
    obtain ⟨read, stored, agrees⟩ := fits.clean clean
    exact ⟨read, grows.stored? stored, agrees⟩
  · intro transaction changed
    obtain ⟨writes, image, found⟩ := fits.changed transaction changed
    rw [grows.locks_eq]
    exact ⟨writes, image, grows.image? found⟩

end Standing

namespace Database

variable {kind : ImageKind} {db before after : Database} {asker : TransactionId} {id : PageId}
  {heap : Heap} {number : Nat}

/-- A database is consistent, one transaction gained locks, and one heap may have grown. -/
structure Extends (kind : ImageKind) (asker : TransactionId) (number : Nat)
    (before after : Database) : Prop where
  consistent : after.Consistent kind
  standing : ∃ grown, before.standing.Grows number grown
    ∧ after.standing = grown.withLocks after.locks
  advances : Locks.Advances asker before.locks after.locks

/-- Gaining locks lets no heap grow. -/
theorem Gains.extends (gains : Gains kind asker before after) (number : Nat) :
    Extends kind asker number before after :=
  ⟨gains.consistent, ⟨before.standing, .inl rfl, gains.standing⟩, gains.advances⟩

theorem Extends.trans_gains {middle : Database} (first : Extends kind asker number before middle)
    (second : Gains kind asker middle after) : Extends kind asker number before after := by
  obtain ⟨grown, grows, stands⟩ := first.standing
  refine ⟨second.consistent, ⟨grown, grows, ?_⟩, first.advances.trans second.advances⟩
  rw [second.standing, stands, Standing.withLocks_withLocks]

theorem Gains.trans_extends {middle : Database} (first : Gains kind asker before middle)
    (second : Extends kind asker number middle after) : Extends kind asker number before after := by
  obtain ⟨grown, grows, stands⟩ := second.standing
  refine ⟨second.consistent, ?_, first.advances.trans second.advances⟩
  rw [first.standing] at grows
  -- A heap grows alike whoever holds which lock.
  rcases grows with rfl | ⟨image, encoded, rfl⟩
  · exact ⟨before.standing, .inl rfl, stands⟩
  · exact ⟨_, .inr ⟨image, encoded, rfl⟩, stands⟩

/--
A page is in memory as one transaction has changed it, but it is not marked yet.

Before the change the database was consistent, and the transaction is the writer of the page.
-/
structure Edits (kind : ImageKind) (asker : TransactionId) (before : Database) (copy : CopyId)
    (page changed : Page) (after : Database) : Prop where
  consistent : before.Consistent kind
  writes : before.locks.isWriter copy.page asker = true
  current : before.pool.isCurrent copy = true
  resident : before.pool.page? copy.page = some page
  evolves : page.Evolves changed
  after : after = { before with pool := before.pool.editResident copy.page fun _ => changed }

/-- A database is consistent, and one page was changed for its writer. -/
structure Changes (kind : ImageKind) (asker : TransactionId) (before : Standing) (id : PageId)
    (page changed : Page) (after : Database) : Prop where
  consistent : after.Consistent kind
  held : ∃ held, before.content? id = some held ∧ held.Agrees page
    ∧ (∀ unwritten, before.unwritten id = some unwritten → unwritten = page)
  name : page.id = id
  sound : page.Sound
  evolves : page.Evolves changed
  writes : after.locks.isWriter id asker = true
  standing : after.standing
    = (before.withLocks after.locks).withUnwritten id (some (changed.markChanged asker))

/-- The current copy of a page holds what is resident. -/
theorem exists_page_of_current {copy : CopyId} (current : db.pool.isCurrent copy = true) :
    ∃ page, db.pool.page? copy.page = some page := by
  obtain ⟨frame, found, _⟩ := Pool.isCurrent_iff.1 current
  exact ⟨frame.page, Pool.page?_eq_some.2 ⟨frame, found, rfl⟩⟩

/-- Looking at the current copy gives the page in memory. -/
theorem ensures_lookAt {copy : CopyId} {page : Page} (current : db.pool.isCurrent copy = true)
    (resident : db.pool.page? copy.page = some page) :
    Op.Ensures (lookAt copy) db fun result after => result = .ok page ∧ after = db := by
  unfold Op.Ensures Op.Ends lookAt Database.copy?
  rw [Pool.copy?_of_current current, resident]
  exact ⟨rfl, rfl⟩

/-- Looking at a copy changes nothing. -/
theorem permits_lookAt (copy : CopyId) :
    Op.Permits (lookAt copy) db fun _ after => after = db := by
  unfold Op.Permits Op.Ends lookAt
  cases db.copy? copy with
  | none => exact trivial
  | some page => exact rfl

/-- A change of the current copy changes the page in memory, unless it fails. -/
theorem ensures_changeCopy {α : Type} {copy : CopyId} {page : Page}
    {change : Page → Outcome (Page × α)} {result : Except Failure (Page × α)}
    (current : db.pool.isCurrent copy = true) (resident : db.pool.page? copy.page = some page)
    (changes : change page = Outcome.ofResult result) :
    Op.Ensures (changeCopy copy change) db fun answer after =>
      match result with
      | .ok (changed, value) => answer = .ok value
        ∧ after = { db with pool := db.pool.editResident copy.page fun _ => changed }
      | .error failure => answer = .error failure ∧ after = db := by
  unfold Op.Ensures Op.Ends changeCopy Database.copy?
  rw [Pool.copy?_of_current current, resident]
  simp only [changes]
  cases result with
  | error failure => exact ⟨rfl, rfl⟩
  | ok pair =>
    refine ⟨rfl, ?_⟩
    rw [Pool.edit_of_current current]

/-- A page that is in memory as changed and marked makes the database consistent again. -/
theorem Edits.consistent_of {copy : CopyId} {page changed : Page} {pool : Pool}
    (edits : Edits kind asker before copy page changed after)
    (seen : ∀ other, pool.page? other
      = if other = copy.page then some (changed.markChanged asker) else before.pool.page? other) :
    Changes kind asker before.standing copy.page page changed { before with pool } := by
  have consistent := edits.consistent
  have fits := consistent.cached copy.page page edits.resident
  -- The page is the only one that is in memory with other changes than before.
  have stands : standing { before with pool }
      = before.standing.withUnwritten copy.page (some (changed.markChanged asker)) := by
    simp only [standing, Standing.withUnwritten, Standing.mk.injEq, true_and, and_true]
    funext other
    rw [seen]
    split
    · rfl
    · rfl
  -- The page has an image already, whether it was changed before or not.
  have image : ∃ image, before.standing.image? copy.page = some image := by
    cases mark : page.changedBy with
    | none =>
      obtain ⟨read, stored, _⟩ := fits.clean mark
      obtain ⟨-, -, -, -, image, found, _⟩ := consistent.orderly.stored stored
      exact ⟨image, found⟩
    | some transaction => exact (fits.changed transaction mark).2
  -- The mark names the writer of the page, so the page may be in memory as it is now.
  have marked : before.standing.Fits copy.page (changed.markChanged asker) := by
    have sound := (Page.Agrees.markChanged changed asker).sound edits.evolves.sound
    refine ⟨edits.evolves.id.trans fits.name, sound, edits.evolves.size.trans fits.size, ?_, ?_⟩
    · intro clean
      cases clean
    · intro transaction changed
      cases changed
      exact ⟨edits.writes, image⟩
  obtain ⟨held, content, agrees, same⟩ := consistent.content edits.resident
  refine ⟨⟨?_, ?_⟩, ⟨held, content, agrees, ?_⟩, fits.name, fits.sound, edits.evolves, edits.writes, stands⟩
  · rw [stands]
    exact consistent.orderly.withUnwritten _ _
  · intro other held resident
    rw [stands]
    rw [seen] at resident
    split at resident
    · rename_i here
      cases resident
      rw [here]
      exact marked.withUnwritten _ _
    · exact (consistent.cached other held resident).withUnwritten _ _
  · intro unwritten found
    obtain ⟨there, _⟩ := unwritten_eq_some.1 found
    exact Option.some.inj (there.symm.trans edits.resident)

/-- Its writer adopts the current copy of a page: the page is marked, and becomes the one used last. -/
theorem ensures_adopt_current {copy : CopyId} {page : Page}
    (writes : db.locks.isWriter copy.page asker = true) (current : db.pool.isCurrent copy = true)
    (resident : db.pool.page? copy.page = some page) :
    Op.Ensures (adopt asker copy) db fun result after => result = .ok () ∧ after = { db with
      pool := ((db.pool.editResident copy.page fun _ => page.markChanged asker).touch copy.page).2 } := by
  unfold adopt
  refine .get_bind ?_
  -- Who adopts a page has to be its writer, and so it is.
  rw [if_neg (by rw [writes]; decide)]
  have marks : Except.ok (page.markChanged asker, ())
      = Outcome.ofResult (.ok (page.markChanged asker, ())) := rfl
  refine (ensures_changeCopy current resident marks).bind (fun _ _ ended => by cases ended.1) ?_
  intro _ marked ended
  obtain ⟨_, rfl⟩ := ended
  have still : (db.pool.editResident copy.page fun _ => page.markChanged asker).isCurrent copy = true := by
    rw [Pool.isCurrent_editResident]
    exact current
  have there : (db.pool.editResident copy.page fun _ => page.markChanged asker).page? copy.page
      = some (page.markChanged asker) := by
    rw [Pool.page?_editResident, if_pos rfl, resident]
    rfl
  refine (ensures_lookAt still there).bind (fun _ _ ended => by cases ended.1) ?_
  intro _ looked ended
  obtain ⟨_, rfl⟩ := ended
  rw [if_pos current]
  exact .onPool_bind (.pure ⟨rfl, rfl⟩)

/-- The writer of a page that was changed in memory adopts it: the page is marked, and all else stays. -/
theorem ensures_adopt {copy : CopyId} {page changed : Page} (writes : db.locks.isWriter copy.page asker = true)
    (current : db.pool.isCurrent copy = true) (resident : db.pool.page? copy.page = some page) :
    Op.Ensures (adopt asker copy) { db with pool := db.pool.editResident copy.page fun _ => changed }
      fun result after => result = .ok () ∧ ∃ pool, after = { db with pool } ∧ ∀ other, pool.page? other
        = if other = copy.page then some (changed.markChanged asker) else db.pool.page? other := by
  -- The copy is still the current one, and holds the changed page.
  have still : (db.pool.editResident copy.page fun _ => changed).isCurrent copy = true := by
    rw [Pool.isCurrent_editResident]
    exact current
  have holds : (db.pool.editResident copy.page fun _ => changed).page? copy.page = some changed := by
    rw [Pool.page?_editResident, if_pos rfl, resident]
    rfl
  refine Op.Ends.mono (ensures_adopt_current writes still holds) fun result after ended => ?_
  obtain ⟨told, rfl⟩ := ended
  refine ⟨told, _, rfl, fun other => ?_⟩
  rw [(Pool.touch_eq _ copy.page).1, Pool.page?_editResident, holds, Pool.page?_editResident]
  split <;> rfl

/-- Marking the changed page adopts it. -/
theorem Edits.ensures_adopt {copy : CopyId} {page changed : Page}
    (edits : Edits kind asker before copy page changed after) :
    Op.Ensures (adopt asker copy) after fun result last =>
      result = .ok () ∧ Changes kind asker before.standing copy.page page changed last
        ∧ last.locks = before.locks := by
  rw [edits.after]
  refine (Database.ensures_adopt edits.writes edits.current edits.resident).mono ?_
  intro result last ended
  obtain ⟨told, pool, rfl, seen⟩ := ended
  exact ⟨told, edits.consistent_of seen, rfl⟩

/-- A record is on a page of a heap, which is in memory as changed but not marked yet. -/
def Places (kind : ImageKind) (asker : TransactionId) (number : Nat) (record : Record)
    (db : Database) (copy : CopyId) (place : RecordId) (after : Database) : Prop :=
  copy.page.table = number ∧ ∃ before page changed, Extends kind asker number db before
    ∧ Edits kind asker before copy page changed after
    ∧ page.insertRecord record = .ok (changed, place)

/-- Releasing a page again that was not held before leaves no more than gained locks. -/
theorem Gains.release {middle : Database} (gains : Gains kind asker before middle)
    (notHeld : before.locks.holds id asker = false)
    (released : after.Consistent kind ∧ after.standing = middle.standing.withLocks after.locks
      ∧ after.locks = (middle.locks.release id asker).2) : Gains kind asker before after := by
  obtain ⟨consistent, stands, locks⟩ := released
  refine ⟨consistent, ?_, ?_⟩
  · rw [stands, gains.standing, Standing.withLocks_withLocks]
  · rw [locks]
    exact gains.advances.release notHeld

/-- A record goes on a page that is locked for writing, or the page stays as it is. -/
theorem ensures_insertAt (consistent : db.Consistent kind) (asker : TransactionId) (id : PageId)
    {record : Record} (addressable : record.encode.length + Page.entrySize < Page.sizeLimit) :
    Op.Ensures (insertAt asker id record) db fun result after =>
      match result with
      | .ok (copy, place) => copy.page = id ∧ ∃ before page changed, Gains kind asker db before
        ∧ Edits kind asker before copy page changed after
        ∧ page.insertRecord record = .ok (changed, place)
      | .error _ => Gains kind asker db after := by
  unfold insertAt
  refine (ensures_acquire consistent asker id .writing).bind ?_ ?_
  · intro failure after ended
    exact ended.1
  intro copy before ended
  obtain ⟨gains, given⟩ := ended
  obtain ⟨here, current, _, writes⟩ := given copy rfl
  obtain ⟨page, resident⟩ := exists_page_of_current current
  have sound := (gains.consistent.cached _ page resident).sound
  rcases sound.insertRecord_ends addressable with ⟨changed, place, inserted, evolves, _⟩ | refused
  · -- The record has room, so the copy changes.
    have change : page.insertRecord record = Outcome.ofResult (.ok (changed, place)) := inserted
    refine (ensures_changeCopy current resident change).bind ?_ ?_
    · intro failure after ended
      cases ended.1
    intro told after ended
    obtain ⟨same, rfl⟩ := ended
    cases same
    refine .pure ⟨here, before, page, changed, gains, ?_, inserted⟩
    exact ⟨gains.consistent, here ▸ writes rfl, current, resident, evolves, rfl⟩
  · have change : page.insertRecord record = Outcome.ofResult (.error (.noRoom page.id)) := refused
    refine (ensures_changeCopy current resident change).bind ?_ ?_
    · intro failure after ended
      obtain ⟨_, rfl⟩ := ended
      exact gains
    · intro told after ended
      cases ended.1

/-- Looking for room places the record, or leaves only locks behind. -/
theorem ensures_insertFrom (consistent : db.Consistent kind) (heap : Heap) (asker : TransactionId)
    {record : Record} (addressable : record.encode.length + Page.entrySize < Page.sizeLimit)
    (left number : Nat) :
    Op.Ensures (insertFrom heap asker record record.encode.length left number) db
      fun result after =>
        match result with
        | .ok (some (copy, place)) => Places kind asker heap.table record db copy place after
        | _ => Gains kind asker db after := by
  -- One page is looked at in each step, and the locks gained before stay gained.
  induction left generalizing db number with
  | zero => exact .pure (consistent.stays.gains asker)
  | succ left ih =>
    unfold insertFrom
    refine .get_bind ?_
    refine (ensures_acquire consistent asker (heap.page number) .reading).bind ?_ ?_
    · intro failure after ended
      exact ended.1
    intro copy looked ended
    obtain ⟨gains, given⟩ := ended
    obtain ⟨here, current, _⟩ := given copy rfl
    obtain ⟨page, resident⟩ := exists_page_of_current current
    have fits := gains.consistent.cached _ page resident
    refine (ensures_lookAt current resident).bind ?_ ?_
    · intro failure after ended
      cases ended.1
    intro seen after ended
    obtain ⟨same, rfl⟩ := ended
    cases same
    refine .ofOutcome_bind (fits.sound.fits_eq addressable) (.ite ?_ ?_)
    · -- The page has room.
      intro room
      refine (ensures_insertAt gains.consistent asker (heap.page number) addressable).bind ?_ ?_
      · intro failure last more
        exact gains.trans more
      intro stored last more
      obtain ⟨copy, place⟩ := stored
      obtain ⟨there, before, page, changed, reached, edits⟩ := more
      exact .pure ⟨congrArg PageId.table there, before, page, changed,
        (gains.trans reached).extends _, edits⟩
    · -- The page is full, and goes on being locked only if it was before.
      intro full
      -- From any later database with gained locks the search goes on at the next page.
      have onwards : ∀ later, Gains kind asker db later →
          Op.Ensures (insertFrom heap asker record record.encode.length left (number + 1)) later
            fun result after =>
              match result with
              | .ok (some (copy, place)) => Places kind asker heap.table record db copy place after
              | _ => Gains kind asker db after := by
        intro later reached
        refine (ih reached.consistent (number + 1)).mono ?_
        intro result last more
        rcases result with failure | none | ⟨copy, place⟩
        · exact reached.trans more
        · exact reached.trans more
        · obtain ⟨there, before, page, changed, further, edits⟩ := more
          exact ⟨there, before, page, changed, reached.trans_extends further, edits⟩
      refine .ite ?_ ?_
      · intro unheld
        have notHeld : db.locks.holds (heap.page number) asker = false := by simpa using unheld
        refine (ensures_releaseEarly gains.consistent asker (heap.page number) ?_).bind ?_ ?_
        · -- Whoever changed a page holds it.
          intro unwritten found changed
          rw [gains.unwritten_eq] at found
          rw [Locks.holds, consistent.isWriter found changed, Bool.or_true] at notHeld
          cases notHeld
        · intro failure last released
          exact gains.release notHeld released
        · intro _ last released
          exact onwards last (gains.release notHeld released)
      · intro held
        exact onwards after gains

/-- Appending a page to a heap lets it grow. -/
theorem ensures_append (consistent : db.Consistent kind) (asker : TransactionId)
    (registered : db.catalog.heap? number = some heap) :
    Op.Ensures (onStorage (Storage.append heap.store)) db fun result after =>
      result = .ok (db.standing.shown number).images.length ∧ Extends kind asker number db after := by
  have size := pageSize_eq consistent registered
  obtain ⟨image, encoded, long, allowed⟩ := consistent.orderly.exists_image_empty
    ⟨0, (db.storage.view heap.store).images.length⟩
  rw [show db.standing.settings.pageSize = _ from size.symm] at encoded long
  refine .onStorage ((Storage.ensures_append (pageSize_pos consistent registered) encoded long).mono ?_)
  intro result storage ended
  obtain ⟨told, shows⟩ := ended
  rw [← shown_eq registered] at told shows encoded
  have stands := standing_withStorage consistent.orderly registered shows
  have grows : db.standing.Grows number (standing { db with storage }) :=
    .inr ⟨image, encoded, stands⟩
  refine ⟨told, ⟨?_, ?_⟩, ⟨_, grows, rfl⟩, .refl asker _⟩
  · rw [stands]
    refine consistent.orderly.withShown number (consistent.orderly.sizes number heap registered) ?_
    -- The images are those there were, and the one of the empty page.
    intro other member
    rcases List.mem_append.1 member with old | new
    · exact consistent.orderly.images number other old
    · cases List.mem_singleton.1 new
      exact ⟨long.trans size, allowed kind⟩
  · intro other page resident
    exact grows.fits (consistent.cached other page resident)

/-- A heap places a record that fits an empty page, or changes no page. -/
theorem ensures_insertInHeap (consistent : db.Consistent kind) (asker : TransactionId)
    (registered : db.catalog.heap? heap.table = some heap) (record : Record) :
    Op.Ensures (insertInHeap heap asker record) db fun result after =>
      match result with
      | .ok (copy, place) => Places kind asker heap.table record db copy place after
      | .error _ => Extends kind asker heap.table db after := by
  obtain ⟨least, most⟩ := pageSize_bounds consistent
  have size := pageSize_eq consistent registered
  rw [Storage.pageSize_view] at size
  unfold insertInHeap
  refine .get_bind ?_
  -- A page is larger than its header and one entry, so the largest cell is told.
  have largest : Page.largestCell (db.storage.pageSize heap.store)
      = .ok (db.settings.pageSize - Page.headerSize - Page.entrySize) := by
    rw [size, Page.largestCell, if_neg]
    simp only [Page.headerSize, Page.entrySize]
    omega
  refine .ofOutcome_bind largest (.ite (fun _ => .fail ?_) ?_)
  · exact (consistent.stays.gains asker).extends _
  intro small
  -- What fits a page is far from filling the memory.
  have addressable : record.encode.length + Page.entrySize < Page.sizeLimit := by
    simp only [Page.headerSize, Page.entrySize, Page.sizeLimit] at small ⊢
    omega
  refine .run_bind (heapPageCount_eq consistent registered) ?_
  refine (ensures_insertFrom consistent heap asker addressable _ 0).bind ?_ ?_
  · intro failure after gains
    exact gains.extends _
  intro found after ended
  rcases found with none | ⟨copy, place⟩
  · -- No page has room, so the record goes on a new one.
    have gains : Gains kind asker db after := ended
    have still : after.catalog.heap? heap.table = some heap := by rw [gains.catalog_eq]; exact registered
    refine (ensures_append gains.consistent asker still).bind ?_ ?_
    · intro failure last told
      cases told.1
    intro number last told
    have grown := gains.trans_extends told.2
    refine (ensures_insertAt grown.consistent asker (heap.page number) addressable).mono ?_
    intro result final stored
    rcases result with failure | ⟨copy, place⟩
    · exact grown.trans_gains stored
    · obtain ⟨there, before, page, changed, reached, edits⟩ := stored
      exact ⟨congrArg PageId.table there, before, page, changed, grown.trans_gains reached, edits⟩
  · exact .pure ended

/-- Who holds which lock does not say what a page holds. -/
theorem Changes.of_withLocks {standing : Standing} {locks : Locks} {page changed : Page}
    (changes : Changes kind asker (standing.withLocks locks) id page changed after) :
    Changes kind asker standing id page changed after :=
  ⟨changes.consistent, changes.held, changes.name, changes.sound, changes.evolves, changes.writes,
    changes.standing⟩

/-- A record got a place, on a page that changed for the transaction that stored it. -/
def Stores (kind : ImageKind) (asker : TransactionId) (record : Record) (db : Database)
    (place : RecordId) (after : Database) : Prop :=
  Locks.Advances asker db.locks after.locks ∧ ∃ grown page changed,
    db.standing.Grows place.page.table grown ∧ Changes kind asker grown place.page page changed after
      ∧ page.insertRecord record = .ok (changed, place)

/-- A record lost its place, on a page that changed for the transaction that deleted it. -/
def Removes (kind : ImageKind) (asker : TransactionId) (record : Record) (db : Database)
    (place : RecordId) (after : Database) : Prop :=
  Locks.Advances asker db.locks after.locks ∧ ∃ page changed,
    Changes kind asker db.standing place.page page changed after
      ∧ page.eraseRecord record = .ok changed

/-- A page tells the place of a record under its own name. -/
theorem place_of_insertRecord {page changed : Page} {record : Record} {place : RecordId}
    (inserted : page.insertRecord record = .ok (changed, place)) : place.page = changed.id := by
  -- The place is told together with the page that the cell went into.
  obtain ⟨_, _, told⟩ := Outcome.exists_of_bind inserted
  cases told
  rfl

/-- A record that is placed is stored once its page is adopted. -/
theorem Places.ensures_adoptAll {record : Record} {copy : CopyId} {place : RecordId}
    (places : Places kind asker number record db copy place before) :
    Op.Ensures (adoptAll asker [copy]) before fun result after =>
      result = .ok () ∧ place.page.table = number ∧ Stores kind asker record db place after := by
  obtain ⟨there, first, page, changed, reached, edits, inserted⟩ := places
  obtain ⟨grown, grows, stands⟩ := reached.standing
  unfold adoptAll
  refine edits.ensures_adopt.bind ?_ ?_
  · intro failure after ended
    cases ended.1
  intro _ after ended
  obtain ⟨_, changes, locks⟩ := ended
  rw [stands] at changes
  have here : place.page = copy.page :=
    (place_of_insertRecord inserted).trans (changes.evolves.id.trans changes.name)
  refine .pure ⟨rfl, (congrArg PageId.table here).trans there, ?_, grown, page, changed, ?_, ?_, inserted⟩
  · rw [locks]
    exact reached.advances
  · rw [here, there]
    exact grows
  · rw [here]
    exact changes.of_withLocks

/-- A record is stored under the place that is told, or no page changes. -/
theorem ensures_insert (consistent : db.Consistent kind) (asker : TransactionId) (number : Nat)
    (record : Record) :
    Op.Ensures (insert asker number record) db fun result after =>
      ∃ answer stored, result = .ok (answer, stored) ∧ match answer with
        | .ok () => ∃ place, stored = { record with place := some place }
          ∧ place.page.table = number ∧ Stores kind asker record db place after
        | .error _ => stored = record ∧ Extends kind asker number db after := by
  unfold insert
  refine .get_bind ?_
  cases registered : db.catalog.heap? number with
  | none =>
    -- Without a heap of that number nothing is asked for.
    have missing : db.catalog.find number = _ := consistent.orderly.find_eq_error registered
    rw [missing]
    exact .pure ⟨_, record, rfl, rfl, (consistent.stays.gains asker).extends _⟩
  | some heap =>
    have found : db.catalog.find number = _ := consistent.orderly.find_eq_ok registered
    have named := consistent.orderly.heap_table registered
    rw [found]
    rw [← named] at registered ⊢
    have placed := ensures_insertInHeap consistent asker registered record
    -- The heap gives the changed page, which is then adopted.
    have inTable : Op.Ensures (insertInTable heap.table (.heap heap) asker record) db
        fun result after => ∃ answer stored, result = .ok (answer, stored) ∧ match answer with
          | .ok changed => ∃ copy place, changed = [copy]
            ∧ stored = { record with place := some place }
            ∧ Places kind asker heap.table record db copy place after
          | .error _ => stored = record ∧ Extends kind asker heap.table db after := by
      refine .attempt_bind placed ?_
      intro answer after ended
      rcases answer with failure | ⟨copy, place⟩
      · exact .pure ⟨_, record, rfl, rfl, ended⟩
      · exact .pure ⟨_, _, rfl, copy, place, rfl, rfl, ended⟩
    refine inTable.bind ?_ ?_
    · intro failure after ended
      obtain ⟨answer, stored, told, _⟩ := ended
      cases told
    intro value after ended
    obtain ⟨answer, stored, told, ended⟩ := ended
    cases told
    cases answer with
    | error failure => exact .pure ⟨_, stored, rfl, ended⟩
    | ok changed =>
      obtain ⟨copy, place, rfl, kept, places⟩ := ended
      refine .attempt_bind places.ensures_adoptAll ?_
      intro answer last ended
      obtain ⟨rfl, there, stores⟩ := ended
      exact .pure ⟨_, stored, rfl, place, kept, there, stores⟩

/-- A record is erased on its page, which is locked for writing, or the page stays as it is. -/
theorem ensures_deleteFromHeap (consistent : db.Consistent kind) (heap : Heap) (asker : TransactionId)
    (record : Record) :
    Op.Ensures (deleteFromHeap heap asker record) db fun result after =>
      match result with
      | .ok copy => ∃ place before page changed, record.place = some place ∧ copy.page = place.page
        ∧ Gains kind asker db before ∧ Edits kind asker before copy page changed after
        ∧ page.eraseRecord record = .ok changed
      | .error _ => Gains kind asker db after := by
  have nothing := consistent.stays.gains asker
  unfold deleteFromHeap
  cases placed : record.place with
  | none => exact .fail nothing
  | some place =>
    refine .ite (fun _ => .fail nothing) fun _ => ?_
    refine (ensures_acquire consistent asker place.page .writing).bind ?_ ?_
    · intro failure after ended
      exact ended.1
    intro copy before ended
    obtain ⟨gains, given⟩ := ended
    obtain ⟨here, current, _, writes⟩ := given copy rfl
    obtain ⟨page, resident⟩ := exists_page_of_current current
    have sound := (gains.consistent.cached _ page resident).sound
    rcases sound.eraseRecord_ends record with ⟨changed, _, _, erased, evolves, _⟩ | ⟨failure, refused⟩
    · -- The record is there, so the copy changes.
      have change : (do return (← page.eraseRecord record, ()) : Outcome (Page × Unit))
          = Outcome.ofResult (.ok (changed, ())) := by
        rw [erased]
        rfl
      refine (ensures_changeCopy current resident change).bind ?_ ?_
      · intro failure after ended
        cases ended.1
      intro _ after ended
      obtain ⟨_, rfl⟩ := ended
      refine .pure ⟨place, before, page, changed, rfl, here, gains, ?_, erased⟩
      exact ⟨gains.consistent, here ▸ writes rfl, current, resident, evolves, rfl⟩
    · have change : (do return (← page.eraseRecord record, ()) : Outcome (Page × Unit))
          = Outcome.ofResult (.error failure) := by
        rw [refused]
        rfl
      refine (ensures_changeCopy current resident change).bind ?_ ?_
      · intro told after ended
        obtain ⟨_, rfl⟩ := ended
        exact gains
      · intro _ after ended
        cases ended.1

/-- A record is deleted from the page it is stored on, or no page changes. -/
theorem ensures_delete (consistent : db.Consistent kind) (asker : TransactionId) (record : Record) :
    Op.Ensures (delete asker record) db fun result after =>
      match result with
      | .ok () => ∃ place, record.place = some place ∧ Removes kind asker record db place after
      | .error _ => Gains kind asker db after := by
  have nothing := consistent.stays.gains asker
  unfold delete
  cases placed : record.place with
  | none => exact .fail nothing
  | some place =>
    refine ends_tableAt_bind consistent.orderly (fun _ => nothing) fun heap registered => ?_
    have erased : Op.Ensures (deleteFromTable place.page.table (.heap heap) asker record) db _ :=
      ensures_deleteFromHeap consistent heap asker record
    refine erased.bind (fun _ _ ended => ended) ?_
    intro copy edited ended
    obtain ⟨there, before, page, changed, same, here, gains, edits, erased⟩ := ended
    cases placed.symm.trans same
    unfold adoptAll
    refine edits.ensures_adopt.bind ?_ ?_
    · intro failure after ended
      cases ended.1
    intro _ after ended
    obtain ⟨_, changes, locks⟩ := ended
    rw [gains.standing, here] at changes
    refine .pure ⟨place, rfl, ?_, page, changed, changes.of_withLocks, erased⟩
    rw [locks]
    exact gains.advances

end Database

end HeapEngine
