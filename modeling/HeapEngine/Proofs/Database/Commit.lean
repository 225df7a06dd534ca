import HeapEngine.Proofs.Database.Cache
import HeapEngine.Proofs.Database.Loops

/-!
Writing changed pages, taking changes back, and ending transactions.

What is written is what the page held, so nobody can tell a written page from an unwritten one but by
what is stored.
-/

namespace HeapEngine

namespace StoreView

/-- Two views differ at most in the images themselves. -/
structure Alike (a b : StoreView) : Prop where
  pageSize : a.pageSize = b.pageSize
  count : a.images.length = b.images.length
  readsFail : a.readsFail = b.readsFail
  writesFail : a.writesFail = b.writesFail

theorem Alike.refl (view : StoreView) : view.Alike view := ⟨rfl, rfl, rfl, rfl⟩

theorem Alike.trans {a b c : StoreView} (first : a.Alike b) (second : b.Alike c) : a.Alike c :=
  ⟨first.pageSize.trans second.pageSize, first.count.trans second.count,
    first.readsFail.trans second.readsFail, first.writesFail.trans second.writesFail⟩

end StoreView

namespace Standing

/-- A page is written: its image is stored, and it is unwritten no more. -/
def written (standing : Standing) (id : PageId) (image : Bytes) : Standing :=
  (standing.withShown id.table { standing.shown id.table with
    images := (standing.shown id.table).images.set id.number image }).withUnwritten id none

/-- The changes of some pages are taken back. -/
def reverted (standing : Standing) (ids : List PageId) : Standing :=
  { standing with unwritten := fun id => if id ∈ ids then none else standing.unwritten id }

variable {standing : Standing} {id other : PageId} {image : Bytes}

/-- The image that was written is stored. -/
theorem image?_written_self {old : Bytes} (stored : standing.image? id = some old) :
    (standing.written id image).image? id = some image := by
  have within := (List.getElem?_eq_some_iff.1 stored).1
  simp only [written, image?, withUnwritten, withShown, ↓reduceIte]
  rw [List.getElem?_set_self within]

/-- All other images stay. -/
theorem image?_written_other (apart : other ≠ id) :
    (standing.written id image).image? other = standing.image? other := by
  simp only [written, image?, withUnwritten, withShown]
  by_cases here : other.table = id.table
  · -- In the same store the other page has another position.
    have number : id.number ≠ other.number := by
      intro same
      refine apart ?_
      cases other
      cases id
      simp only at here same
      rw [here, same]
    rw [if_pos here, here, List.getElem?_set_ne number]
  · rw [if_neg here]

/-- Writing changes no more of a view than an image. -/
theorem alike_written (number : Nat) :
    ((standing.written id image).shown number).Alike (standing.shown number) := by
  simp only [written, withUnwritten, withShown]
  by_cases here : number = id.table
  · subst here
    rw [if_pos rfl]
    exact ⟨rfl, List.length_set, rfl, rfl⟩
  · rw [if_neg here]
    exact .refl _

/-- A page that may be in memory may be there after another was written. -/
theorem Fits.written {page : Page} (fits : standing.Fits other page) (apart : other ≠ id) :
    (standing.written id image).Fits other page := by
  have same : (standing.written id image).image? other = standing.image? other :=
    image?_written_other apart
  refine ⟨fits.name, fits.sound, fits.size, ?_, ?_⟩
  · -- Its own image is what it was, so it agrees with what is stored as before.
    intro clean
    obtain ⟨read, stored, agrees⟩ := fits.clean clean
    refine ⟨read, ?_, agrees⟩
    rw [Standing.stored?, same]
    exact stored
  · intro transaction changed
    obtain ⟨writes, old, found⟩ := fits.changed transaction changed
    exact ⟨writes, old, same.trans found⟩

/-- Taking back the changes of one page and then of others. -/
theorem reverted_cons (standing : Standing) (id : PageId) (rest : List PageId) :
    (standing.withUnwritten id none).reverted rest = standing.reverted (id :: rest) := by
  simp only [reverted, withUnwritten, Standing.mk.injEq, true_and, and_true]
  funext other
  by_cases here : other = id
  · simp [here]
  · simp [here]

end Standing

namespace Database

variable {kind : ImageKind} {db before after : Database} {transaction : TransactionId} {id : PageId}

/-- Some pages were written if they had changes, and nothing else can be told from before. -/
structure Flushes (kind : ImageKind) (done : List PageId) (before after : Database) : Prop where
  consistent : after.Consistent kind
  settings : after.settings = before.settings
  catalog : after.catalog = before.catalog
  locks : after.locks = before.locks
  views : ∀ number, (after.standing.shown number).Alike (before.standing.shown number)
  cleared : ∀ id ∈ done, after.standing.unwritten id = none
  written : ∀ id ∈ done, ∀ page, before.standing.unwritten id = some page →
    ∃ image, page.image = .ok image ∧ after.standing.image? id = some image
  kept : ∀ id, (id ∉ done ∨ before.standing.unwritten id = none) →
    after.standing.image? id = before.standing.image? id
      ∧ after.standing.unwritten id = before.standing.unwritten id

namespace Flushes

/-- Nothing was written. -/
theorem of_stays (stays : Stays kind before after) {done : List PageId}
    (clean : ∀ id ∈ done, before.standing.unwritten id = none) : Flushes kind done before after := by
  have same := stays.standing
  refine ⟨stays.consistent, congrArg Standing.settings same, congrArg Standing.catalog same,
    congrArg Standing.locks same, ?_, ?_, ?_, ?_⟩
  · intro number
    rw [same]
    exact .refl _
  · intro id member
    rw [same]
    exact clean id member
  · intro id member page unwritten
    rw [clean id member] at unwritten
    cases unwritten
  · intro id _
    rw [same]
    exact ⟨rfl, rfl⟩

/-- Pages that were written in turn were written together. -/
theorem append {middle : Database} {first second : List PageId}
    (one : Flushes kind first before middle) (two : Flushes kind second middle after) :
    Flushes kind (first ++ second) before after := by
  refine ⟨two.consistent, two.settings.trans one.settings, two.catalog.trans one.catalog,
    two.locks.trans one.locks, fun number => (two.views number).trans (one.views number), ?_, ?_, ?_⟩
  · intro id member
    -- Either the second round wrote it, or it left alone what the first had written.
    by_cases later : id ∈ second
    · exact two.cleared id later
    · have earlier : id ∈ first := by
        rcases List.mem_append.1 member with here | there
        · exact here
        · exact absurd there later
      rw [(two.kept id (.inl later)).2]
      exact one.cleared id earlier
  · intro id member page unwritten
    by_cases earlier : id ∈ first
    · -- A page that was written first has no changes for the second time.
      obtain ⟨image, encoded, stored⟩ := one.written id earlier page unwritten
      refine ⟨image, encoded, ?_⟩
      rw [(two.kept id (.inr (one.cleared id earlier))).1]
      exact stored
    · have later : id ∈ second := by
        rcases List.mem_append.1 member with here | there
        · exact absurd here earlier
        · exact there
      refine two.written id later page ?_
      rw [(one.kept id (.inl earlier)).2]
      exact unwritten
  · intro id untouched
    have first_kept := one.kept id (untouched.imp_left fun outside member =>
      outside (List.mem_append_left _ member))
    have second_kept := two.kept id (untouched.imp (fun outside member =>
      outside (List.mem_append_right _ member)) fun clean => first_kept.2.trans clean)
    exact ⟨second_kept.1.trans first_kept.1, second_kept.2.trans first_kept.2⟩

end Flushes

section Written

variable {page : Page} {image : Bytes} {heap : Heap} {storage : Storage}

/-- A page with its image stored and its mark gone is as good as written. -/
theorem standing_writeBack {allows : Bytes → Prop} (orderly : db.standing.Orderly allows)
    (resident : db.pool.page? id = some page) (registered : db.catalog.heap? id.table = some heap)
    (shows : Storage.Shows db.storage heap.store { db.storage.view heap.store with
      images := (db.storage.view heap.store).images.set id.number image } storage) :
    standing { db with storage, pool := db.pool.editResident id Page.markWritten }
      = db.standing.written id image := by
  rw [← shown_eq registered] at shows
  have shown := congrArg Standing.shown (standing_withStorage orderly registered shows)
  simp only [standing, Standing.written, Standing.withUnwritten, Standing.withShown,
    Standing.mk.injEq, true_and, and_true] at shown ⊢
  refine ⟨shown, ?_⟩
  -- The page is in memory still, but without a mark.
  funext other
  rw [Pool.page?_editResident]
  split
  · rw [resident]
    rfl
  · rfl

variable (consistent : db.Consistent kind) (unwritten : db.standing.unwritten id = some page)
  (encoded : page.image = .ok image) (registered : db.catalog.heap? id.table = some heap)
  (shows : Storage.Shows db.storage heap.store { db.storage.view heap.store with
    images := (db.storage.view heap.store).images.set id.number image } storage)

include consistent unwritten encoded registered shows

theorem Consistent.consistent_writeBack :
    Consistent kind { db with storage, pool := db.pool.editResident id Page.markWritten } := by
  have resident := (unwritten_eq_some.1 unwritten).1
  have fits := consistent.fits_unwritten unwritten
  obtain ⟨old, stored⟩ := consistent.image?_unwritten unwritten
  have stands := standing_writeBack consistent.orderly resident registered shows
  refine ⟨?_, ?_⟩
  · rw [stands]
    refine (consistent.orderly.withShown id.table ?_ ?_).withUnwritten id none
    · exact (consistent.orderly.sizes _ heap registered)
    · intro other member
      rcases List.mem_or_eq_of_mem_set member with old | new
      · exact consistent.orderly.images _ other old
      · -- The new image is that of a sound page.
        cases new
        obtain ⟨same, again, long⟩ := fits.sound.exists_image
        cases encoded.symm.trans again
        exact ⟨long.trans fits.size, kind.allows_image fits.sound encoded⟩
  · intro other held found
    rw [stands]
    rw [Pool.page?_editResident] at found
    split at found
    · rename_i here
      rw [resident] at found
      cases found
      rw [here]
      -- What is stored now reads back as the page that was written.
      obtain ⟨read, decoded, agrees, _⟩ := fits.sound.ofImage_image encoded id
      have reads : (db.standing.written id image).stored? id = some read := by
        rw [Standing.stored?, Standing.image?_written_self stored, Option.bind_some, decoded]
        rfl
      have clean := Page.Agrees.markWritten page
      refine ⟨fits.name, clean.sound fits.sound, fits.size, ?_, ?_⟩
      · intro _
        exact ⟨read, reads, agrees.trans clean⟩
      · intro transaction changed
        cases changed
    · rename_i apart
      exact (consistent.cached other held found).written apart

/-- Writing a page back writes that page and no other. -/
theorem Consistent.writeBack :
    Flushes kind [id] db { db with storage, pool := db.pool.editResident id Page.markWritten } := by
  obtain ⟨old, stored⟩ := consistent.image?_unwritten unwritten
  have stands := standing_writeBack consistent.orderly (unwritten_eq_some.1 unwritten).1 registered shows
  have still := consistent.consistent_writeBack unwritten encoded registered shows
  refine ⟨still, rfl, rfl, rfl, ?_, ?_, ?_, ?_⟩
  · intro number
    rw [stands]
    exact Standing.alike_written number
  · intro other member
    cases List.mem_singleton.1 member
    rw [stands]
    simp [Standing.written, Standing.withUnwritten]
  · intro other member held found
    cases List.mem_singleton.1 member
    cases unwritten.symm.trans found
    rw [stands]
    exact ⟨image, encoded, Standing.image?_written_self stored⟩
  · intro other untouched
    -- The one page that is written was unwritten before.
    have apart : other ≠ id := by
      rintro rfl
      rcases untouched with outside | clean
      · exact outside (List.mem_singleton.2 rfl)
      · rw [unwritten] at clean
        cases clean
    rw [stands]
    refine ⟨Standing.image?_written_other apart, ?_⟩
    simp [Standing.written, Standing.withUnwritten, Standing.withShown, apart]

end Written

/-- The image of an unwritten page is stored over its old one, or nothing changes. -/
theorem ensures_writeStored (consistent : db.Consistent kind) {page : Page} {image : Bytes}
    {heap : Heap} (registered : db.catalog.heap? id.table = some heap)
    (unwritten : db.standing.unwritten id = some page) (encoded : page.image = .ok image) :
    Op.Ensures (writeStored id.table (.heap heap) page) db fun result after =>
      match result with
      | .ok _ => ∃ storage, after = { db with storage }
        ∧ Storage.Shows db.storage heap.store { db.storage.view heap.store with
          images := (db.storage.view heap.store).images.set id.number image } storage
      | .error _ => Stays kind db after ∧ (db.standing.shown id.table).writesFail = true := by
  have fits := consistent.fits_unwritten unwritten
  obtain ⟨old, stored⟩ := consistent.image?_unwritten unwritten
  have within := (List.getElem?_eq_some_iff.1 stored).1
  have size := fits.size.trans (pageSize_eq consistent registered).symm
  obtain ⟨same, again, long⟩ := fits.sound.exists_image
  cases encoded.symm.trans again
  rw [shown_eq registered, ← fits.name] at within
  refine .onStorage ((Storage.ensures_write (pageSize_pos consistent registered) size encoded long
    within).mono ?_)
  intro result storage ended
  rw [shown_eq registered]
  -- Only a store that was told to fail refuses a page of its size.
  by_cases fails : (db.storage.view heap.store).writesFail = true
  · rw [if_pos fails] at ended
    obtain ⟨rfl, shows⟩ := ended
    obtain ⟨stays, stands⟩ := consistent.withStorage registered shows
    exact ⟨⟨stays, stands⟩, fails⟩
  · rw [if_neg fails] at ended
    obtain ⟨rfl, shows⟩ := ended
    rw [fits.name] at shows
    exact ⟨storage, rfl, shows⟩

/-- A page is written if it has changes, or nothing changes because writing fails. -/
theorem ensures_writeBack (consistent : db.Consistent kind) (id : PageId) :
    Op.Ensures (writeBack id) db fun result after =>
      match result with
      | .ok _ => Flushes kind [id] db after
      | .error _ => Stays kind db after ∧ (db.standing.shown id.table).writesFail = true := by
  have nothing : db.standing.unwritten id = none → Flushes kind [id] db db := by
    intro clean
    refine .of_stays consistent.stays fun other member => ?_
    cases List.mem_singleton.1 member
    exact clean
  unfold writeBack
  refine .get_bind ?_
  cases resident : db.pool.page? id with
  | none =>
    refine .pure (nothing ?_)
    show Option.filter _ (db.pool.page? id) = none
    rw [resident]
    rfl
  | some page =>
    have held := unwritten_eq resident
    refine .ite (fun clean => .pure (nothing ?_)) fun dirty => ?_
    · rw [held, if_pos]
      simpa [Page.isDirty] using clean
    have unwritten : db.standing.unwritten id = some page := by
      rw [held, if_neg]
      simpa [Page.isDirty, Option.isSome_iff_ne_none] using dirty
    have fits := consistent.cached id page resident
    obtain ⟨image, encoded, _⟩ := fits.sound.exists_image
    obtain ⟨old, stored⟩ := consistent.image?_unwritten unwritten
    -- Only a registered heap has images, so the page's table is one.
    refine ends_tableAt_bind consistent.orderly (fun missing => ?_) fun heap registered => ?_
    · obtain ⟨heap, registered⟩ := exists_heap_of_image? stored
      rw [missing] at registered
      cases registered
    refine (ensures_writeStored consistent registered unwritten encoded).bind (fun _ _ ended => ended) ?_
    intro _ after ended
    obtain ⟨storage, rfl, shows⟩ := ended
    exact .onPool_bind (.pure (consistent.writeBack unwritten encoded registered shows))

/-- Writing pages in turn writes those up to the first that fails. -/
theorem ensures_writeBackEach (consistent : db.Consistent kind) (ids : List PageId) :
    Op.Ensures (writeBackEach ids) db fun result after => ∃ done, (∀ id ∈ done, id ∈ ids)
      ∧ Flushes kind done db after ∧ match result with
        | .ok () => done = ids
        | .error _ => ∃ number, (db.standing.shown number).writesFail = true := by
  -- What is written first stays written, so the rest begins in a consistent database.
  apply ends_writeBackEach fun rest middle => ∃ done, ids = done ++ rest ∧ Flushes kind done db middle
  · rintro id rest middle ⟨done, split, flushes⟩
    refine (ensures_writeBack flushes.consistent id).mono fun result after ended => ?_
    cases result with
    | ok wrote =>
      refine ⟨done ++ [id], ?_, flushes.append ended⟩
      rw [split, List.append_assoc, List.singleton_append]
    | error failure =>
      obtain ⟨stays, fails⟩ := ended
      refine ⟨done ++ [], ?_, flushes.append (.of_stays stays (by simp)), id.table, ?_⟩
      · rw [split, List.append_nil]
        exact fun other member => List.mem_append_left _ member
      · exact (flushes.views id.table).writesFail.symm.trans fails
  · rintro middle ⟨done, split, flushes⟩
    rw [List.append_nil] at split
    exact ⟨done, by simp [split], flushes, split.symm⟩
  · exact ⟨[], rfl, .of_stays consistent.stays (by simp)⟩

/-- Making a table durable changes nothing that can be told. -/
theorem ensures_syncAt (consistent : db.Consistent kind) (number : Nat) :
    Op.Ensures (syncAt number) db fun _ after => Stays kind db after := by
  refine ends_tableAt_bind consistent.orderly (fun _ => consistent.stays) fun heap registered => ?_
  refine .onStorage ((Storage.ensures_sync db.storage heap.store).mono fun result storage ended => ?_)
  obtain ⟨stays, stands⟩ := consistent.withStorage registered ended.2
  exact ⟨stays, stands⟩

/-- A checkpoint writes pages in memory and changes nothing else. -/
theorem ensures_checkpoint (consistent : db.Consistent kind) :
    Op.Ensures checkpoint db fun _ after => ∃ done, Flushes kind done db after := by
  refine preserves_checkpoint ?_ ?_ db ⟨[], .of_stays consistent.stays (by simp)⟩
  · rintro id middle ⟨done, flushes⟩
    refine (ensures_writeBack flushes.consistent id).mono fun result after ended => ?_
    cases result with
    | ok wrote => exact ⟨done ++ [id], flushes.append ended⟩
    | error failure => exact ⟨done ++ [], flushes.append (.of_stays ended.1 (by simp))⟩
  · rintro number middle ⟨done, flushes⟩
    refine (ensures_syncAt flushes.consistent number).mono fun _ after stays => ?_
    exact ⟨done ++ [], flushes.append (.of_stays stays (by simp))⟩

/-- A page in memory can be replaced by what is stored, and its changes are lost with it. -/
theorem Consistent.restore (consistent : db.Consistent kind) {page : Page}
    (stored : db.standing.stored? id = some page) :
    Consistent kind { db with pool := db.pool.editResident id fun _ => page }
      ∧ standing { db with pool := db.pool.editResident id fun _ => page }
        = db.standing.withUnwritten id none := by
  refine consistent.forget ?_ ?_
  · intro other apart
    rw [Pool.page?_editResident, if_neg apart]
  · intro held resident
    rw [Pool.page?_editResident, if_pos rfl] at resident
    -- The page is replaced if it was in memory, and it is not brought there else.
    obtain ⟨old, _, rfl⟩ := Option.map_eq_some_iff.1 resident
    exact stored

/-- Reading a page anew takes back its changes, whether the page can be read or not. -/
theorem ensures_reload (consistent : db.Consistent kind) (id : PageId) :
    Op.Ensures (reload id) db fun result after => (∃ answer, result = .ok answer)
      ∧ after.Consistent kind ∧ after.standing = db.standing.withUnwritten id none := by
  -- Reading past the pages in memory is attempted, since the page may be gone from the store.
  have reads : Op.Ensures (do readStored (← tableAt id.table) id) db fun result after =>
      Stays kind db after ∧ ∀ page, result = .ok page → db.standing.stored? id = some page := by
    refine ends_tableAt_bind consistent.orderly ?_ ?_
    · intro _
      exact ⟨consistent.stays, by simp⟩
    · intro heap registered
      exact (ensures_readStored consistent registered).mono fun _ _ ended => ⟨ended.1, ended.2.1⟩
  unfold reload
  refine .attempt_bind reads ?_
  intro answer after ended
  obtain ⟨stays, stored⟩ := ended
  rw [← stays.standing] at stored ⊢
  cases answer with
  | ok page =>
    obtain ⟨consistent, stands⟩ := stays.consistent.restore (stored page rfl)
    exact .onPool_bind (.pure ⟨⟨_, rfl⟩, consistent, stands⟩)
  | error failure =>
    -- A page that cannot be read is dropped, and so are its changes.
    obtain ⟨consistent, stands⟩ := stays.consistent.discard id
    exact .onPool_bind (.pure ⟨⟨_, rfl⟩, consistent, stands⟩)

/-- Reading pages anew takes back all their changes, whichever of them can be read. -/
theorem ensures_reloadEach (consistent : db.Consistent kind) (ids : List PageId) :
    Op.Ensures (reloadEach ids) db fun result after => (∃ answer, result = .ok answer)
      ∧ after.Consistent kind ∧ after.standing = db.standing.reverted ids := by
  -- Taking back what is left comes to the same at every turn, whether pages could be read or not.
  apply ends_reloadEach fun _ rest middle =>
    middle.Consistent kind ∧ middle.standing.reverted rest = db.standing.reverted ids
  · rintro told id rest middle ⟨consistent, same⟩
    refine (ensures_reload consistent id).mono ?_
    rintro _ after ⟨⟨answer, rfl⟩, still, stands⟩
    refine ⟨still, ?_⟩
    rw [stands, Standing.reverted_cons, same]
  · rintro told middle ⟨consistent, same⟩
    refine ⟨⟨told, rfl⟩, consistent, ?_⟩
    rw [← same]
    simp [Standing.reverted]
  · exact ⟨consistent, rfl⟩

/-- A transaction without unwritten pages can release all its locks. -/
theorem Consistent.releaseAll (consistent : db.Consistent kind)
    (settled : ∀ id page, db.standing.unwritten id = some page → page.changedBy ≠ some transaction) :
    Consistent kind { db with locks := (db.locks.releaseAll transaction).2 } := by
  have exclusive := consistent.orderly.locks
  refine consistent.withLocks (exclusive.releaseAll transaction) ?_
  intro id page writer resident changed writes
  rw [Locks.isWriter_releaseAll, writes, Bool.true_and, Bool.not_eq_true', decide_eq_false_iff_not]
  rintro rfl
  refine settled id page (unwritten_eq_some.2 ⟨resident, ?_⟩) changed
  rw [changed]
  simp

/-- The pages a transaction has to write are those that carry its mark. -/
theorem mem_changedBy : id ∈ db.pool.changedBy transaction
    ↔ ∃ page, db.standing.unwritten id = some page ∧ page.changedBy = some transaction := by
  rw [Pool.mem_changedBy]
  constructor
  · intro carries
    obtain ⟨page, resident, changed⟩ := carries
    exact ⟨page, unwritten_eq_some.2 ⟨resident, by simp [changed]⟩, changed⟩
  · intro carries
    obtain ⟨page, unwritten, changed⟩ := carries
    exact ⟨page, (unwritten_eq_some.1 unwritten).1, changed⟩

/-- A commit that succeeds writes all that the transaction changed and releases its locks. -/
theorem ensures_finish_commit (consistent : db.Consistent kind) (transaction : TransactionId) :
    Op.Ensures (finish transaction .commit) db fun result after =>
      match result with
      | .ok () => ∃ middle, Flushes kind (db.pool.changedBy transaction) db middle
        ∧ after.Consistent kind
        ∧ after.standing = middle.standing.withLocks (db.locks.releaseAll transaction).2
      | .error _ => ∃ done, (∀ id ∈ done, id ∈ db.pool.changedBy transaction)
        ∧ Flushes kind done db after ∧ ∃ number, (db.standing.shown number).writesFail = true := by
  refine Op.Ends.bind (.get_bind (ensures_writeBackEach consistent _)) ?_ ?_
  · intro failure after ended
    exact ended
  intro _ middle ended
  obtain ⟨done, _, flushes, rfl⟩ := ended
  have settled : ∀ id page, middle.standing.unwritten id = some page →
      page.changedBy ≠ some transaction := by
    intro id page unwritten changed
    -- What the transaction changed is written, and what is left others changed.
    by_cases member : id ∈ db.pool.changedBy transaction
    · rw [flushes.cleared id member] at unwritten
      cases unwritten
    · rw [(flushes.kept id (.inl member)).2] at unwritten
      exact member (mem_changedBy.2 ⟨page, unwritten, changed⟩)
  have released := flushes.consistent.releaseAll settled
  have stands : standing { middle with locks := (middle.locks.releaseAll transaction).2 }
      = middle.standing.withLocks (db.locks.releaseAll transaction).2 := by
    rw [← flushes.locks]
    rfl
  exact ⟨middle, flushes, released, stands⟩

/-- An abort takes back all that the transaction changed and releases its locks. -/
theorem ensures_finish_abort (consistent : db.Consistent kind) (transaction : TransactionId) :
    Op.Ensures (finish transaction .abort) db fun _ after => after.Consistent kind
      ∧ after.standing = (db.standing.reverted (db.pool.changedBy transaction)).withLocks
        (db.locks.releaseAll transaction).2 := by
  refine Op.Ends.bind (.get_bind (ensures_reloadEach consistent _)) ?_ ?_
  · intro failure after ended
    obtain ⟨⟨answer, told⟩, _⟩ := ended
    cases told
  intro failure middle ended
  obtain ⟨_, reverted, stands⟩ := ended
  -- What the transaction changed was taken back, so no page carries its mark.
  have settled : ∀ id page, middle.standing.unwritten id = some page →
      page.changedBy ≠ some transaction := by
    intro id page unwritten changed
    rw [stands] at unwritten
    simp only [Standing.reverted] at unwritten
    split at unwritten
    · cases unwritten
    · rename_i kept
      exact kept (mem_changedBy.2 ⟨page, unwritten, changed⟩)
  have released := reverted.releaseAll settled
  have locks : middle.locks = db.locks := congrArg Standing.locks stands
  have last : standing { middle with locks := (middle.locks.releaseAll transaction).2 }
      = (db.standing.reverted (db.pool.changedBy transaction)).withLocks
        (db.locks.releaseAll transaction).2 := by
    rw [← stands, ← locks]
    rfl
  cases failure with
  | none => exact ⟨released, last⟩
  | some failure => exact ⟨released, last⟩

end Database

end HeapEngine
