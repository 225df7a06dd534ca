import HeapEngine.Proofs.Database.Coherent
import HeapEngine.Proofs.Database.Commuting
import HeapEngine.Proofs.Database.Repeatable
import HeapEngine.Proofs.Database.Roaming.Heap

/-!
Storing or deleting a record that fails changes no data.

Clean pages may have come into memory and gone, an empty page may have been appended, and locks may have been
gained on one page. It does not matter where the operation failed, and what the stores hold and refuse.

A page that is dropped and read again is another copy of it. It holds what the page held if cells have room side
by side where they are stored.
-/

namespace HeapEngine

namespace Database

variable {db before searched grown after : Database} {asker : TransactionId} {number : Nat}

/--
No data was changed, but a heap may have grown.

The images, the tables and the pages with changes are as the given standing says, and nobody gave up a lock.
-/
structure Spared (asker : TransactionId) (before : Database) (standing : Standing) (after : Database) : Prop where
  standing : after.standing = standing.withLocks after.locks
  /-- A page that is in memory was there before, or it has no changes and is as it is stored. -/
  loaded : ∀ id page, after.pool.page? id = some page → before.pool.page? id = some page
    ∨ page.isDirty = false ∧ after.standing.stored? id = some page
  /-- A copy that stayed in memory holds what it held. -/
  stayed : ∀ copy, before.pool.isCurrent copy = true → after.pool.isCurrent copy = true →
    after.pool.page? copy.page = before.pool.page? copy.page
  /-- The transaction may have gained a lock on one page, or a stronger one, and all other locks are as they were. -/
  locks : ∃ id, Locks.GainsOn asker (· = id) before.locks after.locks

/--
Pages that are in memory again hold what they held, and carry the mark that they carried.

Any of them may be another copy than before. Its bytes between the directory and the cells may then differ, but
not those of its image.
-/
def Recalls (before after : Database) : Prop :=
  ∀ id old page, before.pool.page? id = some old → after.pool.page? id = some page →
    page.Agrees old ∧ page.cells = old.cells ∧ page.image = old.image ∧ page.changedBy = old.changedBy

/-- A page that is read from a store has no changes. -/
theorem Intact.clean_stored (intact : db.Intact) {id : PageId} {page : Page}
    (stored : db.standing.stored? id = some page) : page.isDirty = false := by
  rw [Page.isDirty, (intact.keeps_stored stored).2, Option.isSome_none]

/-- Copies of pages that stayed in memory hold what they held. -/
theorem Tidy.stayed (tidy : db.Tidy) (outlasts : after.pool.Outlasts db.pool) (copy : CopyId)
    (before : db.pool.isCurrent copy = true) (still : after.pool.isCurrent copy = true) :
    after.pool.page? copy.page = db.pool.page? copy.page :=
  (outlasts.held copy still (tidy.numbered.below copy before)).2

/-- Looking for pages changes no data. -/
theorem Roams.spared (roams : Roams db after) (tidy : db.Tidy) {id : PageId}
    (gains : Locks.GainsOn asker (· = id) db.locks after.locks) : Spared asker db db.standing after where
  standing := roams.standing
  loaded other page resident := by
    -- A page that came into memory was clean and is as it is stored, which locks do not change.
    refine (roams.shows other page resident).imp_right fun shown => ?_
    exact ⟨tidy.intact.clean_stored shown.2, (roams.stored?_eq other).trans shown.2⟩
  stayed := tidy.stayed roams.outlasts
  locks := ⟨id, gains⟩

/-- If clean pages mirror what is stored, those that are read again hold what they held. -/
theorem Spared.recalls {kind : ImageKind} {kept : Standing} (spared : Spared asker before kept after)
    (coherent : before.Coherent kind) (grows : before.standing.Grows number kept) : before.Recalls after := by
  intro id old page resident again
  have mirrors := coherent.cached id old resident
  have same : page.Agrees old ∧ page.changedBy = old.changedBy := by
    -- Either the page never left, or it was read again, and then it is clean and as it is stored.
    rcases spared.loaded id page again with there | ⟨clean, stored⟩
    · cases there.symm.trans resident
      exact ⟨.refl _, rfl⟩
    rw [Page.isDirty, Option.isSome_eq_false_iff, Option.isNone_iff_eq_none] at clean
    -- If the old page had been changed, it would be unwritten still, and the new one would be changed.
    have unmarked : old.changedBy = none := by
      refine Decidable.byContradiction fun marked => ?_
      have unwritten : after.standing.unwritten id = some old := by
        rw [spared.standing, Standing.unwritten_withLocks, grows.unwritten_eq]
        exact unwritten_eq_some.2 ⟨resident, marked⟩
      obtain ⟨there, changed⟩ := unwritten_eq_some.1 unwritten
      cases there.symm.trans again
      exact changed clean
    obtain ⟨image, found, _⟩ := Standing.stored?_eq_some.1 stored
    obtain ⟨heap, registered⟩ := exists_heap_of_image? found
    have known : before.standing.catalog.heap? id.table = some heap := by
      rw [← grows.catalog_eq, ← Standing.catalog_withLocks kept after.locks, ← spared.standing]
      exact registered
    obtain ⟨read, earlier, agrees⟩ := mirrors.clean unmarked heap known
    -- Both were read from one image.
    rw [spared.standing] at stored
    cases (grows.stored? earlier).symm.trans stored
    exact ⟨agrees, clean.trans unmarked.symm⟩
  obtain ⟨agrees, mark⟩ := same
  exact ⟨agrees, (agrees.symm.cells mirrors.sound).symm, agrees.image, mark⟩

/-- Doing nothing changes no data. -/
theorem Tidy.spared (tidy : db.Tidy) (asker : TransactionId) : Spared asker db db.standing db :=
  (Roams.refl db).spared tidy (.refl asker (· = (default : PageId)) db.locks)

/-- Looking for pages, appending an empty one and looking for pages again lets a heap grow, and changes nothing else. -/
theorem Appends.spared (appends : Appends searched number grown) (tidy : db.Tidy) (roams : Roams db searched)
    (again : Roams grown after) {id : PageId} (gains : Locks.GainsOn asker (· = id) db.locks after.locks) :
    ∃ standing, db.standing.Grows number standing ∧ Spared asker db standing after := by
  obtain ⟨image, encoded, stands⟩ := appends.standing
  rw [roams.shown_eq] at encoded stands
  -- Only the new image is another, and pages that are looked at on either side of it leave all as it is.
  have grows : searched.standing.Grows number grown.standing := by
    refine .inr ⟨image, ?_, ?_⟩
    · rw [roams.shown_eq]
      exact encoded
    · rw [stands, roams.shown_eq]
  refine ⟨_, .inr ⟨image, encoded, rfl⟩, ?_, fun other page resident => ?_,
    tidy.stayed (again.outlasts.trans (appends.pool ▸ roams.outlasts)), id, gains⟩
  · rw [again.standing, stands, roams.standing]
    rfl
  rw [again.stored?_eq]
  rcases again.shows other page resident with there | ⟨_, stored⟩
  · rw [appends.pool] at there
    -- It was read before the heap grew, or was there already.
    refine (roams.shows other page there).imp_right fun shown => ⟨tidy.intact.clean_stored shown.2, ?_⟩
    exact grows.stored? ((roams.stored?_eq other).trans shown.2)
  · exact .inr ⟨appends.intact.clean_stored stored, stored⟩

/-- A record that is not stored in a heap leaves all data as it was. -/
theorem Stored.spared {heap : Heap} {record : Record} {failure : Failure} (tidy : db.Tidy)
    (stored : Stored db heap asker record (.error failure) after) :
    ∃ standing, db.standing.Grows heap.table standing ∧ Spared asker db standing after := by
  -- The search fails before the heap grows, or on the new page after that.
  cases stored with
  | tooLarge _ => exact ⟨_, .inl rfl, tidy.spared asker⟩
  | denied _ searched =>
    cases searched with
    | denied _ _ _ roams gains => exact ⟨_, .inl rfl, roams.spared tidy gains⟩
  | appended _ exhausted appends attempted =>
    cases exhausted with
    | exhausted roams intact none _ =>
      have still : Locks.Exclusive _ := appends.intact.orderly.locks
      obtain ⟨again, gains⟩ := attempted.fruitless still
      rw [appends.locks] at gains
      exact appends.spared tidy roams again ((none.mono fun _ never => never.elim).trans gains)

/--
Storing or deleting a record that fails changes no data.

In every database that arises, whatever fails, no image that is stored changes, the pages with changes are
those that there were, with what they hold and whose mark they carry, and the record that was to be stored has
the place that it had. All else that can happen is that clean pages come into memory as they are stored and go,
that a heap in which a record was to be stored has one empty page more at its end, and that the transaction
holds one page that it did not hold or only read.

Copies that stay in memory hold what they held. So do pages that are dropped and read again, while whoever changes
a page marks it, over stores whose images hold cells that have room side by side, if they hold a page at all.
-/
theorem failure_spares_data (arises : Arises db) (asker : TransactionId) :
    (∀ number record failure stored after, insert asker number record db = .ok (.error failure, stored) after →
      stored = record ∧ (∃ standing, db.standing.Grows number standing ∧ Spared asker db standing after)
        ∧ (Tended ImageKind.readable.allows db → db.Recalls after))
    ∧ ∀ record failure after, delete asker record db = .error (.failed failure) after →
      Spared asker db db.standing after ∧ (Tended ImageKind.readable.allows db → db.Recalls after) := by
  have tidy := arises.tidy
  have exclusive := tidy.intact.orderly.locks
  -- Where all is coherent, what is told of copies is told of pages, however the heap grew.
  have recalls : ∀ {standing after number}, db.standing.Grows number standing → Spared asker db standing after →
      Tended ImageKind.readable.allows db → db.Recalls after := fun grows spared tended =>
    have coherent : db.Coherent .readable := tended.coherent
    spared.recalls coherent grows
  constructor
  · intro number record failure stored after ran
    have ended : Op.Permits _ _ _ := tidy.intact.ends_insert asker number record (.inl trivial)
    unfold Op.Permits Op.Ends at ended
    rw [ran] at ended
    obtain ⟨_, _, ⟨⟩, inserted⟩ := ended
    -- The table is unknown, or the heap tells why the record is not stored.
    have spares : ∃ standing, db.standing.Grows number standing ∧ Spared asker db standing after := by
      cases inserted with
      | unknown _ => exact ⟨_, .inl rfl, tidy.spared asker⟩
      | failed registered fails =>
        rw [← tidy.intact.orderly.heap_table registered]
        exact fails.spared tidy
    obtain ⟨standing, grows, spared⟩ := spares
    refine ⟨?_, ⟨standing, grows, spared⟩, recalls grows spared⟩
    cases inserted <;> rfl
  · intro record failure after ran
    have ended : Op.Permits _ _ _ := tidy.intact.ends_delete asker record (.inl trivial)
    unfold Op.Permits Op.Ends at ended
    rw [ran] at ended
    have spared : Spared asker db db.standing after := by
      cases ended with
      | unplaced _ => exact tidy.spared asker
      | unknown _ _ => exact tidy.spared asker
      | failed _ _ fails =>
        obtain ⟨roams, gains⟩ := fails.fruitless exclusive
        exact roams.spared tidy gains
    exact ⟨spared, @recalls _ _ 0 (.inl rfl) spared⟩

/-- A transaction has filled the only page, and memory has room for no other. -/
def filled : Database :=
  (overImages ⟨64, 1, .ofMilliseconds 1⟩ []).afterAll [.insert ⟨1⟩ 1 ⟨none, [.blob (Bytes.zeros 30)]⟩]

theorem arises_filled : Arises filled := by
  refine .afterAll (.fresh (overImages_fresh (by decide) (by simp))) ?_ (by decide +kernel)
  simp [Command.Proper]

theorem tended_filled : Tended ImageKind.readable.allows filled :=
  .afterAll (.fresh (overImages_fresh (by decide) (by simp))) (by simp) (by decide +kernel)

/-- The next record needs a page that is appended and then finds no room in memory, and nobody else may delete one. -/
theorem failure_spares_data_full : Arises filled ∧ Tended ImageKind.readable.allows filled
    ∧ (∃ after, insert ⟨1⟩ 1 ⟨none, [.blob (Bytes.zeros 40)]⟩ filled
        = .ok (.error (.poolFull 1), ⟨none, [.blob (Bytes.zeros 40)]⟩) after
      ∧ (∃ standing, filled.standing.Grows 1 standing ∧ Spared ⟨1⟩ filled standing after) ∧ filled.Recalls after)
    ∧ ∃ after, delete ⟨2⟩ ⟨some ⟨⟨1, 0⟩, 0⟩, []⟩ filled
        = .error (.failed (.lockRefused ⟨⟨2⟩, ⟨1, 0⟩, .exclusive, .ofMilliseconds 1⟩)) after
      ∧ Spared ⟨2⟩ filled filled.standing after ∧ filled.Recalls after := by
  have inserts := (insert ⟨1⟩ 1 ⟨none, [.blob (Bytes.zeros 40)]⟩).run_eq_ended filled
  rw [show (insert ⟨1⟩ 1 ⟨none, [.blob (Bytes.zeros 40)]⟩).outcome filled
    = .ok (.error (.poolFull 1), ⟨none, [.blob (Bytes.zeros 40)]⟩) from by decide +kernel] at inserts
  have deletes := (delete ⟨2⟩ ⟨some ⟨⟨1, 0⟩, 0⟩, []⟩).run_eq_ended filled
  rw [show (delete ⟨2⟩ ⟨some ⟨⟨1, 0⟩, 0⟩, []⟩).outcome filled
    = fail (.lockRefused ⟨⟨2⟩, ⟨1, 0⟩, .exclusive, .ofMilliseconds 1⟩) from by decide +kernel] at deletes
  obtain ⟨_, spares, recalls⟩ := (failure_spares_data arises_filled ⟨1⟩).1 _ _ _ _ _ inserts
  obtain ⟨spared, recalled⟩ := (failure_spares_data arises_filled ⟨2⟩).2 _ _ _ deletes
  exact ⟨arises_filled, tended_filled, ⟨_, inserts, spares, recalls tended_filled⟩,
    _, deletes, spared, recalled tended_filled⟩

/-- A transaction reads a page on which a record was stored. -/
def reading : Database :=
  (overImages ⟨64, 2, .ofMilliseconds 1⟩ []).afterAll
    [.insert ⟨1⟩ 1 ⟨none, [.integer 7]⟩, .finish ⟨1⟩ .commit, .acquire ⟨1⟩ ⟨1, 0⟩ .reading]

theorem arises_reading : Arises reading := by
  refine .afterAll (.fresh (overImages_fresh (by decide) (by simp))) ?_ (by decide +kernel)
  simp [Command.Proper]

/-- Before a record is found missing, the lock on its page is raised, and then the page is no longer only read. -/
theorem failed_delete_raises_lock : Arises reading
    ∧ reading.locks.isReader ⟨1, 0⟩ ⟨1⟩ = true ∧ reading.locks.isWriter ⟨1, 0⟩ ⟨1⟩ = false
    ∧ ∃ after, delete ⟨1⟩ ⟨some ⟨⟨1, 0⟩, 7⟩, []⟩ reading = .error (.failed (.noRecord ⟨1, 0⟩ 7)) after
      ∧ after.locks.isReader ⟨1, 0⟩ ⟨1⟩ = false ∧ after.locks.isWriter ⟨1, 0⟩ ⟨1⟩ = true := by
  have deletes := (delete ⟨1⟩ ⟨some ⟨⟨1, 0⟩, 7⟩, []⟩).run_eq_ended reading
  rw [show (delete ⟨1⟩ ⟨some ⟨⟨1, 0⟩, 7⟩, []⟩).outcome reading = fail (.noRecord ⟨1, 0⟩ 7) from by decide +kernel]
    at deletes
  exact ⟨arises_reading, by decide +kernel, by decide +kernel, _, deletes, by decide +kernel, by decide +kernel⟩

end Database

end HeapEngine
