import HeapEngine.Proofs.Database.Marks.Run

/-!
Nobody sees what another transaction has changed and not committed.

A changed page in memory is locked by the one who changed it, and any other page in memory is as it
is stored. This holds whatever was asked for and whatever failed.
-/

namespace HeapEngine

/-- The images that pages are written as. -/
def ImageKind.written : ImageKind where
  allows image := ∃ page : Page, page.Sound ∧ page.image = .ok image
  allows_image sound encoded := ⟨_, sound, encoded⟩
  sound := by
    intro id image page allowed read
    obtain ⟨source, sound, encoded⟩ := allowed
    -- What is read from the image agrees with the page it is an image of.
    obtain ⟨result, outcome, agrees, _⟩ := sound.ofImage_image encoded id
    rw [outcome] at read
    cases read
    exact agrees.symm.sound sound

namespace Database

variable {db : Database} {id : PageId} {page : Page}

/-- A page is changed by one transaction, or has the image that is stored of it. -/
def ShowsTo (db : Database) (transaction : TransactionId) (id : PageId) (page : Page) : Prop :=
  page.id = id ∧ (page.changedBy = some transaction
    ∨ page.changedBy = none ∧ ∃ image, db.standing.image? id = some image ∧ page.image = .ok image)

/-- A clean page in memory has the image that is stored of it. -/
theorem Consistent.image_of_clean (consistent : db.Consistent .written)
    (resident : db.pool.page? id = some page) (clean : page.changedBy = none) :
    ∃ image, db.standing.image? id = some image ∧ page.image = .ok image := by
  obtain ⟨read, stored, agrees⟩ := (consistent.cached id page resident).clean clean
  obtain ⟨image, found, outcome⟩ := (consistent.orderly.stored stored).2.2.2.2
  -- The stored image is that of a page, with which both pages agree.
  obtain ⟨source, sound, encoded⟩ :=
    (consistent.orderly.images id.table image (List.mem_of_getElem? found)).2
  obtain ⟨result, again, same, _⟩ := sound.ofImage_image encoded id
  rw [again, Except.ok.injEq] at outcome
  subst outcome
  refine ⟨image, found, ?_⟩
  calc page.image
      = result.image := agrees.image.symm
    _ = source.image := same.image
    _ = .ok image := encoded

/-- A page that a transaction was given shows it nothing that another one has changed. -/
theorem Given.showsTo (consistent : db.Consistent .written) {transaction : TransactionId}
    {access : Access} {copy : CopyId} (given : db.Given transaction id access copy) :
    ∃ page, db.copy? copy = some page ∧ db.ShowsTo transaction id page := by
  obtain ⟨page, resident⟩ := exists_page_of_current given.current
  have shown : db.copy? copy = some page := by
    rw [Database.copy?, Pool.copy?_of_current given.current]
    exact resident
  rw [given.page] at resident
  have fits := consistent.cached id page resident
  refine ⟨page, shown, fits.name, ?_⟩
  cases mark : page.changedBy with
  | none => exact .inr ⟨rfl, consistent.image_of_clean resident mark⟩
  | some writer =>
    -- The writer of a page is alone on it, so it is the one that holds the page.
    have writes := (fits.changed writer mark).1
    have same : transaction = writer := consistent.orderly.locks.eq_writer writes given.holds
    rw [same]
    exact .inl rfl

/--
There are no dirty reads.

In every database that is reached, a changed page in memory is locked for writing by the one who
changed it, whatever the stores hold. If they hold images that pages were written as, a clean page
has the stored image. So a page that is given to a transaction was changed by that transaction or
has the stored image, also when others went on in between the first look for the page and the grant
of its lock.
-/
theorem no_dirty_reads (reachable : Reachable (fun _ => True) db) :
    (∀ id page transaction, db.pool.page? id = some page → page.changedBy = some transaction →
      db.locks.isWriter id transaction = true)
    ∧ (Reachable ImageKind.written.allows db →
      (∀ id page, db.pool.page? id = some page → page.changedBy = none →
        ∃ image, db.standing.image? id = some image ∧ page.image = .ok image)
      ∧ (∀ transaction id access copy after,
        db.serve (.acquire transaction id access) = .ok (.ok (.copy copy), after) →
          ∃ page, after.copy? copy = some page ∧ after.ShowsTo transaction id page)
      ∧ ∀ request waiting commands later copy after,
        db.serve (.start request) = .ok (.ok (.answer none), waiting) →
        Runs ImageKind.written.allows waiting commands later →
        later.serve (.ask request) = .ok (.ok (.answer (some (.ok copy))), after) →
          ∃ page, after.copy? copy = some page ∧ after.ShowsTo request.transaction request.page page) := by
  refine ⟨?_, fun written => ?_⟩
  · intro id page transaction resident changed
    refine reachable.marked.writes id transaction ?_
    rw [mark?, resident]
    exact changed
  have consistent : db.Consistent .written := written.consistent
  refine ⟨?_, ?_, ?_⟩
  · intro id page resident clean
    exact consistent.image_of_clean resident clean
  · intro transaction id access copy after served
    obtain ⟨gains, given⟩ := consistent.effect served trivial
    exact (given copy rfl).showsTo gains.consistent
  · intro request waiting commands later copy after started runs asked
    -- Whatever happens while the request waits, the database stays consistent.
    have begun : waiting.Consistent .written := (consistent.effect started trivial).1.consistent
    have still := runs.consistent begun
    obtain ⟨gains, given⟩ := still.effect asked trivial
    exact (given copy rfl).showsTo gains.consistent

/-- One transaction has stored a record on the first page of a heap. -/
def oneRecord : Database :=
  (overImages ⟨64, 1, .ofMilliseconds 1⟩ []).afterAll [.insert ⟨1⟩ 1 ⟨none, [.integer 7]⟩]

/-- A request that waits for the one who changed a page finds the page as it is stored then. -/
theorem no_dirty_reads_waiting : Reachable ImageKind.written.allows oneRecord
    ∧ oneRecord.locks.isWriter ⟨1, 0⟩ ⟨1⟩ = true
    ∧ ∃ page, (oneRecord.afterAll [.start ⟨⟨2⟩, ⟨1, 0⟩, .reading⟩, .finish ⟨1⟩ .commit,
        .ask ⟨⟨2⟩, ⟨1, 0⟩, .reading⟩]).copy? ⟨⟨1, 0⟩, 0⟩ = some page
      ∧ (oneRecord.afterAll [.start ⟨⟨2⟩, ⟨1, 0⟩, .reading⟩, .finish ⟨1⟩ .commit,
        .ask ⟨⟨2⟩, ⟨1, 0⟩, .reading⟩]).ShowsTo ⟨2⟩ ⟨1, 0⟩ page := by
  have reachable : ∀ allows, Reachable allows oneRecord := by
    intro allows
    refine ⟨_, _, overImages_fresh (by decide) (by simp), runs_afterAll ?_ (by decide +kernel)⟩
    simp [Command.Allowed]
  obtain ⟨marked, clean⟩ := no_dirty_reads (reachable _)
  obtain ⟨_, _, waited⟩ := clean (reachable _)
  refine ⟨reachable _, ?_, ?_⟩
  · have resident : (oneRecord.pool.page? ⟨1, 0⟩).any fun page => page.changedBy = some ⟨1⟩ := by
      decide +kernel
    obtain ⟨page, found, changed⟩ := (Option.any_eq_true _ _).1 resident
    exact marked ⟨1, 0⟩ page ⟨1⟩ found (of_decide_eq_true changed)
  · exact waited ⟨⟨2⟩, ⟨1, 0⟩, .reading⟩ _ [.finish ⟨1⟩ .commit] _ ⟨⟨1, 0⟩, 0⟩ _
      (run_eq (by decide +kernel)) (runs_afterAll (by simp [Command.Allowed]) (by decide +kernel))
      (run_eq (by decide +kernel))

end Database

end HeapEngine
