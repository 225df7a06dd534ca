import HeapEngine.Proofs.Database.Browsing
import HeapEngine.Proofs.Database.Footprint
import HeapEngine.Proofs.Locks.Compatible

/-!
What becomes of a record that is deleted by who alone holds its page, and of all other records.
-/

namespace HeapEngine

namespace Database

variable {kind : ImageKind} {db before given after : Database} {id : PageId} {page changed : Page} {heap : Heap}
  {asker : TransactionId} {record : Record} {place : RecordId} {copy : CopyId} {failure : Failure} {cell : Bytes}

/-- Why a page that can be read and locked is not to be had. -/
inductive Starved (db : Database) (id : PageId) : Failure → Prop
  /-- Its store fails. -/
  | unread (absent : db.pool.page? id = none) (fails : (db.standing.shown id.table).readsFail = true) :
      Starved db id (.storage .injectedRead)
  /-- No page in memory can be dropped for it. -/
  | full (absent : db.pool.page? id = none) (full : db.Full) : Starved db id (.poolFull db.settings.capacity)

/-- A page that is seen can only be kept out of memory by its store or by other pages. -/
theorem Unloadable.starved (unloadable : db.Unloadable id failure) (housed : db.Housed)
    (registered : db.catalog.heap? id.table = some heap) (seen : db.seen? id = some page) :
    db.Starved id failure := by
  cases unloadable with
  | full absent _ full => exact .full absent full
  | unread absent fails =>
    have known := housed.find_eq id.table
    rw [registered] at known
    have stored : db.standing.stored? id = some page := (seen?_of_absent absent).symm.trans seen
    -- What is seen of a page that is not in memory is stored, and read unless the store fails.
    cases broken : (db.standing.shown id.table).readsFail with
    | false => cases (Standing.lookup_of_stored? known broken stored).symm.trans fails
    | true =>
      have told : db.standing.lookup id = fail (.storage .injectedRead) := by
        rw [Standing.lookup, show db.standing.catalog.find id.table = _ from known]
        simp only [StoreView.read, broken, ↓reduceIte]
      cases told.symm.trans fails
      exact .unread absent broken

/-- The records of a page that nobody else holds are told, unless it is not to be had or cannot be read. -/
theorem Withheld.starved_or_unread (withheld : db.Withheld asker id failure) (housed : db.Housed)
    (registered : db.catalog.heap? id.table = some heap)
    (alone : ∀ holder, db.locks.holds id holder = true → holder = asker) :
    db.Starved id failure ∨ ∀ records, ¬ db.Lists id records := by
  cases withheld with
  | illegible seen fails =>
    refine .inr fun records lists => ?_
    obtain ⟨_, there, told⟩ := lists
    cases seen.symm.trans there
    cases fails.symm.trans told
  | denied denied =>
    cases denied with
    | unloadable unloadable =>
      cases seen : db.seen? id with
      | some page => exact .inl (unloadable.starved housed registered seen)
      | none =>
        refine .inr fun records lists => ?_
        obtain ⟨_, there, _⟩ := lists
        cases seen.symm.trans there
    | refused _ refused =>
      -- Who writes a page holds it, so nobody else does and the lock is granted.
      have compatible : db.locks.Compatible id asker .shared := by
        intro holder apart
        refine Bool.eq_false_iff.2 fun blocks => apart (alone holder ?_)
        have writes : db.locks.isWriter id holder = true := blocks
        simp [Locks.holds, writes]
      obtain ⟨granted, given⟩ := Locks.exists_grantShared?_iff.2 compatible
      cases refused.symm.trans given

/-- The record in a place was erased, and nothing else has changed that is seen of registered tables. -/
structure Erases (before : Database) (asker : TransactionId) (place : RecordId) (after : Database) : Prop where
  catalog : after.catalog = before.catalog
  shown : after.standing.shown = before.standing.shown
  advances : Locks.Advances asker before.locks after.locks
  lists : ∀ id heap records, id ≠ place.page → before.catalog.heap? id.table = some heap →
    (after.Lists id records ↔ before.Lists id records)
  cells : ∀ other heap, before.catalog.heap? other.page.table = some heap →
    after.cell? other = if other = place then none else before.cell? other

/-- A record that is erased from a page takes no other one with it. -/
theorem Coherent.erases (coherent : before.Coherent kind)
    (obtains : Obtains before asker place.page .exclusive copy page given) (placed : record.place = some place)
    (erased : page.eraseRecord record = .ok changed) (alters : Alters asker given copy page changed after) :
    before.Erases asker place (after.adopted asker copy changed) where
  catalog := alters.shown_adopted.1.trans obtains.roams.catalog_eq
  shown := alters.shown_adopted.2.trans obtains.roams.shown_eq
  advances := by
    rw [alters.locks_adopted]
    exact (obtains.gains coherent.intact.orderly.locks).toAdvances
  lists id heap records apart registered := by
    rw [← coherent.lists_iff obtains.roams registered, Lists, Lists, alters.seen?_adopted (obtains.here ▸ apart)]
  cells other heap registered := by
    rcases (coherent.sound_of_seen? obtains.seen).eraseRecord_ends record with
      ⟨_, _, _, same, _, told, _, _, cells⟩ | ⟨_, refused⟩
    · -- Of the page the cells are those from before without the one, and other pages are as they were.
      cases erased.symm.trans same
      cases placed.symm.trans told
      rw [coherent.cell?_adopted obtains.roams alters registered, obtains.here]
      by_cases here : other.page = place.page
      · have spot : other = place ↔ other.slot = place.slot := by
          cases other
          cases place
          simp_all
        rw [if_pos here, cells, SlotList.join_remove, cell?, here, obtains.seen, Option.bind_some]
        simp only [spot]
      · rw [if_neg here, if_neg fun same => here (congrArg RecordId.page same)]
    · cases erased.symm.trans refused

/-- Who alone holds the page of a record can delete it, unless the page is not to be had. -/
theorem Coherent.ensures_delete (coherent : db.Coherent kind)
    (registered : db.catalog.heap? place.page.table = some heap) (placed : record.place = some place)
    (there : db.cell? place = some cell) (held : db.locks.holds place.page asker = true)
    (alone : ∀ holder, db.locks.holds place.page holder = true → holder = asker) :
    Op.Ensures (delete asker record) db fun result after => match result with
      | .ok () => after.Coherent kind ∧ db.Erases asker place after
      | .error failure => db.Starved place.page failure := by
  obtain ⟨page, seen, used⟩ := Option.bind_eq_some_iff.1 there
  have deletes : Op.Ensures (delete asker record) db _ :=
    coherent.intact.ends_delete asker record (.inr fun _ _ seen => coherent.sound_of_seen? seen)
  refine (deletes.and_permits (coherent.alike.delete asker record)).mono fun result after ended => ?_
  obtain ⟨deleted, alike⟩ := ended
  cases deleted with
  | unplaced nowhere => cases placed.symm.trans nowhere
  | unknown same missing =>
    cases placed.symm.trans same
    cases registered.symm.trans missing
  | erased same _ obtains erased alters =>
    cases placed.symm.trans same
    exact ⟨alike.coherent, coherent.erases obtains placed erased alters⟩
  | failed same _ fails =>
    cases placed.symm.trans same
    cases fails with
    | refused obtains outcome =>
      -- The slot holds a cell, so the page does not refuse.
      cases seen.symm.trans obtains.seen
      have name := coherent.intact.id_of_mayShow (mayShow_of_seen? seen)
      obtain ⟨_, erased, _⟩ := (coherent.sound_of_seen? seen).eraseRecord_used placed name.symm
        (Option.join_eq_some_iff.1 used)
      cases erased.symm.trans (Outcome.eq_fail_of_reply outcome)
    | denied _ _ denied =>
      cases denied with
      | unloadable unloadable =>
        exact unloadable.starved coherent.intact.housed registered seen
      | refused _ refused =>
        -- The asker raises the lock that it has, and nobody else has one.
        obtain ⟨_, given⟩ := Locks.exists_grantExclusive?_of_holds held alone
        cases refused.symm.trans given

/-- A deletion traps where erasing the record on its page does. -/
theorem delete_trapped {cause : Trap} (placed : record.place = some place)
    (registered : db.catalog.heap? place.page.table = some heap) (there : place.page.table = heap.table)
    (acquired : acquire asker place.page .writing db = .ok copy given) (seen : given.copy? copy = some page)
    (traps : page.eraseRecord record = trap cause) : delete asker record db = .error (.trapped cause) given := by
  have edited : deleteFromHeap heap asker record db = .error (.trapped cause) given := by
    unfold deleteFromHeap
    simp only [placed, there, ne_eq, not_true_eq_false, ↓reduceIte, bind, EStateM.bind, acquired, changeCopy, seen,
      traps, trap, Except.bind]
  have finds : tableAt place.page.table db = .ok (.heap heap) db := by
    show ofResult (db.catalog.find place.page.table) db = _
    unfold Catalog.heap? at registered
    unfold Catalog.find
    split at registered
    · rename_i known
      cases registered
      rw [known]
      rfl
    · cases registered
  unfold delete
  rw [placed]
  refine (Op.bind_of_ok finds _).trans ?_
  show (deleteFromHeap heap asker record >>= _) db = _
  simp only [bind, EStateM.bind, edited]

end Database

end HeapEngine
