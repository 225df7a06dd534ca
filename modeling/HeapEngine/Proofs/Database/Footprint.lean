import HeapEngine.Proofs.Commutes
import HeapEngine.Proofs.Database.Roaming.Heap
import HeapEngine.Proofs.Database.Unhindered

/-!
Which locks storing a record leaves behind, also if heaps share a store.

Every page that is looked at is locked, and released again if it has no room and was not held before. So what is
gained at last is one page: the one that the record went on, or the one on which it was refused.
-/

namespace HeapEngine

namespace Locks

variable {asker : TransactionId} {gained : PageId → Prop} {before after : Locks}

/-- The locks of one transaction grew by some pages, and no other lock changed. -/
structure Grows (asker : TransactionId) (gained : PageId → Prop) (before after : Locks) : Prop where
  pages : ∀ page, page ∈ after.pagesOf asker ↔ page ∈ before.pagesOf asker ∨ gained page
  writes : ∀ page, before.isWriter page asker = true → after.isWriter page asker = true
  /-- Elsewhere nothing becomes an exclusive lock, and who read a page reads it still. -/
  elsewhere : ∀ page, ¬ gained page → after.isWriter page asker = before.isWriter page asker
    ∧ (before.isReader page asker = true → after.isReader page asker = true)
  others : ∀ page holder, holder ≠ asker → after.isReader page holder = before.isReader page holder
    ∧ after.isWriter page holder = before.isWriter page holder

/-- Locks that were gained on some pages, all of which are held then, grew by these pages. -/
theorem GainsOn.grows (only : GainsOn asker gained before after)
    (held : ∀ page, gained page → after.holds page asker = true) : Grows asker gained before after where
  pages page := by
    rw [mem_pagesOf, mem_pagesOf]
    constructor
    · intro holds
      rcases Classical.em (gained page) with gains | none
      · exact .inr gains
      · exact .inl (only.holds_eq page none ▸ holds)
    · rintro (holds | gains)
      · exact only.holds page holds
      · exact held page gains
  writes := only.writes
  elsewhere page none := ⟨only.writes_eq page none, only.reads page none⟩
  others page holder apart := ⟨only.readers page holder apart, only.writers page holder apart⟩

/-- Where no lock is gained none grows. -/
theorem GainsOn.grows_none (only : GainsOn asker (fun _ => False) before after) :
    Grows asker (fun _ => False) before after := only.grows fun _ none => none.elim

end Locks

namespace Database

variable {db before middle grown after : Database} {id : PageId} {page : Page} {asker : TransactionId} {heap : Heap}
  {number : Nat} {record : Record} {copy : CopyId} {failure : Failure}

/-- A page that storing a record changed is named by the place that the record has. -/
theorem Alters.page_eq {changed : Page} {place : RecordId} (alters : Alters asker before copy page changed after)
    (housed : before.Housed) (inserted : page.insertRecord record = .ok (changed, place)) :
    place.page = copy.page := by
  have keeps := housed.kept copy.page page alters.resident
  have named : changed.id = page.id := (alters.revises.reworks keeps.encodable).id
  -- The place that is told is on the page as it was named before.
  obtain ⟨_, _, told⟩ := Outcome.exists_of_bind inserted
  cases told
  exact named.trans keeps.name

/-- Adopting a page that was changed changes no locks. -/
theorem Alters.locks_adopted {changed : Page} (alters : Alters asker before copy page changed after) :
    (after.adopted asker copy changed).locks = before.locks := by
  rw [alters.after]
  rfl

/-! A writer is alone on its page in every database that emerges. -/

theorem Steps.exclusive (steps : Steps before after) (exclusive : before.locks.Exclusive) : after.locks.Exclusive := by
  induction steps with
  | refl => exact exclusive
  | tail _ step ih => exact step.exclusive ih

/-- Whatever a command does, a writer stays alone on its page. -/
theorem Housed.exclusive_perform (housed : db.Housed) (exclusive : db.locks.Exclusive) (command : Command) :
    Op.Permits command.perform db fun _ after => after.locks.Exclusive := by
  -- A heap that is registered takes no lock, and all else is made of small steps.
  cases command with
  | addHeap name store =>
    have adds : Op.Permits (addHeap name store) db fun _ after => after.locks.Exclusive :=
      ends_addHeap (fun _ => exclusive) fun _ _ _ => exclusive
    exact adds.reply
  | _ => exact Op.Ends.mono (housed.moves_perform nofun) fun _ _ ended => ended.1.exclusive exclusive

theorem Emerges.exclusive (emerges : Emerges db) : db.locks.Exclusive := by
  induction emerges with
  | fresh fresh => exact fresh.intact.orderly.locks
  | serve emerges _ served ih => exact run_permits (emerges.housed.exclusive_perform ih _) served
  | lock _ granted ih => exact ih.grant? granted
  | unlock id holder _ ih => exact ih.release id holder
  | unlockAll holder _ ih => exact ih.releaseAll holder
  | handle _ _ _ ih => exact ih
  | store _ _ ih => exact ih

/-! Looking for room, and storing the record where there is some. -/

/-- Why a page that has room is not changed: it was not given. -/
theorem Attempted.denied_of_fits
    (attempted : Attempted db asker id (fun page => page.insertRecord record) (.error failure) after)
    (room : ∀ page, db.seen? id = some page → page.fits record.encode.length = .ok true) :
    after.locks = db.locks ∧ Denied db asker id .exclusive failure := by
  -- A page with room takes the record, so a failure is that it was not given.
  cases attempted with
  | refused obtains outcome =>
    exact absurd outcome (Page.insertRecord_ne_fail_of_fits (room _ obtains.seen) failure)
  | denied _ locks denied => exact ⟨locks, denied⟩

/-- What it comes to that room is looked for and a record is stored in it, told by the locks. -/
inductive Sought (db : Database) (asker : TransactionId) (record : Record) :
    Except Failure (Option (CopyId × RecordId)) → Database → Prop
  /-- There is no room, and no page is held for having been looked at. -/
  | nowhere {after : Database} (roams : Roams db after) (exclusive : after.locks.Exclusive)
      (gains : Locks.GainsOn asker (fun _ => False) db.locks after.locks) : Sought db asker record (.ok none) after
  | stored {copy : CopyId} {page changed : Page} {place : RecordId} {given after : Database} (housed : given.Housed)
      (gains : Locks.GainsOn asker (· = copy.page) db.locks given.locks)
      (inserted : page.insertRecord record = .ok (changed, place))
      (alters : Alters asker given copy page changed after) :
      Sought db asker record (.ok (some (copy, place))) after
  | denied {failure : Failure} {after : Database} (gains : Locks.GainsOn asker (fun _ => False) db.locks after.locks) :
      Sought db asker record (.error failure) after
  /-- A page with room may be read, but others read it too. -/
  | refused {id : PageId} {after : Database} (gains : Locks.GainsOn asker (· = id) db.locks after.locks)
      (holds : after.locks.holds id asker = true) :
      Sought db asker record (.error (.lockRefused ⟨asker, id, .exclusive, db.settings.patience⟩)) after

/-- What was passed on the way adds nothing to the locks that are left at last. -/
theorem Sought.after_passing {result : Except Failure (Option (CopyId × RecordId))}
    (sought : Sought middle asker record result after) (roams : Roams db middle)
    (passed : Locks.GainsOn asker (fun _ => False) db.locks middle.locks) : Sought db asker record result after := by
  -- The page that is gained is the only one, whatever was passed before.
  have only : ∀ {id locks}, Locks.GainsOn asker (· = id) middle.locks locks →
      Locks.GainsOn asker (· = id) db.locks locks := (passed.mono fun _ none => none.elim).trans
  cases sought with
  | nowhere further exclusive gains => exact .nowhere (roams.trans further) exclusive (passed.trans gains)
  | stored housed gains inserted alters => exact .stored housed (only gains) inserted alters
  | denied gains => exact .denied (passed.trans gains)
  | refused gains holds =>
    rw [roams.settings_eq]
    exact .refused (only gains) holds

/-- A page that is looked at and has room takes the record, or others read it. -/
theorem Obtains.sought_insertAt {looked : Database} (obtains : Obtains db asker id .shared copy page looked)
    (housed : db.Housed) (exclusive : db.locks.Exclusive) (room : page.fits record.encode.length = .ok true) :
    Op.Permits (do return some (← insertAt asker id record)) looked (Sought db asker record) := by
  have gains := obtains.gains exclusive
  have still := obtains.roams.housed housed
  have alone : looked.locks.Exclusive := exclusive.grant? obtains.granted
  refine (still.ends_insertAt asker id record (.inl trivial)).bind (fun failure after attempted => ?_)
    fun value after attempted => ?_
  · have seen : looked.seen? id = some page := seen?_of_resident obtains.resident
    obtain ⟨locks, denied⟩ := attempted.denied_of_fits fun other there => Option.some.inj (seen.symm.trans there) ▸ room
    cases denied with
    | unloadable unloadable => exact absurd (.inl ⟨page, obtains.resident⟩) unloadable.not_loadable
    | refused _ _ =>
      -- What is held for reading stays, for the page is in memory and has room.
      have holds := (Locks.holds_of_grant? obtains.granted).1
      rw [obtains.roams.settings_eq]
      exact .refused (locks ▸ gains) (locks ▸ holds)
  · cases attempted with
    | changed again inserted alters =>
      have both := gains.trans (again.gains alone)
      rw [← again.here] at both
      exact .pure (.stored (again.roams.housed still) both inserted alters)

/-- Looking at pages in turn leaves no lock but on the page where the search ends. -/
theorem Housed.sought_insertFrom (housed : db.Housed) (exclusive : db.locks.Exclusive) (heap : Heap)
    (asker : TransactionId) (record : Record) (left number : Nat) :
    Op.Permits (insertFrom heap asker record record.encode.length left number) db (Sought db asker record) := by
  -- The pages that are left vary with the database, since each page that is passed may be read into memory.
  induction left generalizing db number with
  | zero => exact .pure (.nowhere (.refl db) exclusive (.refl asker _ _))
  | succ left ih =>
    unfold insertFrom
    refine .get_bind ((housed.ensures_acquire_exact asker (heap.page number) .reading).ends.bind
      (fun failure after ended => ?_) fun copy given ended => ?_)
    · obtain ⟨_, locks, _⟩ := ended
      exact .denied (locks ▸ .refl asker _ _)
    obtain ⟨page, obtains⟩ := ended
    refine (ensures_lookAt obtains.current (obtains.here ▸ obtains.resident)).ends.bind
      (fun _ _ ended => by cases ended.1) fun _ looked ended => ?_
    obtain ⟨⟨⟩, rfl⟩ := ended
    have still := obtains.roams.housed housed
    have alone : looked.locks.Exclusive := exclusive.grant? obtains.granted
    rcases page.fits_ends record.encode.length with ⟨room, counted⟩ | ⟨cause, trapped⟩
    · refine .ofOutcome_bind counted (.ite (fun fitting => ?_) fun _ => ?_)
      · exact obtains.sought_insertAt housed exclusive (fitting ▸ counted)
      -- The page has no room, so what it was locked for is over.
      -- A page that was held before is not released, and one that was not is.
      cases held : db.locks.holds (heap.page number) asker with
      | false =>
        have holds := (Locks.holds_of_grant? obtains.granted).1
        refine (ensures_releaseEarly_held holds).ends.bind (fun _ _ ended => by cases ended.1) fun _ passed ended => ?_
        obtain ⟨_, rfl⟩ := ended
        refine (ih (still.withLocks _) (alone.release _ asker) (number + 1)).mono fun _ _ sought => ?_
        exact sought.after_passing (obtains.roams.trans (.withLocks looked _)) ((obtains.gains exclusive).release held)
      | true =>
        refine (ih still alone (number + 1)).mono fun _ _ sought => ?_
        exact sought.after_passing obtains.roams (.grantShared exclusive held obtains.granted)
    · rw [trapped]
      trivial

/-- The page that was appended has room for every record that is not too large. -/
theorem Housed.permits_append (housed : db.Housed) (registered : db.catalog.heap? heap.table = some heap) :
    Op.Permits (onStorage (Storage.append heap.store)) db fun result grown => ∃ last, result = .ok last
      ∧ grown.Housed ∧ grown.locks = db.locks ∧ grown.settings = db.settings
      ∧ ∀ page, grown.seen? (heap.page last) = some page → ∀ length, length ≤ db.settings.pageSize - 20 →
        page.fits length = .ok true := by
  refine (housed.ensures_append registered).ends.mono fun result grown ended => ?_
  obtain ⟨told, image, storage, rfl, encoded, long, _, shows⟩ := ended
  have step : Step db { db with storage } := .append registered long shows
  refine ⟨_, told, step.housed housed, rfl, rfl, fun page seen length short => ?_⟩
  have shown : db.standing.shown heap.table = db.storage.view heap.store := shown_eq registered
  have grown : (standing { db with storage }).shown heap.table = storage.view heap.store := shown_eq registered
  -- Beyond the last page nothing is in memory, so what is seen of the new page is its image.
  have absent : db.pool.page? (heap.page (db.storage.view heap.store).images.length) = none :=
    housed.absent_of_beyond registered (Nat.le_of_eq (by rw [Heap.page, shown]))
  rw [show seen? { db with storage } _ = _ from seen?_of_absent absent] at seen
  obtain ⟨found, there, decoded⟩ := Standing.stored?_eq_some.1 seen
  simp only [Standing.image?, Heap.page, grown, shows.here, List.getElem?_concat_length, Option.some.injEq] at there
  subst there
  obtain ⟨size, least, most⟩ := housed.pageSize registered
  rw [size] at encoded
  obtain ⟨sound, _⟩ := Page.empty_sound ⟨0, (db.storage.view heap.store).images.length⟩ (Nat.le_of_succ_le least) most
  obtain ⟨read, same, agrees, _⟩ := sound.ofImage_image encoded (heap.page (db.storage.view heap.store).images.length)
  cases decoded.symm.trans same
  rw [agrees.fits]
  exact Page.fits_empty _ (Nat.le_of_succ_le least) most short

/-- Storing a record in a heap leaves one page locked that was not: its own, or the one where it was refused. -/
theorem Housed.sought_insertInHeap (housed : db.Housed) (exclusive : db.locks.Exclusive)
    (registered : db.catalog.heap? heap.table = some heap) (asker : TransactionId) (record : Record) :
    Op.Permits (insertInHeap heap asker record) db fun result after =>
      Sought db asker record (result.map some) after := by
  obtain ⟨size, least, most⟩ := housed.pageSize registered
  rw [Storage.pageSize_view] at size
  have largest : Page.largestCell (db.storage.pageSize heap.store) = .ok (db.settings.pageSize - 20) := by
    rw [size, Page.largestCell, if_neg (by simp only [Page.headerSize, Page.entrySize]; omega), Nat.sub_sub]
    rfl
  unfold insertInHeap
  -- A record that is too large is refused before any page is looked at.
  refine .get_bind (.ofOutcome_bind largest (.ite (fun _ => .fail (.denied (.refl asker _ _))) fun small => ?_))
  have short := Nat.not_lt.1 small
  refine .run_bind (housed.heapPageCount_eq registered) ?_
  refine (housed.sought_insertFrom exclusive heap asker record _ 0).bind (fun _ _ sought => sought)
    fun found searched sought => ?_
  cases found with
  | some stored => exact .pure sought
  | none =>
    cases sought with
    | nowhere roams alone gains =>
      have known : searched.catalog.heap? heap.table = some heap := roams.catalog_eq ▸ registered
      refine ((roams.housed housed).permits_append known).bind (fun _ _ ended => ?_) fun number grown ended => ?_
      · obtain ⟨_, told, _⟩ := ended
        cases told
      obtain ⟨last, told, ready, locks, settings, room⟩ := ended
      cases told
      -- The new page has room, so the record goes on it unless the page is not given.
      refine (ready.ends_insertAt asker _ record (.inl trivial)).mono fun result after attempted => ?_
      cases result with
      | error failure =>
        obtain ⟨same, _⟩ := attempted.denied_of_fits fun page seen => room page seen _ (roams.settings_eq ▸ short)
        exact .denied (by rw [same, locks]; exact gains)
      | ok value =>
        cases attempted with
        | changed obtains inserted alters =>
          have one := obtains.gains (locks ▸ alone)
          rw [locks, ← obtains.here] at one
          exact .stored (obtains.roams.housed ready) ((gains.mono fun _ none => none.elim).trans one) inserted alters

/-- What storing a record does to locks. -/
inductive GainsOne (db : Database) (asker : TransactionId) (record : Record) :
    Except Failure Unit → Record → Database → Prop
  /-- The transaction writes the page that the record went on, and holds no other page that it did not hold before. -/
  | stored {page changed : Page} {place : RecordId} {after : Database}
      (inserted : page.insertRecord record = .ok (changed, place))
      (there : after.pool.page? place.page = some (changed.markChanged asker))
      (writes : after.locks.isWriter place.page asker = true)
      (grows : Locks.Grows asker (· = place.page) db.locks after.locks) :
      GainsOne db asker record (.ok ()) { record with place := some place } after
  /-- The one page that is held now, and may not have been before, is the one that it was refused to write. -/
  | refused {id : PageId} {after : Database} (grows : Locks.Grows asker (· = id) db.locks after.locks) :
      GainsOne db asker record (.error (.lockRefused ⟨asker, id, .exclusive, db.settings.patience⟩)) record after
  | failed {failure : Failure} {after : Database} (grows : Locks.Grows asker (fun _ => False) db.locks after.locks) :
      GainsOne db asker record (.error failure) record after

/-- A search that ends with a failure gained the page where it was refused, or none. -/
theorem Sought.gainsOne (sought : Sought db asker record (.error failure) after) :
    GainsOne db asker record (.error failure) record after := by
  cases sought with
  | denied gains => exact .failed gains.grows_none
  | refused gains holds => exact .refused (gains.grows fun _ same => same ▸ holds)

/-- Storing a record in a table tells what it did to locks. -/
theorem Housed.permits_insert (housed : db.Housed) (exclusive : db.locks.Exclusive) (asker : TransactionId)
    (number : Nat) (record : Record) :
    Op.Permits (insert asker number record) db fun result after => ∃ answer stored, result = .ok (answer, stored)
      ∧ GainsOne db asker record answer stored after := by
  unfold Database.insert
  refine .get_bind ?_
  rw [housed.find_eq number]
  cases registered : db.catalog.heap? number with
  | none => exact .pure ⟨_, _, rfl, .failed (Locks.GainsOn.refl asker _ _).grows_none⟩
  | some heap =>
    have known : db.catalog.heap? heap.table = some heap := housed.heap_table registered ▸ registered
    refine (ends_insertInTable (housed.sought_insertInHeap exclusive known asker record)).bind (fun _ _ ended => ?_)
      fun value placed ended => ?_
    · obtain ⟨_, told, _⟩ | ⟨_, _, told, _⟩ := ended <;> cases told
    -- Adopting the page takes no lock, since its writer changed it.
    obtain ⟨failure, ⟨⟩, sought⟩ | ⟨copy, place, ⟨⟩, sought⟩ := ended
    · exact .pure ⟨_, _, rfl, sought.gainsOne⟩
    cases sought with
    | stored ready gains inserted alters =>
      refine .attempt_bind alters.ensures_adoptAll.ends fun answer last ended => .pure ⟨_, _, rfl, ?_⟩
      obtain ⟨rfl, _, rfl⟩ := ended
      have here := alters.page_eq ready inserted
      have locks := alters.locks_adopted
      have writes := alters.writes
      have there := (alters.page?_adopted copy.page).trans (if_pos rfl)
      rw [← here] at gains writes there
      refine .stored inserted there (locks ▸ writes) ((locks ▸ gains).grows fun page same => ?_)
      rw [same, locks, Locks.holds, writes, Bool.or_true]

/--
Storing a record takes one lock at most, and gives none back that was held before.

In every database that emerges, over heaps that may share stores: a transaction that stores a record holds then what
it held before and the page of the record, which it writes. If it fails, it holds what it held before, and besides
one page at most, which is the one that it was refused to write. What it wrote it writes still, what it read
elsewhere it reads still, no page that was looked at in vain is held for that, and no lock of another transaction is
another one.
-/
theorem insert_gains_one {answer : Except Failure Unit} {stored : Record} (emerges : Emerges db)
    (ran : insert asker number record db = .ok (answer, stored) after) :
    GainsOne db asker record answer stored after := by
  have ended : Op.Permits _ _ _ := emerges.housed.permits_insert emerges.exclusive asker number record
  obtain ⟨_, _, ⟨⟩, gains⟩ := ended.of_ok ran
  exact gains

/-- Of two tables over one store, one transaction stored a record on the second page, and another reads the first. -/
def secondWritten : Database :=
  beforeTables.afterAll [.addHeap "left" (.memory 0), .addHeap "right" (.memory 0),
    .insert ⟨1⟩ 1 ⟨none, [.blob (Bytes.zeros 30)]⟩, .finish ⟨1⟩ .commit,
    .insert ⟨2⟩ 1 ⟨none, [.blob (Bytes.zeros 30)]⟩, .acquire ⟨4⟩ ⟨1, 0⟩ .reading]

theorem emerges_secondWritten : Emerges secondWritten := .afterAll (.fresh fresh_beforeTables) (by decide +kernel)

/--
The writer of the second page stores one more record on a third page, passing both others.

Who would store a smaller record on the first page holds it at last, but only for reading.
-/
theorem insert_gains_one_third : Emerges secondWritten
    ∧ (∃ after, insert ⟨2⟩ 1 ⟨none, [.blob (Bytes.zeros 30)]⟩ secondWritten
        = .ok (.ok (), ⟨some ⟨⟨1, 2⟩, 0⟩, [.blob (Bytes.zeros 30)]⟩) after
      ∧ GainsOne secondWritten ⟨2⟩ ⟨none, [.blob (Bytes.zeros 30)]⟩ (.ok ())
        ⟨some ⟨⟨1, 2⟩, 0⟩, [.blob (Bytes.zeros 30)]⟩ after)
    ∧ ∃ after, insert ⟨3⟩ 1 ⟨none, [.integer 7]⟩ secondWritten
        = .ok (.error (.lockRefused ⟨⟨3⟩, ⟨1, 0⟩, .exclusive, .ofMilliseconds 1⟩), ⟨none, [.integer 7]⟩) after
      ∧ GainsOne secondWritten ⟨3⟩ ⟨none, [.integer 7]⟩
        (.error (.lockRefused ⟨⟨3⟩, ⟨1, 0⟩, .exclusive, .ofMilliseconds 1⟩)) ⟨none, [.integer 7]⟩ after := by
  have stores := (insert ⟨2⟩ 1 ⟨none, [.blob (Bytes.zeros 30)]⟩).run_eq_ended secondWritten
  rw [show (insert ⟨2⟩ 1 ⟨none, [.blob (Bytes.zeros 30)]⟩).outcome secondWritten
    = .ok (.ok (), ⟨some ⟨⟨1, 2⟩, 0⟩, [.blob (Bytes.zeros 30)]⟩) from by decide +kernel] at stores
  have refused := (insert ⟨3⟩ 1 ⟨none, [.integer 7]⟩).run_eq_ended secondWritten
  rw [show (insert ⟨3⟩ 1 ⟨none, [.integer 7]⟩).outcome secondWritten
    = .ok (.error (.lockRefused ⟨⟨3⟩, ⟨1, 0⟩, .exclusive, .ofMilliseconds 1⟩), ⟨none, [.integer 7]⟩) from
      by decide +kernel] at refused
  exact ⟨emerges_secondWritten, ⟨_, stores, insert_gains_one emerges_secondWritten stores⟩,
    ⟨_, refused, insert_gains_one emerges_secondWritten refused⟩⟩

end Database

end HeapEngine
