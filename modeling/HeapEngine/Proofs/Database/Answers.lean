import HeapEngine.Proofs.Database.Durable
import HeapEngine.Proofs.Database.Isolation
import HeapEngine.Proofs.Database.Roaming.Heap

/-!
How storing and deleting a record is answered where all pages are sound and all stores can be read.

Nothing traps then, and only few failures are left. A record is too large exactly if no empty page has room for
it, and it is missing exactly if its page can be given to the transaction and its slot holds nothing.
-/

namespace HeapEngine

/-- A record is found missing on a sound page exactly if its slot holds nothing. -/
theorem Page.Sound.eraseRecord_eq_fail_iff {page : Page} (sound : page.Sound) {record : Record} {place : RecordId}
    (placed : record.place = some place) (here : place.page = page.id) (failure : Failure) :
    page.eraseRecord record = fail failure
      ↔ failure = .noRecord place.page place.slot ∧ page.cells[place.slot]?.join = none := by
  cases held : page.cells[place.slot]?.join with
  | none =>
    have gone := sound.eraseRecord_gone placed here fun cell used => by
      rw [used] at held
      cases held
    rw [gone, here]
    simp [fail, eq_comm]
  | some cell =>
    obtain ⟨after, erased, _⟩ := sound.eraseRecord_used placed here (Option.join_eq_some_iff.1 held)
    rw [erased]
    simp [fail]

namespace Database

variable {db before searched grown after : Database} {asker : TransactionId} {id : PageId} {page : Page}
  {heap : Heap} {number : Nat} {record : Record} {mode : LockMode} {failure : Failure}

/-- Whether all pages are sound and all stores can be read. -/
structure Healthy (db : Database) : Prop extends WellFormed db where
  reads : ∀ number, (db.standing.shown number).readsFail = false

/-- A page that is found can only be kept out of memory by others with changes. -/
theorem Unloadable.of_found (unloadable : db.Unloadable id failure) (found : db.standing.lookup id = .ok page) :
    failure = .poolFull db.settings.capacity := by
  cases unloadable with
  | unread _ fails => cases found.symm.trans fails
  | full _ _ _ => rfl

/-- A page that is found is only denied for want of a lock or of room. -/
theorem Denied.of_found (denied : Denied db asker id mode failure) (found : db.standing.lookup id = .ok page) :
    (∃ refusal, failure = .lockRefused refusal) ∨ failure = .poolFull db.settings.capacity := by
  cases denied with
  | unloadable unloadable => exact .inr (unloadable.of_found found)
  | refused _ _ => exact .inl ⟨_, rfl⟩

namespace Healthy

variable (healthy : db.Healthy)

include healthy

theorem roams (roams : Roams db after) : after.Healthy where
  toWellFormed := roams.wellFormed healthy.toWellFormed
  reads := roams.shown_eq ▸ healthy.reads

/-- A page of a registered heap is found if its number is one of those in use. -/
theorem lookup_of_lt (housed : db.Housed) (registered : db.catalog.heap? id.table = some heap)
    (within : id.number < (db.standing.shown id.table).images.length) : ∃ page, db.standing.lookup id = .ok page := by
  have found : db.standing.image? id = some _ := List.getElem?_eq_getElem within
  obtain ⟨page, decoded, _⟩ := healthy.stored id _ found
  have known := housed.find_eq id.table
  rw [registered] at known
  have stored : db.standing.stored? id = some page := Standing.stored?_eq_some.2 ⟨_, found, decoded⟩
  exact ⟨page, Standing.lookup_of_stored? known (healthy.reads id.table) stored⟩

/-- A page of a registered heap is reported missing if its number is not in use. -/
theorem lookup_of_le (housed : db.Housed) (registered : db.catalog.heap? id.table = some heap)
    (beyond : (db.standing.shown id.table).images.length ≤ id.number) :
    db.standing.lookup id = fail (.noPage id (db.standing.shown id.table).images.length) := by
  have known : db.standing.catalog.find id.table = .ok (.heap heap) := by
    have known := housed.find_eq id.table
    rwa [registered] at known
  rw [Standing.lookup, known]
  simp only [StoreView.read, healthy.reads, Bool.false_eq_true, ↓reduceIte, List.getElem?_eq_none beyond]

/-- A page of a registered heap can be in memory if it is one of the heap's, and is there or finds room. -/
theorem loadable_iff (intact : db.Intact) (registered : db.catalog.heap? id.table = some heap) :
    db.Loadable id ↔ id.number < (db.standing.shown id.table).images.length
      ∧ (db.pool.isResident id = true ∨ ¬ db.Full) := by
  rw [Pool.isResident_eq]
  -- A page in memory is one of the heap's, as no page is kept beyond its end.
  constructor
  · rintro (⟨page, resident⟩ | ⟨⟨page, found⟩, room⟩)
    · refine ⟨Nat.lt_of_not_le fun beyond => ?_, .inl (by rw [resident]; rfl)⟩
      rw [intact.absent_of_beyond registered beyond] at resident
      cases resident
    · refine ⟨Nat.lt_of_not_le fun beyond => ?_, .inr room⟩
      rw [healthy.lookup_of_le intact.housed registered beyond] at found
      cases found
  · rintro ⟨within, there | room⟩
    · exact .inl (Option.isSome_iff_exists.1 there)
    · exact .inr ⟨healthy.lookup_of_lt intact.housed registered within, room⟩

/-- A page of a registered heap is denied if it is not there, or for want of a lock or of room. -/
theorem denied (housed : db.Housed) (registered : db.catalog.heap? id.table = some heap)
    (denied : Denied db asker id mode failure) :
    failure = .noPage id (db.standing.shown id.table).images.length
      ∨ (∃ refusal, failure = .lockRefused refusal) ∨ failure = .poolFull db.settings.capacity := by
  -- Whether the page is one of the heap's decides which failures are left.
  rcases Nat.lt_or_ge id.number (db.standing.shown id.table).images.length with within | beyond
  · obtain ⟨page, found⟩ := healthy.lookup_of_lt housed registered within
    exact .inr (denied.of_found found)
  · have missing := healthy.lookup_of_le housed registered beyond
    cases denied with
    | unloadable unloadable =>
      cases unloadable with
      | unread _ fails => exact .inl (by cases missing.symm.trans fails; rfl)
      | full _ found _ => cases missing.symm.trans found
    | refused _ _ => exact .inr (.inl ⟨_, rfl⟩)

/-- A record is found missing on a page exactly if nothing is seen in its slot. -/
theorem eraseRecord_eq_fail_iff (intact : db.Intact) {place : RecordId} (placed : record.place = some place)
    (seen : db.seen? place.page = some page) (failure : Failure) :
    page.eraseRecord record = fail failure
      ↔ failure = .noRecord place.page place.slot ∧ page.cells[place.slot]?.join = none := by
  have shown := mayShow_of_seen? seen
  exact (healthy.sound shown).eraseRecord_eq_fail_iff placed (intact.id_of_mayShow shown).symm failure

end Healthy

/-- An empty page that was appended has room for a record that is not too large. -/
theorem Appends.refuses (appends : Appends before heap.table grown) (intact : before.Intact) (healthy : before.Healthy)
    (registered : before.catalog.heap? heap.table = some heap)
    (short : record.encode.length ≤ before.settings.pageSize - 20)
    (attempted : Attempted grown asker (heap.page (before.standing.shown heap.table).images.length)
      (fun page => page.insertRecord record) (.error failure) after) :
    (∃ refusal, failure = .lockRefused refusal) ∨ failure = .poolFull before.settings.capacity := by
  -- The new page is not in memory, so what is seen of it is the empty page that is stored.
  obtain ⟨absent, page, stored, _, agrees⟩ := appends.exists_stored intact registered
  obtain ⟨_, _, stands⟩ := appends.standing
  cases attempted with
  | refused obtains outcome =>
    cases ((seen?_of_absent absent).trans stored).symm.trans obtains.seen
    obtain ⟨_, least, most⟩ := Settings.check_eq_ok intact.orderly.settings
    have fits : page.fits record.encode.length = .ok true := by
      rw [agrees.fits]
      exact Page.fits_empty _ (Nat.le_of_succ_le least) most short
    exact absurd outcome (Page.insertRecord_ne_fail_of_fits fits failure)
  | denied _ _ denied =>
    -- The new page is stored, and its store can be read as before.
    have known : grown.standing.catalog.find heap.table = .ok (.heap heap) := by
      rw [stands]
      exact intact.orderly.find_eq_ok registered
    have reads : (grown.standing.shown heap.table).readsFail = false := by
      rw [stands, Standing.withShown]
      simp [healthy.reads]
    have settings : grown.settings = before.settings := congrArg Standing.settings stands
    rw [← settings]
    exact denied.of_found (Standing.lookup_of_stored? known reads stored)

/-- A record that is not too large is only refused for want of a lock or of room in memory. -/
theorem Stored.error_eq (stored : Stored db heap asker record (.error failure) after) (intact : db.Intact)
    (healthy : db.Healthy) (registered : db.catalog.heap? heap.table = some heap) :
    (failure = .recordTooLarge record.encode.length (db.settings.pageSize - 20)
        ∧ db.settings.pageSize - 20 < record.encode.length)
      ∨ record.encode.length ≤ db.settings.pageSize - 20
        ∧ ((∃ refusal, failure = .lockRefused refusal) ∨ failure = .poolFull db.settings.capacity) := by
  -- A page that had no room is passed over and never the reason, so only what stopped the search is.
  cases stored with
  | tooLarge long => exact .inl ⟨rfl, long⟩
  | denied short searched =>
    refine .inr ⟨short, ?_⟩
    cases searched with
    | @denied n _ _ looked _ within reached denied _ _ =>
      -- The page that was denied is one of the heap's, and it is found.
      have registered : looked.catalog.heap? (heap.page n).table = some heap := reached.catalog_eq ▸ registered
      have within : n < (looked.standing.shown heap.table).images.length := by
        rw [reached.shown_eq]
        omega
      obtain ⟨page, found⟩ := (healthy.roams reached).lookup_of_lt (reached.housed intact.housed) registered within
      rw [← reached.settings_eq]
      exact denied.of_found found
  | appended short exhausted appends attempted =>
    refine .inr ⟨short, ?_⟩
    cases exhausted with
    -- Looking at all pages left the database as it was, as far as it counts, and the heap grew after that.
    | exhausted roams still _ _ =>
      rw [← roams.settings_eq] at short ⊢
      rw [← roams.shown_eq] at attempted
      exact appends.refuses still (healthy.roams roams) (roams.catalog_eq ▸ registered) short attempted

/-- A record is found missing if its page can be given to the transaction and its slot holds nothing. -/
theorem Healthy.deleted_eq_noRecord_iff (healthy : db.Healthy) (intact : db.Intact)
    {result : Except Failure Unit} {place : RecordId} (deleted : Deleted db asker record result after)
    (placed : record.place = some place) :
    result = .error (.noRecord place.page place.slot)
      ↔ (∃ heap, db.catalog.heap? place.page.table = some heap) ∧ db.Loadable place.page
        ∧ db.locks.grant? place.page asker .exclusive ≠ none
        ∧ ∀ page, db.seen? place.page = some page → page.cells[place.slot]?.join = none := by
  cases deleted with
  | unplaced nowhere => cases placed.symm.trans nowhere
  | unknown same missing =>
    cases placed.symm.trans same
    simp [missing]
  | failed same registered fails =>
    cases placed.symm.trans same
    cases fails with
    | @refused _ page _ _ obtains outcome =>
      have refused := Outcome.eq_fail_of_reply outcome
      obtain ⟨rfl, gone⟩ := (healthy.eraseRecord_eq_fail_iff intact placed obtains.seen _).1 refused
      refine iff_of_true rfl ⟨⟨_, registered⟩, obtains.loadable, by simp [obtains.granted], fun other there => ?_⟩
      cases obtains.seen.symm.trans there
      exact gone
    | denied _ _ denied =>
      -- What is denied is none of a record, and a page that can be given is not denied.
      refine iff_of_false (fun same => ?_) fun ⟨_, loadable, granted, _⟩ => ?_
      · cases same
        rcases healthy.denied intact.housed registered denied with told | ⟨_, told⟩ | told <;> cases told
      · cases denied with
        | unloadable unloadable => exact unloadable.not_loadable loadable
        | refused _ refused => exact granted refused
  | erased same registered obtains erased alters =>
    cases placed.symm.trans same
    refine iff_of_false (by simp) fun ⟨_, _, _, gone⟩ => ?_
    -- A slot that holds nothing cannot be erased.
    have nothing := gone _ obtains.seen
    have refused := (healthy.eraseRecord_eq_fail_iff intact placed obtains.seen _).2 ⟨rfl, nothing⟩
    cases refused.symm.trans erased

/-- A record with a place is deleted, or its table, its page, a lock, room in memory or the record is missing. -/
theorem Healthy.deleted_error_eq (healthy : db.Healthy) (intact : db.Intact) {place : RecordId}
    (deleted : Deleted db asker record (.error failure) after) (placed : record.place = some place) :
    failure = .noTable place.page.table
      ∨ failure = .noPage place.page (db.standing.shown place.page.table).images.length
      ∨ (∃ refusal, failure = .lockRefused refusal) ∨ failure = .poolFull db.settings.capacity
      ∨ failure = .noRecord place.page place.slot := by
  cases deleted with
  | unplaced nowhere => cases placed.symm.trans nowhere
  | unknown same _ =>
    cases placed.symm.trans same
    exact .inl rfl
  | failed same registered fails =>
    cases placed.symm.trans same
    cases fails with
    | refused obtains outcome =>
      have refused := Outcome.eq_fail_of_reply outcome
      exact .inr (.inr (.inr (.inr ((healthy.eraseRecord_eq_fail_iff intact placed obtains.seen _).1 refused).1)))
    | denied _ _ denied =>
      -- The page is missing, or it is there and the lock or the room is.
      rcases healthy.denied intact.housed registered denied with missing | refused | full
      · exact .inr (.inl missing)
      · exact .inr (.inr (.inl refused))
      · exact .inr (.inr (.inr (.inl full)))

/--
Where all pages are sound and all stores can be read, storing and deleting a record answers without a trap, and
only few answers are possible. No request for a page traps for its deadline, if patience is shorter than ages.

A record that is stored in a registered heap is too large, lacks a lock or finds no room in memory if it is not
stored, and it is too large exactly if it has more bytes than an empty page can hold. A record that is deleted
from a place lacks its table, its page, a lock or room in memory if it is not reported missing, and that it is
exactly if its page exists, can be in memory and can be locked, and its slot holds nothing.
-/
theorem only_possible_answers (arises : Arises db) (healthy : db.Healthy) (timely : db.settings.Timely)
    (asker : TransactionId) (record : Record) :
    db.GivesDeadlines
    ∧ (∀ number heap, db.catalog.heap? number = some heap → ∃ answer stored after,
      insert asker number record db = .ok (answer, stored) after
      ∧ (∀ failure, answer = .error failure →
        failure = .recordTooLarge record.encode.length (db.settings.pageSize - 20)
          ∨ (∃ refusal, failure = .lockRefused refusal) ∨ failure = .poolFull db.settings.capacity)
      ∧ (answer = .error (.recordTooLarge record.encode.length (db.settings.pageSize - 20))
        ↔ db.settings.pageSize - 20 < record.encode.length))
    ∧ ∀ place, record.place = some place → ∃ result after,
      delete asker record db = Op.ended (Outcome.ofResult result) after
      ∧ (∀ failure, result = .error failure → failure = .noTable place.page.table
        ∨ failure = .noPage place.page (db.standing.shown place.page.table).images.length
        ∨ (∃ refusal, failure = .lockRefused refusal) ∨ failure = .poolFull db.settings.capacity
        ∨ failure = .noRecord place.page place.slot)
      ∧ (result = .error (.noRecord place.page place.slot)
        ↔ (∃ heap, db.catalog.heap? place.page.table = some heap)
          ∧ place.page.number < (db.standing.shown place.page.table).images.length
          ∧ (db.pool.isResident place.page = true ∨ ¬ db.Full)
          ∧ db.locks.grant? place.page asker .exclusive ≠ none
          ∧ ∀ page, db.seen? place.page = some page → page.cells[place.slot]?.join = none) := by
  have intact := arises.intact
  refine ⟨givesDeadlines timely, fun number heap registered => ?_, fun place placed => ?_⟩
  -- Sound pages trap nowhere, so the insertion ends, and what was inserted is told of its end.
  · have ensures : Op.Ensures _ _ _ := intact.ends_insert asker number record (.inr healthy.toWellFormed)
    obtain ⟨_, after, ran, answer, stored, rfl, inserted⟩ := Op.Ensures.exists_run ensures
    refine ⟨answer, stored, after, ran, ?_⟩
    cases inserted with
    | unknown missing => cases registered.symm.trans missing
    | failed same fails =>
      have table := intact.orderly.heap_table same
      rcases fails.error_eq intact healthy (table ▸ same) with ⟨rfl, long⟩ | ⟨short, other⟩
      · exact ⟨fun failure told => (by cases told; exact .inl rfl), iff_of_true rfl long⟩
      · refine ⟨fun failure told => (by cases told; exact .inr other), ?_⟩
        refine iff_of_false (fun told => ?_) (Nat.not_lt.2 short)
        cases told
        -- Neither a lock nor memory is the record's length.
        rcases other with ⟨_, told⟩ | told <;> cases told
    | stored _ stores _ =>
      refine ⟨nofun, iff_of_false (by simp) ?_⟩
      cases stores with
      | found short _ => exact Nat.not_lt.2 short
      | appended short _ _ _ => exact Nat.not_lt.2 short
  · have ensures : Op.Ensures _ _ _ := intact.ends_delete asker record
      (.inr fun _ _ seen => healthy.toWellFormed.sound (mayShow_of_seen? seen))
    obtain ⟨result, after, ran, deleted⟩ := Op.Ensures.exists_run ensures
    refine ⟨result, after, ?_, fun failure told => ?_, ?_⟩
    · rw [ran]
      cases result <;> rfl
    · subst told
      exact healthy.deleted_error_eq intact deleted placed
    -- What is in question on both sides is asked of a table that is known.
    · refine (healthy.deleted_eq_noRecord_iff intact deleted placed).trans (and_congr_right fun known => ?_)
      obtain ⟨heap, registered⟩ := known
      rw [healthy.loadable_iff intact registered, and_assoc]

/-- Pages are sound where only images of sound pages are stored. -/
theorem Consistent.wellFormed (consistent : db.Consistent .written) : db.WellFormed where
  cached id page resident := (consistent.cached id page resident).sound
  stored id image found := by
    obtain ⟨source, sound, encoded⟩ := (consistent.orderly.images id.table image (List.mem_of_getElem? found)).2
    obtain ⟨page, decoded, agrees, _⟩ := sound.ofImage_image encoded id
    exact ⟨page, decoded, agrees.symm.sound sound⟩

/-- A transaction reads a page with two records, the first of which was deleted. -/
def halfEmpty : Database :=
  (overImages ⟨64, 1, .ofMilliseconds 1⟩ []).afterAll
    [.insert ⟨1⟩ 1 ⟨none, [.integer 7]⟩, .insert ⟨1⟩ 1 ⟨none, [.integer 8]⟩, .delete ⟨1⟩ ⟨some ⟨⟨1, 0⟩, 0⟩, []⟩,
      .finish ⟨1⟩ .commit, .acquire ⟨2⟩ ⟨1, 0⟩ .reading]

theorem arises_halfEmpty : Arises halfEmpty := by
  refine .afterAll (.fresh (overImages_fresh (by decide) (by simp))) ?_ (by decide +kernel)
  simp [Command.Proper]

theorem healthy_halfEmpty : halfEmpty.Healthy where
  toWellFormed := by
    have reachable : Reachable ImageKind.written.allows halfEmpty :=
      ⟨_, _, overImages_fresh (by decide) (by simp), runs_afterAll (by simp [Command.Allowed]) (by decide +kernel)⟩
    exact reachable.consistent.wellFormed
  reads number := by
    by_cases here : number = 1
    · subst here
      decide +kernel
    · -- No other table is registered.
      have keys : halfEmpty.catalog.tables.keys = [1] := by decide +kernel
      have missing : halfEmpty.catalog.tables.find? number = none := by
        have absent : number ∉ halfEmpty.catalog.tables.keys := by simp [keys, here]
        simpa [SortedMap.mem_keys_iff, SortedMap.contains] using absent
      simp only [standing, Catalog.heap?, missing]
      rfl

/-- A record of more bytes than the page has room for is not stored, and is found missing where nothing is left. -/
theorem only_possible_answers_missing : Arises halfEmpty ∧ halfEmpty.Healthy ∧ halfEmpty.settings.Timely
    ∧ (∃ stored after, insert ⟨2⟩ 1 ⟨some ⟨⟨1, 0⟩, 0⟩, [.blob (Bytes.zeros 42)]⟩ halfEmpty
      = .ok (.error (.recordTooLarge 45 44), stored) after)
    ∧ ∃ after, delete ⟨2⟩ ⟨some ⟨⟨1, 0⟩, 0⟩, [.blob (Bytes.zeros 42)]⟩ halfEmpty
      = .error (.failed (.noRecord ⟨1, 0⟩ 0)) after := by
  have timely : halfEmpty.settings.Timely := by decide +kernel
  obtain ⟨_, inserts, deletes⟩ := only_possible_answers arises_halfEmpty healthy_halfEmpty timely ⟨2⟩
    ⟨some ⟨⟨1, 0⟩, 0⟩, [.blob (Bytes.zeros 42)]⟩
  have registered : halfEmpty.catalog.heap? 1 = some ⟨1, .memory 0⟩ := by decide +kernel
  refine ⟨arises_halfEmpty, healthy_halfEmpty, timely, ?_, ?_⟩
  · obtain ⟨answer, stored, after, ran, _, tooLarge⟩ := inserts 1 _ registered
    have large := tooLarge.2 (by decide +kernel)
    have length : (Record.encode ⟨some ⟨⟨1, 0⟩, 0⟩, [.blob (Bytes.zeros 42)]⟩).length = 45 := by decide +kernel
    have size : halfEmpty.settings.pageSize = 64 := by decide +kernel
    rw [length, size] at large
    exact ⟨stored, after, large ▸ ran⟩
  · obtain ⟨result, after, ran, _, missing⟩ := deletes ⟨⟨1, 0⟩, 0⟩ rfl
    have gone : (halfEmpty.seen? ⟨1, 0⟩).all (fun page => page.cells[0]?.join = none) = true := by decide +kernel
    have told := missing.2 ⟨⟨_, registered⟩, by decide +kernel, .inl (by decide +kernel), by decide +kernel,
      fun page seen => by simpa [seen] using gone⟩
    exact ⟨after, by rw [ran, told]; rfl⟩

end Database

end HeapEngine
