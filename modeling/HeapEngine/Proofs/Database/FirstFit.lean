import HeapEngine.Proofs.Commutes
import HeapEngine.Proofs.Database.Coherent
import HeapEngine.Proofs.Database.Repeatable

/-!
A record goes on the first page of its heap that has room, and nothing else changes.

What counts of a page is what is seen of it: what is in memory, or else what is stored.
-/

namespace HeapEngine

namespace Database

variable {kind : ImageKind} {db before grown given after : Database} {id : PageId} {page changed : Page}
  {asker : TransactionId} {number : Nat} {heap : Heap} {record : Record} {copy : CopyId} {place other : RecordId}

/-- The bytes under a place, as they are seen. -/
def cell? (db : Database) (place : RecordId) : Option Bytes :=
  (db.seen? place.page).bind fun page => page.cells[place.slot]?.join

/-- The values of the record under a place, as they are seen. -/
def values? (db : Database) (place : RecordId) : Option (List Value) :=
  (db.cell? place).bind fun cell => (Record.decode cell).toOption.map Record.values

/-- Where a record went: in the first free slot of a page with room, or on a page of its own. -/
inductive Spot (before : Database) (number size : Nat) (place : RecordId) (after : Database) : Prop
  | found {page : Page} (seen : before.seen? place.page = some page) (room : page.fits size = .ok true)
      (slot : place.slot = page.freeSlot?.getD page.slots.length)
      (shown : after.standing.shown = before.standing.shown) : Spot before number size place after
  /-- One empty page was appended, as no page has room. -/
  | appended {image : Bytes} (last : place.page.number = (before.standing.shown number).images.length)
      (slot : place.slot = 0) (encoded : (Page.empty ⟨0, (before.standing.shown number).images.length⟩
        (before.standing.shown number).pageSize).image = .ok image)
      (shown : after.standing.shown = (before.standing.withShown number { before.standing.shown number with
        images := (before.standing.shown number).images ++ [image] }).shown) : Spot before number size place after

/-- A record was stored in the first place of its table with room for it, and no other record is another one now. -/
structure FirstFit (before : Database) (asker : TransactionId) (number : Nat) (record : Record) (place : RecordId)
    (after : Database) : Prop where
  table : place.page.table = number
  /-- No page before has room. -/
  full : ∀ earlier, earlier < place.page.number → ∃ page, before.seen? ⟨number, earlier⟩ = some page
    ∧ page.fits record.encode.length = .ok false
  spot : Spot before number record.encode.length place after
  vacant : before.cell? place = none
  cells : ∀ other heap, before.catalog.heap? other.page.table = some heap →
    after.cell? other = if other = place then some record.encode else before.cell? other
  values : ∀ other heap, before.catalog.heap? other.page.table = some heap →
    after.values? other = if other = place then some record.values else before.values? other
  marked : ∃ page, after.pool.page? place.page = some page ∧ page.changedBy = some asker
  locked : after.locks.isWriter place.page asker = true

/-- Whether every record that is stored goes where it fits first, and comes back with its place. -/
def InsertsFirstFit (db : Database) : Prop :=
  ∀ asker number record stored after, insert asker number record db = .ok (.ok (), stored) after →
    ∃ place, stored = { record with place := some place } ∧ FirstFit db asker number record place after

/-! What is seen stays so while pages are looked for. -/

/-- A page in memory that is not unwritten is as it is stored. -/
theorem Coherent.exists_stored (coherent : db.Coherent kind) (resident : db.pool.page? id = some page)
    (unwritten : db.standing.unwritten id = none) (registered : db.catalog.heap? id.table = some heap) :
    ∃ read, db.standing.stored? id = some read ∧ read.Agrees page :=
  (coherent.cached id page resident).clean (unmarked_of_unwritten resident unwritten) heap registered

/-- What may be seen of a page agrees with what is seen of it. -/
theorem Coherent.exists_seen? (coherent : db.Coherent kind) (shown : db.MayShow id page) :
    ∃ seen, db.seen? id = some seen ∧ seen.Agrees page := by
  rcases shown with resident | ⟨unwritten, stored⟩
  · exact ⟨page, seen?_of_resident resident, .refl page⟩
  cases resident : db.pool.page? id with
  | none => exact ⟨page, (seen?_of_absent resident).trans stored, .refl page⟩
  | some held =>
    obtain ⟨image, found, _⟩ := Standing.stored?_eq_some.1 stored
    obtain ⟨heap, registered⟩ := exists_heap_of_image? found
    obtain ⟨read, same, agrees⟩ := coherent.exists_stored resident unwritten registered
    cases stored.symm.trans same
    exact ⟨held, seen?_of_resident resident, agrees.symm⟩

/-- Looking for pages changes nothing that is seen of the pages of registered tables. -/
theorem Coherent.rel_seen? (coherent : before.Coherent kind) (roams : Roams before after)
    (registered : before.catalog.heap? id.table = some heap) :
    Option.Rel Page.Agrees (before.seen? id) (after.seen? id) := by
  cases seen : after.seen? id with
  | some page =>
    obtain ⟨old, same, agrees⟩ := coherent.exists_seen? (roams.mayShow (mayShow_of_seen? seen))
    rw [same]
    exact .some agrees
  | none =>
    -- Nothing is stored, and a page with changes would be in memory still.
    obtain ⟨absent, nothing⟩ := Option.or_eq_none_iff.1 seen
    have unwritten := unwritten_of_absent absent
    rw [roams.stored?_eq] at nothing
    rw [roams.unwritten_eq] at unwritten
    cases resident : before.pool.page? id with
    | none =>
      rw [seen?_of_absent resident, nothing]
      exact .none
    | some held =>
      obtain ⟨read, stored, _⟩ := coherent.exists_stored resident unwritten registered
      cases nothing.symm.trans stored

/-- Every page that is seen is sound. -/
theorem Coherent.sound_of_seen? (coherent : db.Coherent kind) (seen : db.seen? id = some page) : page.Sound :=
  (coherent.mirrors (mayShow_of_seen? seen)).sound

/-- Looking for pages changes no record of a registered table. -/
theorem Coherent.cell?_eq (coherent : before.Coherent kind) (roams : Roams before after)
    (registered : before.catalog.heap? place.page.table = some heap) : after.cell? place = before.cell? place := by
  have same := coherent.rel_seen? roams registered
  have sound : ∀ page, before.seen? place.page = some page → page.Sound := fun _ seen => coherent.sound_of_seen? seen
  unfold cell?
  generalize before.seen? place.page = old at same sound ⊢
  generalize after.seen? place.page = new at same ⊢
  cases same with
  | none => rfl
  | some agrees => rw [Option.bind_some, Option.bind_some, agrees.cells (sound _ rfl)]

/-- A page without room, as it may be seen, is seen to have none. -/
theorem Coherent.exists_full (coherent : db.Coherent kind) {size : Nat} (lacks : db.Lacks id size) :
    ∃ page, db.seen? id = some page ∧ page.fits size = .ok false := by
  obtain ⟨page, shown, full⟩ := lacks
  obtain ⟨seen, same, agrees⟩ := coherent.exists_seen? shown
  exact ⟨seen, same, agrees.fits size ▸ full⟩

/-! A heap grows by one page, and a record goes on a page. -/

/-- The image that is appended is at the end, and all others are where they were. -/
theorem Appends.seen?_eq (appends : Appends before number after)
    (apart : id ≠ ⟨number, (before.standing.shown number).images.length⟩) : after.seen? id = before.seen? id := by
  obtain ⟨image, _, stands⟩ := appends.standing
  have images : after.standing.image? id = before.standing.image? id := by
    rw [stands, Standing.image?, Standing.image?]
    simp only [Standing.withShown]
    split
    · rename_i here
      rw [here, List.getElem?_append]
      split
      · rfl
      · rename_i beyond
        -- There is one page more, and this is not its number.
        have past : id.number ≠ (before.standing.shown number).images.length := fun last =>
          apart (by rw [← last, ← here])
        rw [List.getElem?_eq_none (by simp; omega), List.getElem?_eq_none (by omega)]
    · rfl
  rw [seen?, seen?, appends.pool, Standing.stored?, images, ← Standing.stored?]

/-- Nothing is seen beyond the end of a heap. -/
theorem Intact.seen?_of_beyond (intact : db.Intact) (registered : db.catalog.heap? id.table = some heap)
    (beyond : (db.standing.shown id.table).images.length ≤ id.number) : db.seen? id = none := by
  rw [seen?_of_absent (intact.absent_of_beyond registered beyond), Standing.stored?, Standing.image?,
    List.getElem?_eq_none beyond]
  rfl

/-- An empty page has no records, so there are none more than before. -/
theorem Appends.cell?_eq (appends : Appends before heap.table after) (intact : before.Intact)
    (registered : before.catalog.heap? heap.table = some heap) (place : RecordId) :
    after.cell? place = before.cell? place := by
  by_cases last : place.page = heap.page (before.standing.shown heap.table).images.length
  · obtain ⟨absent, page, stored, _, agrees⟩ := appends.exists_stored intact registered
    have nothing : page.cells[place.slot]?.join = none := by
      rw [Page.cells, agrees.slots]
      rfl
    rw [cell?, cell?, last, intact.seen?_of_beyond registered (Nat.le_refl _), seen?_of_absent absent, stored,
      Option.bind_some, nothing]
    rfl
  · rw [cell?, cell?, appends.seen?_eq last]

/-- Of the pages that are not adopted the same is seen as before the change. -/
theorem Alters.seen?_adopted (alters : Alters asker given copy page changed after) (apart : id ≠ copy.page) :
    (after.adopted asker copy changed).seen? id = given.seen? id := by
  rw [seen?, seen?, alters.page?_adopted, if_neg apart, Standing.stored?, Standing.image?, alters.shown_adopted.2,
    ← Standing.image?, ← Standing.stored?]

/-- Once a page is adopted its cells are those it was given, and all other cells are as they were. -/
theorem Coherent.cell?_adopted (coherent : before.Coherent kind) (roams : Roams before given)
    (alters : Alters asker given copy page changed after)
    (registered : before.catalog.heap? other.page.table = some heap) :
    (after.adopted asker copy changed).cell? other
      = if other.page = copy.page then changed.cells[other.slot]?.join else before.cell? other := by
  split
  · rename_i here
    rw [cell?, here, seen?_of_resident ((alters.page?_adopted copy.page).trans (if_pos rfl)), Option.bind_some]
    rfl
  · rename_i apart
    rw [← coherent.cell?_eq roams registered, cell?, cell?, alters.seen?_adopted apart]

/-- What it comes to that a record is stored on a page, and the page is adopted. -/
structure Lands (before : Database) (asker : TransactionId) (record : Record) (place : RecordId) (after : Database) :
    Prop where
  seen : ∃ page, before.seen? place.page = some page ∧ page.fits record.encode.length = .ok true
    ∧ place.slot = page.freeSlot?.getD page.slots.length
  shown : after.standing.shown = before.standing.shown
  vacant : before.cell? place = none
  cells : ∀ other heap, before.catalog.heap? other.page.table = some heap →
    after.cell? other = if other = place then some record.encode else before.cell? other
  reads : Record.decode record.encode = .ok ⟨none, record.values⟩
  marked : ∃ page, after.pool.page? place.page = some page ∧ page.changedBy = some asker
  locked : after.locks.isWriter place.page asker = true

/-- A record that is stored on a page lands in its first free slot, and all other records stay. -/
theorem Coherent.lands (coherent : before.Coherent kind) (roams : Roams before given)
    (inserted : page.insertRecord record = .ok (changed, place)) (alters : Alters asker given copy page changed after) :
    place.page = copy.page ∧ Lands before asker record place (after.adopted asker copy changed) := by
  have shown := roams.shows copy.page page alters.resident
  have sound := (coherent.mirrors shown).sound
  have name := coherent.intact.id_of_mayShow shown
  obtain ⟨_, rfl, cells⟩ := sound.insertRecord_eq_ok inserted
  obtain ⟨old, seen, agrees⟩ := coherent.exists_seen? shown
  have same := agrees.symm.cells sound
  rw [name]
  have pages := alters.page?_adopted
  have stores := alters.shown_adopted.2
  refine ⟨rfl, ⟨old, seen, ?_, ?_⟩, stores.trans roams.shown_eq, ?_, fun other heap registered => ?_, ?_, ?_, ?_⟩
  · rw [agrees.fits]
    exact Page.fits_of_insertRecord inserted
  · rw [Page.put_snd, Page.freeSlot?, Page.freeSlot?, agrees.slots]
  · rw [cell?, seen, Option.bind_some, ← same]
    exact page.cells.join_put_free record.encode
  · rw [coherent.cell?_adopted roams alters registered]
    by_cases here : other.page = copy.page
    · -- Of its page the cells are those from before, with the new one.
      have spot : other = ⟨copy.page, (page.cells.put record.encode).2⟩
          ↔ other.slot = (page.cells.put record.encode).2 := by
        cases other
        simp_all
      rw [if_pos here, cell?, here, seen, Option.bind_some, ← same, cells]
      simp only [SlotList.join_put, spot]
    · have apart : other ≠ ⟨copy.page, (page.cells.put record.encode).2⟩ :=
        fun there => here (congrArg RecordId.page there)
      rw [if_neg here, if_neg apart]
  · exact record.decode_encode (.of_length (Nat.lt_trans (sound.length_of_insertRecord inserted) (by decide)))
  · exact ⟨_, (pages copy.page).trans (if_pos rfl), rfl⟩
  · rw [alters.after]
    exact alters.writes

/-- A record that lands on the first page with room is stored there, if nothing that is seen was changed before. -/
theorem Lands.firstFit {middle : Database} (lands : Lands middle asker record place after)
    (coherent : before.Coherent kind) (registered : before.catalog.heap? number = some heap)
    (tables : middle.catalog = before.catalog) (table : place.page.table = number)
    (same : ∀ other heap, before.catalog.heap? other.page.table = some heap → middle.cell? other = before.cell? other)
    (full : ∀ earlier, earlier < place.page.number → before.Lacks ⟨number, earlier⟩ record.encode.length)
    (spot : Spot before number record.encode.length place after) :
    FirstFit before asker number record place after := by
  have cells : ∀ other heap, before.catalog.heap? other.page.table = some heap →
      after.cell? other = if other = place then some record.encode else before.cell? other := by
    intro other heap known
    rw [lands.cells other heap (tables ▸ known), same other heap known]
  refine ⟨table, fun earlier less => coherent.exists_full (full earlier less), spot,
    (same place heap (table ▸ registered)).symm.trans lands.vacant, cells, fun other heap known => ?_,
    lands.marked, lands.locked⟩
  rw [values?, cells other heap known]
  split
  · rw [Option.bind_some, lands.reads]
    rfl
  · rfl

/-- A record that is stored in a heap goes on the first page that has room for it, or on a new one. -/
theorem Coherent.firstFit (coherent : db.Coherent kind) (registered : db.catalog.heap? heap.table = some heap)
    (stored : Stored db heap asker record (.ok (copy, place)) after)
    (there : after.pool.page? copy.page = some changed) :
    FirstFit db asker heap.table record place (after.adopted asker copy changed) := by
  have changed_eq {given : Database} {page other : Page} (alters : Alters asker given copy page other after) :
      changed = other := by
    rw [alters.after, Pool.page?_editResident, if_pos rfl, alters.resident] at there
    exact (Option.some.inj there).symm
  cases stored with
  | found _ searched =>
    cases searched with
    | found _ _ lacks roams _ _ here inserted alters =>
      cases changed_eq alters
      obtain ⟨page, lands⟩ := coherent.lands roams inserted alters
      have page := page.trans here
      obtain ⟨_, seen, room, slot⟩ := lands.seen
      refine lands.firstFit coherent registered rfl (congrArg PageId.table page) (fun _ _ _ => rfl)
        (fun earlier less => lacks earlier (Nat.zero_le _) ?_) (.found seen room slot lands.shown)
      rw [page] at less
      exact less
  | appended _ exhausted appends attempted =>
    cases exhausted with
    | exhausted roams intact _ lacks =>
      cases attempted with
      | changed obtains inserted alters =>
        cases changed_eq alters
        have known := roams.catalog_eq ▸ registered
        obtain ⟨page, lands⟩ := ((coherent.roams roams intact).append known appends).lands obtains.roams inserted alters
        have page := page.trans obtains.here
        obtain ⟨image, encoded, stands⟩ := appends.standing
        refine lands.firstFit coherent registered ?_ (congrArg PageId.table page) (fun other _ registered => ?_)
          (fun earlier less => lacks earlier (Nat.zero_le _) ?_)
          (.appended (congrArg PageId.number page) ?_ (roams.shown_eq ▸ encoded) ?_)
        · exact appends.catalog_eq.trans roams.catalog_eq
        · rw [appends.cell?_eq intact known, coherent.cell?_eq roams registered]
        · rw [page] at less
          exact Nat.lt_of_lt_of_eq less (Nat.zero_add _).symm
        · -- The page is an empty one, so its first slot is a new one.
          obtain ⟨first, seen, _, slot⟩ := lands.seen
          obtain ⟨absent, empty, stored, _, agrees⟩ := appends.exists_stored intact known
          rw [roams.shown_eq] at absent stored
          rw [page, seen?_of_absent absent, stored] at seen
          cases seen
          rw [slot, Page.freeSlot?, agrees.slots]
          rfl
        · rw [lands.shown, stands, Standing.withShown, Standing.withShown, roams.shown_eq]

/--
A record goes on the first page that has room, and nothing else changes.

In every database that arises while whoever changes a page marks it, over stores whose images hold cells that have
room side by side, if they hold a page at all: a record that is stored is on the page with the lowest number that is
seen to have room, in its lowest free slot or else in a new last one, or, if no page has room, in the first slot of
the one page that was appended. No record was there, all records of registered tables are as they were under
their places, with the new one besides, and its page is marked and locked by whoever stored it.
-/
theorem inserts_first_fit (tended : Tended ImageKind.readable.allows db) : db.InsertsFirstFit := by
  intro asker number record stored after ran
  have coherent : db.Coherent .readable := tended.coherent
  have ended : Op.Permits _ _ _ := coherent.intact.ends_insert asker number record (.inl trivial)
  unfold Op.Permits Op.Ends at ended
  rw [ran] at ended
  obtain ⟨_, _, ⟨⟩, inserted⟩ := ended
  cases inserted with
  | stored registered stores there =>
    have table := coherent.intact.orderly.heap_table registered
    exact ⟨_, rfl, table ▸ coherent.firstFit (table ▸ registered) stores there⟩

/-- A page is full, and on the next one the first of two records was deleted. -/
def gap : Database :=
  (overImages ⟨64, 1, .ofMilliseconds 1⟩ []).afterAll
    [.insert ⟨1⟩ 1 ⟨none, [.blob (Bytes.zeros 40)]⟩, .finish ⟨1⟩ .commit,
      .insert ⟨1⟩ 1 ⟨none, [.integer 7]⟩, .insert ⟨1⟩ 1 ⟨none, [.integer 8]⟩,
      .delete ⟨1⟩ ⟨some ⟨⟨1, 1⟩, 0⟩, []⟩, .finish ⟨1⟩ .commit]

theorem tended_gap : Tended ImageKind.readable.allows gap :=
  .afterAll (.fresh (overImages_fresh (by decide) (by simp))) (by simp) (by decide +kernel)

/-- A record goes into the gap. -/
theorem inserts_first_fit_gap : Tended ImageKind.readable.allows gap
    ∧ ∃ after, insert ⟨2⟩ 1 ⟨none, [.integer 9]⟩ gap = .ok (.ok (), ⟨some ⟨⟨1, 1⟩, 0⟩, [.integer 9]⟩) after
      ∧ FirstFit gap ⟨2⟩ 1 ⟨none, [.integer 9]⟩ ⟨⟨1, 1⟩, 0⟩ after := by
  have ran := (insert ⟨2⟩ 1 ⟨none, [.integer 9]⟩).run_eq_ended gap
  rw [show (insert ⟨2⟩ 1 ⟨none, [.integer 9]⟩).outcome gap = .ok (.ok (), ⟨some ⟨⟨1, 1⟩, 0⟩, [.integer 9]⟩) from
    by decide +kernel] at ran
  obtain ⟨place, same, fits⟩ := inserts_first_fit tended_gap _ _ _ _ _ ran
  cases same
  exact ⟨tended_gap, _, ran, fits⟩

/-- A database with room for one page in memory, over an empty page and the crowded one. -/
def crowdedLast : Database :=
  overImages ⟨67, 1, .ofMilliseconds 1⟩ [Bytes.zeros 67, crowdedPage.buffer]

/-- The crowded page is locked and packed in memory. -/
def crowdedLastEdited : Database :=
  let given := crowdedLast.after (Command.acquire ⟨1⟩ ⟨1, 1⟩ .writing).perform
  { given with pool := given.pool.edit ⟨⟨1, 1⟩, 0⟩ fun _ => { crowdedPacked with id := ⟨1, 1⟩ } }

/-- The last cell of the crowded page is deleted. -/
def crowdedLastDeleted : Database := crowdedLastEdited.after (do adoptAll ⟨1⟩ [⟨⟨1, 1⟩, 0⟩]; return .done)

/-- The deletion is committed. -/
def crowdedLastCommitted : Database := crowdedLastDeleted.after (Command.finish ⟨1⟩ .commit).perform

theorem tended_crowdedLast : Tended (fun _ => True) crowdedLastCommitted := by
  have found : crowdedLast.catalog.find 1 = .ok (.heap ⟨1, .memory 0⟩) := rfl
  have given : crowdedLast.serve (.acquire ⟨1⟩ ⟨1, 1⟩ .writing) = .ok (.ok (.copy ⟨⟨1, 1⟩, 0⟩), _) :=
    run_eq (by decide +kernel)
  have placed : Record.place ⟨some ⟨⟨1, 1⟩, 4⟩, []⟩ = some ⟨⟨1, 1⟩, 4⟩ := rfl
  have deleted : crowdedLast.serve (.delete ⟨1⟩ ⟨some ⟨⟨1, 1⟩, 4⟩, []⟩) = .ok (.ok .done, crowdedLastDeleted) := by
    rw [serve_delete placed found rfl given (by decide +kernel) (eraseRecord_crowded ⟨1, 1⟩)]
    exact run_eq (by decide +kernel)
  have committed : crowdedLastDeleted.serve (.finish ⟨1⟩ .commit) = .ok (.ok .done, crowdedLastCommitted) :=
    run_eq (by decide +kernel)
  have fresh : Fresh (fun _ => True) crowdedLast := overImages_fresh (by decide) (by decide)
  exact .serve (.serve (.fresh fresh) (.of_ne (by simp)) deleted) (.of_ne (by simp)) committed

set_option maxRecDepth 20000 in
/--
Cells that have no room side by side are lost when a record is stored on another page.

The page that was packed in memory is dropped for the one that the record goes on, and its image has fewer records.
-/
theorem crowded_not_first_fit :
    Tended (fun _ => True) crowdedLastCommitted ∧ ¬ crowdedLastCommitted.InsertsFirstFit := by
  refine ⟨tended_crowdedLast, fun inserts => ?_⟩
  have ran := (insert ⟨2⟩ 1 ⟨none, [.integer 7]⟩).run_eq_ended crowdedLastCommitted
  rw [show (insert ⟨2⟩ 1 ⟨none, [.integer 7]⟩).outcome crowdedLastCommitted
    = .ok (.ok (), ⟨some ⟨⟨1, 0⟩, 0⟩, [.integer 7]⟩) from by decide +kernel] at ran
  obtain ⟨place, same, fits⟩ := inserts _ _ _ _ _ ran
  cases same
  have kept := fits.cells ⟨⟨1, 1⟩, 3⟩ ⟨1, .memory 0⟩ (by decide +kernel)
  rw [if_neg (by decide)] at kept
  -- The fourth record of the other page is there before, and not after.
  have before : (crowdedLastCommitted.cell? ⟨⟨1, 1⟩, 3⟩).isSome = true := by decide +kernel
  rw [← kept] at before
  revert before
  decide +kernel

end Database

end HeapEngine
