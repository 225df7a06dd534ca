import HeapEngine.Proofs.Database.Enduring
import HeapEngine.Proofs.Database.Marks.Records
import HeapEngine.Proofs.Database.RollBack

/-!
A page that nobody changes goes on showing one image, to the store and to whoever gets it.

It may be dropped and loaded again, and its store may come to fail in between. All other pages may change.
-/

namespace HeapEngine

namespace Database

variable {db before after : Database} {id : PageId} {shown : Option Bytes}

/-- One image is stored of a page while its table is registered, and in memory the page is as in that image. -/
structure Undisturbed (shown : Option Bytes) (id : PageId) (db : Database) : Prop where
  intact : db.Intact
  stored : ∀ heap, db.catalog.heap? id.table = some heap →
    ∃ image, shown = some image ∧ db.standing.image? id = some image
  held : ∀ page, db.pool.page? id = some page → ∃ image, shown = some image ∧ Page.ofImage id image = .ok page

namespace Undisturbed

/-- A page is undisturbed still if it is stored as before, and in memory as before or as it is stored. -/
theorem update (still : Undisturbed shown id before) (intact : after.Intact)
    (tables : ∀ heap, after.catalog.heap? id.table = some heap → before.catalog.heap? id.table = some heap)
    (images : ∀ heap, after.catalog.heap? id.table = some heap →
      ∀ image, before.standing.image? id = some image → after.standing.image? id = some image)
    (held : ∀ page, after.pool.page? id = some page →
      before.pool.page? id = some page ∨ before.standing.stored? id = some page) : Undisturbed shown id after := by
  -- Only registered tables have images, so a page that is as it is stored is as in the image that is told.
  refine ⟨intact, fun heap registered => ?_, fun page resident => ?_⟩
  · obtain ⟨image, same, found⟩ := still.stored heap (tables heap registered)
    exact ⟨image, same, images heap registered image found⟩
  · rcases held page resident with there | stored
    · exact still.held page there
    · obtain ⟨image, found, decoded⟩ := Standing.stored?_eq_some.1 stored
      obtain ⟨heap, registered⟩ := exists_heap_of_image? found
      obtain ⟨_, same, there⟩ := still.stored heap registered
      cases found.symm.trans there
      exact ⟨image, same, decoded⟩

/-- Other pages may be in memory, and this one as it is stored. -/
theorem withPool (still : Undisturbed shown id db) {pool : Pool} (intact : Intact { db with pool })
    (held : ∀ page, pool.page? id = some page →
      db.pool.page? id = some page ∨ db.standing.stored? id = some page) : Undisturbed shown id { db with pool } :=
  still.update intact (fun _ known => known) (fun _ _ _ found => found) held

/-- Locks do not matter. -/
theorem withLocks (still : Undisturbed shown id db) {locks : Locks} (exclusive : locks.Exclusive) :
    Undisturbed shown id { db with locks } :=
  still.update (still.intact.withLocks exclusive) (fun _ known => known) (fun _ _ _ found => found)
    fun _ there => .inl there

/-- What is done elsewhere does not matter. -/
theorem of_untouched (still : Undisturbed shown id before) (intact : after.Intact)
    (catalog : after.catalog = before.catalog) (untouched : Untouched before after id) : Undisturbed shown id after :=
  still.update intact (fun _ known => catalog ▸ known) (fun _ _ _ found => untouched.2.trans found)
    fun _ there => .inl (untouched.1 ▸ there)

/-- A page that is undisturbed carries no mark. -/
theorem clean (still : Undisturbed shown id db) {page : Page} (resident : db.pool.page? id = some page) :
    page.changedBy = none := by
  obtain ⟨image, _, decoded⟩ := still.held page resident
  exact (Page.ofImage_eq_ok decoded).2.2

theorem touch (still : Undisturbed shown id db) (other : PageId) :
    Undisturbed shown id { db with pool := (db.pool.touch other).2 } := by
  refine still.withPool ((Step.touch other).intact still.intact) fun page there => .inl ?_
  rwa [(Pool.touch_eq db.pool other).1] at there

theorem drop (still : Undisturbed shown id db) (other : PageId) :
    Undisturbed shown id { db with pool := db.pool.drop other } := by
  refine still.withPool ((Step.drop other).intact still.intact) fun page there => .inl ?_
  rw [Pool.page?_drop] at there
  split at there
  · cases there
  · exact there

/-- Another page may become any that may be there. -/
theorem editOther (still : Undisturbed shown id db) {other : PageId} (apart : other ≠ id) {change : Page → Page}
    (intact : Intact { db with pool := db.pool.editResident other change }) :
    Undisturbed shown id { db with pool := db.pool.editResident other change } := by
  refine still.withPool intact fun page there => .inl ?_
  rwa [Pool.page?_editResident, if_neg (Ne.symm apart)] at there

/-- A store that shows what it showed may count. -/
theorem count (still : Undisturbed shown id db) {number : Nat} {heap : Heap} {storage : Storage}
    (registered : db.catalog.heap? number = some heap)
    (shows : Storage.Shows db.storage heap.store (db.storage.view heap.store) storage) :
    Undisturbed shown id { db with storage } := by
  refine still.of_untouched ((Step.count registered shows).intact still.intact) rfl ⟨rfl, ?_⟩
  rw [still.intact.housed.standing_count registered shows]

/-- It does not matter which page is brought into memory, nor which is dropped for it. -/
theorem bring (still : Undisturbed shown id db) (other : PageId) :
    Op.Permits (bring other) db fun _ after => Undisturbed shown id after := by
  have touched := still.touch other
  refine .onPool_bind ?_
  cases asked : (db.pool.touch other).1 with
  | some copy => exact .pure touched
  | none =>
    refine ends_tableAt_bind touched.intact.orderly (fun _ => touched) fun heap registered => ?_
    have reads : Op.Permits (readStored (.heap heap) other) { db with pool := (db.pool.touch other).2 }
        fun result after => Undisturbed shown id after
          ∧ ∀ page, result = .ok page → after.standing.stored? other = some page := by
      refine Op.Ends.mono (Op.Ensures.permits (touched.intact.housed.ensures_readStored registered)) ?_
      intro result after ended
      obtain ⟨read, storage, rfl, shows⟩ := ended
      refine ⟨touched.count registered shows, fun page told => ?_⟩
      subst told
      rw [touched.intact.housed.standing_count registered shows]
      exact Standing.stored?_of_read read
    refine reads.bind (fun _ _ ended => ended.1) fun page after ended => ?_
    obtain ⟨counted, stored⟩ := ended
    -- The page that is dropped to make room may be this one.
    have rooms : Op.Permits makeRoom after fun _ roomy => Undisturbed shown id roomy
        ∧ roomy.standing.stored? other = some page := by
      refine (ensures_makeRoom_rooms after).permits.mono fun _ roomy rooms => ?_
      cases rooms with
      | there => exact ⟨counted, stored page rfl⟩
      | full => exact ⟨counted, stored page rfl⟩
      | drop _ _ => exact ⟨counted.drop _, stored page rfl⟩
    refine rooms.bind (fun _ _ ended => ended.1) fun _ roomy ended => ?_
    obtain ⟨still, stored⟩ := ended
    refine .onPool (still.withPool ((Step.load stored).intact still.intact) fun held there => ?_)
    rw [(roomy.pool.load_eq other page).1] at there
    split at there
    · -- What is loaded is what is stored.
      rename_i here
      cases there
      exact .inr (here ▸ stored)
    · exact .inl there

/-- A page that is appended comes after all that are stored. -/
theorem append (still : Undisturbed shown id db) {number : Nat} {heap : Heap}
    (registered : db.catalog.heap? number = some heap) :
    Op.Permits (onStorage (Storage.append heap.store)) db fun _ after => Undisturbed shown id after := by
  refine (still.intact.housed.ensures_append registered).permits.mono fun result after ended => ?_
  obtain ⟨_, image, storage, rfl, _, long, _, shows⟩ := ended
  have stands := standing_withStorage still.intact.orderly registered shows
  refine still.update ((Step.append registered long shows).intact still.intact) (fun _ known => known) ?_
    fun _ there => .inl there
  intro _ _ old found
  rw [Standing.image?] at found
  rw [stands, Standing.image?]
  simp only [Standing.withShown]
  -- The position of a page that is stored is below that of the new one.
  by_cases here : id.table = number
  · rw [here, shown_eq registered] at found
    rw [if_pos here]
    exact (List.getElem?_append_left (List.getElem?_eq_some_iff.1 found).1).trans found
  · rw [if_neg here]
    exact found

/-- Writing pages writes others, since the page has no changes. -/
theorem writeBack (still : Undisturbed shown id db) (other : PageId) :
    Op.Permits (writeBack other) db fun _ after => Undisturbed shown id after := by
  refine (still.intact.housed.ensures_writeBack other).permits.mono fun result after writing => ?_
  by_cases dirty : ∃ page, db.pool.page? other = some page ∧ page.isDirty = true
  · obtain ⟨page, resident, dirty⟩ := dirty
    -- What is written has changes, so it is not this page.
    have apart : id ∉ [other] := by
      rintro here
      cases List.mem_singleton.1 here
      rw [Page.isDirty, still.clean resident] at dirty
      cases dirty
    have writes := still.intact.writesBack_of_writing resident dirty writing
    cases result with
    | ok _ => exact still.of_untouched writes.1.intact writes.1.catalog (writes.1.kept id apart)
    | error _ => exact still.of_untouched writes.1.intact writes.1.catalog (writes.1.kept id (by simp))
  · cases writing with
    | clean => exact still
    | missing resident changed => exact absurd ⟨_, resident, changed⟩ dirty
    | refused resident changed => exact absurd ⟨_, resident, changed⟩ dirty
    | written resident changed => exact absurd ⟨_, resident, changed⟩ dirty

/-- A page that is read anew is as it is stored, and one that cannot be read is gone. -/
theorem reload (still : Undisturbed shown id db) (other : PageId) :
    Op.Permits (reload other) db fun _ after => Undisturbed shown id after := by
  refine (still.intact.ensures_reload other).permits.mono fun result after ended => ?_
  obtain ⟨_, rereads⟩ := ended
  have outcome := rereads.outcome
  refine still.update rereads.intact (fun _ known => rereads.catalog ▸ known) (fun _ _ _ found => ?_)
    fun page there => ?_
  · rwa [Standing.image?, rereads.shown]
  -- The page is as it was, as it is stored, or gone.
  cases lost : loss? db.unreadable db other with
  | none =>
    rw [lost] at outcome
    obtain ⟨fresh, stored, edited⟩ := outcome
    rw [edited, Pool.page?_editResident] at there
    split at there
    · rename_i here
      obtain ⟨_, _, rfl⟩ := Option.map_eq_some_iff.1 there
      exact .inr (here ▸ stored)
    · exact .inl there
  | some failure =>
    rw [lost] at outcome
    rw [outcome, Pool.page?_drop] at there
    split at there
    · cases there
    · exact .inl there

/-- A store may come to fail at any time. -/
theorem setFailing (still : Undisturbed shown id db) (store : Nat) (reads writes : Bool) :
    Op.Permits (onStorage (Storage.onArray store (modify (PageArray.setFailing reads writes)))) db
      fun _ after => Undisturbed shown id after := by
  have switched {storage : Storage} (shows : Storage.Shows db.storage (.memory store)
      { db.storage.view (.memory store) with readsFail := reads, writesFail := writes } storage)
      (same : Storage.SameBytes db.storage storage) : Undisturbed shown id { db with storage } := by
    have image : (standing { db with storage }).image? id = db.standing.image? id := by
      refine image?_of_sameBytes ?_ same id
      rfl
    exact still.update (still.intact.switch shows) (fun _ known => known) (fun _ _ _ found => image.trans found)
      fun _ there => .inl there
  exact .onStorage (Storage.ends_onArray (switched (.setArray rfl) (.setArray rfl)))

/-- Whatever is served without changing the page does not disturb it. -/
theorem endures (id : PageId) (shown : Option Bytes) (catalog : Catalog) :
    Endures catalog (· ≠ id) fun db => db.catalog = catalog ∧ Undisturbed shown id db where
  tables held := held.1
  touch held other := ⟨held.1, held.2.touch other⟩
  bring {db} held other :=
    ((permits_bring_current other db).and (held.2.bring other)).mono fun _ _ ended =>
      ⟨ended.1.2.1.trans held.1, ended.2⟩
  grant held granted := ⟨held.1, held.2.withLocks (held.2.intact.orderly.locks.grant? granted)⟩
  release held other holder := ⟨held.1, held.2.withLocks (held.2.intact.orderly.locks.release other holder)⟩
  append {db number heap} held registered := by
    have known : db.catalog.heap? number = some heap := held.1 ▸ registered
    exact ((permits_onStorage_beyond _ db).and (held.2.append known)).mono fun _ _ ended =>
      ⟨ended.1.eq.2.1.trans held.1, ended.2⟩
  revise held apart resident revises :=
    ⟨held.1, held.2.editOther apart ((Step.revise resident revises).intact held.2.intact)⟩
  mark held apart writes resident :=
    ⟨held.1, held.2.editOther apart ((Step.mark resident writes).intact held.2.intact)⟩
  heaps held := held.2.intact.housed.overHeaps
  writeBack {db} held other :=
    ((held.2.intact.housed.ensures_writeBack other).permits.and (held.2.writeBack other)).mono fun _ _ ended =>
      ⟨ended.1.catalog_eq.trans held.1, ended.2⟩
  reload {db} held other :=
    ((held.2.intact.ensures_reload other).permits.and (held.2.reload other)).mono fun _ _ ended =>
      ⟨ended.1.2.catalog.trans held.1, ended.2⟩
  drop held other := ⟨held.1, held.2.drop other⟩
  count held registered shows := ⟨held.1, held.2.count registered shows⟩
  releaseAll held holder := ⟨held.1, held.2.withLocks (held.2.intact.orderly.locks.releaseAll holder)⟩
  setFailing {db} held store reads writes :=
    ((permits_onStorage_beyond _ db).and (held.2.setFailing store reads writes)).mono fun _ _ ended =>
      ⟨ended.1.eq.2.1.trans held.1, ended.2⟩

/-- A heap may be registered under another number, also in the place of the page's own table. -/
theorem addHeap (still : Undisturbed shown id db) {name : String} {store : StoreId}
    (proper : (Command.addHeap name store).Proper db) (apart : db.catalog.nextNumber ≠ id.table) :
    Op.Permits (addHeap name store) db fun _ after => Undisturbed shown id after := by
  refine ends_addHeap (fun _ => still) fun _ next registered => ?_
  have old : ∀ heap, next.heap? id.table = some heap → db.catalog.heap? id.table = some heap := by
    intro other known
    rcases Catalog.heap?_eq_some_of_registerHeap registered known with ⟨new, _⟩ | ⟨_, _, old⟩
    · exact absurd new.symm apart
    · exact old
  refine still.update (still.intact.registered proper registered) old (fun heap known image found => ?_)
    fun _ there => .inl there
  have same : (standing { db with catalog := next }).shown id.table = db.standing.shown id.table := by
    simp only [standing, old heap known, show next.heap? id.table = some heap from known]
  rwa [Standing.image?, same]

end Undisturbed

end Database

/--
Whether a command that was answered so has changed a page: a record was stored or deleted there.

A heap that is registered under the number of the page's table brings other pages of that name.
-/
def Command.Changes (id : PageId) (db : Database) (result : Except Failure Reply) : Command → Prop
  | insert _ _ _ => ∃ stored place, result = .ok (.stored stored) ∧ stored.place = some place ∧ place.page = id
  | delete _ record => (∃ reply, result = .ok reply) ∧ ∃ place, record.place = some place ∧ place.page = id
  | addHeap _ _ => db.catalog.nextNumber = id.table
  | _ => False

namespace Database

variable {db before after : Database} {id : PageId} {shown : Option Bytes}

/-- Every command leaves a page undisturbed that it does not change. -/
theorem Undisturbed.perform (still : Undisturbed shown id db) {command : Command} (proper : command.Proper db) :
    Op.Permits command.perform db fun result after =>
      ¬ command.Changes id db result → Undisturbed shown id after := by
  have endures := Undisturbed.endures id shown db.catalog
  have held : db.catalog = db.catalog ∧ Undisturbed shown id db := ⟨rfl, still⟩
  have heaps : db.OverHeaps := still.intact.housed.overHeaps
  have others (alike : ¬ command.Recasts) : Op.Permits command.perform db fun result after =>
      ¬ command.Changes id db result → Undisturbed shown id after :=
    (endures.perform held alike).mono fun _ _ ended _ => ended.2
  cases command with
  -- A record that is stored or deleted changes one page, and that is another one.
  | insert transaction table record =>
    refine (endures.insert held (heaps table) transaction record).bind (fun _ _ ended => ?_) ?_
    · obtain ⟨_, _, told, _⟩ := ended
      cases told
    rintro ⟨answer, stored⟩ after ended
    obtain ⟨_, _, told, outcome⟩ := ended
    cases told
    cases answer with
    | error failure => exact .fail fun _ => outcome.2
    | ok _ =>
      obtain ⟨middle, other, page, changed, place, ⟨_, before⟩, resident, inserted, rfl, after⟩ := outcome
      have keeps := before.intact.kept other page resident
      refine .pure fun unchanged => (after fun here => unchanged ⟨_, place, rfl, rfl, ?_⟩).2
      rw [place_of_insertRecord inserted, (Page.sameOwner_insertRecord inserted).1, keeps.name, here]
  | delete transaction record =>
    refine (endures.delete held heaps transaction record).bind (fun _ _ ended _ => ended.2) ?_
    intro _ after ended
    obtain ⟨place, placed, after⟩ := ended
    exact .pure fun unchanged => (after fun here => unchanged ⟨⟨_, rfl⟩, place, placed, here⟩).2
  | addHeap name store =>
    by_cases here : db.catalog.nextNumber = id.table
    · exact (Op.Ends.anywhere _ _).mono fun _ _ _ unchanged => absurd here unchanged
    · exact (still.addHeap proper here).reply.mono fun _ _ still _ => still
  | _ => exact others (by simp [Command.Recasts])

/--
The databases that one becomes while nobody changes a page.

All may be asked for as long as it does not change the page, and callers may ask for locks, change other
pages in memory and make stores on their own.
-/
inductive Spares (id : PageId) (first : Database) : Database → Prop
  | refl : Spares id first first
  | serve {db after : Database} {command : Command} {result : Except Failure Reply}
      (spares : Spares id first db) (proper : command.Proper db)
      (served : db.serve command = .ok (result, after)) (unchanged : ¬ command.Changes id db result) :
      Spares id first after
  | lock {db : Database} {page : PageId} {asker : TransactionId} {mode : LockMode} {locks : Locks}
      (spares : Spares id first db) (granted : db.locks.grant? page asker mode = some locks) :
      Spares id first { db with locks }
  | unlock {db : Database} (page : PageId) (holder : TransactionId) (spares : Spares id first db) :
      Spares id first { db with locks := (db.locks.release page holder).2 }
  | unlockAll {db : Database} (holder : TransactionId) (spares : Spares id first db) :
      Spares id first { db with locks := (db.locks.releaseAll holder).2 }
  | handle {db : Database} {other : PageId} {page changed : Page} (spares : Spares id first db)
      (apart : other ≠ id) (resident : db.pool.page? other = some page) (handles : Handles page changed) :
      Spares id first { db with pool := db.pool.editResident other fun _ => changed }
  | store {db : Database} {storage : Storage} (spares : Spares id first db)
      (same : ∀ number heap, db.catalog.heap? number = some heap →
        storage.view heap.store = db.storage.view heap.store) : Spares id first { db with storage }

/-- While nobody changes a page it stays undisturbed. -/
theorem Undisturbed.spares {first : Database} (still : Undisturbed shown id first)
    (spares : Spares id first db) : Undisturbed shown id db := by
  -- Whatever is done in between is done elsewhere, or to the pages in memory and the locks only.
  induction spares with
  | refl => exact still
  | serve _ proper served unchanged ih => exact run_permits (ih.perform proper) served unchanged
  | lock _ granted ih => exact ih.withLocks (ih.intact.orderly.locks.grant? granted)
  | unlock page holder _ ih => exact ih.withLocks (ih.intact.orderly.locks.release page holder)
  | unlockAll holder _ ih => exact ih.withLocks (ih.intact.orderly.locks.releaseAll holder)
  | handle _ apart resident handles ih =>
    exact ih.editOther apart (ih.intact.editResident fun _ _ => handles.keeps (ih.intact.kept _ _ resident))
  | store _ same ih =>
    have stands := standing_withOthers same
    have intact : Intact _ := ⟨stands ▸ ih.intact.orderly, fun id page there => stands ▸ ih.intact.kept id page there⟩
    exact ih.of_untouched intact rfl ⟨rfl, by rw [stands]⟩

end Database

/-- The page that a command asks for, if it asks for one. -/
def Command.gets? : Command → Option PageId
  | acquire _ page _ => some page
  | start request => some request.page
  | ask request => some request.page
  | _ => none

/-- The copy that is given, if one is. -/
def Reply.copy? : Reply → Option CopyId
  | .copy given => some given
  | .answer (some (.ok given)) => some given
  | _ => none

namespace Database

variable {db : Database} {id : PageId} {shown : Option Bytes} {copy : CopyId}

/-- What a copy holds is the page of the given image. -/
def Presents (shown : Option Bytes) (id : PageId) (db : Database) (copy : CopyId) : Prop :=
  ∃ image page, shown = some image ∧ Page.ofImage id image = .ok page ∧ db.copy? copy = some page

namespace Undisturbed

/-- The resident copy of a page that is undisturbed is as it is stored. -/
theorem presents (still : Undisturbed shown id db) (here : copy.page = id) (current : db.pool.isCurrent copy = true) :
    Presents shown id db copy := by
  obtain ⟨page, resident⟩ := exists_page_of_current current
  obtain ⟨image, same, decoded⟩ := still.held page (here ▸ resident)
  exact ⟨image, page, same, decoded, (Pool.copy?_of_current current).trans resident⟩

/-- Whoever asks for a page that is undisturbed is given it as it is stored, or is given none. -/
theorem gets (still : Undisturbed shown id db) {command : Command} (gets : command.gets? = some id) :
    Op.Permits command.perform db fun result after => ∀ reply copy, result = .ok reply →
      reply.copy? = some copy → Presents shown id after copy := by
  have endures := Undisturbed.endures id shown db.catalog
  have held : db.catalog = db.catalog ∧ Undisturbed shown id db := ⟨rfl, still⟩
  -- Whoever is answered is given the resident copy, and that is as the image says.
  have answered {answer : Option (Except Failure CopyId)} {after : Database}
      (given : ∀ copy, answer = some (.ok copy) → Presents shown id after copy) :
      ∀ reply copy, (.ok (.answer answer) : Except Failure Reply) = .ok reply →
        reply.copy? = some copy → Presents shown id after copy := by
    intro reply copy told asked
    cases told
    unfold Reply.copy? at asked
    split at asked
    · rename_i same
      cases same
    · rename_i same
      cases same
      cases asked
      exact given copy rfl
    · cases asked
  cases command with
  | acquire transaction page access =>
    cases gets
    refine (endures.acquire held transaction id access).bind (by simp) fun copy after ended => .pure ?_
    intro reply other told asked
    cases told
    cases asked
    obtain ⟨here, current, _⟩ := ended.2 copy rfl
    exact ended.1.2.presents here current
  | start request =>
    cases gets
    refine (endures.start held request).bind (by simp) fun answer after ended => .pure (answered ?_)
    rintro copy rfl
    obtain ⟨here, current⟩ := ended.2 copy rfl
    exact ended.1.2.presents here current
  | ask request =>
    cases gets
    refine (endures.ask held request).bind (by simp) fun answer after ended => .pure (answered ?_)
    rintro copy rfl
    obtain ⟨here, current⟩ := ended.2 copy rfl
    exact ended.1.2.presents here current
  | _ => cases gets

end Undisturbed

end Database

end HeapEngine
