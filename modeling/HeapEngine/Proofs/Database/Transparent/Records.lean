import HeapEngine.Proofs.Database.Transparent.Pairs

/-!
Storing, deleting and reading records, in two databases that nobody can tell apart.

One page changes in both, and what it becomes cannot be told apart either.
-/

namespace HeapEngine

/-- A record goes to the same place on both pages, or it is refused by both. -/
theorem Page.Twins.insertRecord {a b : Page} (twins : a.Twins b) (record : Record) :
    Outcome.Alike (fun x y => x.1.Twins y.1 ∧ x.2 = y.2) (a.insertRecord record)
      (b.insertRecord record) := by
  refine (twins.insert record.encode).bind fun x y same => ?_
  obtain ⟨twins, slot⟩ := same
  exact .result ⟨twins, by rw [twins.id, slot]⟩

/-- Both pages show the same records. -/
theorem Page.Twins.records {a b : Page} (twins : a.Twins b) (sound : a.Sound) : a.records = b.records := by
  rw [sound.records_eq, (twins.agrees.sound sound).records_eq, twins.id, twins.agrees.cells sound]

namespace Scan

/-- No page could be dropped for the next one of a scan, which told it and is at its end. -/
def Stuck (scan : Scan) (answer : Item × Scan) (_ : Database) : Prop :=
  (∃ capacity, answer.1 = .failure (.poolFull capacity)) ∧ answer.2.ended = true ∧ answer.2.heap = scan.heap

/-- Some item tells that no page could be dropped. -/
def Starved (answer : List Item × Scan) (_ : Database) : Prop :=
  ∃ capacity, .failure (.poolFull capacity) ∈ answer.1

/-- Goes on after one item, unless it was the last one. -/
def goOn (count : Nat) : Item × Scan → Op Database (List Item × Scan)
  | (.done, scan) => return ([.done], scan)
  | (item, scan) => do
    let (items, scan) ← scan.take count
    return (item :: items, scan)

theorem take_succ (scan : Scan) (count : Nat) : scan.take (count + 1) = scan.next >>= goOn count := by
  rfl

end Scan

namespace Database

variable {kind : ImageKind} {a b db : Database} {α : Type} {exhausted : α → Database → Prop}
  {asker : TransactionId} {id : PageId} {x y : CopyId} {heap : Heap} {number : Nat}

/-- What a page becomes in both databases when its writer changes it. -/
structure EditsBoth (kind : ImageKind) (asker : TransactionId) (id : PageId) (x y : CopyId)
    (changed other : Page) (a b : Database) : Prop where
  both : Both kind id x y a b
  writes : a.locks.isWriter id asker = true
  evolves : ∀ page, a.pool.page? id = some page → page.Evolves changed
  twins : changed.Twins other

/-- The writer of a page has changed it in both databases, where it is not marked yet. -/
def Edited (kind : ImageKind) (asker : TransactionId) (x y : CopyId) (a b : Database) : Prop :=
  ∃ id changed other first second, EditsBoth kind asker id x y changed other first second
    ∧ a = { first with pool := first.pool.editResident id fun _ => changed }
    ∧ b = { second with pool := second.pool.editResident id fun _ => other }

/-- The writer of a page that was changed in memory adopts it, and it has changes from then on. -/
theorem Settled.ensures_adopt (settled : db.Settled kind) {copy : CopyId} {page changed : Page}
    (here : copy.page = id) (writes : db.locks.isWriter id asker = true)
    (current : db.pool.isCurrent copy = true) (resident : db.pool.page? id = some page)
    (name : changed.id = page.id) (sound : changed.Sound) (size : changed.size = page.size) :
    Op.Ensures (adopt asker copy) { db with pool := db.pool.editResident id fun _ => changed }
      fun result after => result = .ok () ∧ after.Settled kind
        ∧ after.standing = db.standing.withUnwritten id (some (changed.markChanged asker)) := by
  subst here
  have suits := settled.cached _ page resident
  refine (Database.ensures_adopt writes current resident).mono fun result after ended => ?_
  obtain ⟨told, pool, rfl, seen⟩ := ended
  refine ⟨told, settled.seen seen fun held marked => ?_⟩
  cases marked
  have agrees := Page.Agrees.markChanged changed asker
  refine ⟨name.trans suits.name, agrees.sound sound, size.trans suits.size, fun clean => ?_, suits.placed⟩
  -- A marked page is not clean.
  cases clean

/-- Appending a page lets a heap grow by the image of an empty one. -/
theorem Settled.ensures_append (settled : db.Settled kind)
    (registered : db.catalog.heap? number = some heap) :
    Op.Ensures (onStorage (Storage.append heap.store)) db fun result after =>
      result = .ok (db.standing.shown number).images.length ∧ ∃ image,
        (Page.empty ⟨0, (db.standing.shown number).images.length⟩
          (db.standing.shown number).pageSize).image = .ok image ∧ after.Settled kind
        ∧ after.standing = db.standing.withShown number { db.standing.shown number with
          images := (db.standing.shown number).images ++ [image] } := by
  refine (settled.intact.housed.ensures_append registered).mono fun result after ended => ?_
  rw [← shown_eq registered] at ended
  obtain ⟨told, image, storage, rfl, encoded, long, allowed, shows⟩ := ended
  exact ⟨told, image, encoded, settled.append registered encoded long (allowed kind) shows⟩

/-- A page that was changed in both is adopted in both. -/
theorem Edited.adopt (edited : Edited kind asker x y a b) :
    Pairs kind Never (adoptAll asker [x]) (adoptAll asker [y]) a b fun _ _ => Similar kind := by
  obtain ⟨id, changed, other, first, second, ⟨both, writes, evolves, twins⟩, rfl, rfl⟩ := edited
  obtain ⟨p, q, resident, there, pages⟩ := both.exists_pages
  have similar := both.similar
  have evolves := evolves p resident
  have adopts := similar.left.ensures_adopt both.here writes both.current resident evolves.id evolves.sound
    evolves.size
  have adoptsOther := similar.right.ensures_adopt both.there (similar.locks_eq ▸ writes) both.currentOther there
    (twins.id.symm.trans (evolves.id.trans pages.twins.id)) (twins.agrees.sound evolves.sound)
    (twins.agrees.size.symm.trans (evolves.size.trans pages.twins.agrees.size))
  unfold adoptAll
  refine Pairs.bind (.of_ensures adopts adoptsOther ?_) fun _ _ _ _ similar => .pure similar
  rintro _ _ a' b' ⟨rfl, settled, stands⟩ ⟨rfl, settledOther, standsOther⟩
  refine .inr (.inr ⟨settled, settledOther, ?_⟩)
  rw [stands, standsOther]
  have agrees := (Page.Agrees.markChanged changed asker).symm.trans twins.agrees
  have marked : (changed.markChanged asker).Matches (other.markChanged asker) :=
    ⟨⟨twins.id, agrees.trans (.markChanged other asker)⟩, rfl⟩
  exact similar.standing.withUnwritten (.some marked) _

/-- The writer of a page changes it in both databases, or in neither. -/
theorem Both.changeCopy {change : Page → Outcome (Page × α)} (both : Both kind id x y a b)
    (writes : a.locks.isWriter id asker = true)
    (alike : ∀ p q, p.Sound → p.Twins q →
      Outcome.Alike (fun x y => x.1.Twins y.1 ∧ x.2 = y.2) (change p) (change q))
    (ends : ∀ p, p.Sound → (∃ changed value, change p = .ok (changed, value) ∧ p.Evolves changed)
      ∨ ∃ failure, change p = fail failure) :
    Pairs kind Never (changeCopy x change) (changeCopy y change) a b
      fun v w a' b' => v = w ∧ Edited kind asker x y a' b' := by
  obtain ⟨p, q, resident, there, pages⟩ := both.exists_pages
  obtain ⟨similar, rfl, same, current, currentOther⟩ := both
  have sound := (similar.left.cached _ p resident).sound
  have told := alike p q sound pages.twins
  rcases ends p sound with ⟨changed, value, done, evolves⟩ | ⟨failure, refused⟩
  · -- The change was made to one page, so it was made to the other one.
    rw [done] at told
    cases again : change q with
    | error fault => rw [again] at told; cases told
    | ok result =>
      obtain ⟨other, value⟩ := result
      rw [again] at told
      cases told with
      | result held =>
        obtain ⟨twins, rfl⟩ := held
        have left : change p = Outcome.ofResult (.ok (changed, value)) := done
        have right : change q = Outcome.ofResult (.ok (other, value)) := again
        refine .of_ensures (ensures_changeCopy current resident left)
          (ensures_changeCopy currentOther (same ▸ there) right) ?_
        rintro _ _ _ _ ⟨rfl, rfl⟩ ⟨rfl, rfl⟩
        refine .inr (.inr ⟨rfl, _, changed, other, a, b, ?_, rfl, by rw [same]⟩)
        refine ⟨⟨similar, rfl, same, current, currentOther⟩, writes, fun page held => ?_, twins⟩
        cases held.symm.trans resident
        exact evolves
  · -- It was refused by one page, so it was refused by the other one with the same failure.
    rw [refused] at told
    cases again : change q with
    | ok result => rw [again] at told; cases told
    | error fault =>
      rw [again] at told
      cases told
      have left : change p = Outcome.ofResult (.error failure) := refused
      have right : change q = Outcome.ofResult (.error failure) := again
      refine .of_ensures (ensures_changeCopy current resident left)
        (ensures_changeCopy currentOther (same ▸ there) right) ?_
      rintro _ _ _ _ ⟨rfl, rfl⟩ ⟨rfl, rfl⟩
      exact .inr (.inr ⟨rfl, similar⟩)

namespace Similar

/-- A record goes on a page in both databases, or in neither. -/
theorem insertAt (similar : Similar kind a b) (asker : TransactionId) (id : PageId) {record : Record}
    (addressable : record.encode.length + Page.entrySize < Page.sizeLimit) :
    Pairs kind Never (insertAt asker id record) (insertAt asker id record) a b
      fun x y a' b' => x.2 = y.2 ∧ Edited kind asker x.1 y.1 a' b' := by
  refine (similar.acquire asker id .writing).bind fun x y given other ended => ?_
  obtain ⟨both, writes⟩ := ended
  refine (both.changeCopy (writes rfl) (fun p q _ twins => twins.insertRecord record) ?_).bind ?_
  · intro p sound
    rcases sound.insertRecord_ends addressable with ⟨changed, place, inserted, evolves, _⟩ | refused
    · exact .inl ⟨changed, place, inserted, evolves⟩
    · exact .inr ⟨_, refused⟩
  · exact fun place same after last ended => .pure ended

/-- The search for a page with room came to the same in both databases. -/
def Found (kind : ImageKind) (asker : TransactionId) :
    Option (CopyId × RecordId) → Option (CopyId × RecordId) → Database → Database → Prop
  | none, none, a, b => Similar kind a b
  | some x, some y, a, b => x.2 = y.2 ∧ Edited kind asker x.1 y.1 a b
  | _, _, _, _ => False

/-- Both databases have the first page with room under the same number, or neither has one. -/
theorem insertFrom (similar : Similar kind a b) (heap : Heap) (asker : TransactionId) {record : Record}
    (addressable : record.encode.length + Page.entrySize < Page.sizeLimit) (left number : Nat) :
    Pairs kind Never (insertFrom heap asker record record.encode.length left number)
      (insertFrom heap asker record record.encode.length left number) a b (Found kind asker) := by
  -- One page is looked at in each step, and what follows begins at two similar databases.
  induction left generalizing a b number with
  | zero => exact .pure similar
  | succ left ih =>
    unfold insertFrom
    refine .get_bind ?_
    rw [← similar.locks_eq]
    refine (similar.acquire asker (heap.page number) .reading).bind fun x y given other ended => ?_
    refine ended.1.lookAt.bind fun p q _ _ looked => ?_
    obtain ⟨rfl, rfl, resident, _, pages⟩ := looked
    have similar := ended.1.similar
    have sound := (similar.left.cached _ p resident).sound
    rw [← pages.twins.agrees.fits]
    have counted : p.fits record.encode.length = Outcome.ofResult (.ok _) := sound.fits_eq addressable
    refine .ofOutcome_bind similar counted fun room _ => .ite (fun _ => ?_) fun _ => ?_
    · refine (similar.insertAt asker (heap.page number) addressable).bind fun stored again _ _ ended => ?_
      exact .pure ended
    · refine .ite (fun _ => ?_) fun _ => ih similar (number + 1)
      exact (similar.releaseEarly asker (heap.page number)).bind fun _ _ _ _ similar =>
        ih similar (number + 1)

/-- A page is appended to a heap in both databases, under the same number. -/
theorem append (similar : Similar kind a b) (registered : a.catalog.heap? number = some heap) :
    Pairs kind Never (onStorage (Storage.append heap.store)) (onStorage (Storage.append heap.store)) a b
      (Same kind) := by
  have there : b.catalog.heap? number = some heap := similar.catalog_eq ▸ registered
  refine .of_ensures (similar.left.ensures_append registered) (similar.right.ensures_append there) ?_
  rintro _ _ a' b' ⟨rfl, image, encoded, settled, stands⟩ ⟨rfl, other, again, settledOther, standsOther⟩
  rw [← similar.standing.shown] at again standsOther ⊢
  cases encoded.symm.trans again
  refine .inr (.inr ⟨rfl, settled, settledOther, ?_⟩)
  rw [stands, standsOther]
  exact similar.standing.withShown _ _

/-- A record goes into a heap in both databases, or into neither. -/
theorem insertInHeap (similar : Similar kind a b) (asker : TransactionId)
    (registered : a.catalog.heap? number = some heap) (record : Record) :
    Pairs kind Never (insertInHeap heap asker record) (insertInHeap heap asker record) a b
      fun x y a' b' => x.2 = y.2 ∧ Edited kind asker x.1 y.1 a' b' := by
  have there : b.catalog.heap? number = some heap := similar.catalog_eq ▸ registered
  obtain ⟨size, least, most⟩ := similar.left.intact.housed.pageSize registered
  have sizeOther := (similar.right.intact.housed.pageSize there).1
  rw [Storage.pageSize_view] at size sizeOther
  have same : a.settings.pageSize = b.settings.pageSize := similar.standing.pageSize
  unfold Database.insertInHeap
  refine .get_bind ?_
  rw [size, sizeOther, ← same]
  -- A page is larger than its header and one entry, so the largest cell is told.
  have largest : Page.largestCell a.settings.pageSize
      = Outcome.ofResult (.ok (a.settings.pageSize - Page.headerSize - Page.entrySize)) := by
    rw [Page.largestCell, if_neg]
    · rfl
    · simp only [Page.headerSize, Page.entrySize]
      omega
  refine .ofOutcome_bind similar largest fun _ told => ?_
  cases told
  refine .ite (fun _ => .fail similar) fun small => ?_
  -- What fits a page is far from filling the memory.
  have addressable : record.encode.length + Page.entrySize < Page.sizeLimit := by
    simp only [Page.headerSize, Page.entrySize, Page.sizeLimit] at small ⊢
    omega
  refine (similar.heapPageCount registered).bind fun count _ _ _ counted => ?_
  obtain ⟨rfl, rfl, rfl⟩ := counted
  -- The search registers no table, so the heap is registered still.
  have keeps {db : Database} (intact : db.Intact) (known : db.catalog.heap? number = some heap) :
      Op.Permits (Database.insertFrom heap asker record record.encode.length count 0) db
        fun _ after => after.catalog.heap? number = some heap :=
    Op.Ends.mono (intact.housed.moves_insertFrom heap asker record _ count 0) fun _ _ ended => ended.1.heap? known
  have searched := similar.insertFrom heap asker addressable count 0
  refine (searched.permitted (keeps similar.left.intact registered) (keeps similar.right.intact there)).bind_lost
    (fun _ _ lost => lost.1.elim) (fun _ _ lost => lost.1.elim) fun x y a' b' ended => ?_
  obtain ⟨found, known⟩ := ended
  cases x with
  | some x =>
    cases y with
    | some y => exact .pure found
    | none => exact found.elim
  | none =>
    cases y with
    | some y => exact found.elim
    | none =>
      -- No page has room in either, so both append one, under the same number.
      have similar : Similar kind a' b' := found
      refine (similar.append known).bind fun place other _ _ ended => ?_
      obtain ⟨rfl, grown⟩ := ended
      exact grown.insertAt asker (heap.page place) addressable

/-- A record is stored in both databases under the same place, or in neither. -/
theorem insert (similar : Similar kind a b) (asker : TransactionId) (number : Nat) (record : Record) :
    Pairs kind (fun answer _ => ∃ capacity, answer.1 = .error (.poolFull capacity))
      (insert asker number record) (insert asker number record) a b (Same kind) := by
  unfold Database.insert
  refine .get_bind ?_
  rw [← similar.catalog_eq]
  cases registered : a.catalog.heap? number with
  | none =>
    have none : a.catalog.find number = _ := similar.left.orderly.find_eq_error registered
    rw [none]
    exact .pure ⟨rfl, similar⟩
  | some heap =>
    have some : a.catalog.find number = _ := similar.left.orderly.find_eq_ok registered
    rw [some]
    -- The heap gives the changed page in both, or fails alike, or one run tells that it is lost.
    have inTable : Pairs kind (fun answer _ => ∃ capacity, answer.1 = .error (.poolFull capacity))
        (insertInTable number (.heap heap) asker record) (insertInTable number (.heap heap) asker record)
        a b fun x y a' b' => x.2 = y.2
          ∧ ((∃ failure, x.1 = .error failure ∧ y.1 = .error failure ∧ Similar kind a' b')
            ∨ ∃ v w, x.1 = .ok [v] ∧ y.1 = .ok [w] ∧ Edited kind asker v w a' b') := by
      refine (similar.insertInHeap asker registered record).attempt_bind ?_ ?_ ?_ ?_
      · exact fun capacity after => ⟨capacity, rfl⟩
      · exact fun capacity after => ⟨capacity, rfl⟩
      · exact fun failure a' b' similar => .pure ⟨rfl, .inl ⟨failure, rfl, rfl, similar⟩⟩
      · intro x y a' b' ended
        exact .pure ⟨by rw [ended.1], .inr ⟨x.1, y.1, rfl, rfl, ended.2⟩⟩
    refine inTable.bind_lost ?_ ?_ ?_
    · rintro ⟨_, stored⟩ after ⟨capacity, rfl⟩
      exact ⟨capacity, rfl⟩
    · rintro ⟨_, stored⟩ after ⟨capacity, rfl⟩
      exact ⟨capacity, rfl⟩
    · rintro ⟨_, stored⟩ ⟨_, other⟩ a' b' ⟨same, ended⟩
      obtain rfl : stored = other := same
      rcases ended with ⟨failure, rfl, rfl, similar⟩ | ⟨v, w, rfl, rfl, edited⟩
      · exact .pure ⟨rfl, similar⟩
      · refine edited.adopt.attempt_bind ?_ ?_ ?_ ?_
        · exact fun capacity after => ⟨capacity, rfl⟩
        · exact fun capacity after => ⟨capacity, rfl⟩
        · exact fun failure a' b' similar => .pure ⟨rfl, similar⟩
        · exact fun x y a' b' similar => .pure ⟨rfl, similar⟩

/-- A record is deleted in both databases, or in neither. -/
theorem delete (similar : Similar kind a b) (asker : TransactionId) (record : Record) :
    Pairs kind Never (delete asker record) (delete asker record) a b fun _ _ => Similar kind := by
  unfold Database.delete
  cases placed : record.place with
  | none => exact .fail similar
  | some place =>
    refine similar.tableAt_bind fun heap registered => ?_
    have erased : Pairs kind Never (deleteFromTable place.page.table (.heap heap) asker record)
        (deleteFromTable place.page.table (.heap heap) asker record) a b (Edited kind asker) := by
      unfold deleteFromTable deleteFromHeap
      simp only [placed]
      refine .ite (fun _ => .fail similar) fun _ => ?_
      refine (similar.acquire asker place.page .writing).bind fun x y given other ended => ?_
      obtain ⟨both, writes⟩ := ended
      refine (both.changeCopy (writes rfl) (fun p q sound twins => ?_) ?_).bind ?_
      · exact (twins.eraseRecord sound record).bind fun _ _ same => .result ⟨same, rfl⟩
      · intro p sound
        rcases sound.eraseRecord_ends record with ⟨changed, _, _, erased, evolves, _⟩ | ⟨failure, refused⟩
        · exact .inl ⟨changed, (), by rw [erased]; rfl, evolves⟩
        · exact .inr ⟨failure, by rw [refused]; rfl⟩
      · exact fun _ _ _ _ ended => .pure ended.2
    exact erased.bind fun x y _ _ edited => edited.adopt

/-- The records of the page that comes next are the same in both databases. -/
theorem nextRecords (similar : Similar kind a b) (scan : Scan) :
    Pairs kind Never scan.nextRecords scan.nextRecords a b (Same kind) := by
  refine (similar.acquire scan.transaction _ .reading).bind fun x y _ _ given => ?_
  refine given.1.lookAt.bind fun p q _ _ looked => ?_
  obtain ⟨rfl, rfl, resident, _, pages⟩ := looked
  have similar := given.1.similar
  have sound := (similar.left.cached _ p resident).sound
  rw [← pages.twins.records sound]
  exact .ofOutcome similar sound.records_eq fun _ => ⟨rfl, similar⟩

/-- A scan goes on to the same item in both databases, unless it is stuck in one of them. -/
theorem advance (similar : Similar kind a b) (limit : Nat) (scan : Scan) :
    Pairs kind scan.Stuck (Scan.advance limit scan) (Scan.advance limit scan) a b
      fun x y a' b' => x = y ∧ y.2.heap = scan.heap ∧ Similar kind a' b' := by
  -- Every page that is gone over is one of those left.
  induction limit generalizing a b scan with
  | zero =>
    unfold Scan.advance
    refine .ite (fun _ => .pure ⟨rfl, rfl, similar⟩) fun _ => ?_
    cases scan.pending with
    | nil => exact .pure ⟨rfl, rfl, similar⟩
    | cons record rest => exact .pure ⟨rfl, rfl, similar⟩
  | succ limit ih =>
    unfold Scan.advance
    refine .ite (fun _ => .pure ⟨rfl, rfl, similar⟩) fun _ => ?_
    cases scan.pending with
    | cons record rest => exact .pure ⟨rfl, rfl, similar⟩
    | nil =>
      -- A page that cannot be got ends the scan, and a page without records lets it go on.
      refine (similar.nextRecords scan).attempt_bind ?_ ?_ ?_ ?_
      · exact fun capacity after => ⟨⟨capacity, rfl⟩, rfl, rfl⟩
      · exact fun capacity after => ⟨⟨capacity, rfl⟩, rfl, rfl⟩
      · exact fun failure a' b' similar => .pure ⟨rfl, rfl, similar⟩
      · rintro records _ a' b' ⟨rfl, similar⟩
        exact ih similar _

/-- The next item is the same in both databases, and its heap is registered still. -/
theorem next (similar : Similar kind a b) {scan : Scan}
    (registered : a.catalog.heap? number = some scan.heap) :
    Pairs kind (fun answer after => scan.Stuck answer after ∧ after.Intact
        ∧ after.catalog.heap? number = some scan.heap)
      scan.next scan.next a b fun x y a' b' => (x = y ∧ y.2.heap = scan.heap ∧ Similar kind a' b')
        ∧ a'.Intact ∧ a'.catalog.heap? number = some scan.heap := by
  have there : b.catalog.heap? number = some scan.heap := similar.catalog_eq ▸ registered
  have next : Pairs kind scan.Stuck scan.next scan.next a b
      fun x y a' b' => x = y ∧ y.2.heap = scan.heap ∧ Similar kind a' b' := by
    refine (similar.heapPageCount registered).bind fun pages _ _ _ counted => ?_
    obtain ⟨rfl, rfl, rfl⟩ := counted
    exact similar.advance (pages - scan.page) scan
  have keeps {db : Database} (intact : db.Intact) (known : db.catalog.heap? number = some scan.heap) :
      Op.Permits scan.next db fun _ after => after.Intact ∧ after.catalog.heap? number = some scan.heap :=
    Op.Ends.mono (intact.housed.moves_next scan) fun _ _ ended => ⟨ended.1.intact intact, ended.1.heap? known⟩
  exact next.permitted (keeps similar.left.intact registered) (keeps similar.right.intact there)

end Similar

/-- A scan at its end changes nothing any more. -/
theorem Intact.take_ended (intact : db.Intact) {scan : Scan}
    (registered : db.catalog.heap? number = some scan.heap) (ended : scan.ended = true) (count : Nat) :
    ∃ items, scan.take count db = .ok (items, scan) db := by
  cases count with
  | zero => exact ⟨[], rfl⟩
  | succ count =>
    refine ⟨[.done], ?_⟩
    unfold Scan.take Scan.next Scan.advance
    simp only [ended, ↓reduceIte, bind, EStateM.bind, intact.housed.heapPageCount_eq registered]
    rfl

/-- A scan that is stuck tells it in its items. -/
theorem Intact.lost_goOn (intact : db.Intact) {scan : Scan}
    (registered : db.catalog.heap? number = some scan.heap) {answer : Scan.Item × Scan}
    (stuck : scan.Stuck answer db) (count : Nat) :
    Lost Scan.Starved (Scan.goOn count answer db) := by
  obtain ⟨item, later⟩ := answer
  obtain ⟨⟨capacity, rfl⟩, ended, same⟩ := stuck
  -- The scan is at its end, so nothing more is looked for.
  obtain ⟨items, ran⟩ := intact.take_ended (same ▸ registered) ended count
  simp only [Scan.goOn, bind, EStateM.bind, ran]
  exact ⟨capacity, List.mem_cons_self⟩

/-- Both databases give the same items of a heap, unless one of them tells that no page could be dropped. -/
theorem Similar.take (similar : Similar kind a b) {scan : Scan}
    (registered : a.catalog.heap? number = some scan.heap) (count : Nat) :
    Pairs kind Scan.Starved (scan.take count) (scan.take count) a b (Same kind) := by
  -- Each item is one step, after which the heap is registered still.
  induction count generalizing a b scan with
  | zero => exact .pure ⟨rfl, similar⟩
  | succ count ih =>
    rw [Scan.take_succ]
    have lost : ∀ value after, scan.Stuck value after ∧ after.Intact
        ∧ after.catalog.heap? number = some scan.heap → Lost Scan.Starved (Scan.goOn count value after) :=
      fun _ _ gone => gone.2.1.lost_goOn gone.2.2 gone.1 count
    refine (similar.next registered).bind_lost lost lost ?_
    rintro ⟨item, later⟩ _ a' b' ⟨⟨rfl, same, similar⟩, _, known⟩
    -- After a record and after a failure the scan goes on alike.
    have onwards : Pairs kind Scan.Starved (later.take count >>= fun rest => pure (item :: rest.1, rest.2))
        (later.take count >>= fun rest => pure (item :: rest.1, rest.2)) a' b' (Same kind) := by
      have told : ∀ rest after, Scan.Starved rest after → Scan.Starved (item :: rest.1, rest.2) after :=
        fun _ _ gone => gone.imp fun _ member => List.mem_cons_of_mem _ member
      refine (ih similar (same ▸ known)).bind_lost told told fun rest _ _ _ ended => ?_
      obtain ⟨rfl, similar⟩ := ended
      exact .pure ⟨rfl, similar⟩
    cases item with
    | done => exact .pure ⟨rfl, similar⟩
    | record record => exact onwards
    | failure failure => exact onwards

end Database

end HeapEngine
