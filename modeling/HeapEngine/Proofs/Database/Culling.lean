import HeapEngine.Proofs.Database.Erasing
import HeapEngine.Proofs.Database.Traversal

/-!
Records may be deleted while a scan gives them.

Deleting a record packs its page and may shorten its directory. The scan has left that page behind, and what it is
still to give is in its hands or on pages that it has not come to.
-/

namespace HeapEngine

namespace Scan

open Database

variable {kind : ImageKind} {db now after : Database} {heap : Heap} {asker : TransactionId} {scan later : Scan}
  {item : Item} {items : List Item} {deleted : List Record} {record : Record}

/-- The record that a call gives, if it gives one. -/
def Item.record? : Item → Option Record
  | .record record => some record
  | .failure _ => none
  | .done => none

/-- The records that calls have given. -/
def given (items : List Item) : List Record := items.filterMap Item.record?

theorem mem_given : record ∈ given items ↔ .record record ∈ items := by
  rw [given, List.mem_filterMap]
  constructor
  · rintro ⟨item, member, told⟩
    cases item <;> cases told
    exact member
  · exact fun member => ⟨_, member, rfl⟩

@[simp] theorem given_append_record (items : List Item) (record : Record) :
    given (items ++ [.record record]) = given items ++ [record] := by
  rw [given, List.filterMap_append]
  rfl

@[simp] theorem given_append_failure (items : List Item) (failure : Failure) :
    given (items ++ [.failure failure]) = given items := by
  rw [given, List.filterMap_append]
  exact List.append_nil _

@[simp] theorem given_append_done (items : List Item) : given (items ++ [.done]) = given items := by
  rw [given, List.filterMap_append]
  exact List.append_nil _

/--
A transaction goes over a heap, and in between deletes records that it was given, each of them once.

The calls have given the items, and the deleted records are in the order in which they were deleted.
-/
inductive Culls (db : Database) (heap : Heap) (asker : TransactionId) :
    Scan → Database → List Item → List Record → Prop
  | start : Culls db heap asker (start heap asker) db [] []
  | next {scan later : Scan} {now after : Database} {items : List Item} {deleted : List Record} {item : Item}
      (culls : Culls db heap asker scan now items deleted) (ran : scan.next now = .ok (item, later) after) :
      Culls db heap asker later after (items ++ [item]) deleted
  | delete {scan : Scan} {now after : Database} {items : List Item} {deleted : List Record} {record : Record}
      (culls : Culls db heap asker scan now items deleted) (among : .record record ∈ items)
      (once : record ∉ deleted) (ran : delete asker record now = .ok () after) :
      Culls db heap asker scan after items (deleted ++ [record])

/-- How far a scan has come over the pages as they were at first. -/
inductive Reached (db : Database) (heap : Heap) (scan : Scan) (items : List Item) : Prop
  | running (running : scan.ended = false) (within : scan.page ≤ db.standing.count heap)
      (lists : db.ListsAll heap 0 scan.page (given items ++ scan.pending)) (silent : .done ∉ items)
  /-- It has come to the last page, or a failure has ended it. -/
  | ended {last : Nat} (ended : scan.ended = true) (nothing : scan.pending = [])
      (within : last ≤ db.standing.count heap) (lists : db.ListsAll heap 0 last (given items ++ scan.pending))
      (whole : last = db.standing.count heap ∨ ∃ failure, .failure failure ∈ items)

/-- What holds between the calls and deletions of a transaction that goes over a heap. -/
structure Midway (kind : ImageKind) (db : Database) (heap : Heap) (asker : TransactionId) (scan : Scan)
    (now : Database) (items : List Item) (deleted : List Record) : Prop where
  coherent : now.Coherent kind
  catalog : now.catalog = db.catalog
  shown : now.standing.shown = db.standing.shown
  aims : scan.heap = heap ∧ scan.transaction = asker
  alone : ∀ number holder, now.locks.holds (heap.page number) holder = true → holder = asker
  reached : Reached db heap scan items
  /-- The pages that it has not come to are as they were. -/
  ahead : ∀ number records, scan.ended = false → scan.page ≤ number →
    (now.Lists (heap.page number) records ↔ db.Lists (heap.page number) records)
  held : ∀ record ∈ given items ++ scan.pending, ∀ place, record.place = some place →
    now.locks.holds place.page asker = true
  cells : ∀ place other, db.catalog.heap? place.page.table = some other →
    now.cell? place = if some place ∈ deleted.map Record.place then none else db.cell? place
  chosen : ∀ record ∈ deleted, .record record ∈ items

/-- The records that a scan has given and is to give next are those of the pages that it has come over. -/
theorem Reached.exists_lists (reached : Reached db heap scan items) :
    ∃ last, last ≤ db.standing.count heap ∧ db.ListsAll heap 0 last (given items ++ scan.pending)
      ∧ (scan.ended = false → last = scan.page) := by
  cases reached with
  | running _ within lists _ => exact ⟨scan.page, within, lists, fun _ => rfl⟩
  | ended ended _ within lists _ => exact ⟨_, within, lists, fun running => by cases ended.symm.trans running⟩

/-- A scan that goes on has given the records of the pages behind it, but for those that are to be given next. -/
theorem Reached.of_running (reached : Reached db heap scan items) (running : scan.ended = false) :
    scan.page ≤ db.standing.count heap ∧ db.ListsAll heap 0 scan.page (given items ++ scan.pending)
      ∧ .done ∉ items := by
  cases reached with
  | running _ within lists silent => exact ⟨within, lists, silent⟩
  | ended past => cases past.symm.trans running

/-- A scan that goes on after a step went on before it, and no page is behind it that was not. -/
theorem Turn.page_le (turn : Turn db scan item later) (running : later.ended = false) :
    scan.ended = false ∧ scan.page ≤ later.page := by
  cases turn with
  | idle ended => cases running.symm.trans ended
  | pending running _ => exact ⟨running, Nat.le_refl _⟩
  | exhausted => cases running
  | found running _ from_ _ _ _ => exact ⟨running, Nat.le_succ_of_le from_⟩
  | failed => cases running

/-- A step leads on over the pages as they were at first. -/
theorem Reached.turn (reached : Reached db scan.heap scan items) (turn : Turn now scan item later)
    (shown : now.standing.shown = db.standing.shown)
    (ahead : ∀ number records, scan.ended = false → scan.page ≤ number →
      (now.Lists (scan.heap.page number) records ↔ db.Lists (scan.heap.page number) records)) :
    Reached db scan.heap later (items ++ [item]) := by
  have count : now.standing.count scan.heap = db.standing.count scan.heap := by
    rw [Standing.count, shown, Standing.count]
  cases turn with
  | idle past =>
    -- A scan that has ended gives nothing more, so what it gave stays what it was.
    cases reached with
    | running running => cases past.symm.trans running
    | ended _ nothing within lists whole =>
      refine .ended past nothing within ?_ (whole.imp_right (Exists.imp fun _ => List.mem_append_left _))
      rwa [given_append_done]
  | pending running waiting =>
    -- A record goes from those to be given next to those that were given, and the list of both is the same.
    obtain ⟨within, lists, silent⟩ := reached.of_running running
    refine .running running within ?_ (by simp [silent])
    rw [waiting] at lists
    rwa [given_append_record, List.append_assoc, List.singleton_append]
  | exhausted running nothing empty =>
    obtain ⟨within, lists, _⟩ := reached.of_running running
    have rest := ListsAll.of_empty within fun number from_ below =>
      (ahead number [] running from_).1 (empty number from_ (count ▸ below))
    have whole := lists.append rest
    refine .ended rfl rfl (Nat.le_refl _) ?_ (.inl rfl)
    rw [nothing, List.append_nil] at whole
    rwa [given_append_done]
  | @found number record rest running nothing from_ below empty more =>
    -- The pages gone over without a record add nothing, and the one that was found adds its records.
    obtain ⟨_, lists, silent⟩ := reached.of_running running
    have here := ListsAll.of_found from_
      (fun earlier from_ less => (ahead earlier [] running from_).1 (empty earlier from_ less))
      ((ahead number _ running from_).1 more)
    have whole := lists.append here
    refine .running running (count ▸ below) ?_ (by simp [silent])
    rw [nothing, List.append_nil] at whole
    rwa [given_append_record, List.append_assoc, List.singleton_append]
  | @failed number met failure running nothing =>
    -- The pages before the one that failed gave nothing, so the scan need not have come further than before.
    obtain ⟨within, lists, _⟩ := reached.of_running running
    refine .ended rfl rfl within ?_ (.inr ⟨failure, by simp⟩)
    rw [nothing] at lists
    rwa [given_append_failure]

/-- The pages of all records that were given or are to be given next are held. -/
theorem Passes.held_given (passes : Passes now scan item later after)
    (held : ∀ record ∈ given items ++ scan.pending, ∀ place, record.place = some place →
      now.locks.holds place.page scan.transaction = true) :
    ∀ record ∈ given (items ++ [item]) ++ later.pending, ∀ place, record.place = some place →
      after.locks.holds place.page scan.transaction = true := by
  intro record member place placed
  have kept : record ∈ given items ++ scan.pending → after.locks.holds place.page scan.transaction = true :=
    fun old => passes.advances.holds _ (held record old place placed)
  cases passes.turn with
  | idle => exact kept (by simpa using member)
  | pending _ waiting => exact kept (by simpa [waiting] using member)
  | exhausted => exact kept (List.mem_append_left _ (by simpa using member))
  | failed => exact kept (List.mem_append_left _ (by simpa using member))
  | @found number first rest _ nothing _ _ _ lists =>
    rw [given_append_record, List.append_assoc, List.singleton_append] at member
    rcases List.mem_append.1 member with old | new
    · exact kept (List.mem_append_left _ old)
    · -- The record is on the page that the scan has come to.
      obtain ⟨_, _, _, rfl⟩ := (lists.mem_iff record).1 new
      cases placed
      exact passes.held first rfl nothing

namespace Midway

/-- At first nothing is given and nothing is deleted. -/
theorem start (coherent : db.Coherent kind)
    (alone : ∀ number holder, db.locks.holds (heap.page number) holder = true → holder = asker) :
    Midway kind db heap asker (start heap asker) db [] [] where
  coherent := coherent
  catalog := rfl
  shown := rfl
  aims := ⟨rfl, rfl⟩
  alone := alone
  reached := .running rfl (Nat.zero_le _) (.none 0) List.not_mem_nil
  ahead _ _ _ _ := Iff.rfl
  held _ member := absurd member List.not_mem_nil
  cells _ _ _ := rfl
  chosen _ member := absurd member List.not_mem_nil

/-- A call leads on. -/
theorem next (midway : Midway kind db heap asker scan now items deleted)
    (registered : db.catalog.heap? heap.table = some heap) (ran : scan.next now = .ok (item, later) after) :
    Midway kind db heap asker later after (items ++ [item]) deleted := by
  obtain ⟨rfl, rfl⟩ := midway.aims
  have known : now.catalog.heap? scan.heap.table = some scan.heap := midway.catalog ▸ registered
  obtain ⟨_, _, same, passes⟩ := (ensures_passes midway.coherent scan known).of_ok ran
  cases same
  have turn := passes.turn
  have roams := passes.roams
  refine ⟨midway.coherent.roams roams passes.intact, roams.catalog_eq.trans midway.catalog,
    roams.shown_eq.trans midway.shown, turn.same, fun number => passes.advances.alone (midway.alone number),
    midway.reached.turn turn midway.shown midway.ahead, fun number records running from_ => ?_,
    passes.held_given midway.held, fun place other there => ?_,
    fun record member => List.mem_append_left _ (midway.chosen record member)⟩
  · -- A page that is ahead of the scan after the step was so before it, and looking at pages changes none.
    obtain ⟨before, onward⟩ := turn.page_le running
    rw [midway.coherent.lists_iff roams known]
    exact midway.ahead number records before (Nat.le_trans onward from_)
  · rw [midway.coherent.cell?_eq roams (midway.catalog ▸ there)]
    exact midway.cells place other there

/-- A record that was given and is not deleted is where it was, behind the scan. -/
theorem exists_cell (midway : Midway kind db heap asker scan now items deleted)
    (registered : db.catalog.heap? heap.table = some heap) (among : .record record ∈ items)
    (once : record ∉ deleted) : ∃ number slot cell, record.place = some ⟨heap.page number, slot⟩
      ∧ now.cell? ⟨heap.page number, slot⟩ = some cell ∧ (scan.ended = false → number < scan.page)
      ∧ now.locks.holds (heap.page number) asker = true := by
  obtain ⟨last, _, lists, running⟩ := midway.reached.exists_lists
  have member : record ∈ given items ++ scan.pending := List.mem_append_left _ (mem_given.2 among)
  obtain ⟨number, slot, values, _, below, shown, rfl⟩ := (lists.mem_iff record).1 member
  obtain ⟨cell, there, _⟩ := Option.bind_eq_some_iff.1 shown
  -- Another record in its place would have the same values.
  have kept : some ⟨heap.page number, slot⟩ ∉ deleted.map Record.place := by
    intro gone
    obtain ⟨other, chosen, place⟩ := List.mem_map.1 gone
    have given := List.mem_append_left scan.pending (mem_given.2 (midway.chosen other chosen))
    obtain ⟨_, _, _, _, _, shownToo, rfl⟩ := (lists.mem_iff other).1 given
    cases place
    cases shown.symm.trans shownToo
    exact once chosen
  refine ⟨number, slot, cell, rfl, ?_, fun goes => running goes ▸ below, midway.held _ member _ rfl⟩
  rw [midway.cells _ heap registered, if_neg kept, there]

/-- A record that was given can be deleted, unless its page is not to be had. -/
theorem ensures_delete (midway : Midway kind db heap asker scan now items deleted)
    (registered : db.catalog.heap? heap.table = some heap) (among : .record record ∈ items)
    (once : record ∉ deleted) : Op.Ensures (delete asker record) now fun result after => match result with
      | .ok () => Midway kind db heap asker scan after items (deleted ++ [record])
      | .error failure => ∃ place, record.place = some place ∧ now.Starved place.page failure := by
  obtain ⟨number, slot, cell, placed, there, behind, held⟩ := midway.exists_cell registered among once
  have known : now.catalog.heap? heap.table = some heap := midway.catalog ▸ registered
  have deletes := midway.coherent.ensures_delete known placed there held (midway.alone number)
  refine deletes.mono fun result after ended => ?_
  cases result with
  | error failure => exact ⟨_, placed, ended⟩
  | ok _ =>
    obtain ⟨coherent, erases⟩ := ended
    refine ⟨coherent, erases.catalog.trans midway.catalog, erases.shown.trans midway.shown, midway.aims,
      fun number => erases.advances.alone (midway.alone number), midway.reached, fun other records running from_ => ?_,
      fun record member place placed => erases.advances.holds _ (midway.held record member place placed),
      fun place other there => ?_, fun other member => ?_⟩
    · -- The page of the record is behind the scan.
      have apart : heap.page other ≠ heap.page number := by
        intro same
        have behind := behind running
        simp only [Heap.page, PageId.mk.injEq, true_and] at same
        omega
      rw [erases.lists _ heap records apart known]
      exact midway.ahead other records running from_
    · rw [erases.cells place other (midway.catalog ▸ there), midway.cells place other there]
      by_cases here : place = ⟨heap.page number, slot⟩
      · simp [here, placed]
      · simp [here, placed]
    · rcases List.mem_append.1 member with old | new
      · exact midway.chosen other old
      · cases List.mem_singleton.1 new
        exact among

/-- It stays so over all calls and deletions. -/
theorem of_culls (coherent : db.Coherent kind) (registered : db.catalog.heap? heap.table = some heap)
    (alone : ∀ number holder, db.locks.holds (heap.page number) holder = true → holder = asker)
    (culls : Culls db heap asker scan now items deleted) : Midway kind db heap asker scan now items deleted := by
  -- The induction is on the calls and deletions, and each of them has its own lemma.
  induction culls with
  | start => exact .start coherent alone
  | next _ ran ih => exact ih.next registered ran
  | delete _ among once ran ih => exact (ih.ensures_delete registered among once).of_ok ran

end Midway

/--
What holds of a transaction that goes over a heap and deletes records that it was given.

The records are those that a scan gives that deletes none: all those of the first `last` of the heap's `pages`.
-/
structure Culled (db : Database) (heap : Heap) (asker : TransactionId) (pages last : Nat) (records : List Record)
    (scan : Scan) (now : Database) (items : List Item) (deleted : List Record) : Prop where
  /-- Each record that was given and is not deleted yet can be deleted, unless its page is not to be had. -/
  deletes : ∀ record, .record record ∈ items → record ∉ deleted → ∃ result after,
    delete asker record now = Op.ended (Outcome.ofResult result) after
      ∧ ∀ failure, result = .error failure → ∃ place, record.place = some place ∧ now.Starved place.page failure
  /-- The scan goes on, unless a page is not to be had or there is one that cannot be read. -/
  goesOn : ∃ item later after, scan.next now = .ok (item, later) after
    ∧ ∀ failure, item = .failure failure →
      last < pages ∨ ∃ met number, Roams now met ∧ met.Starved (heap.page number) failure
  begins : given items <+: records
  whole : .done ∈ items → (∀ failure, .failure failure ∉ items) → given items = records ∧ last = pages
  /-- What is left of all registered tables are the cells that were there, under their places, but for the deleted. -/
  left : ∀ place other, db.catalog.heap? place.page.table = some other →
    now.cell? place = if some place ∈ deleted.map Record.place then none else db.cell? place
  emptied : .done ∈ items → (∀ failure, .failure failure ∉ items) →
    (∀ record, .record record ∈ items → record ∈ deleted) → ∀ number slot, now.cell? ⟨heap.page number, slot⟩ = none

/--
Whether a transaction may delete records while it goes over a heap.

A scan that deletes nothing gives the records of all pages, or of those before the first that cannot be read, each of
them once, in the order of their places. Whichever of these are deleted, and whenever after they were given, the scan
gives the same records, each deletion succeeds, and what is left are the records that were not deleted.
-/
def CullsCleanly (db : Database) (heap : Heap) (asker : TransactionId) : Prop :=
  ∃ (pages last : Nat) (records : List Record), heapPageCount heap db = .ok pages db ∧ last ≤ pages
    ∧ (last < pages → ∀ more, ¬ db.Lists (heap.page last) more)
    ∧ (∀ record, record ∈ records ↔ ∃ number slot values, number < last
      ∧ db.values? ⟨heap.page number, slot⟩ = some values ∧ record = ⟨some ⟨heap.page number, slot⟩, values⟩)
    ∧ records.Pairwise Record.Precedes
    ∧ ∀ scan now items deleted, Culls db heap asker scan now items deleted →
      Culled db heap asker pages last records scan now items deleted

/-- A call fails on the first page that cannot be read, or on one that is not to be had. -/
theorem Midway.goesOn (midway : Midway kind db heap asker scan now items deleted)
    (registered : db.catalog.heap? heap.table = some heap) :
    ∃ item later after, scan.next now = .ok (item, later) after ∧ ∀ failure, item = .failure failure →
      (∃ number, number < db.standing.count heap ∧ ∀ records, ¬ db.Lists (heap.page number) records)
        ∨ ∃ met number, Roams now met ∧ met.Starved (heap.page number) failure := by
  obtain ⟨rfl, rfl⟩ := midway.aims
  have known : now.catalog.heap? scan.heap.table = some scan.heap := midway.catalog ▸ registered
  obtain ⟨_, after, ran, item, later, rfl, passes⟩ := (ensures_passes midway.coherent scan known).exists_run
  refine ⟨item, later, after, ran, ?_⟩
  rintro failure rfl
  cases passes.turn with
  | @failed number met _ running _ from_ below _ roams advances withheld =>
    have alone := advances.alone (midway.alone number)
    have housed := roams.housed midway.coherent.intact.housed
    rcases withheld.starved_or_unread housed (roams.catalog_eq ▸ known) alone with starved | unread
    · exact .inr ⟨met, number, roams, starved⟩
    · refine .inl ⟨number, ?_, fun records lists => unread records ?_⟩
      · rwa [Standing.count, midway.shown, ← Standing.count] at below
      · -- The page is ahead of the scan, so it could not be read at first either.
        rw [midway.coherent.lists_iff roams known, midway.ahead number records running from_]
        exact lists

/-- What was given is the beginning of what there is to be given, and all of it once nothing is given any more. -/
theorem Midway.given_prefix {last : Nat} {records : List Record}
    (midway : Midway kind db heap asker scan now items deleted) (within : last ≤ db.standing.count heap)
    (lists : db.ListsAll heap 0 last records)
    (stops : last < db.standing.count heap → ∀ more, ¬ db.Lists (heap.page last) more) :
    given items <+: records ∧ (.done ∈ items → (∀ failure, .failure failure ∉ items) →
      given items = records ∧ last = db.standing.count heap) := by
  -- No page is behind the scan that cannot be read.
  have upto : ∀ reached given, reached ≤ db.standing.count heap → db.ListsAll heap 0 reached given →
      reached ≤ last := by
    intro reached given bound told
    refine Nat.le_of_not_lt fun beyond => ?_
    obtain ⟨more, here⟩ := told.exists_lists (Nat.zero_le _) beyond
    exact stops (by omega) more here
  constructor
  · obtain ⟨reached, bound, told, _⟩ := midway.reached.exists_lists
    exact (List.prefix_append _ _).trans (told.prefix_of_le lists (upto _ _ bound told))
  · intro done flawless
    cases midway.reached with
    | running _ _ _ silent => exact absurd done silent
    | ended _ nothing bound told whole =>
      rcases whole with rfl | ⟨failure, member⟩
      · -- It has come over all pages, so there is none that cannot be read.
        have same := Nat.le_antisymm within (upto _ _ bound told)
        rw [nothing, List.append_nil] at told
        exact ⟨told.unique (same ▸ lists), same⟩
      · exact absurd member (flawless failure)

/-- Once all records are deleted nothing is left of the heap. -/
theorem Midway.emptied {records : List Record} (midway : Midway kind db heap asker scan now items deleted)
    (coherent : db.Coherent kind) (registered : db.catalog.heap? heap.table = some heap)
    (lists : db.ListsAll heap 0 (db.standing.count heap) records) (all : ∀ record ∈ records, record ∈ deleted)
    (number slot : Nat) : now.cell? ⟨heap.page number, slot⟩ = none := by
  rw [midway.cells _ heap registered]
  refine ite_eq_left_iff.2 fun kept => Option.eq_none_iff_forall_ne_some.2 fun cell there => kept ?_
  -- A cell that was there at first is one of a record, which was given and deleted.
  obtain ⟨page, seen, used⟩ := Option.bind_eq_some_iff.1 there
  have within : number < db.standing.count heap := by
    refine Nat.lt_of_not_le fun beyond => ?_
    have nothing : db.seen? (heap.page number) = none := coherent.intact.seen?_of_beyond registered beyond
    cases nothing.symm.trans seen
  obtain ⟨_, again, legible⟩ := lists.legible number (Nat.zero_le _) within
  cases seen.symm.trans again
  obtain ⟨record, decoded⟩ := legible slot cell used
  have values : db.values? ⟨heap.page number, slot⟩ = some record.values := by
    rw [values?, there, Option.bind_some, decoded]
    rfl
  have member := (lists.mem_iff _).2 ⟨number, slot, record.values, Nat.zero_le _, within, values, rfl⟩
  exact List.mem_map.2 ⟨_, all _ member, rfl⟩

/--
A transaction may delete records while it goes over a heap.

This holds in every database that arises while whoever changes a page marks it, over stores whose images hold cells
that have room side by side, if they hold a page at all, for a transaction beside which none holds a page of the heap.
-/
theorem culls_cleanly {heap : Heap} {asker : TransactionId} (tended : Tended ImageKind.readable.allows db)
    (registered : db.catalog.heap? heap.table = some heap)
    (alone : ∀ number holder, db.locks.holds (heap.page number) holder = true → holder = asker) :
    CullsCleanly db heap asker := by
  have coherent : db.Coherent .readable := tended.coherent
  obtain ⟨last, records, within, lists, stops⟩ :=
    ListsAll.exists_furthest db heap (Nat.zero_le (db.standing.count heap))
  refine ⟨db.standing.count heap, last, records, coherent.intact.housed.heapPageCount_eq registered, within, stops,
    fun record => ?_, lists.ascending, fun scan now items deleted culls => ?_⟩
  · rw [lists.mem_iff]
    exact ⟨fun ⟨number, slot, values, _, found⟩ => ⟨number, slot, values, found⟩,
      fun ⟨number, slot, values, found⟩ => ⟨number, slot, values, Nat.zero_le _, found⟩⟩
  have midway := Midway.of_culls coherent registered alone culls
  obtain ⟨begins, completes⟩ := midway.given_prefix within lists stops
  refine ⟨fun record among once => ?_, ?_, begins, completes, midway.cells, fun done flawless all => ?_⟩
  · obtain ⟨result, after, ran, ended⟩ := (midway.ensures_delete registered among once).exists_gives
    refine ⟨result, after, ran, ?_⟩
    rintro failure rfl
    exact ended
  · obtain ⟨item, later, after, ran, fails⟩ := midway.goesOn registered
    refine ⟨item, later, after, ran, fun failure same => (fails failure same).imp_left fun unreadable => ?_⟩
    -- If all pages could be read, then this one could.
    obtain ⟨number, below, unread⟩ := unreadable
    refine Nat.lt_of_le_of_ne within fun whole => ?_
    obtain ⟨_, here⟩ := lists.exists_lists (Nat.zero_le number) (whole ▸ below)
    exact unread _ here
  · obtain ⟨same, whole⟩ := completes done flawless
    refine midway.emptied coherent registered (whole ▸ lists) fun record member => all record (mem_given.1 ?_)
    rw [same]
    exact member

/-- A page with two records, and no other one. -/
def twoRecords : Database :=
  (overImages ⟨64, 1, .ofMilliseconds 1⟩ []).afterAll
    [.insert ⟨1⟩ 1 ⟨none, [.integer 7]⟩, .insert ⟨1⟩ 1 ⟨none, [.integer 8]⟩, .finish ⟨1⟩ .commit]

theorem tended_twoRecords : Tended ImageKind.readable.allows twoRecords :=
  .afterAll (.fresh (overImages_fresh (by decide) (by simp))) (by simp) (by decide +kernel)

/-- The first one was given and deleted, and the page was packed. -/
def firstCulled : Database :=
  (delete ⟨2⟩ ⟨some ⟨⟨1, 0⟩, 0⟩, [.integer 7]⟩).last ((next (start ⟨1, .memory 0⟩ ⟨2⟩)).last twoRecords)

/-- Then the second one was given. -/
def secondGiven : Database :=
  (next ⟨⟨1, .memory 0⟩, ⟨2⟩, 1, [⟨some ⟨⟨1, 0⟩, 1⟩, [.integer 8]⟩], false⟩).last firstCulled

theorem culls_firstCulled : Culls twoRecords ⟨1, .memory 0⟩ ⟨2⟩
    ⟨⟨1, .memory 0⟩, ⟨2⟩, 1, [⟨some ⟨⟨1, 0⟩, 1⟩, [.integer 8]⟩], false⟩ firstCulled
    [.record ⟨some ⟨⟨1, 0⟩, 0⟩, [.integer 7]⟩] [⟨some ⟨⟨1, 0⟩, 0⟩, [.integer 7]⟩] :=
  .delete (.next .start (Op.eq_ok_of_outcome (by decide +kernel))) (by simp) (by simp)
    (Op.eq_ok_of_outcome (by decide +kernel))

theorem culls_secondGiven : Culls twoRecords ⟨1, .memory 0⟩ ⟨2⟩ ⟨⟨1, .memory 0⟩, ⟨2⟩, 1, [], false⟩ secondGiven
    [.record ⟨some ⟨⟨1, 0⟩, 0⟩, [.integer 7]⟩, .record ⟨some ⟨⟨1, 0⟩, 1⟩, [.integer 8]⟩]
    [⟨some ⟨⟨1, 0⟩, 0⟩, [.integer 7]⟩] :=
  culls_firstCulled.next (Op.eq_ok_of_outcome (by decide +kernel))

/-- The second one is given from its place on the packed page, and is left there. -/
theorem culls_cleanly_two : Tended ImageKind.readable.allows twoRecords
    ∧ twoRecords.catalog.heap? 1 = some ⟨1, .memory 0⟩
    ∧ (∀ number holder, twoRecords.locks.holds ⟨1, number⟩ holder = true → holder = ⟨2⟩)
    ∧ CullsCleanly twoRecords ⟨1, .memory 0⟩ ⟨2⟩
    ∧ (∃ scan now, Culls twoRecords ⟨1, .memory 0⟩ ⟨2⟩ scan now
      [.record ⟨some ⟨⟨1, 0⟩, 0⟩, [.integer 7]⟩, .record ⟨some ⟨⟨1, 0⟩, 1⟩, [.integer 8]⟩, .done]
      [⟨some ⟨⟨1, 0⟩, 0⟩, [.integer 7]⟩])
    ∧ secondGiven.values? ⟨⟨1, 0⟩, 0⟩ = none ∧ secondGiven.values? ⟨⟨1, 0⟩, 1⟩ = some [.integer 8] := by
  have registered : twoRecords.catalog.heap? 1 = some ⟨1, .memory 0⟩ := by decide +kernel
  have alone : ∀ number holder, twoRecords.locks.holds ⟨1, number⟩ holder = true → holder = ⟨2⟩ := by
    have free : twoRecords.locks = .empty := by decide +kernel
    intro number holder holds
    rw [free] at holds
    cases holds
  have nothing := Op.eq_ok_of_outcome (show (next ⟨⟨1, .memory 0⟩, ⟨2⟩, 1, [], false⟩).outcome secondGiven
    = .ok (.done, ⟨⟨1, .memory 0⟩, ⟨2⟩, 1, [], true⟩) from by decide +kernel)
  have gives := @culls_cleanly twoRecords ⟨1, .memory 0⟩ ⟨2⟩ tended_twoRecords registered alone
  exact ⟨tended_twoRecords, registered, alone, gives, ⟨_, _, culls_secondGiven.next nothing⟩, by decide +kernel,
    by decide +kernel⟩

/-- The image of a page with one record three times, in the same place. -/
def stackedImage : Bytes :=
  [253, 233, 154, 108] ++ [3, 0, 28, 0] ++ Bytes.zeros 8 ++ [28, 0, 32, 0, 28, 0, 32, 0, 28, 0, 32, 0]
    ++ [1, 4, 29] ++ Bytes.zeros 29

/-- What that image holds. -/
def stacked : Page := { Page.overlapping with buffer := stackedImage }

/-- The record in its first slot. -/
def topmost : Record := ⟨some ⟨⟨1, 0⟩, 0⟩, [.blob (Bytes.zeros 29)]⟩

/-- There is no room for both of the cells that are left without the first one. -/
theorem eraseRecord_stacked : stacked.eraseRecord topmost = trap .overflow := by
  rw [Page.eraseRecord]
  simp only [topmost]
  show Page.pack { stacked with slots := Page.trimFree (Page.overlapping.slots.set 0 .free) } = _
  unfold Page.pack
  rw [Page.inUse_overlapping]
  rfl

/-- A database over that page. -/
def stackedOnly : Database := overImages ⟨60, 2, .ofMilliseconds 1⟩ [stackedImage]

/-- A scan has given the first record of the page. -/
def topmostGiven : Database := (next (start ⟨1, .memory 0⟩ ⟨1⟩)).last stackedOnly

set_option maxRecDepth 20000 in
/-- Cells that have no room side by side keep a record from being deleted. -/
theorem stacked_not_culled : Tended (fun _ => True) stackedOnly
    ∧ stackedOnly.catalog.heap? 1 = some ⟨1, .memory 0⟩
    ∧ (∀ number holder, stackedOnly.locks.holds ⟨1, number⟩ holder = true → holder = ⟨1⟩)
    ∧ ¬ CullsCleanly stackedOnly ⟨1, .memory 0⟩ ⟨1⟩ := by
  refine ⟨.fresh (overImages_fresh (by decide) (by decide)), rfl, fun _ _ holds => Bool.noConfusion holds,
    fun culls => ?_⟩
  obtain ⟨pages, last, records, _, _, _, _, _, culled⟩ := culls
  have given := Op.eq_ok_of_outcome (show (next (start ⟨1, .memory 0⟩ ⟨1⟩)).outcome stackedOnly
    = .ok (.record topmost, ⟨⟨1, .memory 0⟩, ⟨1⟩, 1, [{ topmost with place := some ⟨⟨1, 0⟩, 1⟩ },
      { topmost with place := some ⟨⟨1, 0⟩, 2⟩ }], false⟩) from by decide +kernel)
  obtain ⟨result, after, ran, _⟩ := (culled _ _ _ _ (.next .start given)).deletes topmost (by simp) (by simp)
  have acquired := Op.eq_ok_of_outcome (show (acquire ⟨1⟩ ⟨1, 0⟩ .writing).outcome topmostGiven = .ok ⟨⟨1, 0⟩, 0⟩
    from by decide +kernel)
  have registered : topmostGiven.catalog.heap? 1 = some ⟨1, .memory 0⟩ := by decide +kernel
  have shown : ((acquire ⟨1⟩ ⟨1, 0⟩ .writing).last topmostGiven).copy? ⟨⟨1, 0⟩, 0⟩ = some stacked := by decide +kernel
  have trapped : delete ⟨1⟩ topmost topmostGiven = .error (.trapped .overflow) _ :=
    delete_trapped rfl registered rfl acquired shown eraseRecord_stacked
  cases result with
  | ok _ => cases ran.symm.trans trapped
  | error failure => cases ran.symm.trans trapped

end Scan

end HeapEngine
