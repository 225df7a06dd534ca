import HeapEngine.Proofs.Database.Browsing

/-!
A scan gives every record of its heap once, in the order of their places, and then nothing any more.

What counts is what is seen of the pages when the scan begins. A page that cannot be read ends the scan.
-/

namespace HeapEngine

/-- A place comes before the others on its page that have a higher slot, and before those on later pages. -/
def RecordId.Precedes (a b : RecordId) : Prop := a.page < b.page ∨ a.page = b.page ∧ a.slot < b.slot

/-- A record stands before another one. -/
def Record.Precedes (first second : Record) : Prop :=
  ∃ a b, first.place = some a ∧ second.place = some b ∧ a.Precedes b

namespace Page

variable {page : Page} {id : PageId} {records : List Record}

/-- Records are read with the places of their slots, in the order of the slots. -/
theorem sublist_of_recordsOf {cells : SlotList} {slots : List Nat} (read : recordsOf id cells slots = .ok records) :
    (records.map Record.place).Sublist (slots.map fun slot => some ⟨id, slot⟩) := by
  induction slots generalizing records with
  | nil =>
    cases read
    exact .slnil
  | cons slot rest ih =>
    rw [recordsOf] at read
    cases held : cells[slot]?.join with
    | none =>
      simp only [held] at read
      exact (ih read).cons _
    | some cell =>
      simp only [held, recordOf] at read
      cases decoded : Record.decode cell with
      | error cause => simp [decoded] at read
      | ok first =>
        simp only [decoded] at read
        cases later : recordsOf id cells rest with
        | error failure => simp [later, Except.map] at read
        | ok others =>
          simp only [later, Except.map, Except.ok.injEq] at read
          subst read
          exact (ih later).cons_cons _

/-- A page of which all records are read is legible. -/
theorem legible_of_recordsOf (read : recordsOf id page.cells (List.range page.cells.length) = .ok records) :
    page.Legible := by
  intro slot cell held
  have within := (List.getElem?_eq_some_iff.1 (Option.join_eq_some_iff.1 held)).1
  -- The list of slots is any that the slot is on, so that it can be taken apart.
  have all : ∀ slots, slot ∈ slots → ∀ records, recordsOf id page.cells slots = .ok records →
      ∃ record, Record.decode cell = .ok record := by
    intro slots member records read
    induction slots generalizing records with
    | nil => cases member
    | cons first rest ih =>
      rw [recordsOf] at read
      rcases List.mem_cons.1 member with rfl | later
      · simp only [held, recordOf] at read
        cases decoded : Record.decode cell with
        | error cause => simp [decoded] at read
        | ok record => exact ⟨record, rfl⟩
      · -- What is read of the first slot comes before what is read of the others.
        cases there : page.cells[first]?.join with
        | none =>
          simp only [there] at read
          exact ih later _ read
        | some other =>
          simp only [there] at read
          cases one : recordOf ⟨id, first⟩ other with
          | error failure => simp [one] at read
          | ok record =>
            cases more : recordsOf id page.cells rest with
            | error failure => simp [one, more, Except.map] at read
            | ok others => exact ih later _ more
  exact all _ (List.mem_range.2 within) _ read

/-- All records of a legible page can be read. -/
theorem Legible.exists_recordsOf (legible : page.Legible) (id : PageId) (slots : List Nat) :
    ∃ records, recordsOf id page.cells slots = .ok records := by
  induction slots with
  | nil => exact ⟨[], rfl⟩
  | cons slot rest ih =>
    obtain ⟨records, read⟩ := ih
    rw [recordsOf]
    cases held : page.cells[slot]?.join with
    | none => exact ⟨records, read⟩
    | some cell =>
      obtain ⟨record, decoded⟩ := legible slot cell held
      simp only [recordOf, decoded, read]
      exact ⟨_, rfl⟩

end Page

namespace Database

variable {kind : ImageKind} {db before after : Database} {id : PageId} {heap : Heap} {first middle last : Nat}
  {records more : List Record}

/-- The values under a place are those of the page that is seen. -/
theorem values?_eq {page : Page} {slot : Nat} (seen : db.seen? id = some page) :
    db.values? ⟨id, slot⟩ = page.values? slot := by
  rw [values?, cell?, seen, Option.bind_some]
  rfl

/-- The records of a page are those under its places. -/
theorem Lists.mem_iff (lists : db.Lists id records) (record : Record) :
    record ∈ records ↔ ∃ slot values, db.values? ⟨id, slot⟩ = some values
      ∧ record = ⟨some ⟨id, slot⟩, values⟩ := by
  obtain ⟨page, seen, told⟩ := lists
  rw [Page.mem_recordsOf told]
  constructor
  · rintro ⟨slot, _, values, shown, same⟩
    exact ⟨slot, values, (values?_eq seen).trans shown, same⟩
  · rintro ⟨slot, values, shown, same⟩
    rw [values?_eq seen] at shown
    exact ⟨slot, List.mem_range.2 (Page.lt_of_values? shown), values, shown, same⟩

/-- The records of a page stand in the order of their slots. -/
theorem Lists.ascending (lists : db.Lists id records) : records.Pairwise Record.Precedes := by
  obtain ⟨page, _, told⟩ := lists
  -- The records were read slot by slot, and free slots only leave gaps.
  have slots : ((List.range page.cells.length).map fun slot => some (RecordId.mk id slot)).Pairwise
      fun first second => ∃ a b, first = some a ∧ second = some b ∧ a.Precedes b := by
    rw [List.pairwise_map]
    exact List.pairwise_lt_range.imp fun less => ⟨_, _, rfl, rfl, .inr ⟨rfl, less⟩⟩
  have places := slots.sublist (Page.sublist_of_recordsOf told)
  rwa [List.pairwise_map] at places

/-- The pages from one up to another are seen to hold these records, page after page. -/
inductive ListsAll (db : Database) (heap : Heap) : (first last : Nat) → List Record → Prop
  | none (first : Nat) : ListsAll db heap first first []
  | page {first last : Nat} {records more : List Record} (lists : db.Lists (heap.page first) records)
      (rest : ListsAll db heap (first + 1) last more) : ListsAll db heap first last (records ++ more)

namespace ListsAll

/-- Pages without records give none. -/
theorem of_empty (upto : first ≤ last)
    (empty : ∀ number, first ≤ number → number < last → db.Lists (heap.page number) []) :
    db.ListsAll heap first last [] := by
  obtain ⟨count, rfl⟩ := Nat.exists_eq_add_of_le upto
  induction count generalizing first with
  | zero => exact .none first
  | succ count ih =>
    have rest : db.ListsAll heap (first + 1) (first + (count + 1)) [] := by
      rw [show first + (count + 1) = first + 1 + count by omega]
      exact ih (by omega) fun number from_ below => empty number (by omega) (by omega)
    exact .page (empty first (Nat.le_refl _) (by omega)) rest

/-- What is read of later pages comes after what is read of earlier ones. -/
theorem append (lists : db.ListsAll heap first middle records) (rest : db.ListsAll heap middle last more) :
    db.ListsAll heap first last (records ++ more) := by
  induction lists with
  | none => exact rest
  | page here _ ih =>
    rw [List.append_assoc]
    exact .page here (ih rest)

/-- A page with records comes after pages without. -/
theorem of_found (upto : first ≤ middle)
    (empty : ∀ number, first ≤ number → number < middle → db.Lists (heap.page number) [])
    (lists : db.Lists (heap.page middle) records) : db.ListsAll heap first (middle + 1) records := by
  have whole := (of_empty upto empty).append (.page lists (.none (middle + 1)))
  rwa [List.nil_append, List.append_nil] at whole

theorem upto (lists : db.ListsAll heap first last records) : first ≤ last := by
  induction lists with
  | none => exact Nat.le_refl _
  | page _ _ ih => exact Nat.le_of_succ_le ih

/-- The records of the pages are those under their places. -/
theorem mem_iff (lists : db.ListsAll heap first last records) (record : Record) :
    record ∈ records ↔ ∃ number slot values, first ≤ number ∧ number < last
      ∧ db.values? ⟨heap.page number, slot⟩ = some values
      ∧ record = ⟨some ⟨heap.page number, slot⟩, values⟩ := by
  induction lists with
  | none => simp; omega
  | @page first last records more here rest ih =>
    have before := rest.upto
    rw [List.mem_append, here.mem_iff, ih]
    constructor
    · rintro (⟨slot, values, found⟩ | ⟨number, slot, values, from_, below, found⟩)
      · exact ⟨first, slot, values, Nat.le_refl _, before, found⟩
      · exact ⟨number, slot, values, Nat.le_of_succ_le from_, below, found⟩
    · rintro ⟨number, slot, values, from_, below, found⟩
      rcases Nat.eq_or_lt_of_le from_ with rfl | beyond
      · exact .inl ⟨slot, values, found⟩
      · exact .inr ⟨number, slot, values, beyond, below, found⟩

/-- The records stand in the order of their places. -/
theorem ascending (lists : db.ListsAll heap first last records) : records.Pairwise Record.Precedes := by
  induction lists with
  | none => exact .nil
  | @page first last records more here rest ih =>
    refine List.pairwise_append.2 ⟨here.ascending, ih, fun record among other later => ?_⟩
    -- The first of two records on different pages stands on the first page.
    obtain ⟨_, _, _, rfl⟩ := (here.mem_iff record).1 among
    obtain ⟨number, _, _, from_, _, _, rfl⟩ := (rest.mem_iff other).1 later
    exact ⟨_, _, rfl, rfl, .inl (PageId.lt_iff.2 (.inr ⟨rfl, from_⟩))⟩

/-- Each of the pages is read. -/
theorem exists_lists (lists : db.ListsAll heap first last records) {number : Nat} (from_ : first ≤ number)
    (below : number < last) : ∃ here, db.Lists (heap.page number) here := by
  induction lists with
  | none => omega
  | page here _ ih =>
    rcases Nat.eq_or_lt_of_le from_ with rfl | beyond
    · exact ⟨_, here⟩
    · exact ih beyond below

/-- Every page is there, and all its cells are records. -/
theorem legible (lists : db.ListsAll heap first last records) (number : Nat) (from_ : first ≤ number)
    (below : number < last) : ∃ page, db.seen? (heap.page number) = some page ∧ page.Legible := by
  obtain ⟨_, page, seen, told⟩ := lists.exists_lists from_ below
  exact ⟨page, seen, Page.legible_of_recordsOf told⟩

/-- What is read of fewer pages is the beginning of what is read of more. -/
theorem prefix_of_le (lists : db.ListsAll heap first middle records) (whole : db.ListsAll heap first last more)
    (upto : middle ≤ last) : records <+: more := by
  -- The longer list begins on the same page, and of one page the same is read.
  induction lists generalizing more with
  | none => exact List.nil_prefix
  | page here rest ih =>
    cases whole with
    | none =>
      have beyond := rest.upto
      omega
    | page again later =>
      cases here.unique again
      exact (List.prefix_append_right_inj _).2 (ih later upto)

/-- Pages are read as one list of records. -/
theorem unique (lists : db.ListsAll heap first last records) (again : db.ListsAll heap first last more) :
    records = more :=
  (lists.prefix_of_le again (Nat.le_refl _)).eq_of_length_le (again.prefix_of_le lists (Nat.le_refl _)).length_le

/-- Pages are read as far as to one that cannot be read, or to the last one. -/
theorem exists_furthest (db : Database) (heap : Heap) (upto : first ≤ last) :
    ∃ reached records, reached ≤ last ∧ db.ListsAll heap first reached records
      ∧ (reached < last → ∀ more, ¬ db.Lists (heap.page reached) more) := by
  obtain ⟨count, rfl⟩ := Nat.exists_eq_add_of_le upto
  induction count generalizing first with
  | zero => exact ⟨first, [], upto, .none first, fun below => by omega⟩
  | succ count ih =>
    by_cases readable : ∃ records, db.Lists (heap.page first) records
    · obtain ⟨records, here⟩ := readable
      obtain ⟨reached, more, within, rest, stops⟩ := @ih (first + 1) (Nat.le_add_right _ _)
      exact ⟨reached, records ++ more, by omega, .page here rest, fun below => stops (by omega)⟩
    · exact ⟨first, [], upto, .none first, fun _ more lists => readable ⟨more, lists⟩⟩

end ListsAll

end Database

namespace Scan

open Database

variable {kind : ImageKind} {db after : Database} {scan later : Scan} {items : List Item}

/-- The items of so many calls in turn. -/
def nextEach : (calls : Nat) → Scan → Op Database (List Item × Scan)
  | 0, scan => return ([], scan)
  | calls + 1, scan => do
    let (item, scan) ← scan.next
    let (items, scan) ← nextEach calls scan
    return (item :: items, scan)

/-- What a scan gives from a database on before it gives nothing any more. -/
inductive Unfolds : Scan → Database → List Item → Prop
  | done {scan later : Scan} {db after : Database} (ran : scan.next db = .ok (.done, later) after)
      (silent : later.next after = .ok (.done, later) after) (same : later.restart = scan.restart) : Unfolds scan db []
  | failure {scan later : Scan} {db after : Database} {failure : Failure}
      (ran : scan.next db = .ok (.failure failure, later) after)
      (silent : later.next after = .ok (.done, later) after) (same : later.restart = scan.restart) :
      Unfolds scan db [.failure failure]
  | record {scan later : Scan} {db after : Database} {record : Record} {items : List Item}
      (ran : scan.next db = .ok (.record record, later) after) (same : later.restart = scan.restart)
      (more : Unfolds later after items) : Unfolds scan db (.record record :: items)

/-- One call and those after it. -/
theorem nextEach_succ {calls : Nat} {item : Item} (ran : scan.next db = .ok (item, later) after) :
    nextEach (calls + 1) scan db = (do
      let (items, last) ← nextEach calls later
      return (item :: items, last) : Op Database _) after :=
  Op.bind_of_ok ran _

/-- A scan that gives nothing goes on to do so. -/
theorem nextEach_silent (silent : scan.next db = .ok (.done, scan) db) (calls : Nat) :
    nextEach calls scan db = .ok (List.replicate calls .done, scan) db := by
  induction calls with
  | zero => rfl
  | succ calls ih =>
    rw [nextEach_succ silent, Op.bind_of_ok ih]
    rfl

/-- The calls in turn give what the scan gives, and then nothing any more. -/
theorem Unfolds.exists_nextEach (unfolds : Unfolds scan db items) (calls : Nat) :
    ∃ later after, nextEach calls scan db
        = .ok (items.take calls ++ List.replicate (calls - items.length) .done, later) after
      ∧ later.restart = scan.restart := by
  -- Whoever has made as many calls as there are items meets a scan that is silent.
  induction unfolds generalizing calls with
  | @done scan later db after ran silent same =>
    cases calls with
    | zero => exact ⟨scan, db, rfl, rfl⟩
    | succ calls =>
      refine ⟨later, after, ?_, same⟩
      rw [nextEach_succ ran, Op.bind_of_ok (nextEach_silent silent calls)]
      rfl
  | @failure scan later db after failure ran silent same =>
    cases calls with
    | zero => exact ⟨scan, db, rfl, rfl⟩
    | succ calls =>
      refine ⟨later, after, ?_, same⟩
      rw [nextEach_succ ran, Op.bind_of_ok (nextEach_silent silent calls)]
      simp only [List.take_succ_cons, List.take_nil, List.length_singleton, Nat.add_sub_cancel]
      rfl
  | @record scan later db after record items ran same _ ih =>
    cases calls with
    | zero => exact ⟨scan, db, by rw [Nat.zero_sub]; rfl, rfl⟩
    | succ calls =>
      obtain ⟨last, left, told, restarts⟩ := ih calls
      refine ⟨last, left, ?_, restarts.trans same⟩
      rw [nextEach_succ ran, Op.bind_of_ok told]
      simp only [List.take_succ_cons, List.length_cons, Nat.add_sub_add_right]
      rfl

/-- The end is the last that `take` gives. -/
theorem take_succ_of_done (ran : scan.next db = .ok (.done, later) after) (count : Nat) :
    take (count + 1) scan db = .ok ([.done], later) after :=
  Op.bind_of_ok ran _

/-- What comes before the end is given first, and what is taken after it then. -/
theorem take_succ_of_ok {item : Item} (more : item ≠ .done) (ran : scan.next db = .ok (item, later) after)
    {count : Nat} {last : Scan} {left : Database} (taken : take count later after = .ok (items, last) left) :
    take (count + 1) scan db = .ok (item :: items, last) left := by
  refine (Op.bind_of_ok ran _).trans ?_
  cases item with
  | done => exact absurd rfl more
  | record | failure => exact Op.bind_of_ok taken _

/-- Whoever takes more than the scan gives has all of it, and is told of the end. -/
theorem Unfolds.exists_take (unfolds : Unfolds scan db items) {count : Nat} (enough : items.length < count) :
    ∃ later after, take count scan db = .ok (items ++ [.done], later) after := by
  -- Each item uses up one of the count, so at least one is left for the end.
  obtain ⟨count, rfl⟩ := Nat.exists_eq_add_of_lt enough
  induction unfolds with
  | done ran => exact ⟨_, _, take_succ_of_done ran _⟩
  | failure ran silent =>
    rw [List.length_singleton, Nat.add_comm 1 count]
    exact ⟨_, _, take_succ_of_ok (by simp) ran (take_succ_of_done silent count)⟩
  | @record scan later db after record items ran _ _ ih =>
    obtain ⟨last, left, taken⟩ := ih (by omega)
    refine ⟨last, left, ?_⟩
    rw [List.length_cons, show items.length + 1 + count + 1 = items.length + count + 1 + 1 by omega]
    exact take_succ_of_ok (by simp) ran taken

/-- A scan that has ended gives nothing. -/
theorem next_ended {count : Nat} (counted : heapPageCount scan.heap db = .ok count db) (ended : scan.ended = true) :
    scan.next db = .ok (.done, scan) db := by
  rw [next, Op.bind_of_ok counted]
  unfold advance
  rw [if_pos ended]
  rfl

/-- A record that was read before is given next. -/
theorem next_pending {count : Nat} {record : Record} {rest : List Record}
    (counted : heapPageCount scan.heap db = .ok count db) (running : scan.ended = false)
    (waiting : scan.pending = record :: rest) :
    scan.next db = .ok (.record record, { scan with pending := rest }) db := by
  rw [next, Op.bind_of_ok counted]
  unfold advance
  rw [if_neg (by rw [running]; decide), waiting]
  rfl

/-- Records that were read before come before what the pages after them give. -/
theorem Unfolds.of_pending {count : Nat} (counted : heapPageCount scan.heap db = .ok count db)
    (running : scan.ended = false) (pending : List Record) (unfolds : Unfolds { scan with pending := [] } db items) :
    Unfolds { scan with pending } db (pending.map .record ++ items) := by
  induction pending with
  | nil => exact unfolds
  | cons record rest ih =>
    have ran : Scan.next { scan with pending := record :: rest } db
        = .ok (.record record, { scan with pending := rest }) db := next_pending counted running rfl
    exact .record ran rfl ih

/-- How far a scan comes over the pages from one on, what it reads of them, and what ends it. -/
structure Course (db : Database) (scan : Scan) (reached : Nat) (records : List Record) (ending : Option Failure) :
    Prop where
  within : reached ≤ db.standing.count scan.heap
  lists : db.ListsAll scan.heap scan.page reached records
  complete : ending = none ↔ reached = db.standing.count scan.heap
  /-- The page that could not be read was not to be had when its turn came. -/
  fails : ∀ failure, ending = some failure →
    ∃ met, Roams db met ∧ Locks.Advances scan.transaction db.locks met.locks
      ∧ met.Withheld scan.transaction (scan.heap.page reached) failure

/-- A step tells what its scan goes on to give, and the course that it takes. -/
theorem exists_unfolds {base : Database} (coherent : base.Coherent kind) (roams : Roams base db) (intact : db.Intact)
    (advances : Locks.Advances scan.transaction base.locks db.locks)
    (registered : base.catalog.heap? scan.heap.table = some scan.heap) (running : scan.ended = false)
    (nothing : scan.pending = []) (within : scan.page ≤ base.standing.count scan.heap) :
    ∃ reached records ending, Course base scan reached records ending
      ∧ Unfolds scan db (records.map .record ++ ending.toList.map .failure) := by
  -- Each step that gives a record leaves fewer pages, and its later records are given without looking at any.
  induction left : base.standing.count scan.heap - scan.page using Nat.strongRecOn generalizing scan db with
  | ind left ih =>
  have counts : ∀ {db : Database}, Roams base db → db.Intact →
      heapPageCount scan.heap db = .ok (base.standing.count scan.heap) db := fun roams intact => by
    rw [intact.housed.heapPageCount_eq (roams.catalog_eq ▸ registered), roams.shown_eq]
    rfl
  have same : db.standing.count scan.heap = base.standing.count scan.heap := by
    rw [Standing.count, roams.shown_eq, Standing.count]
  have before : ∀ {number records}, db.Lists (scan.heap.page number) records →
      base.Lists (scan.heap.page number) records := (coherent.lists_iff roams registered).1
  obtain ⟨result, after, ran, item, later, rfl, passes⟩ :=
    (ensures_passes (coherent.roams roams intact) scan (roams.catalog_eq ▸ registered)).exists_run
  have further := roams.trans passes.roams
  have counted := counts further passes.intact
  have turn := passes.turn
  cases turn with
  -- The scan is running and has read nothing ahead, so it looks for a page with records.
  | idle ended => cases running.symm.trans ended
  | pending _ waiting => cases nothing.symm.trans waiting
  | exhausted _ _ empty =>
    refine ⟨base.standing.count scan.heap, [], none, ⟨Nat.le_refl _, ?_, by simp, by simp⟩,
      .done ran (next_ended counted rfl) rfl⟩
    exact .of_empty within fun number from_ below => before (empty number from_ (same ▸ below))
  | @failed number met failure _ _ from_ below empty roamed gained withheld =>
    rw [same] at below
    refine ⟨number, [], some failure, ⟨Nat.le_of_lt below, ?_, ?_, ?_⟩, .failure ran (next_ended counted rfl) rfl⟩
    · exact .of_empty from_ fun earlier from_ less => before (empty earlier from_ less)
    · simp only [reduceCtorEq, false_iff]
      omega
    · rintro _ ⟨⟩
      exact ⟨met, roams.trans roamed, advances.trans gained, withheld⟩
  | @found number record rest _ _ from_ below empty lists =>
    rw [same] at below
    -- The rest is told from the page after, as if its records had not been read ahead.
    let onward : Scan := { scan with page := number + 1, pending := [] }
    obtain ⟨reached, more, ending, course, unfolds⟩ : ∃ reached more ending, Course base onward reached more ending
        ∧ Unfolds onward after (more.map .record ++ ending.toList.map .failure) :=
      @ih (base.standing.count scan.heap - (number + 1)) (by omega) after onward further passes.intact
        (advances.trans passes.advances) registered running rfl below rfl
    refine ⟨reached, record :: rest ++ more, ending, ⟨course.within, ?_, course.complete, course.fails⟩, ?_⟩
    · have here := ListsAll.of_found from_ (fun earlier from_ less => before (empty earlier from_ less)) (before lists)
      exact here.append course.lists
    · have waiting : Unfolds { onward with pending := rest } after
          (rest.map .record ++ (more.map .record ++ ending.toList.map .failure)) :=
        @Unfolds.of_pending after onward _ _ counted running rest unfolds
      rw [List.map_append, List.map_cons, List.cons_append, List.cons_append, List.append_assoc]
      exact .record ran rfl waiting

/--
Whether a scan gives every record of its heap.

It comes over some of the pages or over all of them, and only a page that is not to be had or cannot be read ends it
before. What it gives are the records of the pages that it comes over, as they are seen when it begins: each of them
once, under its own place, in the order of the places. Then it gives the failure that ended it, if there is one, and
after that nothing, however often it is asked. Wherever it is, it can go back to where a new scan begins.
-/
def GivesEveryRecord (db : Database) (heap : Heap) (asker : TransactionId) : Prop :=
  ∃ (pages reached : Nat) (records : List Record) (ending : Option Failure),
    heapPageCount heap db = .ok pages db ∧ reached ≤ pages
    ∧ (ending = none ↔ reached = pages)
    ∧ (∀ failure, ending = some failure →
      ∃ met, Roams db met ∧ Locks.Advances asker db.locks met.locks ∧ met.Withheld asker (heap.page reached) failure)
    ∧ (∀ number, number < reached → ∃ page, db.seen? (heap.page number) = some page ∧ page.Legible)
    ∧ (∀ record, record ∈ records ↔ ∃ number slot values, number < reached
      ∧ db.values? ⟨heap.page number, slot⟩ = some values ∧ record = ⟨some ⟨heap.page number, slot⟩, values⟩)
    ∧ records.Pairwise Record.Precedes
    ∧ ∀ calls, ∃ later after, nextEach calls (start heap asker) db
        = .ok ((records.map Item.record ++ ending.toList.map Item.failure).take calls
          ++ List.replicate (calls - (records.length + ending.toList.length)) .done, later) after
      ∧ later.restart = start heap asker

/--
A scan gives every record of its heap.

This holds in every database that arises while whoever changes a page marks it, over stores whose images hold cells
that have room side by side, if they hold a page at all.
-/
theorem gives_every_record {heap : Heap} (tended : Tended ImageKind.readable.allows db)
    (registered : db.catalog.heap? heap.table = some heap) (asker : TransactionId) :
    GivesEveryRecord db heap asker := by
  have coherent : db.Coherent .readable := tended.coherent
  obtain ⟨reached, records, ending, course, unfolds⟩ := exists_unfolds coherent (.refl db) coherent.intact
    (.refl _ _) (show db.catalog.heap? (start heap asker).heap.table = some (start heap asker).heap from registered)
    rfl rfl (Nat.zero_le _)
  refine ⟨db.standing.count heap, reached, records, ending, coherent.intact.housed.heapPageCount_eq registered,
    course.within, course.complete, course.fails, fun number below => course.lists.legible number (Nat.zero_le _) below,
    fun record => ?_, course.lists.ascending, fun calls => ?_⟩
  · rw [course.lists.mem_iff]
    exact ⟨fun ⟨number, slot, values, _, found⟩ => ⟨number, slot, values, found⟩,
      fun ⟨number, slot, values, found⟩ => ⟨number, slot, values, Nat.zero_le _, found⟩⟩
  · have given := unfolds.exists_nextEach calls
    rwa [List.length_append, List.length_map, List.length_map] at given

/-- Of two records of the second page one is not committed, nor is it that the first page is empty. -/
def unsettled : Database :=
  (overImages ⟨64, 2, .ofMilliseconds 1⟩ []).afterAll
    [.insert ⟨1⟩ 1 ⟨none, [.blob (Bytes.zeros 40)]⟩, .insert ⟨1⟩ 1 ⟨none, [.integer 7]⟩, .finish ⟨1⟩ .commit,
      .insert ⟨2⟩ 1 ⟨none, [.integer 8]⟩, .delete ⟨2⟩ ⟨some ⟨⟨1, 0⟩, 0⟩, []⟩]

theorem tended_unsettled : Tended ImageKind.readable.allows unsettled :=
  .afterAll (.fresh (overImages_fresh (by decide) (by simp))) (by simp) (by decide +kernel)

set_option maxRecDepth 20000 in
/-- Who made the changes goes over the empty page to both records. -/
theorem gives_every_record_unsettled : Tended ImageKind.readable.allows unsettled
    ∧ unsettled.catalog.heap? 1 = some ⟨1, .memory 0⟩ ∧ GivesEveryRecord unsettled ⟨1, .memory 0⟩ ⟨2⟩
    ∧ (nextEach 4 (start ⟨1, .memory 0⟩ ⟨2⟩)).outcome unsettled
      = .ok ([.record ⟨some ⟨⟨1, 1⟩, 0⟩, [.integer 7]⟩, .record ⟨some ⟨⟨1, 1⟩, 1⟩, [.integer 8]⟩, .done, .done],
        ⟨⟨1, .memory 0⟩, ⟨2⟩, 2, [], true⟩) := by
  have registered : unsettled.catalog.heap? 1 = some ⟨1, .memory 0⟩ := by decide +kernel
  have gives := @gives_every_record unsettled ⟨1, .memory 0⟩ tended_unsettled registered ⟨2⟩
  exact ⟨tended_unsettled, registered, gives, by decide +kernel⟩

set_option maxRecDepth 20000 in
/--
Cells that have no room side by side are lost to a scan.

The page that was packed in memory is dropped for the first one that the scan comes to, and its image has fewer
records.
-/
theorem crowded_not_every_record : Tended (fun _ => True) crowdedLastCommitted
    ∧ crowdedLastCommitted.catalog.heap? 1 = some ⟨1, .memory 0⟩
    ∧ ¬ GivesEveryRecord crowdedLastCommitted ⟨1, .memory 0⟩ ⟨3⟩ := by
  refine ⟨tended_crowdedLast, by decide +kernel, fun gives => ?_⟩
  obtain ⟨pages, reached, records, ending, counted, _, complete, _, _, members, _, calls⟩ := gives
  have count : (heapPageCount ⟨1, .memory 0⟩).outcome crowdedLastCommitted = .ok 2 := by decide +kernel
  have nothing : (nextEach 1 (start ⟨1, .memory 0⟩ ⟨3⟩)).outcome crowdedLastCommitted
      = .ok ([.done], ⟨⟨1, .memory 0⟩, ⟨3⟩, 2, [], true⟩) := by decide +kernel
  -- The scan gives nothing at once, so there is no record and no failure.
  obtain ⟨later, after, ran, _⟩ := calls 1
  rw [Op.outcome, ran] at nothing
  rw [Op.outcome, counted] at count
  cases count
  simp only [Except.ok.injEq, Prod.mk.injEq] at nothing
  cases records with
  | cons record rest => simp at nothing
  | nil =>
    cases ending with
    | some failure => simp at nothing
    | none =>
      -- All pages were gone over, and the record in the fourth slot of the second one was to be seen.
      have whole := complete.1 rfl
      have before : (crowdedLastCommitted.values? ⟨⟨1, 1⟩, 3⟩).isSome = true := by decide +kernel
      obtain ⟨values, shown⟩ := Option.isSome_iff_exists.1 before
      exact absurd ((members _).2 ⟨1, 3, values, by omega, shown, rfl⟩) List.not_mem_nil

end Scan

end HeapEngine
