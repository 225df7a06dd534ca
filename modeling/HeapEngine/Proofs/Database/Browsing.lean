import HeapEngine.Proofs.Database.FirstFit
import HeapEngine.Proofs.Database.Scan

/-!
One step of a scan, as it is told from what is seen of the pages before it.

A step goes over pages without records, and ends on the first one that has some or that cannot be read.
-/

namespace HeapEngine

open Database

namespace Database

variable {kind : ImageKind} {db before after met : Database} {id : PageId} {records : List Record} {failure : Failure}
  {asker : TransactionId} {heap : Heap}

/-- A page is seen to hold these records, in the order of their slots. -/
def Lists (db : Database) (id : PageId) (records : List Record) : Prop :=
  ∃ page, db.seen? id = some page
    ∧ Page.recordsOf id page.cells (List.range page.cells.length) = .ok records

/-- Why a transaction is not told the records of a page. -/
inductive Withheld (db : Database) (asker : TransactionId) (id : PageId) : Failure → Prop
  /-- The page is not there to be read, or not to be locked. -/
  | denied {failure : Failure} (denied : Denied db asker id .shared failure) : Withheld db asker id failure
  /-- One of its cells holds no record. -/
  | illegible {page : Page} {failure : Failure} (seen : db.seen? id = some page)
      (fails : Page.recordsOf id page.cells (List.range page.cells.length) = .error failure) :
      Withheld db asker id failure

/-- A page holds one list of records. -/
theorem Lists.unique {others : List Record} (lists : db.Lists id records) (again : db.Lists id others) :
    records = others := by
  obtain ⟨page, seen, told⟩ := lists
  obtain ⟨same, seenAgain, toldAgain⟩ := again
  cases seen.symm.trans seenAgain
  exact Except.ok.inj (told.symm.trans toldAgain)

/-- Pages with the same cells hold the same records. -/
theorem lists_iff_of_rel (sound : ∀ page, before.seen? id = some page → page.Sound)
    (same : Option.Rel Page.Agrees (before.seen? id) (after.seen? id)) :
    after.Lists id records ↔ before.Lists id records := by
  unfold Lists
  generalize before.seen? id = old at sound same
  generalize after.seen? id = new at same
  cases same with
  | none => exact Iff.rfl
  | some agrees =>
    simp only [Option.some.injEq, exists_eq_left']
    rw [agrees.cells (sound _ rfl)]

/-- Looking for pages changes no records. -/
theorem Coherent.lists_iff (coherent : before.Coherent kind) (roams : Roams before after)
    (registered : before.catalog.heap? id.table = some heap) :
    after.Lists id records ↔ before.Lists id records :=
  lists_iff_of_rel (fun _ seen => coherent.sound_of_seen? seen) (coherent.rel_seen? roams registered)

end Database

namespace Scan

variable {kind : ImageKind} {db middle : Database}

/-- The records of the next page are told as they are seen, or it is told why they are not. -/
theorem ensures_records (coherent : db.Coherent kind) (scan : Scan) :
    Op.Ensures scan.nextRecords db fun result after => Roams db after ∧ after.Intact
      ∧ Locks.Advances scan.transaction db.locks after.locks ∧ match result with
        | .ok records => db.Lists (scan.heap.page scan.page) records
          ∧ after.locks.holds (scan.heap.page scan.page) scan.transaction = true
        | .error failure => db.Withheld scan.transaction (scan.heap.page scan.page) failure := by
  have intact := coherent.intact
  have exclusive := intact.orderly.locks
  unfold nextRecords
  refine (intact.housed.ensures_acquire_exact scan.transaction _ .reading).bind (fun failure after ended => ?_)
    fun copy given ended => ?_
  · obtain ⟨roams, locks, denied⟩ := ended
    exact ⟨roams, roams.intact intact (locks ▸ exclusive), locks ▸ .refl _ _, .denied denied⟩
  obtain ⟨page, obtains⟩ := ended
  have sound := coherent.sound_of_seen? obtains.seen
  have name := intact.id_of_mayShow (mayShow_of_seen? obtains.seen)
  have still := obtains.intact intact
  have advances := (obtains.gains exclusive).toAdvances
  refine (ensures_lookAt obtains.current (obtains.here ▸ obtains.resident)).bind (fun _ _ ended => by cases ended.1)
    fun _ looked ended => ?_
  obtain ⟨same, rfl⟩ := ended
  cases same
  refine .ofOutcome (sound.records_eq.trans (by rw [name])) ⟨obtains.roams, still, advances, ?_⟩
  cases told : Page.recordsOf (scan.heap.page scan.page) page.cells (List.range page.cells.length) with
  | ok records => exact ⟨⟨page, obtains.seen, told⟩, (Locks.holds_of_grant? obtains.granted).1⟩
  | error failure => exact .illegible obtains.seen told

/-- What a step of a scan gives, and the scan that is left. -/
inductive Turn (db : Database) (scan : Scan) : Item → Scan → Prop
  /-- A scan that has ended stays so. -/
  | idle (ended : scan.ended = true) : Turn db scan .done scan
  | pending {record : Record} {rest : List Record} (running : scan.ended = false)
      (waiting : scan.pending = record :: rest) : Turn db scan (.record record) { scan with pending := rest }
  /-- No page that is left has a record. -/
  | exhausted {last : Nat} (running : scan.ended = false) (nothing : scan.pending = [])
      (empty : ∀ number, scan.page ≤ number → number < db.standing.count scan.heap →
        db.Lists (scan.heap.page number) []) :
      Turn db scan .done { scan with page := last, pending := [], ended := true }
  | found {number : Nat} {record : Record} {rest : List Record} (running : scan.ended = false)
      (nothing : scan.pending = []) (from_ : scan.page ≤ number) (within : number < db.standing.count scan.heap)
      (empty : ∀ earlier, scan.page ≤ earlier → earlier < number → db.Lists (scan.heap.page earlier) [])
      (lists : db.Lists (scan.heap.page number) (record :: rest)) :
      Turn db scan (.record record) { scan with page := number + 1, pending := rest }
  | failed {number : Nat} {met : Database} {failure : Failure} (running : scan.ended = false)
      (nothing : scan.pending = []) (from_ : scan.page ≤ number) (within : number < db.standing.count scan.heap)
      (empty : ∀ earlier, scan.page ≤ earlier → earlier < number → db.Lists (scan.heap.page earlier) [])
      (roams : Roams db met) (advances : Locks.Advances scan.transaction db.locks met.locks)
      (withheld : met.Withheld scan.transaction (scan.heap.page number) failure) :
      Turn db scan (.failure failure) { scan with page := number + 1, pending := [], ended := true }

/-- Before the pages after an empty one comes the empty one. -/
theorem empty_from {scan : Scan} {last : Nat} (coherent : db.Coherent kind) (roams : Roams db middle)
    (registered : db.catalog.heap? scan.heap.table = some scan.heap)
    (lists : db.Lists (scan.heap.page scan.page) [])
    (empty : ∀ number, scan.page + 1 ≤ number → number < last → middle.Lists (scan.heap.page number) []) :
    ∀ number, scan.page ≤ number → number < last → db.Lists (scan.heap.page number) [] := by
  intro number from_ below
  rcases Nat.eq_or_lt_of_le from_ with rfl | beyond
  · exact lists
  · exact (coherent.lists_iff roams registered).1 (empty number beyond below)

/-- A step that begins after a page was read is one that begins with that page. -/
theorem Turn.of_overPage {scan later : Scan} {item : Item} {records : List Record} (coherent : db.Coherent kind)
    (roams : Roams db middle) (advances : Locks.Advances scan.transaction db.locks middle.locks)
    (registered : db.catalog.heap? scan.heap.table = some scan.heap) (running : scan.ended = false)
    (nothing : scan.pending = []) (within : scan.page < db.standing.count scan.heap)
    (lists : db.Lists (scan.heap.page scan.page) records)
    (turn : Turn middle (scan.overPage records) item later) : Turn db scan item later := by
  have count : middle.standing.count scan.heap = db.standing.count scan.heap := by
    rw [Standing.count, roams.shown_eq, Standing.count]
  cases turn with
  | idle ended => cases running.symm.trans ended
  | pending _ waiting =>
    -- The page that was read has records, so the step ends on it.
    cases waiting
    exact .found running nothing (Nat.le_refl _) within (by omega) lists
  | exhausted _ none empty =>
    cases none
    exact .exhausted running nothing (empty_from coherent roams registered lists
      fun number beyond below => empty number beyond (count ▸ below))
  | found _ none from_ below empty later =>
    cases none
    exact .found running nothing (Nat.le_of_succ_le from_) (count ▸ below)
      (empty_from coherent roams registered lists empty) ((coherent.lists_iff roams registered).1 later)
  | failed _ none from_ below empty further later withheld =>
    cases none
    exact .failed running nothing (Nat.le_of_succ_le from_) (count ▸ below)
      (empty_from coherent roams registered lists empty) (roams.trans further) (advances.trans later) withheld

/-- A step leaves the heap and the transaction of a scan as they are. -/
theorem Turn.same {scan later : Scan} {item : Item} (turn : Turn db scan item later) :
    later.heap = scan.heap ∧ later.transaction = scan.transaction := by
  cases turn <;> exact ⟨rfl, rfl⟩

/-- What a step of a scan does to a database. -/
structure Passes (before : Database) (scan : Scan) (item : Item) (later : Scan) (after : Database) : Prop where
  turn : Turn before scan item later
  roams : Roams before after
  intact : after.Intact
  advances : Locks.Advances scan.transaction before.locks after.locks
  /-- The page of a record is held. -/
  held : ∀ record, item = .record record → scan.pending = [] →
    after.locks.holds (scan.heap.page (later.page - 1)) scan.transaction = true

/-- Going on over the pages that are left is one step. -/
theorem ensures_turn (coherent : db.Coherent kind) (scan : Scan) {limit : Nat} (running : scan.ended = false)
    (registered : db.catalog.heap? scan.heap.table = some scan.heap)
    (pages : limit = db.standing.count scan.heap - scan.page) :
    Op.Ensures (advance limit scan) db fun result after => ∃ item later, result = .ok (item, later)
      ∧ Passes db scan item later after := by
  have alive : ¬ scan.ended = true := by rw [running]; decide
  have still := Roams.refl db
  have stays := Locks.Advances.refl scan.transaction db.locks
  -- The limit is the number of pages left, so each page that is read takes one off.
  induction limit generalizing db scan with
  | zero =>
    unfold advance
    rw [if_neg alive]
    cases waiting : scan.pending with
    | nil =>
      exact .pure ⟨.done, _, rfl, .exhausted running waiting (fun _ _ _ => by omega), still, coherent.intact, stays,
        by simp⟩
    | cons record rest =>
      exact .pure ⟨_, _, rfl, .pending running waiting, still, coherent.intact, stays, by simp [waiting]⟩
  | succ limit ih =>
    unfold advance
    rw [if_neg alive]
    cases waiting : scan.pending with
    | cons record rest =>
      exact .pure ⟨_, _, rfl, .pending running waiting, still, coherent.intact, stays, by simp [waiting]⟩
    | nil =>
      have within : scan.page < db.standing.count scan.heap := by omega
      refine .attempt_bind (ensures_records coherent scan) fun answer middle ended => ?_
      obtain ⟨roams, intact, advances, told⟩ := ended
      cases answer with
      | error failure =>
        exact .pure ⟨_, _, rfl, .failed running waiting (Nat.le_refl _) within (by omega) (.refl db) stays told,
          roams, intact, advances, by simp⟩
      | ok records =>
        obtain ⟨lists, held⟩ := told
        have left : limit = middle.standing.count (scan.overPage records).heap - (scan.overPage records).page := by
          simp only [overPage, Standing.count, roams.shown_eq] at pages ⊢
          omega
        refine (ih (coherent.roams roams intact) (scan.overPage records) running (roams.catalog_eq ▸ registered) left
          alive (.refl middle) (.refl _ _)).mono fun result after more => ?_
        obtain ⟨item, last, same, passes⟩ := more
        refine ⟨item, last, same, passes.turn.of_overPage coherent roams advances registered running waiting within
          lists,
          roams.trans passes.roams, passes.intact, advances.trans passes.advances, fun record given _ => ?_⟩
        cases records with
        | nil => exact passes.held record given rfl
        | cons first rest =>
          -- The record stands on the page that was read.
          have turn := passes.turn
          subst given
          cases turn with
          | pending _ _ => exact passes.advances.holds _ held
          | found _ none => cases none

/-- A step of a scan over a registered heap. -/
theorem ensures_passes (coherent : db.Coherent kind) (scan : Scan)
    (registered : db.catalog.heap? scan.heap.table = some scan.heap) :
    Op.Ensures scan.next db fun result after => ∃ item later, result = .ok (item, later)
      ∧ Passes db scan item later after := by
  refine .run_bind (coherent.intact.housed.heapPageCount_eq registered) ?_
  cases ended : scan.ended with
  | true =>
    unfold advance
    rw [if_pos ended]
    exact .pure ⟨_, _, rfl, .idle ended, .refl db, coherent.intact, .refl _ _, by simp⟩
  | false => exact ensures_turn coherent scan ended registered rfl

end Scan

end HeapEngine
