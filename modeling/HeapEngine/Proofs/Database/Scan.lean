import HeapEngine.Database.Scan
import HeapEngine.Proofs.Database.Records

/-!
A scan gives what its pages hold, one record after the other.

What remains of a scan can be told beforehand. Every step takes its first record off, and locks the
pages it goes over.
-/

namespace HeapEngine

namespace Standing

/-- The records of a page, if the page is there and all its records can be read. -/
def records? (standing : Standing) (id : PageId) : Option (List Record) :=
  match standing.content? id with
  | some page =>
    match Page.recordsOf id page.cells (List.range page.cells.length) with
    | .ok records => some records
    | .error _ => none
  | none => none

/-- The records of so many pages of a heap from one on. -/
def recordsFrom? (standing : Standing) (heap : Heap) : (left page : Nat) → Option (List Record)
  | 0, _ => some []
  | left + 1, page =>
    match standing.records? (heap.page page), standing.recordsFrom? heap left (page + 1) with
    | some first, some rest => some (first ++ rest)
    | _, _ => none

/-- How many pages a heap has. -/
def count (standing : Standing) (heap : Heap) : Nat := (standing.shown heap.table).images.length

variable {standing : Standing} {heap : Heap}

@[simp] theorem recordsFrom?_withLocks (locks : Locks) (left page : Nat) :
    (standing.withLocks locks).recordsFrom? heap left page = standing.recordsFrom? heap left page := by
  induction left generalizing page with
  | zero => rfl
  | succ left ih =>
    unfold recordsFrom?
    rw [ih]
    rfl

end Standing

/-- What a scan will still give, if nothing fails. -/
def Scan.rest? (scan : Scan) (standing : Standing) : Option (List Record) :=
  if scan.ended then some []
  else
    (standing.recordsFrom? scan.heap (standing.count scan.heap - scan.page) scan.page).map
      (scan.pending ++ ·)

namespace Scan

open Database

variable {kind : ImageKind} {db : Database} {standing : Standing}

@[simp] theorem rest?_withLocks (scan : Scan) (locks : Locks) :
    scan.rest? (standing.withLocks locks) = scan.rest? standing := by
  simp only [rest?, Standing.recordsFrom?_withLocks]
  rfl

/-- The page that comes next is locked, and its records are those it holds. -/
theorem ensures_nextRecords (consistent : db.Consistent kind) (scan : Scan) :
    Op.Ensures scan.nextRecords db fun result after => Gains kind scan.transaction db after
      ∧ ∀ records, result = .ok records →
        db.standing.records? (scan.heap.page scan.page) = some records
          ∧ after.locks.holds (scan.heap.page scan.page) scan.transaction = true := by
  unfold nextRecords
  refine (ensures_acquire consistent scan.transaction _ .reading).bind ?_ ?_
  · intro failure after ended
    exact ⟨ended.1, by simp⟩
  intro copy middle ended
  obtain ⟨gains, given⟩ := ended
  obtain ⟨here, current, held, _⟩ := given copy rfl
  obtain ⟨page, resident⟩ := exists_page_of_current current
  have fits := gains.consistent.cached _ page resident
  refine (ensures_lookAt current resident).bind ?_ ?_
  · intro failure after ended
    cases ended.1
  intro seen after ended
  obtain ⟨same, rfl⟩ := ended
  cases same
  refine .ofOutcome fits.sound.records_eq ⟨gains, ?_⟩
  intro records told
  refine ⟨?_, held⟩
  -- The page in memory holds the same cells as what the database stands for.
  obtain ⟨content, found, agrees, _⟩ := gains.consistent.content resident
  have cells := agrees.symm.cells fits.sound
  rw [gains.standing, here, Standing.content?_withLocks] at found
  rw [fits.name, here, cells] at told
  rw [Standing.records?, found]
  simp only [told]

/--
What one step of a scan gave, and what remains.

A step that fails promises nothing but that it gained locks at most.
-/
def Steps (standing : Standing) (scan : Scan) (item : Item) (later : Scan) (locks : Locks) : Prop :=
  later.heap = scan.heap ∧ later.transaction = scan.transaction ∧ match item with
    | .record record => later.ended = false
      ∧ scan.rest? standing = (later.rest? standing).map (record :: ·)
      ∧ ∀ number, scan.page ≤ number → number < later.page →
        locks.holds (scan.heap.page number) scan.transaction = true
    | .done => scan.rest? standing = some []
      ∧ ∀ number, scan.page ≤ number → number < standing.count scan.heap →
        locks.holds (scan.heap.page number) scan.transaction = true
    | .failure _ => True

/-- The scan once the records of its next page were read. -/
def overPage (scan : Scan) (records : List Record) : Scan :=
  { scan with page := scan.page + 1, pending := records }

/-- What was read of a page comes before what the later pages hold. -/
theorem rest?_overPage {scan : Scan} {records : List Record} (running : scan.ended = false)
    (nothing : scan.pending = []) (within : scan.page < standing.count scan.heap)
    (read : standing.records? (scan.heap.page scan.page) = some records) :
    scan.rest? standing = (scan.overPage records).rest? standing := by
  -- At least one page is left, the one that was read.
  obtain ⟨left, pages⟩ : ∃ left, standing.count scan.heap - scan.page = left + 1 :=
    ⟨standing.count scan.heap - scan.page - 1, by omega⟩
  have fewer : standing.count scan.heap - (scan.page + 1) = left := by omega
  have here : scan.rest? standing = standing.recordsFrom? scan.heap (left + 1) scan.page := by
    rw [rest?, if_neg (by rw [running]; decide), nothing, pages]
    cases standing.recordsFrom? scan.heap (left + 1) scan.page <;> rfl
  have there : (scan.overPage records).rest? standing
      = (standing.recordsFrom? scan.heap left (scan.page + 1)).map (records ++ ·) := by
    simp only [rest?, overPage, running, Bool.false_eq_true, ↓reduceIte, fewer]
  rw [here, there, Standing.recordsFrom?, read]
  cases standing.recordsFrom? scan.heap left (scan.page + 1) <;> rfl

/-- What a step gives does not depend on who held which lock before. -/
theorem steps_withLocks {scan later : Scan} {item : Item} {other locks : Locks} :
    Steps (standing.withLocks other) scan item later locks ↔ Steps standing scan item later locks := by
  cases item with
  | record record =>
    simp only [Steps, rest?_withLocks]
  | done =>
    simp only [Steps, rest?_withLocks]
    rfl
  | failure failure => rfl

/-- A step that begins after a page was read is one that begins with that page. -/
theorem Steps.of_overPage {scan later : Scan} {item : Item} {records : List Record} {locks : Locks}
    (running : scan.ended = false) (nothing : scan.pending = [])
    (within : scan.page < standing.count scan.heap)
    (read : standing.records? (scan.heap.page scan.page) = some records)
    (held : locks.holds (scan.heap.page scan.page) scan.transaction = true)
    (step : Steps standing (scan.overPage records) item later locks) :
    Steps standing scan item later locks := by
  have same := rest?_overPage running nothing within read
  obtain ⟨heap, transaction, outcome⟩ := step
  refine ⟨heap, transaction, ?_⟩
  cases item with
  | failure failure => trivial
  | done =>
    obtain ⟨nothing, locked⟩ := outcome
    refine ⟨same.trans nothing, fun number from_ below => ?_⟩
    -- The page that was read is locked, and the step locks the later ones.
    rcases Nat.lt_or_eq_of_le from_ with beyond | here
    · exact locked number beyond below
    · rw [← here]
      exact held
  -- A record that is given stands on the page that was read or on a later one.
  | record record =>
    obtain ⟨going, remains, locked⟩ := outcome
    refine ⟨going, same.trans remains, fun number from_ below => ?_⟩
    rcases Nat.lt_or_eq_of_le from_ with beyond | here
    · exact locked number beyond below
    · rw [← here]
      exact held

/-- A record that was read before is given without looking at a page. -/
theorem steps_pending {scan : Scan} {record : Record} {rest : List Record} (locks : Locks)
    (running : scan.ended = false) (waiting : scan.pending = record :: rest) :
    Steps standing scan (.record record) { scan with pending := rest } locks := by
  refine ⟨rfl, rfl, running, ?_, ?_⟩
  · have alive : ¬ scan.ended = true := by rw [running]; decide
    simp only [Scan.rest?, if_neg alive, waiting, Option.map_map]
    rfl
  · intro number from_ below
    -- No page was gone over.
    exact absurd below (Nat.not_lt.2 from_)

/-- Going on over the pages that are left gives the first record of what remains. -/
theorem ensures_advance (consistent : db.Consistent kind) (scan : Scan) {limit : Nat}
    (running : scan.ended = false) (pages : limit = db.standing.count scan.heap - scan.page) :
    Op.Ensures (advance limit scan) db fun result after => ∃ item later, result = .ok (item, later)
      ∧ Gains kind scan.transaction db after
      ∧ Steps db.standing scan item later after.locks := by
  have alive : ¬ scan.ended = true := by rw [running]; decide
  have start := consistent.stays.gains scan.transaction
  -- The limit is the number of pages left, so each page that is read takes one off.
  induction limit generalizing db scan with
  | zero =>
    unfold advance
    rw [if_neg alive]
    cases waiting : scan.pending with
    | nil =>
      -- No page is left, so nothing remains.
      refine .pure ⟨.done, _, rfl, start, rfl, rfl, ?_, ?_⟩
      · rw [rest?, if_neg alive, ← pages, waiting]
        rfl
      · intro number from_ below
        omega
    | cons record rest => exact .pure ⟨_, _, rfl, start, steps_pending _ running waiting⟩
  | succ limit ih =>
    unfold advance
    rw [if_neg alive]
    cases waiting : scan.pending with
    | nil =>
      refine .attempt_bind (ensures_nextRecords consistent scan) ?_
      intro answer middle ended
      obtain ⟨gains, read⟩ := ended
      cases answer with
      | error failure => exact .pure ⟨_, _, rfl, gains, rfl, rfl, trivial⟩
      | ok records =>
        -- A page may have no records at all, so what the next pages hold decides.
        obtain ⟨found, held⟩ := read records rfl
        have left : limit = middle.standing.count (scan.overPage records).heap
            - (scan.overPage records).page := by
          simp only [overPage, Standing.count, gains.shown_eq] at pages ⊢
          omega
        have later := ih gains.consistent (scan.overPage records) running left alive
          (gains.consistent.stays.gains scan.transaction)
        refine later.mono ?_
        intro result after more
        obtain ⟨item, last, told, further, step⟩ := more
        rw [gains.standing, steps_withLocks] at step
        exact ⟨item, last, told, gains.trans further,
          step.of_overPage running waiting (by omega) found (further.advances.holds _ held)⟩
    | cons record rest => exact .pure ⟨_, _, rfl, start, steps_pending _ running waiting⟩

/-- A scan that has not ended gives the first record of what remains. -/
theorem ensures_next (consistent : db.Consistent kind) (scan : Scan) (running : scan.ended = false)
    (registered : db.catalog.heap? scan.heap.table = some scan.heap) :
    Op.Ensures scan.next db fun result after => ∃ item later, result = .ok (item, later)
      ∧ Gains kind scan.transaction db after ∧ Steps db.standing scan item later after.locks := by
  refine .run_bind (heapPageCount_eq consistent registered) ?_
  exact ensures_advance consistent scan running rfl

/-- A scan that has ended gives nothing any more. -/
theorem ensures_next_ended (consistent : db.Consistent kind) {scan : Scan} (ended : scan.ended = true)
    (registered : db.catalog.heap? scan.heap.table = some scan.heap) :
    Op.Ensures scan.next db fun result after => result = .ok (.done, scan) ∧ after = db := by
  refine .run_bind (heapPageCount_eq consistent registered) ?_
  unfold advance
  rw [if_pos ended]
  exact ⟨rfl, rfl⟩

/-- If a scan came to its end without a failure, it gave all that remained, and locked its pages. -/
def Completes (standing : Standing) (scan : Scan) (items : List Item) (locks : Locks) : Prop :=
  ∀ records : List Record, items = records.map .record ++ [.done] →
    scan.rest? standing = some records
      ∧ ∀ number, scan.page ≤ number → number < standing.count scan.heap →
        locks.holds (scan.heap.page number) scan.transaction = true

/-- What a scan gives does not depend on who holds which lock. -/
theorem completes_withLocks {scan : Scan} {items : List Item} {other locks : Locks} :
    Completes (standing.withLocks other) scan items locks ↔ Completes standing scan items locks := by
  simp only [Completes, rest?_withLocks]
  rfl

/-- A step that does not end the scan goes before what the scan gives then. -/
theorem Completes.cons {scan later : Scan} {item : Item} {items : List Item} {before after : Locks}
    (step : Steps standing scan item later before) (going : item ≠ .done)
    (completes : later.ended = false → Completes standing later items after)
    (kept : ∀ page, before.holds page scan.transaction = true →
      after.holds page scan.transaction = true) :
    Completes standing scan (item :: items) after := by
  intro records all
  obtain ⟨heap, transaction, outcome⟩ := step
  -- An item that does not end the scan is a record, if the scan completes at all.
  cases records with
  | nil =>
    simp only [List.map_nil, List.nil_append, List.cons.injEq] at all
    exact absurd all.1 going
  | cons record rest =>
    simp only [List.map_cons, List.cons_append, List.cons.injEq] at all
    obtain ⟨rfl, all⟩ := all
    obtain ⟨running, remains, locked⟩ := outcome
    obtain ⟨last, more⟩ := completes running rest all
    rw [last] at remains
    refine ⟨remains, fun number from_ below => ?_⟩
    -- The pages up to the record were locked by the step, and the others later.
    rcases Nat.lt_or_ge number later.page with early | late
    · exact kept _ (locked number from_ early)
    · rw [heap, transaction] at more
      exact more number late below

/-- A scan over a registered heap gains locks at most, and gives all that remains if it completes. -/
theorem ensures_take (consistent : db.Consistent kind) (scan : Scan) (count : Nat)
    (registered : db.catalog.heap? scan.heap.table = some scan.heap) :
    Op.Ensures (take count scan) db fun result after => ∃ items later, result = .ok (items, later)
      ∧ Gains kind scan.transaction db after
      ∧ (scan.ended = false → Completes db.standing scan items after.locks) := by
  have start := consistent.stays.gains scan.transaction
  -- Each item is one step, and the scan that is left goes on from there.
  induction count generalizing db scan with
  | zero =>
    refine .pure ⟨[], scan, rfl, start, fun _ records nothing => ?_⟩
    simp at nothing
  | succ count ih =>
    unfold take
    cases ended : scan.ended with
    | true =>
      refine (ensures_next_ended consistent ended registered).bind ?_ ?_
      · intro failure after told
        cases told.1
      intro value after told
      obtain ⟨same, rfl⟩ := told
      cases same
      exact .pure ⟨_, _, rfl, start, by simp⟩
    | false =>
      refine (ensures_next consistent scan ended registered).bind ?_ ?_
      · intro failure after told
        obtain ⟨_, _, told, _⟩ := told
        cases told
      intro value middle told
      obtain ⟨item, later, told, gains, step⟩ := told
      cases told
      have heap := step.1
      have transaction := step.2.1
      have still : middle.catalog.heap? later.heap.table = some later.heap := by
        rw [gains.catalog_eq, heap]
        exact registered
      cases item with
      -- The scan is over, and nothing more is asked of it.
      | done =>
        obtain ⟨_, _, nothing, locked⟩ := step
        refine .pure ⟨_, _, rfl, gains, fun _ records all => ?_⟩
        cases records with
        | nil => exact ⟨nothing, locked⟩
        | cons record rest => simp at all
      -- Whatever was given, the rest of the scan gives the rest.
      | record _ | failure _ =>
        refine (ih gains.consistent later still (gains.consistent.stays.gains _)).bind ?_ ?_
        · intro failure after told
          obtain ⟨_, _, told, _⟩ := told
          cases told
        intro value after told
        obtain ⟨items, last, told, further, completes⟩ := told
        cases told
        rw [transaction] at further
        refine .pure ⟨_, _, rfl, gains.trans further, fun _ => ?_⟩
        refine Completes.cons step (by simp) (fun running => ?_) further.advances.holds
        rw [gains.standing] at completes
        exact completes_withLocks.1 (completes running)

end Scan

end HeapEngine
