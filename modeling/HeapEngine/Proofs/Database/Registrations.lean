import Mathlib.Logic.ExistsUnique
import HeapEngine.Proofs.Database.Tables
import HeapEngine.Table.Detached

/-!
Registering tables, one after the other: which number a name stands for, and which table a number.

A name stands for the table that was registered under it last. A number that was given out once is not given
out again before all others were, so the number of a table that was replaced finds nothing any more.
-/

namespace HeapEngine

/-- A table that was registered, with its name and the number it was given. -/
structure Registration where
  name : String
  number : Nat
  table : Table

/-- What was registered under a name last, where the last registration stands first. -/
def latest? (log : List Registration) (name : String) : Option Registration :=
  log.find? fun entry => entry.name = name

section Latest

variable {log : List Registration} {entry new : Registration} {name : String}

/-- What was registered last under a name is one of the registrations under that name. -/
theorem mem_of_latest? (found : latest? log name = some entry) : entry ∈ log ∧ entry.name = name :=
  ⟨List.mem_of_find?_eq_some found, by simpa using List.find?_some found⟩

/-- A name was registered last by something if it was registered at all. -/
theorem exists_latest?_iff : (∃ entry, latest? log name = some entry) ↔ ∃ entry ∈ log, entry.name = name := by
  rw [← Option.isSome_iff_exists, latest?, List.find?_isSome]
  simp

/-- A registration is the last one under its name, and no other name notices it. -/
theorem latest?_cons : latest? (new :: log) name = if new.name = name then some new else latest? log name := by
  by_cases same : new.name = name
  · simp [latest?, same]
  · simp [latest?, same]

/-- What was registered last is among the later registrations, if the name is. -/
theorem latest?_append (later earlier : List Registration) (name : String) :
    latest? (later ++ earlier) name = (latest? later name).or (latest? earlier name) := List.find?_append

end Latest

namespace Catalog

variable {catalog : Catalog} {log : List Registration} {name : String}

/--
A catalog is what so many registrations left of an empty one, the last of which stands first.

There are not so many of them that the numbers begin anew.
-/
structure Records (catalog : Catalog) (log : List Registration) : Prop where
  next : catalog.nextNumber = log.length + 1
  numbers : ∀ name, catalog.numbers.find? name = (latest? log name).map Registration.number
  tables : ∀ number table, catalog.tables.find? number = some table
    ↔ ∃ entry, latest? log entry.name = some entry ∧ entry.number = number ∧ entry.table = table
  falling : log.Pairwise fun later earlier => earlier.number < later.number
  below : ∀ entry ∈ log, entry.number ≤ log.length

namespace Records

theorem empty (pageSize : Nat) : Records (.empty pageSize) [] where
  next := rfl
  numbers _ := rfl
  tables number table := by simp [Catalog.empty, latest?]
  falling := .nil
  below := by simp

variable (records : catalog.Records log)

include records

/-- Registrations of one number are the same, since every number was given out once. -/
theorem eq_of_number {entry other : Registration} (here : entry ∈ log) (there : other ∈ log)
    (same : entry.number = other.number) : entry = other := by
  obtain ⟨i, within, rfl⟩ := List.getElem_of_mem here
  obtain ⟨j, inside, rfl⟩ := List.getElem_of_mem there
  have falls := List.pairwise_iff_getElem.1 records.falling
  -- Of two different places the later one has the smaller number.
  rcases Nat.lt_trichotomy i j with before | rfl | behind
  · exact absurd same (Nat.ne_of_gt (falls i j within inside before))
  · rfl
  · exact absurd same (Nat.ne_of_lt (falls j i inside within behind))

/-- The number of a registration is found, with its table, if it is the last one under its name. -/
theorem find_of_latest {entry : Registration} (last : latest? log entry.name = some entry) :
    catalog.find entry.number = .ok entry.table := by
  rw [Catalog.find, (records.tables entry.number entry.table).2 ⟨entry, last, rfl, rfl⟩]

/-- The number of a registration is not found if another one followed under its name. -/
theorem find_of_replaced {later earlier : List Registration} {entry : Registration}
    (split : log = later ++ entry :: earlier) (again : ∃ other ∈ later, other.name = entry.name) :
    catalog.find entry.number = .error (.noTable entry.number) := by
  rw [Catalog.find]
  cases found : catalog.tables.find? entry.number with
  | none => rfl
  | some table =>
    obtain ⟨other, last, number, _⟩ := (records.tables entry.number table).1 found
    -- No two registrations have one number, so the one that is found is this one.
    cases records.eq_of_number (mem_of_latest? last).1 (by simp [split]) number
    obtain ⟨newest, first⟩ := exists_latest?_iff.2 again
    rw [split, latest?_append, first] at last
    cases last
    -- It would stand among those that followed it, whose numbers are greater.
    have falls := (List.pairwise_append.1 (split ▸ records.falling)).2.2
    exact absurd (falls entry (mem_of_latest? first).1 entry List.mem_cons_self) (Nat.lt_irrefl _)

/-- A number is found exactly if one name stands for it. -/
theorem find_iff (number : Nat) :
    (∃ table, catalog.find number = .ok table) ↔ ∃! name, catalog.number? name = some number := by
  constructor
  · rintro ⟨table, found⟩
    unfold Catalog.find at found
    split at found
    · rename_i there
      obtain ⟨entry, last, rfl, _⟩ := (records.tables number _).1 there
      refine ⟨entry.name, ?_, fun name stands => ?_⟩
      · show catalog.numbers.find? entry.name = _
        rw [records.numbers, last]
        rfl
      · have stands : catalog.numbers.find? name = some entry.number := stands
        rw [records.numbers, Option.map_eq_some_iff] at stands
        obtain ⟨other, found, number⟩ := stands
        obtain ⟨registered, called⟩ := mem_of_latest? found
        cases records.eq_of_number registered (mem_of_latest? last).1 number
        exact called.symm
    · cases found
  · rintro ⟨name, stands, _⟩
    have stands : catalog.numbers.find? name = some number := stands
    rw [records.numbers, Option.map_eq_some_iff] at stands
    obtain ⟨entry, found, rfl⟩ := stands
    exact ⟨entry.table, records.find_of_latest (by rw [(mem_of_latest? found).2, found])⟩

/-- No registration has the number that is given out next. -/
theorem ne_next {entry : Registration} (registered : entry ∈ log) : entry.number ≠ catalog.nextNumber := by
  have below := records.below entry registered
  have next := records.next
  omega

/-- What was the last one under its name stays it, unless a new registration takes its name. -/
theorem latest_cons_iff {new : Registration} {number : Nat} (other : number ≠ new.number) (table : Table) :
    (∃ entry, latest? (new :: log) entry.name = some entry ∧ entry.number = number ∧ entry.table = table)
      ↔ (latest? log new.name).map Registration.number ≠ some number ∧ catalog.tables.find? number = some table := by
  rw [records.tables]
  constructor
  · rintro ⟨entry, last, rfl, rfl⟩
    rw [latest?_cons] at last
    split at last
    · cases last
      exact absurd rfl other
    · rename_i apart
      refine ⟨fun taken => ?_, entry, last, rfl, rfl⟩
      -- What has its number is the registration itself, so the new one would have its name.
      obtain ⟨taken, found, number⟩ := Option.map_eq_some_iff.1 taken
      obtain ⟨registered, called⟩ := mem_of_latest? found
      cases records.eq_of_number registered (mem_of_latest? last).1 number
      exact apart called.symm
  · rintro ⟨kept, entry, last, rfl, rfl⟩
    refine ⟨entry, ?_, rfl, rfl⟩
    rw [latest?_cons, if_neg]
    · exact last
    · intro same
      exact kept (by rw [same, last]; rfl)

/-- The tables after a registration are those that were the last ones under their names, with the new one. -/
theorem find?_tables_register (name : String) (build : Nat → Table) (number : Nat) (table : Table) :
    (catalog.register name build).2.tables.find? number = some table
      ↔ ∃ entry, latest? (⟨name, catalog.nextNumber, build catalog.nextNumber⟩ :: log) entry.name = some entry
        ∧ entry.number = number ∧ entry.table = table := by
  rw [find?_register]
  by_cases new : number = catalog.nextNumber
  · -- The new registration is the only one of its number.
    rw [if_pos new]
    subst new
    constructor
    · rintro ⟨⟩
      exact ⟨_, by rw [latest?_cons, if_pos rfl], rfl, rfl⟩
    · rintro ⟨entry, last, number, rfl⟩
      rcases List.mem_cons.1 (mem_of_latest? last).1 with rfl | old
      · rfl
      · exact absurd number (records.ne_next old)
  · -- Any other number is found as before, if its name was not taken from it.
    rw [if_neg new, records.numbers, records.latest_cons_iff new]
    split
    · rename_i taken
      simp [taken]
    · rename_i kept
      simp [kept]

/-- One more table is registered: it is the last one under its name, and its number is the next one. -/
theorem register (name : String) (build : Nat → Table) (fewer : log.length + 2 < numberLimit) :
    Records (catalog.register name build).2
      (⟨name, (catalog.register name build).1, build (catalog.register name build).1⟩ :: log) where
  next := by
    show (catalog.nextNumber + 1) % numberLimit = log.length + 1 + 1
    rw [records.next, Nat.mod_eq_of_lt fewer]
  numbers other := by
    show (catalog.numbers.insert name catalog.nextNumber).find? other = _
    rw [SortedMap.find?_insert, latest?_cons, records.numbers]
    by_cases same : name = other
    · simp [same, Catalog.register]
    · simp [same, Ne.symm same]
  tables := records.find?_tables_register name build
  falling := List.pairwise_cons.2 ⟨fun entry registered => by
    show entry.number < catalog.nextNumber
    rw [records.next]
    exact Nat.lt_succ_of_le (records.below entry registered), records.falling⟩
  below := by
    intro entry registered
    rcases List.mem_cons.1 registered with rfl | old
    · exact Nat.le_of_eq records.next
    · exact Nat.le_succ_of_le (records.below entry old)

end Records

/-- A heap that is accepted is registered as any other table is. -/
theorem register_of_registerHeap {store : StoreId} {pageSize : Nat} {heap : Heap} {next : Catalog}
    (registered : catalog.registerHeap name store pageSize = .ok (heap, next)) :
    catalog.register name (fun number => .heap ⟨number, store⟩) = (heap.table, next)
      ∧ heap = ⟨heap.table, store⟩ := by
  unfold registerHeap at registered
  split at registered
  · cases registered
  · cases registered
    exact ⟨rfl, rfl⟩

end Catalog

namespace Database

variable {db after : Database} {log : List Registration}

/-- What is registered under a name. -/
inductive Registrand where
  /-- A heap over a store that is there already. -/
  | heap (store : StoreId)
  | memoryHeap
  | fileHeap (path : String)
  /-- A table of the caller's own. -/
  | custom (build : Nat → TableFormat)

/-- Registers something under a name, and gives the registration. -/
def Registrand.register (name : String) : Registrand → Op Database Registration
  | heap store => do
    let heap ← addHeap name store
    return ⟨name, heap.table, .heap heap⟩
  | memoryHeap => do
    let heap ← addMemoryHeap name (← get).catalog.pageSize
    return ⟨name, heap.table, .heap heap⟩
  | fileHeap path => do
    let heap ← addFileHeap name path
    return ⟨name, heap.table, .heap heap⟩
  | custom build => do
    let number ← addCustom name build
    return ⟨name, number, .custom (build number)⟩

/--
A database in which so many registrations succeeded, the last of which stands first.

Others failed in between, and anything else was done that registers no table.
-/
inductive Registers : Database → List Registration → Prop
  | fresh {db : Database} {pageSize : Nat} (fresh : db.catalog = .empty pageSize) : Registers db []
  | accept {db after : Database} {log : List Registration} {name : String} {registrand : Registrand}
      {entry : Registration} (registers : Registers db log)
      (accepted : registrand.register name db = .ok entry after) : Registers after (entry :: log)
  | reject {db after : Database} {log : List Registration} {name : String} {registrand : Registrand}
      {fault : Fault} (registers : Registers db log)
      (rejected : registrand.register name db = .error fault after) : Registers after log
  | other {db after : Database} {log : List Registration} (registers : Registers db log)
      (same : after.catalog = db.catalog) : Registers after log

/-- What a registration comes to: a table under the next number, or nothing at all. -/
def Registered (db : Database) (name : String) : Except Failure Registration → Database → Prop
  | .ok entry, after => entry.name = name
    ∧ ∃ build, db.catalog.register name build = (entry.number, after.catalog) ∧ entry.table = build entry.number
  | .error _, after => after.catalog = db.catalog

/-- What registering a heap over some store comes to. -/
def HeapAdded (db : Database) (name : String) : Except Failure Heap → Database → Prop
  | .ok heap, after => ∃ store, heap = ⟨heap.table, store⟩
    ∧ db.catalog.register name (fun number => .heap ⟨number, store⟩) = (heap.table, after.catalog)
  | .error _, after => after.catalog = db.catalog

/-- A heap is registered as any other table is, once its store is made. -/
theorem ensures_addHeap_over {name : String} {action : Op Storage StoreId}
    (ends : Op.Ensures action db.storage fun _ _ => True) :
    Op.Ensures (do addHeap name (← onStorage action)) db (HeapAdded db name) := by
  have makes : Op.Ensures (onStorage action) db fun _ after => after.catalog = db.catalog :=
    .onStorage (ends.mono fun _ _ _ => rfl)
  refine makes.bind (fun _ _ kept => kept) fun store before same => ?_
  refine ends_addHeap (fun _ => same) fun heap next registered => ?_
  obtain ⟨entered, heap⟩ := Catalog.register_of_registerHeap registered
  exact ⟨store, heap, same ▸ entered⟩

/-- Opening a file as a store does not trap. -/
theorem ensures_openFile (path : String) (pageSize : Nat) (storage : Storage) :
    Op.Ensures (Storage.openFile path pageSize) storage fun _ _ => True := by
  have resolves : Op.Ensures (Storage.resolve path) storage fun _ _ => True := by
    unfold Op.Ensures Op.Ends Storage.resolve
    cases FileName.resolve storage.directory storage.files.contains path <;> trivial
  exact resolves.bind (fun _ _ _ => trivial) fun _ _ _ => trivial

/-- A heap that was registered is a registration of its table. -/
theorem ensures_reply_heap {name : String} {action : Op Database Heap}
    (adds : Op.Ensures action db (HeapAdded db name)) :
    Op.Ensures (do let heap ← action; return (⟨name, heap.table, .heap heap⟩ : Registration)) db
      (Registered db name) := by
  refine adds.bind (fun _ _ kept => kept) fun heap after added => ?_
  obtain ⟨store, same, entered⟩ := added
  exact .pure ⟨rfl, _, entered, congrArg Table.heap same⟩

/-- Whatever is registered is a table under the next number, or it is refused and no table changes. -/
theorem Registrand.ensures_register (name : String) (registrand : Registrand) (db : Database) :
    Op.Ensures (registrand.register name) db (Registered db name) := by
  cases registrand with
  | heap store =>
    -- The store is there already, and making it does nothing.
    have there : Op.Ensures (pure store : Op Storage StoreId) db.storage fun _ _ => True := .pure trivial
    exact ensures_reply_heap (ensures_addHeap_over there)
  | memoryHeap =>
    have makes : Op.Ensures (Storage.addArray db.catalog.pageSize) db.storage fun _ _ => True := trivial
    exact .get_bind (ensures_reply_heap (ensures_addHeap_over makes))
  | fileHeap path =>
    exact ensures_reply_heap (.get_bind (ensures_addHeap_over (ensures_openFile path _ _)))
  | custom build => exact ⟨rfl, fun number => .custom (build number), rfl, rfl⟩

/-- The catalog of a database is what the registrations left of an empty one. -/
theorem Registers.records (registers : Registers db log) (fewer : log.length + 1 < Catalog.numberLimit) :
    db.catalog.Records log := by
  induction registers with
  | fresh fresh => exact fresh ▸ .empty _
  | @accept db after log name registrand entry _ accepted ih =>
    have ended := registrand.ensures_register name db
    rw [Op.Ensures, Op.Ends, accepted] at ended
    obtain ⟨rfl, build, entered, table⟩ := ended
    have records := (ih (Nat.lt_of_succ_lt fewer)).register entry.name build fewer
    rw [entered] at records
    rwa [← table] at records
  | @reject db after log name registrand fault _ rejected ih =>
    have ended := registrand.ensures_register name db
    rw [Op.Ensures, Op.Ends, rejected] at ended
    cases fault with
    | failed failure => exact (show after.catalog = db.catalog from ended) ▸ ih fewer
    -- Registering does not trap.
    | trapped cause => exact ended.elim
  | other _ same ih => exact same ▸ ih fewer

/-- A heap is registered exactly if the pages of its store have the size that the catalog's have. -/
theorem addHeap_refused_iff (db : Database) (name : String) (store : StoreId) :
    db.storage.pageSize store ≠ db.catalog.pageSize ↔ addHeap name store db = .error
      (.failed (.badSettings (.tablePageSize name (db.storage.pageSize store) db.catalog.pageSize))) db := by
  have runs : addHeap name store db = match db.catalog.registerHeap name store (db.storage.pageSize store) with
      | .ok (heap, next) => .ok heap { db with catalog := next }
      | .error failure => .error (.failed failure) db := by
    show (ofResult _ >>= _ : Op Database Heap) db = _
    cases db.catalog.registerHeap name store (db.storage.pageSize store) <;> rfl
  rw [runs, Catalog.registerHeap]
  by_cases size : db.storage.pageSize store ≠ db.catalog.pageSize
  · simp [size]
  · rw [if_neg size]
    simpa using size

/--
A name stands for a number exactly if something was registered under it, and the number finds what was
registered last. Exactly the numbers that one name stands for are found.

Numbers rise from one registration to the next, and one whose name was registered again is not found any
more. A store with pages of another size than the catalog's is refused, which changes nothing.
-/
theorem registrations_consistent (registers : Registers db log) (fewer : log.length < Catalog.numberLimit - 1) :
    (∀ name, (∃ number, db.catalog.number? name = some number) ↔ ∃ entry ∈ log, entry.name = name)
      ∧ (∀ name entry, latest? log name = some entry → db.catalog.number? name = some entry.number
        ∧ db.catalog.find entry.number = .ok entry.table)
      ∧ (∀ number, (∃ table, db.catalog.find number = .ok table)
        ↔ ∃! name, db.catalog.number? name = some number)
      ∧ log.Pairwise (fun later earlier => earlier.number < later.number)
      ∧ (∀ later entry earlier, log = later ++ entry :: earlier → (∃ other ∈ later, other.name = entry.name) →
        db.catalog.find entry.number = .error (.noTable entry.number))
      ∧ ∀ name store, db.storage.pageSize store ≠ db.catalog.pageSize ↔ addHeap name store db = .error
        (.failed (.badSettings (.tablePageSize name (db.storage.pageSize store) db.catalog.pageSize))) db := by
  have records := registers.records (by omega)
  refine ⟨fun name => ?_, fun name entry last => ?_, records.find_iff, records.falling,
    fun _ _ _ => records.find_of_replaced, addHeap_refused_iff db⟩
  · rw [← exists_latest?_iff, Catalog.number?, records.numbers]
    cases latest? log name <;> simp
  · refine ⟨?_, records.find_of_latest (by rw [(mem_of_latest? last).2, last])⟩
    rw [Catalog.number?, records.numbers, last]
    rfl

/-- A name that is registered again stands for the new number, whatever was refused in between. -/
theorem registrations_consistent_replaced : ∃ db log, Registers db log ∧ log.length < Catalog.numberLimit - 1
    ∧ log.map (fun entry => (entry.name, entry.number)) = [("a", 3), ("b", 2), ("a", 1)]
    ∧ db.catalog.number? "a" = some 3 ∧ (∃ table, db.catalog.find 2 = .ok table)
    ∧ db.catalog.find 1 = .error (.noTable 1) := by
  let start : Database := ⟨⟨64, 1, ⟨1⟩⟩, .empty 64, .empty "", .empty, .empty, .empty⟩
  have first := Registers.accept (.fresh rfl : Registers start [])
    (rfl : Registrand.memoryHeap.register "a" start = .ok _ _)
  have second := first.accept (rfl : (Registrand.custom (.detached 64 1 [] none)).register "b" _ = .ok _ _)
  -- Nothing was stored under this number, so its pages have no bytes.
  have refused := second.reject (rfl : (Registrand.heap (.memory 7)).register "b" _ = .error _ _)
  have third := refused.accept (rfl : Registrand.memoryHeap.register "a" _ = .ok _ _)
  obtain ⟨-, stands, -, -, replaced, -⟩ := registrations_consistent third (by decide)
  refine ⟨_, _, third, by decide, rfl, (stands "a" _ rfl).1, ⟨_, (stands "b" _ rfl).2⟩, ?_⟩
  exact replaced [_, _] _ [] rfl ⟨_, List.mem_cons_self, rfl⟩

end Database

end HeapEngine
