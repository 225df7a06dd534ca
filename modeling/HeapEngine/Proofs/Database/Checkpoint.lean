import HeapEngine.Proofs.Database.Coherent
import HeapEngine.Proofs.Database.Durable
import HeapEngine.Proofs.Database.Isolation
import HeapEngine.Proofs.Database.Unhindered
import HeapEngine.Proofs.Pool.Recency
import HeapEngine.Proofs.Storage.Counts

/-!
A checkpoint writes all pages with changes and makes their tables durable, or stops at the first page that cannot
be written.

The stores may come to refuse pages at any time, also between two pages that are written.
-/

namespace HeapEngine

namespace Pool

/-- The pages in memory with changes, ascending. -/
def unwritten (pool : Pool) : List PageId := pool.frames.keys.filter pool.isUnwritten

theorem mem_unwritten {pool : Pool} {id : PageId} : id ∈ pool.unwritten ↔ pool.isUnwritten id = true := by
  rw [unwritten, List.mem_filter, and_iff_right_iff_imp, SortedMap.mem_keys_iff]
  intro unwritten
  -- A page with changes is in memory, so it has a frame.
  obtain ⟨page, resident, _⟩ := isUnwritten_iff.1 unwritten
  obtain ⟨frame, found, _⟩ := Option.map_eq_some_iff.1 resident
  rw [SortedMap.contains, found]
  rfl

theorem pairwise_unwritten (pool : Pool) : pool.unwritten.Pairwise (· < ·) :=
  (SortedMap.pairwise_keys pool.frames).filter _

/-- Pages in memory lose their marks. -/
def markAllWritten (pool : Pool) (ids : List PageId) : Pool :=
  ids.foldl (fun pool id => pool.editResident id Page.markWritten) pool

/-- Pages that lose their marks keep their places in memory, and the order of their last use. -/
theorem lastUse?_markAllWritten (pool : Pool) (ids : List PageId) :
    (pool.markAllWritten ids).clock = pool.clock
      ∧ ∀ id, (pool.markAllWritten ids).lastUse? id = pool.lastUse? id := by
  induction ids generalizing pool with
  | nil => exact ⟨rfl, fun _ => rfl⟩
  | cons id rest ih =>
    obtain ⟨clock, uses⟩ := pool.lastUse?_editResident id Page.markWritten
    obtain ⟨still, same⟩ := ih (pool.editResident id Page.markWritten)
    exact ⟨still.trans clock, fun other => (same other).trans (uses other)⟩

/-- Pages that lose their marks hold what they held. -/
theorem page?_markAllWritten (pool : Pool) (ids : List PageId) (id : PageId) :
    (pool.markAllWritten ids).page? id
      = (pool.page? id).map fun page => if id ∈ ids then page.markWritten else page := by
  induction ids generalizing pool with
  | nil => simp [markAllWritten]
  | cons first rest ih =>
    refine (ih (pool.editResident first Page.markWritten)).trans ?_
    rw [page?_editResident]
    by_cases here : id = first
    · -- A page that has no mark any more loses none.
      subst here
      cases pool.page? id <;> simp [Page.markWritten]
    · simp [here]

end Pool

namespace Database

variable {db before middle after : Database} {id : PageId} {heap : Heap} {number : Nat}

/-- Writes pages in turn and notes their tables, where it is given which pages the stores refuse. -/
def writeBackNotingUnder (refuses : PageId → Bool) (written : List Nat) : List PageId → Op Database (List Nat)
  | [] => return written
  | id :: rest => do
    let wrote ← writeBackUnder refuses id
    if wrote && !written.contains id.table then writeBackNotingUnder refuses (written ++ [id.table]) rest
    else writeBackNotingUnder refuses written rest

/--
Writes all changed pages and makes their tables durable, where it is given which pages the stores refuse.

Only what the stores refuse is given: all else is done as in any checkpoint.
-/
def checkpointUnder (refuses : PageId → Bool) : Op Database Unit := do
  let written ← writeBackNotingUnder refuses [] (← get).pool.frames.keys
  syncEach written

/--
Some pages that had changes were written and some tables made durable, and nothing else happened.

Each page was written once and each table made durable as often as it is listed, which stores in memory count.
-/
structure Serviced (done : List PageId) (synced : List Nat) (before after : Database) : Prop extends
    WritesBack done before after where
  pool : after.pool = before.pool.markAllWritten done
  counts : ∀ number heap store, before.catalog.heap? number = some heap → heap.store = .memory store →
    (after.storage.array store).writeCount
        = (before.storage.array store).writeCount + (done.map PageId.table).count number
      ∧ (after.storage.array store).syncCount = (before.storage.array store).syncCount + synced.count number
  others : ∀ store, (∀ number heap, before.catalog.heap? number = some heap → heap.store ≠ .memory store) →
    after.storage.array store = before.storage.array store

/-- The store of one table was written and made durable so many times more, and no other store in memory changed. -/
def CountsAt (before : Database) (number writes syncs : Nat) (after : Database) : Prop :=
  match before.catalog.heap? number with
  | none => writes = 0 ∧ syncs = 0 ∧ after.storage = before.storage
  | some heap => Storage.Counts before.storage heap.store writes syncs after.storage

theorem CountsAt.refl (db : Database) (number : Nat) : CountsAt db number 0 0 db := by
  unfold CountsAt
  cases db.catalog.heap? number with
  | none => exact ⟨rfl, rfl, rfl⟩
  | some heap => exact ⟨fun _ _ => ⟨rfl, rfl⟩, fun _ _ => rfl⟩

namespace Serviced

/-- What is written and made durable later is counted in addition. -/
theorem append {first second : List PageId} {synced later : List Nat} (one : Serviced first synced before middle)
    (two : Serviced second later middle after) (different : ∀ id ∈ second, id ∉ first) :
    Serviced (first ++ second) (synced ++ later) before after where
  toWritesBack := one.toWritesBack.append two.toWritesBack different
  pool := by rw [two.pool, one.pool, Pool.markAllWritten, Pool.markAllWritten, Pool.markAllWritten, List.foldl_append]
  counts number heap store registered same := by
    obtain ⟨writes, syncs⟩ := one.counts number heap store registered same
    obtain ⟨more, again⟩ := two.counts number heap store (one.catalog ▸ registered) same
    rw [more, again, writes, syncs, List.map_append, List.count_append, List.count_append, Nat.add_assoc, Nat.add_assoc]
    exact ⟨rfl, rfl⟩
  others store apart := by
    have later : after.storage.array store = middle.storage.array store :=
      two.others store fun number heap registered => apart number heap (one.catalog ▸ registered)
    exact later.trans (one.others store apart)

/-- What one table counts is told of it alone, since no other table shares its store. -/
theorem of_countsAt {done : List PageId} {synced : List Nat} (intact : before.Intact)
    (writes : WritesBack done before after) (pool : after.pool = before.pool.markAllWritten done)
    (counts : CountsAt before number done.length synced.length after)
    (ofTable : ∀ id ∈ done, id.table = number) (syncsTable : ∀ other ∈ synced, other = number) :
    Serviced done synced before after := by
  -- All that is listed is of the one table, so a count is a length there and zero elsewhere.
  have tables : ∀ other ∈ done.map PageId.table, other = number := by
    intro other member
    obtain ⟨id, listed, rfl⟩ := List.mem_map.1 member
    exact ofTable id listed
  unfold CountsAt at counts
  cases registered : before.catalog.heap? number with
  | none =>
    rw [registered] at counts
    obtain ⟨nothing, none, same⟩ := counts
    rw [List.length_eq_zero_iff] at nothing none
    subst nothing none
    exact ⟨writes, pool, fun _ _ _ _ _ => by simp [same], fun _ _ => by rw [same]⟩
  | some heap =>
    rw [registered] at counts
    refine ⟨writes, pool, fun other neighbour store known memory => ?_, fun store apart =>
      counts.apart store (apart number heap registered)⟩
    by_cases here : other = number
    · subst here
      cases registered.symm.trans known
      rw [List.count_eq_length.2 fun _ member => (tables _ member).symm,
        List.count_eq_length.2 fun _ member => (syncsTable _ member).symm, List.length_map]
      exact counts.here store memory
    · have apart := intact.orderly.apart number other heap neighbour (Ne.symm here) registered known
      have elsewhere : heap.store ≠ .memory store := by
        intro same
        rw [same, memory] at apart
        exact apart rfl
      rw [counts.apart store elsewhere, List.count_eq_zero.2 fun member => here (tables _ member),
        List.count_eq_zero.2 fun member => here (syncsTable _ member)]
      exact ⟨rfl, rfl⟩

/-- What is done on one table after nothing was done is all that was done. -/
theorem of_nothing {done : List PageId} {synced : List Nat} (nothing : Serviced [] [] before middle)
    (writes : WritesBack done middle after) (pool : after.pool = middle.pool.markAllWritten done)
    (counts : CountsAt middle number done.length synced.length after)
    (ofTable : ∀ id ∈ done, id.table = number) (syncsTable : ∀ other ∈ synced, other = number) :
    Serviced done synced before after :=
  nothing.append (.of_countsAt nothing.intact writes pool counts ofTable syncsTable) fun _ _ => List.not_mem_nil

end Serviced

/-! One page is written, and counted. -/

/-- A page is written once if it has changes, and its table's store counts it. -/
theorem OverHeaps.permits_writeBack_counts (heaps : db.OverHeaps) (id : PageId) :
    Op.Permits (writeBack id) db fun result after =>
      CountsAt db id.table (result.toOption.getD false).toNat 0 after := by
  unfold writeBack
  refine .get_bind ?_
  -- A page without changes, or whose table is unknown, is not counted.
  cases db.pool.page? id with
  | none => exact .pure (.refl db _)
  | some page =>
    refine .ite (fun _ => .pure (.refl db _)) fun _ => ?_
    refine heaps.ends_tableAt_bind (fun _ => .refl db _) fun heap registered => ?_
    have writes : Op.Permits (writeStored id.table (.heap heap) page) db fun result after =>
        Storage.Counts db.storage heap.store result.isOk.toNat 0 after.storage :=
      .onStorage (Storage.permits_write_counts heap.store page db.storage)
    refine writes.bind (fun _ _ counts => ?_) fun _ after counts => .onPool_bind (.pure ?_)
    · rw [CountsAt, registered]
      exact counts
    · rw [CountsAt, registered]
      exact counts

/-- A store that is told what to refuse counts nothing. -/
theorem permits_setRefusing_counts (id : PageId) (refuses : Bool) (db : Database) :
    Op.Permits (setRefusing id refuses) db fun _ after => after.pool = db.pool ∧ CountsAt db id.table 0 0 after := by
  unfold Op.Permits Op.Ends setRefusing CountsAt
  cases db.catalog.heap? id.table with
  | none => exact ⟨rfl, rfl, rfl, rfl⟩
  | some heap =>
    obtain ⟨number, store⟩ := heap
    cases store with
    | memory number => exact ⟨rfl, .setArray rfl rfl⟩
    | file name pageSize => exact ⟨rfl, fun _ same => (by cases same), fun _ _ => rfl⟩

namespace Intact

variable (intact : db.Intact)

include intact

/-- Nothing is written yet. -/
theorem serviced : Serviced [] [] db db where
  toWritesBack := intact.writesBack
  pool := rfl
  counts _ _ _ _ _ := ⟨rfl, rfl⟩
  others _ _ := rfl

/-- A page with changes is written, or refused as it is given, and one without changes is left alone. -/
theorem ensures_writeBackUnder_serviced (refuses : PageId → Bool) (id : PageId) :
    Op.Ensures (writeBackUnder refuses id) db fun result after => match result with
      | .ok true => db.pool.isUnwritten id = true ∧ refusal? refuses db id = none ∧ Serviced [id] [] db after
      | .ok false => db.pool.isUnwritten id = false ∧ Serviced [] [] db after
      | .error failure => db.pool.isUnwritten id = true ∧ refusal? refuses db id = some failure
        ∧ Serviced [] [] db after := by
  refine ((intact.ensures_setRefusing refuses id).and_permits (permits_setRefusing_counts id (refuses id) db)).bind
    (fun _ _ ended => by cases ended.1.1) fun _ told ended => ?_
  obtain ⟨⟨_, same, obeys⟩, pool, counts⟩ := ended
  -- Telling a store what it refuses counts nothing, so what is counted is counted from there on.
  have ready : Serviced [] [] db told := .of_countsAt intact same pool counts (by simp) (by simp)
  have heaps := same.intact.housed.overHeaps
  refine ((same.intact.housed.ensures_writeBack id).and_permits (heaps.permits_writeBack_counts id)).mono ?_
  intro result after ended
  obtain ⟨writing, counts⟩ := ended
  have unwritten : ∀ {page}, told.pool.page? id = some page → page.isDirty = true → db.pool.isUnwritten id = true :=
    fun resident dirty => Pool.isUnwritten_iff.2 ⟨_, pool ▸ resident, dirty⟩
  have whole := writing
  cases writing with
  -- Each end of writing the page is one answer: left alone, no table, refused, or written.
  | clean clean =>
    refine ⟨Bool.eq_false_iff.2 fun unwritten => ?_, ready⟩
    obtain ⟨page, resident, dirty⟩ := Pool.isUnwritten_iff.1 unwritten
    rw [clean page (pool ▸ resident)] at dirty
    cases dirty
  | missing resident dirty missing =>
    have stays := (same.intact.writesBack_of_writing resident dirty whole).1
    refine ⟨unwritten resident dirty, ?_, ready.of_nothing stays rfl counts (by simp) (by simp)⟩
    rw [refusal?, show db.catalog.heap? id.table = none from same.catalog ▸ missing]
  | refused resident dirty registered refused shows =>
    have stays := (same.intact.writesBack_of_writing resident dirty whole).1
    refine ⟨unwritten resident dirty, ?_, ready.of_nothing stays rfl counts (by simp) (by simp)⟩
    rw [obeys _ (same.catalog ▸ registered), refused, if_pos rfl]
  | written resident dirty registered accepts encoded shows =>
    have writes := (same.intact.writesBack_of_writing resident dirty whole).1
    refine ⟨unwritten resident dirty, ?_, ready.of_nothing writes rfl counts (by simp) (by simp)⟩
    rw [obeys _ (same.catalog ▸ registered), accepts]
    rfl

end Intact

/-- What it comes to that pages are gone through in turn, where some tables are noted already. -/
inductive GoesThrough (refuses : PageId → Bool) (ids : List PageId) (noted : List Nat) (before : Database) :
    Except Failure (List Nat) → Database → Prop
  /-- All pages with changes are written, and their tables are noted once each. -/
  | all {tables : List Nat} {after : Database}
      (accepted : ∀ id ∈ ids.filter before.pool.isUnwritten, refusal? refuses before id = none)
      (serviced : Serviced (ids.filter before.pool.isUnwritten) [] before after) (distinct : tables.Nodup)
      (members : ∀ number, number ∈ tables
        ↔ number ∈ noted ∨ ∃ id ∈ ids.filter before.pool.isUnwritten, id.table = number) :
      GoesThrough refuses ids noted before (.ok tables) after
  /-- The pages with changes before the first that is refused are written. -/
  | stopped {done rest : List PageId} {first : PageId} {failure : Failure} {after : Database}
      (split : ids.filter before.pool.isUnwritten = done ++ first :: rest)
      (accepted : ∀ id ∈ done, refusal? refuses before id = none)
      (refused : refusal? refuses before first = some failure) (serviced : Serviced done [] before after) :
      GoesThrough refuses ids noted before (.error failure) after

/-- What is done on one page, if anything, comes before what is done on others. -/
theorem GoesThrough.cons {refuses : PageId → Bool} {first rest : List PageId} {noted more : List Nat}
    {result : Except Failure (List Nat)} (goes : GoesThrough refuses rest more middle result after)
    (here : [id].filter before.pool.isUnwritten = first) (one : Serviced first [] before middle)
    (accepted : ∀ id ∈ first, refusal? refuses before id = none) (fresh : id ∉ rest)
    (tables : ∀ number, number ∈ more ↔ number ∈ noted ∨ ∃ id ∈ first, id.table = number) :
    GoesThrough refuses (id :: rest) noted before result after := by
  have apart : ∀ other ∈ rest, other ∉ first := by
    intro other member listed
    rw [← here] at listed
    exact fresh (List.mem_singleton.1 (List.mem_of_mem_filter listed) ▸ member)
  -- The other pages have changes if they had changes before, and are refused as they are given.
  have same : rest.filter middle.pool.isUnwritten = rest.filter before.pool.isUnwritten :=
    List.filter_congr fun other member => by
      rw [Pool.isUnwritten, (one.kept other (apart other member)).1, Pool.isUnwritten]
  have refusals : ∀ other, refusal? refuses middle other = refusal? refuses before other := fun other => by
    rw [refusal?, one.catalog, refusal?]
  have whole : (id :: rest).filter before.pool.isUnwritten = first ++ rest.filter before.pool.isUnwritten := by
    rw [← here, ← List.filter_append]
    rfl
  cases goes with
  | all all two distinct members =>
    rw [same] at all two members
    refine .all (fun other member => ?_) ?_ distinct fun number => ?_
    · rw [whole, List.mem_append] at member
      exact member.elim (accepted other) fun later => refusals other ▸ all other later
    · rw [whole]
      exact one.append two fun other member => apart other (List.mem_of_mem_filter member)
    · rw [members, tables, or_assoc, whole]
      simp only [List.mem_append, or_and_right, exists_or]
  | stopped split all refused two =>
    rw [same] at split
    refine .stopped (by rw [whole, split, List.append_assoc]) (fun other member => ?_) (refusals _ ▸ refused)
      (one.append two fun other member => apart other ?_)
    · exact (List.mem_append.1 member).elim (accepted other) fun later => refusals other ▸ all other later
    · exact List.mem_of_mem_filter (split ▸ List.mem_append_left _ member)

/-- Pages are gone through in turn: those with changes are written, up to the first that is refused. -/
theorem Intact.ensures_writeBackNotingUnder (intact : db.Intact) (refuses : PageId → Bool) {ids : List PageId}
    (nodup : ids.Nodup) {noted : List Nat} (listed : noted.Nodup) :
    Op.Ensures (writeBackNotingUnder refuses noted ids) db (GoesThrough refuses ids noted db) := by
  induction ids generalizing db noted with
  | nil => exact .pure (.all (by simp) intact.serviced listed (by simp))
  | cons id rest ih =>
    obtain ⟨fresh, others⟩ := List.nodup_cons.1 nodup
    refine (intact.ensures_writeBackUnder_serviced refuses id).bind (fun failure after ended => ?_)
      fun wrote middle ended => ?_
    · obtain ⟨unwritten, refused, stays⟩ := ended
      have split : (id :: rest).filter db.pool.isUnwritten = [] ++ id :: rest.filter db.pool.isUnwritten :=
        List.filter_cons_of_pos unwritten
      exact .stopped split (by simp) refused stays
    cases wrote with
    | false =>
      obtain ⟨clean, stays⟩ := ended
      refine (ih stays.intact others listed).mono fun _ _ goes => ?_
      exact goes.cons (by simp [clean]) stays (by simp) fresh (by simp)
    | true =>
      obtain ⟨unwritten, accepted, writes⟩ := ended
      have onwards {more : List Nat} (distinct : more.Nodup)
          (tables : ∀ number, number ∈ more ↔ number ∈ noted ∨ id.table = number) :
          Op.Ensures (writeBackNotingUnder refuses more rest) middle (GoesThrough refuses (id :: rest) noted db) :=
        (ih writes.intact others distinct).mono fun _ _ goes =>
          goes.cons (by simp [unwritten]) writes (by simpa using accepted) fresh (by simpa using tables)
      -- A table is noted unless it is noted already.
      refine .ite (fun unlisted => ?_) fun already => onwards listed fun number => ?_
      · have new : id.table ∉ noted := by simpa using unlisted
        refine onwards ?_ (by simp [eq_comm])
        exact List.nodup_append.2 ⟨listed, List.nodup_singleton _, by
          rintro number member _ here rfl
          exact new (List.mem_singleton.1 here ▸ member)⟩
      · have old : id.table ∈ noted := by simpa using already
        exact (or_iff_left_of_imp fun here => here ▸ old).symm

/-! Tables are made durable. -/

/-- A table that is registered is made durable. -/
theorem Intact.ensures_syncAt (intact : db.Intact) {number : Nat} {heap : Heap}
    (registered : db.catalog.heap? number = some heap) :
    Op.Ensures (syncAt number) db fun result after => result = .ok () ∧ Serviced [] [number] db after := by
  refine intact.housed.overHeaps.ends_tableAt_bind (fun missing => ?_) fun other known => ?_
  · cases registered.symm.trans missing
  refine .onStorage (((Storage.ensures_sync db.storage other.store).and_permits
    (Storage.permits_sync_counts other.store db.storage)).mono fun _ storage ended => ⟨ended.1.1, ?_⟩)
  have still : WritesBack [] db { db with storage } := .of_storage intact known ended.1.2 rfl rfl
  refine .of_countsAt intact still rfl ?_ (by simp) fun _ member => List.mem_singleton.1 member
  rw [CountsAt, known]
  exact ended.2

/-- Tables that are registered are made durable, each as often as it is listed. -/
theorem Intact.ensures_syncEach (intact : db.Intact) {numbers : List Nat}
    (registered : ∀ number ∈ numbers, ∃ heap, db.catalog.heap? number = some heap) :
    Op.Ensures (syncEach numbers) db fun result after => result = .ok () ∧ Serviced [] numbers db after := by
  apply ends_syncEach fun rest middle => ∃ done, numbers = done ++ rest ∧ Serviced [] done db middle
  · rintro number rest middle ⟨done, split, before⟩
    obtain ⟨heap, known⟩ := registered number (by simp [split])
    refine (before.intact.ensures_syncAt (before.catalog ▸ known)).mono ?_
    rintro _ after ⟨rfl, one⟩
    exact ⟨done ++ [number], by simp [split], before.append one (by simp)⟩
  · rintro middle ⟨done, split, serviced⟩
    rw [List.append_nil] at split
    exact ⟨rfl, split ▸ serviced⟩
  · exact ⟨[], rfl, intact.serviced⟩

/-! A whole checkpoint. -/

/-- What a checkpoint comes to. -/
inductive Checkpoints (refuses : PageId → Bool) (before : Database) : Except Failure Unit → Database → Prop
  /-- All pages with changes are written, and then each table of theirs is made durable once. -/
  | all {tables : List Nat} {middle after : Database}
      (accepted : ∀ id ∈ before.pool.unwritten, refusal? refuses before id = none)
      (writes : Serviced before.pool.unwritten [] before middle)
      (syncs : (syncEach tables).Gives middle (.ok ()) after)
      (distinct : tables.Nodup)
      (members : ∀ number, number ∈ tables ↔ ∃ id ∈ before.pool.unwritten, id.table = number)
      (serviced : Serviced before.pool.unwritten tables before after) (clean : after.pool.unwritten = []) :
      Checkpoints refuses before (.ok ()) after
  /-- The first page that is refused and those after it go on as they were, and no table is made durable. -/
  | stopped {done rest : List PageId} {first : PageId} {failure : Failure} {after : Database}
      (split : before.pool.unwritten = done ++ first :: rest)
      (accepted : ∀ id ∈ done, refusal? refuses before id = none)
      (refused : refusal? refuses before first = some failure) (serviced : Serviced done [] before after)
      (untouched : ∀ id ∈ first :: rest, Untouched before after id) (left : after.pool.unwritten = first :: rest) :
      Checkpoints refuses before (.error failure) after

/-- Which pages are left with changes is told by which were written. -/
theorem Serviced.unwritten_eq {done : List PageId} {synced : List Nat} (serviced : Serviced done synced before after) :
    after.pool.unwritten = before.pool.unwritten.filter fun id => id ∉ done := by
  have ascending := fun (pool : Pool) => pool.pairwise_unwritten
  -- Both lists are ascending, so it is enough that they have the same members.
  refine SortedMap.eq_of_ascending (ascending _) ((ascending _).filter _) fun id => ?_
  rw [List.mem_filter, Pool.mem_unwritten, Pool.mem_unwritten, Pool.isUnwritten, Pool.isUnwritten, serviced.pool,
    Pool.page?_markAllWritten]
  cases before.pool.page? id with
  | none => simp
  | some page => by_cases listed : id ∈ done <;> simp [listed, Page.isDirty, Page.markWritten]

/-- A table whose page is not refused is registered. -/
theorem exists_heap_of_accepted {refuses : PageId → Bool} (accepted : refusal? refuses db id = none) :
    ∃ heap, db.catalog.heap? id.table = some heap := by
  unfold refusal? at accepted
  cases registered : db.catalog.heap? id.table with
  | none =>
    rw [registered] at accepted
    cases accepted
  | some heap => exact ⟨heap, rfl⟩

theorem Intact.ensures_checkpointUnder (intact : db.Intact) (refuses : PageId → Bool) :
    Op.Ensures (checkpointUnder refuses) db (Checkpoints refuses db) := by
  have nodup : db.pool.frames.keys.Nodup := SortedMap.nodup_of_ascending (SortedMap.pairwise_keys _)
  have passes := intact.ensures_writeBackNotingUnder refuses nodup List.nodup_nil
  refine .get_bind (passes.bind (fun failure after goes => ?_) fun tables middle goes => ?_)
  -- The pages after the refused one were not reached, so they are left with their changes.
  · cases goes with
    | @stopped done rest first _ _ split accepted refused serviced =>
      have split : db.pool.unwritten = done ++ first :: rest := split
      have apart : ∀ id ∈ first :: rest, id ∉ done := by
        have distinct := SortedMap.nodup_of_ascending db.pool.pairwise_unwritten
        rw [split, List.nodup_append] at distinct
        exact fun id member listed => distinct.2.2 id listed id member rfl
      refine .stopped split accepted refused serviced (fun id member => serviced.kept id (apart id member)) ?_
      rw [serviced.unwritten_eq, split, List.filter_append, List.filter_eq_nil_iff.2 (by simp),
        List.filter_eq_self.2 fun id member => decide_eq_true (apart id member), List.nil_append]
  cases goes with
  | all accepted writes distinct members =>
    have members : ∀ number, number ∈ tables ↔ ∃ id ∈ db.pool.unwritten, id.table = number := fun number =>
      (members number).trans (or_iff_right List.not_mem_nil)
    -- Only tables of pages that were written are made durable, and these are registered.
    have registered : ∀ number ∈ tables, ∃ heap, middle.catalog.heap? number = some heap := by
      intro number member
      obtain ⟨id, unwritten, rfl⟩ := (members number).1 member
      exact writes.catalog ▸ exists_heap_of_accepted (accepted id unwritten)
    have syncs := writes.intact.ensures_syncEach registered
    refine (syncs.and_permits (.gives _ _)).mono fun result after ended => ?_
    obtain ⟨⟨rfl, synced⟩, gives⟩ := ended
    have serviced := writes.append synced (by simp)
    rw [List.append_nil, List.nil_append] at serviced
    refine .all accepted writes gives distinct members serviced ?_
    rw [serviced.unwritten_eq, List.filter_eq_nil_iff]
    exact fun id unwritten kept => of_decide_eq_true kept unwritten

/-- A checkpoint is one where the stores refuse what they refuse already. -/
theorem Intact.checkpoint_eq (intact : db.Intact) : checkpoint db = checkpointUnder db.refuses db := by
  have same (noted : List Nat) (ids : List PageId) :
      writeBackNotingUnder db.refuses noted ids db = writeBackNoting noted ids db := by
    induction ids generalizing db noted with
    | nil => rfl
    | cons id rest ih =>
      refine intact.writeBackUnder_bind id fun wrote middle still refuses => ?_
      rw [← refuses]
      split
      · exact ih still _
      · exact ih still _
  exact (Op.run_congr (same [] db.pool.frames.keys) _).symm

/-- A checkpoint where there are no changes does nothing. -/
theorem checkpoint_of_clean (clean : db.pool.unwritten = []) : checkpoint.Gives db (.ok ()) db := by
  -- Each page in turn is found without a mark, so the state never changes and no table is noted.
  have idle (id : PageId) : writeBack id db = .ok false db := by
    unfold writeBack
    rw [Op.get_bind_run]
    cases resident : db.pool.page? id with
    | none => rfl
    | some page =>
      have unmarked : page.isDirty = false := Bool.eq_false_iff.2 fun dirty => by
        have member := Pool.mem_unwritten.2 (Pool.isUnwritten_iff.2 ⟨page, resident, dirty⟩)
        rw [clean] at member
        cases member
      simp only [unmarked]
      rfl
  have none (ids : List PageId) : writeBackNoting [] ids db = .ok [] db := by
    induction ids with
    | nil => rfl
    | cons id rest ih => exact (Op.bind_of_ok (idle id) _).trans ih
  exact (Op.bind_of_ok (none db.pool.frames.keys) _)

/-- A page that is in memory after pages were written is like its image if all with changes were among them. -/
theorem WritesBack.like {likeness : Likeness} {done : List PageId} {page : Page} (writes : WritesBack done before after)
    (alike : before.Alike likeness) (all : ∀ id, before.pool.isUnwritten id = true → id ∈ done)
    (resident : after.pool.page? id = some page) (registered : before.catalog.heap? id.table = some heap) :
    ∃ image, after.standing.image? id = some image ∧ likeness.like id image page := by
  -- A page that was written is like its new image, and one that was not had no changes, so it is like its old one.
  by_cases listed : id ∈ done
  · obtain ⟨held, image, there, same, encoded, stored⟩ := writes.written id listed
    cases same.symm.trans resident
    exact ⟨image, stored, (likeness.written id (alike.fair id held there) encoded).2⟩
  · obtain ⟨held, images⟩ := writes.kept id listed
    have there : before.pool.page? id = some page := held ▸ resident
    have clean : page.changedBy = none := by
      cases mark : page.changedBy with
      | none => rfl
      | some writer =>
        exact absurd (all id (Pool.isUnwritten_iff.2 ⟨page, there, by rw [Page.isDirty, mark]; rfl⟩)) listed
    rw [images]
    exact alike.clean id page heap there clean registered

end Database

/-- Over any images, a page is like the image that it was read from, and like the one that it is written as. -/
def Likeness.either : Likeness where
  allows _ := True
  fair _ := True
  like id image page := Page.ofImage id image = .ok page ∨ page.image = .ok image
  allows_image _ _ := trivial
  read _ decoded := ⟨trivial, .inl decoded⟩
  written _ _ _ _ encoded := ⟨trivial, .inr encoded⟩
  fair_empty _ _ _ _ := trivial
  fair_revised _ _ := trivial
  fair_handled _ _ := trivial

/-- Over images that pages were written as, a sound page is like the one that it is written as itself. -/
def Likeness.exact : Likeness where
  allows := ImageKind.written.allows
  fair := Page.Sound
  like _ image page := page.image = .ok image
  allows_image := ImageKind.written.allows_image
  read {id _ _} allowed decoded := by
    refine ⟨ImageKind.written.sound allowed decoded, ?_⟩
    obtain ⟨source, sound, encoded⟩ := allowed
    -- What is read agrees with the page that was written, and pages that agree have one image.
    obtain ⟨read, same, agrees, _⟩ := sound.ofImage_image encoded id
    cases same.symm.trans decoded
    exact agrees.image.trans encoded
  written id page _ sound encoded := ⟨(Page.Agrees.markWritten page).sound sound, encoded⟩
  fair_empty := ImageKind.written.likeness.fair_empty
  fair_revised := ImageKind.written.likeness.fair_revised
  fair_handled := ImageKind.written.likeness.fair_handled

namespace Database

variable {db before after : Database}

/-- Every page in memory whose table is registered is the page that its image holds, or is written as its image. -/
def MatchesImages (db : Database) : Prop :=
  ∀ id page heap, db.pool.page? id = some page → db.catalog.heap? id.table = some heap →
    ∃ image, db.standing.image? id = some image ∧ (Page.ofImage id image = .ok page ∨ page.image = .ok image)

/-- Every page in memory whose table is registered is written as its image. -/
def HoldsImages (db : Database) : Prop :=
  ∀ id page heap, db.pool.page? id = some page → db.catalog.heap? id.table = some heap →
    ∃ image, db.standing.image? id = some image ∧ page.image = .ok image

/-- The same pages are in memory with what they hold and in the order of their last use, and the locks are the same. -/
structure SameButMarks (before after : Database) : Prop where
  contents : ∀ id, (after.pool.page? id).map Page.markWritten = (before.pool.page? id).map Page.markWritten
  clock : after.pool.clock = before.pool.clock
  uses : ∀ id, after.pool.lastUse? id = before.pool.lastUse? id
  locks : after.locks = before.locks

theorem Serviced.sameButMarks {done : List PageId} {synced : List Nat} (serviced : Serviced done synced before after) :
    SameButMarks before after := by
  obtain ⟨clock, uses⟩ := before.pool.lastUse?_markAllWritten done
  refine ⟨fun id => ?_, serviced.pool ▸ clock, serviced.pool ▸ uses, serviced.locks⟩
  rw [serviced.pool, Pool.page?_markAllWritten, Option.map_map]
  congr 1
  funext page
  by_cases listed : id ∈ done <;> simp [listed, Page.markWritten]

/--
A checkpoint writes exactly the pages with changes, and makes exactly their tables durable.

In every database that arises while whoever changes a page marks it, and whichever pages the stores refuse, the pages
in memory with changes are written in ascending order up to the first that is refused. If there is none, each of
their tables is made durable once and no other table is, every page in memory is in step with its image, and another
checkpoint does nothing. Otherwise that refusal is told, and no table is made durable. A checkpoint on its own is one
where the stores refuse what they refuse already.
-/
theorem checkpoint_exact (tended : Tended (fun _ => True) db) (refuses : PageId → Bool) :
    db.pool.unwritten.Pairwise (· < ·)
    ∧ (∀ id, id ∈ db.pool.unwritten ↔ ∃ page, db.pool.page? id = some page ∧ page.isDirty = true)
    ∧ (∃ result after, (checkpointUnder refuses).Gives db result after ∧ Checkpoints refuses db result after
      ∧ SameButMarks db after
      ∧ (result = .ok () → after.MatchesImages ∧ (Tended ImageKind.written.allows db → after.HoldsImages)
        ∧ checkpoint.Gives after (.ok ()) after))
    ∧ checkpoint db = checkpointUnder db.refuses db := by
  have alike : db.Alike .either := Tended.alike tended
  refine ⟨db.pool.pairwise_unwritten, fun _ => Pool.mem_unwritten.trans Pool.isUnwritten_iff, ?_,
    alike.intact.checkpoint_eq⟩
  obtain ⟨result, after, gives, checkpoints⟩ := (alike.intact.ensures_checkpointUnder refuses).exists_gives
  refine ⟨result, after, gives, checkpoints, ?_⟩
  -- Only a checkpoint that goes through leaves every page in step with its image.
  cases checkpoints with
  | stopped _ _ _ serviced _ _ => exact ⟨serviced.sameButMarks, nofun⟩
  | all _ _ _ _ _ serviced clean =>
    have all : ∀ id, db.pool.isUnwritten id = true → id ∈ db.pool.unwritten := fun _ => Pool.mem_unwritten.2
    refine ⟨serviced.sameButMarks, fun _ => ⟨fun id page heap resident registered => ?_, fun written id page heap
      resident registered => ?_, checkpoint_of_clean clean⟩⟩
    · exact serviced.like alike all resident (serviced.catalog ▸ registered)
    · have exactly : db.Alike .exact := Tended.alike written
      exact serviced.like exactly all resident (serviced.catalog ▸ registered)

/-- One heap is registered over the first of two stores in memory. -/
def leftTable : Database := beforeTables.after (Command.addHeap "left" (.memory 0)).perform

/-- Two heaps are registered, each over a store of its own. -/
def bothTables : Database := leftTable.after (Command.addHeap "right" (.memory 1)).perform

/-- The first table is over another store than the second one, and there are no pages yet. -/
theorem tended_bothTables : Tended (fun _ => True) bothTables := by
  have first : beforeTables.answer? (Command.addHeap "left" (.memory 0)).perform
      = some (.ok (.table ⟨1, .memory 0⟩)) := by decide +kernel
  have second : leftTable.answer? (Command.addHeap "right" (.memory 1)).perform
      = some (.ok (.table ⟨2, .memory 1⟩)) := by decide +kernel
  have tables : leftTable.catalog.tables = SortedMap.empty.insert 1 (.heap ⟨1, .memory 0⟩) := rfl
  have proper : (Command.addHeap "left" (.memory 0)).Proper beforeTables := by
    refine ⟨fun _ _ known => ?_, fun image member => ?_, fun _ _ => rfl⟩
    · cases known
    · cases member
  have properToo : (Command.addHeap "right" (.memory 1)).Proper leftTable := by
    refine ⟨fun number heap known _ _ => ?_, fun image member => ?_, fun _ _ => rfl⟩
    · rw [Catalog.heap?, tables, SortedMap.find?_insert] at known
      by_cases here : number = 1
      · rw [if_pos here] at known
        cases known
        rintro ⟨⟩
      · rw [if_neg here] at known
        cases known
    · cases member
  exact .serve (.serve (.fresh fresh_beforeTables) ⟨proper, fun _ _ _ _ _ => trivial⟩ (run_eq first))
    ⟨properToo, fun _ _ _ _ _ => trivial⟩ (run_eq second)

/-- Two transactions have each stored a record in a table of their own. -/
def unsaved : Database :=
  bothTables.afterAll [.insert ⟨1⟩ 1 ⟨none, [.integer 7]⟩, .insert ⟨2⟩ 2 ⟨none, [.integer 8]⟩]

theorem tended_unsaved : Tended (fun _ => True) unsaved :=
  tended_bothTables.afterAll (by simp) (by decide +kernel)

/-- Both pages are written and their tables made durable, or the second page is refused and no table is made durable. -/
theorem checkpoint_exact_unsaved : Tended (fun _ => True) unsaved ∧ unsaved.pool.unwritten = [⟨1, 0⟩, ⟨2, 0⟩]
    ∧ (∃ after, (checkpointUnder fun _ => false).Gives unsaved (.ok ()) after ∧ after.MatchesImages
      ∧ (after.storage.array 1).writeCount = 1 ∧ (after.storage.array 1).syncCount = 1)
    ∧ ∃ after, (checkpointUnder fun id => id = ⟨2, 0⟩).Gives unsaved (.error (.storage .injectedWrite)) after
      ∧ after.pool.unwritten = [⟨2, 0⟩] ∧ (after.storage.array 0).writeCount = 1
      ∧ (after.storage.array 0).syncCount = 0 := by
  have both : unsaved.pool.unwritten = [⟨1, 0⟩, ⟨2, 0⟩] := by decide +kernel
  have left : unsaved.catalog.heap? 1 = some ⟨1, .memory 0⟩ := by decide +kernel
  have right : unsaved.catalog.heap? 2 = some ⟨2, .memory 1⟩ := by decide +kernel
  have unwritten : ∀ store < 2, (unsaved.storage.array store).writeCount = 0 := by decide +kernel
  have unsynced : ∀ store < 2, (unsaved.storage.array store).syncCount = 0 := by decide +kernel
  obtain ⟨_, _, ⟨all, settled, givesAll, checkpointsAll, _, matched⟩, _⟩ :=
    checkpoint_exact tended_unsaved fun _ => false
  obtain ⟨_, _, ⟨some, stuck, givesSome, checkpointsSome, _, _⟩, _⟩ :=
    checkpoint_exact tended_unsaved fun id => id = ⟨2, 0⟩
  have refusals (refuses : PageId → Bool) (id : PageId) (member : id ∈ unsaved.pool.unwritten) :
      refusal? refuses unsaved id = if refuses id then .some (.storage .injectedWrite) else none := by
    rw [both] at member
    simp only [List.mem_cons, List.not_mem_nil, or_false] at member
    rcases member with rfl | rfl
    · rw [refusal?, left]
    · rw [refusal?, right]
  refine ⟨tended_unsaved, both, ?_, ?_⟩
  · cases checkpointsAll with
    | stopped split _ refused _ _ _ =>
      rw [refusals _ _ (by simp [split])] at refused
      cases refused
    | all _ _ _ distinct members serviced _ =>
      obtain ⟨writes, syncs⟩ := serviced.counts 2 ⟨2, .memory 1⟩ 1 right rfl
      refine ⟨settled, givesAll, (matched rfl).1, ?_, ?_⟩
      · rw [writes, unwritten 1 (by decide), both]
        rfl
      · rw [syncs, unsynced 1 (by decide),
          List.count_eq_one_of_mem distinct ((members 2).2 ⟨⟨2, 0⟩, by simp [both], rfl⟩)]
  · cases checkpointsSome with
    | all accepted _ _ _ _ _ _ =>
      have refused := accepted ⟨2, 0⟩ (by simp [both])
      rw [refusals _ _ (by simp [both])] at refused
      cases refused
    | stopped split accepted refused serviced _ kept =>
      have told := refusals (fun id => id = ⟨2, 0⟩) ⟨2, 0⟩ (by simp [both])
      have passed := refusals (fun id => id = ⟨2, 0⟩) ⟨1, 0⟩ (by simp [both])
      have same : _ = [(⟨1, 0⟩ : PageId)] ++ (⟨2, 0⟩ : PageId) :: [] := split.symm.trans both
      obtain ⟨rfl, rfl, rfl⟩ := first_refused_unique same accepted (by simpa using passed) (by simp [refused])
        (by simp [told])
      cases refused.symm.trans told
      obtain ⟨writes, syncs⟩ := serviced.counts 1 ⟨1, .memory 0⟩ 0 left rfl
      refine ⟨stuck, givesSome, kept, ?_, ?_⟩
      · rw [writes, unwritten 0 (by decide)]
        rfl
      · rw [syncs, unsynced 0 (by decide)]
        rfl

end Database

end HeapEngine
