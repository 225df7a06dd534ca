import HeapEngine.Proofs.Database.Residency
import HeapEngine.Proofs.Database.Steps.Commands

/-!
Committing and writing everything while every store accepts what it is given.

A page that is in memory can be written in its place, so nothing but its table can be missing: a table that
was replaced cannot be found any more, and changes of its pages are not written.
-/

namespace HeapEngine

/--
What callers keep to when they register a heap over any store, also one that another heap is over.

The store holds pages of the common size, and no page that is in memory has the number that is given out, as
one could after all numbers were given out once.
-/
def Command.Fitting (db : Database) : Command → Prop
  | addHeap _ store => (∀ image ∈ (db.storage.view store).images, image.length = db.settings.pageSize)
    ∧ ∀ id, id.table = db.catalog.nextNumber → db.pool.page? id = none
  | _ => True

/-- A number is free if no page in memory has it. -/
theorem Pool.free_iff {pool : Pool} {number : Nat} :
    (∀ id, id.table = number → pool.page? id = none) ↔ ∀ id ∈ pool.frames.keys, id.table ≠ number := by
  -- The keys of the frames are the pages in memory, and there are finitely many of them to look at.
  have none_iff : ∀ id, pool.page? id = none ↔ id ∉ pool.frames.keys := by
    intro id
    rw [SortedMap.mem_keys_iff, Pool.page?, Option.map_eq_none_iff, SortedMap.contains, Bool.not_eq_true,
      Option.isSome_eq_false_iff, Option.isNone_iff_eq_none]
  exact ⟨fun free id member here => (none_iff id).1 (free id here) member,
    fun others id here => (none_iff id).2 fun member => others id member here⟩

instance decideFitting (db : Database) : (command : Command) → Decidable (command.Fitting db)
  | .addHeap _ store => decidable_of_iff
    ((∀ image ∈ (db.storage.view store).images, image.length = db.settings.pageSize)
      ∧ ∀ id ∈ db.pool.frames.keys, id.table ≠ db.catalog.nextNumber)
    (and_congr_right fun _ => Pool.free_iff.symm)
  | .acquire .. | .insert .. | .delete .. | .scan .. | .finish .. | .writeBack _ | .writeBackOf _ | .checkpoint
  | .start _ | .ask _ | .releaseEarly .. | .discard _ | .setFailing .. => isTrue trivial

/-- A heap over a store of its own is fitting. -/
theorem Command.Proper.fitting {db : Database} {command : Command} (proper : command.Proper db) :
    command.Fitting db := by
  cases command with
  | addHeap name store => exact proper.2
  | _ => trivial

namespace Database

variable {db before after : Database} {id : PageId} {heap : Heap}

/--
The databases that emerge over heaps, also where heaps share a store.

Commands may have been served in any order, tables replaced among them, and callers may have asked for
locks, changed the pages in memory and made stores on their own.
-/
inductive Emerges : Database → Prop
  | fresh {db : Database} (fresh : Fresh (fun _ => True) db) : Emerges db
  | serve {db after : Database} {command : Command} {result : Except Failure Reply} (emerges : Emerges db)
      (fitting : command.Fitting db) (served : db.serve command = .ok (result, after)) : Emerges after
  | lock {db : Database} {id : PageId} {asker : TransactionId} {mode : LockMode} {locks : Locks}
      (emerges : Emerges db) (granted : db.locks.grant? id asker mode = some locks) :
      Emerges { db with locks }
  | unlock {db : Database} (id : PageId) (holder : TransactionId) (emerges : Emerges db) :
      Emerges { db with locks := (db.locks.release id holder).2 }
  | unlockAll {db : Database} (holder : TransactionId) (emerges : Emerges db) :
      Emerges { db with locks := (db.locks.releaseAll holder).2 }
  | handle {db : Database} {id : PageId} {page changed : Page} (emerges : Emerges db)
      (resident : db.pool.page? id = some page) (handles : Handles page changed) :
      Emerges { db with pool := db.pool.editResident id fun _ => changed }
  /-- Stores that no heap is over are made, or change. -/
  | store {db : Database} {storage : Storage} (emerges : Emerges db)
      (same : ∀ number heap, db.catalog.heap? number = some heap →
        storage.view heap.store = db.storage.view heap.store) : Emerges { db with storage }

/-- What arises over heaps on stores of their own emerges. -/
theorem Arises.emerges (arises : Arises db) : Emerges db := by
  -- Each way of arising is one of emerging; only what is asked of a new heap is weaker here.
  induction arises with
  | fresh fresh => exact .fresh fresh
  | serve _ proper served ih => exact .serve ih proper.fitting served
  | lock _ granted ih => exact .lock ih granted
  | unlock id holder _ ih => exact .unlock id holder ih
  | unlockAll holder _ ih => exact .unlockAll holder ih
  | handle _ resident handles ih => exact .handle ih resident handles
  | store _ same ih => exact .store ih same

/-- Every fitting command leaves all pages in their places, unless it traps. -/
theorem Housed.ends_perform (housed : db.Housed) {command : Command} (fitting : command.Fitting db) :
    Op.Permits command.perform db fun _ after => after.Housed := by
  -- All other commands make small steps, which leave every page in its place.
  cases command with
  | addHeap name store =>
    have adds : Op.Permits (addHeap name store) db fun _ after => after.Housed :=
      ends_addHeap (fun _ => housed) fun _ _ registered => housed.registered fitting.1 fitting.2 registered
    exact adds.reply
  | _ => exact Op.Ends.mono (housed.moves_perform nofun) fun _ _ ended => ended.1.housed housed

/-- In every database that emerges, all pages in memory have their places. -/
theorem Emerges.housed (emerges : Emerges db) : db.Housed := by
  induction emerges with
  | fresh fresh => exact fresh.intact.housed
  | serve _ fitting served ih => exact run_permits (ih.ends_perform fitting) served
  | lock _ granted ih => exact ih.withLocks _
  | unlock id holder _ ih => exact ih.withLocks _
  | unlockAll holder _ ih => exact ih.withLocks _
  | handle _ resident handles ih => exact ih.editResident fun _ _ => handles.keeps (ih.kept _ _ resident)
  | store _ same ih =>
    -- A store that no heap is over is not looked at by any page in memory.
    have stands := standing_withOthers same
    refine ⟨ih.settings, ih.catalog, ih.tables, fun number heap registered => ?_, fun id page resident => ?_⟩
    · rw [same number heap registered]
      exact ih.stores number heap registered
    · rw [stands]
      exact ih.kept id page resident

/-- No store of a registered heap refuses what is written. -/
def Accepting (db : Database) : Prop :=
  ∀ number heap, db.catalog.heap? number = some heap → (db.storage.view heap.store).writesFail = false

/-- A database is accepting if the store of every heap among its tables is. -/
theorem accepting_iff : db.Accepting ↔ ∀ number ∈ db.catalog.tables.keys, ∀ heap ∈ db.catalog.heap? number,
    (db.storage.view heap.store).writesFail = false := by
  refine ⟨fun accepting number _ heap registered => accepting number heap registered,
    fun all number heap registered => all number ?_ heap registered⟩
  -- A heap that is found is among the tables that are listed.
  rw [SortedMap.mem_keys_iff, SortedMap.contains]
  cases found : db.catalog.tables.find? number with
  | none => simp [Catalog.heap?, found] at registered
  | some _ => rfl

instance decideAccepting (db : Database) : Decidable db.Accepting := decidable_of_iff' _ accepting_iff

/-- The first of some pages that has changes and whose table is not registered. -/
def homeless? (db : Database) (ids : List PageId) : Option PageId :=
  ids.find? fun id => db.pool.isUnwritten id && (db.catalog.heap? id.table).isNone

/-- No page is homeless exactly if the table of each one with changes is registered. -/
theorem homeless?_eq_none {ids : List PageId} : db.homeless? ids = none
    ↔ ∀ id ∈ ids, db.pool.isUnwritten id = true → ∃ heap, db.catalog.heap? id.table = some heap := by
  simp [homeless?, Option.ne_none_iff_exists']

/-- A homeless page is one of those given, with changes and without a table. -/
theorem of_homeless?_eq_some {ids : List PageId} (found : db.homeless? ids = some id) :
    id ∈ ids ∧ db.pool.isUnwritten id = true ∧ db.catalog.heap? id.table = none := by
  -- What `find?` gives passes the test, and the test says both.
  have lost := List.find?_some found
  rw [Bool.and_eq_true, Option.isNone_iff_eq_none] at lost
  exact ⟨List.mem_of_find?_eq_some found, lost⟩

/-- A page is homeless alone, or it is one of those after it. -/
theorem homeless?_cons (rest : List PageId) :
    db.homeless? (id :: rest) = (db.homeless? [id]).or (db.homeless? rest) := by
  rw [← List.singleton_append, homeless?, List.find?_append]
  rfl

/-- Some of the pages given were written, and all else in memory, the locks and the tables are as before. -/
structure Cleans (ids : List PageId) (before after : Database) : Prop where
  housed : after.Housed
  accepting : after.Accepting
  catalog : after.catalog = before.catalog
  locks : after.locks = before.locks
  /-- A page that was not written is there with what it had. -/
  kept : ∀ id, after.pool.page? id = before.pool.page? id
    ∨ id ∈ ids ∧ after.pool.isUnwritten id = false ∧ (before.catalog.heap? id.table).isSome = true

namespace Cleans

variable {ids more : List PageId}

theorem refl (housed : db.Housed) (accepting : db.Accepting) (ids : List PageId) : Cleans ids db db :=
  ⟨housed, accepting, rfl, rfl, fun _ => .inl rfl⟩

/-- A page without a table stays as it is. -/
theorem page?_of_missing (cleans : Cleans ids before after) (missing : before.catalog.heap? id.table = none) :
    after.pool.page? id = before.pool.page? id := by
  rcases cleans.kept id with same | ⟨_, _, registered⟩
  · exact same
  · simp [missing] at registered

/-- A page that is without changes stays so. -/
theorem clean (cleans : Cleans ids before after) (clean : before.pool.isUnwritten id = false) :
    after.pool.isUnwritten id = false := by
  rcases cleans.kept id with same | ⟨_, written, _⟩
  · rw [Pool.isUnwritten, same]
    exact clean
  · exact written

/-- Which page is homeless is not changed by writing others. -/
theorem homeless?_eq (cleans : Cleans ids before after) (more : List PageId) :
    after.homeless? more = before.homeless? more := by
  -- A page that was written has a registered table, so it was not homeless before and is not now.
  have same : ∀ id, (after.pool.isUnwritten id && (after.catalog.heap? id.table).isNone)
      = (before.pool.isUnwritten id && (before.catalog.heap? id.table).isNone) := by
    intro id
    rw [cleans.catalog]
    rcases cleans.kept id with same | ⟨_, _, registered⟩
    · rw [Pool.isUnwritten, Pool.isUnwritten, same]
    · obtain ⟨heap, registered⟩ := Option.isSome_iff_exists.1 registered
      simp [registered]
  rw [homeless?, homeless?, funext same]

theorem trans {middle : Database} (first : Cleans ids before middle) (second : Cleans more middle after) :
    Cleans (ids ++ more) before after where
  housed := second.housed
  accepting := second.accepting
  catalog := second.catalog.trans first.catalog
  locks := second.locks.trans first.locks
  kept id := by
    -- What the second part did to a page counts, and where it did nothing what the first one did.
    rcases second.kept id with same | ⟨member, written, registered⟩
    · rcases first.kept id with earlier | ⟨member, written, registered⟩
      · exact .inl (same.trans earlier)
      · refine .inr ⟨List.mem_append_left _ member, ?_, registered⟩
        rwa [Pool.isUnwritten, same]
    · rw [first.catalog] at registered
      exact .inr ⟨List.mem_append_right _ member, written, registered⟩

end Cleans

/-- A store goes on accepting, whatever it holds. -/
theorem Accepting.of_shows (accepting : db.Accepting) (housed : db.Housed) {storage : Storage} {view : StoreView}
    {number : Nat} (registered : db.catalog.heap? number = some heap)
    (shows : Storage.Shows db.storage heap.store view storage) (accepts : view.writesFail = false) :
    Accepting { db with storage } := by
  intro other neighbour known
  -- Another heap is over the same store or over one that is not touched.
  rcases housed.same_or_apart registered known with same | apart
  · rw [same, shows.here]
    exact accepts
  · rw [shows.apart _ apart]
    exact accepting other neighbour known

/--
Some pages were written in turn, up to the first that is homeless.

If there is none, all of them are without changes now and the answer is as it should be.
-/
def CleansUpTo {α : Type} (ids : List PageId) (before : Database) (answers : α → Prop) (result : Except Failure α)
    (after : Database) : Prop :=
  Cleans ids before after ∧
    match before.homeless? ids with
    | none => (∀ id ∈ ids, after.pool.isUnwritten id = false) ∧ ∃ value, result = .ok value ∧ answers value
    | some lost => result = .error (.noTable lost.table)

/-- What is known of the answer may be told in other words. -/
theorem CleansUpTo.mono {α : Type} {ids : List PageId} {answers : α → Prop} {more : α → Prop}
    {result : Except Failure α} (cleans : CleansUpTo ids before answers result after)
    (implies : ∀ value, answers value → more value) : CleansUpTo ids before more result after := by
  refine ⟨cleans.1, ?_⟩
  have told := cleans.2
  -- Only the answer of a run without a homeless page is told in other words.
  cases homeless : before.homeless? ids with
  | some lost =>
    rw [homeless] at told
    exact told
  | none =>
    rw [homeless] at told
    obtain ⟨clean, value, same, answered⟩ := told
    exact ⟨clean, value, same, implies value answered⟩

/-- After one page the others are written, unless the one is homeless. -/
theorem CleansUpTo.bind {α β : Type} {first : Op Database β} {next : β → Op Database α} {rest : List PageId}
    {answersFirst : β → Prop} {answers : α → Prop}
    (one : Op.Ensures first db (CleansUpTo [id] db answersFirst))
    (others : ∀ value middle, Cleans [id] db middle → db.homeless? [id] = none → answersFirst value →
      Op.Ensures (next value) middle (CleansUpTo rest middle answers)) :
    Op.Ensures (first >>= next) db (CleansUpTo (id :: rest) db answers) := by
  -- A failure can only be the first page's being homeless, and a success excludes that.
  refine one.bind (fun failure after ended => ?_) fun value middle ended => ?_
  · obtain ⟨cleans, told⟩ := ended
    refine ⟨cleans.trans (.refl cleans.housed cleans.accepting rest), ?_⟩
    cases alone : db.homeless? [id] with
    | none => simp [alone] at told
    | some lost =>
      rw [alone] at told
      rw [homeless?_cons, alone, Option.some_or]
      cases told
      rfl
  · obtain ⟨cleans, told⟩ := ended
    cases alone : db.homeless? [id] with
    | some lost => simp [alone] at told
    | none =>
      rw [alone] at told
      obtain ⟨clean, _, same, answered⟩ := told
      cases same
      -- The others are homeless or not as they were before the first page was written.
      refine (others value middle cleans alone answered).mono fun result after later => ?_
      obtain ⟨onwards, told⟩ := later
      refine ⟨cleans.trans onwards, ?_⟩
      rw [cleans.homeless?_eq] at told
      rw [homeless?_cons, alone, Option.none_or]
      cases homeless : db.homeless? rest with
      | some lost =>
        rw [homeless] at told
        exact told
      | none =>
        rw [homeless] at told
        exact ⟨List.forall_mem_cons.2 ⟨onwards.clean (clean id List.mem_cons_self), told.1⟩, told.2⟩

namespace Housed

variable (housed : db.Housed) (accepting : db.Accepting)

include housed accepting

/-- A page is written if it has changes, and nothing but a table that is not registered hinders that. -/
theorem ensures_writeBack_accepting (id : PageId) :
    Op.Ensures (writeBack id) db (CleansUpTo [id] db (· = db.pool.isUnwritten id)) := by
  -- Each end of writing one page is one line of the claim; a refusal is excluded as all stores accept.
  refine (housed.ensures_writeBack id).mono fun result after writing => ?_
  cases writing with
  | clean clean =>
    have nothing : db.pool.isUnwritten id = false := by
      rw [Bool.eq_false_iff, ne_eq, Pool.isUnwritten_iff]
      rintro ⟨page, resident, dirty⟩
      simp [clean page resident] at dirty
    have found : db.homeless? [id] = none := by simp [homeless?, nothing]
    rw [CleansUpTo, found]
    exact ⟨.refl housed accepting _, List.forall_mem_singleton.2 nothing, _, rfl, nothing.symm⟩
  | missing resident dirty missing =>
    have unwritten : db.pool.isUnwritten id = true := Pool.isUnwritten_iff.2 ⟨_, resident, dirty⟩
    have lost : db.homeless? [id] = some id := by simp [homeless?, unwritten, missing]
    rw [CleansUpTo, lost]
    exact ⟨.refl housed accepting _, rfl⟩
  | refused resident dirty registered refuses shows =>
    rw [accepting _ _ registered] at refuses
    cases refuses
  | @written page heap image storage resident dirty registered accepts encoded shows =>
    have unwritten : db.pool.isUnwritten id = true := Pool.isUnwritten_iff.2 ⟨_, resident, dirty⟩
    have found : db.homeless? [id] = none := by simp [homeless?, registered]
    have step : Step db { db with storage, pool := db.pool.editResident id Page.markWritten } :=
      .write resident registered encoded shows
    have now : (db.pool.editResident id Page.markWritten).isUnwritten id = false := by
      simp [Pool.isUnwritten, Pool.page?_editResident, resident, Page.markWritten, Page.isDirty]
    rw [CleansUpTo, found]
    refine ⟨⟨step.housed housed, accepting.of_shows housed registered shows accepts, rfl, rfl, fun other => ?_⟩,
      List.forall_mem_singleton.2 now, _, rfl, unwritten.symm⟩
    by_cases here : other = id
    · subst here
      exact .inr ⟨List.mem_cons_self, now, by simp [registered]⟩
    · left
      show (db.pool.editResident id Page.markWritten).page? other = db.pool.page? other
      rw [Pool.page?_editResident, if_neg here]

theorem ensures_writeBackEach_accepting (ids : List PageId) :
    Op.Ensures (writeBackEach ids) db (CleansUpTo ids db fun _ => True) := by
  -- The pages that are left are written in what the earlier ones left, so the database varies.
  induction ids generalizing db with
  | nil => exact .pure ⟨.refl housed accepting _, by simp, (), rfl, trivial⟩
  | cons id rest ih =>
    exact CleansUpTo.bind (housed.ensures_writeBack_accepting accepting id) fun _ _ cleans _ _ =>
      ih cleans.housed cleans.accepting

/-- The tables that are noted are those noted before and some that are registered. -/
theorem ensures_writeBackNoting_accepting (written : List Nat) (ids : List PageId) :
    Op.Ensures (writeBackNoting written ids) db (CleansUpTo ids db fun tables =>
      ∀ number ∈ tables, number ∈ written ∨ ∃ heap, db.catalog.heap? number = some heap) := by
  -- What was noted so far is carried along, and what is noted next is registered.
  induction ids generalizing db written with
  | nil => exact .pure ⟨.refl housed accepting _, by simp, written, rfl, fun _ => .inl⟩
  | cons id rest ih =>
    refine CleansUpTo.bind (housed.ensures_writeBack_accepting accepting id) fun _ middle cleans found wrote_eq => ?_
    -- Whether the table is noted or was noted before, the others are written in the same way.
    have goesOn (tables : List Nat)
        (known : ∀ number ∈ tables, number ∈ written ∨ ∃ heap, db.catalog.heap? number = some heap) :
        Op.Ensures (writeBackNoting tables rest) middle (CleansUpTo rest middle fun tables =>
          ∀ number ∈ tables, number ∈ written ∨ ∃ heap, db.catalog.heap? number = some heap) := by
      refine (ih cleans.housed cleans.accepting tables).mono fun result after ended => ?_
      refine ended.mono fun others registered number member => ?_
      rw [cleans.catalog] at registered
      exact (registered number member).elim (known number) .inr
    refine .ite (fun adds => goesOn _ fun number member => ?_) fun _ => goesOn _ fun _ => .inl
    rcases List.mem_append.1 member with old | new
    · exact .inl old
    · -- The table of a page that was written is registered.
      rw [List.mem_singleton.1 new]
      exact .inr (homeless?_eq_none.1 found id List.mem_cons_self (wrote_eq ▸ (Bool.and_eq_true_iff.1 adds).1))

end Housed

/-- Tables that are registered can be made durable, and the pages in memory stay as they are. -/
theorem OverHeaps.ensures_syncEach (heaps : db.OverHeaps) {numbers : List Nat}
    (registered : ∀ number ∈ numbers, ∃ heap, db.catalog.heap? number = some heap) :
    Op.Ensures (syncEach numbers) db fun result after => result = .ok () ∧ after.pool = db.pool := by
  -- Only the storage changes, so the tables that are left are registered still.
  apply ends_syncEach fun rest middle => (∀ number ∈ rest, ∃ heap, db.catalog.heap? number = some heap)
    ∧ ∃ storage, middle = { db with storage }
  · rintro number rest _ ⟨left, storage, rfl⟩
    obtain ⟨here, others⟩ := List.forall_mem_cons.1 left
    have same : OverHeaps { db with storage } := heaps
    refine same.ends_tableAt_bind (fun missing => ?_) fun heap _ => ?_
    · obtain ⟨heap, known⟩ := here
      cases known.symm.trans missing
    · refine .onStorage ((Storage.ensures_sync storage heap.store).mono fun result later ended => ?_)
      rw [ended.1]
      exact ⟨others, later, rfl⟩
  · rintro _ ⟨_, storage, rfl⟩
    exact ⟨rfl, rfl⟩
  · exact ⟨registered, db.storage, rfl⟩

namespace Housed

variable (housed : db.Housed) (accepting : db.Accepting)

include housed accepting

/-- A commit writes all that the transaction changed, unless a table of it was replaced. -/
theorem ensures_commit_accepting (transaction : TransactionId) :
    Op.Ensures (finish transaction .commit) db fun result after =>
      match db.homeless? (db.pool.changedBy transaction) with
      | none => result = .ok () ∧ after.pool.changedBy transaction = []
        ∧ ∀ id, after.locks.holds id transaction = false
      | some lost => result = .error (.noTable lost.table) ∧ after.locks = db.locks
        ∧ lost ∈ after.pool.changedBy transaction := by
  have writes : Op.Ensures (writeBackOf transaction) db
      (CleansUpTo (db.pool.changedBy transaction) db fun _ => True) :=
    .get_bind (housed.ensures_writeBackEach_accepting accepting _)
  refine writes.bind (fun failure after ended => ?_) fun _ middle ended => ?_
  -- The commit failed, so a page was homeless, and it was not written and keeps its mark.
  · obtain ⟨cleans, told⟩ := ended
    cases homeless : db.homeless? (db.pool.changedBy transaction) with
    | none => simp [homeless] at told
    | some lost =>
      rw [homeless] at told
      refine ⟨told, cleans.locks, ?_⟩
      obtain ⟨member, _, missing⟩ := of_homeless?_eq_some homeless
      rw [Pool.mem_changedBy] at member ⊢
      rwa [cleans.page?_of_missing missing]
  -- The commit wrote everything, so what is left is to see that no mark and no lock is.
  · obtain ⟨cleans, told⟩ := ended
    cases homeless : db.homeless? (db.pool.changedBy transaction) with
    | some lost => simp [homeless] at told
    | none =>
      rw [homeless] at told
      refine Op.Ends.run_bind rfl (.pure ⟨rfl, List.eq_nil_iff_forall_not_mem.2 fun id member => ?_, fun id => ?_⟩)
      · -- A page with the mark would have had it before, and would be written.
        obtain ⟨page, resident, mark⟩ := Pool.mem_changedBy.1 member
        have resident : middle.pool.page? id = some page := resident
        have unwritten : middle.pool.isUnwritten id = true :=
          Pool.isUnwritten_iff.2 ⟨page, resident, by rw [Page.isDirty, mark]; rfl⟩
        rcases cleans.kept id with same | ⟨_, clean, _⟩
        · rw [told.1 id (Pool.mem_changedBy.2 ⟨page, same ▸ resident, mark⟩)] at unwritten
          cases unwritten
        · rw [clean] at unwritten
          cases unwritten
      · show (middle.locks.releaseAll transaction).2.holds id transaction = false
        simp [Locks.holds, Locks.isReader_releaseAll, Locks.isWriter_releaseAll]

/-- A checkpoint writes all changes, unless a table of them was replaced. -/
theorem ensures_checkpoint_accepting :
    Op.Ensures checkpoint db fun result after =>
      match db.homeless? db.pool.frames.keys with
      | none => result = .ok () ∧ ∀ id, after.pool.isUnwritten id = false
      | some lost => result = .error (.noTable lost.table) ∧ after.pool.isUnwritten lost = true := by
  unfold checkpoint
  refine .get_bind ((housed.ensures_writeBackNoting_accepting accepting [] _).bind (fun failure after ended => ?_)
    fun tables middle ended => ?_)
  -- The checkpoint failed, so a page was homeless, and it has its changes still.
  · obtain ⟨cleans, told⟩ := ended
    cases homeless : db.homeless? db.pool.frames.keys with
    | none => simp [homeless] at told
    | some lost =>
      rw [homeless] at told
      cases told
      refine ⟨rfl, ?_⟩
      obtain ⟨_, unwritten, missing⟩ := of_homeless?_eq_some homeless
      rwa [Pool.isUnwritten, cleans.page?_of_missing missing]
  -- All pages were written, and making the tables durable changes no page.
  · obtain ⟨cleans, told⟩ := ended
    cases homeless : db.homeless? db.pool.frames.keys with
    | some lost => simp [homeless] at told
    | none =>
      rw [homeless] at told
      obtain ⟨clean, _, same, registered⟩ := told
      cases same
      have known : ∀ number ∈ tables, ∃ heap, middle.catalog.heap? number = some heap := by
        intro number member
        rw [cleans.catalog]
        exact (registered number member).resolve_left List.not_mem_nil
      refine (cleans.housed.overHeaps.ensures_syncEach known).mono fun result after ended => ?_
      obtain ⟨rfl, pool⟩ := ended
      refine ⟨rfl, fun id => ?_⟩
      rw [pool]
      cases frame : db.pool.frames.find? id with
      | some _ => exact clean id (SortedMap.mem_keys_iff.2 (by rw [SortedMap.contains, frame]; rfl))
      | none =>
        -- A page that was not in memory is not there now.
        refine cleans.clean ?_
        simp [Pool.isUnwritten, Pool.page?, frame]

end Housed

/--
While every store accepts what is written, only a table that was replaced hinders a commit or a checkpoint.

A commit succeeds exactly if the table of each page that the transaction changed is registered still, and a
checkpoint if that is so of each page with changes, of which none is left then. Otherwise the first page
whose table is not registered is told; a commit keeps its locks then, and that page its mark.
-/
theorem commit_unhindered (emerges : Emerges db) (accepting : db.Accepting) :
    (∀ transaction, Op.Ensures (finish transaction .commit) db fun result after =>
      match db.homeless? (db.pool.changedBy transaction) with
      | none => result = .ok () ∧ after.pool.changedBy transaction = []
        ∧ ∀ id, after.locks.holds id transaction = false
      | some lost => result = .error (.noTable lost.table) ∧ after.locks = db.locks
        ∧ lost ∈ after.pool.changedBy transaction)
    ∧ Op.Ensures checkpoint db fun result after =>
      match db.homeless? db.pool.frames.keys with
      | none => result = .ok () ∧ ∀ id, after.pool.isUnwritten id = false
      | some lost => result = .error (.noTable lost.table) ∧ after.pool.isUnwritten lost = true :=
  ⟨emerges.housed.ensures_commit_accepting accepting, emerges.housed.ensures_checkpoint_accepting accepting⟩

/-- Whether commands are fitting and answered, one after the other. -/
def FitAll (db : Database) : List Command → Prop
  | [] => True
  | command :: rest =>
    command.Fitting db ∧ (db.answer? command.perform).isSome = true ∧ (db.after command.perform).FitAll rest

instance decideFitAll : (db : Database) → (commands : List Command) → Decidable (db.FitAll commands)
  | _, [] => isTrue trivial
  | db, command :: rest =>
    have := decideFitAll (db.after command.perform) rest
    inferInstanceAs (Decidable (_ ∧ _ ∧ _))

/-- Fitting commands that are answered lead to a database that emerges. -/
theorem Emerges.afterAll {commands : List Command} (emerges : Emerges db) (fit : db.FitAll commands) :
    Emerges (db.afterAll commands) := by
  -- Every command begins where the ones before it have led.
  induction commands generalizing db with
  | nil => exact emerges
  | cons command rest ih =>
    obtain ⟨fitting, answered, later⟩ := fit
    obtain ⟨result, told⟩ := Option.isSome_iff_exists.1 answered
    exact ih (.serve emerges fitting (run_eq told)) later

/-- A database without tables, and with two stores in memory. -/
def beforeTables : Database where
  settings := ⟨64, 2, .ofMilliseconds 1⟩
  catalog := .empty 64
  storage := { Storage.empty "" with
    arrays := (SortedMap.empty.insert 0 (PageArray.empty 64)).insert 1 (PageArray.empty 64) }
  locks := .empty
  pool := .empty
  calls := .empty

/-- There are no tables before the first is registered. -/
theorem fresh_beforeTables : Fresh (fun _ => True) beforeTables := by
  refine ⟨⟨by decide, rfl, ?_, ?_, ?_, ?_, Locks.exclusive_empty⟩, rfl, rfl⟩
  · intro number table found
    cases found
  · intro a b x y _ here
    cases here
  · intro number heap registered
    cases registered
  · intro number image member
    cases member

/-- Of two tables that transactions changed, one was replaced under its name. -/
def oneReplaced : Database :=
  beforeTables.afterAll [.addHeap "left" (.memory 0), .addHeap "right" (.memory 1),
    .insert ⟨1⟩ 1 ⟨none, [.blob []]⟩, .insert ⟨2⟩ 2 ⟨none, [.blob []]⟩, .addHeap "left" (.memory 0)]

theorem emerges_oneReplaced : Emerges oneReplaced := .afterAll (.fresh fresh_beforeTables) (by decide +kernel)

/-- The commit of one transaction is hindered and the other's is not, as both changed pages of other tables. -/
theorem commit_unhindered_right : Emerges oneReplaced ∧ oneReplaced.Accepting
    ∧ (Op.Ensures (finish ⟨2⟩ .commit) oneReplaced fun result after => result = .ok () ∧ after.pool.changedBy ⟨2⟩ = [])
    ∧ Op.Ensures (finish ⟨1⟩ .commit) oneReplaced fun result after =>
      result = .error (.noTable 1) ∧ after.locks = oneReplaced.locks := by
  have accepting : oneReplaced.Accepting := by decide +kernel
  obtain ⟨commits, _⟩ := commit_unhindered emerges_oneReplaced accepting
  have left : oneReplaced.homeless? (oneReplaced.pool.changedBy ⟨1⟩) = some ⟨1, 0⟩ := by decide +kernel
  have right : oneReplaced.homeless? (oneReplaced.pool.changedBy ⟨2⟩) = none := by decide +kernel
  refine ⟨emerges_oneReplaced, accepting, ?_⟩
  -- From here on it does not matter which database this is.
  generalize oneReplaced = db at commits left right ⊢
  refine ⟨(commits ⟨2⟩).mono fun result after ended => ?_, (commits ⟨1⟩).mono fun result after ended => ?_⟩
  · rw [right] at ended
    exact ⟨ended.1, ended.2.1⟩
  · rw [left] at ended
    exact ⟨ended.1, ended.2.1⟩

/-- A table that is replaced leaves changes that no commit and no checkpoint writes, though no store fails. -/
theorem commit_hindered : Emerges oneReplaced ∧ oneReplaced.Accepting
    ∧ oneReplaced.answer? (Command.finish ⟨1⟩ .commit).perform = some (.error (.noTable 1))
    ∧ oneReplaced.answer? Command.checkpoint.perform = some (.error (.noTable 1)) :=
  ⟨emerges_oneReplaced, by decide +kernel, by decide +kernel, by decide +kernel⟩

end Database

end HeapEngine
