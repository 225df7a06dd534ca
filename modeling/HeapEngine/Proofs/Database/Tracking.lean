import HeapEngine.Proofs.Database.Marks.Run
import HeapEngine.Proofs.Database.Residency
import HeapEngine.Proofs.Database.Undisturbed

/-!
Which pages a transaction has changed can be told from what was asked for and how it was answered.

Nothing is asked of the stores: they may hold and refuse whatever they like. A mark comes with a record that is
stored or deleted, and goes when the page is written, taken back or discarded.
-/

namespace HeapEngine

namespace Database

variable {first db before middle after : Database} {asker : TransactionId} {id : PageId}
  {cleared more : PageId → Prop}

/-- Pages came into memory as some image says, or left it without changes. -/
structure Turns (before after : Database) : Prop where
  fresh : ∀ id page, after.pool.page? id = some page → before.pool.page? id = some page
    ∨ before.mark? id = none ∧ ∃ image, Page.ofImage id image = .ok page
  kept : ∀ id page, before.pool.page? id = some page → page.isDirty = true → after.pool.page? id = some page

/-- A page with changes carries the mark of who made them. -/
theorem isDirty_of_mark {page : Page} {transaction : TransactionId} (mark : page.changedBy = some transaction) :
    page.isDirty = true := by rw [Page.isDirty, mark, Option.isSome_some]

namespace Turns

theorem of_same (same : ∀ id, after.pool.page? id = before.pool.page? id) : Turns before after :=
  ⟨fun id _ there => .inl (same id ▸ there), fun id _ there _ => (same id).trans there⟩

theorem mark?_eq (turns : Turns before after) (id : PageId) : after.mark? id = before.mark? id := by
  refine Option.ext fun transaction => ⟨fun mark => ?_, fun mark => ?_⟩
  · obtain ⟨page, resident, mine⟩ := Option.bind_eq_some_iff.1 mark
    rcases turns.fresh id page resident with old | ⟨_, image, decoded⟩
    · rw [mark?, old]
      exact mine
    · -- What was read anew has no mark.
      rw [(Page.ofImage_eq_ok decoded).2.2] at mine
      cases mine
  · obtain ⟨page, resident, mine⟩ := Option.bind_eq_some_iff.1 mark
    rw [mark?, turns.kept id page resident (isDirty_of_mark mine)]
    exact mine

theorem trans (one : Turns before middle) (two : Turns middle after) : Turns before after where
  fresh id page there := by
    rcases two.fresh id page there with old | ⟨unmarked, image, decoded⟩
    · exact one.fresh id page old
    · exact .inr ⟨(one.mark?_eq id).symm.trans unmarked, image, decoded⟩
  kept id page there dirty := two.kept id page (one.kept id page there dirty) dirty

theorem named (turns : Turns before after) (named : before.Named) : after.Named := by
  intro id page there
  rcases turns.fresh id page there with old | ⟨_, image, decoded⟩
  · exact named id page old
  · exact (Page.ofImage_eq_ok decoded).1

end Turns

/-- A page without changes may leave memory. -/
theorem Turns.of_drop {page : Page} (resident : db.pool.page? id = some page) (clean : page.isDirty = false) :
    Turns db { db with pool := db.pool.drop id } where
  fresh other held there := by
    rw [Pool.page?_drop] at there
    split at there
    · cases there
    · exact .inl there
  kept other held there dirty := by
    have apart : other ≠ id := by
      rintro rfl
      rw [resident] at there
      cases there
      rw [clean] at dirty
      cases dirty
    rw [Pool.page?_drop, if_neg apart]
    exact there

/-- A page may come into memory as an image says if it was not there. -/
theorem Turns.of_load {page : Page} {image : Bytes} (absent : db.pool.page? id = none)
    (decoded : Page.ofImage id image = .ok page) : Turns db { db with pool := (db.pool.load id page).2 } where
  fresh other held there := by
    rw [(db.pool.load_eq id page).1] at there
    split at there
    · rename_i here
      cases there
      rw [here, mark?, absent]
      exact .inr ⟨rfl, image, decoded⟩
    · exact .inl there
  kept other held there _ := by
    have apart : other ≠ id := by
      rintro rfl
      rw [absent] at there
      cases there
    rw [(db.pool.load_eq id page).1, if_neg apart]
    exact there

/-- Making room brings no page in, and takes out none that has changes. -/
theorem permits_makeRoom_turns (db : Database) : Op.Permits makeRoom db fun _ after => Turns db after
    ∧ ∀ id, db.pool.page? id = none → after.pool.page? id = none := by
  -- Where nothing is dropped the pool is as it was.
  refine (ensures_makeRoom_rooms db).permits.mono fun _ after rooms => ?_
  cases rooms with
  | there | full => exact ⟨.of_same fun _ => rfl, fun _ => id⟩
  | drop resident clean =>
    refine ⟨.of_drop resident clean, fun id absent => ?_⟩
    rw [Pool.page?_drop, absent, ite_self]

/-- Bringing a page into memory takes no changes out of it, and brings none in. -/
theorem permits_bring_turns (heaps : db.OverHeaps) (id : PageId) :
    Op.Permits (bring id) db fun _ after => Turns db after := by
  obtain ⟨same, -, answer⟩ := Pool.touch_eq db.pool id
  have touched : Turns db { db with pool := (db.pool.touch id).2 } := .of_same same
  refine .onPool_bind ?_
  cases asked : (db.pool.touch id).1 with
  | some copy => exact .pure touched
  | none =>
    rw [asked] at answer
    refine (permits_tableAt id.table _).bind (fun _ _ looked => looked.1 ▸ touched) ?_
    rintro table _ ⟨rfl, registered⟩
    obtain ⟨heap, rfl⟩ := heaps id.table table (registered table rfl)
    have reads : Op.Permits (readStored (.heap heap) id) { db with pool := (db.pool.touch id).2 }
        fun result read => Turns db read ∧ read.pool = (db.pool.touch id).2
          ∧ ∀ page, result = .ok page → ∃ image, Page.ofImage id image = .ok page :=
      .onStorage ((Storage.permits_read_image heap.store id _).mono fun _ _ decoded =>
        ⟨.of_same same, rfl, decoded⟩)
    refine reads.bind (fun _ _ ended => ended.1) fun page read ended => ?_
    obtain ⟨turned, pool, decoded⟩ := ended
    obtain ⟨image, decoded⟩ := decoded page rfl
    have absent : read.pool.page? id = none := by
      rw [pool, same]
      exact answer
    -- The page that goes has no changes, and the one that comes was not there.
    refine (permits_makeRoom_turns read).bind (fun _ _ ended => turned.trans ended.1) fun _ roomy ended => ?_
    exact .onPool ((turned.trans ended.1).trans (.of_load (ended.2 id absent) decoded))

/-- Some pages have no mark any more, and all others have the one they had. -/
structure Clears (cleared : PageId → Prop) (before after : Database) : Prop where
  named : after.Named
  gone : ∀ id, cleared id → after.mark? id = none
  kept : ∀ id, ¬ cleared id → after.mark? id = before.mark? id

namespace Clears

theorem refl (named : db.Named) : Clears (fun _ => False) db db := ⟨named, fun _ => False.elim, fun _ _ => rfl⟩

theorem congr (clears : Clears cleared before after) (same : ∀ id, cleared id ↔ more id) :
    Clears more before after :=
  ⟨clears.named, fun id gone => clears.gone id ((same id).2 gone),
    fun id stays => clears.kept id (stays ∘ (same id).1)⟩

theorem trans (one : Clears cleared before middle) (two : Clears more middle after) :
    Clears (fun id => cleared id ∨ more id) before after where
  named := two.named
  gone id either := by
    -- A page that is cleared later has no mark in the end, whatever it had in between.
    by_cases later : more id
    · exact two.gone id later
    · rw [two.kept id later]
      exact one.gone id (either.resolve_right later)
  kept id neither := by
    rw [not_or] at neither
    rw [two.kept id neither.2, one.kept id neither.1]

/-- Where the same pages are in memory, the same have marks. -/
theorem of_same (clears : Clears cleared first before) (same : ∀ id, after.pool.page? id = before.pool.page? id) :
    Clears cleared first after := by
  have marks : ∀ id, after.mark? id = before.mark? id := fun id => by rw [mark?, same, mark?]
  exact ⟨fun id page there => clears.named id page (same id ▸ there),
    fun id gone => (marks id).trans (clears.gone id gone), fun id stays => (marks id).trans (clears.kept id stays)⟩

theorem of_beyond (clears : Clears cleared first before) (beyond : Beyond before after) :
    Clears cleared first after :=
  clears.of_same fun id => by rw [beyond.eq.2.2.2]

theorem of_turns (turns : Turns before after) (clears : Clears cleared first before) : Clears cleared first after :=
  ⟨turns.named clears.named, fun id gone => (turns.mark?_eq id).trans (clears.gone id gone),
    fun id stays => (turns.mark?_eq id).trans (clears.kept id stays)⟩

end Clears

/-- A page that goes has no mark any more. -/
theorem Named.drop (named : db.Named) (id : PageId) : Clears (· = id) db { db with pool := db.pool.drop id } where
  named other page there := by
    rw [Pool.page?_drop] at there
    split at there
    · cases there
    · exact named other page there
  gone other here := by
    rw [mark?, Pool.page?_drop, if_pos here]
    rfl
  kept other apart := by rw [mark?, Pool.page?_drop, if_neg apart, mark?]

/-- A page that is replaced by one of its name without a mark has none. -/
theorem Named.editResident (named : db.Named) {change : Page → Page}
    (same : ∀ page, db.pool.page? id = some page → (change page).id = id ∧ (change page).changedBy = none) :
    Clears (· = id) db { db with pool := db.pool.editResident id change } where
  named other page there := by
    rw [Pool.page?_editResident] at there
    split at there
    · rename_i here
      obtain ⟨old, resident, rfl⟩ := Option.map_eq_some_iff.1 there
      rw [here]
      exact (same old resident).1
    · exact named other page there
  gone other here := by
    rw [mark?, Pool.page?_editResident, if_pos here]
    cases resident : db.pool.page? id with
    | none => rfl
    | some page => exact (same page resident).2
  kept other apart := by rw [mark?, Pool.page?_editResident, if_neg apart, mark?]

/-- Records may be looked for, and found, without any mark coming or going. -/
theorem lasts_clears (first : Database) (heaps : first.OverHeaps) : Lasts first.catalog (fun _ => False)
    fun db => db.catalog = first.catalog ∧ Clears (fun _ => False) first db where
  tables held := held.1
  touch {db} held id := ⟨held.1, held.2.of_same (Pool.touch_eq db.pool id).1⟩
  bring {db} held id := by
    have tables : db.OverHeaps := by
      rw [OverHeaps, held.1]
      exact heaps
    exact ((permits_bring_current id db).and (permits_bring_turns tables id)).mono fun _ _ ended =>
      ⟨ended.1.2.1.trans held.1, held.2.of_turns ended.2⟩
  grant held _ := ⟨held.1, held.2.of_same fun _ => rfl⟩
  release held _ _ := ⟨held.1, held.2.of_same fun _ => rfl⟩
  append {db _ _} held _ := (permits_onStorage_beyond _ db).mono fun _ _ beyond =>
    ⟨beyond.eq.2.1.trans held.1, held.2.of_beyond beyond⟩
  revise _ never := never.elim
  mark _ never := never.elim

/-! Writing, taking back and ending. -/

/-- A page loses its mark if it is written, and no other page does. -/
theorem permits_writeBack_clears (named : db.Named) (id : PageId) :
    Op.Permits (writeBack id) db fun result after =>
      Clears (fun other => other = id ∧ result = .ok true) db after := by
  -- All ends but one leave the pages in memory alone, and clear nothing.
  have unwritten (result : Except Failure Bool) (other : result ≠ .ok true) {last : Database}
      (beyond : Beyond db last) : Clears (fun page => page = id ∧ result = .ok true) db last :=
    ((Clears.refl named).of_beyond beyond).congr fun page => by simp [other]
  have same : Beyond db db := ⟨db.storage, db.calls, rfl⟩
  unfold writeBack
  refine .get_bind ?_
  cases resident : db.pool.page? id with
  | none => exact .pure (unwritten (.ok false) (by simp) same)
  | some page =>
    refine .ite (fun _ => .pure (unwritten (.ok false) (by simp) same)) fun _ => ?_
    refine (permits_tableAt id.table db).bind
      (fun _ _ looked => unwritten (.error _) (by simp) ⟨db.storage, db.calls, looked.1⟩) ?_
    rintro table looked ⟨rfl, -⟩
    refine (permits_writeStored id.table table page _).bind
      (fun _ _ beyond => unwritten (.error _) (by simp) beyond) ?_
    intro _ written beyond
    -- The table has accepted the page, so its mark goes now.
    have stored : Clears (fun _ => False) looked written := (Clears.refl named).of_beyond beyond
    have marks : Clears (· = id) written { written with pool := written.pool.editResident id Page.markWritten } :=
      stored.named.editResident fun page there => ⟨stored.named id page there, rfl⟩
    exact .onPool_bind (.pure ((stored.trans marks).congr fun other => by simp))

/-- What is written of some pages in their turn loses its mark: some of it has, and the rest is still to come. -/
def Clearing (first : Database) (ids rest : List PageId) (db : Database) : Prop :=
  ∃ cleared, Clears cleared first db ∧ ∀ other, first.Written ids other ↔ cleared other ∨ db.Written rest other

namespace Clearing

variable {ids rest : List PageId}

theorem start (named : db.Named) (ids : List PageId) : Clearing db ids ids db :=
  ⟨fun _ => False, .refl named, fun other => by simp⟩

/-- In the end all that was written has lost its mark. -/
theorem clears (clearing : Clearing first ids [] db) : Clears (first.Written ids) first db := by
  obtain ⟨cleared, before, members⟩ := clearing
  exact before.congr fun other => ((members other).trans (or_iff_left not_written_nil)).symm

/-- One more page is written, or it cannot be and nothing is written after it. -/
theorem turn (clearing : Clearing first ids (id :: rest) db) :
    Op.Permits (writeBack id) db fun result after => match result with
      | .ok _ => Clearing first ids rest after
      | .error _ => Clears (first.Written ids) first after := by
  -- What is written now is added to what was cleared, and only what comes after it is left.
  obtain ⟨cleared, before, members⟩ := clearing
  refine ((permits_writeBack_clears before.named id).and (.ran (writeBack id) db)).mono fun result after ended => ?_
  obtain ⟨one, ran⟩ := ended
  cases result with
  | ok wrote =>
    refine ⟨_, before.trans one, fun other => ?_⟩
    rw [members, written_cons_iff ran, Except.ok.injEq, or_assoc]
  | error failure => exact (before.trans one).congr fun other => by simp [members, not_written_of_error ran]

end Clearing

/-- The pages that are written in their turn lose their marks, and no others do. -/
theorem permits_writeBackEach_clears (named : db.Named) (ids : List PageId) :
    Op.Permits (writeBackEach ids) db fun _ after => Clears (db.Written ids) db after := by
  apply ends_writeBackEach (Clearing db ids)
  · exact fun id rest middle clearing => clearing.turn
  · exact fun after clearing => clearing.clears
  · exact .start named ids

/-- Noting the tables that were written changes nothing about the marks. -/
theorem permits_writeBackNoting_clears (named : db.Named) (tables : List Nat) (ids : List PageId) :
    Op.Permits (writeBackNoting tables ids) db fun _ after => Clears (db.Written ids) db after := by
  apply ends_writeBackNoting (Clearing db ids)
  · exact fun id rest middle clearing => clearing.turn
  · exact fun tables after clearing => clearing.clears
  · exact .start named ids

theorem permits_syncEach_clears (clears : Clears cleared first db) (numbers : List Nat) :
    Op.Permits (syncEach numbers) db fun _ after => Clears cleared first after :=
  preserves_syncEach (fun number _ db clears => (permits_syncAt number db).mono fun _ _ => clears.of_beyond) db clears

/-- A page that is read anew has no mark any more, whether it can be read or not. -/
theorem permits_reload_clears (heaps : db.OverHeaps) (named : db.Named) (id : PageId) :
    Op.Permits (reload id) db fun result after => (∃ lost, result = .ok lost)
      ∧ after.catalog = db.catalog ∧ Clears (· = id) db after := by
  have reads : Op.Permits (do readStored (← tableAt id.table) id) db fun result after => Beyond db after
      ∧ ∀ page, result = .ok page → ∃ image, Page.ofImage id image = .ok page := by
    refine (permits_tableAt id.table db).bind (fun _ _ looked => ⟨⟨db.storage, db.calls, looked.1⟩, by simp⟩) ?_
    rintro table _ ⟨rfl, registered⟩
    obtain ⟨heap, rfl⟩ := heaps id.table table (registered table rfl)
    exact .onStorage ((Storage.permits_read_image heap.store id _).mono fun _ storage decoded =>
      ⟨⟨storage, _, rfl⟩, decoded⟩)
  -- Whatever was answered, nothing in memory is another than before, until the page is replaced or dropped.
  refine .attempt_bind reads fun answer after ended => ?_
  obtain ⟨beyond, decoded⟩ := ended
  have same : Clears (fun _ => False) db after := (Clears.refl named).of_beyond beyond
  cases answer with
  | ok page =>
    obtain ⟨image, decoded⟩ := decoded page rfl
    obtain ⟨name, _, unmarked⟩ := Page.ofImage_eq_ok decoded
    have restored : Clears (· = id) after { after with pool := after.pool.editResident id fun _ => page } :=
      same.named.editResident fun _ _ => ⟨name, unmarked⟩
    exact .onPool_bind (.pure ⟨⟨_, rfl⟩, beyond.eq.2.1, (same.trans restored).congr fun other => by simp⟩)
  | error failure =>
    have dropped := same.trans (same.named.drop id)
    exact .onPool_bind (.pure ⟨⟨_, rfl⟩, beyond.eq.2.1, dropped.congr fun other => by simp⟩)

theorem permits_reloadEach_clears (heaps : db.OverHeaps) (named : db.Named) (ids : List PageId) :
    Op.Permits (reloadEach ids) db fun result after => (∃ lost, result = .ok lost) ∧ Clears (· ∈ ids) db after := by
  -- The pages gone over so far have lost their marks, and the tables are still the same.
  apply ends_reloadEach fun _ rest middle => middle.catalog = db.catalog
    ∧ ∃ done, ids = done ++ rest ∧ Clears (· ∈ done) db middle
  · rintro told id rest middle ⟨catalog, done, split, before⟩
    have tables : middle.OverHeaps := by
      rw [OverHeaps, catalog]
      exact heaps
    refine (permits_reload_clears tables before.named id).mono ?_
    rintro _ after ⟨⟨lost, rfl⟩, same, one⟩
    refine ⟨same.trans catalog, done ++ [id], by rw [split, List.append_assoc, List.singleton_append], ?_⟩
    exact (before.trans one).congr fun other => by rw [List.mem_append, List.mem_singleton]
  · rintro told middle ⟨_, done, split, clears⟩
    rw [List.append_nil] at split
    exact ⟨⟨told, rfl⟩, split ▸ clears⟩
  · exact ⟨rfl, [], rfl, (Clears.refl named).congr fun id => by simp⟩

/-- Releasing the locks of a transaction leaves all marks. -/
theorem permits_releaseLocks_clears (clears : Clears cleared first db) (transaction : TransactionId) :
    Op.Permits (releaseLocks transaction) db fun _ after => Clears cleared first after :=
  clears.of_same fun _ => rfl

/-- A commit takes the marks off the pages that it writes. -/
theorem permits_commit_clears (named : db.Named) (transaction : TransactionId) :
    Op.Permits (finish transaction .commit) db fun _ after =>
      Clears (db.Written (db.pool.changedBy transaction)) db after := by
  have writes : Op.Permits (writeBackOf transaction) db fun _ after =>
      Clears (db.Written (db.pool.changedBy transaction)) db after :=
    .get_bind (permits_writeBackEach_clears named _)
  refine writes.andThen fun _ _ clears => ?_
  exact (permits_releaseLocks_clears clears transaction).reply

/-- An abort takes the marks off the pages that its transaction has changed. -/
theorem permits_abort_clears (heaps : db.OverHeaps) (named : db.Named) (transaction : TransactionId) :
    Op.Permits (finish transaction .abort) db fun _ after => Clears (· ∈ db.pool.changedBy transaction) db after := by
  have takesBack : Op.Permits (rollBack transaction) db fun _ after =>
      Clears (· ∈ db.pool.changedBy transaction) db after :=
    .get_bind ((permits_reloadEach_clears heaps named _).mono fun _ _ ended => ended.2)
  refine takesBack.andThen fun failure _ clears => ?_
  refine (permits_releaseLocks_clears clears transaction).andThen fun _ _ clears => ?_
  cases failure with
  | none => exact .pure clears
  | some failure => exact .fail clears

/-! Storing and deleting. -/

/-- A page got the mark of who changed it, and had no other before; all other pages have the mark they had. -/
structure Claims (asker : TransactionId) (id : PageId) (before after : Database) : Prop where
  named : after.Named
  mark : after.mark? id = some asker
  own : ∀ transaction, before.mark? id = some transaction → transaction = asker
  kept : ∀ other, other ≠ id → after.mark? other = before.mark? other

/-- A page that is revised keeps its name and its mark. -/
theorem sameOwner_of_revises {page changed : Page} (revises : page.Revises changed) : page.SameOwner changed := by
  cases revises with
  | insert inserted => exact Page.sameOwner_insertRecord inserted
  | erase erased => exact Page.sameOwner_eraseRecord erased

/-- A page that its writer changes and adopts has the mark of the writer, and had no other. -/
theorem Alters.permits_claims {copy : CopyId} {page changed : Page}
    (alters : Alters asker middle copy page changed after)
    (clears : Clears (fun _ => False) first middle) (marked : after.Marked) :
    Op.Permits (adoptAll asker [copy]) after fun result last => result = .ok () ∧ changed.id = copy.page
      ∧ Claims asker copy.page first last := by
  refine alters.ensures_adoptAll.permits.mono fun result last ended => ?_
  obtain ⟨told, there, rfl⟩ := ended
  -- The page was changed under its name and mark, and only adopting it marks it.
  have owner := sameOwner_of_revises alters.revises
  have name : changed.id = copy.page := owner.1.trans (clears.named _ page alters.resident)
  have pages := alters.page?_adopted
  refine ⟨told, name, ⟨fun other held resident => ?_, ?_, fun transaction mark => ?_, fun other apart => ?_⟩⟩
  · rw [pages] at resident
    split at resident
    · rename_i here
      cases resident
      exact name.trans here.symm
    · exact clears.named other held resident
  · rw [mark?, pages, if_pos rfl]
    rfl
  · -- Before it was adopted the page had its old mark still, and whoever marks a page writes it.
    have still : after.mark? copy.page = some transaction := by
      rw [mark?, there, Option.bind_some, owner.2, ← mark, ← clears.kept copy.page id, mark?, alters.resident]
      rfl
    have writes : after.locks.isWriter copy.page asker = true := by
      rw [alters.after]
      exact alters.writes
    exact Locks.writer_unique (marked.writes _ _ still) writes
  · rw [← clears.kept other id, mark?, pages, if_neg apart, mark?]

/-- A record that is stored marks the page that it is stored on, and if it is not stored no mark comes or goes. -/
theorem permits_insert_claims (marked : db.Marked) (named : db.Named) (asker : TransactionId) (number : Nat)
    (record : Record) :
    Op.Permits (insert asker number record) db fun result after => ∃ answer stored, result = .ok (answer, stored)
      ∧ match answer with
        | .ok () => ∃ place, stored = { record with place := some place } ∧ Claims asker place.page db after
        | .error _ => Clears (fun _ => False) db after := by
  have lasts := lasts_clears db marked.tables
  have start := Clears.refl named
  unfold insert Catalog.find
  refine .get_bind ?_
  cases found : db.catalog.tables.find? number with
  | none => exact .pure ⟨_, _, rfl, start⟩
  | some table =>
    obtain ⟨heap, rfl⟩ := marked.tables number table found
    have registered : db.catalog.heap? number = some heap := by rw [Catalog.heap?, found]
    refine ((lasts.insertInTable ⟨rfl, start⟩ registered asker record).and
      (permits_insertInTable marked number heap asker record)).bind (fun _ _ ended => ?_) fun value after ended => ?_
    · obtain ⟨⟨_, _, told, _⟩, _⟩ := ended
      cases told
    · obtain ⟨⟨answer, stored, told, outcome⟩, kept, -⟩ := ended
      cases told
      cases answer with
      | error failure => exact .pure ⟨_, _, rfl, outcome.2⟩
      | ok copies =>
        obtain ⟨middle, copy, page, changed, place, held, rfl, inserted, rfl, alters⟩ := outcome
        refine .attempt_bind (alters.permits_claims held.2 kept) fun answer last ended => .pure ?_
        obtain ⟨rfl, name, claims⟩ := ended
        have here : place.page = copy.page := (place_of_insertRecord inserted).trans name
        exact ⟨_, _, rfl, place, rfl, here ▸ claims⟩

/-- A record that is deleted marks the page that it was on, and if it is not deleted no mark comes or goes. -/
theorem permits_delete_claims (marked : db.Marked) (named : db.Named) (asker : TransactionId) (record : Record) :
    Op.Permits (delete asker record) db fun result after =>
      match result with
      | .ok () => ∃ place, record.place = some place ∧ Claims asker place.page db after
      | .error _ => Clears (fun _ => False) db after := by
  have lasts := lasts_clears db marked.tables
  have start := Clears.refl named
  unfold delete
  cases placed : record.place with
  | none => exact .fail start
  | some place =>
    refine permits_tableAt_bind marked (fun _ => start) fun heap => ?_
    have inTable : Op.Permits (deleteFromTable place.page.table (.heap heap) asker record) db _ :=
      (lasts.deleteFromHeap ⟨rfl, start⟩ heap asker record).and (permits_deleteFromHeap marked heap asker record)
    refine inTable.bind (fun _ _ ended => ended.1.2) ?_
    rintro copy after ⟨⟨there, middle, page, changed, same, held, here, alters⟩, kept, -⟩
    cases placed.symm.trans same
    refine (alters.permits_claims held.2 kept).mono fun result last ended => ?_
    obtain ⟨rfl, -, claims⟩ := ended
    exact ⟨place, rfl, here ▸ claims⟩

end Database

/--
Whether a command takes the changes of a transaction to a page off it: the page is written in its turn, it is
taken back for that transaction, or it is discarded.
-/
def Command.Settles (db : Database) (transaction : TransactionId) (id : PageId) : Command → Prop
  | finish asker .abort => asker = transaction ∧ id ∈ db.pool.changedBy asker
  | finish asker .commit | writeBackOf asker => db.Written (db.pool.changedBy asker) id
  | writeBack page => db.Written [page] id
  | checkpoint => db.Written db.pool.frames.keys id
  | discard page => id = page
  | _ => False

namespace Database

variable {db after : Database} {id : PageId} {transaction : TransactionId}

/-- What a command that was answered makes of the marks. -/
structure Tracks (command : Command) (before : Database) (result : Except Failure Reply) (after : Database) : Prop where
  named : after.Named
  /-- A transaction has its mark on a page if it just changed it, or had it before and has it still. -/
  marks : ∀ id transaction, after.mark? id = some transaction
    ↔ command.asker? = some transaction ∧ command.Changes id before result
      ∨ ¬ command.Settles before transaction id ∧ before.mark? id = some transaction

/-- A command that changes no page tracks what it clears. -/
theorem Clears.tracks {cleared : PageId → Prop} {command : Command} {result : Except Failure Reply}
    (clears : Clears cleared db after)
    (settles : ∀ id transaction, db.mark? id = some transaction → (cleared id ↔ command.Settles db transaction id))
    (unchanged : ∀ id, ¬ (command.asker?.isSome = true ∧ command.Changes id db result)) :
    Tracks command db result after := by
  -- A page that has a mark afterwards was not cleared, so it had the same mark before.
  refine ⟨clears.named, fun id transaction => ⟨fun mark => .inr ?_, ?_⟩⟩
  · have stays : ¬ cleared id := fun gone => by
      rw [clears.gone id gone] at mark
      cases mark
    rw [clears.kept id stays] at mark
    exact ⟨fun settled => stays ((settles id transaction mark).2 settled), mark⟩
  · rintro (⟨asks, changes⟩ | ⟨stays, mark⟩)
    · exact absurd ⟨by rw [asks]; rfl, changes⟩ (unchanged id)
    · rw [clears.kept id fun gone => stays ((settles id transaction mark).1 gone)]
      exact mark

/-- A command that changes a page for its transaction tracks that. -/
theorem Claims.tracks {command : Command} {result : Except Failure Reply} {asker : TransactionId} {page : PageId}
    (claims : Claims asker page db after) (asks : command.asker? = some asker)
    (changes : ∀ id, command.Changes id db result ↔ page = id)
    (settles : ∀ id transaction, ¬ command.Settles db transaction id) : Tracks command db result after := by
  refine ⟨claims.named, fun id transaction => ?_⟩
  simp only [asks, changes, settles, not_false_eq_true, true_and, Option.some.injEq]
  by_cases here : id = page
  · subst here
    rw [claims.mark, Option.some.injEq]
    exact ⟨fun self => .inl ⟨self, rfl⟩, fun either => either.elim (·.1) fun mark => (claims.own _ mark).symm⟩
  · rw [claims.kept id here]
    exact ⟨.inr, fun either => either.elim (fun changed => absurd changed.2.symm here) fun mark => mark⟩

/-- A command that takes changes off pages at most, and then answers, tracks that. -/
theorem permits_clears_tracks {α : Type} {cleared : PageId → Prop} {command : Command} {action : Op Database α}
    {answer : α → Reply} (permits : Op.Permits action db fun _ after => Clears cleared db after)
    (settles : ∀ id transaction, db.mark? id = some transaction → (cleared id ↔ command.Settles db transaction id))
    (unchanged : ∀ id result, ¬ (command.asker?.isSome = true ∧ command.Changes id db result)) :
    Op.Permits (do return answer (← action)) db fun result after => Tracks command db result after :=
  permits.reply.mono fun result _ clears => clears.tracks settles fun id => unchanged id result

/-- Every command that is answered leaves the marks that its answer tells of. -/
theorem permits_perform_tracks (marked : db.Marked) (named : db.Named) (command : Command) :
    Op.Permits command.perform db fun result after => Tracks command db result after := by
  have lasts := lasts_clears db marked.tables
  have start : db.catalog = db.catalog ∧ Clears (fun _ => False) db db := ⟨rfl, .refl named⟩
  cases command with
  | acquire asker page access =>
    exact permits_clears_tracks ((lasts.acquire start asker page access).mono fun _ _ ended => ended.1.2)
      (fun _ _ _ => Iff.rfl) fun _ _ changed => changed.2
  | insert asker number record =>
    refine (permits_insert_claims marked named asker number record).bind (fun _ _ ended => ?_) ?_
    · obtain ⟨_, _, told, _⟩ := ended
      cases told
    rintro ⟨answer, stored⟩ after ended
    obtain ⟨_, _, told, outcome⟩ := ended
    cases told
    cases answer with
    | error failure =>
      refine .fail (Clears.tracks outcome (fun _ _ _ => Iff.rfl) fun id changed => ?_)
      obtain ⟨_, _, _, told, _⟩ := changed
      cases told
    | ok _ =>
      obtain ⟨place, rfl, claims⟩ := outcome
      refine .pure (claims.tracks rfl (fun id => ?_) fun _ _ => False.elim)
      simp [Command.Changes]
  | delete asker record =>
    refine (permits_delete_claims marked named asker record).bind (fun _ _ (ended : Clears _ _ _) => ?_) ?_
    · refine ended.tracks (fun _ _ _ => Iff.rfl) fun id changed => ?_
      obtain ⟨_, ⟨_, told⟩, _⟩ := changed
      cases told
    · rintro _ after ⟨place, placed, claims⟩
      refine .pure (claims.tracks rfl (fun id => ?_) fun _ _ => False.elim)
      simp [Command.Changes, placed]
  | scan cursor count =>
    exact permits_clears_tracks ((lasts.take start cursor count).mono fun _ _ ended => ended.2)
      (fun _ _ _ => Iff.rfl) fun _ _ changed => changed.2
  | finish asker ending =>
    cases ending with
    | commit =>
      exact permits_clears_tracks (permits_commit_clears named asker) (fun _ _ _ => Iff.rfl)
        fun _ _ changed => changed.2
    | abort =>
      refine permits_clears_tracks (permits_abort_clears marked.tables named asker) (fun page transaction mark => ?_)
        fun _ _ changed => changed.2
      -- A page that the transaction has changed has no other mark.
      refine ⟨fun member => ⟨?_, member⟩, fun settled => settled.2⟩
      obtain ⟨held, resident, mine⟩ := Pool.mem_changedBy.1 member
      rw [mark?, resident] at mark
      exact Option.some.inj (mine.symm.trans mark)
  | writeBack page =>
    have writes : Op.Permits (Database.writeBack page) db fun _ after => Clears (db.Written [page]) db after := by
      refine (Clearing.start named [page]).turn.mono fun result after ended => ?_
      cases result with
      | ok wrote => exact ended.clears
      | error failure => exact ended
    exact permits_clears_tracks writes (fun _ _ _ => Iff.rfl) fun _ _ changed => changed.2
  | writeBackOf asker =>
    exact permits_clears_tracks (.get_bind (permits_writeBackEach_clears named _)) (fun _ _ _ => Iff.rfl)
      fun _ _ changed => changed.2
  | checkpoint =>
    refine permits_clears_tracks (.get_bind ((permits_writeBackNoting_clears named [] _).andThen ?_))
      (fun _ _ _ => Iff.rfl) fun _ _ changed => changed.2
    exact fun written _ clears => permits_syncEach_clears clears written
  | start request =>
    exact permits_clears_tracks ((lasts.start start request).mono fun _ _ ended => ended.1.2)
      (fun _ _ _ => Iff.rfl) fun _ _ changed => changed.2
  | ask request =>
    exact permits_clears_tracks ((lasts.ask start request).mono fun _ _ ended => ended.1.2)
      (fun _ _ _ => Iff.rfl) fun _ _ changed => changed.2
  | releaseEarly asker page =>
    exact permits_clears_tracks ((lasts.releaseEarly start asker page).mono fun _ _ ended => ended.2)
      (fun _ _ _ => Iff.rfl) fun _ _ changed => changed.2
  | discard page =>
    have drops : Op.Permits (discard page) db fun _ after => Clears (· = page) db after := named.drop page
    exact permits_clears_tracks drops (fun _ _ _ => Iff.rfl) fun _ _ changed => changed.2
  | setFailing store reads writes =>
    exact permits_clears_tracks ((permits_onStorage_beyond _ db).mono fun _ _ beyond => start.2.of_beyond beyond)
      (fun _ _ _ => Iff.rfl) fun _ _ changed => changed.2
  | addHeap name store =>
    have adds : Op.Permits (addHeap name store) db fun _ after => Clears (fun _ => False) db after :=
      ends_addHeap (fun _ => start.2) fun _ _ _ => start.2.of_same fun _ => rfl
    exact permits_clears_tracks adds (fun _ _ _ => Iff.rfl) fun _ _ changed => by cases changed.1

/-- What was asked for and how it was answered. -/
structure Served where
  before : Database
  command : Command
  result : Except Failure Reply

/-- Whether a transaction has changed a page by what was answered, which stored or deleted a record there. -/
def Served.Changed (served : Served) (transaction : TransactionId) (id : PageId) : Prop :=
  served.command.asker? = some transaction ∧ served.command.Changes id served.before served.result

/-- Whether what was answered took the changes of a transaction to a page off it. -/
def Served.Settled (served : Served) (transaction : TransactionId) (id : PageId) : Prop :=
  served.command.Settles served.before transaction id

/-- Whether a transaction has changed a page since changes were last taken off that page for it. -/
def Outstanding (history : List Served) (transaction : TransactionId) (id : PageId) : Prop :=
  ∃ earlier served later, history = earlier ++ served :: later ∧ served.Changed transaction id
    ∧ ∀ next ∈ later, ¬ next.Settled transaction id

/-- What was served last is a change of the page, or it leaves what was outstanding before. -/
theorem outstanding_append_singleton {history : List Served} {last : Served} :
    Outstanding (history ++ [last]) transaction id
      ↔ last.Changed transaction id ∨ ¬ last.Settled transaction id ∧ Outstanding history transaction id := by
  constructor
  · rintro ⟨earlier, served, later, split, changed, unsettled⟩
    -- The change is the last thing that was served, or was served before that.
    rcases List.eq_nil_or_concat later with rfl | ⟨rest, final, rfl⟩
    · obtain ⟨-, same⟩ := List.append_inj' split rfl
      cases same
      exact .inl changed
    · rw [List.concat_eq_append, ← List.cons_append, ← List.append_assoc] at split
      obtain ⟨rfl, same⟩ := List.append_inj' split rfl
      cases same
      refine .inr ⟨unsettled _ (by simp), earlier, served, rest, rfl, changed, fun next member => ?_⟩
      exact unsettled next (by simp [member])
  · rintro (changed | ⟨unsettled, earlier, served, later, rfl, changed, before⟩)
    · exact ⟨history, last, [], rfl, changed, by simp⟩
    · refine ⟨earlier, served, later ++ [last], by simp, changed, fun next member => ?_⟩
      rcases List.mem_append.1 member with old | new
      · exact before next old
      · cases List.mem_singleton.1 new
        exact unsettled

/--
The databases that arise over heaps, each with what was served until then.

Nobody releases a page early that it has changed, and all else may be asked for. In between the stores may
change in any way.
-/
inductive Chronicle : List Served → Database → Prop
  | fresh {db : Database} (heaps : db.OverHeaps) (nothing : db.pool = .empty) (unlocked : db.locks = .empty) :
      Chronicle [] db
  | serve {history : List Served} {db after : Database} {command : Command} {result : Except Failure Reply}
      (chronicle : Chronicle history db) (patient : command.Patient db)
      (served : db.serve command = .ok (result, after)) :
      Chronicle (history ++ [⟨db, command, result⟩]) after
  | store {history : List Served} {db : Database} {storage : Storage} (chronicle : Chronicle history db) :
      Chronicle history { db with storage }

/-- A mark is on a page exactly while changes of its transaction are outstanding there. -/
theorem Chronicle.marks {history : List Served} (chronicle : Chronicle history db) :
    db.Marked ∧ db.Named ∧ ∀ id transaction, db.mark? id = some transaction ↔ Outstanding history transaction id := by
  induction chronicle with
  | @fresh db heaps nothing unlocked =>
    -- No page is in memory, and nothing was served.
    have absent : ∀ id, db.pool.page? id = none := fun id => by rw [nothing]; rfl
    have unmarked : ∀ id, db.mark? id = none := fun id => by rw [mark?, absent]; rfl
    refine ⟨⟨heaps, unlocked ▸ Locks.exclusive_empty, fun id transaction mark => ?_⟩, fun id page there => ?_,
      fun id transaction => ?_⟩
    · rw [unmarked] at mark
      cases mark
    · rw [absent] at there
      cases there
    · rw [unmarked]
      constructor
      · intro mark
        cases mark
      · rintro ⟨earlier, served, later, split, _⟩
        simp at split
  | serve chronicle patient served ih =>
    obtain ⟨marked, named, marks⟩ := ih
    have tracks := run_permits (permits_perform_tracks marked named _) served
    refine ⟨run_permits (permits_perform marked patient) served, tracks.named, fun id transaction => ?_⟩
    rw [tracks.marks, outstanding_append_singleton, marks]
    rfl
  | store _ ih =>
    obtain ⟨marked, named, marks⟩ := ih
    exact ⟨⟨marked.tables, marked.locks, marked.writes⟩, named, marks⟩

/--
The pages that a transaction is known to have changed are exactly those with changes of it outstanding.

After everything that was served, whatever was answered and whatever the stores held and refused, they are, in
ascending order, the pages on which the transaction has stored or deleted a record since the page was last
written, taken back for an abort of the transaction, or discarded.
-/
theorem changedBy_exact {history : List Served} (chronicle : Chronicle history db) (transaction : TransactionId) :
    (db.pool.changedBy transaction).Pairwise (· < ·)
      ∧ ∀ id, id ∈ db.pool.changedBy transaction ↔ Outstanding history transaction id := by
  refine ⟨SortedMap.pairwise_keys _, fun id => ?_⟩
  rw [Pool.mem_changedBy, ← chronicle.marks.2.2, mark?, Option.bind_eq_some_iff]

/-- What is served when commands are asked for, one after the other. -/
def servedAll (db : Database) : List Command → List Served
  | [] => []
  | command :: rest =>
    match db.answer? command.perform with
    | some result => ⟨db, command, result⟩ :: (db.after command.perform).servedAll rest
    | none => []

/-- Commands that are always patient and are answered are served. -/
theorem Chronicle.afterAll {history : List Served} {commands : List Command} (chronicle : Chronicle history db)
    (patient : ∀ command ∈ commands, ∀ db, command.Patient db) (answered : db.answersAll commands = true) :
    Chronicle (history ++ db.servedAll commands) (db.afterAll commands) := by
  induction commands generalizing db history with
  | nil =>
    rw [servedAll, List.append_nil]
    exact chronicle
  | cons command rest ih =>
    obtain ⟨now, later⟩ := Bool.and_eq_true_iff.1 answered
    obtain ⟨result, told⟩ := Option.isSome_iff_exists.1 now
    have served : db.serve command = .ok (result, _) := run_eq told
    have next := ih (.serve chronicle (patient command List.mem_cons_self db) served)
      (fun other member => patient other (List.mem_cons_of_mem _ member)) later
    rw [List.append_assoc, List.singleton_append] at next
    simp only [servedAll, told]
    exact next

/-- Of two pages that one transaction has changed, one was written, so that only the other is outstanding. -/
theorem changedBy_exact_half_written :
    let asked : List Command := [.insert ⟨1⟩ 1 ⟨none, [.blob (Bytes.zeros 30)]⟩,
      .insert ⟨1⟩ 1 ⟨none, [.blob (Bytes.zeros 40)]⟩, .writeBack ⟨1, 0⟩]
    let first := overImages ⟨64, 2, .ofMilliseconds 1⟩ []
    Chronicle (first.servedAll asked) (first.afterAll asked)
      ∧ Outstanding (first.servedAll asked) ⟨1⟩ ⟨1, 1⟩ ∧ ¬ Outstanding (first.servedAll asked) ⟨1⟩ ⟨1, 0⟩ := by
  intro asked first
  have chronicle : Chronicle (first.servedAll asked) (first.afterAll asked) := by
    have fresh : Fresh (fun _ => True) first := overImages_fresh (by decide) (by simp)
    have start : Chronicle [] first := .fresh fresh.marked.tables rfl rfl
    have answered : first.answersAll asked = true := by decide +kernel
    exact start.afterAll (by simp [asked, Command.Patient]) answered
  have tells := (changedBy_exact chronicle ⟨1⟩).2
  have left : (first.afterAll asked).pool.changedBy ⟨1⟩ = [⟨1, 1⟩] := by decide +kernel
  refine ⟨chronicle, (tells ⟨1, 1⟩).1 (by rw [left]; simp), fun outstanding => ?_⟩
  have member := (tells ⟨1, 0⟩).2 outstanding
  rw [left] at member
  simp at member

end Database

end HeapEngine
