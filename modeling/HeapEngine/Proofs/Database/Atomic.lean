import HeapEngine.Proofs.Database.Balance
import HeapEngine.Proofs.Database.ReadBack
import HeapEngine.Proofs.Database.Repeatable

/-!
Commits are atomic: the stores hold what committed transactions did, and nothing else.

Every command keeps the balance of the database and the ledger, so what is read back after any
commands is the replay of the committed changes.
-/

namespace HeapEngine

/-- A command that transactions may issue while no page is written but by a commit. -/
def Command.Plain (catalog : Catalog) : Command → Prop
  | acquire _ _ _ | insert _ _ _ | delete _ _ | finish _ _ | start _ | ask _ => True
  -- A scan is over a registered heap.
  | scan cursor _ => catalog.heap? cursor.heap.table = some cursor.heap
  | _ => False

namespace Database

open Standing

variable {kind : ImageKind} {map : RecordMap} {ledger : Ledger} {before after db : Database}

/-- The tables are given, the database is consistent, and it balances with a ledger. -/
structure Keeps (kind : ImageKind) (catalog : Catalog) (map : RecordMap) (ledger : Ledger)
    (db : Database) : Prop where
  consistent : db.Consistent kind
  catalog : db.catalog = catalog
  balances : db.standing.Balances map ledger

/-- A transaction that gains locks changes no record. -/
theorem Gains.keeps {catalog : Catalog} {asker : TransactionId} (gains : Gains kind asker before after)
    (keeps : Keeps kind catalog map ledger before) : Keeps kind catalog map ledger after := by
  refine ⟨gains.consistent, gains.catalog_eq.trans keeps.catalog, ?_⟩
  rw [gains.standing]
  exact keeps.balances.withLocks _

/-- A heap that got a page has no other records. -/
theorem Extends.keeps {catalog : Catalog} {asker : TransactionId} {number : Nat}
    (extends_ : Extends kind asker number before after) (keeps : Keeps kind catalog map ledger before) :
    Keeps kind catalog map ledger after := by
  obtain ⟨grown, grows, stands⟩ := extends_.standing
  have same : after.catalog = before.catalog :=
    (congrArg Standing.catalog stands).trans grows.catalog_eq
  refine ⟨extends_.consistent, same.trans keeps.catalog, ?_⟩
  rw [stands]
  exact (keeps.consistent.balances_grows keeps.balances grows).withLocks _

/-- What a command does to the records is what the ledger notes. -/
theorem Effect.keeps {catalog : Catalog} {command : Command} {result : Except Failure Reply}
    (effect : Effect kind before result after command) (keeps : Keeps kind catalog map ledger before)
    (plain : command.Plain catalog) : Keeps kind catalog map (ledger.note command result) after := by
  have consistent := effect.consistent
  -- Whoever changes a page is the only one who has changed it, by what may be in memory.
  have fits : ∀ id page, before.standing.unwritten id = some page → before.standing.Fits id page :=
    fun id page unwritten => keeps.consistent.fits_unwritten unwritten
  have dirty : ∀ id page, before.standing.unwritten id = some page → page.changedBy ≠ none :=
    fun id page unwritten => (unwritten_eq_some.1 unwritten).2
  cases command with
  | acquire asker page access => exact effect.1.keeps keeps
  | insert asker table record =>
    cases result with
    | ok reply =>
      obtain ⟨place, rfl, _, advances, grown, page, changed, grows, changes, inserted⟩ := effect
      have same : after.catalog = before.catalog :=
        (congrArg Standing.catalog changes.standing).trans grows.catalog_eq
      -- The heap grows first, and then the record is stored on one of its pages.
      have grew := keeps.consistent.balances_grows keeps.balances grows
      have mine := changes.mine (grows.locks_eq ▸ advances) (fun page unwritten => grows.fits (fits _ page (by
        rw [← grows.unwritten_eq]
        exact unwritten))) (fun page unwritten => dirty place.page page (by
        rw [← grows.unwritten_eq]
        exact unwritten))
      refine ⟨consistent, same.trans keeps.catalog, changes.balances grew mine fun legible => ?_⟩
      obtain ⟨readable, _, values⟩ := changes.sound.values?_insertRecord legible inserted
      exact ⟨readable, values⟩
    | error failure => exact Extends.keeps effect keeps
  | delete asker record =>
    cases result with
    | ok reply =>
      obtain ⟨place, placed, advances, page, changed, changes, erased⟩ := effect
      have same : after.catalog = before.catalog := congrArg Standing.catalog changes.standing
      have mine := changes.mine advances (fits place.page) (dirty place.page)
      have noted : ledger.note (.delete asker record) (.ok reply) = ledger.add asker ⟨place, none⟩ := by
        simp only [Ledger.note, placed]
      rw [noted]
      refine ⟨consistent, same.trans keeps.catalog, changes.balances keeps.balances mine fun legible => ?_⟩
      obtain ⟨readable, _, values⟩ := changes.sound.values?_eraseRecord legible placed erased
      exact ⟨readable, values⟩
    | error failure => exact Gains.keeps effect keeps
  | scan cursor count => exact effect.1.keeps keeps
  | finish asker ending =>
    cases ending with
    | commit =>
      cases result with
      | ok reply =>
        obtain ⟨middle, flushes, _, stands⟩ := effect
        have same : after.catalog = middle.catalog := congrArg Standing.catalog stands
        refine ⟨consistent, (same.trans flushes.catalog).trans keeps.catalog, ?_⟩
        rw [stands]
        exact (flushes.balances keeps.consistent keeps.balances).withLocks _
      | error failure =>
        -- Only a store that was told to fail keeps a commit from its end.
        obtain ⟨_, _, _, number, fails⟩ := effect
        rw [(keeps.balances.quiet number).2] at fails
        cases fails
    | abort =>
      have same : after.catalog = before.catalog := congrArg Standing.catalog effect.2
      have noted : ledger.note (.finish asker .abort) result = ledger.withPending asker [] := by
        cases result <;> rfl
      rw [noted]
      refine ⟨consistent, same.trans keeps.catalog, ?_⟩
      rw [effect.2]
      exact (balances_reverted keeps.balances).withLocks _
  | start request => exact effect.1.keeps keeps
  | ask request => exact effect.1.keeps keeps
  | writeBack page => exact plain.elim
  | writeBackOf asker => exact plain.elim
  | checkpoint => exact plain.elim
  | releaseEarly asker page => exact plain.elim
  | discard page => exact plain.elim
  | setFailing store reads writes => exact plain.elim
  | addHeap name store => exact plain.elim

/-- What is asked for in this way is always allowed. -/
theorem Keeps.allowed {catalog : Catalog} {command : Command} (keeps : Keeps kind catalog map ledger db)
    (plain : command.Plain catalog) : command.Allowed kind.allows db := by
  cases command with
  | scan cursor count =>
    show db.catalog.heap? cursor.heap.table = some cursor.heap
    rw [keeps.catalog]
    exact plain
  | acquire | insert | delete | finish | start | ask => trivial
  | writeBack | writeBackOf | checkpoint | releaseEarly | discard | setFailing | addHeap =>
    exact plain.elim

/-- What commands answer and what they leave behind, one after the other. -/
def serveAll (db : Database) :
    List Command → Except Trap (List (Command × Except Failure Reply) × Database)
  | [] => .ok ([], db)
  | command :: rest => do
    let (result, middle) ← db.serve command
    let (trace, after) ← middle.serveAll rest
    return ((command, result) :: trace, after)

/-- Commands are served one after the other, and the ledger that notes their answers balances. -/
theorem Keeps.serveAll {catalog : Catalog} {commands : List Command}
    (keeps : Keeps kind catalog map ledger db)
    (plain : ∀ command ∈ commands, command.Plain catalog) :
    ∃ trace after, db.serveAll commands = .ok (trace, after)
      ∧ Keeps kind catalog map (ledger.noteAll trace) after := by
  -- Each command keeps the balance with what the ledger notes of it, so the ledger varies.
  induction commands generalizing db ledger with
  | nil => exact ⟨[], db, rfl, keeps⟩
  | cons command rest ih =>
    have first := plain command List.mem_cons_self
    obtain ⟨result, middle, served, effect⟩ := keeps.consistent.serve (keeps.allowed first)
    obtain ⟨trace, after, others, kept⟩ := ih (effect.keeps keeps first)
      fun other member => plain other (List.mem_cons_of_mem _ member)
    refine ⟨(command, result) :: trace, after, ?_, kept⟩
    simp only [Database.serveAll, served, others, Bind.bind, Except.bind]
    rfl

/--
After any commands the stores hold what they held at first, and in addition what the transactions
that are committed by then did, in the order of their commits.
-/
def CommitsAtomically (db : Database) : Prop :=
  ∀ commands, (∀ command ∈ commands, command.Plain db.catalog) →
    ∃ trace after, db.serveAll commands = .ok (trace, after)
      ∧ after.Holds (db.storedRecords.replay (Ledger.ofTrace trace).committed)

/--
Commits are atomic.

This is so over stores that are not told to fail, and whose pages have cells with room side by side,
all of which are records. No request for a page traps for its deadline either, if patience is shorter than ages.
-/
theorem commits_atomic (fresh : Fresh ImageKind.readable.allows db) (quiet : db.standing.Quiet)
    (legible : db.standing.Legible) (timely : db.settings.Timely) :
    db.CommitsAtomically ∧ db.GivesDeadlines := by
  refine ⟨fun commands plain => ?_, givesDeadlines timely⟩
  have consistent : db.Consistent .readable := fresh.consistent
  have nothing : ∀ id, db.standing.unwritten id = none := by
    intro id
    simp only [standing, fresh.pool]
    rfl
  -- Nothing is pending at first, and no page is changed.
  have balances : db.standing.Balances db.standing.recordMap .empty := by
    refine ⟨quiet, legible, rfl, fun id page transaction unwritten => ?_, by simp [Ledger.empty]⟩
    rw [nothing id] at unwritten
    cases unwritten
  have keeps : Keeps .readable db.catalog db.standing.recordMap .empty db := ⟨consistent, rfl, balances⟩
  obtain ⟨trace, after, served, kept⟩ := keeps.serveAll plain
  refine ⟨trace, after, served, ?_⟩
  rw [consistent.storedRecords quiet legible]
  -- What the database stands for is now the replay of what the ledger has as committed.
  have holds := kept.consistent.holds kept.balances.quiet kept.balances.legible
  rw [kept.balances.committed] at holds
  exact holds

/-- Two transactions store a record each, and only the first one is committed. -/
def twoWriters : List Command :=
  [.insert ⟨1⟩ 1 ⟨none, [.integer 7]⟩, .insert ⟨2⟩ 1 ⟨none, [.integer 8]⟩, .finish ⟨1⟩ .commit,
    .insert ⟨2⟩ 1 ⟨none, [.integer 9]⟩, .finish ⟨2⟩ .abort]

/-- What was aborted is not stored. -/
theorem commits_atomic_aborted : ∃ trace after,
    (overImages ⟨64, 1, .ofMilliseconds 1⟩ []).serveAll twoWriters = .ok (trace, after)
      ∧ after.readBack ⟨⟨1, 0⟩, 0⟩ = .ok (some [.integer 7])
      ∧ after.readBack ⟨⟨1, 0⟩, 1⟩ = .ok none := by
  have fresh : Fresh ImageKind.readable.allows (overImages ⟨64, 1, .ofMilliseconds 1⟩ []) :=
    overImages_fresh (by decide) (by simp)
  have legible : (overImages ⟨64, 1, .ofMilliseconds 1⟩ []).standing.Legible :=
    legible_overImages (by simp)
  obtain ⟨trace, after, served, holds⟩ := (commits_atomic fresh (quiet_overImages _ _) legible (by decide)).1
    twoWriters (by simp [twoWriters, Command.Plain])
  -- The ledger of this run has one committed change, the record of the first transaction.
  have told : ((overImages ⟨64, 1, .ofMilliseconds 1⟩ []).serveAll twoWriters).toOption.map
      (fun run => (Ledger.ofTrace run.1).committed) = some [⟨⟨⟨1, 0⟩, 0⟩, some [.integer 7]⟩] := by
    decide +kernel
  rw [served, Except.toOption, Option.map_some, Option.some.injEq] at told
  have first := holds.read ⟨⟨1, 0⟩, 0⟩
  have second := holds.read ⟨⟨1, 0⟩, 1⟩
  rw [told] at first second
  exact ⟨trace, after, served, first, second.trans (by decide +kernel)⟩

/-- The records in the cells of the crowded page. -/
def crowdedCells : List Record :=
  crowdedRecords ++ [⟨some ⟨⟨1, 0⟩, 4⟩, []⟩]

/-- Every cell of the crowded page is an encoded record. -/
theorem crowdedPage_cells : crowdedPage.cells = crowdedCells.map fun record => some record.encode := by
  decide +kernel

theorem legible_crowded : crowded.standing.Legible := by
  refine legible_overImages fun number image found => ?_
  match number with
  | 0 =>
    cases found
    refine ⟨crowdedPage, by decide +kernel, Page.legible_of_encoded fun cell member => ?_⟩
    rw [crowdedPage_cells, List.mem_map] at member
    obtain ⟨record, among, same⟩ := member
    cases same
    have short : ∀ record ∈ crowdedCells, record.encode.length < 2 ^ 64 := by decide +kernel
    exact ⟨record, rfl, short record among⟩
  | 1 =>
    cases found
    refine ⟨.empty ⟨1, 1⟩ 67, by decide +kernel, fun slot cell held => ?_⟩
    cases held
  | number + 2 => cases found

/--
Without room for the cells side by side commits are not atomic.

A record is deleted and the deletion is committed, and the other records of its page are gone too.
-/
theorem crowded_not_atomic : Fresh (fun _ => True) crowded ∧ crowded.standing.Quiet
    ∧ crowded.standing.Legible ∧ ¬ crowded.CommitsAtomically := by
  refine ⟨overImages_fresh (by decide) (by decide), quiet_overImages _ _, legible_crowded, fun atomic => ?_⟩
  obtain ⟨trace, after, served, holds⟩ := atomic
    [.delete ⟨1⟩ ⟨some ⟨⟨1, 0⟩, 4⟩, []⟩, .finish ⟨1⟩ .commit] (by simp [Command.Plain])
  have ran : crowded.serveAll [.delete ⟨1⟩ ⟨some ⟨⟨1, 0⟩, 4⟩, []⟩, .finish ⟨1⟩ .commit]
      = .ok ([(.delete ⟨1⟩ ⟨some ⟨⟨1, 0⟩, 4⟩, []⟩, .ok .done), (.finish ⟨1⟩ .commit, .ok .done)],
        crowdedCommitted) := by
    simp only [serveAll, serve_crowded_delete, serve_crowded_commit, Bind.bind, Except.bind, pure,
      Except.pure]
  rw [ran] at served
  cases served
  -- The record in the second slot was not deleted, but its slot is not read back any more.
  have expected := holds.read ⟨⟨1, 0⟩, 1⟩
  have gone : crowdedCommitted.readBack ⟨⟨1, 0⟩, 1⟩ = .ok none := by decide +kernel
  have kept : crowded.storedRecords.replay
      [⟨⟨⟨1, 0⟩, 4⟩, none⟩] ⟨⟨1, 0⟩, 1⟩ = some (.null :: .integer 9 :: List.replicate 19 .null) := by
    decide +kernel
  rw [gone] at expected
  have same : (none : Option (List Value)) = _ := Except.ok.inj (expected.trans (congrArg _ kept))
  cases same

end Database

end HeapEngine
