import HeapEngine.Proofs.Database.Residency
import HeapEngine.Proofs.Pool.Recency

/-!
What is done to the pages in memory, over tables of any kind.

Whatever a command does, it changes memory by small steps, also if it fails and whatever a table of the caller's
own does meanwhile. So what every small step keeps holds of memory at any time.
-/

namespace HeapEngine

namespace Database

variable {first db after : Database} {id : PageId} {copy : CopyId} {α : Type}

/-- The pages in memory were changed by small steps only. -/
abbrev Paced (before after : Database) : Prop := before.pool.Steps after.pool

namespace Paced

theorem beyond (paced : Paced first db) (beyond : Beyond db after) : Paced first after := by
  rw [Paced, beyond.eq.2.2.2]
  exact paced

theorem step {pool : Pool} (paced : Paced first db) (step : db.pool.Step pool) :
    Paced first { db with pool } := paced.tail step

/-- Making room drops one page at most. -/
theorem makeRoom (paced : Paced first db) : Op.Permits makeRoom db fun _ after => Paced first after := by
  refine (ensures_makeRoom_rooms db).permits.mono fun _ _ rooms => ?_
  cases rooms with
  | there => exact paced
  | full => exact paced
  | drop => exact paced.step (.drop _)

/-- Bringing a page into memory asks for it first, so a page that cannot be read has let the clock go on. -/
theorem bring (paced : Paced first db) (id : PageId) : Op.Permits (bring id) db fun _ after => Paced first after := by
  have touched : Paced first { db with pool := (db.pool.touch id).2 } := paced.step (.touch id)
  refine .onPool_bind ?_
  cases (db.pool.touch id).1 with
  | some copy => exact .pure touched
  | none =>
    refine (permits_tableAt id.table _).bind (fun _ _ found => found.1 ▸ touched) ?_
    rintro table _ ⟨rfl, -⟩
    refine (permits_readStored table id _).bind (fun _ _ beyond => touched.beyond beyond) ?_
    intro page read beyond
    refine (touched.beyond beyond).makeRoom.andThen fun _ _ paced => ?_
    exact .onPool (paced.step (.load id page))

theorem adopt (paced : Paced first db) (asker : TransactionId) (copy : CopyId) :
    Op.Permits (adopt asker copy) db fun _ after => Paced first after := by
  refine (ends_adopt_exact asker copy (.inl trivial)).mono fun result after adopts => ?_
  -- The copy is marked wherever it is, and then touched where it is current, or seated where it is not.
  have marked (page : Page) : Paced first { db with pool := db.withMark asker copy page } :=
    paced.step (.edit copy _)
  cases adopts with
  | unlocked => exact paced
  | @current page => exact (marked page).step (.touch copy.page)
  | @full page => exact marked page
  | @displaces page => exact (marked page).step (.seat copy _)
  | @settles page => exact (marked page).step (.seat copy _)
  | @replaces page victim => exact ((marked page).step (.drop victim)).step (.seat copy _)

/-- Whatever tables do, memory is changed by small steps while pages are asked for, changed and adopted. -/
theorem withstands (first : Database) : Withstands (Paced first) where
  same paced _ pool := by
    rw [Paced, pool]
    exact paced
  touch paced id := paced.step (.touch id)
  bring := bring
  newCopy paced page := paced.step (.addStray page)
  edit paced copy change _ _ := paced.step (.edit copy change)
  replace paced _ _ _ := paced.step (.editResident _ _)
  adopt := adopt

end Paced

/-! Pages are written where they are in memory. -/

/-- A page that is written is changed in its place, if it is changed at all. -/
theorem permits_writeBack_edits (id : PageId) (db : Database) :
    Op.Permits (writeBack id) db fun _ after => db.pool.Edits after.pool := by
  unfold writeBack
  refine .get_bind ?_
  cases db.pool.page? id with
  | none => exact .pure .refl
  | some page =>
    refine .ite (fun _ => .pure .refl) fun _ => ?_
    refine (permits_tableAt id.table db).bind (fun _ _ found => found.1 ▸ .refl) ?_
    rintro table _ ⟨rfl, -⟩
    refine (permits_writeStored id.table table page _).bind (fun _ after beyond => beyond.eq.2.2.2 ▸ .refl) ?_
    intro _ written beyond
    -- Memory is as it was when the page was written, and only then the mark goes.
    have same := beyond.eq.2.2.2
    exact .onPool_bind (.pure (.single ⟨id, Page.markWritten, by rw [same]⟩))

/-- Writing changes pages in their places, from wherever memory came to be what it is. -/
theorem preserves_writeBack_edits (pool : Pool) (id : PageId) :
    Op.Preserves True (fun after => pool.Edits after.pool) (writeBack id) :=
  fun db edits => (permits_writeBack_edits id db).mono fun _ _ more => edits.trans more

theorem permits_writeBackOf_edits (transaction : TransactionId) (db : Database) :
    Op.Permits (writeBackOf transaction) db fun _ after => db.pool.Edits after.pool :=
  .get_bind (preserves_writeBackEach (fun id _ => preserves_writeBack_edits db.pool id) db .refl)

theorem permits_checkpoint_edits (db : Database) :
    Op.Permits checkpoint db fun _ after => db.pool.Edits after.pool := by
  apply preserves_checkpoint (preserves_writeBack_edits db.pool)
  · intro number middle edits
    refine (permits_syncAt number middle).mono fun _ after beyond => ?_
    -- Making a table durable leaves memory alone.
    show db.pool.Edits after.pool
    rw [beyond.eq.2.2.2]
    exact edits
  · exact .refl

/-- A commit writes pages in their places. -/
theorem permits_commit_edits (transaction : TransactionId) (db : Database) :
    Op.Permits (finish transaction .commit) db fun _ after => db.pool.Edits after.pool :=
  (permits_writeBackOf_edits transaction db).andThen fun _ _ edits => .run_bind rfl (.pure edits)

/-! Pages are read anew where they are in memory, or dropped. -/

/-- A page is replaced by what is read, or it is dropped if it cannot be read. -/
theorem permits_reload_pool (id : PageId) (db : Database) :
    Op.Permits (reload id) db fun result after => match result with
      | .ok none => ∃ page, after.pool = db.pool.editResident id fun _ => page
      | .ok (some _) => after.pool = db.pool.drop id
      | .error _ => False := by
  have reads : Op.Permits (do readStored (← tableAt id.table) id) db fun _ after => after.pool = db.pool := by
    refine (permits_tableAt id.table db).bind (fun _ _ found => found.1 ▸ rfl) ?_
    rintro table _ ⟨rfl, -⟩
    exact (permits_readStored table id _).mono fun _ _ beyond => beyond.eq.2.2.2
  refine .attempt_bind reads fun answer after same => ?_
  cases answer with
  | ok page => exact .onPool_bind (.pure ⟨page, by rw [← same]⟩)
  | error failure => exact .onPool_bind (.pure (by rw [← same]))

theorem Paced.writeBack (paced : Paced first db) (id : PageId) :
    Op.Permits (writeBack id) db fun _ after => Paced first after :=
  (permits_writeBack_edits id db).mono fun _ _ edits => paced.trans edits.steps

theorem Paced.reload (paced : Paced first db) (id : PageId) :
    Op.Permits (reload id) db fun _ after => Paced first after := by
  refine (permits_reload_pool id db).mono fun result after reloaded => ?_
  match result, reloaded with
  | .ok none, ⟨page, same⟩ =>
    rw [Paced, same]
    exact paced.tail (.editResident id fun _ => page)
  | .ok (some _), same =>
    rw [Paced, same]
    exact paced.tail (.drop id)

/-- Every command changes memory by small steps, whatever the tables are. -/
theorem permits_perform_paced (db : Database) (command : Command) :
    Op.Permits command.perform db fun _ after => Paced db after := by
  have start : Paced db db := .refl
  -- Writing changes pages in place, and an abort drops those that it cannot read. All else withstands any table.
  cases command with
  | finish transaction ending =>
    have releases : Op.Preserves True (Paced db) (releaseLocks transaction) := fun _ paced => paced
    exact (preserves_finish (fun id _ paced => paced.writeBack id) (fun id _ paced => paced.reload id) releases
      ending db start).reply
  | writeBack page => exact (start.writeBack page).reply
  | writeBackOf transaction =>
    exact .reply (.get_bind (preserves_writeBackEach (fun id _ _ paced => paced.writeBack id) db start))
  | checkpoint => exact ((permits_checkpoint_edits db).mono fun _ _ edits => edits.steps).reply
  | discard page =>
    have drops : Op.Permits (discard page) db fun _ after => Paced db after := start.step (.drop page)
    exact drops.reply
  | _ => exact (Paced.withstands db).perform start _ rfl

/--
The databases that come about when nothing was in memory to begin with, over tables of any kind.

A table's changes may be taken in while other commands are under way. Between two commands callers may do
anything that uses no page: change the copies that they were given, register tables, write to files, ask for
locks.
-/
inductive Proceeds : Database → Prop
  | fresh {db : Database} (nothing : db.pool = .empty) : Proceeds db
  | serve {db after : Database} {command : Command} {result : Except Failure Reply} (proceeds : Proceeds db)
      (served : db.serve command = .ok (result, after)) : Proceeds after
  | adopt {db after : Database} {asker : TransactionId} {copies : List CopyId} {result : Except Failure Reply}
      (proceeds : Proceeds db) (ran : db.run (do adoptAll asker copies; return .done) = .ok (result, after)) :
      Proceeds after
  | meanwhile {db after : Database} (proceeds : Proceeds db) (clock : after.pool.clock = db.pool.clock)
      (uses : ∀ id, after.pool.lastUse? id = db.pool.lastUse? id) : Proceeds after

/-- Commands that are answered lead on. -/
theorem Proceeds.afterAll {commands : List Command} (proceeds : Proceeds db)
    (answered : db.answersAll commands = true) : Proceeds (db.afterAll commands) :=
  afterAll_keeps proceeds (fun _ _ _ _ _ proceeds served => proceeds.serve served) answered

/-- However a database proceeds, the times of last use tell one order. -/
theorem Proceeds.ticking (proceeds : Proceeds db) : db.pool.Ticking := by
  induction proceeds with
  | fresh nothing =>
    rw [nothing]
    exact .empty
  | serve _ served ih => exact ih.steps (run_permits (permits_perform_paced _ _) served)
  | @adopt db after asker copies _ _ ran ih =>
    have start : Paced db db := .refl
    exact ih.steps (run_permits ((Paced.withstands db).adoptAll start asker copies).reply ran)
  | meanwhile _ clock uses ih => exact (ih.of_same uses (Nat.le_of_eq clock.symm)).1

end Database

end HeapEngine
