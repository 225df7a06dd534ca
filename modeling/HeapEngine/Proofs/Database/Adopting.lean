import HeapEngine.Proofs.Database.Roaming

/-!
What it comes to that the changes on a copy of a page are taken in.

The copy may be resident or not. Nothing is asked of it, since a table of the caller's own may give any copies as the
ones it changed. So all that may happen is told here at once, and what it means is read off it where it is needed.
-/

namespace HeapEngine

/-- A copy that has no frame is changed without changing any. -/
theorem Pool.frames_edit_of_stray {pool : Pool} {copy : CopyId} (stray : pool.isCurrent copy = false)
    (change : Page → Page) : (pool.edit copy change).frames = pool.frames := by
  simp only [edit, stray, Bool.false_eq_true, if_false]
  split <;> rfl

namespace Database

variable {db : Database}

/-- Room is there, or the stalest page without changes goes for it, or there is none. -/
theorem ensures_makeRoom_stalest (db : Database) :
    Op.Ensures makeRoom db fun result after => match result with
      | .ok () => db.pool.residentCount < db.settings.capacity ∧ after = db
        ∨ db.settings.capacity ≤ db.pool.residentCount
          ∧ ∃ victim, db.pool.stalestClean = some victim ∧ after = { db with pool := db.pool.drop victim }
      | .error failure => db.Full ∧ failure = .poolFull db.settings.capacity ∧ after = db := by
  unfold Op.Ensures Op.Ends makeRoom dropStalest
  by_cases crowded : db.settings.capacity ≤ db.pool.residentCount
  · rw [if_pos crowded]
    cases oldest : db.pool.stalestClean with
    | none => exact ⟨⟨crowded, fun _ _ => Pool.isDirty_of_stalestClean oldest⟩, rfl, rfl⟩
    | some victim => exact .inr ⟨crowded, victim, rfl, rfl⟩
  · rw [if_neg crowded]
    exact .inl ⟨Nat.not_le.1 crowded, rfl⟩

/-- The pages in memory once a copy is marked as changed, wherever the copy is. -/
def withMark (db : Database) (asker : TransactionId) (copy : CopyId) (page : Page) : Pool :=
  db.pool.edit copy fun _ => page.markChanged asker

/-- What it comes to that a changed copy is adopted. -/
inductive Adopts (db : Database) (asker : TransactionId) (copy : CopyId) : Except Failure Unit → Database → Prop
  /-- Its page is not locked for changes, and nothing is done. -/
  | unlocked (refused : db.locks.isWriter copy.page asker = false) :
      Adopts db asker copy (.error (.misuse (.changedUnlocked asker copy.page))) db
  /-- It is the resident copy. -/
  | current {page : Page} (writes : db.locks.isWriter copy.page asker = true) (held : db.copy? copy = some page)
      (current : db.pool.isCurrent copy = true) :
      Adopts db asker copy (.ok ()) { db with pool := ((db.withMark asker copy page).touch copy.page).2 }
  /-- Another copy is resident, and this one takes its place. -/
  | displaces {page : Page} (writes : db.locks.isWriter copy.page asker = true) (held : db.copy? copy = some page)
      (stray : db.pool.isCurrent copy = false) (resident : db.pool.isResident copy.page = true) :
      Adopts db asker copy (.ok ())
        { db with pool := (db.withMark asker copy page).seat copy (page.markChanged asker) }
  /-- No copy is resident, and there is no room for one. -/
  | full {page : Page} (writes : db.locks.isWriter copy.page asker = true) (held : db.copy? copy = some page)
      (stray : db.pool.isCurrent copy = false) (absent : db.pool.isResident copy.page = false) (full : db.Full) :
      Adopts db asker copy (.error (.poolFull db.settings.capacity)) { db with pool := db.withMark asker copy page }
  /-- No copy is resident, and there is room for one. -/
  | settles {page : Page} (writes : db.locks.isWriter copy.page asker = true) (held : db.copy? copy = some page)
      (stray : db.pool.isCurrent copy = false) (absent : db.pool.isResident copy.page = false)
      (room : db.pool.residentCount < db.settings.capacity) :
      Adopts db asker copy (.ok ())
        { db with pool := (db.withMark asker copy page).seat copy (page.markChanged asker) }
  /-- No copy is resident, and another page goes for it. -/
  | replaces {page : Page} {victim : PageId} (writes : db.locks.isWriter copy.page asker = true)
      (held : db.copy? copy = some page) (stray : db.pool.isCurrent copy = false)
      (absent : db.pool.isResident copy.page = false) (crowded : db.settings.capacity ≤ db.pool.residentCount)
      (stale : db.pool.stalestClean = some victim) :
      Adopts db asker copy (.ok ())
        { db with pool := ((db.withMark asker copy page).drop victim).seat copy (page.markChanged asker) }

/-- A changed copy is adopted in one of these ways. Only one that is not there traps. -/
theorem ends_adopt_exact {mayTrap : Prop} (asker : TransactionId) (copy : CopyId)
    (there : mayTrap ∨ (db.copy? copy).isSome = true) :
    Op.Ends mayTrap (adopt asker copy) db (Adopts db asker copy) := by
  unfold adopt
  refine .get_bind (.ite (fun refused => .fail (.unlocked (by simpa using refused))) fun locked => ?_)
  have writes : db.locks.isWriter copy.page asker = true := by simpa using locked
  -- The copy is marked first, wherever it is.
  have marks : Op.Ends mayTrap (changeCopy copy fun page => .ok (page.markChanged asker, ())) db fun result after =>
      result = .ok () ∧ ∃ page, db.copy? copy = some page
        ∧ after = { db with pool := db.withMark asker copy page } := by
    unfold Op.Ends changeCopy
    cases held : db.copy? copy with
    | none => exact there.resolve_right (by simp [held])
    | some page => exact ⟨rfl, page, rfl, rfl⟩
  refine marks.bind (fun _ _ ended => by cases ended.1) fun _ marked ended => ?_
  obtain ⟨-, page, held, rfl⟩ := ended
  have looked : lookAt copy { db with pool := db.withMark asker copy page }
      = .ok (page.markChanged asker) { db with pool := db.withMark asker copy page } := by
    have found : (db.withMark asker copy page).copy? copy = some (page.markChanged asker) := by
      refine (db.pool.copy?_edit copy fun other there => ?_).trans (congrArg (Option.map _) held)
      cases held.symm.trans there
      rfl
    rw [lookAt, Database.copy?, found]
  refine .run_bind looked (.ite (fun current => .onPool_bind (.pure (.current writes held current))) fun other => ?_)
  have stray : db.pool.isCurrent copy = false := Bool.eq_false_iff.2 other
  cases resident : db.pool.isResident copy.page with
  | true => exact .ite (fun absent => by simp at absent) fun _ => .onPool (.displaces writes held stray resident)
  | false =>
    refine .ite (fun _ => ?_) fun absent => by simp at absent
    -- The frames are what they were, since the copy that was marked has none.
    have frames : (db.withMark asker copy page).frames = db.pool.frames := Pool.frames_edit_of_stray stray _
    refine (ensures_makeRoom_stalest _).ends.bind (fun failure after ended => ?_) fun _ after ended => ?_
    · obtain ⟨⟨crowded, dirty⟩, rfl, rfl⟩ := ended
      refine .full writes held stray resident ⟨?_, fun id page found => dirty id page ?_⟩
      · rwa [Pool.residentCount, frames] at crowded
      · rwa [Pool.page?, frames]
    · simp only [Pool.residentCount, Pool.stalestClean, frames] at ended
      rcases ended with ⟨room, rfl⟩ | ⟨crowded, victim, stale, rfl⟩
      · exact .onPool (.settles writes held stray resident room)
      · exact .onPool (.replaces writes held stray resident crowded stale)

end Database

end HeapEngine
