import HeapEngine.Proofs.Database.Roaming

/-!
Changing pages, and searching a heap for room, whatever its stores hold.

A search looks at one page after the other and takes the first one that has room. It leaves no page changed but
the one that the record goes on, and no lock gained but on the page where it ended.
-/

namespace HeapEngine

namespace Database

variable {db before middle after : Database} {id : PageId} {page : Page} {asker : TransactionId} {heap : Heap}
  {record : Record} {α β : Type} {mayTrap : Prop}

/-- Whether all pages are sound, those in memory and those that are stored, each of which can be read. -/
structure WellFormed (db : Database) : Prop where
  cached : ∀ id page, db.pool.page? id = some page → page.Sound
  stored : ∀ id image, db.standing.image? id = some image → ∃ page, Page.ofImage id image = .ok page ∧ page.Sound

/-- Every page that may be seen is sound. -/
theorem WellFormed.sound (formed : db.WellFormed) (shown : db.MayShow id page) : page.Sound := by
  rcases shown with resident | ⟨_, stored⟩
  · exact formed.cached id page resident
  · obtain ⟨image, found, decoded⟩ := Standing.stored?_eq_some.1 stored
    obtain ⟨read, same, sound⟩ := formed.stored id image found
    cases decoded.symm.trans same
    exact sound

theorem Roams.wellFormed (roams : Roams before after) (formed : before.WellFormed) : after.WellFormed where
  cached id page resident := formed.sound (roams.shows id page resident)
  stored id image found := formed.stored id image (by rw [roams.standing] at found; exact found)

/-- What it comes to that a transaction changes a page. -/
inductive Attempted (db : Database) (asker : TransactionId) (id : PageId) (change : Page → Outcome (Page × β)) :
    Except Failure (CopyId × β) → Database → Prop
  /-- The page is changed in memory, and is not marked yet. -/
  | changed {copy : CopyId} {page changed : Page} {value : β} {given after : Database}
      (obtains : Obtains db asker id .exclusive copy page given) (outcome : change page = .ok (changed, value))
      (alters : Alters asker given copy page changed after) : Attempted db asker id change (.ok (copy, value)) after
  /-- The page is given, and the change is refused. -/
  | refused {copy : CopyId} {page : Page} {failure : Failure} {after : Database}
      (obtains : Obtains db asker id .exclusive copy page after) (outcome : change page = fail failure) :
      Attempted db asker id change (.error failure) after
  /-- The page is not given. -/
  | denied {failure : Failure} {after : Database} (roams : Roams db after) (locks : after.locks = db.locks)
      (denied : Denied db asker id .exclusive failure) : Attempted db asker id change (.error failure) after

/-- A page that is given to a transaction is locked, and nothing else is. -/
theorem Obtains.gains {mode : LockMode} {copy : CopyId} (obtains : Obtains db asker id mode copy page after)
    (exclusive : db.locks.Exclusive) : Locks.GainsOn asker (· = id) db.locks after.locks :=
  .grant exclusive obtains.granted

theorem Obtains.intact {mode : LockMode} {copy : CopyId} (obtains : Obtains db asker id mode copy page after)
    (intact : db.Intact) : after.Intact :=
  obtains.roams.intact intact (intact.orderly.locks.grant? obtains.granted)

/-- A page that is not changed leaves only locks behind, and those on that page. -/
theorem Attempted.fruitless {change : Page → Outcome (Page × β)} {failure : Failure}
    (attempted : Attempted db asker id change (.error failure) after) (exclusive : db.locks.Exclusive) :
    Roams db after ∧ Locks.GainsOn asker (· = id) db.locks after.locks := by
  cases attempted with
  | refused obtains _ => exact ⟨obtains.roams, obtains.gains exclusive⟩
  | denied roams locks _ => exact ⟨roams, locks ▸ .refl asker _ _⟩

/-- A change of the current copy is made to the page in memory, or is refused. -/
theorem ends_changeCopy_exact {copy : CopyId} {change : Page → Outcome (Page × β)}
    (current : db.pool.isCurrent copy = true) (resident : db.pool.page? copy.page = some page)
    (safe : mayTrap ∨ ∀ cause, change page ≠ trap cause) :
    Op.Ends mayTrap (changeCopy copy change) db fun result after => match result with
      | .ok value => ∃ changed, change page = .ok (changed, value)
        ∧ after = { db with pool := db.pool.editResident copy.page fun _ => changed }
      | .error failure => change page = fail failure ∧ after = db := by
  unfold Op.Ends changeCopy Database.copy?
  rw [Pool.copy?_of_current current, resident]
  cases outcome : change page with
  | ok result =>
    simp only [outcome]
    exact ⟨result.1, rfl, by rw [Pool.edit_of_current current]⟩
  | error fault =>
    simp only [outcome]
    cases fault with
    | failed failure => exact ⟨rfl, rfl⟩
    | trapped cause => exact safe.resolve_right fun never => never cause outcome

/-- A transaction changes a page that it is given, or the page stays as it is. -/
theorem Housed.ends_change (housed : db.Housed) (asker : TransactionId) (id : PageId)
    {change : Page → Outcome (Page × β)} (answer : CopyId → β → α)
    (revises : ∀ page changed value, change page = .ok (changed, value) → page.Revises changed)
    (safe : mayTrap ∨ ∀ page, db.seen? id = some page → ∀ cause, change page ≠ trap cause) :
    Op.Ends mayTrap (do
        let copy ← acquire asker id .writing
        let value ← changeCopy copy change
        return answer copy value) db fun result after =>
      ∃ told, Attempted db asker id change told after ∧ result = told.map fun done => answer done.1 done.2 := by
  refine (housed.ensures_acquire_exact asker id .writing).ends.bind (fun failure after ended => ?_)
    fun copy given ended => ?_
  · exact ⟨.error failure, .denied ended.1 ended.2.1 ended.2.2, rfl⟩
  obtain ⟨page, obtains⟩ := ended
  have here := obtains.here
  have resident : given.pool.page? copy.page = some page := here ▸ obtains.resident
  -- The change is made to the copy that was given, which is the current one.
  refine (ends_changeCopy_exact obtains.current resident (safe.imp_right fun never => never page obtains.seen)).bind
    (fun failure after ended => ?_) fun value after ended => ?_
  · obtain ⟨outcome, rfl⟩ := ended
    exact ⟨.error failure, .refused obtains outcome, rfl⟩
  · obtain ⟨changed, outcome, same⟩ := ended
    refine .pure ⟨.ok (copy, value), .changed obtains outcome ⟨obtains.current, ?_, resident,
      revises _ _ _ outcome, same⟩, rfl⟩
    exact here ▸ Locks.isWriter_of_grantExclusive? obtains.granted

/-- A record is stored on a page that is given to its transaction, or the page stays as it is. -/
theorem Housed.ends_insertAt (housed : db.Housed) (asker : TransactionId) (id : PageId) (record : Record)
    (safe : mayTrap ∨ ∀ page, db.seen? id = some page → ∀ cause, page.insertRecord record ≠ trap cause) :
    Op.Ends mayTrap (insertAt asker id record) db
      (Attempted db asker id fun page => page.insertRecord record) := by
  refine (housed.ends_change asker id Prod.mk (fun _ _ _ inserted => .insert inserted) safe).mono ?_
  rintro _ after ⟨told, attempted, rfl⟩
  cases told <;> exact attempted

/-! Searching for room. -/

/-- Whether a page has no room for a cell, as it may be seen. -/
def Lacks (db : Database) (id : PageId) (size : Nat) : Prop :=
  ∃ page, db.MayShow id page ∧ page.fits size = .ok false

theorem Roams.lacks (roams : Roams before after) {size : Nat} (lacks : after.Lacks id size) : before.Lacks id size := by
  obtain ⟨page, shown, full⟩ := lacks
  exact ⟨page, roams.mayShow shown, full⟩

/-- What a search for room comes to, among so many pages from one on. -/
inductive Searched (db : Database) (heap : Heap) (asker : TransactionId) (record : Record) (left number : Nat) :
    Except Failure (Option (CopyId × RecordId)) → Database → Prop
  /-- No page has room. -/
  | exhausted {after : Database} (roams : Roams db after) (intact : after.Intact)
      (gains : Locks.GainsOn asker (fun _ => False) db.locks after.locks)
      (lacks : ∀ n, number ≤ n → n < number + left → db.Lacks (heap.page n) record.encode.length) :
      Searched db heap asker record left number (.ok none) after
  /-- The record goes on the first page that has room. -/
  | found {n : Nat} {copy : CopyId} {page changed : Page} {place : RecordId} {given after : Database}
      (from_ : number ≤ n) (within : n < number + left)
      (lacks : ∀ earlier, number ≤ earlier → earlier < n → db.Lacks (heap.page earlier) record.encode.length)
      (roams : Roams db given) (intact : given.Intact)
      (gains : Locks.GainsOn asker (· = heap.page n) db.locks given.locks) (here : copy.page = heap.page n)
      (inserted : page.insertRecord record = .ok (changed, place))
      (alters : Alters asker given copy page changed after) :
      Searched db heap asker record left number (.ok (some (copy, place))) after
  /-- A page is not given, for looking at it or for changing it. -/
  | denied {n : Nat} {mode : LockMode} {failure : Failure} {looked after : Database} (within : n < number + left)
      (reached : Roams db looked) (denied : Denied looked asker (heap.page n) mode failure) (roams : Roams db after)
      (gains : Locks.GainsOn asker (· = heap.page n) db.locks after.locks) :
      Searched db heap asker record left number (.error failure) after

/-- A search that goes on at the next page has found no room on the one before. -/
theorem Searched.later {left number : Nat} {result : Except Failure (Option (CopyId × RecordId))}
    (searched : Searched middle heap asker record left (number + 1) result after) (roams : Roams db middle)
    (gains : Locks.GainsOn asker (fun _ => False) db.locks middle.locks)
    (lacks : db.Lacks (heap.page number) record.encode.length) :
    Searched db heap asker record (left + 1) number result after := by
  -- What was searched is this page and those after it.
  have all : ∀ last, (∀ n, number + 1 ≤ n → n < last → middle.Lacks (heap.page n) record.encode.length) →
      ∀ n, number ≤ n → n < last → db.Lacks (heap.page n) record.encode.length := by
    intro last rest n from_ before
    rcases Nat.eq_or_lt_of_le from_ with rfl | beyond
    · exact lacks
    · exact roams.lacks (rest n beyond before)
  have only : ∀ {id locks}, Locks.GainsOn asker (· = id) middle.locks locks →
      Locks.GainsOn asker (· = id) db.locks locks := (gains.mono fun _ none => none.elim).trans
  cases searched with
  | exhausted further intact more rest =>
    exact .exhausted (roams.trans further) intact (gains.trans more)
      (all _ fun n from_ before => rest n from_ (by omega))
  | found from_ within rest further intact more here inserted alters =>
    exact .found (by omega) (by omega) (all _ rest) (roams.trans further) intact (only more) here inserted alters
  | denied within reached denied further more =>
    exact .denied (by omega) (roams.trans reached) denied (roams.trans further) (only more)

/-- Releasing a page that is held takes what is held on it. -/
theorem ensures_releaseEarly_held (held : db.locks.holds id asker = true) :
    Op.Ensures (releaseEarly asker id) db fun result after =>
      result = .ok () ∧ after = { db with locks := (db.locks.release id asker).2 } := by
  unfold Op.Ensures Op.Ends releaseEarly
  rw [show db.locks.release id asker = (true, (db.locks.release id asker).2) from by rw [Locks.release, held]]
  exact ⟨rfl, rfl⟩

/-- A page that is looked at and has room takes the record, once its lock is granted. -/
theorem Obtains.ends_insertAt {looked : Database} {copy : CopyId} {left number : Nat}
    (obtains : Obtains db asker (heap.page number) .shared copy page looked) (intact : db.Intact)
    (safe : mayTrap ∨ db.WellFormed ∧ record.encode.length + Page.entrySize < Page.sizeLimit)
    (room : page.fits record.encode.length = .ok true) :
    Op.Ends mayTrap (do return some (← insertAt asker (heap.page number) record)) looked
      (Searched db heap asker record (left + 1) number) := by
  have gains := obtains.gains intact.orderly.locks
  have still := obtains.intact intact
  -- The page is the one that is in memory now.
  have there : ∀ other, looked.seen? (heap.page number) = some other → other = page := fun other seen =>
    Option.some.inj (seen.symm.trans (seen?_of_resident obtains.resident))
  refine (still.housed.ends_insertAt asker (heap.page number) record ?_).bind ?_ ?_
  · refine safe.imp_right fun known other seen => ?_
    rw [there other seen]
    exact (known.1.sound (mayShow_of_seen? obtains.seen)).insertRecord_ne_trap known.2
  · intro failure after attempted
    cases attempted with
    | refused again outcome =>
      rw [there _ again.seen] at outcome
      exact absurd outcome (Page.insertRecord_ne_fail_of_fits room failure)
    | denied roams locks denied =>
      exact .denied (by omega) obtains.roams denied (obtains.roams.trans roams) (locks ▸ gains)
  · intro value after attempted
    cases attempted with
    | changed again outcome alters =>
      exact .pure (.found (Nat.le_refl _) (by omega) (by omega) (obtains.roams.trans again.roams)
        (again.intact still) (gains.trans (again.gains still.orderly.locks)) again.here outcome alters)

/-- A page that has no room is passed, and what was locked for looking at it is released. -/
theorem Obtains.ends_passing {looked : Database} {copy : CopyId} {next : Op Database α}
    {post : Except Failure α → Database → Prop} (obtains : Obtains db asker id .shared copy page looked)
    (intact : db.Intact)
    (goOn : ∀ passed, Roams db passed → passed.Intact →
      Locks.GainsOn asker (fun _ => False) db.locks passed.locks → Op.Ends mayTrap next passed post) :
    Op.Ends mayTrap (do
        if !db.locks.holds id asker then releaseEarly asker id
        next) looked post := by
  have exclusive := intact.orderly.locks
  have still := obtains.intact intact
  cases held : db.locks.holds id asker with
  | false =>
    have holds := (Locks.holds_of_grant? obtains.granted).1
    refine (ensures_releaseEarly_held holds).ends.bind (fun _ _ ended => by cases ended.1) fun _ _ ended => ?_
    obtain ⟨_, rfl⟩ := ended
    exact goOn _ (obtains.roams.trans (.withLocks looked (looked.locks.release id asker).2))
      (still.withLocks (still.orderly.locks.release _ asker)) ((obtains.gains exclusive).release held)
  | true => exact goOn _ obtains.roams still (.grantShared exclusive held obtains.granted)

/-- A search takes the first page that has room, or it is told why a page is not given. -/
theorem Intact.ends_insertFrom (intact : db.Intact) (heap : Heap) (asker : TransactionId) (record : Record)
    (safe : mayTrap ∨ db.WellFormed ∧ record.encode.length + Page.entrySize < Page.sizeLimit) (left number : Nat) :
    Op.Ends mayTrap (insertFrom heap asker record record.encode.length left number) db
      (Searched db heap asker record left number) := by
  induction left generalizing db number with
  | zero => exact .pure (.exhausted (.refl db) intact (.refl asker _ _) (by omega))
  | succ left ih =>
    unfold insertFrom
    refine .get_bind ((intact.housed.ensures_acquire_exact asker (heap.page number) .reading).ends.bind ?_ ?_)
    · intro failure after ended
      obtain ⟨roams, locks, denied⟩ := ended
      exact .denied (by omega) (.refl db) denied roams (locks ▸ .refl asker _ _)
    intro copy given ended
    obtain ⟨page, obtains⟩ := ended
    have shown := mayShow_of_seen? obtains.seen
    refine (ensures_lookAt obtains.current (obtains.here ▸ obtains.resident)).ends.bind
      (fun _ _ ended => by cases ended.1) ?_
    intro _ looked ended
    obtain ⟨same, rfl⟩ := ended
    cases same
    rcases page.fits_ends record.encode.length with ⟨room, counted⟩ | ⟨cause, trapped⟩
    · refine .ofOutcome_bind counted (.ite (fun fitting => ?_) fun crowded => ?_)
      · subst fitting
        exact obtains.ends_insertAt intact safe counted
      · have full : page.fits record.encode.length = .ok false := by simpa [crowded] using counted
        refine obtains.ends_passing intact fun passed roams still gains => ?_
        refine (ih still (safe.imp_right fun known => ⟨roams.wellFormed known.1, known.2⟩) (number + 1)).mono ?_
        exact fun _ _ searched => searched.later roams gains ⟨page, shown, full⟩
    · -- A page that is sound answers.
      have told : mayTrap := safe.resolve_right fun known => by
        rw [(known.1.sound shown).fits_eq known.2] at trapped
        cases trapped
      rw [trapped]
      exact told

end Database

end HeapEngine
