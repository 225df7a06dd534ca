import HeapEngine.Proofs.Commutes
import HeapEngine.Proofs.Database.Memory

/-!
What a list of changed copies leaves behind if one of them is refused.

The copies are taken in one after the other, and each is checked only when its turn comes. So the ones before the
first whose page is not locked for changes stay taken in, and the ones after it are never looked at. Nothing is asked
of the table that hands the copies over: it may give any number of them, of any pages and in any order.
-/

namespace HeapEngine

namespace Database

variable {db before middle after : Database} {asker : TransactionId} {copy : CopyId} {id : PageId}
  {copies : List CopyId}

theorem mark?_eq_some : db.mark? id = some asker ↔ ∃ page, db.pool.page? id = some page ∧ page.changedBy = some asker :=
  Option.bind_eq_some_iff

/-- A page that is marked is resident. -/
theorem isResident_of_mark? (marked : db.mark? id = some asker) : db.pool.isResident id = true := by
  obtain ⟨page, found, -⟩ := mark?_eq_some.1 marked
  rw [Pool.isResident_eq, found]
  rfl

/-- The same pages are resident, and each is marked as before. -/
def SameMarks (before after : Database) : Prop :=
  ∀ id, after.pool.isResident id = before.pool.isResident id ∧ after.mark? id = before.mark? id

/-- The changes on pages were taken in: they are resident and marked, and nothing but clean pages went for them. -/
structure TakesIn (asker : TransactionId) (pages : List PageId) (before after : Database) : Prop where
  locks : after.locks = before.locks
  writes : ∀ id ∈ pages, before.locks.isWriter id asker = true
  marked : ∀ id ∈ pages, after.mark? id = some asker
  others : ∀ id, id ∉ pages → after.pool.page? id = before.pool.page? id
    ∨ after.pool.page? id = none ∧ ∃ page, before.pool.page? id = some page ∧ page.isDirty = false
  /-- No page goes if all were there. -/
  stays : (∀ id ∈ pages, before.pool.isResident id = true) →
    ∀ id, id ∉ pages → after.pool.page? id = before.pool.page? id

namespace TakesIn

theorem nil : TakesIn asker [] db db :=
  ⟨rfl, nofun, nofun, fun _ _ => .inl rfl, fun _ _ _ => rfl⟩

theorem append {first second : List PageId} (takes : TakesIn asker first before middle)
    (takesToo : TakesIn asker second middle after) : TakesIn asker (first ++ second) before after where
  locks := takesToo.locks.trans takes.locks
  writes id listed := by
    rcases List.mem_append.1 listed with early | late
    · exact takes.writes id early
    · exact takes.locks ▸ takesToo.writes id late
  marked id listed := by
    by_cases late : id ∈ second
    · exact takesToo.marked id late
    -- A page that was marked before has changes, and so it does not go for a later one.
    have marked := takes.marked id ((List.mem_append.1 listed).resolve_right late)
    rcases takesToo.others id late with same | ⟨-, page, found, clean⟩
    · rwa [mark?, same]
    · obtain ⟨held, foundToo, changed⟩ := mark?_eq_some.1 marked
      cases found.symm.trans foundToo
      rw [Page.isDirty, changed] at clean
      cases clean
  others id other := by
    obtain ⟨early, late⟩ := not_or.1 (mt List.mem_append.2 other)
    rcases takes.others id early with same | ⟨gone, clean⟩
    · rw [← same]
      exact takesToo.others id late
    · -- What went stays away, since it is not taken in itself.
      rcases takesToo.others id late with still | ⟨-, page, found, -⟩
      · exact .inr ⟨still.trans gone, clean⟩
      · cases gone.symm.trans found
  stays resident id other := by
    obtain ⟨early, late⟩ := not_or.1 (mt List.mem_append.2 other)
    have same := takes.stays fun id listed => resident id (List.mem_append_left _ listed)
    have residentToo (id : PageId) (listed : id ∈ second) : middle.pool.isResident id = true := by
      by_cases marked : id ∈ first
      · exact isResident_of_mark? (takes.marked id marked)
      · rw [Pool.isResident_eq, same id marked, ← Pool.isResident_eq]
        exact resident id (List.mem_append_right _ listed)
    exact (takesToo.stays residentToo id late).trans (same id early)

/-- Nothing is resident or marked anew exactly if the pages had the mark of the same transaction already. -/
theorem sameMarks_iff {pages : List PageId} (takes : TakesIn asker pages before after) :
    SameMarks before after ↔ ∀ id ∈ pages, before.mark? id = some asker := by
  refine ⟨fun same id listed => (same id).2.symm.trans (takes.marked id listed), fun marked id => ?_⟩
  by_cases listed : id ∈ pages
  · have now := takes.marked id listed
    rw [isResident_of_mark? now, isResident_of_mark? (marked id listed), now, marked id listed]
    exact ⟨rfl, rfl⟩
  · have same := takes.stays (fun other listed => isResident_of_mark? (marked other listed)) id listed
    rw [Pool.isResident_eq, Pool.isResident_eq, mark?, mark?, same]
    exact ⟨rfl, rfl⟩

/-- One page is taken in where its changes are resident, and at most a clean page went for it if it was not there. -/
theorem single {pool : Pool} (page : Page) (writes : db.locks.isWriter id asker = true)
    (seated : pool.page? id = some (page.markChanged asker))
    (others : ∀ other, other ≠ id → pool.page? other = db.pool.page? other
      ∨ pool.page? other = none ∧ db.pool.isResident id = false
        ∧ ∃ page, db.pool.page? other = some page ∧ page.isDirty = false) :
    TakesIn asker [id] db { db with pool } := by
  refine ⟨rfl, by simpa using writes, ?_, fun other apart => ?_, fun resident other apart => ?_⟩
  · simpa using mark?_eq_some.2 ⟨_, seated, rfl⟩
  · rw [List.mem_singleton] at apart
    exact (others other apart).imp_right fun gone => ⟨gone.1, gone.2.2⟩
  · rw [List.mem_singleton] at apart
    refine (others other apart).resolve_right fun gone => ?_
    rw [resident id List.mem_cons_self] at gone
    cases gone.2.1

end TakesIn

/-- A copy that is adopted has its changes taken in. -/
theorem Adopts.takesIn {result : Except Failure Unit} (adopts : Adopts db asker copy result after)
    (done : result = .ok ()) : TakesIn asker [copy.page] db after := by
  cases adopts with
  | unlocked => cases done
  | full => cases done
  | @current page writes held current =>
    -- The resident copy is changed where it is.
    have pages (id : PageId) : ((db.withMark asker copy page).touch copy.page).2.page? id
        = if id = copy.page then (db.pool.page? copy.page).map fun _ => page.markChanged asker
          else db.pool.page? id := by
      rw [(Pool.touch_eq _ _).1, withMark, Pool.edit_of_current current, Pool.page?_editResident]
    have resident : db.pool.page? copy.page = some page := (Pool.copy?_of_current current).symm.trans held
    refine .single page writes ?_ fun id other => .inl ?_
    · rw [pages, if_pos rfl, resident, Option.map_some]
    · rw [pages, if_neg other]
  | @displaces page writes held stray resident =>
    refine .single page writes ?_ fun id other => .inl ?_
    · rw [Pool.page?_seat, if_pos rfl]
    · rw [Pool.page?_seat, if_neg other, withMark, Pool.page?_edit_of_stray stray]
  | @settles page writes held stray absent room =>
    refine .single page writes ?_ fun id other => .inl ?_
    · rw [Pool.page?_seat, if_pos rfl]
    · rw [Pool.page?_seat, if_neg other, withMark, Pool.page?_edit_of_stray stray]
  | @replaces page victim writes held stray absent crowded stale =>
    refine .single page writes ?_ fun id other => ?_
    · rw [Pool.page?_seat, if_pos rfl]
    rw [Pool.page?_seat, if_neg other, Pool.page?_drop, withMark, Pool.page?_edit_of_stray stray]
    by_cases goes : id = victim
    · rw [if_pos goes]
      exact .inr ⟨rfl, absent, goes ▸ Pool.stalestClean_eq_some stale⟩
    · rw [if_neg goes]
      exact .inl rfl

/-- Only a copy whose page is not locked for changes is refused for misuse. -/
theorem Adopts.not_writes {misuse : Misuse} (adopts : Adopts db asker copy (.error (.misuse misuse)) after) :
    db.locks.isWriter copy.page asker = false := by
  cases adopts with
  | unlocked refused => exact refused

/-- After a copy that was adopted, the rest of the list is. -/
theorem adoptAll_cons_of_ok {rest : List CopyId} (ran : adopt asker copy before = .ok () middle) :
    adoptAll asker (copy :: rest) before = adoptAll asker rest middle := Op.bind_of_ok ran _

/-- After a copy that was not adopted, no other is. -/
theorem adoptAll_cons_of_error {rest : List CopyId} {fault : Fault}
    (ran : adopt asker copy before = .error fault middle) :
    adoptAll asker (copy :: rest) before = .error fault middle := Op.bind_of_error ran _

/-- A list of copies that is adopted as a whole has all its changes taken in. -/
theorem takesIn_of_adoptAll (adopted : adoptAll asker copies before = .ok () after) :
    TakesIn asker (copies.map CopyId.page) before after := by
  induction copies generalizing before with
  | nil =>
    cases adopted
    exact .nil
  | cons copy rest ih =>
    cases ran : adopt asker copy before with
    | error fault middle => cases (adoptAll_cons_of_error ran).symm.trans adopted
    | ok _ middle =>
      rw [adoptAll_cons_of_ok ran] at adopted
      have adopts : Adopts before asker copy _ middle := (ends_adopt_exact asker copy (.inl trivial)).of_ok ran
      exact (adopts.takesIn rfl).append (ih adopted)

/-- The copies before the first one whose page is not locked for changes. -/
def lockedFront (db : Database) (asker : TransactionId) (copies : List CopyId) : List CopyId :=
  copies.takeWhile fun copy => db.locks.isWriter copy.page asker

/-- The copy after those whose pages are locked is of a page that is not. -/
theorem not_writes_of_split {offender : CopyId} {rest : List CopyId}
    (split : copies = db.lockedFront asker copies ++ offender :: rest) :
    db.locks.isWriter offender.page asker = false := by
  have dropped : copies.dropWhile (fun copy => db.locks.isWriter copy.page asker) = offender :: rest :=
    List.append_cancel_left (List.takeWhile_append_dropWhile.trans split)
  have first := List.head?_dropWhile_not (fun copy : CopyId => db.locks.isWriter copy.page asker) copies
  rw [dropped] at first
  exact first

/-- A list of copies is refused for the first page that is not locked, once the copies before it are adopted. -/
theorem adoptAll_refused_iff :
    adoptAll asker copies before = .error (.failed (.misuse (.changedUnlocked asker id))) after
      ↔ (∃ offender rest, copies = before.lockedFront asker copies ++ offender :: rest ∧ offender.page = id)
        ∧ adoptAll asker (before.lockedFront asker copies) before = .ok () after := by
  induction copies generalizing before with
  | nil => exact ⟨nofun, fun split => by simp at split⟩
  | cons copy rest ih =>
    cases writes : before.locks.isWriter copy.page asker with
    | false =>
      -- The first copy is refused, and nothing was done before it.
      have none : before.lockedFront asker (copy :: rest) = [] := by simp [lockedFront, writes]
      have ran : adopt asker copy before = .error (.failed (.misuse (.changedUnlocked asker copy.page))) before := by
        unfold adopt
        rw [Op.get_bind_run, writes]
        rfl
      rw [adoptAll_cons_of_error ran, none]
      constructor
      · intro stopped
        cases stopped
        exact ⟨⟨copy, rest, rfl, rfl⟩, rfl⟩
      · rintro ⟨⟨offender, others, split, rfl⟩, nothing⟩
        cases split
        cases nothing
        rfl
    | true =>
      have front : before.lockedFront asker (copy :: rest) = copy :: before.lockedFront asker rest := by
        simp [lockedFront, writes]
      have adopts : Op.Permits _ before _ := ends_adopt_exact asker copy (.inl trivial)
      rw [front]
      cases ran : adopt asker copy before with
      | error fault middle =>
        -- There was no room, which is another failure.
        rw [adoptAll_cons_of_error ran, adoptAll_cons_of_error ran]
        refine ⟨fun stopped => ?_, fun adopted => by cases adopted.2⟩
        cases stopped
        cases (adopts.of_error ran).not_writes.symm.trans writes
      | ok _ middle =>
        have taken : TakesIn asker [copy.page] before middle := (adopts.of_ok ran).takesIn rfl
        have same : middle.lockedFront asker rest = before.lockedFront asker rest := by
          rw [lockedFront, lockedFront, taken.locks]
        rw [adoptAll_cons_of_ok ran, adoptAll_cons_of_ok ran, ih, same]
        simp

/-- A failure that is told with something else is that of the operation. -/
theorem attempt_reply_eq_error {σ α β : Type} {action : Op σ α} {state last : σ} {failure : Failure}
    {kept told : β} (ran : (do return (← attempt action, kept) : Op σ _) state = .ok (.error failure, told) last) :
    told = kept ∧ action state = .error (.failed failure) last := by
  cases ended : action state with
  | ok value after =>
    have tried : attempt action state = .ok (.ok value) after := by rw [attempt, ended]
    cases (Op.bind_of_ok tried _).symm.trans ran
  | error fault after =>
    cases fault with
    | failed other =>
      have tried : attempt action state = .ok (.error other) after := by rw [attempt, ended]
      cases (Op.bind_of_ok tried _).symm.trans ran
      exact ⟨rfl, rfl⟩
    | trapped cause =>
      have tried : attempt action state = .error (.trapped cause) after := by rw [attempt, ended]
      cases (Op.bind_of_error tried _).symm.trans ran

/-- Once a table has handed over the copies that it changed, storing a record is taking them in. -/
theorem insert_eq_adoptAll {number : Nat} {table : Table} {record stored : Record}
    (registered : db.catalog.find number = .ok table)
    (handed : insertInTable number table asker record db = .ok (.ok copies, stored) middle) :
    insert asker number record db = (do return (← attempt (adoptAll asker copies), stored) : Op Database _) middle := by
  unfold insert
  rw [Op.get_bind_run, registered]
  exact Op.bind_of_ok handed _

/-- A record that is refused since a page is not locked leaves all pages in memory as the table handed them over. -/
def RefusesWhole (db : Database) : Prop :=
  ∀ asker number table record copies stored middle id placed after, db.catalog.find number = .ok table →
    insertInTable number table asker record db = .ok (.ok copies, stored) middle →
    insert asker number record db = .ok (.error (.misuse (.changedUnlocked asker id)), placed) after →
    SameMarks middle after

/--
A list of changed copies is refused for the first one whose page is not locked, and those before it are taken in.

Whatever table hands the copies over, and whatever is in memory: if a record cannot be stored since a page is not
locked for changes, the pages of all copies before it are resident and marked by whoever stores the record, and
nothing is done with the copies after it. So no page is resident or marked anew exactly if the pages before the first
one that is not locked were all marked by the same transaction before, as when that one stands first in the list.
-/
theorem refused_takes_front {number : Nat} {table : Table} {record stored placed : Record}
    (registered : db.catalog.find number = .ok table)
    (handed : insertInTable number table asker record db = .ok (.ok copies, stored) middle)
    (refused : insert asker number record db
      = .ok (.error (.misuse (.changedUnlocked asker id)), placed) after) :
    (∃ offender rest, copies = middle.lockedFront asker copies ++ offender :: rest ∧ offender.page = id)
      ∧ middle.locks.isWriter id asker = false ∧ placed = stored
      ∧ adoptAll asker (middle.lockedFront asker copies) middle = .ok () after
      ∧ TakesIn asker ((middle.lockedFront asker copies).map CopyId.page) middle after
      ∧ (SameMarks middle after ↔ ∀ copy ∈ middle.lockedFront asker copies, middle.mark? copy.page = some asker) := by
  rw [insert_eq_adoptAll registered handed] at refused
  obtain ⟨same, stopped⟩ := attempt_reply_eq_error refused
  obtain ⟨⟨offender, rest, split, here⟩, adopted⟩ := adoptAll_refused_iff.1 stopped
  have taken := takesIn_of_adoptAll adopted
  refine ⟨⟨offender, rest, split, here⟩, here ▸ not_writes_of_split split, same, adopted, taken, ?_⟩
  rw [taken.sameMarks_iff, List.forall_mem_map]

/-- There is a table that stores a record on a new copy of each of two pages, and the first page is locked. -/
def halfLocked : Database where
  settings := ⟨64, 2, Duration.ofMilliseconds 20⟩
  catalog := (Catalog.empty 64).bind "pairs" 1 (.custom (.detached 64 2 [0, 1] none 1))
  storage := .empty ""
  locks := (Locks.empty.grant? ⟨1, 0⟩ ⟨1⟩ .exclusive).getD .empty
  pool := .empty
  calls := .empty

/-- The copies of both pages were handed over, and neither was taken in. -/
def handedOver : Database :=
  (insertInTable 1 (.custom (.detached 64 2 [0, 1] none 1)) ⟨1⟩ (.ofValues [.integer 7])).last halfLocked

/-- The table hands the copies over, and the second one is refused. -/
theorem halfLocked_runs :
    halfLocked.catalog.find 1 = .ok (.custom (.detached 64 2 [0, 1] none 1))
      ∧ insertInTable 1 (.custom (.detached 64 2 [0, 1] none 1)) ⟨1⟩ (.ofValues [.integer 7]) halfLocked
        = .ok (.ok [⟨⟨1, 0⟩, 0⟩, ⟨⟨1, 1⟩, 1⟩], ⟨some ⟨⟨1, 1⟩, 0⟩, [.integer 7]⟩) handedOver
      ∧ insert ⟨1⟩ 1 (.ofValues [.integer 7]) halfLocked
        = .ok (.error (.misuse (.changedUnlocked ⟨1⟩ ⟨1, 1⟩)), ⟨some ⟨⟨1, 1⟩, 0⟩, [.integer 7]⟩)
            ((insert ⟨1⟩ 1 (.ofValues [.integer 7])).last halfLocked) :=
  ⟨rfl, Op.eq_ok_of_outcome (by decide +kernel), Op.eq_ok_of_outcome (by decide +kernel)⟩

/-- The first page had no mark when it was handed over, so it shows that its copy was taken in. -/
theorem refused_takes_front_halfLocked : ∃ after,
    insert ⟨1⟩ 1 (.ofValues [.integer 7]) halfLocked
        = .ok (.error (.misuse (.changedUnlocked ⟨1⟩ ⟨1, 1⟩)), ⟨some ⟨⟨1, 1⟩, 0⟩, [.integer 7]⟩) after
      ∧ handedOver.lockedFront ⟨1⟩ [⟨⟨1, 0⟩, 0⟩, ⟨⟨1, 1⟩, 1⟩] = [⟨⟨1, 0⟩, 0⟩]
      ∧ after.mark? ⟨1, 0⟩ = some ⟨1⟩ ∧ ¬ SameMarks handedOver after := by
  obtain ⟨registered, handed, refused⟩ := halfLocked_runs
  obtain ⟨-, -, -, -, taken, same⟩ := refused_takes_front registered handed refused
  have front : handedOver.lockedFront ⟨1⟩ [⟨⟨1, 0⟩, 0⟩, ⟨⟨1, 1⟩, 1⟩] = [⟨⟨1, 0⟩, 0⟩] := by decide +kernel
  rw [front] at taken same
  refine ⟨_, refused, front, taken.marked _ (by simp), fun unchanged => ?_⟩
  have marked := same.1 unchanged ⟨⟨1, 0⟩, 0⟩ (by simp)
  revert marked
  decide +kernel

/-- A refused list can be applied in part: the first page is resident and marked, which it was not before. -/
theorem halfLocked_not_whole : Proceeds halfLocked ∧ ¬ halfLocked.RefusesWhole := by
  refine ⟨.fresh rfl, fun whole => ?_⟩
  obtain ⟨registered, handed, refused⟩ := halfLocked_runs
  have same := whole _ _ _ _ _ _ _ _ _ _ registered handed refused ⟨1, 0⟩
  -- The page was not resident when the copies were handed over.
  have absent : handedOver.pool.isResident ⟨1, 0⟩ = false := by decide +kernel
  have resident : ((insert ⟨1⟩ 1 (.ofValues [.integer 7])).last halfLocked).pool.isResident ⟨1, 0⟩ = true := by
    decide +kernel
  cases (same.1.symm.trans resident).symm.trans absent

end Database

end HeapEngine
