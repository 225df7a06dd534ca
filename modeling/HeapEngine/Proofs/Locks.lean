import HeapEngine.Locks
import HeapEngine.Proofs.SortedMap

/-!
Who holds which page after a lock was granted or released.

A writer is alone on its page. Granting a lock takes none away, and releasing one takes only that.
-/

namespace HeapEngine.Locks

/-- Nobody but the writer of a page reads it. -/
def Exclusive (locks : Locks) : Prop :=
  ∀ page writer reader, locks.isWriter page writer = true → locks.isReader page reader = true →
    reader = writer

/-- What one transaction gained is all that changed. -/
structure Advances (asker : TransactionId) (before after : Locks) : Prop where
  readers : ∀ page holder, holder ≠ asker →
    after.isReader page holder = before.isReader page holder
  writers : ∀ page holder, holder ≠ asker →
    after.isWriter page holder = before.isWriter page holder
  writes : ∀ page, before.isWriter page asker = true → after.isWriter page asker = true
  holds : ∀ page, before.holds page asker = true → after.holds page asker = true

variable {locks granted : Locks} {page other : PageId} {asker holder : TransactionId}

namespace Advances

theorem refl (asker : TransactionId) (locks : Locks) : Advances asker locks locks :=
  ⟨fun _ _ _ => rfl, fun _ _ _ => rfl, fun _ writes => writes, fun _ holds => holds⟩

theorem trans {a b c : Locks} (first : Advances asker a b) (second : Advances asker b c) :
    Advances asker a c where
  readers page holder apart :=
    (second.readers page holder apart).trans (first.readers page holder apart)
  writers page holder apart :=
    (second.writers page holder apart).trans (first.writers page holder apart)
  writes page written := second.writes page (first.writes page written)
  holds page held := second.holds page (first.holds page held)

/-- Who else holds a page holds it still, and nobody else does. -/
theorem holds_other {before after : Locks} {asker holder : TransactionId}
    (advances : Advances asker before after) (apart : holder ≠ asker) (page : PageId) :
    after.holds page holder = before.holds page holder := by
  rw [Locks.holds, Locks.holds, advances.readers page holder apart, advances.writers page holder apart]

/-- Who alone may hold a page stays so when gaining locks. -/
theorem alone {before after : Locks} {asker : TransactionId} {page : PageId} (advances : Advances asker before after)
    (alone : ∀ holder, before.holds page holder = true → holder = asker) (holder : TransactionId)
    (holds : after.holds page holder = true) : holder = asker :=
  Decidable.byContradiction fun apart => apart (alone holder ((advances.holds_other apart page).symm.trans holds))

end Advances

/-- The writer of a page is the one that is listed for it. -/
theorem isWriter_iff : locks.isWriter page holder = true
    ↔ locks.writers.find? page = some holder := decide_eq_true_iff

/-- Two transactions are never both writers of a page. -/
theorem writer_unique {a b : TransactionId} (first : locks.isWriter page a = true)
    (second : locks.isWriter page b = true) : a = b := by
  simp only [isWriter, decide_eq_true_eq] at first second
  exact Option.some.inj (first.symm.trans second)

/-- Whoever holds a page that has a writer is that writer. -/
theorem Exclusive.eq_writer (exclusive : locks.Exclusive) {writer : TransactionId}
    (writes : locks.isWriter page writer = true) (holds : locks.holds page holder = true) :
    holder = writer := by
  rcases Bool.or_eq_true_iff.1 holds with reads | alsoWrites
  · -- A reader of a written page is the writer itself.
    exact exclusive page writer holder writes reads
  · -- Only one transaction is listed as the writer.
    exact writer_unique alsoWrites writes

theorem exclusive_empty : empty.Exclusive := by
  intro page writer reader writes
  simp [isWriter, writerOf?, empty] at writes

/-- Adding a reader lists one more holder of one page. -/
theorem isReader_insert (locks : Locks) (page other : PageId) (asker holder : TransactionId) :
    (Locks.mk (locks.readers.insert page ((locks.readersOf page).insert asker ()))
        locks.writers).isReader other holder
      = (decide (other = page ∧ holder = asker) || locks.isReader other holder) := by
  simp only [isReader, readersOf, SortedMap.find?_insert]
  -- Another page keeps its readers; on this one the set of readers gained a member.
  by_cases here : other = page
  · subst here
    by_cases self : holder = asker
    · simp [self, SortedMap.contains]
    · simp [self, SortedMap.contains, SortedMap.find?_insert]
  · simp [here]

/-- Setting the writer of a page decides who writes that page, and nothing else. -/
theorem isWriter_insert (readers : SortedMap PageId (SortedSet TransactionId)) (locks : Locks)
    (page other : PageId) (asker holder : TransactionId) :
    (Locks.mk readers (locks.writers.insert page asker)).isWriter other holder
      = if other = page then decide (holder = asker) else locks.isWriter other holder := by
  simp only [isWriter, writerOf?, SortedMap.find?_insert]
  by_cases here : other = page <;> simp [here, eq_comm]

/-- A shared lock that was granted adds its reader and changes nothing else. -/
theorem grantShared?_eq_some (given : locks.grantShared? page asker = some granted) :
    (∀ writer, locks.isWriter page writer = true → writer = asker)
      ∧ (∀ other holder, granted.isReader other holder
        = (decide (other = page ∧ holder = asker) || locks.isReader other holder))
      ∧ ∀ other holder, granted.isWriter other holder = locks.isWriter other holder := by
  -- Both branches that grant do the same; they differ in why no other transaction writes.
  have result : granted = ⟨locks.readers.insert page ((locks.readersOf page).insert asker ()),
      locks.writers⟩ ∧ ∀ writer, locks.isWriter page writer = true → writer = asker := by
    unfold grantShared? at given
    cases written : locks.writerOf? page with
    | none =>
      simp only [written, Option.some.injEq] at given
      -- Nobody writes the page.
      exact ⟨given.symm, fun writer writes => by simp [isWriter, written] at writes⟩
    | some writer =>
      simp only [written] at given
      -- The one who asks may read what it writes, anybody else is refused.
      by_cases self : writer = asker
      · simp only [self, ↓reduceIte, Option.some.injEq] at given
        refine ⟨given.symm, fun other writes => ?_⟩
        simp only [isWriter, written, decide_eq_true_eq, Option.some.injEq] at writes
        exact writes.symm.trans self
      · simp [self] at given
  obtain ⟨rfl, alone⟩ := result
  exact ⟨alone, fun other holder => isReader_insert locks page other asker holder, fun _ _ => rfl⟩

/-- An exclusive lock that was granted leaves its page to the new writer alone. -/
theorem grantExclusive?_eq_some (exclusive : locks.Exclusive)
    (given : locks.grantExclusive? page asker = some granted) :
    (∀ holder, locks.holds page holder = true → holder = asker)
      ∧ granted.isWriter page asker = true
      ∧ (∀ other holder, (other = page → holder ≠ asker) →
        granted.isReader other holder = locks.isReader other holder
          ∧ granted.isWriter other holder = locks.isWriter other holder) := by
  unfold grantExclusive? at given
  by_cases already : locks.isWriter page asker = true
  · -- Asking again for what one has changes nothing.
    simp only [already, ↓reduceIte, Option.some.injEq] at given
    subst given
    exact ⟨fun holder holds => exclusive.eq_writer already holds, already, fun _ _ _ => ⟨rfl, rfl⟩⟩
  -- A page that its asker reads or that has no writer is written by nobody else.
  have notWriter : ∀ holder, locks.isReader page asker = true ∨ locks.writerOf? page = none →
      locks.isWriter page holder = false := by
    rintro holder (reads | unwritten)
    · refine Bool.eq_false_iff.2 fun writes => already ?_
      exact exclusive page holder asker writes reads ▸ writes
    · simp [isWriter, unwritten]
  by_cases sole : locks.isSoleReader page asker = true
  · -- The only reader becomes the writer.
    simp only [already, Bool.false_eq_true, ↓reduceIte, sole, Option.some.injEq] at given
    subst given
    obtain ⟨one, reads⟩ := Bool.and_eq_true_iff.1 sole
    have only : ∀ holder, locks.isReader page holder = true → holder = asker := fun holder other =>
      SortedMap.eq_of_size_one (by simpa using one) other reads
    refine ⟨fun holder holds => ?_, by simp [isWriter_insert], fun other holder apart => ?_⟩
    · rcases Bool.or_eq_true_iff.1 holds with reads | writes
      · exact only holder reads
      · rw [notWriter holder (.inl reads)] at writes
        cases writes
    -- The reader left the readers of this page, which had no other.
    by_cases here : other = page
    · subst here
      have different := apart rfl
      refine ⟨?_, by simp [isWriter_insert, different, notWriter holder (.inl reads)]⟩
      have silent : locks.isReader other holder = false :=
        Bool.eq_false_iff.2 fun reads => different (only holder reads)
      rw [silent]
      simp [isReader, readersOf, SortedMap.contains]
    · exact ⟨by simp [isReader, readersOf, SortedMap.find?_erase, here],
        by simp [isWriter_insert, here]⟩
  · -- Nobody holds the page.
    simp only [already, Bool.false_eq_true, ↓reduceIte, sole] at given
    split at given
    · rename_i free
      simp only [Option.some.injEq] at given
      subst given
      simp only [SortedMap.contains, Bool.and_eq_true, Bool.not_eq_true', Option.isSome_eq_false_iff,
        Option.isNone_iff_eq_none] at free
      obtain ⟨unread, unwritten⟩ := free
      refine ⟨fun holder holds => ?_, by simp [isWriter_insert], fun other holder apart => ?_⟩
      · simp [Locks.holds, isReader, readersOf, isWriter, writerOf?, unread, unwritten,
          SortedMap.contains] at holds
      · refine ⟨rfl, ?_⟩
        by_cases here : other = page
        · subst here
          simp [isWriter_insert, apart rfl, notWriter holder (.inr unwritten)]
        · simp [isWriter_insert, here]
    · cases given

/-- Who is granted the exclusive lock is the writer, whatever else the locks say. -/
theorem isWriter_of_grantExclusive? (given : locks.grantExclusive? page asker = some granted) :
    granted.isWriter page asker = true := by
  unfold grantExclusive? at given
  split at given
  · rename_i writes
    cases given
    exact writes
  · split at given
    · cases given
      simp [isWriter, writerOf?]
    · split at given
      · cases given
        simp [isWriter, writerOf?]
      · cases given

/-- A lock that was granted is held, in the mode that was asked for. -/
theorem holds_of_grant? {mode : LockMode} (given : locks.grant? page asker mode = some granted) :
    granted.holds page asker = true ∧ (mode = .exclusive → granted.isWriter page asker = true) := by
  cases mode with
  | shared =>
    have reads := (grantShared?_eq_some given).2.1 page asker
    exact ⟨by simp [holds, reads], nofun⟩
  | exclusive =>
    have writes := isWriter_of_grantExclusive? given
    exact ⟨by simp [holds, writes], fun _ => writes⟩

/-- Granting a lock takes none away. -/
theorem grant?_advances (exclusive : locks.Exclusive) {mode : LockMode}
    (given : locks.grant? page asker mode = some granted) : Advances asker locks granted := by
  cases mode with
  | shared =>
    obtain ⟨_, readers, writers⟩ := grantShared?_eq_some given
    -- A reader is added, so only the readers need a look.
    refine ⟨fun other holder apart => ?_, fun other holder _ => writers other holder,
      fun other writes => by rw [writers, writes], fun other holds => ?_⟩
    · simp [readers, apart]
    · rcases Bool.or_eq_true_iff.1 holds with reads | writes
      · simp [Locks.holds, readers, reads]
      · simp [Locks.holds, writers, writes]
  | exclusive =>
    obtain ⟨_, writes, others⟩ := grantExclusive?_eq_some exclusive given
    refine ⟨fun other holder apart => (others other holder fun _ => apart).1,
      fun other holder apart => (others other holder fun _ => apart).2, fun other written => ?_,
      fun other held => ?_⟩
    · by_cases here : other = page
      · rw [here]
        exact writes
      · rw [(others other asker fun same => absurd same here).2, written]
    · by_cases here : other = page
      · rw [here]
        simp [Locks.holds, writes]
      · obtain ⟨readers, writers⟩ := others other asker fun same => absurd same here
        rw [Locks.holds, readers, writers]
        exact held

/-- A writer stays alone on its page when a lock is granted. -/
theorem Exclusive.grant? (exclusive : locks.Exclusive) {mode : LockMode}
    (given : locks.grant? page asker mode = some granted) : granted.Exclusive := by
  intro other writer reader writes reads
  cases mode with
  | shared =>
    obtain ⟨alone, readers, writers⟩ := grantShared?_eq_some given
    rw [writers] at writes
    rw [readers, Bool.or_eq_true_iff, decide_eq_true_eq] at reads
    -- The new reader meets a writer that is itself; an older one was there before.
    rcases reads with ⟨rfl, rfl⟩ | before
    · exact (alone writer writes).symm
    · exact exclusive other writer reader writes before
  | exclusive =>
    obtain ⟨alone, new, others⟩ := grantExclusive?_eq_some exclusive given
    by_cases here : other = page
    · subst here
      -- On this page only the new writer is left, whoever read it before.
      have self : writer = asker := writer_unique writes new
      by_cases alsoSelf : reader = asker
      · rw [alsoSelf, self]
      · rw [(others other reader fun _ => alsoSelf).1] at reads
        exact absurd (alone reader (by simp [Locks.holds, reads])) alsoSelf
    · have apart : ∀ holder, other = page → holder ≠ asker := fun _ same => absurd same here
      rw [(others other writer (apart writer)).2] at writes
      rw [(others other reader (apart reader)).1] at reads
      exact exclusive other writer reader writes reads

/-! Releasing. -/

/-- Taking a reader off a page leaves all other readers. -/
theorem isReader_removeReader (locks : Locks) (page other : PageId) (leaver holder : TransactionId) :
    (locks.removeReader page leaver).isReader other holder
      = (locks.isReader other holder && !decide (other = page ∧ holder = leaver)) := by
  unfold removeReader
  cases found : locks.readers.find? page with
  -- No reader was listed, so the page keeps none.
  | none =>
    by_cases here : other = page
    · subst here
      simp [isReader, readersOf, found, SortedMap.contains]
    · simp [here]
  | some readers =>
    simp only
    by_cases here : other = page
    · subst here
      split
      · -- Nobody is left, so nobody but the one who leaves was there.
        rename_i nobody
        have gone := SortedMap.find?_of_size_zero nobody holder
        rw [SortedMap.find?_erase] at gone
        simp only [isReader, readersOf, SortedMap.find?_erase, found, SortedMap.contains]
        by_cases self : holder = leaver
        · simp [self]
        · simp only [self, ↓reduceIte] at gone
          simp [gone]
      · -- Others are left, and they stay listed.
        by_cases self : holder = leaver <;>
          simp [isReader, readersOf, SortedMap.find?_erase, found, SortedMap.contains, self]
    · split <;>
        simp [isReader, readersOf, SortedMap.find?_insert, SortedMap.find?_erase, here]

/-- Taking a reader off a page leaves all writers. -/
theorem isWriter_removeReader (locks : Locks) (page other : PageId) (leaver holder : TransactionId) :
    (locks.removeReader page leaver).isWriter other holder = locks.isWriter other holder := by
  unfold removeReader
  split
  · rfl
  · simp only
    split <;> rfl

/-- Releasing takes what one transaction holds on one page, and nothing else. -/
theorem isReader_release (locks : Locks) (page other : PageId) (leaver holder : TransactionId) :
    (locks.release page leaver).2.isReader other holder
      = (locks.isReader other holder && !decide (other = page ∧ holder = leaver)) := by
  have readers : (locks.removeWriter page leaver).isReader other holder
      = locks.isReader other holder := by
    unfold removeWriter
    split <;> rfl
  rw [release, isReader_removeReader, readers]

/-- Releasing takes what one transaction holds on one page, and nothing else. -/
theorem isWriter_release (locks : Locks) (page other : PageId) (leaver holder : TransactionId) :
    (locks.release page leaver).2.isWriter other holder
      = (locks.isWriter other holder && !decide (other = page ∧ holder = leaver)) := by
  rw [release, isWriter_removeReader, removeWriter]
  split
  · rename_i writes
    -- The one who leaves writes this page, so its entry goes.
    rw [Bool.eq_iff_iff, Bool.and_eq_true, isWriter_iff, isWriter_iff, SortedMap.find?_erase]
    rw [isWriter_iff] at writes
    by_cases here : other = page
    · subst here
      rw [writes]
      by_cases self : holder = leaver
      · simp [self]
      · simp [self, Ne.symm self]
    · simp [here]
  · rename_i writesNot
    -- It does not write this page, so nothing is to be taken.
    by_cases both : other = page ∧ holder = leaver
    · obtain ⟨rfl, rfl⟩ := both
      simpa using writesNot
    · simp [both]

/-- Releasing adds no holder, so a writer stays alone on its page. -/
theorem Exclusive.release (exclusive : locks.Exclusive) (page : PageId) (leaver : TransactionId) :
    (locks.release page leaver).2.Exclusive := by
  intro other writer reader writes reads
  rw [isWriter_release, Bool.and_eq_true] at writes
  rw [isReader_release, Bool.and_eq_true] at reads
  exact exclusive other writer reader writes.1 reads.1

/-- Releasing a page again that was not held before leaves an advance what it was. -/
theorem Advances.release {before after : Locks} (advances : Advances asker before after)
    (notHeld : before.holds page asker = false) :
    Advances asker before (after.release page asker).2 where
  readers other holder apart := by
    rw [isReader_release]
    simp [apart, advances.readers other holder apart]
  writers other holder apart := by
    rw [isWriter_release]
    simp [apart, advances.writers other holder apart]
  writes other written := by
    -- What was held before is another page than the one that is released.
    have here : other ≠ page := by
      rintro rfl
      simp [Locks.holds, written] at notHeld
    rw [isWriter_release]
    simp [here, advances.writes other written]
  holds other held := by
    have here : other ≠ page := by
      rintro rfl
      rw [held] at notHeld
      cases notHeld
    rw [Locks.holds, isReader_release, isWriter_release]
    simpa [here, Locks.holds] using advances.holds other held

/--
One transaction gained locks on some pages only.

On all others it holds and writes what it did, and it reads what it read.
-/
structure GainsOn (asker : TransactionId) (gains : PageId → Prop) (before after : Locks) : Prop extends
    Advances asker before after where
  holds_eq : ∀ page, ¬ gains page → after.holds page asker = before.holds page asker
  writes_eq : ∀ page, ¬ gains page → after.isWriter page asker = before.isWriter page asker
  reads : ∀ page, ¬ gains page → before.isReader page asker = true → after.isReader page asker = true

namespace GainsOn

variable {gains more : PageId → Prop} {before middle after : Locks}

theorem refl (asker : TransactionId) (gains : PageId → Prop) (locks : Locks) : GainsOn asker gains locks locks :=
  { Advances.refl asker locks with
    holds_eq := fun _ _ => rfl
    writes_eq := fun _ _ => rfl
    reads := fun _ _ reads => reads }

theorem trans (first : GainsOn asker gains before middle) (second : GainsOn asker gains middle after) :
    GainsOn asker gains before after :=
  { first.toAdvances.trans second.toAdvances with
    holds_eq := fun page none => (second.holds_eq page none).trans (first.holds_eq page none)
    writes_eq := fun page none => (second.writes_eq page none).trans (first.writes_eq page none)
    reads := fun page none reads => second.reads page none (first.reads page none reads) }

/-- Locks may be gained on more pages. -/
theorem mono (only : GainsOn asker gains before after) (within : ∀ page, gains page → more page) :
    GainsOn asker more before after :=
  { only with
    holds_eq := fun page none => only.holds_eq page fun gained => none (within page gained)
    writes_eq := fun page none => only.writes_eq page fun gained => none (within page gained)
    reads := fun page none => only.reads page fun gained => none (within page gained) }

/-- A lock that is granted is gained on its page. -/
theorem grant (exclusive : locks.Exclusive) {mode : LockMode} (given : locks.grant? page asker mode = some granted) :
    GainsOn asker (· = page) locks granted := by
  have other : ∀ other, other ≠ page → granted.isReader other asker = locks.isReader other asker
      ∧ granted.isWriter other asker = locks.isWriter other asker := by
    intro other apart
    cases mode with
    | shared =>
      obtain ⟨_, readers, writers⟩ := grantShared?_eq_some given
      exact ⟨by simp [readers, apart], writers other asker⟩
    | exclusive => exact (grantExclusive?_eq_some exclusive given).2.2 other asker fun same => absurd same apart
  refine { grant?_advances exclusive given with
    holds_eq := fun page none => ?_
    writes_eq := fun page none => (other page none).2
    reads := fun page none reads => (other page none).1.trans reads }
  rw [Locks.holds, Locks.holds, (other page none).1, (other page none).2]

/-- Who holds a page already gains nothing by reading it. -/
theorem grantShared (exclusive : locks.Exclusive) (held : locks.holds page asker = true)
    (given : locks.grant? page asker .shared = some granted) : GainsOn asker (fun _ => False) locks granted := by
  have advances := grant?_advances exclusive given
  obtain ⟨_, readers, writers⟩ := grantShared?_eq_some given
  refine { advances with
    holds_eq := fun other _ => ?_
    writes_eq := fun other _ => writers other asker
    reads := fun other _ reads => by simp [readers, reads] }
  rw [Locks.holds, Locks.holds, readers, writers]
  by_cases here : other = page
  · subst here
    simpa [Locks.holds] using held
  · simp [here]

/-- What was gained on a page that was not held before is given back when the page is released. -/
theorem release (only : GainsOn asker (· = page) before after) (notHeld : before.holds page asker = false) :
    GainsOn asker (fun _ => False) before (after.release page asker).2 := by
  obtain ⟨notRead, notWritten⟩ := Bool.or_eq_false_iff.1 notHeld
  refine { only.toAdvances.release notHeld with
    holds_eq := fun other _ => ?_
    writes_eq := fun other _ => ?_
    reads := fun other _ reads => ?_ }
  · rw [Locks.holds, isReader_release, isWriter_release]
    by_cases here : other = page
    · subst here
      simp [notHeld]
    · have same := only.holds_eq other here
      rw [Locks.holds] at same
      simpa [here] using same
  · rw [isWriter_release]
    by_cases here : other = page
    · subst here
      simp [notWritten]
    · simp [here, only.writes_eq other here]
  · have here : other ≠ page := by
      rintro rfl
      rw [notRead] at reads
      cases reads
    rw [isReader_release]
    simp [here, only.reads other here reads]

end GainsOn

/-- The pages of a transaction are those it holds. -/
theorem mem_pagesOf {locks : Locks} : page ∈ locks.pagesOf holder ↔ locks.holds page holder = true := by
  rw [pagesOf, SortedSet.mem_ofList, List.mem_append, SortedMap.mem_keys_iff, SortedMap.mem_keys_iff,
    Locks.holds, Bool.or_eq_true_iff]
  -- The pages are those it reads and those it writes, and each list filters one of the maps.
  refine or_congr ?_ ?_
  · simp only [SortedMap.contains, SortedMap.find?_filter, isReader, readersOf]
    cases locks.readers.find? page with
    | none => simp
    | some readers => cases found : readers.contains holder <;> simp_all [SortedMap.contains]
  · rw [isWriter_iff, SortedMap.contains, SortedMap.find?_filter]
    cases locks.writers.find? page with
    | none => simp
    | some writer => by_cases same : writer = holder <;> simp [same]

/-- Releasing pages in turn takes what one transaction holds on these pages. -/
theorem foldl_release (locks : Locks) (pages : List PageId) (leaver : TransactionId) :
    let after := pages.foldl (fun locks page => (locks.release page leaver).2) locks
    (∀ other holder, after.isReader other holder
        = (locks.isReader other holder && !decide (other ∈ pages ∧ holder = leaver)))
      ∧ ∀ other holder, after.isWriter other holder
        = (locks.isWriter other holder && !decide (other ∈ pages ∧ holder = leaver)) := by
  -- Each step takes one page, from whatever the steps before it left.
  induction pages generalizing locks with
  | nil => simp
  | cons page rest ih =>
    obtain ⟨readers, writers⟩ := ih (locks.release page leaver).2
    refine ⟨fun other holder => ?_, fun other holder => ?_⟩
    · rw [List.foldl_cons, readers, isReader_release, Bool.and_assoc]
      by_cases self : holder = leaver <;> by_cases here : other = page <;> simp [self, here]
    · rw [List.foldl_cons, writers, isWriter_release, Bool.and_assoc]
      by_cases self : holder = leaver <;> by_cases here : other = page <;> simp [self, here]

/-- Releasing everything takes all that one transaction holds, and nothing else. -/
theorem isReader_releaseAll (locks : Locks) (leaver holder : TransactionId) (page : PageId) :
    (locks.releaseAll leaver).2.isReader page holder
      = (locks.isReader page holder && !decide (holder = leaver)) := by
  rw [releaseAll, (foldl_release locks (locks.pagesOf leaver) leaver).1]
  by_cases self : holder = leaver
  · subst self
    cases reads : locks.isReader page holder with
    | false => simp
    -- What it reads is among its pages, so it is released.
    | true => simp [mem_pagesOf, Locks.holds, reads]
  · simp [self]

/-- Releasing everything takes all that one transaction holds, and nothing else. -/
theorem isWriter_releaseAll (locks : Locks) (leaver holder : TransactionId) (page : PageId) :
    (locks.releaseAll leaver).2.isWriter page holder
      = (locks.isWriter page holder && !decide (holder = leaver)) := by
  rw [releaseAll, (foldl_release locks (locks.pagesOf leaver) leaver).2]
  by_cases self : holder = leaver
  · subst self
    cases writes : locks.isWriter page holder with
    | false => simp
    -- What it writes is among its pages, so it is released.
    | true => simp [mem_pagesOf, Locks.holds, writes]
  · simp [self]

/-- What others hold stays with them. -/
theorem holds_releaseAll_other {leaver : TransactionId} (apart : holder ≠ leaver) :
    (locks.releaseAll leaver).2.holds page holder = locks.holds page holder := by
  simp [Locks.holds, isReader_releaseAll, isWriter_releaseAll, apart]

/-- Releasing everything adds no holder, so a writer stays alone on its page. -/
theorem Exclusive.releaseAll (exclusive : locks.Exclusive) (leaver : TransactionId) :
    (locks.releaseAll leaver).2.Exclusive := by
  intro page writer reader writes reads
  rw [isWriter_releaseAll, Bool.and_eq_true] at writes
  rw [isReader_releaseAll, Bool.and_eq_true] at reads
  exact exclusive page writer reader writes.1 reads.1

end HeapEngine.Locks
