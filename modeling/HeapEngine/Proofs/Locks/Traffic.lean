import HeapEngine.Database.Waiting
import HeapEngine.Proofs.Locks

/-!
Locks under traffic: requests begin, wait, are granted or give up, and locks are released, in any order.
-/

namespace HeapEngine

/-- The locks, and the requests that wait for one. -/
structure LockTraffic where
  locks : Locks
  waiting : List LockRequest

/-- What can happen to the locks and to the requests that wait for them. -/
inductive LockEvent where
  /-- A request begins: it is granted at once, or it waits. -/
  | start (request : LockRequest)
  /-- A request that waits is woken up and asks again. -/
  | wake (request : LockRequest)
  /-- The time of a request that waits is over: it asks for the last time, and gives up if that is in vain. -/
  | expire (request : LockRequest)
  | release (page : PageId) (holder : TransactionId)
  | releaseAll (holder : TransactionId)

namespace LockTraffic

/-- No page is locked, and nobody waits. -/
def empty : LockTraffic := ⟨.empty, []⟩

/-- What there is after an event. -/
def after (traffic : LockTraffic) : LockEvent → LockTraffic
  | .start request =>
    match request.ask traffic.locks with
    | some locks => { traffic with locks }
    | none => { traffic with waiting := request :: traffic.waiting }
  | .wake request =>
    -- Only who waits can be woken up.
    if request ∈ traffic.waiting then
      match request.ask traffic.locks with
      | some locks => ⟨locks, traffic.waiting.erase request⟩
      | none => traffic
    else traffic
  | .expire request =>
    if request ∈ traffic.waiting then
      -- A release may have come at the last moment; granted or not, the request waits no more.
      ⟨(request.ask traffic.locks).getD traffic.locks, traffic.waiting.erase request⟩
    else traffic
  | .release page holder => { traffic with locks := (traffic.locks.release page holder).2 }
  | .releaseAll holder => { traffic with locks := (traffic.locks.releaseAll holder).2 }

/-- What there is after some events, one after the other. -/
def afterAll (traffic : LockTraffic) (events : List LockEvent) : LockTraffic :=
  events.foldl after traffic

/-- An event grants one lock at most, or releases some; a request that is not granted leaves the locks alone. -/
theorem locks_after (traffic : LockTraffic) (event : LockEvent) :
    (traffic.after event).locks = traffic.locks
      ∨ (∃ request : LockRequest, request.ask traffic.locks = some (traffic.after event).locks)
      ∨ (∃ page holder, (traffic.after event).locks = (traffic.locks.release page holder).2)
      ∨ ∃ holder, (traffic.after event).locks = (traffic.locks.releaseAll holder).2 := by
  cases event with
  | start request =>
    cases asked : request.ask traffic.locks with
    | none => exact .inl (by simp [after, asked])
    | some locks => exact .inr (.inl ⟨request, by simp [after, asked]⟩)
  | wake request =>
    by_cases waits : request ∈ traffic.waiting
    · cases asked : request.ask traffic.locks with
      | none => exact .inl (by simp [after, waits, asked])
      | some locks => exact .inr (.inl ⟨request, by simp [after, waits, asked]⟩)
    · exact .inl (by simp [after, waits])
  | expire request =>
    by_cases waits : request ∈ traffic.waiting
    · cases asked : request.ask traffic.locks with
      | none => exact .inl (by simp [after, waits, asked])
      | some locks => exact .inr (.inl ⟨request, by simp [after, waits, asked]⟩)
    · exact .inl (by simp [after, waits])
  | release page holder => exact .inr (.inr (.inl ⟨page, holder, rfl⟩))
  | releaseAll holder => exact .inr (.inr (.inr ⟨holder, rfl⟩))

end LockTraffic

namespace Locks

variable {locks granted : Locks} {page : PageId} {asker : TransactionId}

/-- A page that is listed as read has a reader. -/
def Listed (locks : Locks) : Prop :=
  ∀ page readers, locks.readers.find? page = some readers → readers.size ≠ 0

theorem listed_empty : empty.Listed := by
  -- No page is listed yet.
  intro page readers found
  simp [empty] at found

/-- A set to which a reader was added is not empty. -/
theorem size_insert_ne_zero (readers : SortedSet TransactionId) (reader : TransactionId) :
    (readers.insert reader ()).size ≠ 0 := by
  intro nothing
  have gone := SortedMap.find?_of_size_zero nothing reader
  rw [SortedMap.find?_insert, if_pos rfl] at gone
  cases gone

namespace Listed

/-- One more page may be listed with its readers if it has some. -/
theorem insert (listed : locks.Listed) {readers : SortedSet TransactionId} (some : readers.size ≠ 0)
    (writers : SortedMap PageId TransactionId) :
    Listed ⟨locks.readers.insert page readers, writers⟩ := by
  intro other others found
  rw [SortedMap.find?_insert] at found
  by_cases here : other = page
  · rw [if_pos here] at found
    cases found
    exact some
  · rw [if_neg here] at found
    exact listed other others found

/-- A page may be taken off the list. -/
theorem erase (listed : locks.Listed) (page : PageId) (writers : SortedMap PageId TransactionId) :
    Listed ⟨locks.readers.erase page, writers⟩ := by
  intro other others found
  rw [SortedMap.find?_erase] at found
  by_cases here : other = page
  · rw [if_pos here] at found
    cases found
  · rw [if_neg here] at found
    exact listed other others found

theorem grantShared? (listed : locks.Listed) (given : locks.grantShared? page asker = some granted) :
    granted.Listed := by
  -- Whoever writes the page, a grant lists it with its new reader.
  have added : Listed ⟨locks.readers.insert page ((locks.readersOf page).insert asker ()), locks.writers⟩ :=
    listed.insert (size_insert_ne_zero _ _) _
  unfold Locks.grantShared? at given
  split at given
  · split at given
    · cases given
      exact added
    · cases given
  · cases given
    exact added

theorem grantExclusive? (listed : locks.Listed) (given : locks.grantExclusive? page asker = some granted) :
    granted.Listed := by
  unfold Locks.grantExclusive? at given
  split at given
  · -- The writer has its lock already.
    cases given
    exact listed
  · split at given
    · -- The sole reader becomes the writer, and the page has no readers left to be listed.
      cases given
      exact listed.erase page _
    · split at given
      · cases given
        exact listed
      · cases given

/-- Granting a lock lists no page without readers. -/
theorem grant? (listed : locks.Listed) {mode : LockMode}
    (given : locks.grant? page asker mode = some granted) : granted.Listed := by
  cases mode with
  | shared => exact listed.grantShared? given
  | exclusive => exact listed.grantExclusive? given

/-- A page whose last reader leaves is not listed any more. -/
theorem removeReader (listed : locks.Listed) (page : PageId) (leaver : TransactionId) :
    (locks.removeReader page leaver).Listed := by
  unfold Locks.removeReader
  split
  · exact listed
  · rename_i readers found
    simp only
    split
    · exact listed.erase page _
    · rename_i others
      exact listed.insert others _

/-- Releasing lists no page without readers. -/
theorem release (listed : locks.Listed) (page : PageId) (leaver : TransactionId) :
    (locks.release page leaver).2.Listed := by
  have unread : (locks.removeWriter page leaver).Listed := by
    -- Who writes which page does not matter here.
    unfold Locks.removeWriter
    split
    · exact listed
    · exact listed
  exact unread.removeReader page leaver

/-- Releasing pages one after the other lists no page without readers. -/
theorem foldl_release (listed : locks.Listed) (pages : List PageId) (leaver : TransactionId) :
    (pages.foldl (fun locks page => (locks.release page leaver).2) locks).Listed := by
  -- The locks that the pages before have left vary.
  induction pages generalizing locks with
  | nil => exact listed
  | cons page rest ih => exact ih (listed.release page leaver)

/-- Releasing everything releases one page after the other. -/
theorem releaseAll (listed : locks.Listed) (leaver : TransactionId) :
    (locks.releaseAll leaver).2.Listed :=
  listed.foldl_release _ leaver

end Listed

/-- Locks with the same holders are the same locks. -/
theorem eq_of_holders {first second : Locks} (listed : first.Listed) (alsoListed : second.Listed)
    (readers : ∀ page holder, first.isReader page holder = second.isReader page holder)
    (writers : ∀ page holder, first.isWriter page holder = second.isWriter page holder) :
    first = second := by
  have read : ∀ page, first.readersOf page = second.readersOf page := fun page =>
    SortedSet.ext_contains fun holder => readers page holder
  -- A page that is listed in one has a reader, so it is listed in the other.
  have inside : ∀ {one other : Locks}, one.Listed → (∀ page, one.readersOf page = other.readersOf page) →
      ∀ page set, one.readers.find? page = some set → other.readers.find? page = some set := by
    intro one other listed read page set found
    have here : set = other.readersOf page := by
      rw [← read page, readersOf, found, Option.getD_some]
    cases there : other.readers.find? page with
    | some others => rw [here, readersOf, there, Option.getD_some]
    | none =>
      rw [readersOf, there, Option.getD_none] at here
      exact absurd (here ▸ rfl) (listed page set found)
  have sameReaders : first.readers = second.readers := by
    refine SortedMap.ext_find? fun page => Option.ext fun set => ?_
    exact ⟨inside listed read page set, inside alsoListed (fun page => (read page).symm) page set⟩
  have sameWriters : first.writers = second.writers := by
    refine SortedMap.ext_find? fun page => Option.ext fun writer => ?_
    rw [← isWriter_iff, ← isWriter_iff, writers page writer]
  obtain ⟨_, _⟩ := first
  exact congr (congrArg Locks.mk sameReaders) sameWriters

/-- Releasing a page that is not held changes nothing. -/
theorem release_of_not_holds (listed : locks.Listed) {holder : TransactionId}
    (free : locks.holds page holder = false) : (locks.release page holder).2 = locks := by
  obtain ⟨reads, writes⟩ := Bool.or_eq_false_iff.1 free
  apply eq_of_holders (listed.release page holder) listed
  · intro other reader
    rw [isReader_release]
    by_cases left : other = page ∧ reader = holder
    · rw [left.1, left.2, reads, Bool.false_and]
    · simp [left]
  · intro other writer
    rw [isWriter_release]
    by_cases left : other = page ∧ writer = holder
    · rw [left.1, left.2, writes, Bool.false_and]
    · simp [left]

/-- Others hold what they held after a transaction released all its locks. -/
theorem pagesOf_releaseAll_other (locks : Locks) {holder other : TransactionId} (apart : holder ≠ other) :
    (locks.releaseAll other).2.pagesOf holder = locks.pagesOf holder := by
  refine SortedMap.eq_of_ascending (SortedMap.pairwise_keys _) (SortedMap.pairwise_keys _) fun page => ?_
  rw [mem_pagesOf, mem_pagesOf, holds_releaseAll_other apart]

/-- Two transactions can release their locks in either order. -/
theorem releaseAll_comm (listed : locks.Listed) (holder other : TransactionId) :
    ((locks.releaseAll holder).2.releaseAll other).2 = ((locks.releaseAll other).2.releaseAll holder).2 := by
  refine eq_of_holders ((listed.releaseAll holder).releaseAll other) ((listed.releaseAll other).releaseAll holder)
    (fun page reader => ?_) fun page writer => ?_
  · simp only [isReader_releaseAll, Bool.and_right_comm]
  · simp only [isWriter_releaseAll, Bool.and_right_comm]

end Locks

namespace LockTraffic

/-- No event gives a writer company, and none lists a page without readers. -/
theorem sound_after {traffic : LockTraffic} (exclusive : traffic.locks.Exclusive)
    (listed : traffic.locks.Listed) (event : LockEvent) :
    (traffic.after event).locks.Exclusive ∧ (traffic.after event).locks.Listed := by
  rcases traffic.locks_after event with same | ⟨request, asked⟩ | ⟨page, holder, released⟩ | ⟨holder, released⟩
  · rw [same]
    exact ⟨exclusive, listed⟩
  · exact ⟨exclusive.grant? asked, listed.grant? asked⟩
  · rw [released]
    exact ⟨exclusive.release page holder, listed.release page holder⟩
  · rw [released]
    exact ⟨exclusive.releaseAll holder, listed.releaseAll holder⟩

/-- What every event keeps is kept by all of them. -/
theorem sound_afterAll {traffic : LockTraffic} (exclusive : traffic.locks.Exclusive)
    (listed : traffic.locks.Listed) (events : List LockEvent) :
    (traffic.afterAll events).locks.Exclusive ∧ (traffic.afterAll events).locks.Listed := by
  induction events generalizing traffic with
  | nil => exact ⟨exclusive, listed⟩
  | cons event rest ih =>
    obtain ⟨alone, read⟩ := sound_after exclusive listed event
    exact ih alone read

/--
Locks exclude each other.

Whatever was asked for, granted, refused and released, in whatever order, whoever reads a page that has a
writer is that writer, and no page is listed as read that has no reader.
-/
theorem lock_exclusivity (events : List LockEvent) :
    (∀ page writer, (empty.afterAll events).locks.writerOf? page = some writer →
      ∀ reader, (empty.afterAll events).locks.isReader page reader = true → reader = writer)
    ∧ ∀ page readers, (empty.afterAll events).locks.readers.find? page = some readers →
      readers.size ≠ 0 := by
  have alone : empty.locks.Exclusive := Locks.exclusive_empty
  obtain ⟨exclusive, listed⟩ := sound_afterAll alone Locks.listed_empty events
  refine ⟨fun page writer writes reader reads => ?_, listed⟩
  exact exclusive page writer reader (Locks.isWriter_iff.2 writes) reads

/-- The sole reader becomes the writer at its last moment, after the other one has left. -/
example :
    let events : List LockEvent := [.start ⟨⟨1⟩, ⟨1, 0⟩, .shared⟩, .start ⟨⟨2⟩, ⟨1, 0⟩, .shared⟩,
      .start ⟨⟨1⟩, ⟨1, 0⟩, .exclusive⟩, .release ⟨1, 0⟩ ⟨2⟩, .expire ⟨⟨1⟩, ⟨1, 0⟩, .exclusive⟩]
    (empty.afterAll events).locks.isWriter ⟨1, 0⟩ ⟨1⟩ = true
      ∧ (empty.afterAll events).locks.isReader ⟨1, 0⟩ ⟨1⟩ = false := by decide

end LockTraffic

end HeapEngine
