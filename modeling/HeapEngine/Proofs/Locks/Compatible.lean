import HeapEngine.Proofs.Locks.Traffic

/-!
A lock is granted exactly if nobody else holds one that conflicts with it.

Granting asks three questions about what is listed for a page. They amount to the rule of conflicts only
because a writer is alone on its page and no page is listed as read that has no reader.
-/

namespace HeapEngine

/-- A set that is not empty and has no member but one has that one alone. -/
theorem SortedSet.size_of_only {κ : Type} [LT κ] [DecidableEq κ] [KeyOrder κ] {set : SortedSet κ} {key : κ}
    (some : set.size ≠ 0) (only : ∀ other, set.contains other = true → other = key) :
    set.size = 1 ∧ set.contains key = true := by
  -- All keys are the one key, and none stands twice.
  have keys : set.keys = List.replicate set.size key :=
    List.eq_replicate_iff.2 ⟨by rw [SortedMap.keys, List.length_map, SortedMap.size],
      fun other member => only other (SortedMap.mem_keys_iff.1 member)⟩
  have single := SortedMap.nodup_of_ascending set.pairwise_keys
  rw [keys, List.nodup_replicate] at single
  refine ⟨by omega, SortedMap.mem_keys_iff.1 ?_⟩
  rw [keys]
  exact List.mem_replicate.2 ⟨some, rfl⟩

namespace Locks

/--
Whether a holder of a page keeps others from a lock in some mode.

A page that is written cannot be read by others, and a page that is held at all cannot be written by them.
-/
def blocks (locks : Locks) (page : PageId) (holder : TransactionId) : LockMode → Bool
  | .shared => locks.isWriter page holder
  | .exclusive => locks.holds page holder

/-- Nobody else keeps a transaction from a lock. -/
def Compatible (locks : Locks) (page : PageId) (asker : TransactionId) (mode : LockMode) : Prop :=
  ∀ holder, holder ≠ asker → locks.blocks page holder mode = false

/-- Whether a transaction has a lock of a mode on a page. -/
def has (locks : Locks) (page : PageId) (holder : TransactionId) : LockMode → Bool
  | .shared => locks.isReader page holder
  | .exclusive => locks.isWriter page holder

/-- What a lock that was granted has changed: its asker has it now, and all else is as it was. -/
structure Grants (before : Locks) (page : PageId) (asker : TransactionId) (mode : LockMode)
    (after : Locks) : Prop where
  has : after.has page asker mode = true
  /-- Who becomes the writer of a page reads it no more. -/
  replaces : mode = .exclusive → before.isWriter page asker = false → after.isReader page asker = false
  /-- Who writes a page goes on writing it. -/
  keeps : before.isWriter page asker = true → after.isWriter page asker = true
  readers : ∀ other holder, other ≠ page ∨ holder ≠ asker →
    after.isReader other holder = before.isReader other holder
  writers : ∀ other holder, other ≠ page ∨ holder ≠ asker →
    after.isWriter other holder = before.isWriter other holder

variable {locks granted : Locks} {page : PageId} {asker : TransactionId}

/-- A shared lock is refused only for a writer, and that one is not who asks. -/
theorem exists_grantShared?_iff :
    (∃ granted, locks.grantShared? page asker = some granted) ↔ locks.Compatible page asker .shared := by
  constructor
  · rintro ⟨granted, given⟩ holder apart
    exact Bool.eq_false_iff.2 fun writes => apart ((grantShared?_eq_some given).1 holder writes)
  · intro compatible
    unfold grantShared?
    cases written : locks.writerOf? page with
    | none => exact ⟨_, rfl⟩
    | some writer =>
      -- A writer other than the one who asks would be in the way.
      have self : writer = asker := by
        refine Decidable.byContradiction fun apart => ?_
        exact Bool.false_ne_true ((compatible writer apart).symm.trans (isWriter_iff.2 written))
      exact ⟨_, if_pos self⟩

/-- An exclusive lock is refused only for another holder. -/
theorem exists_grantExclusive?_iff (exclusive : locks.Exclusive) (listed : locks.Listed) :
    (∃ granted, locks.grantExclusive? page asker = some granted)
      ↔ locks.Compatible page asker .exclusive := by
  constructor
  · rintro ⟨granted, given⟩ holder apart
    exact Bool.eq_false_iff.2 fun holds => apart ((grantExclusive?_eq_some exclusive given).1 holder holds)
  · intro compatible
    have alone : ∀ holder, locks.holds page holder = true → holder = asker := fun holder holds =>
      Decidable.byContradiction fun apart => Bool.false_ne_true ((compatible holder apart).symm.trans holds)
    unfold grantExclusive?
    by_cases already : locks.isWriter page asker = true
    · exact ⟨_, if_pos already⟩
    rw [if_neg already]
    by_cases sole : locks.isSoleReader page asker = true
    · exact ⟨_, if_pos sole⟩
    rw [if_neg sole]
    -- Who neither writes the page nor reads it alone finds it without any holder.
    have unread : locks.readers.contains page = false := by
      refine Bool.eq_false_iff.2 fun read => sole ?_
      obtain ⟨readers, found⟩ := Option.isSome_iff_exists.1 read
      have readersOf : locks.readersOf page = readers := by rw [Locks.readersOf, found, Option.getD_some]
      have only := SortedSet.size_of_only (listed page readers found) fun holder reads =>
        alone holder (by simp [Locks.holds, isReader, readersOf, reads])
      simp [isSoleReader, isReader, readersOf, only]
    have unwritten : locks.writers.contains page = false := by
      refine Bool.eq_false_iff.2 fun written => already ?_
      obtain ⟨writer, found⟩ := Option.isSome_iff_exists.1 written
      have writes : locks.isWriter page writer = true := isWriter_iff.2 found
      exact alone writer (by simp [Locks.holds, writes]) ▸ writes
    exact ⟨_, if_pos (by simp [unread, unwritten])⟩

/-- Who holds a page, and is alone in this, can become its writer. -/
theorem exists_grantExclusive?_of_holds (held : locks.holds page asker = true)
    (alone : ∀ holder, locks.holds page holder = true → holder = asker) :
    ∃ granted, locks.grantExclusive? page asker = some granted := by
  unfold grantExclusive?
  by_cases already : locks.isWriter page asker = true
  · exact ⟨_, if_pos already⟩
  -- Who does not write the page reads it, and nobody else does.
  have reads : locks.isReader page asker = true := by simpa [Locks.holds, already] using held
  have listed : (locks.readersOf page).size ≠ 0 := by
    have member : asker ∈ (locks.readersOf page).keys := SortedMap.mem_keys_iff.2 reads
    have counted := List.length_pos_of_mem member
    rw [SortedMap.keys, List.length_map] at counted
    exact Nat.pos_iff_ne_zero.1 counted
  have only := SortedSet.size_of_only listed fun holder reads => alone holder (by simp [Locks.holds, isReader, reads])
  rw [if_neg already, if_pos (by simp [isSoleReader, isReader, only])]
  exact ⟨_, rfl⟩

/-- A lock is granted exactly if nobody else is in its way. -/
theorem exists_grant?_iff (exclusive : locks.Exclusive) (listed : locks.Listed) (page : PageId)
    (asker : TransactionId) (mode : LockMode) :
    (∃ granted, locks.grant? page asker mode = some granted) ↔ locks.Compatible page asker mode := by
  cases mode with
  | shared => exact exists_grantShared?_iff
  | exclusive => exact exists_grantExclusive?_iff exclusive listed

/-- Who was not the writer before becomes it without staying a reader. -/
theorem isReader_grantExclusive? (given : locks.grantExclusive? page asker = some granted)
    (wrote : locks.isWriter page asker = false) : granted.isReader page asker = false := by
  unfold grantExclusive? at given
  rw [if_neg (Bool.eq_false_iff.1 wrote)] at given
  split at given
  · -- The sole reader leaves the readers of the page, and with it goes the whole entry.
    cases given
    simp [isReader, readersOf, SortedMap.contains]
  · split at given
    · -- The page had no reader to begin with.
      rename_i free
      cases given
      simp only [SortedMap.contains, Bool.and_eq_true, Bool.not_eq_true', Option.isSome_eq_false_iff,
        Option.isNone_iff_eq_none] at free
      simp [isReader, readersOf, free, SortedMap.contains]
    · cases given

/-- Granting a lock gives it to the one who asks, and changes nothing for others and on other pages. -/
theorem grants_grant? (exclusive : locks.Exclusive) {mode : LockMode}
    (given : locks.grant? page asker mode = some granted) : locks.Grants page asker mode granted := by
  have advances := grant?_advances exclusive given
  cases mode with
  | shared =>
    obtain ⟨_, readers, writers⟩ := grantShared?_eq_some given
    refine ⟨by simp [Locks.has, readers], by simp, advances.writes page, fun other holder apart => ?_,
      fun other holder _ => writers other holder⟩
    have unmet : ¬ (other = page ∧ holder = asker) := by
      rintro ⟨here, self⟩
      exact apart.elim (· here) (· self)
    simp [readers, unmet]
  | exclusive =>
    obtain ⟨_, writes, others⟩ := grantExclusive?_eq_some exclusive given
    have same : ∀ other holder, other ≠ page ∨ holder ≠ asker → other = page → holder ≠ asker :=
      fun other holder apart here => apart.resolve_left (not_not_intro here)
    exact ⟨writes, fun _ => isReader_grantExclusive? given, advances.writes page,
      fun other holder apart => (others other holder (same other holder apart)).1,
      fun other holder apart => (others other holder (same other holder apart)).2⟩

end Locks

namespace LockTraffic

/-- A request that begins and gives up at once, in vain, has changed nothing. -/
theorem after_expire_of_refused {traffic : LockTraffic} {request : LockRequest}
    (refused : request.ask traffic.locks = none) :
    (traffic.after (.start request)).after (.expire request) = traffic := by
  have waits : traffic.after (.start request)
      = { traffic with waiting := request :: traffic.waiting } := by
    simp only [after, refused]
  rw [waits]
  simp [after, refused]

/--
A lock is granted exactly if nobody else holds one that conflicts with it.

Whatever was asked for, granted, refused and released before, a request that does not wait is granted if no
other transaction writes the page, and for an exclusive lock only if none reads it either. Then the asker
has the lock, as the writer of the page no longer among its readers, and all that others hold, and all that
is held on other pages, is as before. A request that is refused says who asked for what, and it leaves the
locks and those who wait for one as they were, though it asks a second time before it gives up.
-/
theorem granted_iff_compatible (events : List LockEvent) (request : LockRequest) (patience : Duration) :
    let traffic := empty.afterAll events
    let answer := traffic.locks.request request.page request.transaction request.mode patience
    ((∃ granted, answer = .ok granted)
        ↔ traffic.locks.Compatible request.page request.transaction request.mode)
      ∧ (∀ granted, answer = .ok granted →
        traffic.after (.start request) = { traffic with locks := granted }
          ∧ traffic.locks.Grants request.page request.transaction request.mode granted)
      ∧ ∀ refusal, answer = .error refusal →
        refusal = ⟨request.transaction, request.page, request.mode, patience⟩
          ∧ (traffic.after (.start request)).after (.expire request) = traffic := by
  intro traffic answer
  have alone : empty.locks.Exclusive := Locks.exclusive_empty
  obtain ⟨exclusive, listed⟩ := sound_afterAll alone Locks.listed_empty events
  have rule := Locks.exists_grant?_iff exclusive listed request.page request.transaction request.mode
  -- The answer is what can be granted now, and else a refusal.
  cases asked : request.ask traffic.locks with
  | some next =>
    have given : traffic.locks.grant? request.page request.transaction request.mode = some next := asked
    have told : answer = .ok next := by simp only [answer, Locks.request, given]
    rw [told]
    refine ⟨⟨fun _ => rule.1 ⟨next, given⟩, fun _ => ⟨next, rfl⟩⟩, ?_, ?_⟩
    · rintro granted ⟨⟩
      exact ⟨by simp only [after, asked], Locks.grants_grant? exclusive given⟩
    · intro refusal refused
      cases refused
  | none =>
    have inVain : traffic.locks.grant? request.page request.transaction request.mode = none := asked
    have told : answer = .error ⟨request.transaction, request.page, request.mode, patience⟩ := by
      simp only [answer, Locks.request, inVain]
    rw [told]
    refine ⟨⟨fun granted => ?_, fun compatible => ?_⟩, fun granted given => ?_, ?_⟩
    · obtain ⟨granted, given⟩ := granted
      cases given
    · obtain ⟨granted, given⟩ := rule.2 compatible
      rw [inVain] at given
      cases given
    · cases given
    · rintro refusal ⟨⟩
      exact ⟨rfl, after_expire_of_refused asked⟩

/-- Of two readers none can become the writer, and the one that is left can. -/
example :
    let both := empty.afterAll [.start ⟨⟨1⟩, ⟨1, 0⟩, .shared⟩, .start ⟨⟨2⟩, ⟨1, 0⟩, .shared⟩]
    ((both.locks.request ⟨1, 0⟩ ⟨1⟩ .exclusive .zero).toOption = none)
      ∧ ((both.after (.release ⟨1, 0⟩ ⟨2⟩)).locks.request ⟨1, 0⟩ ⟨1⟩ .exclusive .zero).toOption.isSome := by
  decide

end LockTraffic

end HeapEngine
