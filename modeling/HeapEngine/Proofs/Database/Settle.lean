import HeapEngine.Proofs.Database.Undisturbed

/-!
A transaction that is settled leaves nothing behind: what it changed is written, or taken back.

If its commit fails it is aborted. The first failure is told of, whatever the abort comes to, and the pages
that could not be written are what they were before the transaction.
-/

namespace HeapEngine

namespace Database

variable {db before middle after : Database} {id : PageId} {transaction : TransactionId}

/--
Commits a transaction and aborts it if that fails, where it is given which pages the stores refuse to write
and which ones they do not let be read.
-/
def settleUnder (refuses unreadable : PageId → Bool) (transaction : TransactionId) : Op Database Unit := do
  match ← attempt (commitUnder refuses transaction) with
  | .ok () => return ()
  | .error failure =>
    let _ ← attempt (abortUnder unreadable transaction)
    fail failure

/--
A page that was not written is stored as it was, and while nobody changes it that is what everybody gets.

It may be gone from memory. Nor is it stored any more once its table is registered no more.
-/
structure Reverted (before after : Database) (id : PageId) : Prop where
  stored : after.standing.image? id = before.standing.image? id
  remains : ∀ later, Spares id after later → (∃ heap, later.catalog.heap? id.table = some heap) →
    later.standing.image? id = before.standing.image? id
  gives : ∀ later command reply copy last, Spares id after later → command.gets? = some id →
    later.serve command = .ok (.ok reply, last) → reply.copy? = some copy →
    Presents (before.standing.image? id) id last copy

/-- What settling a transaction comes to. -/
structure Settles (refuses : PageId → Bool) (transaction : TransactionId) (before : Database)
    (result : Except Failure Unit) (after : Database) : Prop where
  unlocked : ∀ id, after.locks.holds id transaction = false
  unmarked : after.pool.changedBy transaction = []
  succeeds : result = .ok () ↔ ∀ id ∈ before.pool.changedBy transaction, refusal? refuses before id = none
  written : result = .ok () → ∀ id ∈ before.pool.changedBy transaction, Durable before after id
  /-- What comes before the first page that is refused is written, and all that is left is taken back. -/
  stops : ∀ done first rest failure, before.pool.changedBy transaction = done ++ first :: rest →
    (∀ id ∈ done, refusal? refuses before id = none) → refusal? refuses before first = some failure →
    result = .error failure ∧ (∀ id ∈ done, Durable before after id)
      ∧ ∀ id ∈ first :: rest, Reverted before after id
  outside : ∀ id, id ∉ before.pool.changedBy transaction → Untouched before after id
  others : ∀ id holder, holder ≠ transaction →
    after.locks.isReader id holder = before.locks.isReader id holder
      ∧ after.locks.isWriter id holder = before.locks.isWriter id holder

/-- What is stored and undisturbed is what everybody gets. -/
theorem Undisturbed.reverted (still : Undisturbed (before.standing.image? id) id after)
    (stored : after.standing.image? id = before.standing.image? id) : Reverted before after id where
  stored := stored
  remains later spares known := by
    obtain ⟨heap, registered⟩ := known
    obtain ⟨image, same, found⟩ := (still.spares spares).stored heap registered
    exact found.trans same.symm
  gives later command reply copy last spares gets served given :=
    run_permits ((still.spares spares).gets gets) served reply copy rfl given

/-- A page that is read anew is undisturbed, and so is one that cannot be read. -/
theorem RollsBack.undisturbed {unreadable : PageId → Bool} {result : Except Failure Unit}
    (rolls : RollsBack unreadable transaction before result after) (kept : before.Intact) (intact : after.Intact)
    (member : id ∈ before.pool.changedBy transaction) :
    Undisturbed (before.standing.image? id) id after ∧ after.standing.image? id = before.standing.image? id := by
  have image := image?_of_sameBytes rolls.tables rolls.bytes id
  refine ⟨⟨intact, fun heap registered => ?_, fun page there => ?_⟩, image⟩
  · -- The page was in memory, so it had a place in its store.
    obtain ⟨page, resident, _⟩ := Pool.mem_changedBy.1 member
    have known : before.catalog.heap? id.table = some heap := rolls.tables ▸ registered
    obtain ⟨bytes, found⟩ := (kept.kept id page resident).stored heap known
    exact ⟨bytes, found, image.trans found⟩
  · cases lost : loss? unreadable before id with
    | none =>
      obtain ⟨bytes, fresh, found, decoded, resident, _⟩ := rolls.restored id member lost
      cases resident.symm.trans there
      exact ⟨bytes, image.symm.trans found, decoded⟩
    | some failure =>
      have gone := rolls.dropped id member (by simp [lost])
      obtain ⟨frame, found, _⟩ := Pool.page?_eq_some.1 there
      simp [Pool.isResident, SortedMap.contains, found] at gone

/-- An abort leaves all pages alone that the transaction has not changed. -/
theorem RollsBack.untouched {unreadable : PageId → Bool} {result : Except Failure Unit}
    (rolls : RollsBack unreadable transaction before result after)
    (outside : id ∉ before.pool.changedBy transaction) : Untouched before after id :=
  ⟨by rw [Pool.page?, Pool.page?, rolls.outside id outside], image?_of_sameBytes rolls.tables rolls.bytes id⟩

/-- What is written stays so while nothing is done to the page. -/
theorem Durable.of_untouched (durable : Durable before middle id) (untouched : Untouched middle after id) :
    Durable before after id := by
  obtain ⟨page, image, held, clean, encoded, stored⟩ := durable
  exact ⟨page, image, held, untouched.1.trans clean, encoded, untouched.2.trans stored⟩

/-- What is left after some of the pages of a transaction were written carries its mark still, and nothing else. -/
theorem WritesBack.changedBy_eq {done rest : List PageId} (writes : WritesBack done before middle)
    (split : before.pool.changedBy transaction = done ++ rest) : middle.pool.changedBy transaction = rest := by
  have ascending : (done ++ rest).Pairwise (· < ·) := split ▸ SortedMap.pairwise_keys _
  have nodup := SortedMap.nodup_of_ascending ascending
  refine SortedMap.eq_of_ascending (SortedMap.pairwise_keys _) (List.pairwise_append.1 ascending).2.1 fun id => ?_
  rw [List.nodup_append] at nodup
  have before : id ∈ done ++ rest
      ↔ ∃ page, before.pool.page? id = some page ∧ page.changedBy = some transaction :=
    split ▸ Pool.mem_changedBy
  show id ∈ middle.pool.changedBy transaction ↔ _
  rw [Pool.mem_changedBy]
  by_cases written : id ∈ done
  · -- A page that is written carries no mark.
    obtain ⟨page, _, _, clean, _⟩ := writes.written id written
    rw [clean]
    refine ⟨fun marked => ?_, fun left => absurd rfl (nodup.2.2 id written id left)⟩
    obtain ⟨_, same, mark⟩ := marked
    cases same
    cases mark
  · rw [(writes.kept id written).1, ← before, List.mem_append, or_iff_right written]

/-- What was written before the first refused page stays written, and an abort takes back all from there on. -/
theorem WritesBack.settles {refuses unreadable : PageId → Bool} {done rest : List PageId} {first : PageId}
    {failure : Failure} {aborted : Except Failure Unit} (writes : WritesBack done before middle)
    (split : before.pool.changedBy transaction = done ++ first :: rest)
    (accepted : ∀ id ∈ done, refusal? refuses before id = none) (refused : refusal? refuses before first = some failure)
    (rolls : RollsBack unreadable transaction middle aborted after) (kept : after.Intact) :
    Settles refuses transaction before (.error failure) after := by
  have left := writes.changedBy_eq split
  have nodup : (done ++ first :: rest).Nodup :=
    split ▸ SortedMap.nodup_of_ascending (SortedMap.pairwise_keys _)
  rw [List.nodup_append] at nodup
  -- The abort takes back what is left, so what was written before is no part of it.
  have apart : ∀ id ∈ done, id ∉ middle.pool.changedBy transaction := by
    intro id inside left'
    rw [left] at left'
    exact nodup.2.2 id inside id left' rfl
  refine ⟨rolls.unlocked, rolls.unmarked, ⟨by simp, fun all => ?_⟩, by simp, ?_, fun id outside => ?_,
    fun id holder other => ?_⟩
  · rw [all first (by rw [split]; simp)] at refused
    cases refused
  · -- There is one way to split what was changed at the first refused page.
    intro again other others why splitAgain acceptedAgain refusedAgain
    obtain ⟨rfl, rfl, rfl⟩ := first_refused_unique (split.symm.trans splitAgain) accepted acceptedAgain
      (by simp [refused]) (by simp [refusedAgain])
    cases refused.symm.trans refusedAgain
    refine ⟨rfl, fun id inside => ?_, fun id member => ?_⟩
    · exact (writes.written id inside).of_untouched (rolls.untouched (apart id inside))
    · have outside : id ∉ done := fun inside => nodup.2.2 id inside id member rfl
      obtain ⟨still, stored⟩ := rolls.undisturbed writes.intact kept (left ▸ member)
      rw [(writes.kept id outside).2] at still stored
      exact still.reverted stored
  · rw [split, List.mem_append, not_or, ← left] at outside
    have untouched := writes.kept id outside.1
    have untouchedToo := rolls.untouched outside.2
    exact ⟨untouchedToo.1.trans untouched.1, untouchedToo.2.trans untouched.2⟩
  · rw [← writes.locks]
    exact rolls.others id holder other

/-- A commit that fails is followed by an abort, and nothing is left behind. -/
theorem Intact.ensures_settleUnder (intact : db.Intact) (refuses unreadable : PageId → Bool)
    (transaction : TransactionId) :
    Op.Ensures (settleUnder refuses unreadable transaction) db fun result after =>
      Settles refuses transaction db result after := by
  have ends := (intact.ensures_commitUnder refuses transaction).and
    (intact.ensures_commitUnder_writes refuses transaction)
  refine Op.Ends.attempt_bind ends fun answer middle ended => ?_
  obtain ⟨commits, done, written, writes, accepted, outcome⟩ := ended
  cases answer with
  | ok _ =>
    -- All pages were accepted, so none of them is the first that is refused.
    obtain ⟨rfl, rfl⟩ := outcome
    obtain ⟨_, durable, unlocked⟩ := commits.succeeds accepted
    refine .pure ⟨unlocked, ?_, ⟨fun _ => accepted, fun _ => rfl⟩, fun _ => durable, ?_, commits.outside,
      commits.others⟩
    · exact writes.changedBy_eq (List.append_nil _).symm
    · intro done first rest failure split _ refused
      rw [accepted first (by rw [split]; simp)] at refused
      cases refused
  | error failure =>
    -- The failure of the abort, if it fails, is not told of.
    obtain ⟨rfl, first, rest, split, refused⟩ := outcome
    refine Op.Ends.attempt_bind (writes.intact.ensures_abortUnder unreadable transaction) ?_
    intro _ after ended
    exact .fail (writes.settles split accepted refused ended.1 ended.2)

/-- Writing pages tells no store that it cannot be read. -/
theorem Intact.ensures_writeBackOf_unreadable (intact : db.Intact) (transaction : TransactionId) :
    Op.Ensures (writeBackOf transaction) db fun _ after => after.Intact ∧ after.unreadable = db.unreadable := by
  apply Op.Ends.get_bind
  refine preserves_writeBackEach (fun id _ middle kept => ?_) db ⟨intact, rfl⟩
  obtain ⟨still, same⟩ := kept
  refine (still.housed.ensures_writeBack id).mono fun _ after writing => ⟨writing.steps.intact still, ?_⟩
  rw [← same]
  exact funext fun other => (still.flags_of_writing writing other.table).2

/-- A transaction is settled as one whose stores refuse and lack what they refuse and lack already. -/
theorem Intact.commit_eq_settleUnder (intact : db.Intact) (transaction : TransactionId) :
    commit transaction db = settleUnder db.refuses db.unreadable transaction db := by
  have ends : Op.Ensures (finish transaction .commit) db fun result after =>
      ∀ failure, result = .error failure → after.Intact ∧ after.unreadable = db.unreadable := by
    refine .bind (intact.ensures_writeBackOf_unreadable transaction) (fun _ _ ended _ _ => ended) ?_
    exact fun _ _ _ => .run_bind rfl (.pure (by simp))
  obtain ⟨result, middle, ran, kept⟩ := ends.exists_run
  have same := intact.finish_eq_commitUnder transaction
  cases result with
  | ok _ =>
    simp only [commit, settleUnder, attempt, bind, EStateM.bind, ← same, ran]
  | error failure =>
    obtain ⟨still, reads⟩ := kept failure rfl
    have aborts := still.finish_eq_abortUnder transaction
    rw [reads] at aborts
    simp only [commit, settleUnder, attempt, bind, EStateM.bind, ← same, ran, aborts]

/--
A commit leaves nothing behind.

In every database that arises, and whichever pages the stores refuse to write and do not let be read, a
transaction that is settled holds no lock and has marked no page afterwards, and what it comes to is told by
the first page that is refused. A commit on its own is one where the stores refuse and lack what they refuse
and lack already.
-/
theorem commit_leaves_nothing (arises : Arises db) (transaction : TransactionId)
    (refuses unreadable : PageId → Bool) :
    (db.pool.changedBy transaction).Pairwise (· < ·)
    ∧ (∀ id, id ∈ db.pool.changedBy transaction
      ↔ ∃ page, db.pool.page? id = some page ∧ page.changedBy = some transaction)
    ∧ (∃ result after, Settles refuses transaction db result after
      ∧ settleUnder refuses unreadable transaction db = match result with
        | .ok () => .ok () after
        | .error failure => .error (.failed failure) after)
    ∧ commit transaction db = settleUnder db.refuses db.unreadable transaction db := by
  have intact := arises.intact
  refine ⟨SortedMap.pairwise_keys _, fun _ => Pool.mem_changedBy, ?_, intact.commit_eq_settleUnder transaction⟩
  obtain ⟨result, after, ran, settles⟩ :=
    (intact.ensures_settleUnder refuses unreadable transaction).exists_run
  refine ⟨result, after, settles, ?_⟩
  cases result <;> exact ran

/-- What an operation leaves behind, however it ends. -/
def left {α : Type} (action : Op Database α) (db : Database) : Database :=
  match action db with
  | .ok _ after => after
  | .error _ after => after

theorem left_of_error {α : Type} {action : Op Database α} {fault : Fault}
    (ran : action db = .error fault after) : left action db = after := by
  rw [left, ran]

/-- A transaction with two unwritten pages is settled while the second page is refused. -/
def secondRefused : Database :=
  left (settleUnder (fun id => id.number = 1) (fun _ => false) ⟨1⟩) twoUnwritten

/-- The first page is written, and another transaction gets the second one as it was stored before. -/
theorem commit_leaves_nothing_refused : Arises twoUnwritten
    ∧ settleUnder (fun id => id.number = 1) (fun _ => false) ⟨1⟩ twoUnwritten
      = .error (.failed (.storage .injectedWrite)) secondRefused
    ∧ Durable twoUnwritten secondRefused ⟨1, 0⟩
    ∧ ∃ copy last, secondRefused.serve (.acquire ⟨2⟩ ⟨1, 1⟩ .reading) = .ok (.ok (.copy copy), last)
      ∧ Presents (twoUnwritten.standing.image? ⟨1, 1⟩) ⟨1, 1⟩ last copy := by
  obtain ⟨_, _, ⟨result, after, settles, ran⟩, _⟩ :=
    commit_leaves_nothing arises_twoUnwritten ⟨1⟩ (fun id => id.number = 1) fun _ => false
  have both : twoUnwritten.pool.changedBy ⟨1⟩ = [⟨1, 0⟩, ⟨1, 1⟩] := by decide +kernel
  have accepted : refusal? (fun id => id.number = 1) twoUnwritten ⟨1, 0⟩ = none := by decide +kernel
  have refused : refusal? (fun id => id.number = 1) twoUnwritten ⟨1, 1⟩ = some (.storage .injectedWrite) := by
    decide +kernel
  obtain ⟨rfl, written, reverted⟩ := settles.stops [⟨1, 0⟩] ⟨1, 1⟩ [] _ both (by simpa using accepted) refused
  obtain rfl : secondRefused = after := left_of_error ran
  have answered : secondRefused.answer? (Command.acquire ⟨2⟩ ⟨1, 1⟩ .reading).perform
      = some (.ok (.copy ⟨⟨1, 1⟩, 1⟩)) := by decide +kernel
  have served : secondRefused.serve (.acquire ⟨2⟩ ⟨1, 1⟩ .reading) = .ok _ := run_eq answered
  exact ⟨arises_twoUnwritten, ran, written _ List.mem_cons_self, _, _, served,
    (reverted _ List.mem_cons_self).gives _ _ _ _ _ .refl rfl served rfl⟩

end Database

end HeapEngine
